import UefiToolkit.FlashModel
import UefiToolkit.Requests

/-!
The cycles that one write or one erase of the flash issues, on a device that may fail at any of
them.

The cycles that went well stand one behind the other, and the first that fails is the last.
-/

namespace UefiToolkit.FlashCycles

open UefiToolkit.Word UefiToolkit.Loop UefiToolkit.Mem UefiToolkit.Requests UefiToolkit.FlashModel

variable {δ : Type} {c : Config} {p : Platform δ} {s s' : St δ}
  {size : SpiCycle → ℕ} {due : ℕ → SpiCycle → Prop} {l : List SpiCycle}

lemma after_trace (p : Platform δ) (s : St δ) (l : List SpiCycle) :
    (after (execute p) s l).trace = s.trace ++ l.map .execute := by
  induction l generalizing s with
  | nil => simp [after]
  | cons q l ih =>
    have hq : (execute p s q).2.trace = s.trace ++ [.execute q] := rfl
    calc (after (execute p) s (q :: l)).trace = (after (execute p) (execute p s q).2 l).trace := rfl
      _ = (s.trace ++ [.execute q]) ++ l.map .execute := by rw [ih, hq]
      _ = s.trace ++ (q :: l).map .execute := by simp

/-! ### The loop over the cycles -/

/-- One round of either loop, with the cycle it issues. -/
def advance (p : Platform δ) (x : Cycles δ) (q : SpiCycle) (length buffer : ℕ) : Cycles δ :=
  let (status, s) := execute p x.s q
  if efiError status then { x with status := status, s := s }
  else ⟨status, x.remainingBytes - length, x.offset + length, buffer, s⟩

/-- Where a loop over `n` bytes is; `index` is the place in the buffer. -/
structure Along (p : Platform δ) (s : St δ) (size : SpiCycle → ℕ) (due : ℕ → SpiCycle → Prop)
    (offset n : ℕ) (index : ℕ → ℕ) (good : List SpiCycle) (failed : Option SpiCycle)
    (x : Cycles δ) : Prop where
  carried : Carried (execute p) efiError s good failed x.status x.s
  due : Due size due 0 (good ++ failed.toList)
  left : total size good + x.remainingBytes = n
  offset : x.offset = offset + total size good
  buffer : x.buffer = index (total size good)
  stopped : failed.isSome = true → 0 < x.remainingBytes

section Along

variable {offset n : ℕ} {index : ℕ → ℕ} {good : List SpiCycle} {failed : Option SpiCycle}
  {x : Cycles δ} {q : SpiCycle}

/-- A cycle that fails is the last one. -/
lemma Along.fail (h : Along p s size due offset n index good none x)
    (hq : due (total size good) q) (hpos : 0 < x.remainingBytes) {length buffer : ℕ}
    (herr : efiError (execute p x.s q).1 = true) :
    Along p s size due offset n index good (some q) (advance p x q length buffer) := by
  obtain ⟨hcarried, hdue, hleft, hoffset, hbuffer, -⟩ := h
  rw [Option.toList_none, List.append_nil] at hdue
  have hx : advance p x q length buffer =
      { x with status := (execute p x.s q).1, s := (execute p x.s q).2 } := if_pos herr
  rw [hx]
  exact ⟨hcarried.fail herr, hdue.snoc hq, hleft, hoffset, hbuffer, fun _ => hpos⟩

/-- A cycle that goes well is behind the others. -/
lemma Along.succeed (h : Along p s size due offset n index good none x)
    (hq : due (total size good) q) (hsize : size q ≤ x.remainingBytes)
    (hok : efiError (execute p x.s q).1 = false) :
    Along p s size due offset n index (good ++ [q]) none
      (advance p x q (size q) (index (total size good + size q))) := by
  obtain ⟨hcarried, hdue, hleft, hoffset, hbuffer, -⟩ := h
  rw [Option.toList_none, List.append_nil] at hdue
  have hx : advance p x q (size q) (index (total size good + size q)) =
      ⟨(execute p x.s q).1, x.remainingBytes - size q, x.offset + size q,
        index (total size good + size q), (execute p x.s q).2⟩ := if_neg (Bool.eq_false_iff.mp hok)
  have htotal : total size (good ++ [q]) = total size good + size q := by
    simp [total_append]
  rw [hx]
  refine ⟨hcarried.succeed hok, ?_, ?_, ?_, ?_, by simp⟩
  · simpa using hdue.snoc hq
  · simp only
    omega
  · simp only
    omega
  · rw [htotal]

/-- The rounds that are left at most. -/
def rounds (x : Cycles δ) : ℕ :=
  if efiError x.status = true then 0 else (x.remainingBytes + (SIZE_4KB - 1)) / SIZE_4KB

/-- A round fails or leaves less to do. -/
lemma rounds_advance (p : Platform δ) (hok : efiError x.status = false)
    (hpos : 0 < x.remainingBytes) (hsize : size q = min SIZE_4KB x.remainingBytes)
    (buffer : ℕ) : rounds (advance p x q (size q) buffer) < rounds x := by
  have hB : SIZE_4KB = 4096 := rfl
  have hbefore : rounds x = (x.remainingBytes + (SIZE_4KB - 1)) / SIZE_4KB := if_neg (by simp [hok])
  rw [hbefore, advance]
  rcases hanswer : efiError (execute p x.s q).1 with _ | _
  · simp only [rounds, hanswer, Bool.false_eq_true, if_false, hsize, hB]
    omega
  · simp only [rounds, hanswer, if_true, hB]
    omega

/-- **The loop over the cycles** ends behind the last one that is due or behind the first that
fails. -/
theorem cycles_loop (p : Platform δ) (size : SpiCycle → ℕ) (due : ℕ → SpiCycle → Prop)
    (offset : ℕ) (index : ℕ → ℕ) (step : Cycles δ → Cycles δ)
    (hstep : ∀ x l, total size l + x.remainingBytes = n → x.offset = offset + total size l →
      x.buffer = index (total size l) → 0 < x.remainingBytes →
      ∃ q, step x = advance p x q (size q) (index (total size l + size q)) ∧
        due (total size l) q ∧ size q = min SIZE_4KB x.remainingBytes)
    {fuel : ℕ} (hfuel : n ≤ SIZE_4KB * fuel) (s : St δ) :
    ∃ x good failed, whileFuel Cycles.more (fun x => some (step x)) fuel
        ⟨EFI_SUCCESS, n, offset, index 0, s⟩ = some x ∧
      Along p s size due offset n index good failed x ∧
      (failed = none → x.remainingBytes = 0) := by
  have hB : SIZE_4KB = 4096 := rfl
  have hstart : Along p s size due offset n index [] none ⟨EFI_SUCCESS, n, offset, index 0, s⟩ :=
    ⟨.refl s efiError_success, trivial, by simp, by simp, rfl, by simp⟩
  have hbound : rounds ⟨EFI_SUCCESS, n, offset, index 0, s⟩ ≤ fuel := by
    rw [rounds, if_neg not_efiError_success]
    simp only [hB] at hfuel ⊢
    omega
  obtain ⟨x, hrun, ⟨good, failed, hx⟩, hdone⟩ :=
    whileFuel_spec Cycles.more (fun x => some (step x)) (μ := rounds)
      (I := fun x => ∃ good failed, Along p s size due offset n index good failed x)
      (fun x ⟨good, failed, hx⟩ hmore => by
        simp only [Cycles.more, Bool.and_eq_true, decide_eq_true_eq, Bool.not_eq_true'] at hmore
        obtain ⟨hpos, hok⟩ := hmore
        -- the loop goes on, so none has failed
        obtain rfl : failed = none := by
          rw [← Option.not_isSome_iff_eq_none, ← hx.carried.error_iff, hok]
          exact Bool.false_ne_true
        obtain ⟨q, hq, hdue, hsize⟩ := hstep x _ hx.left hx.offset hx.buffer hpos
        refine ⟨_, rfl, ?_, ?_⟩
        · rw [hq]
          rcases hanswer : efiError (execute p x.s q).1 with _ | _
          · exact ⟨_, none, hx.succeed hdue (by omega) hanswer⟩
          · exact ⟨good, some q, hx.fail hdue hpos hanswer⟩
        · rw [hq]
          exact rounds_advance p hok hpos hsize _) fuel _ ⟨[], none, hstart⟩ hbound
  refine ⟨x, good, failed, hrun, hx, ?_⟩
  rintro rfl
  have hok : efiError x.status = false := by
    rw [← Bool.not_eq_true, hx.carried.error_iff]
    simp
  simpa [Cycles.more, hok] using hdone

end Along

/-! ### What is reported -/

/-- The cycles that went well cover `count` bytes of `n`, and an error is reported if and only if
that is not all of them. -/
structure Reported (size : SpiCycle → ℕ) (n : ℕ) (good : List SpiCycle) (status : Status)
    (count : ℕ) : Prop where
  counts : count = total size good
  le : count ≤ n
  error_iff : efiError status = true ↔ count < n

lemma Along.reported {offset n : ℕ} {index : ℕ → ℕ} {good : List SpiCycle}
    {failed : Option SpiCycle} {x : Cycles δ}
    (h : Along p s size due offset n index good failed x)
    (hend : failed = none → x.remainingBytes = 0) :
    Reported size n good x.status (n - x.remainingBytes) := by
  have hleft := h.left
  refine ⟨by omega, Nat.sub_le n _, h.carried.error_iff.trans ?_⟩
  cases failed with
  | none =>
    have := hend rfl
    simp only [Option.isSome_none]
    constructor
    · simp
    · omega
  | some q =>
    have := h.stopped rfl
    simp only [Option.isSome_some, true_iff]
    omega

/-- Some cycles of a kind are issued and nothing else happens; they stop at the first failure, and
the report is right. -/
def Stops (p : Platform δ) (s : St δ) (size : SpiCycle → ℕ) (n : ℕ) (kind : List SpiCycle → Prop)
    (status : Status) (count : ℕ) (s' : St δ) : Prop :=
  ∃ good failed, Carried (execute p) efiError s good failed status s' ∧
    s'.trace = s.trace ++ (good ++ failed.toList).map .execute ∧ kind (good ++ failed.toList) ∧
    Reported size n good status count

/-! ### Programming and erasing -/

/-- A request for `n` bytes inside the flash area. -/
structure Inside (c : Config) (address n : ℕ) : Prop where
  base_lt : c.base < 2 ^ 32
  size_lt : c.size < 2 ^ 32
  base_le : c.base ≤ address
  inside : n + (address - c.base) ≤ c.size

lemma Inside.offset {address n : ℕ} (h : Inside c address n) :
    sub64 address c.base = address - c.base := by
  obtain ⟨hbase, hsize, hle, hin⟩ := h
  exact sub64_of_le (by omega) hle

/-- The cycle that programs some bytes. -/
def program (offset : ℕ) (data : List UInt8) : SpiCycle :=
  ⟨SPI_OPCODE_WRITE_INDEX, SPI_WREN, true, true, true, offset, data⟩

/-- The cycle that erases 4 KiB. -/
def erase (offset : ℕ) : SpiCycle :=
  ⟨SPI_OPCODE_ERASE_INDEX, SPI_WREN, false, true, true, offset, []⟩

def programBytes (q : SpiCycle) : ℕ := q.data.length

def eraseBytes (_ : SpiCycle) : ℕ := SIZE_4KB

/-- Cycles of at most 4 KiB that program the first of `n` bytes, one behind the other from
`offset` on, with the buffer from `start` on. -/
structure Programs (buffer : ℕ → UInt8) (offset start n : ℕ) (l : List SpiCycle) : Prop where
  cycle : ∀ q ∈ l, q = program q.address q.data ∧ q.data.length ≤ SIZE_4KB
  place : Due programBytes (fun covered q => q.address = offset + covered) 0 l
  data : l.flatMap SpiCycle.data = slice buffer start (total programBytes l)
  le : total programBytes l ≤ n

/-- Cycles that erase the first of `n` bytes, one behind the other from `offset` on. -/
structure Erases (offset n : ℕ) (l : List SpiCycle) : Prop where
  cycle : ∀ q ∈ l, q = erase q.address
  place : Due eraseBytes (fun covered q => q.address = offset + covered) 0 l
  le : total eraseBytes l ≤ n

section Requests

variable {offset start n : ℕ} {buffer : ℕ → UInt8}

/-- The next cycle to program, when so many bytes are covered. -/
def ProgramDue (buffer : ℕ → UInt8) (offset start n covered : ℕ) (q : SpiCycle) : Prop :=
  covered < n ∧
    q = program (offset + covered) (slice buffer (start + covered) (min SIZE_4KB (n - covered)))

def EraseDue (offset n covered : ℕ) (q : SpiCycle) : Prop :=
  covered + SIZE_4KB ≤ n ∧ q = erase (offset + covered)

/-- The bytes of the cycles stand in the buffer as they do in flash. -/
lemma programDue_data {covered : ℕ}
    (h : Due programBytes (ProgramDue buffer offset start n) covered l) (hle : covered ≤ n) :
    l.flatMap SpiCycle.data = slice buffer (start + covered) (total programBytes l) ∧
      covered + total programBytes l ≤ n := by
  induction l generalizing covered with
  | nil => simpa using hle
  | cons q l ih =>
    obtain ⟨⟨hlt, hq⟩, hl⟩ := h
    have hsize : programBytes q = min SIZE_4KB (n - covered) := by
      rw [hq, programBytes, program, slice_length]
    obtain ⟨hdata, hfit⟩ := ih hl (by omega)
    rw [total_cons, List.flatMap_cons, hdata, slice_add, hsize]
    constructor
    · rw [hq, program, Nat.add_assoc]
    · omega

lemma programs_of_due (h : Due programBytes (ProgramDue buffer offset start n) 0 l) :
    Programs buffer offset start n l where
  cycle := h.forall (by
    rintro covered q ⟨-, rfl⟩
    refine ⟨rfl, ?_⟩
    rw [program, slice_length]
    exact Nat.min_le_left _ _)
  place := h.imp (by
    rintro covered q ⟨-, rfl⟩
    rfl)
  data := (programDue_data h (Nat.zero_le n)).1
  le := by
    have := (programDue_data h (Nat.zero_le n)).2
    omega

lemma eraseDue_le {covered : ℕ} (h : Due eraseBytes (EraseDue offset n) covered l)
    (hle : covered ≤ n) : covered + total eraseBytes l ≤ n := by
  induction l generalizing covered with
  | nil => simpa using hle
  | cons q l ih =>
    have := ih h.2 h.1.1
    rw [total_cons, ← Nat.add_assoc]
    exact this

lemma total_eraseBytes (l : List SpiCycle) : total eraseBytes l = SIZE_4KB * l.length := by
  induction l with
  | nil => rfl
  | cons q l ih => rw [total_cons, ih, List.length_cons, Nat.mul_succ, Nat.add_comm, eraseBytes]

lemma erases_of_due (h : Due eraseBytes (EraseDue offset n) 0 l) : Erases offset n l where
  cycle := h.forall (by
    rintro covered q ⟨-, rfl⟩
    rfl)
  place := h.imp (by
    rintro covered q ⟨-, rfl⟩
    rfl)
  le := by
    have := eraseDue_le h (Nat.zero_le n)
    omega

end Requests

lemma spiFlashWrite_stops {address n : ℕ} (hin : Inside c address n) (p : Platform δ)
    (buffer : ℕ → UInt8) (start : ℕ) {fuel : ℕ} (hfuel : n ≤ SIZE_4KB * fuel) (s : St δ) :
    ∃ status count s', spiFlashWrite c p buffer fuel address n start s = some (status, count, s') ∧
      Stops p s programBytes n (Programs buffer (address - c.base) start n) status count s' := by
  obtain ⟨x, good, failed, hrun, hx, hend⟩ := cycles_loop p programBytes
    (ProgramDue buffer (address - c.base) start n) (address - c.base) (start + ·)
    (writeStep p buffer) (fun x l hleft hoffset hbuffer hpos => by
      obtain ⟨hbase, hsize, hle, hin⟩ := hin
      have hlength : (if SIZE_4KB < x.remainingBytes then SIZE_4KB else x.remainingBytes) =
          min SIZE_4KB x.remainingBytes := by split_ifs <;> omega
      refine ⟨program x.offset (slice buffer x.buffer (min SIZE_4KB x.remainingBytes)), ?_, ?_, ?_⟩
      · rw [writeStep, hlength, u32_of_lt (by omega), u64_of_lt (by omega)]
        rw [advance, programBytes, program, slice_length, hbuffer, Nat.add_assoc]
      · have hrest : n - total programBytes l = x.remainingBytes := by omega
        exact ⟨by omega, by rw [hoffset, hbuffer, hrest]⟩
      · rw [programBytes, program, slice_length]) hfuel s
  refine ⟨x.status, n - x.remainingBytes, x.s, ?_, good, failed, hx.carried, ?_,
    programs_of_due hx.due, hx.reported hend⟩
  · rw [spiFlashWrite, hin.offset]
    exact congrArg (Option.map _) hrun
  · rw [hx.carried.state, after_trace]

lemma spiFlashBlockErase_stops {address n : ℕ} (hin : Inside c address n) (hn : SIZE_4KB ∣ n)
    (p : Platform δ) {fuel : ℕ} (hfuel : n ≤ SIZE_4KB * fuel) (s : St δ) :
    ∃ status count s', spiFlashBlockErase c p fuel address n s = some (status, count, s') ∧
      Stops p s eraseBytes n (Erases (address - c.base) n) status count s' := by
  obtain ⟨k, rfl⟩ := hn
  obtain ⟨x, good, failed, hrun, hx, hend⟩ := cycles_loop p eraseBytes
    (EraseDue (address - c.base) (SIZE_4KB * k)) (address - c.base) (fun _ => 0)
    (eraseStep p) (fun x l hleft hoffset hbuffer hpos => by
      obtain ⟨hbase, hsize, hle, hin⟩ := hin
      -- what is covered are whole sectors, so a whole one is left
      have hwhole : SIZE_4KB ≤ x.remainingBytes := by
        rw [total_eraseBytes] at hleft
        exact Nat.le_of_dvd hpos ((Nat.dvd_add_right ⟨_, rfl⟩).mp ⟨k, hleft⟩)
      refine ⟨erase x.offset, ?_, ⟨by omega, by rw [hoffset]⟩, (Nat.min_eq_left hwhole).symm⟩
      rw [eraseStep, u32_of_lt (by omega), u64_of_lt (by omega), sub64_of_le (by omega) hwhole]
      exact congrArg (advance p x (erase x.offset) SIZE_4KB) hbuffer) hfuel s
  refine ⟨x.status, SIZE_4KB * k - x.remainingBytes, x.s, ?_, good, failed, hx.carried, ?_,
    erases_of_due hx.due, hx.reported hend⟩
  · have hleft := hx.left
    obtain ⟨hbase, hsize, hle, hin'⟩ := hin
    rw [spiFlashBlockErase, Inside.offset ⟨hbase, hsize, hle, hin'⟩, hrun]
    simp only [Option.map_some, sub64_of_le (by omega : SIZE_4KB * k < 2 ^ 64)
      (by omega : x.remainingBytes ≤ SIZE_4KB * k)]
  · rw [hx.carried.state, after_trace]

/-- **Cycles until one fails.** A write and an erase issue cycles one behind the other, stop at the
first that fails, and report how far they came. -/
theorem spiFlash_stops {address n : ℕ} (hin : Inside c address n) (p : Platform δ)
    (buffer : ℕ → UInt8) (start : ℕ) {fuel : ℕ} (hfuel : n ≤ SIZE_4KB * fuel) (s : St δ) :
    (∃ status count s',
      spiFlashWrite c p buffer fuel address n start s = some (status, count, s') ∧
      Stops p s programBytes n (Programs buffer (address - c.base) start n) status count s') ∧
    (SIZE_4KB ∣ n → ∃ status count s',
      spiFlashBlockErase c p fuel address n s = some (status, count, s') ∧
      Stops p s eraseBytes n (Erases (address - c.base) n) status count s') :=
  ⟨spiFlashWrite_stops hin p buffer start hfuel s,
    fun hn => spiFlashBlockErase_stops hin hn p hfuel s⟩

/-- A device that fails from its second cycle on. -/
def failing : Platform ℕ where
  execute d f _ := (if d = 0 then EFI_SUCCESS else EFI_DEVICE_ERROR, f, d + 1)
  allocatePool d _ := (true, d)

theorem spiFlash_stops_failing :
    (∃ status count s',
      spiFlashWrite ⟨0xFF000000, 0x1000000⟩ failing (fun i => UInt8.ofNat i) 2 0xFF000100 0x2000 0
        ⟨0, fun _ => 0xFF, 4, []⟩ = some (status, count, s') ∧
      Stops failing ⟨0, fun _ => 0xFF, 4, []⟩ programBytes 0x2000
        (Programs (fun i => UInt8.ofNat i) (0xFF000100 - 0xFF000000) 0 0x2000) status count s') ∧
    (SIZE_4KB ∣ 0x2000 → ∃ status count s',
      spiFlashBlockErase ⟨0xFF000000, 0x1000000⟩ failing 2 0xFF000100 0x2000
        ⟨0, fun _ => 0xFF, 4, []⟩ = some (status, count, s') ∧
      Stops failing ⟨0, fun _ => 0xFF, 4, []⟩ eraseBytes 0x2000
        (Erases (0xFF000100 - 0xFF000000) 0x2000) status count s') :=
  spiFlash_stops (c := ⟨0xFF000000, 0x1000000⟩)
    ⟨by decide, by decide, by decide, by decide⟩ failing _ 0 (by decide) _

end UefiToolkit.FlashCycles
