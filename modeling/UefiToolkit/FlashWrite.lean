import UefiToolkit.FlashModel

/-!
What a flash update leaves behind, on a device that may fail, lie about its status or write
wrong data, as long as a cycle changes nothing but the sector it addresses.
-/

namespace UefiToolkit.FlashWrite

open UefiToolkit.Word UefiToolkit.Loop UefiToolkit.Mem UefiToolkit.FlashModel

variable {δ : Type} {c : Config} {p : Platform δ} {s s' s'' : St δ}

/-- The sector, counted in blocks, that a cycle addresses. -/
def SpiCycle.sector (q : SpiCycle) : ℕ := q.address / BLOCK_SIZE

/-- Whatever else it does, a cycle stays inside the sector it addresses. -/
def SectorOnly (p : Platform δ) : Prop :=
  ∀ d f q, Confined (BLOCK_SIZE * SpiCycle.sector q) (BLOCK_SIZE * (SpiCycle.sector q + 1)) f
    (p.execute d f q).2.1

/-- Pool allocation succeeds. -/
def AllocOk (p : Platform δ) : Prop := ∀ d n, (p.allocatePool d n).1 = true

/-! ### Cycles at one sector -/

/-- From `s` to `s'` nothing happened but cycles at sectors `[k, k')`. -/
structure Touches (k k' : ℕ) (s s' : St δ) : Prop where
  flash : Confined (BLOCK_SIZE * k) (BLOCK_SIZE * k') s.flash s'.flash
  tpl : s'.tpl = s.tpl
  trace : ∃ l, s'.trace = s.trace ++ l ∧
    ∀ e ∈ l, ∃ q, e = .execute q ∧ k ≤ SpiCycle.sector q ∧ SpiCycle.sector q < k'

variable {k k' : ℕ}

lemma Touches.refl (k k' : ℕ) (s : St δ) : Touches k k' s s :=
  ⟨Confined.refl _ _ _, rfl, [], by simp, by simp⟩

lemma Touches.trans (h : Touches k k' s s') (h' : Touches k k' s' s'') : Touches k k' s s'' := by
  obtain ⟨l, e, hl⟩ := h.trace
  obtain ⟨l', e', hl'⟩ := h'.trace
  refine ⟨h.flash.trans h'.flash, h'.tpl.trans h.tpl, l ++ l', by rw [e', e, List.append_assoc],
    fun x hx => ?_⟩
  rcases List.mem_append.mp hx with hx | hx
  · exact hl x hx
  · exact hl' x hx

lemma touches_execute (hp : SectorOnly p) (s : St δ) {q : SpiCycle}
    (hq : SpiCycle.sector q = k) : Touches k (k + 1) s (execute p s q).2 := by
  subst hq
  exact ⟨hp _ _ q, rfl, [.execute q], rfl, by simp⟩

/-- The block at sector `k` equals the buffer from `start` on. -/
def BlockEq (buffer : ℕ → UInt8) (k start : ℕ) (flash : ℕ → UInt8) : Prop :=
  slice flash (BLOCK_SIZE * k) BLOCK_SIZE = slice buffer start BLOCK_SIZE

instance (buffer : ℕ → UInt8) (k start : ℕ) (flash : ℕ → UInt8) :
    Decidable (BlockEq buffer k start flash) := inferInstanceAs (Decidable (_ = _))

lemma internalCompareBlock_spec (ha : AllocOk p) (buffer : ℕ → UInt8) {address : ℕ} (start : ℕ)
    (haddr : address - c.base = BLOCK_SIZE * k) (s : St δ) :
    ∃ s', internalCompareBlock c p buffer address start s =
        (if BlockEq buffer k start s.flash then EFI_SUCCESS else EFI_VOLUME_CORRUPTED, s') ∧
      Touches k (k + 1) s s' ∧ s'.flash = s.flash ∧ s'.trace = s.trace := by
  refine ⟨(allocatePool p s BLOCK_SIZE).2, ?_,
    ⟨Confined.refl _ _ _, rfl, [], by simp [allocatePool], by simp⟩, rfl, rfl⟩
  have hok : (p.allocatePool s.dev BLOCK_SIZE).1 = true := ha _ _
  simp only [internalCompareBlock, allocatePool, spiFlashRead, hok, haddr, BlockEq]
  split_ifs <;> simp_all

/-- A step that leaves either an error or nothing to do ends its loop. -/
lemma more_false {x : Cycles δ} (h : efiError x.status = true ∨ x.remainingBytes = 0) :
    x.more = false := by
  rcases h with h | h <;> simp [Cycles.more, h]

/-- The one cycle that erases block `k`. -/
def eraseCycle (k : ℕ) : SpiCycle :=
  ⟨SPI_OPCODE_ERASE_INDEX, SPI_WREN, false, true, true, u32 (BLOCK_SIZE * k), []⟩

/-- The one cycle that programs block `k`, with the buffer from `start` on. -/
def programCycle (buffer : ℕ → UInt8) (k start : ℕ) : SpiCycle :=
  ⟨SPI_OPCODE_WRITE_INDEX, SPI_WREN, true, true, true, u32 (BLOCK_SIZE * k),
    slice buffer start BLOCK_SIZE⟩

lemma sector_block (hk : BLOCK_SIZE * k < 2 ^ 32) : u32 (BLOCK_SIZE * k) / BLOCK_SIZE = k := by
  rw [u32_of_lt hk]
  exact Nat.mul_div_cancel_left k (by decide)

lemma internalEraseBlock_eq (p : Platform δ) {address fuel : ℕ}
    (haddr : sub64 address c.base = BLOCK_SIZE * k) (hf : 0 < fuel) (s : St δ) :
    internalEraseBlock c p fuel address s = some (execute p s (eraseCycle k)) := by
  set x : Cycles δ := eraseStep p ⟨EFI_SUCCESS, BLOCK_SIZE, BLOCK_SIZE * k, 0, s⟩ with hx
  have hxs : (x.status, x.s) = execute p s (eraseCycle k) := by
    simp only [hx, eraseStep]; split_ifs <;> rfl
  have hend : x.more = false := more_false (by
    simp only [hx, eraseStep]
    split_ifs with h
    · exact Or.inl h
    · exact Or.inr (by show sub64 BLOCK_SIZE SIZE_4KB = 0; decide))
  rw [internalEraseBlock, spiFlashBlockErase, haddr, whileFuel_once rfl (by rw [← hx]) hend hf,
    ← hxs]
  rfl

/-- One erase cycle, whatever becomes of it. -/
lemma internalEraseBlock_spec (hp : SectorOnly p) {address fuel : ℕ}
    (haddr : sub64 address c.base = BLOCK_SIZE * k) (hk : BLOCK_SIZE * k < 2 ^ 32)
    (hf : 0 < fuel) (s : St δ) :
    ∃ status s', internalEraseBlock c p fuel address s = some (status, s') ∧
      Touches k (k + 1) s s' ∧ s'.trace ≠ s.trace :=
  ⟨_, _, internalEraseBlock_eq p haddr hf s,
    touches_execute hp s (q := eraseCycle k) (sector_block hk), by simp [St.note]⟩

lemma spiFlashWrite_eq (p : Platform δ) (buffer : ℕ → UInt8) {address fuel : ℕ} (start : ℕ)
    (haddr : sub64 address c.base = BLOCK_SIZE * k) (hf : 0 < fuel) (s : St δ) :
    ∃ n, spiFlashWrite c p buffer fuel address BLOCK_SIZE start s =
      some ((execute p s (programCycle buffer k start)).1, n,
        (execute p s (programCycle buffer k start)).2) := by
  set x : Cycles δ := writeStep p buffer ⟨EFI_SUCCESS, BLOCK_SIZE, BLOCK_SIZE * k, start, s⟩
    with hx
  have hxs : (x.status, x.s) = execute p s (programCycle buffer k start) := by
    simp only [hx, writeStep, show ¬ SIZE_4KB < BLOCK_SIZE by decide, if_false]
    split_ifs <;> rfl
  have hend : x.more = false := more_false (by
    simp only [hx, writeStep, show ¬ SIZE_4KB < BLOCK_SIZE by decide, if_false]
    split_ifs with h
    · exact Or.inl h
    · exact Or.inr (Nat.sub_self _))
  refine ⟨BLOCK_SIZE - x.remainingBytes, ?_⟩
  rw [spiFlashWrite, haddr, whileFuel_once rfl (by rw [← hx]) hend hf, ← hxs]
  rfl

/-- One program cycle for a whole block. -/
lemma spiFlashWrite_spec (hp : SectorOnly p) (buffer : ℕ → UInt8) {address fuel : ℕ} (start : ℕ)
    (haddr : sub64 address c.base = BLOCK_SIZE * k) (hk : BLOCK_SIZE * k < 2 ^ 32)
    (hf : 0 < fuel) (s : St δ) :
    ∃ status n s', spiFlashWrite c p buffer fuel address BLOCK_SIZE start s =
      some (status, n, s') ∧ Touches k (k + 1) s s' := by
  obtain ⟨n, hw⟩ := spiFlashWrite_eq p buffer start haddr hf s
  exact ⟨_, n, _, hw, touches_execute hp s (q := programCycle buffer k start) (sector_block hk)⟩

/-- Where a block is in flash. -/
lemma block_offset {address : ℕ} (haddr : address = c.base + BLOCK_SIZE * k)
    (h64 : address < 2 ^ 64) :
    address - c.base = BLOCK_SIZE * k ∧ sub64 address c.base = BLOCK_SIZE * k := by
  have hoff : address - c.base = BLOCK_SIZE * k := by omega
  exact ⟨hoff, (sub64_of_le h64 (by omega)).trans hoff⟩

/-- With a block left at least, a whole one is written. -/
lemma fullBlock_length {length : ℕ} (h : BLOCK_SIZE ≤ length) :
    u32 (if BLOCK_SIZE < length then BLOCK_SIZE else length) = BLOCK_SIZE := by
  have hmin : (if BLOCK_SIZE < length then BLOCK_SIZE else length) = BLOCK_SIZE := by
    split_ifs <;> omega
  rw [hmin]
  rfl

/-- **One block**: left alone when it matches; else written, and right if no error is
reported. -/
lemma updateBlock_spec (hp : SectorOnly p) (ha : AllocOk p) (buffer : ℕ → UInt8)
    (start length : ℕ) {address fuel : ℕ} (haddr : address = c.base + BLOCK_SIZE * k)
    (hk : BLOCK_SIZE * k < 2 ^ 32) (h64 : address < 2 ^ 64) (hlen : BLOCK_SIZE ≤ length)
    (hf : 0 < fuel) (s : St δ) :
    ∃ status s', updateBlock c p buffer fuel address start length EFI_SUCCESS s =
        some (status, s') ∧ Touches k (k + 1) s s' ∧
      (BlockEq buffer k start s.flash →
        status = EFI_SUCCESS ∧ s'.flash = s.flash ∧ s'.trace = s.trace) ∧
      (status = EFI_SUCCESS ∧ BlockEq buffer k start s'.flash ∨
        efiError status = true ∧ s'.trace ≠ s.trace) := by
  obtain ⟨hoff, hsub⟩ := block_offset haddr h64
  have hblock := fullBlock_length hlen
  obtain ⟨s₁, hc, ht₁, hfl, htr⟩ := internalCompareBlock_spec ha buffer start hoff s
  unfold updateBlock
  rw [hc]
  by_cases hm : BlockEq buffer k start s.flash
  · rw [if_pos hm]
    exact ⟨EFI_SUCCESS, s₁, rfl, ht₁, fun _ => ⟨rfl, hfl, htr⟩, Or.inl ⟨rfl, by rwa [hfl]⟩⟩
  · rw [if_neg hm]
    obtain ⟨st₂, s₂, he, ht₂, hne⟩ := internalEraseBlock_spec hp hsub hk hf s₁
    have hcorr : (!efiError EFI_VOLUME_CORRUPTED) = false := by decide
    simp only [hcorr, Bool.false_eq_true, if_false, he, Option.bind_some, hblock]
    have grown : ∀ {s₃ : St δ}, Touches k (k + 1) s₂ s₃ → s₃.trace ≠ s.trace := by
      intro s₃ h₃ heq
      obtain ⟨l, el, -⟩ := h₃.trace
      obtain ⟨l', el', -⟩ := ht₂.trace
      rw [el, el', ← htr, List.append_assoc] at heq
      have hl : l' ++ l = [] := by simpa using heq
      rw [List.append_eq_nil_iff] at hl
      exact hne (by rw [el', hl.1, List.append_nil])
    by_cases h₂ : efiError st₂ = true
    · rw [if_pos h₂]
      exact ⟨st₂, s₂, rfl, ht₁.trans ht₂, fun h => absurd h hm,
        Or.inr ⟨h₂, grown (Touches.refl _ _ _)⟩⟩
    · rw [if_neg h₂]
      obtain ⟨st₃, n, s₃, hw, ht₃⟩ := spiFlashWrite_spec hp buffer start hsub hk hf s₂
      unfold internalWriteBlock
      rw [hw, Option.bind_some]
      by_cases h₃ : efiError st₃ = true
      · simp only [if_pos h₃]
        exact ⟨st₃, s₃, rfl, ht₁.trans (ht₂.trans ht₃), fun h => absurd h hm,
          Or.inr ⟨h₃, grown ht₃⟩⟩
      · simp only [if_neg h₃]
        obtain ⟨s₄, hc₄, ht₄, hfl₄, -⟩ := internalCompareBlock_spec ha buffer start hoff s₃
        refine ⟨_, s₄, by rw [hc₄], ht₁.trans (ht₂.trans (ht₃.trans ht₄)),
          fun h => absurd h hm, ?_⟩
        by_cases hv : BlockEq buffer k start s₃.flash
        · exact Or.inl ⟨if_pos hv, by rwa [hfl₄]⟩
        · exact Or.inr ⟨by rw [if_neg hv]; decide, grown (ht₃.trans ht₄)⟩

/-! ### The loop over the blocks -/

/-- The cycles executed in a stretch of events. -/
def cycles (l : List Event) : List SpiCycle :=
  l.filterMap fun e => match e with
    | .execute q => some q
    | _ => none

/-- The task priority changes in a stretch of events. -/
def tplChanges (l : List Event) : List Event :=
  l.filter fun e => match e with
    | .raiseTpl _ => true
    | .restoreTpl _ => true
    | _ => false

@[simp] lemma cycles_append (l l' : List Event) : cycles (l ++ l') = cycles l ++ cycles l' := by
  simp [cycles]
@[simp] lemma tplChanges_append (l l' : List Event) :
    tplChanges (l ++ l') = tplChanges l ++ tplChanges l' := by simp [tplChanges]

lemma tplChanges_cycles {l : List Event} {P : SpiCycle → Prop}
    (h : ∀ e ∈ l, ∃ q, e = .execute q ∧ P q) : tplChanges l = [] := by
  refine List.filter_eq_nil_iff.mpr fun e he => ?_
  obtain ⟨q, rfl, -⟩ := h e he
  simp

lemma cycles_mem {l : List Event} {q : SpiCycle} : q ∈ cycles l ↔ .execute q ∈ l := by
  simp only [cycles, List.mem_filterMap]
  constructor
  · rintro ⟨e, he, h⟩
    cases e <;> simp_all
  · exact fun h => ⟨_, h, rfl⟩

/-- What the loop did to `n` blocks from sector `k` on, the buffer taken from `start` on: it
got `m` of them right and stopped there. -/
structure BlocksDone (buffer : ℕ → UInt8) (k start n oldTpl : ℕ) (status : Status) (left : Bool)
    (m : ℕ) (s s' : St δ) : Prop where
  le : m ≤ n
  ok : left = false → m = n ∧ status = EFI_SUCCESS
  err : left = true → m < n ∧ efiError status = true
  /-- Blocks before the last one touched equal the buffer. -/
  done : ∀ i < m, BlockEq buffer (k + i) (start + BLOCK_SIZE * i) s'.flash
  /-- Nothing behind the last one touched, or outside, changed. -/
  rest : Confined (BLOCK_SIZE * k) (BLOCK_SIZE * (k + m + left.toNat)) s.flash s'.flash
  tpl : s'.tpl = if left then oldTpl else s.tpl
  events : ∃ l, s'.trace = s.trace ++ l ∧
    tplChanges l = (if left then [.restoreTpl oldTpl] else []) ∧
    (∀ q ∈ cycles l, k ≤ SpiCycle.sector q ∧ SpiCycle.sector q < k + m + left.toNat) ∧
    (left = true → ∃ q ∈ cycles l, SpiCycle.sector q = k + m) ∧
    ∀ i < n, BlockEq buffer (k + i) (start + BLOCK_SIZE * i) s.flash →
      ∀ q ∈ cycles l, SpiCycle.sector q ≠ k + i

/-- Two flash contents that agree on a block match the buffer there alike. -/
lemma BlockEq.of_confined {buffer : ℕ → UInt8} {lo hi start : ℕ} {f f' : ℕ → UInt8}
    (h : BlockEq buffer k start f) (hc : Confined (BLOCK_SIZE * lo) (BLOCK_SIZE * hi) f f')
    (hk : k < lo ∨ hi ≤ k) : BlockEq buffer k start f' := by
  have e : slice f' (BLOCK_SIZE * k) BLOCK_SIZE = slice f (BLOCK_SIZE * k) BLOCK_SIZE := by
    refine hc.slice ?_
    rcases hk with hk | hk
    · left
      calc BLOCK_SIZE * k + BLOCK_SIZE = BLOCK_SIZE * (k + 1) := by ring
        _ ≤ BLOCK_SIZE * lo := Nat.mul_le_mul_left _ hk
    · exact Or.inr (Nat.mul_le_mul_left _ hk)
  unfold BlockEq
  rw [e]; exact h

lemma progress_spec (s : St δ) (present : Bool) (percent : ℕ) :
    ∃ l, (progress s present percent).trace = s.trace ++ l ∧ tplChanges l = [] ∧
      cycles l = [] ∧ (progress s present percent).flash = s.flash ∧
      (progress s present percent).tpl = s.tpl := by
  cases present
  · exact ⟨[], by simp [progress], rfl, rfl, rfl, rfl⟩
  · exact ⟨[.progress percent], rfl, rfl, rfl, rfl, rfl⟩

lemma blockLoop_spec (hp : SectorOnly p) (ha : AllocOk p) (buffer : ℕ → UInt8) {fuel : ℕ}
    (hf : 0 < fuel) (present : Bool) (sp ep count oldTpl : ℕ) :
    ∀ (n k start address length : ℕ) (s : St δ), address = c.base + BLOCK_SIZE * k →
      BLOCK_SIZE * (k + n) ≤ 2 ^ 32 → c.base < 2 ^ 32 → BLOCK_SIZE * n ≤ length →
      ∃ status s' left m, blockLoop c p buffer fuel present sp ep count oldTpl n address start
          length EFI_SUCCESS s = some (status, s', left) ∧
        BlocksDone buffer k start n oldTpl status left m s s' := by
  intro n
  induction n with
  | zero =>
    intro k start address length s _ _ _ _
    exact ⟨EFI_SUCCESS, s, false, 0, rfl, le_rfl, fun _ => ⟨rfl, rfl⟩, by simp, by simp,
      Confined.refl _ _ _, rfl, [], by simp, rfl, by simp [cycles], by simp, by simp⟩
  | succ n ih =>
    intro k start address length s haddr hk hbase hlen
    have hB : BLOCK_SIZE = 4096 := rfl
    have hmul : BLOCK_SIZE * (k + (n + 1)) = BLOCK_SIZE * k + BLOCK_SIZE * n + BLOCK_SIZE := by ring
    have hmul' : BLOCK_SIZE * (k + 1 + n) = BLOCK_SIZE * k + BLOCK_SIZE * n + BLOCK_SIZE := by ring
    have hlen' : BLOCK_SIZE * n + BLOCK_SIZE ≤ length := by
      rw [show BLOCK_SIZE * n + BLOCK_SIZE = BLOCK_SIZE * (n + 1) by ring]; exact hlen
    obtain ⟨l₀, htr₀, htpl₀, hcy₀, hfl₀, ht₀⟩ := progress_spec s present
      (percentage sp ep count (count - (n + 1)))
    set s₀ := progress s present (percentage sp ep count (count - (n + 1))) with hs₀
    obtain ⟨st₁, s₁, hu, hT, hmatch, hres⟩ := updateBlock_spec hp ha buffer start length (k := k)
      haddr (by omega) (by omega) (by omega) hf s₀
    obtain ⟨l₁, htr₁, hl₁⟩ := hT.trace
    have htpl₁ : tplChanges l₁ = [] := tplChanges_cycles hl₁
    have hcy₁ : ∀ q ∈ cycles l₁, SpiCycle.sector q = k := by
      intro q hq
      obtain ⟨q', e, hq'⟩ := hl₁ _ (cycles_mem.mp hq)
      injection e with e
      subst e; omega
    have hquiet : BlockEq buffer k start s.flash → l₁ = [] := by
      intro h
      rw [← hfl₀] at h
      have := (hmatch h).2.2
      rw [htr₁] at this
      simpa using this
    rw [blockLoop]
    simp only [← hs₀, hu, Option.bind_some]
    rcases hres with ⟨rfl, heq⟩ | ⟨herr, hne⟩
    · -- the block is right: go on with the next one
      have hnext : u64 (address + BLOCK_SIZE) = c.base + BLOCK_SIZE * (k + 1) := by
        rw [u64_of_lt (by omega), haddr]; ring
      obtain ⟨st, s', left, m, hloop, hd⟩ := ih (k + 1) (start + BLOCK_SIZE)
        (u64 (address + BLOCK_SIZE)) (if BLOCK_SIZE < length then length - BLOCK_SIZE else 0) s₁
        hnext (by omega) hbase (by split_ifs <;> omega)
      obtain ⟨l, htr, htpl, hcy, hlast, hskip⟩ := hd.events
      refine ⟨st, s', left, m + 1, by simpa using hloop, by have := hd.le; omega,
        fun h => ⟨by have := (hd.ok h).1; omega, (hd.ok h).2⟩,
        fun h => ⟨by have := (hd.err h).1; omega, (hd.err h).2⟩, ?_, ?_, ?_,
        l₀ ++ l₁ ++ l, by rw [htr, htr₁, htr₀]; simp, ?_, ?_, ?_, ?_⟩
      · intro i hi
        cases i with
        | zero => exact heq.of_confined hd.rest (by omega)
        | succ i =>
          have := hd.done i (by omega)
          rwa [show k + 1 + i = k + (i + 1) by omega,
            show start + BLOCK_SIZE + BLOCK_SIZE * i = start + BLOCK_SIZE * (i + 1) by ring] at this
      · rw [← hfl₀]
        refine (hT.flash.mono le_rfl (Nat.mul_le_mul_left _ (by omega))).trans
          (hd.rest.mono (Nat.mul_le_mul_left _ (by omega)) (Nat.mul_le_mul_left _ (by omega)))
      · rw [hd.tpl, hT.tpl, ht₀]
      · rw [tplChanges_append, tplChanges_append, htpl₀, htpl₁, htpl]; simp
      · intro q hq
        rw [cycles_append, cycles_append, hcy₀, List.nil_append, List.mem_append] at hq
        rcases hq with hq | hq
        · rw [hcy₁ q hq]; omega
        · have := hcy q hq; omega
      · intro h
        obtain ⟨q, hq, hsec⟩ := hlast h
        exact ⟨q, by simp [hq], by omega⟩
      · intro i hi hbeq q hq
        rw [cycles_append, cycles_append, hcy₀, List.nil_append, List.mem_append] at hq
        cases i with
        | zero =>
          rw [hquiet (by simpa using hbeq)] at hq
          rcases hq with hq | hq
          · simp [cycles] at hq
          · have := hcy q hq; omega
        | succ i =>
          rcases hq with hq | hq
          · rw [hcy₁ q hq]; omega
          · rw [show k + (i + 1) = k + 1 + i by omega]
            refine hskip i (by omega) ?_ q hq
            rw [show k + (i + 1) = k + 1 + i by omega,
              show start + BLOCK_SIZE * (i + 1) = start + BLOCK_SIZE + BLOCK_SIZE * i by ring,
              ← hfl₀] at hbeq
            exact hbeq.of_confined hT.flash (by omega)
    · -- the block failed: restore the priority and leave
      rw [if_pos herr]
      have hl₁ne : l₁ ≠ [] := fun h => hne (by rw [htr₁, h, List.append_nil])
      refine ⟨st₁, restoreTpl s₁ oldTpl, true, 0, rfl, Nat.zero_le _, by simp,
        fun _ => ⟨by omega, herr⟩, by simp, ?_, rfl,
        l₀ ++ l₁ ++ [.restoreTpl oldTpl], ?_, ?_, ?_, ?_, ?_⟩
      · rw [← hfl₀]; exact hT.flash
      · simp [restoreTpl, St.note, htr₁, htr₀]
      · rw [tplChanges_append, tplChanges_append, htpl₀, htpl₁]; rfl
      · intro q hq
        rw [cycles_append, cycles_append, hcy₀] at hq
        have hq' : q ∈ cycles l₁ := by simpa [cycles] using hq
        rw [hcy₁ q hq']; simp
      · intro _
        obtain ⟨e, l, rfl⟩ := List.exists_cons_of_ne_nil hl₁ne
        obtain ⟨q, rfl, -⟩ := hl₁ _ List.mem_cons_self
        have hq : q ∈ cycles (Event.execute q :: l) := cycles_mem.mpr List.mem_cons_self
        refine ⟨q, ?_, by rw [hcy₁ q hq]; omega⟩
        rw [cycles_append, cycles_append]
        exact List.mem_append_left _ (List.mem_append_right _ hq)
      · intro i hi hbeq q hq
        rw [cycles_append, cycles_append, hcy₀] at hq
        have hq' : q ∈ cycles l₁ := by simpa [cycles] using hq
        cases i with
        | zero => exact absurd (hquiet (by simpa using hbeq)) hl₁ne
        | succ i => rw [hcy₁ q hq']; omega

/-! ### The whole update -/

/-- The address a request means. -/
def target (c : Config) (flashAddress : ℕ) (flashAddressType : AddressType) : ℕ :=
  if flashAddressType = .relative then flashAddress + c.base else flashAddress

/-- A request for `n` whole blocks of the flash area, from block `k` of it on. -/
structure Request (c : Config) (flashAddress : ℕ) (flashAddressType : AddressType)
    (length k n : ℕ) : Prop where
  base_lt : c.base < 2 ^ 32
  size_lt : c.size < 2 ^ 32
  address : target c flashAddress flashAddressType = c.base + BLOCK_SIZE * k
  blocks : length = BLOCK_SIZE * n
  pos : 0 < length
  inside : BLOCK_SIZE * k + length ≤ c.size

/-- What an update of `n` blocks from block `k` on does, with `l` the events on the way. -/
structure Updated (buffer : ℕ → UInt8) (k n : ℕ) (status : Status) (l : List Event)
    (s s' : St δ) : Prop where
  success : status = EFI_SUCCESS →
    slice s'.flash (BLOCK_SIZE * k) (BLOCK_SIZE * n) = slice buffer 0 (BLOCK_SIZE * n) ∧
    Confined (BLOCK_SIZE * k) (BLOCK_SIZE * (k + n)) s.flash s'.flash
  /-- An error stops at a block `i`, the last one that any cycle addressed. -/
  failure : status ≠ EFI_SUCCESS → efiError status = true ∧ ∃ i < n,
    (∀ j < i, BlockEq buffer (k + j) (BLOCK_SIZE * j) s'.flash) ∧
    Confined (BLOCK_SIZE * k) (BLOCK_SIZE * (k + i + 1)) s.flash s'.flash ∧
    (∃ q ∈ cycles l, SpiCycle.sector q = k + i) ∧
    ∀ q ∈ cycles l, SpiCycle.sector q ≤ k + i
  skipped : ∀ j < n, BlockEq buffer (k + j) (BLOCK_SIZE * j) s.flash →
    ∀ q ∈ cycles l, SpiCycle.sector q ≠ k + j
  priority : s'.tpl = s.tpl ∧ tplChanges l = [.raiseTpl TPL_NOTIFY, .restoreTpl s.tpl]

lemma slice_of_blocks {buffer : ℕ → UInt8} {flash : ℕ → UInt8} {k a : ℕ} :
    ∀ {n : ℕ}, (∀ i < n, BlockEq buffer (k + i) (a + BLOCK_SIZE * i) flash) →
      slice flash (BLOCK_SIZE * k) (BLOCK_SIZE * n) = slice buffer a (BLOCK_SIZE * n)
  | 0, _ => rfl
  | n + 1, h => by
    have hn := h n (by omega)
    unfold BlockEq at hn
    rw [show BLOCK_SIZE * (n + 1) = BLOCK_SIZE * n + BLOCK_SIZE by ring, slice_add, slice_add,
      slice_of_blocks fun i hi => h i (by omega), ← hn, Nat.mul_add]

/-- **A flash update writes the buffer or stops at one block, and never disturbs the rest.** -/
theorem performFlashWriteWithProgress_spec (hp : SectorOnly p) (ha : AllocOk p)
    (buffer : ℕ → UInt8) {flashAddress : ℕ} {flashAddressType : AddressType} {length k n : ℕ}
    (hr : Request c flashAddress flashAddressType length k n) (present : Bool)
    (startPercentage endPercentage : ℕ) {fuel : ℕ} (hf : 0 < fuel) (s : St δ) :
    ∃ status s' l, performFlashWriteWithProgress c p buffer fuel flashAddress flashAddressType
        length present startPercentage endPercentage s = some (status, s') ∧
      s'.trace = s.trace ++ l ∧ Updated buffer k n status l s s' := by
  have hB : BLOCK_SIZE = 4096 := rfl
  have hlen := hr.blocks
  have hin := hr.inside
  have hsize := hr.size_lt
  have hbase := hr.base_lt
  have haddr : (if flashAddressType = .relative then u64 (flashAddress + c.base)
      else flashAddress) = c.base + BLOCK_SIZE * k := by
    have h := hr.address
    unfold target at h
    split_ifs at h ⊢ with ht
    · rw [u64_of_lt (by omega), h]
    · exact h
  have hcount : length / BLOCK_SIZE = n := by
    rw [hlen]; exact Nat.mul_div_cancel_left n (by decide)
  have hmul : BLOCK_SIZE * (k + n) = BLOCK_SIZE * k + BLOCK_SIZE * n := by ring
  set s₁ := (raiseTpl s TPL_NOTIFY).2 with hs₁
  obtain ⟨st, s₂, left, m, hloop, hd⟩ := blockLoop_spec (c := c) hp ha buffer hf present
    startPercentage endPercentage n s.tpl n k 0 (c.base + BLOCK_SIZE * k) length s₁ rfl
    (by omega) hbase (by omega)
  obtain ⟨l, htr, htpl, hcy, hlast, hskip⟩ := hd.events
  set s₃ := if left then s₂ else restoreTpl s₂ s.tpl with hs₃
  obtain ⟨l₃, htr₃, htpl₃, hcy₃, hfl₃, ht₃⟩ := progress_spec s₃ present endPercentage
  -- the priority is restored inside the loop or right behind it
  have hrest : ∃ l', s₃.trace = s₂.trace ++ l' ∧ cycles l' = [] ∧ s₃.flash = s₂.flash ∧
      s₃.tpl = s.tpl ∧ tplChanges l ++ tplChanges l' = [.restoreTpl s.tpl] := by
    cases left
    · exact ⟨[.restoreTpl s.tpl], rfl, rfl, rfl, rfl, by rw [htpl]; rfl⟩
    · exact ⟨[], by simp [hs₃], rfl, rfl, by simpa [hs₃] using hd.tpl, by rw [htpl]; rfl⟩
  obtain ⟨l₂, htr₂, hcy₂, hfl₂, ht₂, hall⟩ := hrest
  have hcyc : cycles ([.raiseTpl TPL_NOTIFY] ++ l ++ l₂ ++ l₃) = cycles l := by
    rw [cycles_append, cycles_append, cycles_append, hcy₂, hcy₃]
    simp [cycles]
  refine ⟨st, progress s₃ present endPercentage, [.raiseTpl TPL_NOTIFY] ++ l ++ l₂ ++ l₃, ?_, ?_,
    ?_, ?_, ?_, ?_⟩
  · have hraise : raiseTpl s TPL_NOTIFY = (s.tpl, s₁) := rfl
    unfold performFlashWriteWithProgress
    simp only [haddr, hcount, hraise, hloop, Option.map_some, hs₃]
  · rw [htr₃, htr₂, htr, hs₁]; simp [raiseTpl, St.note]
  · intro hok
    have hl : left = false := by
      cases left
      · rfl
      · exact absurd hok (efiError_ne_success (hd.err rfl).2)
    obtain ⟨rfl, -⟩ := hd.ok hl
    have hrest := hd.rest
    rw [hl] at hrest
    rw [hfl₃, hfl₂]
    exact ⟨slice_of_blocks hd.done, hrest⟩
  · intro hne
    have hl : left = true := by
      cases left
      · exact absurd (hd.ok rfl).2 hne
      · rfl
    subst hl
    obtain ⟨hm, herr⟩ := hd.err rfl
    rw [hfl₃, hfl₂, hcyc]
    refine ⟨herr, m, hm, fun j hj => by simpa using hd.done j hj, hd.rest, hlast rfl,
      fun q hq => ?_⟩
    have := (hcy q hq).2
    simp at this; omega
  · intro j hj hbeq
    rw [hcyc]
    exact hskip j hj (by rw [Nat.zero_add]; exact hbeq)
  · refine ⟨by rw [ht₃, ht₂], ?_⟩
    rw [tplChanges_append, tplChanges_append, tplChanges_append, htpl₃, List.append_nil,
      List.append_assoc, hall]
    rfl

/-- A device that erases and programs the addressed sector, and nothing else. -/
def goodDevice : Platform Unit where
  execute _ f q :=
    let f' := if q.opcodeIndex = SPI_OPCODE_ERASE_INDEX
      then blit f q.address (List.replicate BLOCK_SIZE 0xFF) else blit f q.address q.data
    (EFI_SUCCESS, fun o => if o / BLOCK_SIZE = SpiCycle.sector q then f' o else f o, ())
  allocatePool _ _ := (true, ())

lemma goodDevice_sectorOnly : SectorOnly goodDevice := by
  intro _ f q o ho
  have hB : BLOCK_SIZE = 4096 := rfl
  have hne : o / BLOCK_SIZE ≠ SpiCycle.sector q := by
    rw [hB] at ho ⊢; omega
  simp only [goodDevice, if_neg hne]

theorem performFlashWriteWithProgress_spec_relative :
    ∃ status s' l, performFlashWriteWithProgress ⟨0xFF000000, 0x1000000⟩ goodDevice
        (fun i => UInt8.ofNat i) 1 0x2000 .relative 0x3000 true 0 100
        ⟨(), fun _ => 0, 4, []⟩ = some (status, s') ∧
      s'.trace = [] ++ l ∧ Updated (fun i => UInt8.ofNat i) 2 3 status l
        ⟨(), fun _ => 0, 4, []⟩ s' :=
  performFlashWriteWithProgress_spec goodDevice_sectorOnly (fun _ _ => rfl) _
    ⟨by decide, by decide, by decide, by decide, by decide, by decide⟩ true 0 100 (by decide) _

end UefiToolkit.FlashWrite
