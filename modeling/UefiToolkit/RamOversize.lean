import UefiToolkit.RamAccess

/-!
A message whose record is larger than the log. The early size test turns it away, except when the
string alone has just the size of the log: then its NUL is one byte too many, and the search for
records to remove runs past the last of them.
-/

namespace UefiToolkit.RamOversize

open UefiToolkit.Word UefiToolkit.Loop UefiToolkit.Mem UefiToolkit.Bytes UefiToolkit.RecordLog
open UefiToolkit.RamModel UefiToolkit.RamLog UefiToolkit.RamAccess

variable {c : Config} {s s' : St} {recs : List (List UInt8)}

/-- The index and the bytes of the log are as before, and nothing behind the records was
scanned. -/
structure Undamaged (c : Config) (recs : List (List UInt8)) (s s' : St) : Prop where
  idx : word32 s'.mem (latestIdxAddr c) = word32 s.mem (latestIdxAddr c)
  log : slice s'.mem (bufferStart c) (bufferSize c) = slice s.mem (bufferStart c) (bufferSize c)
  scans : Scans (bufferStart c) (bufferStart c + size recs) s s'

/-! ### Running past the records -/

lemma recordSizeLoop_mono {fuel a n : ℕ} {r : ℕ × St} (h : recordSizeLoop fuel a n s = some r)
    (k : ℕ) : recordSizeLoop (fuel + k) a n s = some r := by
  induction fuel generalizing a n s with
  | zero => cases h
  | succ fuel ih =>
    rw [Nat.add_right_comm, recordSizeLoop]
    rw [recordSizeLoop] at h
    dsimp only at h ⊢
    split_ifs at h ⊢ with hend
    · exact ih h
    · exact h

/-- Scanning a record that is there, it is known where the scan ends. -/
lemma recordSize_of_record {a fuel k : ℕ} {r : List UInt8} (hr : (0 : UInt8) ∉ r)
    (hcell : slice s.mem a (r.length + 1) = r ++ [0]) (ha : a + r.length + 1 < 2 ^ 64)
    (hlen : r.length + 1 < 2 ^ 32) (h : ramDebugGetRecordSize fuel a s = some (k, s')) :
    k = r.length + 1 ∧ s'.mem = s.mem ∧ s'.writable = s.writable := by
  obtain ⟨t, ht, hmem, hw, -⟩ := recordSizeLoop_spec a (a + r.length + 1) r hr
    (fuel + (r.length + 1)) a 0 s hcell le_rfl le_rfl ha (by omega) (by omega)
  rw [recordSizeLoop_mono h, Option.some.injEq, Prod.mk.injEq] at ht
  obtain ⟨rfl, rfl⟩ := ht
  exact ⟨by omega, hmem, hw⟩

/-- A scan begins with the byte it is sent to. -/
lemma recordSize_reads {a fuel : ℕ} {r : ℕ × St} (hw : s.writable = true)
    (h : ramDebugGetRecordSize fuel a s = some r) :
    ∃ l, Did s l r.2 ∧ Access.rd8 a ∈ l := by
  rw [ramDebugGetRecordSize] at h
  cases fuel with
  | zero => cases h
  | succ fuel =>
    have hread := did_read8 hw a
    rw [recordSizeLoop] at h
    dsimp only at h
    split_ifs at h with hend
    · obtain ⟨l, hl, -⟩ := did_recordSize hread.writable (h : _ = some (r.1, r.2))
      exact ⟨_, hread.append hl, by simp⟩
    · cases h
      exact ⟨_, hread, by simp⟩

/-- Asked for more room than there is, the search reads behind the last record. -/
lemma removeLoop_overruns (hc : Configured c) (h : Holds c s recs) {need fuel : ℕ}
    (hneed : bufferSize c < need) {x : Removal}
    (hx : removeLoop c need fuel ⟨0, bufferSize c - size recs, s⟩ = some x) :
    ∃ l, Did s l x.s ∧ Access.rd8 (bufferStart c + size recs) ∈ l := by
  have hN := bufferSize_eq hc
  have hsz := hc.size_lt_word
  have hbase := hc.base_lt
  have hfits := h.fits
  have hstart : bufferStart c = c.base + 16 := rfl
  -- until the records are used up, the offset stands at the end of one
  let I (y : Removal) : Prop := (∃ l, Did s l y.s ∧ Access.rd8 (bufferStart c + size recs) ∈ l) ∨
    ((∃ l, Did s l y.s) ∧ y.s.mem = s.mem ∧ ∃ done rest, recs = done ++ rest ∧
      y.recordOffset = size done ∧ y.remainedSize = bufferSize c - size rest)
  have hI : I x := by
    refine whileFuel_inv (I := I) ?_ hx (Or.inr ⟨⟨[], .nil h.writable⟩, rfl, [], recs, rfl, rfl,
      rfl⟩)
    rintro y z hy - hz
    obtain ⟨r, hr, rfl⟩ := Option.map_eq_some_iff.mp hz
    rcases hy with ⟨l, hl, hmem⟩ | ⟨⟨l, hl⟩, hmem, done, rest, hrecs, hoff, hrem⟩
    · obtain ⟨l', hl', -⟩ := recordSize_reads hl.writable hr
      exact Or.inl ⟨_, hl.append hl', List.mem_append_left _ hmem⟩
    · obtain ⟨l', hl', hread⟩ := recordSize_reads hl.writable hr
      cases rest with
      | nil =>
        rw [List.append_nil] at hrecs
        rw [hoff, ← hrecs] at hread
        exact Or.inl ⟨_, hl.append hl', List.mem_append_right _ hread⟩
      | cons a rest =>
        have hsize : size recs = size done + (a.length + 1 + size rest) := by
          rw [hrecs, size_append, size_cons]
        have hcell : slice s.mem (bufferStart c + size done) (a.length + 1) = a ++ [0] := by
          have e : slice s.mem (bufferStart c) (size recs) =
              cells 0 done ++ (a ++ [0]) ++ cells 0 rest := by
            rw [h.log, hrecs, cells_append, cells_cons]; simp
          simpa using slice_mid e
        rw [hoff] at hr
        obtain ⟨hk, hmem', -⟩ := recordSize_of_record (h.nulFree a (by rw [hrecs]; simp))
          (by rw [hmem]; exact hcell) (by omega) (by omega) hr
        refine Or.inr ⟨⟨_, hl.append hl'⟩, hmem'.trans hmem, done ++ [a], rest, by simp [hrecs],
          ?_, ?_⟩
        · rw [hk, hoff, u32_of_lt (by omega), size_append, size_cons, size_nil, Nat.add_zero]
        · rw [size_cons] at hrem
          show u32 (y.remainedSize + r.1) = bufferSize c - size rest
          rw [hk, hrem, u32_of_lt (by omega)]
          omega
  rcases hI with hdone | ⟨-, -, done, rest, -, -, hrem⟩
  · exact hdone
  · -- the loop would not have ended
    have hend := whileFuel_exit hx
    have : ¬x.remainedSize < need := by simpa using hend
    omega

/-- Cleaning up for more room than there is begins with such a search. -/
lemma cleanUp_overruns (hc : Configured c) (h : Holds c s recs) {need fuel : ℕ}
    (hneed : bufferSize c < need) {r : ℕ × St}
    (hr : ramDebugCleanUp c fuel need (size recs) s = some r) :
    ∃ l, Did s l r.2 ∧ Access.rd8 (bufferStart c + size recs) ∈ l := by
  have hN := bufferSize_eq hc
  have hsz := hc.size_lt_word
  have hfits := h.fits
  have hrem : u32 (sub64 (bufferSize c) (size recs)) = bufferSize c - size recs := by
    rw [sub64_of_le (by omega) h.fits, u32_of_lt (by omega)]
  simp only [ramDebugCleanUp, hrem, Option.bind_eq_bind, Option.bind_eq_some_iff] at hr
  obtain ⟨x, hx, y, hmove, z, hfill, hend⟩ := hr
  cases hend
  obtain ⟨l, hl, hread⟩ := removeLoop_overruns hc h hneed hx
  obtain ⟨l', hl', -⟩ := did_move hl.writable hmove
  obtain ⟨l'', hl'', -⟩ := did_fill hl'.writable hfill
  exact ⟨_, (hl.append hl').append hl'', by simp [hread]⟩

/-! ### The call -/

/-- A message of just the size of the log gets past the size test. -/
lemma print_exact (hc : Configured c) (h : Holds c s recs) {x : Call}
    (hsize : x.size = bufferSize c) (hflag : x.cmosFlag ≠ RAM_DEBUG_DISABLE) {fuel : ℕ}
    (hprint : x.print c fuel s = some s') : ¬Undamaged c recs s s' := by
  have hN := bufferSize_eq hc
  have hsz := hc.size_lt_word
  have hfits := h.fits
  obtain ⟨s₁, hlatest, h₁, hl₁⟩ := did_latest_holds hc h fuel
  have htemp : u32 (u32 x.size + 1) = bufferSize c + 1 := by
    rw [hsize, u32_succ (by omega)]
  unfold Call.print ramDebugPrint at hprint
  rw [if_neg hflag, if_neg (by omega), hlatest] at hprint
  simp only [Option.bind_eq_bind, Option.bind_some, htemp] at hprint
  rintro ⟨hidx, -, l, htrace, hscan⟩
  split_ifs at hprint with hfull hfits'
  · -- the search for records reads behind the last one
    obtain ⟨r, hr, hrest⟩ := Option.bind_eq_some_iff.mp hprint
    obtain ⟨l₂, hl₂, hread⟩ := cleanUp_overruns hc h₁ (Nat.lt_succ_self _) hr
    obtain ⟨l₃, hl₃⟩ : ∃ l₃, Did r.2 l₃ s' := by
      split_ifs at hrest
      · obtain ⟨l₃, hl₃, -⟩ := did_copyRecord x.buffer (bufferSize c + 1) (bufferStart c + r.1) 0
          hl₂.writable
        cases hrest
        exact ⟨_, hl₃.append (did_write32 hl₃.writable _ _)⟩
      · cases hrest
        exact ⟨[], .nil hl₂.writable⟩
    have hl := (hl₁.append hl₂).append hl₃
    obtain rfl := List.append_cancel_left (hl.trace.symm.trans htrace)
    exact absurd (hscan (bufferStart c + size recs) (by simp [hread])).2 (lt_irrefl _)
  · -- the sum of the sizes overflowed, and is stored as the index
    obtain ⟨l₂, hl₂, -⟩ := did_copyRecord x.buffer (bufferSize c + 1) (bufferStart c + size recs) 0
      h₁.writable
    have hlt : u32 (size recs + (bufferSize c + 1)) < 2 ^ 32 := Nat.mod_lt _ (by norm_num)
    cases hprint
    rw [(did_write32 hl₂.writable _ _).mem, h.idx] at hidx
    have hstored := (word32_le32 _ (latestIdxAddr c) hlt).symm.trans hidx
    unfold u32 at hstored hfits'
    omega
  · exact hfull ⟨not_le.mp hfits', rfl⟩

/-- A log of eight bytes with nothing in it. -/
def emptyLog : St where
  mem := blit (fun _ => DEBUG_PRINT_BUFFER_DFT_VALUE) 0x1000 (le32 RAM_DEBUG_HEADER_ID ++ le32 0)
  writable := true
  trace := []

lemma emptyLog_holds : Holds ⟨0x1000, 24⟩ emptyLog [] :=
  ⟨rfl, by decide, by decide, rfl, Nat.zero_le _, by simp⟩

lemma emptyLog_configured : Configured ⟨0x1000, 24⟩ :=
  ⟨by decide, by decide, by decide, by decide⟩

/-- **An oversized message leaves the log alone, except for one size**: a record of more than `N`
bytes does no damage, whatever the log holds, just when the message is longer than `N` itself or
the log is disabled. -/
theorem oversize_undamaged_iff (hc : Configured c) (h : Holds c s recs) (x : Call)
    (hbig : bufferSize c < x.size + 1) :
    (∃ fuel s', x.print c fuel s = some s' ∧ Undamaged c recs s s') ↔
      x.cmosFlag = RAM_DEBUG_DISABLE ∨ bufferSize c < x.size := by
  constructor
  · rintro ⟨fuel, s', hprint, hsafe⟩
    by_contra hno
    obtain ⟨hflag, hle⟩ := not_or.mp hno
    exact print_exact hc h (by omega) hflag hprint hsafe
  · intro hcond
    have hskip : x.print c 0 s = some s := by
      unfold Call.print ramDebugPrint
      rcases hcond with hflag | hlt
      · rw [if_pos hflag]
      · rw [if_pos hlt, ite_self]
    exact ⟨0, s, hskip, rfl, rfl, Scans.refl _ _ _⟩

/-- A message one byte longer than the log. -/
theorem oversize_undamaged_nine :
    (∃ fuel s', Call.print ⟨0x1000, 24⟩ fuel emptyLog ⟨0, fun _ => 0x41, 9⟩ = some s' ∧
        Undamaged ⟨0x1000, 24⟩ [] emptyLog s') ↔
      (0 : UInt8) = RAM_DEBUG_DISABLE ∨ bufferSize ⟨0x1000, 24⟩ < 9 :=
  oversize_undamaged_iff emptyLog_configured emptyLog_holds _ (by decide)

/-- A message of the log's own size: its record has one byte more. -/
theorem exact_message_scans_on :
    Holds ⟨0x1000, 24⟩ emptyLog [] ∧ bufferSize ⟨0x1000, 24⟩ < 8 + 1 ∧
      ¬∃ fuel s', Call.print ⟨0x1000, 24⟩ fuel emptyLog ⟨0, fun _ => 0x41, 8⟩ = some s' ∧
        Undamaged ⟨0x1000, 24⟩ [] emptyLog s' := by
  refine ⟨emptyLog_holds, by decide, ?_⟩
  rintro ⟨fuel, s', hprint, hsafe⟩
  exact print_exact emptyLog_configured emptyLog_holds rfl (by decide) hprint hsafe

end UefiToolkit.RamOversize
