import UefiToolkit.RamLog
import UefiToolkit.Cuts

/-!
The calls of `RamDebugPrint` access by access: what each part of a call reads and writes, and
that the memory behind it is what its writes made of the memory before.
-/

namespace UefiToolkit.RamAccess

open UefiToolkit.Word UefiToolkit.Loop UefiToolkit.Mem UefiToolkit.Bytes UefiToolkit.RecordLog
open UefiToolkit.RamModel UefiToolkit.RamLog

/-- What an access does to memory that takes writes. -/
def effect (m : ℕ → UInt8) : Access → ℕ → UInt8
  | .rd8 _ => m
  | .rd32 _ => m
  | .wr8 a v => put m a v
  | .wr32 a v => blit m a (le32 v)

def isWrite : Access → Bool
  | .rd8 _ => false
  | .rd32 _ => false
  | .wr8 _ _ => true
  | .wr32 _ _ => true

lemma effect_of_read {x : Access} (h : isWrite x = false) (m : ℕ → UInt8) : effect m x = m := by
  cases x with
  | rd8 => rfl
  | rd32 => rfl
  | wr8 => cases h
  | wr32 => cases h

/-- From `s` to `s'` the accesses `l` were made. -/
structure Did (s : St) (l : List Access) (s' : St) : Prop where
  trace : s'.trace = s.trace ++ l
  mem : s'.mem = l.foldl effect s.mem
  writable : s'.writable = true

variable {c : Config} {s s' s'' : St} {l l' : List Access}

lemma Did.nil (hw : s.writable = true) : Did s [] s := ⟨(List.append_nil _).symm, rfl, hw⟩

lemma Did.append (h : Did s l s') (h' : Did s' l' s'') : Did s (l ++ l') s'' :=
  ⟨by rw [h'.trace, h.trace, List.append_assoc], by rw [h'.mem, h.mem, List.foldl_append],
    h'.writable⟩

lemma did_read8 (hw : s.writable = true) (a : ℕ) : Did s [.rd8 a] (mmioRead8 s a).2 :=
  ⟨rfl, rfl, hw⟩

lemma did_read32 (hw : s.writable = true) (a : ℕ) : Did s [.rd32 a] (mmioRead32 s a).2 :=
  ⟨rfl, rfl, hw⟩

lemma did_write8 (hw : s.writable = true) (a : ℕ) (v : UInt8) :
    Did s [.wr8 a v] (mmioWrite8 s a v) :=
  ⟨rfl, by simp [mmioWrite8, hw, effect], hw⟩

lemma did_write32 (hw : s.writable = true) (a v : ℕ) : Did s [.wr32 a v] (mmioWrite32 s a v) :=
  ⟨rfl, by simp [mmioWrite32, hw, effect], hw⟩

/-- Accesses, all of a kind. -/
def DidAll (K : Access → Prop) (s s' : St) : Prop := ∃ l, Did s l s' ∧ ∀ x ∈ l, K x

variable {K : Access → Prop}

lemma DidAll.nil (hw : s.writable = true) : DidAll K s s := ⟨[], Did.nil hw, by simp⟩

lemma DidAll.snoc (h : DidAll K s s') (h' : Did s' l s'') (hl : ∀ x ∈ l, K x) :
    DidAll K s s'' := by
  obtain ⟨k, hk, hK⟩ := h
  refine ⟨k ++ l, hk.append h', fun x hx => ?_⟩
  rcases List.mem_append.mp hx with hx | hx
  · exact hK x hx
  · exact hl x hx

lemma DidAll.trans (h : DidAll K s s') (h' : DidAll K s' s'') : DidAll K s s'' := by
  obtain ⟨l, hl, hK⟩ := h'
  exact h.snoc hl hK

lemma DidAll.writable (h : DidAll K s s') : s'.writable = true := by
  obtain ⟨l, hl, -⟩ := h
  exact hl.writable

lemma DidAll.mono {K' : Access → Prop} (h : DidAll K s s') (hK : ∀ x, K x → K' x) :
    DidAll K' s s' := by
  obtain ⟨l, hl, hl'⟩ := h
  exact ⟨l, hl, fun x hx => hK x (hl' x hx)⟩

/-! ### The loops -/

/-- A write of the default value to one of `bound` bytes. -/
def Fills (addr bound : ℕ) (x : Access) : Prop :=
  ∃ i < bound, x = .wr8 (addr + i) DEBUG_PRINT_BUFFER_DFT_VALUE

lemma did_fill {addr bound fuel : ℕ} (hw : s.writable = true)
    (h : fillDefault addr bound fuel s = some s') : DidAll (Fills addr bound) s s' := by
  obtain ⟨x, hx, rfl⟩ := Option.map_eq_some_iff.mp h
  refine whileFuel_inv (I := fun x : ℕ × St => DidAll (Fills addr bound) s x.2) ?_ hx (.nil hw)
  rintro y z hy hc hz
  obtain rfl := Option.some.inj hz
  refine hy.snoc (did_write8 hy.writable _ _) fun a ha => ?_
  rw [List.mem_singleton.mp ha]
  exact ⟨y.1, by simpa using hc, rfl⟩

/-- A byte read behind the offset, or written to the front. -/
def Moves (c : Config) (off bound : ℕ) (x : Access) : Prop :=
  ∃ i < bound, x = .rd8 (bufferStart c + off + i) ∨ ∃ v, x = .wr8 (bufferStart c + i) v

lemma did_move {off bound fuel : ℕ} (hw : s.writable = true)
    (h : moveLoop c off bound fuel s = some s') : DidAll (Moves c off bound) s s' := by
  obtain ⟨x, hx, rfl⟩ := Option.map_eq_some_iff.mp h
  refine whileFuel_inv (I := fun x : ℕ × St => DidAll (Moves c off bound) s x.2) ?_ hx (.nil hw)
  rintro y z hy hc hz
  obtain rfl := Option.some.inj hz
  have hlt : y.1 < bound := by simpa using hc
  have hread := hy.snoc (did_read8 hy.writable (bufferStart c + off + y.1)) fun a ha => by
    rw [List.mem_singleton.mp ha]
    exact ⟨y.1, hlt, Or.inl rfl⟩
  refine hread.snoc (did_write8 hread.writable _ _) fun a ha => ?_
  rw [List.mem_singleton.mp ha]
  exact ⟨y.1, hlt, Or.inr ⟨_, rfl⟩⟩

def Scan (x : Access) : Prop := ∃ a, x = .rd8 a

lemma did_recordSize {fuel a n r : ℕ} (hw : s.writable = true)
    (h : recordSizeLoop fuel a n s = some (r, s')) : DidAll Scan s s' := by
  induction fuel generalizing a n s with
  | zero => cases h
  | succ fuel ih =>
    have hread : DidAll Scan s (mmioRead8 s a).2 := (DidAll.nil hw).snoc (did_read8 hw a)
      fun x hx => ⟨a, List.mem_singleton.mp hx⟩
    rw [recordSizeLoop] at h
    dsimp only at h
    split_ifs at h with hend
    · exact hread.trans (ih hread.writable h)
    · cases h
      exact hread

lemma did_remove {need fuel : ℕ} {x y : Removal} (hw : x.s.writable = true)
    (h : removeLoop c need fuel x = some y) : DidAll Scan x.s y.s := by
  refine whileFuel_inv (I := fun y : Removal => DidAll Scan x.s y.s) ?_ h (.nil hw)
  rintro y z hy - hz
  obtain ⟨r, hr, rfl⟩ := Option.map_eq_some_iff.mp hz
  exact hy.trans (did_recordSize hy.writable hr)

/-- The writes that store a record. -/
def Stores (addr n : ℕ) (x : Access) : Prop := ∃ i < n, ∃ v, x = .wr8 (addr + i) v

lemma did_copyRecord (buffer : ℕ → UInt8) (n addr i : ℕ) (hw : s.writable = true) :
    DidAll (Stores addr n) s (copyRecord buffer n addr i s) := by
  induction n generalizing addr i s with
  | zero => exact .nil hw
  | succ n ih =>
    have hfirst : DidAll (Stores addr (n + 1)) s (mmioWrite8 s addr (buffer i)) :=
      (DidAll.nil hw).snoc (did_write8 hw _ _) fun x hx => by
        rw [List.mem_singleton.mp hx]
        exact ⟨0, Nat.succ_pos n, _, rfl⟩
    refine hfirst.trans ((ih (addr + 1) (i + 1) hfirst.writable).mono fun x hx => ?_)
    obtain ⟨k, hk, v, rfl⟩ := hx
    exact ⟨k + 1, Nat.succ_lt_succ hk, v, by rw [Nat.add_assoc, Nat.add_comm 1]⟩

/-! ### The index -/

/-- With the signature in place the index is only read. -/
lemma did_latest_holds (hc : Configured c) {recs : List (List UInt8)} (h : Holds c s recs)
    (fuel : ℕ) :
    ∃ s', ramDebugGetLatestIndex c fuel s = some (.ok (size recs), s') ∧ Holds c s' recs ∧
      Did s [.rd32 (sigAddr c), .rd32 (latestIdxAddr c)] s' := by
  have hsize : c.size ≠ 0 := by have := hc.size_ge; omega
  have hread := did_read32 h.writable (sigAddr c)
  refine ⟨(mmioRead32 (mmioRead32 s (sigAddr c)).2 (latestIdxAddr c)).2, ?_,
    ⟨h.writable, h.sig, h.idx, h.log, h.fits, h.nulFree⟩,
    hread.append (did_read32 hread.writable (latestIdxAddr c))⟩
  have hsig : mmioRead32 s (sigAddr c) =
      (RAM_DEBUG_HEADER_ID, (mmioRead32 s (sigAddr c)).2) := Prod.ext h.sig rfl
  rw [ramDebugGetLatestIndex, if_neg hc.base_pos, if_neg hsize, hsig]
  simp only [ne_eq, not_true_eq_false, if_false]
  rw [← h.idx]
  rfl

/-- Without it the header is written first, the signature before the index. -/
lemma did_latest_fresh (hc : Configured c) (hw : s.writable = true)
    (hsig : word32 s.mem (sigAddr c) ≠ RAM_DEBUG_HEADER_ID) {fuel : ℕ} {r : Except Status ℕ}
    (h : ramDebugGetLatestIndex c fuel s = some (r, s')) :
    ∃ l, Did s ([.rd32 (sigAddr c), .wr32 (sigAddr c) RAM_DEBUG_HEADER_ID, .rd32 (sigAddr c),
        .wr32 (latestIdxAddr c) 0] ++ l ++ [.rd32 (latestIdxAddr c)]) s' ∧
      ∀ x ∈ l, Fills (bufferStart c) (bufferSize c) x := by
  have hsize : c.size ≠ 0 := by have := hc.size_ge; omega
  have h₁ := did_read32 hw (sigAddr c)
  set s₁ := (mmioRead32 s (sigAddr c)).2
  have h₂ := h₁.append (did_write32 h₁.writable (sigAddr c) RAM_DEBUG_HEADER_ID)
  set s₂ := mmioWrite32 s₁ (sigAddr c) RAM_DEBUG_HEADER_ID
  have hsig₂ : word32 s₂.mem (sigAddr c) = RAM_DEBUG_HEADER_ID := by
    rw [h₂.mem]
    exact word32_le32 _ _ (by decide)
  have h₃ := h₂.append (did_read32 h₂.writable (sigAddr c))
  set s₃ := (mmioRead32 s₂ (sigAddr c)).2
  have h₄ := h₃.append (did_write32 h₃.writable (latestIdxAddr c) 0)
  have hread : mmioRead32 s (sigAddr c) = (word32 s.mem (sigAddr c), s₁) := rfl
  have hread₂ : mmioRead32 s₂ (sigAddr c) = (word32 s₂.mem (sigAddr c), s₃) := rfl
  rw [ramDebugGetLatestIndex, if_neg hc.base_pos, if_neg hsize, hread] at h
  simp only [hsig, ne_eq, not_false_eq_true, if_true] at h
  rw [hread₂] at h
  simp only [hsig₂, not_true, if_false, Option.bind_eq_some_iff] at h
  obtain ⟨s₅, hfill, h⟩ := h
  cases h
  obtain ⟨l, hl, hK⟩ := did_fill h₄.writable hfill
  exact ⟨l, (h₄.append hl).append (did_read32 hl.writable _), hK⟩

/-! ### Accesses inside the region -/

/-- The bytes of the access belong to the region. -/
def Inside (c : Config) : Access → Prop
  | .rd8 a => c.base ≤ a ∧ a + 1 ≤ c.base + c.size
  | .rd32 a => c.base ≤ a ∧ a + 4 ≤ c.base + c.size
  | .wr8 a _ => c.base ≤ a ∧ a + 1 ≤ c.base + c.size
  | .wr32 a _ => c.base ≤ a ∧ a + 4 ≤ c.base + c.size

lemma buffer_le (hc : Configured c) {i : ℕ} (h : i < bufferSize c) :
    c.base ≤ bufferStart c + i ∧ bufferStart c + i + 1 ≤ c.base + c.size := by
  have hN := bufferSize_eq hc
  have hge := hc.size_ge
  unfold bufferStart headerSize
  omega

lemma header_inside (hc : Configured c) : Inside c (.rd32 (sigAddr c)) ∧
    Inside c (.rd32 (latestIdxAddr c)) := by
  have hge := hc.size_ge
  unfold Inside sigAddr latestIdxAddr
  omega

lemma Fills.inside (hc : Configured c) (off : ℕ) {n : ℕ} (h : off + n ≤ bufferSize c) {x : Access}
    (hx : Fills (bufferStart c + off) n x) : Inside c x := by
  obtain ⟨i, hi, rfl⟩ := hx
  rw [Nat.add_assoc]
  exact buffer_le hc (by omega)

lemma Moves.inside (hc : Configured c) {off n : ℕ} (h : off + n ≤ bufferSize c) {x : Access}
    (hx : Moves c off n x) : Inside c x := by
  obtain ⟨i, hi, rfl | ⟨v, rfl⟩⟩ := hx
  · rw [Nat.add_assoc]
    exact buffer_le hc (by omega)
  · exact buffer_le hc (by omega)

lemma Stores.inside (hc : Configured c) {off n : ℕ} (h : off + n ≤ bufferSize c) {x : Access}
    (hx : Stores (bufferStart c + off) n x) : Inside c x := by
  obtain ⟨i, hi, v, rfl⟩ := hx
  rw [Nat.add_assoc]
  exact buffer_le hc (by omega)

/-- Records are removed without leaving the region. -/
lemma did_cleanUp (hc : Region c) {recs : List (List UInt8)} (h : Holds c s recs) {need fuel : ℕ}
    (hneed : need ≤ bufferSize c) (hf : bufferSize c ≤ fuel) {n : ℕ}
    (hclean : ramDebugCleanUp c fuel need (size recs) s = some (n, s')) :
    DidAll (Inside c) s s' := by
  have hN := bufferSize_eq hc.toConfigured
  have hsz := hc.size_lt
  have hfits := h.fits
  have hroom := makeRoom_suffix (bufferSize c) need recs
  obtain ⟨x, hx, hoff, hmem, hw, l, htrace, hscan⟩ := removal_spec hc h hneed hf
  have hrem : u32 (sub64 (bufferSize c) (size recs)) = bufferSize c - size recs := by
    rw [sub64_of_le (by omega) h.fits, u32_of_lt (by omega)]
  have hsub : sub32 (size recs) x.recordOffset = size recs - x.recordOffset :=
    sub32_of_le (by omega) (by omega)
  have hfree : sub64 (bufferSize c) (size recs - x.recordOffset) =
      bufferSize c - (size recs - x.recordOffset) := sub64_of_le (by omega) (by omega)
  simp only [ramDebugCleanUp, hrem, hx, Option.bind_eq_bind, Option.bind_some, hsub, hfree,
    Option.bind_eq_some_iff] at hclean
  obtain ⟨y, hmove, z, hfill, hend⟩ := hclean
  cases hend
  have hread : DidAll (Inside c) s x.s := by
    obtain ⟨k, hk, hK⟩ := did_remove (x := ⟨0, bufferSize c - size recs, s⟩) h.writable hx
    have hkl : k = l := List.append_cancel_left (hk.trace.symm.trans htrace)
    refine ⟨k, hk, fun a ha => ?_⟩
    obtain ⟨b, rfl⟩ := hK a ha
    obtain ⟨hlo, hhi⟩ := hscan b (hkl ▸ ha)
    have hb := buffer_le hc.toConfigured (show b - bufferStart c < bufferSize c by omega)
    rwa [Nat.add_sub_cancel' hlo] at hb
  have hmoved := hread.trans ((did_move hread.writable hmove).mono fun a ha =>
    ha.inside hc.toConfigured (by omega))
  exact hmoved.trans ((did_fill hmoved.writable hfill).mono fun a ha =>
    Fills.inside hc.toConfigured _ (by omega) ha)

end UefiToolkit.RamAccess
