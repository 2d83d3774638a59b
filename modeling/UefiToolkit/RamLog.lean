import UefiToolkit.RamModel
import UefiToolkit.RecordLog

/-!
The RAM debug log is a record log of bounded size: every call of `RamDebugPrint` follows
`RecordLog.push` on the records the region holds, for any run of calls.
-/

namespace UefiToolkit.RamLog

open UefiToolkit.Word UefiToolkit.Loop UefiToolkit.Mem UefiToolkit.Bytes UefiToolkit.RecordLog
open UefiToolkit.RamModel

/-- A configured region: present, and of a size the index arithmetic is meant for. -/
structure Ok (c : Config) : Prop where
  base_pos : c.base ≠ 0
  base_lt : c.base < 2 ^ 32
  size_ge : 17 ≤ c.size
  size_le : c.size ≤ 2 ^ 31

/-- A region with room for the header, as its 32-bit address and size describe it. -/
structure Configured (c : Config) : Prop where
  base_pos : c.base ≠ 0
  base_lt : c.base < 2 ^ 32
  size_ge : 16 ≤ c.size
  size_lt_word : c.size < 2 ^ 32

/-- In a smaller region the sum of two sizes does not overflow 32 bits. -/
structure Region (c : Config) : Prop extends Configured c where
  size_lt : c.size < 2 ^ 31 + 16

variable {c : Config}

lemma Ok.region (hc : Ok c) : Region c :=
  ⟨⟨hc.base_pos, hc.base_lt, by have := hc.size_ge; omega, by have := hc.size_le; omega⟩,
    by have := hc.size_le; omega⟩

lemma bufferSize_eq (hc : Configured c) : bufferSize c = c.size - 16 :=
  sub64_of_le (by have := hc.size_lt_word; omega) (by have := hc.size_ge; unfold headerSize; omega)

/-! ### Reads made along the way -/

/-- From `s` to `s'` single bytes were read inside `[lo, hi)` only. -/
def Scans (lo hi : ℕ) (s s' : St) : Prop :=
  ∃ l, s'.trace = s.trace ++ l ∧ ∀ a, Access.rd8 a ∈ l → lo ≤ a ∧ a < hi

variable {lo hi : ℕ} {s s' s'' : St}

lemma Scans.refl (lo hi : ℕ) (s : St) : Scans lo hi s s := ⟨[], by simp, by simp⟩

lemma Scans.trans (h : Scans lo hi s s') (h' : Scans lo hi s' s'') : Scans lo hi s s'' := by
  obtain ⟨l, e, hl⟩ := h
  obtain ⟨l', e', hl'⟩ := h'
  refine ⟨l ++ l', by rw [e', e, List.append_assoc], fun a ha => ?_⟩
  rcases List.mem_append.mp ha with ha | ha
  · exact hl a ha
  · exact hl' a ha

lemma scans_read8 {a : ℕ} (h : lo ≤ a ∧ a < hi) (s : St) :
    Scans lo hi s (mmioRead8 s a).2 :=
  ⟨[.rd8 a], rfl, fun b hb => by simp at hb; subst hb; exact h⟩

lemma scans_read32 (lo hi a : ℕ) (s : St) : Scans lo hi s (mmioRead32 s a).2 :=
  ⟨[.rd32 a], rfl, by simp⟩

lemma scans_write8 (lo hi a : ℕ) (v : UInt8) (s : St) : Scans lo hi s (mmioWrite8 s a v) :=
  ⟨[.wr8 a v], rfl, by simp⟩

lemma scans_write32 (lo hi a v : ℕ) (s : St) : Scans lo hi s (mmioWrite32 s a v) :=
  ⟨[.wr32 a v], rfl, by simp⟩

/-! ### Writes that take effect -/

/-- `s'` is `s` after writing `l` at `a`, having scanned inside `[lo, hi)` only. -/
structure Wrote (lo hi a : ℕ) (l : List UInt8) (s s' : St) : Prop where
  mem : s'.mem = blit s.mem a l
  writable : s'.writable = true
  scans : Scans lo hi s s'

lemma wrote_write8 (hw : s.writable = true) (lo hi a : ℕ) (v : UInt8) :
    Wrote lo hi a [v] s (mmioWrite8 s a v) :=
  ⟨by simp [mmioWrite8, hw, put_eq_blit], hw, scans_write8 lo hi a v s⟩

lemma wrote_write32 (hw : s.writable = true) (lo hi a v : ℕ) :
    Wrote lo hi a (le32 v) s (mmioWrite32 s a v) :=
  ⟨by simp [mmioWrite32, hw], hw, scans_write32 lo hi a v s⟩

lemma Wrote.append {a : ℕ} {l l' : List UInt8} (h : Wrote lo hi a l s s')
    (h' : Wrote lo hi (a + l.length) l' s' s'') : Wrote lo hi a (l ++ l') s s'' :=
  ⟨by rw [h'.mem, h.mem, blit_append], h'.writable, h.scans.trans h'.scans⟩

/-! ### The loops -/

lemma fillDefault_spec (hw : s.writable = true) (lo hi addr bound : ℕ) {fuel : ℕ}
    (hb : bound < 2 ^ 32) (hf : bound ≤ fuel) :
    ∃ s', fillDefault addr bound fuel s = some s' ∧
      Wrote lo hi addr (List.replicate bound DEBUG_PRINT_BUFFER_DFT_VALUE) s s' := by
  obtain ⟨x, hx, ⟨hxb, hxw⟩, hend⟩ := whileFuel_spec
    (fun x : ℕ × St => decide (x.1 < bound))
    (fun x => some (u32 (x.1 + 1), mmioWrite8 x.2 (addr + x.1) DEBUG_PRINT_BUFFER_DFT_VALUE))
    (I := fun x => x.1 ≤ bound ∧
      Wrote lo hi addr (List.replicate x.1 DEBUG_PRINT_BUFFER_DFT_VALUE) s x.2)
    (μ := fun x => bound - x.1)
    (fun x hI hc => by
      obtain ⟨hxb, hxw⟩ := hI
      have hlt : x.1 < bound := by simpa using hc
      refine ⟨_, rfl, ⟨?_, ?_⟩, ?_⟩ <;> simp only [u32_of_lt (show x.1 + 1 < 2 ^ 32 by omega)]
      · omega
      · rw [List.replicate_succ']
        refine hxw.append ?_
        rw [List.length_replicate]
        exact wrote_write8 hxw.writable lo hi _ _
      · omega)
    fuel (0, s) ⟨Nat.zero_le _, by simp, hw, Scans.refl lo hi s⟩ (by simpa using hf)
  have hlen : x.1 = bound := by simp at hend; omega
  exact ⟨x.2, by simp [fillDefault, hx], hlen ▸ hxw⟩

lemma copyRecord_spec (buffer : ℕ → UInt8) (lo hi : ℕ) :
    ∀ (n addr i : ℕ) (s : St), s.writable = true →
      Wrote lo hi addr (slice buffer i n) s (copyRecord buffer n addr i s) := by
  intro n
  induction n with
  | zero => exact fun addr i s hw => ⟨by simp [copyRecord], hw, Scans.refl lo hi s⟩
  | succ n ih =>
    intro addr i s hw
    have h1 := wrote_write8 hw lo hi addr (buffer i)
    have h2 := ih (addr + 1) (i + 1) _ h1.writable
    have e : slice buffer i (n + 1) = [buffer i] ++ slice buffer (i + 1) n := by
      rw [Nat.add_comm, slice_add]; simp [slice]
    rw [e, copyRecord]
    exact h1.append (by simpa using h2)

/-- The scan of one whole record stops behind its NUL. -/
lemma recordSizeLoop_spec (lo hi : ℕ) (r : List UInt8) (hr : (0 : UInt8) ∉ r) :
    ∀ (fuel a n : ℕ) (s : St), slice s.mem a (r.length + 1) = r ++ [0] →
      lo ≤ a → a + r.length + 1 ≤ hi → hi < 2 ^ 64 → n + r.length + 1 < 2 ^ 32 →
      r.length < fuel →
      ∃ s', recordSizeLoop fuel a n s = some (n + r.length + 1, s') ∧ s'.mem = s.mem ∧
        s'.writable = s.writable ∧ Scans lo hi s s' := by
  induction r with
  | nil =>
    intro fuel a n s hm hlo hhi h64 h32 hf
    obtain ⟨fuel, rfl⟩ : ∃ k, fuel = k + 1 := ⟨fuel - 1, by simp at hf; omega⟩
    have h0 : s.mem a = 0 := by simpa [slice] using hm
    have hu : u32 (n + 1) = n + 1 := u32_of_lt (by simpa using h32)
    refine ⟨(mmioRead8 s a).2, ?_, rfl, rfl, scans_read8 ⟨hlo, by simpa using hhi⟩ s⟩
    simp [recordSizeLoop, mmioRead8, h0, DEBUG_STRING_END_FLAG, hu]
  | cons v r ih =>
    intro fuel a n s hm hlo hhi h64 h32 hf
    obtain ⟨fuel, rfl⟩ : ∃ k, fuel = k + 1 := ⟨fuel - 1, by simp at hf; omega⟩
    simp only [List.length_cons] at hm hhi h32 hf
    rw [show r.length + 1 + 1 = 1 + (r.length + 1) by omega, slice_add, List.cons_append,
      show slice s.mem a 1 = [s.mem a] by simp [slice], List.singleton_append] at hm
    injection hm with hv hm
    have hv0 : s.mem a ≠ 0 := fun h => hr (by rw [← hv, h]; simp)
    obtain ⟨s', hs', hmem, hw, hsc⟩ := ih (fun h => hr (by simp [h])) fuel (a + 1) (n + 1)
      (mmioRead8 s a).2 hm (by omega) (by omega) h64 (by omega) (by omega)
    refine ⟨s', ?_, hmem, hw, (scans_read8 ⟨hlo, by omega⟩ s).trans hsc⟩
    have hu : u64 (a + 1) = a + 1 := u64_of_lt (by omega)
    have hu' : u32 (n + 1) = n + 1 := u32_of_lt (by omega)
    have hread : mmioRead8 s a = (s.mem a, (mmioRead8 s a).2) := rfl
    rw [recordSizeLoop, hread]
    simp only [DEBUG_STRING_END_FLAG, ne_eq, hv0, not_false_eq_true, if_true, hu, hu', hs',
      List.length_cons]
    congr 2; omega

/-! ### The operations -/

/-- The region holds these records. -/
structure Holds (c : Config) (s : St) (recs : List (List UInt8)) : Prop where
  writable : s.writable = true
  sig : word32 s.mem (sigAddr c) = RAM_DEBUG_HEADER_ID
  idx : word32 s.mem (latestIdxAddr c) = size recs
  log : slice s.mem (bufferStart c) (size recs) = cells 0 recs
  fits : size recs ≤ bufferSize c
  nulFree : ∀ r ∈ recs, (0 : UInt8) ∉ r

/-- Counting the records to remove walks over whole records and stops at the first point
where the rest leaves room. -/
lemma removal_spec (hc : Region c) {recs : List (List UInt8)} (h : Holds c s recs) {need fuel : ℕ}
    (hneed : need ≤ bufferSize c) (hf : bufferSize c ≤ fuel) :
    ∃ x, removeLoop c need fuel ⟨0, bufferSize c - size recs, s⟩ = some x ∧
      x.recordOffset + size (makeRoom (bufferSize c) need recs) = size recs ∧
      x.s.mem = s.mem ∧ x.s.writable = true ∧
      Scans (bufferStart c) (bufferStart c + size recs) s x.s := by
  have hN := bufferSize_eq hc.toConfigured
  have hsz := hc.size_lt
  have hbase := hc.base_lt
  obtain ⟨x, hx, ⟨done, rest, hrecs, hroom, hoff, hrem, hmem, hw, hsc⟩, hend⟩ := whileFuel_spec
    (fun x : Removal => decide (x.remainedSize < need))
    (removeRound c fuel)
    (I := fun x => ∃ done rest, recs = done ++ rest ∧
      makeRoom (bufferSize c) need recs = makeRoom (bufferSize c) need rest ∧
      x.recordOffset = size done ∧ x.remainedSize = bufferSize c - size rest ∧
      x.s.mem = s.mem ∧ x.s.writable = true ∧
      Scans (bufferStart c) (bufferStart c + size recs) s x.s)
    (μ := fun x => bufferSize c - x.remainedSize)
    (fun x hI hcond => by
      obtain ⟨done, rest, hrecs, hroom, hoff, hrem, hmem, hw, hsc⟩ := hI
      have hlt : x.remainedSize < need := by simpa using hcond
      -- an empty rest would leave the whole buffer free
      obtain ⟨r, rest, rfl⟩ : ∃ r t, rest = r :: t := by
        cases rest with
        | nil => simp at hrem; omega
        | cons r t => exact ⟨r, t, rfl⟩
      have hfits := h.fits
      rw [hrecs, size_append, size_cons] at hfits
      rw [size_cons] at hrem
      have hsize : size recs = size done + (r.length + 1 + size rest) := by
        rw [hrecs, size_append, size_cons]
      have hcell : slice s.mem (bufferStart c + size done) (r.length + 1) = r ++ [0] := by
        have e : slice s.mem (bufferStart c) (size recs) =
            cells 0 done ++ (r ++ [0]) ++ cells 0 rest := by
          rw [h.log, hrecs, cells_append, cells_cons]; simp
        simpa using slice_mid e
      have hstart : bufferStart c = c.base + 16 := rfl
      obtain ⟨t, ht, htm, htw, hts⟩ := recordSizeLoop_spec (bufferStart c)
        (bufferStart c + size recs) r (h.nulFree r (by rw [hrecs]; simp)) fuel
        (bufferStart c + size done) 0 x.s (by rw [hmem]; exact hcell) (by omega) (by omega)
        (by omega) (by omega) (by omega)
      rw [Nat.zero_add] at ht
      refine ⟨⟨size done + (r.length + 1), bufferSize c - size rest, t⟩, ?_,
        ⟨done ++ [r], rest, by rw [hrecs]; simp, ?_, by simp, rfl, ?_, ?_, hsc.trans hts⟩, ?_⟩
      · have hu : u32 (size done + (r.length + 1)) = size done + (r.length + 1) :=
          u32_of_lt (by omega)
        have hu' : u32 (bufferSize c - (r.length + 1 + size rest) + (r.length + 1)) =
            bufferSize c - size rest := by
          rw [u32_of_lt (by omega)]; omega
        simp only [removeRound, ramDebugGetRecordSize, hoff, ht, Option.map_some, hrem, hu, hu']
      · rw [hroom, makeRoom_of_full (by rw [size_cons]; omega)]
      · rw [htm, hmem]
      · rw [htw, hw]
      · show bufferSize c - (bufferSize c - size rest) < bufferSize c - x.remainedSize
        omega)
    fuel ⟨0, bufferSize c - size recs, s⟩
    ⟨[], recs, rfl, rfl, rfl, rfl, rfl, h.writable, Scans.refl _ _ _⟩
    (le_trans (Nat.sub_le _ _) hf)
  have hle : need ≤ bufferSize c - size rest := by simp at hend; omega
  have hfits := h.fits
  rw [hrecs, size_append] at hfits
  have hrest : makeRoom (bufferSize c) need rest = rest := makeRoom_of_fits (by omega)
  exact ⟨x, hx, by rw [hroom, hrest, hoff, hrecs, size_append], hmem, hw, hsc⟩

/-- Moving the records that stay copies them to the front. -/
lemma moveLoop_spec (hw : s.writable = true) (lo hi : ℕ) {off n : ℕ} (hn : n < 2 ^ 32)
    (hlo : lo ≤ bufferStart c + off) (hhi : bufferStart c + off + n ≤ hi) {fuel : ℕ}
    (hf : n ≤ fuel) :
    ∃ s', moveLoop c off n fuel s = some s' ∧
      Wrote lo hi (bufferStart c) (slice s.mem (bufferStart c + off) n) s s' := by
  obtain ⟨y, hy, ⟨hyn, hyw⟩, hend⟩ := whileFuel_spec
    (fun y : ℕ × St => decide (y.1 < n))
    (moveRound c off)
    (I := fun y => y.1 ≤ n ∧
      Wrote lo hi (bufferStart c) (slice s.mem (bufferStart c + off) y.1) s y.2)
    (μ := fun y => n - y.1)
    (fun y hI hc => by
      obtain ⟨hyn, hyw⟩ := hI
      have hlt : y.1 < n := by simpa using hc
      refine ⟨_, rfl, ⟨?_, ?_⟩, ?_⟩ <;> simp only [u32_of_lt (show y.1 + 1 < 2 ^ 32 by omega)]
      · omega
      · -- the cell read lies behind the cells written so far
        have hval : y.2.mem (bufferStart c + off + y.1) = s.mem (bufferStart c + off + y.1) := by
          rw [hyw.mem, blit_out _ (by rw [slice_length]; omega)]
        have hsc : Scans lo hi y.2 (mmioRead8 y.2 (bufferStart c + off + y.1)).2 :=
          scans_read8 ⟨by omega, by omega⟩ y.2
        have hwr := wrote_write8 (s := (mmioRead8 y.2 (bufferStart c + off + y.1)).2)
          hyw.writable lo hi (bufferStart c + y.1) (s.mem (bufferStart c + off + y.1))
        rw [slice_succ, hval]
        refine hyw.append ?_
        rw [slice_length]
        exact ⟨hwr.mem, hwr.writable, hsc.trans hwr.scans⟩
      · omega)
    fuel (0, s) ⟨Nat.zero_le _, by simp, hw, Scans.refl lo hi s⟩ (by simpa using hf)
  have hlen : y.1 = n := by simp at hend; omega
  exact ⟨y.2, by simp only [moveLoop, hy, Option.map_some], hlen ▸ hyw⟩

lemma cleanUp_spec (hc : Region c) {recs : List (List UInt8)} (h : Holds c s recs) (need : ℕ)
    {fuel : ℕ} (hneed : need ≤ bufferSize c) (hf : bufferSize c ≤ fuel) :
    let rest := makeRoom (bufferSize c) need recs
    ∃ s', ramDebugCleanUp c fuel need (size recs) s = some (size rest, s') ∧
      Wrote (bufferStart c) (bufferStart c + size recs) (bufferStart c)
        (cells 0 rest ++
          List.replicate (bufferSize c - size rest) DEBUG_PRINT_BUFFER_DFT_VALUE) s s' := by
  intro rest
  have hN := bufferSize_eq hc.toConfigured
  have hsz := hc.size_lt
  have hfits := h.fits
  obtain ⟨x, hx, hoff, hmem, hw, hsc⟩ := removal_spec hc h hneed hf
  obtain ⟨dropped, hp⟩ := makeRoom_suffix (bufferSize c) need recs
  have hsize : size dropped + size rest = size recs := by rw [← size_append, hp]
  have hdrop : x.recordOffset = size dropped := by
    have : x.recordOffset + size rest = size recs := hoff
    omega
  have hcells : slice x.s.mem (bufferStart c + size dropped) (size rest) = cells 0 rest := by
    have e : slice s.mem (bufferStart c) (size recs) = cells 0 dropped ++ cells 0 rest ++ [] := by
      rw [h.log, ← hp, cells_append]; simp [rest]
    rw [hmem]
    simpa using slice_mid e
  have hsub : sub32 (size recs) x.recordOffset = size rest := by
    rw [sub32_of_le (by omega) (by omega)]; omega
  have hrem : u32 (sub64 (bufferSize c) (size recs)) = bufferSize c - size recs := by
    rw [sub64_of_le (by omega) h.fits, u32_of_lt (by omega)]
  obtain ⟨y, hy, hyw⟩ : ∃ y, moveLoop c (size dropped) (size rest) fuel x.s = some y ∧ _ :=
    moveLoop_spec hw (bufferStart c) (bufferStart c + size recs) (by omega) (by omega)
      (by omega) (by omega)
  rw [hcells] at hyw
  have hfree : sub64 (bufferSize c) (size rest) = bufferSize c - size rest :=
    sub64_of_le (by omega) (by omega)
  obtain ⟨s', hs', hsw⟩ := fillDefault_spec hyw.writable (bufferStart c)
    (bufferStart c + size recs) (bufferStart c + size rest) (bufferSize c - size rest)
    (by omega) (le_trans (Nat.sub_le _ _) hf)
  have hall := hyw.append (by rw [cells_length]; exact hsw)
  refine ⟨s', ?_, by rw [hall.mem, hmem], hall.writable, hsc.trans hall.scans⟩
  rw [hdrop] at hsub
  simp only [ramDebugCleanUp, hrem, hx, Option.bind_eq_bind, Option.bind_some, hdrop, hsub, hy,
    hfree, hs', rest]

/-- Storing the index makes the records in front of it the log. -/
lemma holds_of_writeIdx (hc : Configured c) (recs : List (List UInt8)) (hw : s.writable = true)
    (hsig : word32 s.mem (sigAddr c) = RAM_DEBUG_HEADER_ID)
    (hlog : slice s.mem (bufferStart c) (size recs) = cells 0 recs)
    (hfits : size recs ≤ bufferSize c) (hnul : ∀ r ∈ recs, (0 : UInt8) ∉ r) :
    Holds c (mmioWrite32 s (latestIdxAddr c) (size recs)) recs := by
  have hN := bufferSize_eq hc
  have hsz := hc.size_lt_word
  have hW := wrote_write32 hw 0 0 (latestIdxAddr c) (size recs)
  have h4 : (le32 (size recs)).length = 4 := rfl
  have ha : bufferStart c = latestIdxAddr c + 12 := rfl
  have hb : latestIdxAddr c = sigAddr c + 4 := rfl
  refine ⟨hW.writable, ?_, ?_, ?_, hfits, hnul⟩
  · rw [hW.mem, word32_blit_out _ (by omega), hsig]
  · rw [hW.mem, word32_le32 _ _ (by omega)]
  · rw [hW.mem, slice_blit_out _ (by omega), hlog]

/-- Writes behind the header leave the signature alone. -/
lemma Wrote.sig {a : ℕ} {l : List UInt8} (h : Wrote lo hi a l s s') (ha : bufferStart c ≤ a) :
    word32 s'.mem (sigAddr c) = word32 s.mem (sigAddr c) := by
  have hs : bufferStart c = sigAddr c + 16 := rfl
  rw [h.mem, word32_blit_out _ (by omega)]

/-- Before the first record is kept, the signature is missing and the header is made. -/
lemma getLatestIndex_fresh (hc : Configured c) (hw : s.writable = true)
    (hsig : word32 s.mem (sigAddr c) ≠ RAM_DEBUG_HEADER_ID) (lo hi : ℕ) {fuel : ℕ}
    (hf : bufferSize c ≤ fuel) :
    ∃ s', ramDebugGetLatestIndex c fuel s = some (.ok 0, s') ∧ Holds c s' [] ∧
      Scans lo hi s s' := by
  have hN := bufferSize_eq hc
  have hsz := hc.size_lt_word
  set s₁ := (mmioRead32 s (sigAddr c)).2
  set s₂ := mmioWrite32 s₁ (sigAddr c) RAM_DEBUG_HEADER_ID
  have h₂ : Wrote lo hi (sigAddr c) (le32 RAM_DEBUG_HEADER_ID) s₁ s₂ :=
    wrote_write32 (s := s₁) hw lo hi _ _
  have hsig₂ : word32 s₂.mem (sigAddr c) = RAM_DEBUG_HEADER_ID := by
    rw [h₂.mem, word32_le32 _ _ (by unfold RAM_DEBUG_HEADER_ID; omega)]
  set s₃ := (mmioRead32 s₂ (sigAddr c)).2
  have h₄ : Holds c (mmioWrite32 s₃ (latestIdxAddr c) 0) [] :=
    holds_of_writeIdx (s := s₃) hc [] h₂.writable hsig₂ rfl (Nat.zero_le _) (by simp)
  obtain ⟨s₅, hs₅, hW⟩ := fillDefault_spec h₄.writable lo hi (bufferStart c)
    (bufferSize c) (by omega) hf
  have hidx : word32 s₅.mem (latestIdxAddr c) = 0 := by
    have ha : bufferStart c = latestIdxAddr c + 12 := rfl
    rw [hW.mem, word32_blit_out _ (by omega), h₄.idx]; rfl
  refine ⟨(mmioRead32 s₅ (latestIdxAddr c)).2, ?_,
    ⟨hW.writable, (hW.sig le_rfl).trans h₄.sig, hidx, rfl, Nat.zero_le _, by simp⟩, ?_⟩
  · have hread : mmioRead32 s (sigAddr c) = (word32 s.mem (sigAddr c), s₁) := rfl
    have hread₂ : mmioRead32 s₂ (sigAddr c) = (word32 s₂.mem (sigAddr c), s₃) := rfl
    have hread₅ : mmioRead32 s₅ (latestIdxAddr c) =
        (word32 s₅.mem (latestIdxAddr c), (mmioRead32 s₅ (latestIdxAddr c)).2) := rfl
    have hsize : c.size ≠ 0 := by have := hc.size_ge; omega
    rw [ramDebugGetLatestIndex, if_neg hc.base_pos, if_neg hsize, hread]
    simp only [hsig, ne_eq, not_false_eq_true, if_true]
    rw [hread₂]
    simp only [hsig₂, not_true, if_false, hs₅, Option.bind_some]
    rw [hread₅, hidx]
  · exact (scans_read32 lo hi _ s).trans (h₂.scans.trans ((scans_read32 lo hi _ s₂).trans
      ((scans_write32 lo hi _ _ s₃).trans (hW.scans.trans (scans_read32 lo hi _ s₅)))))

lemma getLatestIndex_holds (hc : Configured c) {recs : List (List UInt8)} (h : Holds c s recs)
    (lo hi fuel : ℕ) :
    ∃ s', ramDebugGetLatestIndex c fuel s = some (.ok (size recs), s') ∧ Holds c s' recs ∧
      Scans lo hi s s' := by
  have hsize : c.size ≠ 0 := by have := hc.size_ge; omega
  set s₁ := (mmioRead32 s (sigAddr c)).2
  have hread : mmioRead32 s (sigAddr c) = (word32 s.mem (sigAddr c), s₁) := rfl
  have hread₁ : mmioRead32 s₁ (latestIdxAddr c) =
      (word32 s.mem (latestIdxAddr c), (mmioRead32 s₁ (latestIdxAddr c)).2) := rfl
  refine ⟨(mmioRead32 s₁ (latestIdxAddr c)).2, ?_, ⟨h.writable, h.sig, h.idx, h.log, h.fits,
    h.nulFree⟩, (scans_read32 lo hi _ s).trans (scans_read32 lo hi _ s₁)⟩
  rw [ramDebugGetLatestIndex, if_neg hc.base_pos, if_neg hsize, hread]
  simp only [h.sig, ne_eq, not_true, if_false]
  rw [hread₁, h.idx]

/-! ### One call -/

/-- What a caller promises: a NUL-terminated string shorter than the buffer. -/
structure CallOk (c : Config) (x : Call) : Prop where
  lt : x.size < bufferSize c
  nul : x.buffer x.size = 0
  nulFree : ∀ i < x.size, x.buffer i ≠ 0

lemma CallOk.msg_nulFree {x : Call} (hx : CallOk c x) : (0 : UInt8) ∉ x.msg := by
  intro h
  obtain ⟨i, hi, e⟩ := List.mem_map.mp h
  exact hx.nulFree i (List.mem_range.mp hi) (by simpa using e)

lemma CallOk.record {x : Call} (hx : CallOk c x) :
    slice x.buffer 0 (x.size + 1) = cells 0 [x.msg] := by
  rw [slice_succ, Nat.zero_add, hx.nul, cells_cons]; rfl

lemma Call.msg_length (x : Call) : x.msg.length = x.size := slice_length _ _ _

/-- Appending a record that has room. -/
lemma append_spec (lo hi : ℕ) (hc : Configured c) {x : Call} (hx : CallOk c x)
    {recs : List (List UInt8)} (hw : s.writable = true)
    (hsig : word32 s.mem (sigAddr c) = RAM_DEBUG_HEADER_ID)
    (hlog : slice s.mem (bufferStart c) (size recs) = cells 0 recs)
    (hnul : ∀ r ∈ recs, (0 : UInt8) ∉ r) (hfits : size recs + (x.size + 1) ≤ bufferSize c) :
    let s₁ := copyRecord x.buffer (x.size + 1) (bufferStart c + size recs) 0 s
    Holds c (mmioWrite32 s₁ (latestIdxAddr c) (size recs + (x.size + 1))) (recs ++ [x.msg]) ∧
      Scans lo hi s (mmioWrite32 s₁ (latestIdxAddr c) (size recs + (x.size + 1))) := by
  intro s₁
  have hW : Wrote lo hi (bufferStart c + size recs) (slice x.buffer 0 (x.size + 1)) s s₁ :=
    copyRecord_spec x.buffer lo hi (x.size + 1) _ 0 s hw
  rw [hx.record] at hW
  have hsize : size (recs ++ [x.msg]) = size recs + (x.size + 1) := by
    simp [Call.msg_length]
  have hone : (cells 0 [x.msg]).length = x.size + 1 := by simp [Call.msg_length]
  have hlog₁ : slice s₁.mem (bufferStart c) (size (recs ++ [x.msg])) =
      cells 0 (recs ++ [x.msg]) := by
    rw [hsize, slice_add, hW.mem, slice_blit_out _ (by omega), hlog, ← hone, slice_blit,
      cells_append]
  refine ⟨?_, hW.scans.trans (scans_write32 _ _ _ _ _)⟩
  rw [← hsize]
  refine holds_of_writeIdx hc _ hW.writable ?_ hlog₁ (by omega) ?_
  · rw [hW.sig (c := c) (by omega), hsig]
  · intro r hr
    rcases List.mem_append.mp hr with hr | hr
    · exact hnul r hr
    · rw [List.mem_singleton.mp hr]; exact hx.msg_nulFree

/-- The size of a record is counted without overflow. -/
lemma CallOk.recordSize_eq {x : Call} (hx : CallOk c x) (hc : Configured c) :
    u32 (u32 x.size + 1) = x.size + 1 := by
  have hN := bufferSize_eq hc
  have hsz := hc.size_lt_word
  have hlt := hx.lt
  exact u32_succ (by omega)

/-- An enabled call whose record has room stores it and then the new index. -/
lemma print_of_room (hc : Configured c) {x : Call} (hx : CallOk c x)
    (hflag : x.cmosFlag ≠ RAM_DEBUG_DISABLE) {n fuel : ℕ}
    (hidx : ramDebugGetLatestIndex c fuel s = some (.ok n, s'))
    (hroom : n + (x.size + 1) ≤ bufferSize c) :
    x.print c fuel s = some (mmioWrite32
      (copyRecord x.buffer (x.size + 1) (bufferStart c + n) 0 s')
      (latestIdxAddr c) (n + (x.size + 1))) := by
  have hN := bufferSize_eq hc
  have hsz := hc.size_lt_word
  have hlt := hx.lt
  have htemp := hx.recordSize_eq hc
  unfold Call.print ramDebugPrint
  rw [if_neg hflag, if_neg (by omega), hidx]
  simp only [Option.bind_eq_bind, Option.bind_some, htemp,
    u32_of_lt (show n + (x.size + 1) < 2 ^ 32 by omega)]
  rw [if_neg (by simp; omega)]
  simp only [if_pos hroom]

/-- Without room it first cleans up. -/
lemma print_of_full (hc : Region c) {x : Call} (hx : CallOk c x)
    (hflag : x.cmosFlag ≠ RAM_DEBUG_DISABLE) {n n' fuel : ℕ} (hn : n ≤ bufferSize c)
    (hidx : ramDebugGetLatestIndex c fuel s = some (.ok n, s'))
    (hfull : bufferSize c < n + (x.size + 1))
    (hclean : ramDebugCleanUp c fuel (x.size + 1) n s' = some (n', s''))
    (hfits : n' + (x.size + 1) ≤ bufferSize c) :
    x.print c fuel s = some (mmioWrite32
      (copyRecord x.buffer (x.size + 1) (bufferStart c + n') 0 s'')
      (latestIdxAddr c) (n' + (x.size + 1))) := by
  have hN := bufferSize_eq hc.toConfigured
  have hsz := hc.size_lt
  have hlt := hx.lt
  have htemp := hx.recordSize_eq hc.toConfigured
  unfold Call.print ramDebugPrint
  rw [if_neg hflag, if_neg (by omega), hidx]
  simp only [Option.bind_eq_bind, Option.bind_some, htemp,
    u32_of_lt (show n + (x.size + 1) < 2 ^ 32 by omega)]
  rw [if_pos ⟨hfull, rfl⟩, hclean]
  simp only [Option.bind_some, if_pos hfits,
    u32_of_lt (show n' + (x.size + 1) < 2 ^ 32 by omega)]

/-- What the cleaning leaves at the front is the records that stay. -/
lemma Wrote.kept {a : ℕ} {recs : List (List UInt8)} {l : List UInt8}
    (h : Wrote lo hi a (cells 0 recs ++ l) s s') : slice s'.mem a (size recs) = cells 0 recs := by
  have hlen : size recs ≤ (cells 0 recs ++ l).length := by simp
  rw [h.mem, ← slice_take _ _ hlen, slice_blit,
    List.take_append_of_le_length (by rw [cells_length]),
    List.take_of_length_le (by simp)]

/-- Once the index is known, an enabled call pushes its record. -/
lemma print_of_latest (hc : Region c) {x : Call} (hx : CallOk c x)
    (hflag : x.cmosFlag ≠ RAM_DEBUG_DISABLE) {recs : List (List UInt8)} {fuel : ℕ}
    (hf : bufferSize c ≤ fuel)
    (hidx : ramDebugGetLatestIndex c fuel s = some (.ok (size recs), s')) (h : Holds c s' recs) :
    ∃ s'', x.print c fuel s = some s'' ∧ Holds c s'' (push (bufferSize c) recs x.msg) ∧
      Scans (bufferStart c) (bufferStart c + size recs) s' s'' := by
  have hneed : x.msg.length + 1 = x.size + 1 := by rw [Call.msg_length]
  rw [push, hneed]
  by_cases hroom : size recs + (x.size + 1) ≤ bufferSize c
  · -- room is there: nothing is moved
    rw [makeRoom_of_fits hroom]
    have hW := append_spec (bufferStart c) (bufferStart c + size recs) hc.toConfigured hx
      h.writable h.sig h.log h.nulFree hroom
    exact ⟨_, print_of_room hc.toConfigured hx hflag hidx hroom, hW.1, hW.2⟩
  · have hlt : x.size + 1 ≤ bufferSize c := hx.lt
    obtain ⟨s₁, hs₁, hW₁⟩ := cleanUp_spec hc h (x.size + 1) hlt hf
    have hfits₁ := makeRoom_fits (x.size + 1) hlt recs
    obtain ⟨dropped, hp⟩ := makeRoom_suffix (bufferSize c) (x.size + 1) recs
    set rest := makeRoom (bufferSize c) (x.size + 1) recs
    have hW := append_spec (bufferStart c) (bufferStart c + size recs) hc.toConfigured hx
      hW₁.writable (by rw [hW₁.sig le_rfl, h.sig]) hW₁.kept
      (fun r hr => h.nulFree r (by rw [← hp]; exact List.mem_append_right _ hr)) hfits₁
    exact ⟨_, print_of_full hc hx hflag h.fits hidx (by omega) hs₁ hfits₁, hW.1,
      hW₁.scans.trans hW.2⟩

/-! ### Runs of calls -/

/-- A region that was not used yet shows no record. -/
def Shows (c : Config) (s : St) (recs : List (List UInt8)) : Prop :=
  (recs = [] ∧ s.writable = true ∧ word32 s.mem (sigAddr c) ≠ RAM_DEBUG_HEADER_ID) ∨
    Holds c s recs

lemma Shows.latest (hc : Configured c) {recs : List (List UInt8)} (h : Shows c s recs) (lo hi : ℕ)
    {fuel : ℕ} (hf : bufferSize c ≤ fuel) :
    ∃ s', ramDebugGetLatestIndex c fuel s = some (.ok (size recs), s') ∧ Holds c s' recs ∧
      Scans lo hi s s' := by
  rcases h with ⟨rfl, hw, hsig⟩ | h
  · exact getLatestIndex_fresh hc hw hsig lo hi hf
  · exact getLatestIndex_holds hc h lo hi fuel

/-- The records after one more call. -/
def afterCall (c : Config) (recs : List (List UInt8)) (x : Call) : List (List UInt8) :=
  if x.cmosFlag = RAM_DEBUG_DISABLE then recs else push (bufferSize c) recs x.msg

/-- The strings of the calls made while the log is enabled. -/
def accepted (calls : List Call) : List (List UInt8) :=
  (calls.filter fun x => x.cmosFlag ≠ RAM_DEBUG_DISABLE).map Call.msg

lemma print_step (hc : Region c) {fuel : ℕ} (hf : bufferSize c ≤ fuel) {recs : List (List UInt8)}
    (h : Shows c s recs) {x : Call} (hx : CallOk c x) :
    ∃ s', x.print c fuel s = some s' ∧ Shows c s' (afterCall c recs x) ∧
      Scans (bufferStart c) (bufferStart c + size recs) s s' ∧
      (x.cmosFlag = RAM_DEBUG_DISABLE → s' = s) ∧
      (x.cmosFlag ≠ RAM_DEBUG_DISABLE → Holds c s' (afterCall c recs x)) := by
  by_cases hflag : x.cmosFlag = RAM_DEBUG_DISABLE
  · refine ⟨s, by simp [Call.print, ramDebugPrint, hflag], ?_, Scans.refl _ _ _,
      fun _ => rfl, fun h' => absurd hflag h'⟩
    rw [afterCall, if_pos hflag]; exact h
  · obtain ⟨s₁, hs₁, h₁, hsc₁⟩ :=
      h.latest hc.toConfigured (bufferStart c) (bufferStart c + size recs) hf
    obtain ⟨s', hs', h', hsc⟩ := print_of_latest hc hx hflag hf hs₁ h₁
    have hpush : afterCall c recs x = push (bufferSize c) recs x.msg := if_neg hflag
    rw [hpush]
    exact ⟨s', hs', Or.inr h', hsc₁.trans hsc, fun h'' => absurd h'' hflag, fun _ => h'⟩

/-- The log as the code sees it: the index `RamDebugGetLatestIndex` delivers, and records that
fill the bytes before it. -/
structure LogIs (c : Config) (fuel : ℕ) (s : St) (latestIndex : ℕ) (recs : List (List UInt8)) :
    Prop where
  latest : ∃ s', ramDebugGetLatestIndex c fuel s = some (.ok latestIndex, s')
  le : latestIndex ≤ bufferSize c
  log : slice s.mem (bufferStart c) latestIndex = cells 0 recs
  nulFree : ∀ r ∈ recs, (0 : UInt8) ∉ r

lemma Shows.logIs (hc : Configured c) {recs : List (List UInt8)} (h : Shows c s recs) {fuel : ℕ}
    (hf : bufferSize c ≤ fuel) : LogIs c fuel s (size recs) recs := by
  obtain ⟨s', hs', h', -⟩ := h.latest hc 0 0 hf
  refine ⟨⟨s', hs'⟩, h'.fits, ?_, h'.nulFree⟩
  rcases h with ⟨rfl, -, -⟩ | h
  · rfl
  · exact h.log

/-- The run of `calls` from `s₀` ends in `s`; one more call `x` then leads to `s'`. -/
structure Prints (c : Config) (fuel : ℕ) (s₀ : St) (calls : List Call) (x : Call) (s s' : St)
    (latestIndex latestIndex' : ℕ) (recs recs' : List (List UInt8)) : Prop where
  run : run (fun s x => Call.print c fuel s x) s₀ calls = some s
  call : x.print c fuel s = some s'
  before : LogIs c fuel s latestIndex recs
  after : LogIs c fuel s' latestIndex' recs'
  suffix : recs' <:+ accepted (calls ++ [x])
  /-- A call made while the log is disabled changes nothing. -/
  off : x.cmosFlag = RAM_DEBUG_DISABLE → s'.mem = s.mem ∧ recs' = recs
  /-- An enabled call drops the fewest oldest records that make room, and adds its own. -/
  on : x.cmosFlag ≠ RAM_DEBUG_DISABLE → ∃ k, recs' = recs.drop k ++ [x.msg] ∧
    ∀ j < k, bufferSize c < size (recs.drop j) + (x.size + 1)
  /-- From the first enabled call on, the header says so. -/
  header : accepted (calls ++ [x]) ≠ [] →
    word32 s'.mem (sigAddr c) = RAM_DEBUG_HEADER_ID ∧ word32 s'.mem (latestIdxAddr c) = latestIndex'
  /-- Every byte scanned lies before the index. -/
  scans : Scans (bufferStart c) (bufferStart c + latestIndex) s s'

/-- **Every run of calls keeps the log a bounded log of whole records.** -/
theorem ramDebugPrint_run (hc : Ok c) {s₀ : St} (hw : s₀.writable = true)
    (hsig : word32 s₀.mem (sigAddr c) ≠ RAM_DEBUG_HEADER_ID) {calls : List Call} {x : Call}
    (hcalls : ∀ y ∈ calls ++ [x], CallOk c y) {fuel : ℕ} (hf : bufferSize c ≤ fuel) :
    ∃ s s' latestIndex latestIndex' recs recs',
      Prints c fuel s₀ calls x s s' latestIndex latestIndex' recs recs' := by
  -- the records seen so far, and whether the header is in place
  obtain ⟨s, hs, hshow, hhead⟩ := run_sim (fun s x => Call.print c fuel s x)
    (fun t x => (afterCall c t.1 x, t.2 || decide (x.cmosFlag ≠ RAM_DEBUG_DISABLE)))
    (CallOk c) (R := fun s t => Shows c s t.1 ∧ (t.2 = true → Holds c s t.1))
    (t := (([] : List (List UInt8)), false))
    (fun s t y hI hy => by
      obtain ⟨hR, hon⟩ := hI
      obtain ⟨s', hs', hshow, -, hoff, hhold⟩ := print_step hc.region hf hR hy
      refine ⟨s', hs', hshow, fun ht => ?_⟩
      by_cases hflag : y.cmosFlag = RAM_DEBUG_DISABLE
      · have : afterCall c t.1 y = t.1 := if_pos hflag
        rw [hoff hflag, this]
        exact hon (by simpa [hflag] using ht)
      · exact hhold hflag)
    ⟨Or.inl ⟨rfl, hw, hsig⟩, by simp⟩ calls (fun y hy => hcalls y (by simp [hy]))
  have hfold : ∀ (ys : List Call) (t : List (List UInt8) × Bool),
      ys.foldl (fun t x => (afterCall c t.1 x, t.2 || decide (x.cmosFlag ≠ RAM_DEBUG_DISABLE))) t =
        ((accepted ys).foldl (push (bufferSize c)) t.1, t.2 || decide (accepted ys ≠ [])) := by
    intro ys
    induction ys with
    | nil => simp [accepted]
    | cons y ys ih =>
      intro t
      rw [List.foldl_cons, ih]
      by_cases h : y.cmosFlag = RAM_DEBUG_DISABLE <;> simp [afterCall, accepted, h]
  rw [hfold] at hshow hhead
  set recs := (accepted calls).foldl (push (bufferSize c)) []
  obtain ⟨s', hs', hshow', hsc, hoff, hon⟩ := print_step hc.region hf hshow (hcalls x (by simp))
  have hrecs' : afterCall c recs x =
      (accepted (calls ++ [x])).foldl (push (bufferSize c)) [] := by
    by_cases h : x.cmosFlag = RAM_DEBUG_DISABLE <;> simp [afterCall, accepted, h, recs]
  refine ⟨s, s', size recs, size (afterCall c recs x), recs, afterCall c recs x, hs, hs',
    hshow.logIs hc.region.toConfigured hf, hshow'.logIs hc.region.toConfigured hf,
      ?_, ?_, ?_, ?_, hsc⟩
  · rw [hrecs']; exact foldl_push_suffix _ _ _
  · exact fun h => ⟨by rw [hoff h], if_pos h⟩
  · intro h
    obtain ⟨k, hk, hmin⟩ := makeRoom_eq_drop (bufferSize c) (x.size + 1) recs
    refine ⟨k, ?_, hmin⟩
    rw [afterCall, if_neg h, push, Call.msg_length, hk]
  · intro hne
    by_cases h : x.cmosFlag = RAM_DEBUG_DISABLE
    · have hold := hhead (by simpa [accepted, h] using hne)
      have : afterCall c recs x = recs := if_pos h
      rw [hoff h, this]
      exact ⟨hold.sig, hold.idx⟩
    · exact ⟨(hon h).sig, (hon h).idx⟩

/-- A string in memory, NUL behind it. -/
def literal (l : List UInt8) : ℕ → UInt8 := fun i => l.getD i 0

/-- Eight bytes of log: the last record pushes out the two before it. -/
theorem ramDebugPrint_run_full :
    ∃ s s' latestIndex latestIndex' recs recs',
      Prints ⟨0x1000, 24⟩ 8 ⟨fun _ => 0, true, []⟩
        [⟨0x5A, literal [1, 2], 2⟩, ⟨0xFF, literal [3, 4], 2⟩, ⟨0, literal [5, 6, 7], 3⟩]
        ⟨0xFF, literal [8, 9, 10, 11, 12], 5⟩ s s' latestIndex latestIndex' recs recs' := by
  refine ramDebugPrint_run ⟨by decide, by decide, by decide, by decide⟩ rfl (by decide)
    (fun y hy => ?_) (by decide)
  simp only [List.cons_append, List.nil_append, List.mem_cons, List.not_mem_nil, or_false] at hy
  rcases hy with rfl | rfl | rfl | rfl <;> exact ⟨by decide, by decide, by decide⟩

end UefiToolkit.RamLog
