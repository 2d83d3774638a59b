import UefiToolkit.RamAccess

/-!
A warm reset loses the rest of the writes of a run of calls. What it leaves is a log the next boot
can go on with, unless the signature got ahead of the index or records were being removed.
-/

namespace UefiToolkit.RamReset

open UefiToolkit.Word UefiToolkit.Loop UefiToolkit.Mem UefiToolkit.Bytes UefiToolkit.RecordLog
open UefiToolkit.Cuts UefiToolkit.RamModel UefiToolkit.RamLog UefiToolkit.RamAccess

/-- The index lies in the log, and behind a NUL unless it is zero. -/
def IndexOk (c : Config) (m : ℕ → UInt8) : Prop :=
  word32 m (latestIdxAddr c) ≤ bufferSize c ∧
    (0 < word32 m (latestIdxAddr c) → m (bufferStart c + word32 m (latestIdxAddr c) - 1) = 0)

/-- What a region must look like for the next boot. -/
def Sound (c : Config) (m : ℕ → UInt8) : Prop :=
  word32 m (sigAddr c) ≠ RAM_DEBUG_HEADER_ID ∨ IndexOk c m

variable {c : Config} {s s' : St} {m : ℕ → UInt8} {recs : List (List UInt8)}

/-- The signature is in place, and `n` bytes of log that end in NUL. -/
structure IndexAt (c : Config) (n : ℕ) (m : ℕ → UInt8) : Prop where
  sig : word32 m (sigAddr c) = RAM_DEBUG_HEADER_ID
  idx : word32 m (latestIdxAddr c) = n
  le : n ≤ bufferSize c
  nul : 0 < n → m (bufferStart c + n - 1) = 0

lemma IndexAt.indexOk {n : ℕ} (h : IndexAt c n m) : IndexOk c m := by
  unfold IndexOk
  rw [h.idx]
  exact ⟨h.le, h.nul⟩

lemma IndexAt.sound {n : ℕ} (h : IndexAt c n m) : Sound c m := Or.inr h.indexOk

/-- Writes behind the index leave the log as it is. -/
lemma IndexAt.put {n a : ℕ} (h : IndexAt c n m) (ha : bufferStart c + n ≤ a) (v : UInt8) :
    IndexAt c n (put m a v) := by
  have hstart : bufferStart c = sigAddr c + 16 := rfl
  have hidx : latestIdxAddr c = sigAddr c + 4 := rfl
  rw [put_eq_blit]
  refine ⟨?_, ?_, h.le, fun hn => ?_⟩
  · rw [word32_blit_out _ (by omega), h.sig]
  · rw [word32_blit_out _ (by omega), h.idx]
  · rw [blit_out _ (by omega), h.nul hn]

lemma indexAt_of_holds (h : Holds c s recs) : IndexAt c (size recs) s.mem := by
  refine ⟨h.sig, h.idx, h.fits, fun hpos => ?_⟩
  obtain ⟨n, hn⟩ : ∃ n, size recs = n + 1 := ⟨size recs - 1, by omega⟩
  have hlast := cells_getLast? (0 : UInt8) hpos
  rw [← h.log, hn, slice_succ, List.getLast?_concat] at hlast
  rw [hn]
  exact Option.some.inj hlast

lemma shows_of_sound (hw : s.writable = true) (h : Sound c s.mem) : ∃ recs, Shows c s recs := by
  by_cases hsig : word32 s.mem (sigAddr c) = RAM_DEBUG_HEADER_ID
  · obtain ⟨hle, hnul⟩ := h.resolve_left (not_not.mpr hsig)
    set n := word32 s.mem (latestIdxAddr c) with hn
    obtain ⟨recs, hcells, hfree⟩ := exists_cells (0 : UInt8) (slice s.mem (bufferStart c) n) (by
      rcases Nat.eq_zero_or_pos n with h0 | hpos
      · exact Or.inl (by rw [h0, slice_zero])
      · obtain ⟨k, hk⟩ : ∃ k, n = k + 1 := ⟨n - 1, by omega⟩
        have hk0 := hnul hpos
        rw [hk] at hk0
        exact Or.inr (by rw [hk, slice_succ, List.getLast?_concat]; exact congrArg some hk0))
    have hsize : size recs = n := by
      rw [← cells_length (0 : UInt8), hcells, slice_length]
    exact ⟨recs, Or.inr ⟨hw, hsig, by rw [hsize], by rw [hsize, hcells], by rw [hsize]; exact hle,
      hfree⟩⟩
  · exact ⟨[], Or.inl ⟨rfl, hw, hsig⟩⟩

/-! ### One call, cut anywhere -/

lemma atEveryCut_reads {I : (ℕ → UInt8) → Prop} {l : List Access} (hl : ∀ x ∈ l, isWrite x = false)
    (hm : I m) : AtEveryCut effect I m l :=
  atEveryCut_of_preserves (fun x hx m' h => by rwa [effect_of_read (hl x hx)]) (fun _ h => h) hm

lemma fill_keeps_index {n addr k : ℕ} {x : Access} (hx : Fills addr k x)
    (ha : bufferStart c + n ≤ addr) (h : IndexAt c n m) : IndexAt c n (effect m x) := by
  obtain ⟨i, -, rfl⟩ := hx
  exact h.put (by omega) _

lemma store_keeps_index {n addr k : ℕ} {x : Access} (hx : Stores addr k x)
    (ha : bufferStart c + n ≤ addr) (h : IndexAt c n m) : IndexAt c n (effect m x) := by
  obtain ⟨i, -, v, rfl⟩ := hx
  exact h.put (by omega) _

/-- The header behind the write of the signature, and behind that of the index. -/
lemma signature_written (m : ℕ → UInt8) :
    word32 (blit m (sigAddr c) (le32 RAM_DEBUG_HEADER_ID)) (sigAddr c) = RAM_DEBUG_HEADER_ID ∧
    (IndexOk c (blit m (sigAddr c) (le32 RAM_DEBUG_HEADER_ID)) ↔ IndexOk c m) := by
  have hstart : bufferStart c = sigAddr c + 16 := rfl
  have hidx : latestIdxAddr c = sigAddr c + 4 := rfl
  have h4 : (le32 RAM_DEBUG_HEADER_ID).length = 4 := rfl
  refine ⟨word32_le32 _ _ (by decide), ?_⟩
  unfold IndexOk
  rw [word32_blit_out _ (by omega), blit_out _ (by omega)]

/-- Reading the index is safe to cut if the index was already sound when the signature was
missing: the signature is written before it. -/
lemma latest_cuts (hc : Configured c) (h : Shows c s recs) {fuel : ℕ} (hf : bufferSize c ≤ fuel) :
    ∃ s₁ l, ramDebugGetLatestIndex c fuel s = some (.ok (size recs), s₁) ∧ Holds c s₁ recs ∧
      Did s l s₁ ∧ (∀ x ∈ l, Inside c x) ∧
      (AtEveryCut effect (Sound c) s.mem l ↔ IndexOk c s.mem) := by
  obtain ⟨s₁, hlatest, h₁, -⟩ := h.latest hc 0 0 hf
  obtain ⟨hinSig, hinIdx⟩ := header_inside hc
  rcases h with ⟨rfl, hw, hsig⟩ | h
  · obtain ⟨l, hl, hfill⟩ := did_latest_fresh hc hw hsig hlatest
    refine ⟨s₁, _, hlatest, h₁, hl, ?_, ?_⟩
    · intro x hx
      simp only [List.mem_append, List.mem_cons, List.not_mem_nil, or_false] at hx
      rcases hx with ((rfl | rfl | rfl | rfl) | hx) | rfl
      · exact hinSig
      · exact hinSig
      · exact hinSig
      · exact hinIdx
      · exact Fills.inside hc 0 (by omega) (hfill x hx)
      · exact hinIdx
    · obtain ⟨hsig₁, hidx₁⟩ := signature_written (c := c) s.mem
      set m₁ := blit s.mem (sigAddr c) (le32 RAM_DEBUG_HEADER_ID)
      have hsound₁ : Sound c m₁ ↔ IndexOk c s.mem := by
        rw [Sound, hidx₁]
        exact or_iff_right (not_not.mpr hsig₁)
      have hzero : IndexAt c 0 (blit m₁ (latestIdxAddr c) (le32 0)) := by
        have hadj : latestIdxAddr c = sigAddr c + 4 := rfl
        refine ⟨?_, word32_le32 _ _ (by decide), Nat.zero_le _, by omega⟩
        rw [word32_blit_out _ (by omega), hsig₁]
      have hrest : AtEveryCut effect (Sound c) (blit m₁ (latestIdxAddr c) (le32 0))
          (l ++ [.rd32 (latestIdxAddr c)]) := by
        refine atEveryCut_of_preserves (J := IndexAt c 0) (fun x hx m h => ?_)
          (fun _ => IndexAt.sound) hzero
        rcases List.mem_append.mp hx with hx | hx
        · exact fill_keeps_index (hfill x hx) le_rfl h
        · rw [List.mem_singleton.mp hx]
          exact h
      rw [List.append_assoc]
      simp only [List.cons_append, List.nil_append, atEveryCut_cons]
      constructor
      · exact fun h => hsound₁.mp h.2.2.1
      · exact fun h => ⟨Or.inl hsig, Or.inl hsig, hsound₁.mpr h, hsound₁.mpr h, hrest⟩
  · obtain ⟨s₂, hlatest', -, hl⟩ := did_latest_holds hc h fuel
    obtain rfl : s₁ = s₂ := by
      rw [hlatest] at hlatest'
      exact (Prod.ext_iff.mp (Option.some.inj hlatest')).2
    have hindex := indexAt_of_holds h
    refine ⟨s₁, _, hlatest, h₁, hl, ?_, iff_of_true ?_ hindex.indexOk⟩
    · intro x hx
      simp only [List.mem_cons, List.not_mem_nil, or_false] at hx
      rcases hx with rfl | rfl
      · exact hinSig
      · exact hinIdx
    · refine atEveryCut_reads (fun x hx => ?_) hindex.sound
      simp only [List.mem_cons, List.not_mem_nil, or_false] at hx
      rcases hx with rfl | rfl <;> rfl

lemma append_did (hc : Configured c) (buffer : ℕ → UInt8) {n k : ℕ} (hw : s.writable = true)
    (hfits : n + k ≤ bufferSize c) :
    ∃ l, Did s (l ++ [.wr32 (latestIdxAddr c) (n + k)])
        (mmioWrite32 (copyRecord buffer k (bufferStart c + n) 0 s) (latestIdxAddr c) (n + k)) ∧
      (∀ a ∈ l, Stores (bufferStart c + n) k a) ∧
      ∀ a ∈ l ++ [.wr32 (latestIdxAddr c) (n + k)], Inside c a := by
  obtain ⟨l, hl, hstore⟩ := did_copyRecord buffer k (bufferStart c + n) 0 hw
  refine ⟨l, hl.append (did_write32 hl.writable _ _), hstore, fun a ha => ?_⟩
  rcases List.mem_append.mp ha with ha | ha
  · exact Stores.inside hc hfits (hstore a ha)
  · rw [List.mem_singleton.mp ha]
    exact (header_inside hc).2

/-- Storing the record and then the index is safe to cut. -/
lemma append_cuts (hc : Configured c) {x : Call} (hx : CallOk c x) (hw : s.writable = true)
    (hindex : IndexAt c (size recs) s.mem)
    (hlog : slice s.mem (bufferStart c) (size recs) = cells 0 recs)
    (hnul : ∀ r ∈ recs, (0 : UInt8) ∉ r) (hfits : size recs + (x.size + 1) ≤ bufferSize c) :
    let s' := mmioWrite32 (copyRecord x.buffer (x.size + 1) (bufferStart c + size recs) 0 s)
      (latestIdxAddr c) (size recs + (x.size + 1))
    Holds c s' (recs ++ [x.msg]) ∧ ∃ l, Did s l s' ∧ (∀ a ∈ l, Inside c a) ∧
      AtEveryCut effect (Sound c) s.mem l := by
  intro s'
  have hafter := (append_spec 0 0 hc hx hw hindex.sig hlog hnul hfits).1
  obtain ⟨l, hall, hstore, hin⟩ := append_did hc x.buffer hw hfits
  have hkeep : ∀ a ∈ l, ∀ m, IndexAt c (size recs) m → IndexAt c (size recs) (effect m a) :=
    fun a ha _ h => store_keeps_index (hstore a ha) le_rfl h
  have hend : effect (l.foldl effect s.mem) (.wr32 (latestIdxAddr c) (size recs + (x.size + 1))) =
      s'.mem := by
    rw [hall.mem, List.foldl_append]
    rfl
  refine ⟨hafter, _, hall, hin, atEveryCut_append.mpr
    ⟨atEveryCut_of_preserves hkeep (fun _ => IndexAt.sound) hindex, ?_⟩⟩
  rw [atEveryCut_cons, atEveryCut_nil, hend]
  exact ⟨(foldl_preserves hkeep hindex).sound, (indexAt_of_holds hafter).sound⟩

/-- While records are removed, the index still counts the bytes they took. -/
lemma cleanUp_cut (hc : Region c) (h : Holds c s recs) {need fuel : ℕ}
    (hneed : need ≤ bufferSize c) (hfull : bufferSize c < size recs + need)
    (hf : bufferSize c ≤ fuel) {n : ℕ}
    (hclean : ramDebugCleanUp c fuel need (size recs) s = some (n, s')) : ¬Sound c s'.mem := by
  obtain ⟨s₁, hs₁, hW⟩ := cleanUp_spec hc h need hneed hf
  obtain rfl : s₁ = s' := by
    rw [hclean] at hs₁
    exact (Prod.ext_iff.mp (Option.some.inj hs₁)).2.symm
  have hfits := makeRoom_fits need hneed recs
  set rest := makeRoom (bufferSize c) need recs
  have hstart : bufferStart c = latestIdxAddr c + 12 := rfl
  have hidx : word32 s₁.mem (latestIdxAddr c) = size recs := by
    rw [hW.mem, word32_blit_out _ (by omega), h.idx]
  have hsig : word32 s₁.mem (sigAddr c) = RAM_DEBUG_HEADER_ID := (hW.sig le_rfl).trans h.sig
  have hle := h.fits
  -- the last byte before the index is one of those filled
  have hbyte : s₁.mem (bufferStart c + size recs - 1) = DEBUG_PRINT_BUFFER_DFT_VALUE := by
    have hk : size recs - 1 < (cells 0 rest ++ List.replicate (bufferSize c - size rest)
        DEBUG_PRINT_BUFFER_DFT_VALUE).length := by simp; omega
    rw [hW.mem, show bufferStart c + size recs - 1 = bufferStart c + (size recs - 1) by omega,
      blit_in _ _ hk, List.getElem_append_right (by rw [cells_length]; omega),
      List.getElem_replicate]
  rintro (hno | ⟨-, hnul⟩)
  · exact hno hsig
  · rw [hidx, hbyte] at hnul
    exact absurd (hnul (by omega)) (by decide)

/-- **One call**: it ends and stays inside the region, and it is safe to cut just when the index
was sound and the record had room. -/
lemma print_cuts (hc : Region c) (h : Shows c s recs) {x : Call} (hx : CallOk c x)
    (hflag : x.cmosFlag ≠ RAM_DEBUG_DISABLE) {fuel : ℕ} (hf : bufferSize c ≤ fuel) :
    ∃ s' l, x.print c fuel s = some s' ∧ Holds c s' (push (bufferSize c) recs x.msg) ∧
      Did s l s' ∧ (∀ a ∈ l, Inside c a) ∧ (AtEveryCut effect (Sound c) s.mem l ↔
        IndexOk c s.mem ∧ size recs + (x.size + 1) ≤ bufferSize c) := by
  obtain ⟨s₁, l₁, hlatest, h₁, hdid₁, hin₁, hcut₁⟩ := latest_cuts hc.toConfigured h hf
  have hneed : x.msg.length + 1 = x.size + 1 := by rw [Call.msg_length]
  rw [push, hneed]
  by_cases hroom : size recs + (x.size + 1) ≤ bufferSize c
  · obtain ⟨hafter, l₂, hdid₂, hin₂, hcut₂⟩ := append_cuts hc.toConfigured hx h₁.writable
      (indexAt_of_holds h₁) h₁.log h₁.nulFree hroom
    rw [makeRoom_of_fits hroom]
    refine ⟨_, l₁ ++ l₂, print_of_room hc.toConfigured hx hflag hlatest hroom, hafter,
      hdid₁.append hdid₂, fun a ha => (List.mem_append.mp ha).elim (hin₁ a) (hin₂ a), ?_⟩
    rw [atEveryCut_append, hcut₁, ← hdid₁.mem]
    exact ⟨fun hcut => ⟨hcut.1, hroom⟩, fun hok => ⟨hok.1, hcut₂⟩⟩
  · have hlt : x.size + 1 ≤ bufferSize c := hx.lt
    obtain ⟨s₂, hs₂, hW₂⟩ := cleanUp_spec hc h₁ (x.size + 1) hlt hf
    have hbad := cleanUp_cut hc h₁ hlt (by omega) hf hs₂
    obtain ⟨l₂, hdid₂, hin₂⟩ := did_cleanUp hc h₁ hlt hf hs₂
    have hfits := makeRoom_fits (x.size + 1) hlt recs
    obtain ⟨dropped, hp⟩ := makeRoom_suffix (bufferSize c) (x.size + 1) recs
    set rest := makeRoom (bufferSize c) (x.size + 1) recs
    have hafter := (append_spec 0 0 hc.toConfigured hx hW₂.writable
      (by rw [hW₂.sig le_rfl, h₁.sig]) hW₂.kept
      (fun r hr => h₁.nulFree r (by rw [← hp]; exact List.mem_append_right _ hr)) hfits).1
    obtain ⟨l₃, hdid₃, -, hin₃⟩ := append_did hc.toConfigured x.buffer hW₂.writable hfits
    refine ⟨_, l₁ ++ (l₂ ++ _), print_of_full hc hx hflag h₁.fits hlatest (by omega) hs₂ hfits,
      hafter, hdid₁.append (hdid₂.append hdid₃), fun a ha => ?_, ?_⟩
    · rcases List.mem_append.mp ha with ha | ha
      · exact hin₁ a ha
      · exact (List.mem_append.mp ha).elim (hin₂ a) (hin₃ a)
    · refine iff_of_false (fun hcut => hbad ?_) (fun hok => hroom hok.2)
      have hcut₂ := (atEveryCut_append.mp (atEveryCut_append.mp hcut).2).1.all
      rwa [← hdid₁.mem, ← hdid₂.mem] at hcut₂

/-! ### Runs of calls -/

/-- The bytes that the records of the enabled calls take. -/
def space (calls : List Call) : ℕ :=
  ((calls.filter fun x => x.cmosFlag ≠ RAM_DEBUG_DISABLE).map fun x => x.size + 1).sum

def AllDisabled (calls : List Call) : Prop := ∀ x ∈ calls, x.cmosFlag = RAM_DEBUG_DISABLE

lemma space_of_disabled {calls : List Call} (h : AllDisabled calls) : space calls = 0 := by
  have hnil : calls.filter (fun x => x.cmosFlag ≠ RAM_DEBUG_DISABLE) = [] :=
    List.filter_eq_nil_iff.mpr fun x hx => by simpa using h x hx
  rw [space, hnil]
  rfl

lemma Shows.sound (h : Shows c s recs) : Sound c s.mem := by
  rcases h with ⟨-, -, hsig⟩ | h
  · exact Or.inl hsig
  · exact (indexAt_of_holds h).sound

lemma Shows.writable (h : Shows c s recs) : s.writable = true := by
  rcases h with ⟨-, hw, -⟩ | h
  · exact hw
  · exact h.writable

/-- **A run of calls**: it ends and stays inside the region, and it is safe to cut just when no
record is removed and the index was sound before the signature was written. -/
theorem run_cuts (hc : Region c) {fuel : ℕ} (hf : bufferSize c ≤ fuel) {calls : List Call}
    (h : Shows c s recs) (hcalls : ∀ x ∈ calls, CallOk c x) :
    ∃ s' l, run (fun s x => Call.print c fuel s x) s calls = some s' ∧ Did s l s' ∧
      (∀ a ∈ l, Inside c a) ∧ (AtEveryCut effect (Sound c) s.mem l ↔ AllDisabled calls ∨
        IndexOk c s.mem ∧ size recs + space calls ≤ bufferSize c) := by
  induction calls generalizing s recs with
  | nil =>
    refine ⟨s, [], rfl, .nil (Shows.writable h), by simp, ?_⟩
    exact iff_of_true (atEveryCut_nil.mpr (Shows.sound h)) (Or.inl (by simp [AllDisabled]))
  | cons x calls ih =>
    have hx := hcalls x (by simp)
    have hrest : ∀ y ∈ calls, CallOk c y := fun y hy => hcalls y (by simp [hy])
    by_cases hflag : x.cmosFlag = RAM_DEBUG_DISABLE
    · have hskip : x.print c fuel s = some s := by simp [Call.print, ramDebugPrint, hflag]
      obtain ⟨s', l, hrun, hdid, hin, hcut⟩ := ih h hrest
      refine ⟨s', l, by rw [run_cons hskip, hrun], hdid, hin, hcut.trans ?_⟩
      have hspace : space (x :: calls) = space calls := by simp [space, hflag]
      have hall : AllDisabled (x :: calls) ↔ AllDisabled calls := by simp [AllDisabled, hflag]
      rw [hspace, hall]
    · obtain ⟨s₁, l₁, hprint, h₁, hdid₁, hin₁, hcut₁⟩ := print_cuts hc h hx hflag hf
      obtain ⟨s', l, hrun, hdid, hin, hcut⟩ := ih (Or.inr h₁) hrest
      refine ⟨s', l₁ ++ l, by rw [run_cons hprint, hrun], hdid₁.append hdid,
        fun a ha => (List.mem_append.mp ha).elim (hin₁ a) (hin a), ?_⟩
      have hspace : space (x :: calls) = x.size + 1 + space calls := by simp [space, hflag]
      have hall : ¬AllDisabled (x :: calls) := fun hd => hflag (hd x (by simp))
      have hindex := (indexAt_of_holds h₁).indexOk
      rw [atEveryCut_append, hcut₁, ← hdid₁.mem, hcut, hspace, or_iff_right hall]
      have hpush : size recs + (x.size + 1) ≤ bufferSize c →
          size (push (bufferSize c) recs x.msg) = size recs + (x.size + 1) := fun hroom => by
        rw [push, Call.msg_length, makeRoom_of_fits hroom, size_append, size_cons, size_nil,
          Call.msg_length, Nat.add_zero]
      constructor
      · rintro ⟨⟨hok, hroom⟩, hd | ⟨-, hle⟩⟩
        · rw [space_of_disabled hd]
          exact ⟨hok, by omega⟩
        · rw [hpush hroom] at hle
          exact ⟨hok, by omega⟩
      · rintro ⟨hok, hle⟩
        exact ⟨⟨hok, by omega⟩, Or.inr ⟨hindex, by rw [hpush (by omega)]; omega⟩⟩

/-! ### The next boot -/

/-- Whatever the next boot prints, it comes to an end and stays inside the region. -/
def NextBoot (c : Config) (fuel : ℕ) (m : ℕ → UInt8) : Prop :=
  ∀ calls, (∀ x ∈ calls, CallOk c x) →
    ∃ s', run (fun s x => Call.print c fuel s x) ⟨m, true, []⟩ calls = some s' ∧
      ∀ a ∈ s'.trace, Inside c a

lemma nextBoot_of_sound (hc : Region c) {fuel : ℕ} (hf : bufferSize c ≤ fuel) (h : Sound c m) :
    NextBoot c fuel m := by
  intro calls hcalls
  obtain ⟨recs, hshow⟩ := shows_of_sound (s := ⟨m, true, []⟩) rfl h
  obtain ⟨s', l, hrun, hdid, hin, -⟩ := run_cuts hc hf hshow hcalls
  refine ⟨s', hrun, fun a ha => hin a ?_⟩
  rwa [hdid.trace] at ha

/-- A string of `n` times the same letter. -/
def letters (n : ℕ) : Call := ⟨0, fun i => if i < n then 0x41 else 0, n⟩

lemma letters_enabled (n : ℕ) : (letters n).cmosFlag ≠ RAM_DEBUG_DISABLE :=
  show (0 : UInt8) ≠ 0x5A by decide

lemma letters_ok {n : ℕ} (h : n < bufferSize c) : CallOk c (letters n) :=
  ⟨h, if_neg (lt_irrefl n), fun i hi => by simp [letters, show i < n from hi]⟩

/-- A record stored behind a full log of more than 2 GiB: the sum of the two sizes overflows. -/
lemma full_overruns (hc : Configured c) (hbig : 2 ^ 31 ≤ bufferSize c) (h : Holds c s recs)
    (hfull : size recs = bufferSize c) (fuel : ℕ) :
    ∃ s', (letters (bufferSize c - 1)).print c fuel s = some s' ∧ ∃ a ∈ s'.trace, ¬Inside c a := by
  have hN := bufferSize_eq hc
  have hsz := hc.size_lt_word
  obtain ⟨s₁, hlatest, h₁, -⟩ := getLatestIndex_holds hc h 0 0 fuel
  obtain ⟨n, hn⟩ : ∃ n, bufferSize c = n + 1 := ⟨bufferSize c - 1, by omega⟩
  have htemp : u32 (u32 n + 1) = n + 1 := u32_succ (by omega)
  have hwrap : u32 (n + 1 + (n + 1)) ≤ n + 1 := by
    unfold u32
    omega
  have hprint : (letters n).print c fuel s = some (mmioWrite32
      (copyRecord (letters n).buffer (n + 1) (bufferStart c + (n + 1)) 0 s₁) (latestIdxAddr c)
      (u32 (n + 1 + (n + 1)))) := by
    unfold Call.print ramDebugPrint
    rw [if_neg (letters_enabled n),
      if_neg (show ¬bufferSize c < (letters n).size by simp only [letters]; omega), hlatest, hfull,
      hn]
    simp only [Option.bind_eq_bind, Option.bind_some, letters, htemp]
    rw [if_neg (fun hlt => absurd hlt.1 (not_lt.mpr hwrap))]
    simp only [if_pos hwrap]
  obtain ⟨l, hl, -⟩ := did_copyRecord (letters n).buffer n (bufferStart c + (n + 1) + 1) 1
    (did_write8 h₁.writable (bufferStart c + (n + 1)) ((letters n).buffer 0)).writable
  rw [hn, Nat.add_sub_cancel]
  refine ⟨_, hprint, .wr8 (bufferStart c + (n + 1)) ((letters n).buffer 0), ?_, ?_⟩
  · have htrace := hl.trace
    rw [mmioWrite32, St.note, copyRecord, htrace]
    simp [mmioWrite8, St.note]
  · have hstart : bufferStart c = c.base + 16 := rfl
    unfold Inside
    omega

/-- In so large a region the next boot can leave the region: it fills the log, then overruns it. -/
lemma not_nextBoot_of_big (hc : Configured c) (hbig : 2 ^ 31 ≤ bufferSize c) {fuel : ℕ}
    (hf : bufferSize c ≤ fuel) (h : Sound c m) : ¬NextBoot c fuel m := by
  intro hnext
  have hlast : CallOk c (letters (bufferSize c - 1)) := letters_ok (by omega)
  obtain ⟨recs, hshow⟩ := shows_of_sound (s := ⟨m, true, []⟩) rfl h
  obtain ⟨s₁, hlatest, h₁, -⟩ := hshow.latest hc 0 0 hf
  rcases h₁.fits.lt_or_eq with hlt | hfull
  · set x := letters (bufferSize c - size recs - 1)
    have hx : CallOk c x := letters_ok (by omega)
    have hroom : size recs + (x.size + 1) = bufferSize c := by
      simp only [x, letters]
      omega
    have hprint := print_of_room hc hx (letters_enabled _) hlatest
      hroom.le
    have h₂ := (append_spec 0 0 hc hx h₁.writable h₁.sig h₁.log h₁.nulFree hroom.le).1
    obtain ⟨s₃, hover, a, ha, hout⟩ := full_overruns hc hbig h₂ (by
      rw [size_append, size_cons, size_nil, Call.msg_length, Nat.add_zero, hroom]) fuel
    obtain ⟨s', hrun, hin⟩ := hnext [x, letters (bufferSize c - 1)] (by
      simp only [List.mem_cons, List.not_mem_nil, or_false]
      rintro y (rfl | rfl)
      · exact hx
      · exact hlast)
    rw [run_cons hprint, run_cons hover, run_nil] at hrun
    exact hout (hin a (Option.some.inj hrun ▸ ha))
  · have h₂ : Holds c ⟨m, true, []⟩ recs := by
      refine hshow.resolve_left fun hfresh => ?_
      rw [hfresh.1] at hfull
      simp only [size_nil] at hfull
      omega
    obtain ⟨s₃, hover, a, ha, hout⟩ := full_overruns hc hbig h₂ hfull fuel
    obtain ⟨s', hrun, hin⟩ := hnext [letters (bufferSize c - 1)] (by simpa using hlast)
    rw [run_cons hover, run_nil] at hrun
    exact hout (hin a (Option.some.inj hrun ▸ ha))

/-! ### Surviving a reset -/

/-- Whichever prefix of the calls' writes reaches the memory, it is sound, and so is the next
boot. -/
def SurvivesReset (c : Config) (fuel : ℕ) (s : St) (calls : List Call) : Prop :=
  ∃ s' l, run (fun s x => Call.print c fuel s x) s calls = some s' ∧ s'.trace = s.trace ++ l ∧
    AtEveryCut effect (fun m => Sound c m ∧ NextBoot c fuel m) s.mem (l.filter isWrite)

/-- The bytes of log that the header announces. -/
def logged (c : Config) (m : ℕ → UInt8) : ℕ :=
  if word32 m (sigAddr c) = RAM_DEBUG_HEADER_ID then word32 m (latestIdxAddr c) else 0

lemma Shows.logged (h : Shows c s recs) : logged c s.mem = size recs := by
  rcases h with ⟨rfl, -, hsig⟩ | h
  · exact if_neg hsig
  · exact (if_pos h.sig).trans h.idx

lemma survivesReset_iff_of_region (hc : Region c) {fuel : ℕ} (hf : bufferSize c ≤ fuel)
    (hw : s.writable = true) (hsound : Sound c s.mem) {calls : List Call}
    (hcalls : ∀ x ∈ calls, CallOk c x) :
    SurvivesReset c fuel s calls ↔ AllDisabled calls ∨
      IndexOk c s.mem ∧ logged c s.mem + space calls ≤ bufferSize c := by
  obtain ⟨recs, hshow⟩ := shows_of_sound hw hsound
  obtain ⟨s', l, hrun, hdid, -, hcut⟩ := run_cuts hc hf hshow hcalls
  rw [Shows.logged hshow, ← hcut]
  have hreads : ∀ x ∈ l, isWrite x = false → ∀ m, effect m x = m := fun x _ => effect_of_read
  constructor
  · rintro ⟨s'', l', hrun', htrace, hall⟩
    obtain rfl : s' = s'' := Option.some.inj (hrun.symm.trans hrun')
    obtain rfl : l = l' := List.append_cancel_left (hdid.trace.symm.trans htrace)
    exact fun p hp => ((atEveryCut_filter hreads).mp hall p hp).1
  · intro hall
    refine ⟨s', l, hrun, hdid.trace, (atEveryCut_filter hreads).mpr fun p hp => ?_⟩
    exact ⟨hall p hp, nextBoot_of_sound hc hf (hall p hp)⟩

/-- **A reset leaves a sound log exactly when nothing is stale and nothing is removed**: the log
is at most 2 GiB, and either no call is enabled, or the index word is sound although the
signature may be missing and all records fit behind what is logged. -/
theorem survivesReset_iff (hc : Configured c) {fuel : ℕ} (hf : bufferSize c ≤ fuel)
    (hw : s.writable = true) (hsound : Sound c s.mem) {calls : List Call}
    (hcalls : ∀ x ∈ calls, CallOk c x) :
    SurvivesReset c fuel s calls ↔ bufferSize c < 2 ^ 31 ∧ (AllDisabled calls ∨
      IndexOk c s.mem ∧ logged c s.mem + space calls ≤ bufferSize c) := by
  by_cases hbig : bufferSize c < 2 ^ 31
  · have hN := bufferSize_eq hc
    rw [survivesReset_iff_of_region ⟨hc, by omega⟩ hf hw hsound hcalls]
    exact (and_iff_right hbig).symm
  · refine iff_of_false ?_ fun h => hbig h.1
    rintro ⟨s', l, -, -, hall⟩
    exact not_nextBoot_of_big hc (by omega) hf hsound hall.start.2

/-- A fresh region of zeros, and a record that fits. -/
theorem survivesReset_zeros :
    SurvivesReset ⟨0x1000, 24⟩ 8 ⟨fun _ => 0, true, []⟩ [letters 3] ↔
      bufferSize ⟨0x1000, 24⟩ < 2 ^ 31 ∧ (AllDisabled [letters 3] ∨
        IndexOk ⟨0x1000, 24⟩ (fun _ => 0) ∧
          logged ⟨0x1000, 24⟩ (fun _ => 0) + space [letters 3] ≤ bufferSize ⟨0x1000, 24⟩) :=
  survivesReset_iff ⟨by decide, by decide, by decide, by decide⟩ (by decide) rfl
    (Or.inl (by decide)) (by
      rintro x hx
      rw [List.mem_singleton.mp hx]
      exact letters_ok (by decide))

/-- Stale memory: between the write of the signature and that of the index, the index is what was
left there. -/
theorem stale_index_exposed :
    Sound ⟨0x1000, 24⟩ (fun _ => 0xFF) ∧ CallOk ⟨0x1000, 24⟩ (letters 1) ∧
      ¬SurvivesReset ⟨0x1000, 24⟩ 8 ⟨fun _ => 0xFF, true, []⟩ [letters 1] := by
  have hok : CallOk ⟨0x1000, 24⟩ (letters 1) := letters_ok (by decide)
  have hsound : Sound ⟨0x1000, 24⟩ (fun _ => 0xFF) := Or.inl (by decide)
  refine ⟨hsound, hok, fun h => ?_⟩
  have hc : Region ⟨0x1000, 24⟩ := ⟨⟨by decide, by decide, by decide, by decide⟩, by decide⟩
  rcases (survivesReset_iff_of_region hc (by decide) rfl hsound (by simpa using hok)).mp h with
    hd | ⟨⟨hle, -⟩, -⟩
  · exact absurd (hd (letters 1) (by simp)) (by decide)
  · exact absurd hle (by decide)

end UefiToolkit.RamReset
