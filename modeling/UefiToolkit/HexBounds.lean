import UefiToolkit.HexAccept

/-!
What a run over an arbitrary text touches.

The byte count and the address of a line are taken from the text as they are; neither is held
against the line buffer or against the size of the output.
-/

namespace UefiToolkit.HexBounds

open UefiToolkit.Word UefiToolkit.Mem UefiToolkit.HexModel UefiToolkit.HexRecord
open UefiToolkit.HexRun UefiToolkit.HexAccept

/-! ### The lines a run comes to -/

/-- What the program goes by in a line. -/
structure Header where
  count : UInt8
  addr : ℕ
  type : UInt8

def header (m : ℕ → UInt8) : Header :=
  ⟨intelHexGetByte m 1, intelHexGetWord m 3, intelHexGetByte m 7⟩

def Header.IsData (x : Header) : Prop := x.count ≠ 0 ∧ x.type = RECORD_DATA

/-- A data record with more digits than the line buffer has room for, or with bytes behind the
end of an output of `n` bytes. -/
def Header.Escapes (n : ℕ) (x : Header) : Prop :=
  x.IsData ∧ (MAX_LINE_LENGTH < 9 + 2 * x.count.toNat + 2 ∨ n < x.addr + x.count.toNat)

/-- The run comes to a line with such a header: no line before it is too long, has a byte count
of zero, or is of a type that is not known. -/
inductive Meets (P : Header → Prop) : List UInt8 → Prop
  | here {text : List UInt8} : text ≠ [] → lineLength text ≤ MAX_LINE_LENGTH →
      P (header (firstLine text)) → Meets P text
  | next {text : List UInt8} : text ≠ [] → lineLength text ≤ MAX_LINE_LENGTH →
      (header (firstLine text)).count ≠ 0 → Known (header (firstLine text)).type →
      Meets P (text.drop (lineLength text)) → Meets P text

lemma header_lineCells (line : ℕ → UInt8) (text : List UInt8) :
    header (lineCells line (text.take (lineLength text))) = header (firstLine text) := by
  unfold header firstLine
  rw [intelHexGetWord_eq, intelHexGetWord_eq, getByte_lineCells line _ (by decide),
    getByte_lineCells line _ (by decide), getByte_lineCells line _ (by decide),
    getByte_lineCells line _ (by decide)]

/-- The run comes to a line that is too long for the line buffer. -/
inductive TooLong : List UInt8 → Prop
  | here {text : List UInt8} : MAX_LINE_LENGTH < lineLength text → TooLong text
  | next {text : List UInt8} : text ≠ [] → lineLength text ≤ MAX_LINE_LENGTH →
      (header (firstLine text)).count ≠ 0 → Known (header (firstLine text)).type →
      TooLong (text.drop (lineLength text)) → TooLong text

/-! ### Rules for the loop -/

/-- The variables after a round. -/
def Outcome.hex : Outcome → Hex
  | .more h => h
  | .leave h => h
  | .fail _ h => h

/-- What copying a line in, every round and freeing keep holds after the loop. -/
lemma lineLoop_inv {I : Hex → Prop} (hfree : ∀ h, I h → I (freeBoth h))
    (hline : ∀ h cs, cs.length ≤ MAX_LINE_LENGTH → I h → I { h with line := lineCells h.line cs })
    (hstep : ∀ h, I h → I (Outcome.hex (processLine h))) {text : List UInt8} {h : Hex}
    (hI : I h) : I (lineLoop text h).2 := by
  induction hn : text.length using Nat.strongRecOn generalizing text h with
  | ind n ih =>
    rcases lineLoop_cases text h with ⟨-, hrun⟩ | ⟨-, -, hrun⟩ | ⟨-, hfit, hlen, hshort, hrun⟩
    · rw [hrun]
      exact hI
    · rw [hrun]
      exact hfree h hI
    have hround := hstep _ (hline h _ (hlen.trans_le hfit) hI)
    rw [hrun]
    cases hp : processLine { h with line := lineCells h.line (text.take (lineLength text)) } with
    | more h' =>
      rw [hp] at hround
      exact ih _ (hn ▸ hshort) hround rfl
    | leave h' =>
      rw [hp] at hround
      exact hround
    | fail status h' =>
      rw [hp] at hround
      exact hround

/-- A fact that a round brings about exactly for some headers holds after the loop if it held
before, or the run comes to such a header. -/
lemma lineLoop_meets {Q : Hex → Prop} {P : Header → Prop} (hfree : ∀ h, Q (freeBoth h) ↔ Q h)
    (hline : ∀ (h : Hex) (m : ℕ → UInt8), Q { h with line := m } ↔ Q h)
    (hstep : ∀ h, Q (Outcome.hex (processLine h)) ↔ Q h ∨ P (header h.line))
    (text : List UInt8) (h : Hex) : Q (lineLoop text h).2 ↔ Q h ∨ Meets P text := by
  induction hn : text.length using Nat.strongRecOn generalizing text h with
  | ind n ih =>
    rcases lineLoop_cases text h with ⟨hnil, hrun⟩ | ⟨-, hlong, hrun⟩ |
      ⟨hne, hfit, -, hshort, hrun⟩
    · rw [hrun, or_iff_left]
      intro hm
      cases hm with
      | here hne => exact hne hnil
      | next hne => exact hne hnil
    · rw [hrun, hfree, or_iff_left]
      intro hm
      cases hm with
      | here _ hfit => omega
      | next _ hfit => omega
    have hround := hstep { h with line := lineCells h.line (text.take (lineLength text)) }
    rw [hline h, header_lineCells] at hround
    have hhead := header_lineCells h.line text
    rw [hrun]
    rcases processLine_cases { h with line := lineCells h.line (text.take (lineLength text)) }
      with ⟨h0, h', hp⟩ | ⟨h0, hk, h', hp⟩ | ⟨h0, hk, h', hp⟩
    · rw [hp] at hround ⊢
      refine hround.trans (or_congr_right ⟨Meets.here hne hfit, fun hm => ?_⟩)
      cases hm with
      | here _ _ hP => exact hP
      | next _ _ hc => exact absurd ((congrArg Header.count hhead).symm.trans h0) hc
    · rw [hp] at hround ⊢
      refine (ih _ (hn ▸ hshort) _ h' rfl).trans ((or_congr_left hround).trans ?_)
      rw [or_assoc]
      refine or_congr_right ⟨?_, fun hm => ?_⟩
      · rintro (hP | hm)
        · exact .here hne hfit hP
        · exact .next hne hfit (hhead ▸ h0) (hhead ▸ hk) hm
      · cases hm with
        | here _ _ hP => exact Or.inl hP
        | next _ _ _ _ hm => exact Or.inr hm
    · rw [hp] at hround ⊢
      refine hround.trans (or_congr_right ⟨Meets.here hne hfit, fun hm => ?_⟩)
      cases hm with
      | here _ _ hP => exact hP
      | next _ _ _ hknown =>
        rw [← hhead] at hknown
        exact absurd hknown hk

/-! ### What a round touches -/

lemma dataLoop_reads (line : ℕ → UInt8) (n : ℕ) (x : Data) :
    (dataLoop line n x).ptrLine = x.ptrLine + 2 * n ∧
      (dataLoop line n x).reads = x.reads ++ List.range' x.ptrLine (2 * n) := by
  induction n generalizing x with
  | zero => exact ⟨rfl, (List.append_nil _).symm⟩
  | succ n ih =>
    obtain ⟨hptr, hreads⟩ := ih (dataByte line x)
    refine ⟨?_, ?_⟩
    · rw [dataLoop, hptr, dataByte]
      dsimp only
      omega
    · rw [dataLoop, hreads, dataByte, List.append_assoc]
      rfl

lemma mem_storesAt {a : ℕ} {bs : List UInt8} {s : ℕ × UInt8} (h : s ∈ storesAt a bs) :
    a ≤ s.1 ∧ s.1 < a + bs.length := by
  induction bs generalizing a with
  | nil => simp [storesAt] at h
  | cons b bs ih =>
    rw [List.length_cons]
    rcases List.mem_cons.mp h with rfl | h
    · dsimp only
      omega
    · have := ih h
      omega

/-- The last store is right before the end. -/
lemma storesAt_last {a : ℕ} {bs : List UInt8} (h : bs ≠ []) :
    ∃ s ∈ storesAt a bs, s.1 + 1 = a + bs.length := by
  induction bs generalizing a with
  | nil => exact absurd rfl h
  | cons b bs ih =>
    by_cases hbs : bs = []
    · subst hbs
      exact ⟨(a, b), by simp [storesAt], rfl⟩
    · obtain ⟨s, hs, hend⟩ := ih (a := a + 1) hbs
      refine ⟨s, by simp [storesAt, hs], ?_⟩
      rw [hend, List.length_cons]
      omega

lemma reads_range (n : ℕ) : [0, 1, 2] ++ [3, 4, 5, 6, 7, 8] ++ List.range' 9 (2 * n) ++
    [9 + 2 * n, 9 + 2 * n + 1] = List.range (9 + 2 * n + 2) := by
  have hnine : ([0, 1, 2] : List ℕ) ++ [3, 4, 5, 6, 7, 8] = List.range' 0 9 := by decide
  have hdata : List.range' 0 9 ++ List.range' (0 + 9) (2 * n) = List.range' 0 (9 + 2 * n) :=
    List.range'_append_1
  have htail : List.range' 0 (9 + 2 * n) ++ List.range' (0 + (9 + 2 * n)) 2 =
      List.range' 0 (9 + 2 * n + 2) := List.range'_append_1
  rw [Nat.zero_add] at hdata htail
  rw [hnine, hdata, List.range_eq_range', ← htail]
  rfl

/-- What the program has done to its output and read of its line buffer after a round. -/
lemma processLine_touches (h : Hex) :
    ((header h.line).IsData ∧
      (Outcome.hex (processLine h)).reads = h.reads ++ List.range
        (9 + 2 * (header h.line).count.toNat + 2) ∧
      (Outcome.hex (processLine h)).stores = h.stores ++ storesAt (header h.line).addr
        (bytesAt h.line 9 (header h.line).count.toNat) ∧
      (Outcome.hex (processLine h)).buffer = blit h.buffer (header h.line).addr
        (bytesAt h.line 9 (header h.line).count.toNat) ∧
      (Outcome.hex (processLine h)).binLength =
        some ((header h.line).addr + (header h.line).count.toNat)) ∨
    (¬ (header h.line).IsData ∧
      (∃ k, k ≤ 9 ∧ (Outcome.hex (processLine h)).reads = h.reads ++ List.range k) ∧
      outOf (Outcome.hex (processLine h)) = outOf h) := by
  unfold processLine header
  dsimp only
  by_cases hcount : intelHexGetByte h.line 1 = 0
  · rw [if_pos hcount]
    exact Or.inr ⟨fun hd => hd.1 hcount, ⟨3, by omega, rfl⟩, rfl⟩
  rw [if_neg hcount]
  by_cases hd : intelHexGetByte h.line 7 = RECORD_DATA
  · rw [if_pos hd]
    refine Or.inl ⟨⟨hcount, hd⟩, ?_⟩
    obtain ⟨hlen, hbuf, hst⟩ := dataLoop_spec h.line (intelHexGetByte h.line 1).toNat
      ⟨9, intelHexGetWord h.line 3, (intelHexGetByte h.line 1).toNat +
        (intelHexGetByte h.line 3).toNat + (intelHexGetByte h.line 5).toNat +
        (intelHexGetByte h.line 7).toNat, h.buffer, h.stores,
        h.reads ++ [0, 1, 2] ++ [3, 4, 5, 6, 7, 8]⟩
    obtain ⟨hptr, hreads⟩ := dataLoop_reads h.line (intelHexGetByte h.line 1).toNat
      ⟨9, intelHexGetWord h.line 3, (intelHexGetByte h.line 1).toNat +
        (intelHexGetByte h.line 3).toNat + (intelHexGetByte h.line 5).toNat +
        (intelHexGetByte h.line 7).toNat, h.buffer, h.stores,
        h.reads ++ [0, 1, 2] ++ [3, 4, 5, 6, 7, 8]⟩
    simp only [Outcome.hex]
    refine ⟨?_, hst, hbuf, by rw [hlen]⟩
    rw [hreads, hptr, ← reads_range]
    simp only [List.append_assoc]
  · rw [if_neg hd]
    refine Or.inr ⟨fun h' => hd h'.2, ⟨9, le_rfl, ?_⟩, ?_⟩
    · split_ifs <;> simp [Outcome.hex] <;> rfl
    · split_ifs <;> rfl

lemma processLine_line (h : Hex) : (Outcome.hex (processLine h)).line = h.line := by
  unfold processLine
  dsimp only
  split_ifs <;> rfl

/-- A cell behind the line buffer was read, or one behind `n` bytes of output was written. -/
def Outside (n : ℕ) (h : Hex) : Prop :=
  (∃ a ∈ h.reads, MAX_LINE_LENGTH ≤ a) ∨ ∃ s ∈ h.stores, n ≤ s.1

lemma processLine_outside (n : ℕ) (h : Hex) : Outside n (Outcome.hex (processLine h)) ↔
    Outside n h ∨ (header h.line).Escapes n := by
  unfold Outside
  rcases processLine_touches h with ⟨hd, hreads, hstores, -, -⟩ | ⟨hd, ⟨k, hk, hreads⟩, hout⟩
  · have hlen := bytesAt_length h.line 9 (header h.line).count.toNat
    have hne : bytesAt h.line 9 (header h.line).count.toNat ≠ [] := fun h0 => by
      rw [h0, List.length_nil] at hlen
      exact hd.1 (UInt8.toNat_inj.mp hlen.symm)
    rw [hreads, hstores]
    constructor
    · rintro (⟨a, ha, hout⟩ | ⟨s, hs, hout⟩)
      · rcases List.mem_append.mp ha with ha | ha
        · exact Or.inl (Or.inl ⟨a, ha, hout⟩)
        · exact Or.inr ⟨hd, Or.inl (lt_of_le_of_lt hout (List.mem_range.mp ha))⟩
      · rcases List.mem_append.mp hs with hs | hs
        · exact Or.inl (Or.inr ⟨s, hs, hout⟩)
        · have := mem_storesAt hs
          exact Or.inr ⟨hd, Or.inr (by omega)⟩
    · rintro ((⟨a, ha, hout⟩ | ⟨s, hs, hout⟩) | ⟨-, hlong | hhigh⟩)
      · exact Or.inl ⟨a, List.mem_append_left _ ha, hout⟩
      · exact Or.inr ⟨s, List.mem_append_left _ hs, hout⟩
      · exact Or.inl ⟨MAX_LINE_LENGTH, List.mem_append_right _ (List.mem_range.mpr hlong), le_rfl⟩
      · obtain ⟨s, hs, hend⟩ := storesAt_last (a := (header h.line).addr) hne
        exact Or.inr ⟨s, List.mem_append_right _ hs, by omega⟩
  · have hstores : (Outcome.hex (processLine h)).stores = h.stores := congrArg Out.stores hout
    rw [hreads, hstores, or_iff_left fun he : (header h.line).Escapes n => hd he.1]
    refine or_congr_left ⟨?_, ?_⟩
    · rintro ⟨a, ha, hout⟩
      rcases List.mem_append.mp ha with ha | ha
      · exact ⟨a, ha, hout⟩
      · have := List.mem_range.mp ha
        rw [MAX_LINE_LENGTH] at hout
        omega
    · rintro ⟨a, ha, hout⟩
      exact ⟨a, List.mem_append_left _ ha, hout⟩

lemma processLine_assigned (h : Hex) : (Outcome.hex (processLine h)).binLength ≠ none ↔
    h.binLength ≠ none ∨ (header h.line).IsData := by
  rcases processLine_touches h with ⟨hd, -, -, -, hlen⟩ | ⟨hd, -, hout⟩
  · rw [hlen]
    exact iff_of_true (Option.some_ne_none _) (Or.inr hd)
  · have hlen : (Outcome.hex (processLine h)).binLength = h.binLength :=
      congrArg Out.binLength hout
    rw [hlen, or_iff_left hd]

/-- The output is what the stores have made of `m`, and its end is right behind a store. -/
structure Written (m : ℕ → UInt8) (h : Hex) : Prop where
  buffer : h.buffer = h.stores.foldl (fun m x => put m x.1 x.2) m
  last : ∀ size, h.binLength = some size → ∃ s ∈ h.stores, s.1 + 1 = size

lemma processLine_written {m : ℕ → UInt8} {h : Hex} (hw : Written m h) :
    Written m (Outcome.hex (processLine h)) := by
  rcases processLine_touches h with ⟨hd, -, hstores, hbuf, hlen⟩ | ⟨-, -, hout⟩
  · have hcount := bytesAt_length h.line 9 (header h.line).count.toNat
    refine ⟨?_, fun size hsize => ?_⟩
    · rw [hbuf, hstores, List.foldl_append, ← hw.buffer, blit_eq_foldl]
    · have hne : bytesAt h.line 9 (header h.line).count.toNat ≠ [] := fun h0 => by
        rw [h0, List.length_nil] at hcount
        exact hd.1 (UInt8.toNat_inj.mp hcount.symm)
      obtain ⟨s, hs, hend⟩ := storesAt_last (a := (header h.line).addr) hne
      rw [hlen] at hsize
      injection hsize with hsize
      exact ⟨s, hstores ▸ List.mem_append_right _ hs, by omega⟩
  · have hstores : (Outcome.hex (processLine h)).stores = h.stores := congrArg Out.stores hout
    have hbuf : (Outcome.hex (processLine h)).buffer = h.buffer := congrArg Out.buffer hout
    have hlen : (Outcome.hex (processLine h)).binLength = h.binLength :=
      congrArg Out.binLength hout
    exact ⟨by rw [hbuf, hstores, hw.buffer],
      fun size hsize => hstores ▸ hw.last size (hlen ▸ hsize)⟩

lemma confined_stores {n : ℕ} {l : List (ℕ × UInt8)} (h : ∀ s ∈ l, s.1 < n) (m : ℕ → UInt8) :
    Confined 0 n m (l.foldl (fun m x => put m x.1 x.2) m) := by
  induction l generalizing m with
  | nil => exact Confined.refl 0 n m
  | cons s l ih =>
    have hs := h s (by simp)
    exact ((Confined.refl 0 n m).put ⟨Nat.zero_le _, hs⟩ s.2).trans
      (ih (fun x hx => h x (by simp [hx])) _)

/-! ### What is freed -/

/-- The argument of `FreePool` is the address of one of the two buffers. -/
def Freed.IsBlock : Freed → Prop
  | .sourcePtrLine => True
  | .buffer => True
  | .ptrLine p => p = some 0

/-- Something that is no buffer was given to `FreePool`. -/
def Misfreed (h : Hex) : Prop := ∃ f ∈ h.freed, ¬ Freed.IsBlock f

/-- A round frees nothing, and leaves `PtrLine` inside the line. -/
lemma processLine_frees (h : Hex) : (Outcome.hex (processLine h)).freed = h.freed ∧
    (Outcome.hex (processLine h)).ptrLine ≠ some 0 := by
  unfold processLine
  dsimp only
  by_cases hcount : intelHexGetByte h.line 1 = 0
  · rw [if_pos hcount]
    exact ⟨rfl, by simp [Outcome.hex]⟩
  rw [if_neg hcount]
  by_cases hd : intelHexGetByte h.line 7 = RECORD_DATA
  · rw [if_pos hd]
    refine ⟨rfl, ?_⟩
    simp only [Outcome.hex]
    rw [(dataLoop_reads _ _ _).1, ne_eq, Option.some_inj]
    dsimp only
    omega
  · rw [if_neg hd]
    split_ifs <;> exact ⟨rfl, by simp [Outcome.hex]⟩

lemma misfreed_freeBoth {h : Hex} (hptr : h.ptrLine ≠ some 0) : Misfreed (freeBoth h) :=
  ⟨.ptrLine h.ptrLine, by simp [freeBoth], hptr⟩

/-- `PtrLine` is freed at the first line that is too long, and is never the line buffer there. -/
lemma lineLoop_misfreed (text : List UInt8) (h : Hex) (hptr : h.ptrLine ≠ some 0) :
    Misfreed (lineLoop text h).2 ↔ Misfreed h ∨ TooLong text := by
  induction hn : text.length using Nat.strongRecOn generalizing text h with
  | ind n ih =>
    rcases lineLoop_cases text h with ⟨hnil, hrun⟩ | ⟨-, hlong, hrun⟩ |
      ⟨hne, hfit, -, hshort, hrun⟩
    · rw [hrun, or_iff_left]
      intro hm
      cases hm with
      | here hlong =>
        rw [hnil] at hlong
        exact absurd hlong (by decide)
      | next hne => exact hne hnil
    · rw [hrun]
      exact iff_of_true (misfreed_freeBoth hptr) (Or.inr (.here hlong))
    obtain ⟨hfreed, hround⟩ :=
      processLine_frees { h with line := lineCells h.line (text.take (lineLength text)) }
    have hhead := header_lineCells h.line text
    -- without a further round no line that is too long can come
    have hstop : (header (firstLine text)).count = 0 ∨ ¬ Known (header (firstLine text)).type →
        ¬ TooLong text := by
      intro hend hm
      cases hm with
      | here hlong => omega
      | next _ _ hc hk => exact hend.elim hc fun hnot => hnot hk
    rw [hrun]
    rcases processLine_cases { h with line := lineCells h.line (text.take (lineLength text)) }
      with ⟨h0, h', hp⟩ | ⟨h0, hk, h', hp⟩ | ⟨h0, hk, h', hp⟩
    · rw [hp] at hfreed ⊢
      rw [or_iff_left (hstop (Or.inl ((congrArg Header.count hhead).symm.trans h0)))]
      exact iff_of_eq (congrArg (∃ f ∈ ·, ¬ Freed.IsBlock f) hfreed)
    · rw [hp] at hfreed hround ⊢
      refine (ih _ (hn ▸ hshort) _ h' hround rfl).trans (or_congr ?_ ⟨fun hm => ?_, fun hm => ?_⟩)
      · exact iff_of_eq (congrArg (∃ f ∈ ·, ¬ Freed.IsBlock f) hfreed)
      · exact .next hne hfit (hhead ▸ h0) (hhead ▸ hk) hm
      · cases hm with
        | here hlong => omega
        | next _ _ _ _ hm => exact hm
    · rw [hp] at hfreed ⊢
      have hunknown : ¬ Known (header (firstLine text)).type := fun hknown => by
        rw [← hhead] at hknown
        exact hk hknown
      rw [or_iff_left (hstop (Or.inr hunknown))]
      exact iff_of_eq (congrArg (∃ f ∈ ·, ¬ Freed.IsBlock f) hfreed)

lemma freeLine_misfreed (r : Status × Hex) : Misfreed (freeLine r).2 ↔ Misfreed r.2 := by
  unfold freeLine
  split_ifs
  · rfl
  · simp [Misfreed, Freed.IsBlock, or_and_right, exists_or]

/-! ### The program -/

/-- What the caller is given as the size: `stack` is what was on the stack for it. -/
def binSize (stack : ℕ) (h : Hex) : ℕ := h.binLength.getD stack

/-- The run keeps to its two buffers, frees nothing else, and a size handed out is one of the
output. -/
structure Contained (text : List UInt8) (lineHeap binHeap : ℕ → UInt8) (stack : ℕ)
    (r : Status × Hex) : Prop where
  reads : ∀ a ∈ r.2.reads, a < MAX_LINE_LENGTH
  stores : ∀ s ∈ r.2.stores, s.1 < text.length
  line : Confined 0 MAX_LINE_LENGTH lineHeap r.2.line
  buffer : Confined 0 text.length binHeap r.2.buffer
  freed : ∀ f ∈ r.2.freed, Freed.IsBlock f
  size : r.1 = EFI_SUCCESS → (r.2.binLength = none → binSize stack r.2 = 0) ∧
    binSize stack r.2 ≤ text.length

lemma lineCells_confined (line : ℕ → UInt8) {cs : List UInt8} (h : cs.length ≤ MAX_LINE_LENGTH) :
    Confined 0 MAX_LINE_LENGTH line (lineCells line cs) :=
  ((Confined.refl 0 MAX_LINE_LENGTH line).blit (by simp)).blit (by omega)

lemma lineLoop_line (text : List UInt8) (h : Hex) :
    Confined 0 MAX_LINE_LENGTH h.line (lineLoop text h).2.line :=
  lineLoop_inv (I := fun h' => Confined 0 MAX_LINE_LENGTH h.line h'.line) (fun _ hI => hI)
    (fun h' _ hcs hI => hI.trans (lineCells_confined h'.line hcs))
    (fun h' hI => processLine_line h' ▸ hI) (Confined.refl _ _ _)

lemma lineLoop_written (text : List UInt8) {h : Hex} (hstores : h.stores = [])
    (hnone : h.binLength = none) : Written h.buffer (lineLoop text h).2 :=
  lineLoop_inv (fun _ hw => ⟨hw.buffer, hw.last⟩) (fun h' _ _ hw => ⟨hw.buffer, hw.last⟩)
    (fun h' => processLine_written)
    ⟨by rw [hstores]; rfl, by rw [hnone]; simp⟩

/-- The size that is handed out is one of the output. -/
lemma Written.binSize_le {m : ℕ → UInt8} {h : Hex} (hw : Written m h) {n stack : ℕ}
    (hstores : ∀ s ∈ h.stores, s.1 < n) (hsize : h.binLength ≠ none ∨ stack = 0) :
    (h.binLength = none → binSize stack h = 0) ∧ binSize stack h ≤ n := by
  unfold binSize
  cases hlen : h.binLength with
  | none =>
    have hstack := hsize.resolve_left fun hne => hne hlen
    rw [Option.getD_none, hstack]
    exact ⟨fun _ => rfl, Nat.zero_le _⟩
  | some size =>
    obtain ⟨s, hs, hend⟩ := hw.last size hlen
    have hlt := hstores s hs
    rw [Option.getD_some]
    exact ⟨fun hnone => absurd hnone (Option.some_ne_none size), by omega⟩

/-- A run from the two buffers as they are allocated. -/
lemma contained_iff (text : List UInt8) (lineHeap binHeap : ℕ → UInt8) (stack : ℕ) :
    Contained text lineHeap binHeap stack
        (processIntelHexFile true true lineHeap binHeap text) ↔
      ¬ Meets (Header.Escapes text.length) text ∧ ¬ TooLong text ∧
        (Rejected text ∨ Meets Header.IsData text ∨ stack = 0) := by
  obtain ⟨h₀, hh₀⟩ : ∃ h, h = start lineHeap binHeap text.length := ⟨_, rfl⟩
  obtain ⟨r, hr⟩ : ∃ r, r = lineLoop text h₀ := ⟨_, rfl⟩
  have hrun : processIntelHexFile true true lineHeap binHeap text = freeLine r := by
    rw [hr, hh₀, processIntelHexFile_allocated]
  have hout : Outside text.length r.2 ↔ _ := hr ▸ lineLoop_meets (Q := Outside text.length)
    (fun _ => Iff.rfl) (fun _ _ => Iff.rfl) (processLine_outside text.length) text h₀
  have hassigned : r.2.binLength ≠ none ↔ _ := hr ▸ lineLoop_meets
    (Q := fun h => h.binLength ≠ none) (fun _ => Iff.rfl) (fun _ _ => Iff.rfl)
    processLine_assigned text h₀
  have hmisfreed : Misfreed r.2 ↔ _ := hr ▸ lineLoop_misfreed text h₀ (by simp [hh₀, start])
  have hsuccess : r.1 = EFI_SUCCESS ↔ _ := hr ▸ lineLoop_success_iff text h₀
  have hfresh : ¬ Outside text.length h₀ := by simp [hh₀, start, Outside]
  have hnone : ¬ h₀.binLength ≠ none := by simp [hh₀, start]
  have hkept : ¬ Misfreed h₀ := by simp [hh₀, start, Misfreed]
  rw [or_iff_right hfresh] at hout
  rw [or_iff_right hnone] at hassigned
  rw [or_iff_right hkept] at hmisfreed
  have hwritten : Written h₀.buffer r.2 :=
    hr ▸ lineLoop_written text (by rw [hh₀, start]) (by rw [hh₀, start])
  have hline : Confined 0 MAX_LINE_LENGTH lineHeap r.2.line := by
    have hrun := lineLoop_line text h₀
    rwa [← hr, show h₀.line = lineHeap by rw [hh₀, start]] at hrun
  have houtput := freeLine_out r
  have hstores : (freeLine r).2.stores = r.2.stores := congrArg Out.stores houtput
  have hbuffer : (freeLine r).2.buffer = r.2.buffer := congrArg Out.buffer houtput
  have hlength : (freeLine r).2.binLength = r.2.binLength := congrArg Out.binLength houtput
  rw [hrun, ← hout, ← hassigned, ← hmisfreed, ← freeLine_misfreed]
  constructor
  · intro hc
    refine ⟨?_, ?_, ?_⟩
    · rintro (⟨a, ha, hlong⟩ | ⟨s, hs, hhigh⟩)
      · exact absurd (hc.reads a (freeLine_reads r ▸ ha)) (by omega)
      · exact absurd (hc.stores s (hstores ▸ hs)) (by omega)
    · rintro ⟨f, hf, hnot⟩
      exact hnot (hc.freed f hf)
    by_cases hrej : Rejected text
    · exact Or.inl hrej
    refine Or.inr ?_
    by_cases hnone : r.2.binLength = none
    · have hzero := (hc.size ((freeLine_status r).trans (hsuccess.mpr hrej))).1
        (hlength.trans hnone)
      rw [binSize, hlength, hnone, Option.getD_none] at hzero
      exact Or.inr hzero
    · exact Or.inl hnone
  · rintro ⟨hin, hfree, hsize⟩
    have hbelow : ∀ s ∈ r.2.stores, s.1 < text.length := fun s hs =>
      not_le.mp fun hle => hin (Or.inr ⟨s, hs, hle⟩)
    refine ⟨fun a ha => ?_, hstores ▸ hbelow, (freeLine_line r).symm ▸ hline, ?_, fun f hf => ?_,
      fun hst => ?_⟩
    · exact not_le.mp fun hle => hin (Or.inl ⟨a, freeLine_reads r ▸ ha, hle⟩)
    · have hfill : Confined 0 text.length binHeap h₀.buffer := by
        rw [hh₀]
        have hlen : (List.replicate text.length (0xFF : UInt8)).length = text.length :=
          List.length_replicate
        exact (Confined.refl 0 text.length binHeap).blit ⟨le_rfl, by omega⟩
      rw [hbuffer, hwritten.buffer]
      exact hfill.trans (confined_stores hbelow _)
    · exact not_not.mp fun hnot => hfree ⟨f, hf, hnot⟩
    · have hrej := hsuccess.mp ((freeLine_status r).symm.trans hst)
      have hle := hwritten.binSize_le hbelow (hsize.resolve_left hrej)
      rwa [← hlength, binSize, ← hlength, ← binSize] at hle

/-- **What a run touches.** The program keeps to its line buffer and to its output, frees nothing
else, and hands out a size that is one of the output, exactly for the texts where no data record it
comes to has more digits than the line buffer holds or ends behind the output, no line it comes to
is too long, and it comes to a data record or rejects the text. -/
theorem processIntelHexFile_contained_iff (text : List UInt8) :
    (∀ (lineAllocated binAllocated : Bool) (lineHeap binHeap : ℕ → UInt8) (stack : ℕ),
      Contained text lineHeap binHeap stack
        (processIntelHexFile lineAllocated binAllocated lineHeap binHeap text)) ↔
      ¬ Meets (Header.Escapes text.length) text ∧ ¬ TooLong text ∧
        (Rejected text ∨ Meets Header.IsData text) := by
  constructor
  · intro hall
    obtain ⟨hin, hfree, hsize⟩ := (contained_iff text (fun _ => 0) (fun _ => 0) 1).mp
      (hall true true (fun _ => 0) (fun _ => 0) 1)
    exact ⟨hin, hfree, by simpa using hsize⟩
  · rintro ⟨hin, hfree, hsize⟩ lineAllocated binAllocated lineHeap binHeap stack
    have hoom : EFI_OUT_OF_RESOURCES ≠ EFI_SUCCESS := efiError_ne_success (efiError_maxBit 9)
    have hnothing : Contained text lineHeap binHeap stack
        (EFI_OUT_OF_RESOURCES, ⟨lineHeap, binHeap, none, 0, [], [], [], none, []⟩) :=
      ⟨by simp, by simp, Confined.refl _ _ _, Confined.refl _ _ _, by simp,
        fun hst => absurd hst hoom⟩
    cases lineAllocated with
    | false => exact hnothing
    | true =>
      cases binAllocated with
      | false => exact hnothing
      | true =>
        refine (contained_iff text lineHeap binHeap stack).mpr ⟨hin, hfree, ?_⟩
        rcases hsize with hrej | hd
        · exact Or.inl hrej
        · exact Or.inr (Or.inl hd)

/-- One byte, at the highest address a record can have. -/
def highRecord : List UInt8 := ascii ":01FFFF0041C0"

/-- The byte is stored at address 65535 of an output of 13 bytes. -/
theorem processIntelHexFile_high_record :
    ¬ Contained highRecord (fun _ => 0) (fun _ => 0) 0
      (processIntelHexFile true true (fun _ => 0) (fun _ => 0) highRecord) := by
  intro hc
  refine ((contained_iff highRecord _ _ _).mp hc).1 (.here (by decide) (by decide) ⟨?_, Or.inr ?_⟩)
  · exact ⟨by decide, by decide⟩
  · decide

end UefiToolkit.HexBounds
