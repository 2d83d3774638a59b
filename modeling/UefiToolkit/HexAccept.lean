import UefiToolkit.HexRun

/-!
Which texts are turned into an image, and which of these are well formed.

Of all that can be wrong with a text the program rejects two things only: a line too long for
the line buffer, and a record type it does not know.
-/

namespace UefiToolkit.HexAccept

open UefiToolkit.Word UefiToolkit.Mem UefiToolkit.HexModel UefiToolkit.HexRecord
open UefiToolkit.HexRun

/-! ### Well-formed texts -/

def IsEofRecord (line : List UInt8) : Prop :=
  ∃ addr, parseRecord line = some ⟨RECORD_END_OF_FILE, addr, []⟩

/-- There is an end-of-file record, and every line before it is a record. -/
def WellFormed (text : List UInt8) : Prop :=
  ∃ before eof after, textLines text = before ++ eof :: after ∧
    (∀ line ∈ before, (parseRecord line).isSome) ∧ IsEofRecord eof

/-! ### Rejected texts -/

/-- The first line of a text, as it stands in the cleared line buffer. -/
def firstLine (text : List UInt8) : ℕ → UInt8 := blit (fun _ => 0) 0 (text.take (lineLength text))

/-- Before any line with a byte count of zero comes one that is longer than the line buffer, or
has a type that is not known. -/
inductive Rejected : List UInt8 → Prop
  | long {text : List UInt8} : MAX_LINE_LENGTH < lineLength text → Rejected text
  | type {text : List UInt8} : intelHexGetByte (firstLine text) 1 ≠ 0 →
      ¬ Known (intelHexGetByte (firstLine text) 7) → Rejected text
  | next {text : List UInt8} : intelHexGetByte (firstLine text) 1 ≠ 0 →
      Rejected (text.drop (lineLength text)) → Rejected text

lemma not_rejected_nil : ¬ Rejected [] := by
  intro h
  cases h with
  | long hlong => exact absurd hlong (by decide)
  | type hcount _ => exact absurd hcount (by decide)
  | next hcount _ => exact absurd hcount (by decide)

/-- The line buffer agrees with the cleared one as far as it was cleared. -/
lemma lineCells_eq (line : ℕ → UInt8) (cs : List UInt8) {i : ℕ} (hi : i < MAX_LINE_LENGTH) :
    lineCells line cs i = blit (fun _ => 0) 0 cs i := by
  unfold lineCells
  by_cases hc : i < cs.length
  · have h1 := blit_in (blit line 0 (List.replicate MAX_LINE_LENGTH 0)) 0 hc
    have h2 := blit_in (fun _ => (0 : UInt8)) 0 hc
    rw [Nat.zero_add] at h1 h2
    rw [h1, h2]
  · have h1 := blit_in line 0 (l := List.replicate MAX_LINE_LENGTH (0 : UInt8)) (k := i)
      (by rw [List.length_replicate]; exact hi)
    rw [Nat.zero_add] at h1
    rw [blit_out (l := cs) _ (by omega), blit_out (l := cs) _ (by omega), h1,
      List.getElem_replicate]

lemma getByte_lineCells (line : ℕ → UInt8) (cs : List UInt8) {p : ℕ}
    (hp : p + 1 < MAX_LINE_LENGTH) :
    intelHexGetByte (lineCells line cs) p = intelHexGetByte (blit (fun _ => 0) 0 cs) p := by
  unfold intelHexGetByte
  rw [lineCells_eq line cs (by omega : p < MAX_LINE_LENGTH), lineCells_eq line cs hp]

/-- How a round ends depends on the byte count and the type alone. -/
lemma processLine_cases (h : Hex) :
    (intelHexGetByte h.line 1 = 0 ∧ ∃ h', processLine h = .leave h') ∨
    (intelHexGetByte h.line 1 ≠ 0 ∧ Known (intelHexGetByte h.line 7) ∧
      ∃ h', processLine h = .more h') ∨
    (intelHexGetByte h.line 1 ≠ 0 ∧ ¬ Known (intelHexGetByte h.line 7) ∧
      ∃ h', processLine h = .fail EFI_UNSUPPORTED h') := by
  unfold processLine
  dsimp only
  by_cases hcount : intelHexGetByte h.line 1 = 0
  · rw [if_pos hcount]
    exact Or.inl ⟨hcount, _, rfl⟩
  · rw [if_neg hcount]
    refine Or.inr ?_
    by_cases hknown : Known (intelHexGetByte h.line 7)
    · refine Or.inl ⟨hcount, hknown, ?_⟩
      by_cases hd : intelHexGetByte h.line 7 = RECORD_DATA
      · rw [if_pos hd]
        exact ⟨_, rfl⟩
      · rw [if_neg hd]
        by_cases he : intelHexGetByte h.line 7 = RECORD_END_OF_FILE
        · rw [if_pos he]
          exact ⟨_, rfl⟩
        · rw [if_neg he, if_pos ((hknown.resolve_left hd).resolve_left he)]
          exact ⟨_, rfl⟩
    · refine Or.inr ⟨hcount, hknown, ?_⟩
      have hd : ¬ intelHexGetByte h.line 7 = RECORD_DATA := fun hd => hknown (Or.inl hd)
      have he : ¬ intelHexGetByte h.line 7 = RECORD_END_OF_FILE :=
        fun he => hknown (Or.inr (Or.inl he))
      rw [if_neg hd, if_neg he, if_neg fun h => hknown (Or.inr (Or.inr h))]
      exact ⟨_, rfl⟩

/-- The line loop succeeds on every text that is not rejected, and on no other. -/
lemma lineLoop_success_iff (text : List UInt8) (h : Hex) :
    (lineLoop text h).1 = EFI_SUCCESS ↔ ¬ Rejected text := by
  induction hn : text.length using Nat.strongRecOn generalizing text h with
  | ind n ih =>
    rcases lineLoop_cases text h with ⟨rfl, hrun⟩ | ⟨-, hlong, hrun⟩ |
      ⟨-, hfit, -, hshort, hrun⟩
    · rw [hrun]
      exact iff_of_true rfl not_rejected_nil
    · rw [hrun]
      exact iff_of_false (by dsimp only; decide) fun hnot => hnot (.long hlong)
    have hcount : intelHexGetByte (lineCells h.line (text.take (lineLength text))) 1 =
        intelHexGetByte (firstLine text) 1 := getByte_lineCells _ _ (by decide)
    have htype : intelHexGetByte (lineCells h.line (text.take (lineLength text))) 7 =
        intelHexGetByte (firstLine text) 7 := getByte_lineCells _ _ (by decide)
    rw [hrun]
    rcases processLine_cases { h with line := lineCells h.line (text.take (lineLength text)) }
      with ⟨h0, h', hp⟩ | ⟨h0, hk, h', hp⟩ | ⟨h0, hk, h', hp⟩
    · rw [hp]
      refine iff_of_true rfl fun hrej => ?_
      have h0 := hcount.symm.trans h0
      cases hrej with
      | long hl => exact absurd hl (by omega)
      | type hc _ => exact hc h0
      | next hc _ => exact hc h0
    · rw [hp, Outcome.next, ih _ (hn ▸ hshort) _ h' rfl, not_iff_not]
      refine ⟨.next (hcount ▸ h0), fun hrej => ?_⟩
      cases hrej with
      | long hl => exact absurd hl (by omega)
      | type _ ht => exact absurd (htype ▸ hk) ht
      | next _ hrest => exact hrest
    · rw [hp]
      exact iff_of_false (by simp only [Outcome.next]; decide)
        fun hnot => hnot (.type (hcount ▸ h0) (htype ▸ hk))

lemma processIntelHexFile_success_iff (lineHeap binHeap : ℕ → UInt8) (text : List UInt8) :
    (processIntelHexFile true true lineHeap binHeap text).1 = EFI_SUCCESS ↔ ¬ Rejected text := by
  rw [processIntelHexFile_allocated, freeLine_status]
  exact lineLoop_success_iff text _

/-- **What is accepted.** Success means a well-formed text exactly for the texts that are well
formed and those that the two checks of the program reject. -/
theorem processIntelHexFile_sound_iff (text : List UInt8) :
    (∀ (lineAllocated binAllocated : Bool) (lineHeap binHeap : ℕ → UInt8),
      (processIntelHexFile lineAllocated binAllocated lineHeap binHeap text).1 = EFI_SUCCESS →
        WellFormed text) ↔ Rejected text ∨ WellFormed text := by
  constructor
  · intro hall
    by_cases hrej : Rejected text
    · exact Or.inl hrej
    · refine Or.inr (hall true true (fun _ => 0) (fun _ => 0) ?_)
      exact (processIntelHexFile_success_iff _ _ text).mpr hrej
  · rintro (hrej | hwf) lineAllocated binAllocated lineHeap binHeap hst
    · obtain ⟨rfl, rfl⟩ := allocated_of_success hst
      exact absurd hrej ((processIntelHexFile_success_iff _ _ text).mp hst)
    · exact hwf

/-- A data record with a wrong checksum, and an end-of-file record. -/
def badChecksum : List UInt8 := ascii ":0100000041BF" ++ [0x0A] ++ ascii ":00000001FF"

lemma badChecksum_not_rejected : ¬ Rejected badChecksum := by
  intro h
  cases h with
  | long hl => exact absurd hl (by decide)
  | type _ ht => exact ht (Or.inl (by decide))
  | next _ hrest =>
    have hdrop : badChecksum.drop (lineLength badChecksum) = ascii ":00000001FF" := by decide
    rw [hdrop] at hrest
    cases hrest with
    | long hl => exact absurd hl (by decide)
    | type hc _ => exact hc (by decide)
    | next hc _ => exact hc (by decide)

/-- The record is taken in spite of its checksum. -/
theorem processIntelHexFile_bad_checksum :
    (processIntelHexFile true true (fun _ => 0) (fun _ => 0) badChecksum).1 = EFI_SUCCESS ∧
      ¬ WellFormed badChecksum := by
  refine ⟨(processIntelHexFile_success_iff _ _ badChecksum).mpr badChecksum_not_rejected, ?_⟩
  rintro ⟨before, eof, after, hlines, hbefore, addr, heof⟩
  have htext : textLines badChecksum = [ascii ":0100000041BF", ascii ":00000001FF"] := by decide
  have hbad : parseRecord (ascii ":0100000041BF") = none := by decide
  rw [htext] at hlines
  cases before with
  | nil =>
    injection hlines with hfirst
    rw [← hfirst, hbad] at heof
    cases heof
  | cons line before =>
    injection hlines with hfirst
    have hsome := hbefore line (by simp)
    rw [← hfirst, hbad] at hsome
    cases hsome

end UefiToolkit.HexAccept
