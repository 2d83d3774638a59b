import UefiToolkit.HexRun

/-!
Decoding what was encoded: an image split into contiguous records comes back whole.
-/

namespace UefiToolkit.HexDecode

open UefiToolkit.Word UefiToolkit.Mem UefiToolkit.HexModel UefiToolkit.HexRecord
open UefiToolkit.HexRun

/-- The lines are non-empty data records that follow each other from address `a` on, and their
data make up the image. -/
def Splits : ℕ → List UInt8 → List Line → Prop
  | _, image, [] => image = []
  | a, image, l :: lines => l.record.type = RECORD_DATA ∧ l.record.addr = a ∧
      l.record.data ≠ [] ∧ ∃ rest, image = l.record.data ++ rest ∧
        Splits (a + l.record.data.length) rest lines

lemma Splits.known {a : ℕ} {image : List UInt8} {lines : List Line} (h : Splits a image lines) :
    ∀ l ∈ lines, Known l.record.type := by
  induction lines generalizing a image with
  | nil => simp
  | cons l lines ih =>
    obtain ⟨htype, -, -, rest, -, hrest⟩ := h
    intro x hx
    rcases List.mem_cons.mp hx with rfl | hx
    · exact Or.inl htype
    · exact ih hrest x hx

lemma Splits.reached {a : ℕ} {image : List UInt8} {lines : List Line}
    (h : Splits a image lines) : reached lines = lines := by
  induction lines generalizing a image with
  | nil => rfl
  | cons l lines ih =>
    obtain ⟨-, -, hdata, rest, -, hrest⟩ := h
    rw [reached_cons hdata, ih hrest]

/-- The records put the image together, piece by piece. -/
lemma Splits.storeAll {a : ℕ} {image : List UInt8} {lines : List Line}
    (h : Splits a image lines) (o : Out) :
    (storeAll lines o).buffer = blit o.buffer a image ∧
      (lines ≠ [] → (storeAll lines o).binLength = some (a + image.length)) := by
  induction lines generalizing a image o with
  | nil =>
    obtain rfl : image = [] := h
    exact ⟨(blit_nil _ _).symm, fun hne => absurd rfl hne⟩
  | cons l lines ih =>
    obtain ⟨htype, haddr, -, rest, rfl, hrest⟩ := h
    have hfirst : storeRecord l.record o = ⟨blit o.buffer a l.record.data,
        some (a + l.record.data.length), o.stores ++ storesAt a l.record.data⟩ := by
      rw [storeRecord, if_pos htype, haddr]
    have hcons : HexRun.storeAll (l :: lines) o =
        HexRun.storeAll lines (storeRecord l.record o) := rfl
    obtain ⟨hbuf, hlen⟩ := ih hrest (storeRecord l.record o)
    rw [hcons]
    refine ⟨?_, fun _ => ?_⟩
    · rw [hbuf, hfirst]
      exact blit_append _ _ _ _
    · by_cases hnil : lines = []
      · subst hnil
        obtain rfl : rest = [] := hrest
        have hdone : HexRun.storeAll [] (storeRecord l.record o) = storeRecord l.record o := rfl
        rw [hdone, hfirst, List.append_nil]
      · rw [hlen hnil, List.length_append, Nat.add_assoc]

/-- **Decoding inverts encoding.** A text of contiguous data records from address zero, each line
within the line buffer, and an end-of-file record, is turned into the image they make up. -/
theorem processIntelHexFile_decodes {image : List UInt8} {lines : List Line}
    (hsplit : Splits 0 image lines) (hne : 1 ≤ image.length)
    (hfit : ∀ l ∈ lines, l.text.length ≤ MAX_LINE_LENGTH) (eof : EofLine)
    (lineHeap binHeap : ℕ → UInt8) :
    (processIntelHexFile true true lineHeap binHeap (fileText lines eof)).1 = EFI_SUCCESS ∧
      (processIntelHexFile true true lineHeap binHeap (fileText lines eof)).2.binLength =
        some image.length ∧
      slice (processIntelHexFile true true lineHeap binHeap (fileText lines eof)).2.buffer 0
        image.length = image := by
  have hlines : lines ≠ [] := by
    rintro rfl
    obtain rfl : image = [] := hsplit
    simp at hne
  obtain ⟨h', hrun, hout⟩ := processIntelHexFile_file hsplit.known (hsplit.reached.symm ▸ hfit) eof
    lineHeap binHeap
  rw [hsplit.reached] at hout
  obtain ⟨hbuf, hlen⟩ :=
    hsplit.storeAll (outOf (start lineHeap binHeap (fileText lines eof).length))
  have hlen := hlen hlines
  rw [← hout] at hbuf hlen
  rw [hrun]
  refine ⟨rfl, by simpa [outOf] using hlen, ?_⟩
  have hbuf' : h'.buffer = _ := hbuf
  rw [hbuf']
  exact slice_blit _ _ _

/-- Two records, in both cases of letters and with two kinds of line breaks. -/
def sampleLines : List Line :=
  [⟨ascii ":0200000041427b", [0x0D, 0x0A], ⟨RECORD_DATA, 0, [0x41, 0x42]⟩, by decide,
      isEol_crlf⟩,
    ⟨ascii ":0100020043Ba", [0x0A], ⟨RECORD_DATA, 2, [0x43]⟩, by decide, isEol_lf⟩]

theorem processIntelHexFile_decodes_sample :
    (processIntelHexFile true true (fun _ => 7) (fun _ => 7) (fileText sampleLines eofLine)).1 =
        EFI_SUCCESS ∧
      (processIntelHexFile true true (fun _ => 7) (fun _ => 7)
        (fileText sampleLines eofLine)).2.binLength = some 3 ∧
      slice (processIntelHexFile true true (fun _ => 7) (fun _ => 7)
        (fileText sampleLines eofLine)).2.buffer 0 3 = [0x41, 0x42, 0x43] :=
  processIntelHexFile_decodes
    (show Splits 0 [0x41, 0x42, 0x43] sampleLines from
      ⟨rfl, rfl, by decide, _, rfl, rfl, rfl, by decide, _, rfl, rfl⟩)
    (by decide) (by decide) eofLine (fun _ => 7) (fun _ => 7)

end UefiToolkit.HexDecode
