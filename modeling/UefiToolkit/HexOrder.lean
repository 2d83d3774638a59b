import UefiToolkit.HexAddress
import UefiToolkit.HexBounds
import UefiToolkit.Pieces

/-!
The order of the data records.

The image of a set of data records that share no address does not depend on the order they are
written in. The program takes the end of the last record it looks at for the size of the image,
and looks at no record behind one without data.
-/

namespace UefiToolkit.HexOrder

open UefiToolkit.Word UefiToolkit.Mem UefiToolkit.Pieces UefiToolkit.HexModel
open UefiToolkit.HexRecord UefiToolkit.HexRun UefiToolkit.HexAddress UefiToolkit.HexBounds

/-! ### Images -/

def piece (l : Line) : Piece UInt8 := ⟨l.record.addr, l.record.data⟩

/-- Data records that share no address, and end within an output of `n` bytes. -/
structure Fits (lines : List Line) (n : ℕ) : Prop where
  data : ∀ l ∈ lines, l.record.type = RECORD_DATA
  apart : (lines.map piece).Pairwise Piece.Apart
  inside : ∀ l ∈ lines, (piece l).stop ≤ n

/-- The image of a set of records: they are laid over bytes of `0xFF`, up to one past the highest
address. -/
def image (lines : List Line) : List UInt8 :=
  slice (lay (fun _ => 0xFF) (lines.map piece)) 0 (top (lines.map piece))

lemma image_perm {lines order : List Line} (h : order.Perm lines)
    (hapart : (lines.map piece).Pairwise Piece.Apart) : image order = image lines := by
  have hp := h.map piece
  unfold image
  rw [top_perm hp, ← lay_perm (fun _ => (0xFF : UInt8)) hp.symm hapart]

lemma Fits.perm {lines order : List Line} {n : ℕ} (h : Fits lines n)
    (hp : order.Perm lines) : Fits order n :=
  ⟨fun l hl => h.data l (hp.mem_iff.mp hl),
    ((hp.map piece).pairwise_iff fun hs => hs.symm).mpr h.apart,
    fun l hl => h.inside l (hp.mem_iff.mp hl)⟩

/-- The orders the program gets right: the lines it looks at fit the line buffer, the last one of
them ends highest of all, and the lines it does not look at hold nothing but `0xFF`. -/
structure Orderly (order : List Line) : Prop where
  fits : ∀ l ∈ reached order, l.text.length ≤ MAX_LINE_LENGTH
  last : ∃ l, (reached order).getLast? = some l ∧ ∀ l' ∈ order, (piece l').stop ≤ (piece l).stop
  rest : ∀ l ∈ order.dropWhile (fun l => l.record.data ≠ []), ∀ b ∈ l.record.data, b = 0xFF

/-! ### What a run over data records makes -/

lemma reached_sub {lines : List Line} {l : Line} (h : l ∈ reached lines) : l ∈ lines :=
  List.takeWhile_sublist _ |>.mem h

lemma reached_data {lines : List Line} {l : Line} (h : l ∈ reached lines) :
    l.record.data ≠ [] := by
  simpa using List.mem_takeWhile_imp h

lemma reached_append (lines : List Line) :
    reached lines ++ lines.dropWhile (fun l => l.record.data ≠ []) = lines :=
  List.takeWhile_append_dropWhile

lemma storeAll_buffer_lay {lines : List Line} (h : ∀ l ∈ lines, l.record.type = RECORD_DATA)
    (o : Out) : (storeAll lines o).buffer = lay o.buffer (lines.map piece) := by
  induction lines generalizing o with
  | nil => rfl
  | cons l lines ih =>
    have hcons : storeAll (l :: lines) o = storeAll lines (storeRecord l.record o) := rfl
    rw [hcons, ih (fun x hx => h x (by simp [hx])), storeRecord, if_pos (h l (by simp))]
    rfl

lemma lastData_getLast {lines : List Line} (h : ∀ l ∈ lines, l.record.type = RECORD_DATA) :
    lastData lines = lines.getLast?.map Line.record := by
  have hall : (lines.map Line.record).filter (fun r => r.type = RECORD_DATA) =
      lines.map Line.record := List.filter_eq_self.mpr fun r hr => by
    obtain ⟨l, hl, rfl⟩ := List.mem_map.mp hr
    simpa using h l hl
  rw [lastData, hall, List.getLast?_map]

/-- A run whose lines fit: the image is laid piece by piece, and the last piece gives the size. -/
lemma processIntelHexFile_lay {order : List Line}
    (hdata : ∀ l ∈ order, l.record.type = RECORD_DATA)
    (hfit : ∀ l ∈ reached order, l.text.length ≤ MAX_LINE_LENGTH) (eof : EofLine)
    (lineHeap binHeap : ℕ → UInt8) :
    ∃ h, processIntelHexFile true true lineHeap binHeap (fileText order eof) = (EFI_SUCCESS, h) ∧
      h.buffer = lay (blit binHeap 0 (List.replicate (fileText order eof).length 0xFF))
        ((reached order).map piece) ∧
      h.binLength = (reached order).getLast?.map fun l => (piece l).stop := by
  have hreach : ∀ l ∈ reached order, l.record.type = RECORD_DATA :=
    fun l hl => hdata l (reached_sub hl)
  obtain ⟨h, hrun, hout⟩ := processIntelHexFile_file (fun l hl => Or.inl (hdata l hl)) hfit eof
    lineHeap binHeap
  have hbuffer : h.buffer = (outOf h).buffer := rfl
  have hlength : h.binLength = (outOf h).binLength := rfl
  refine ⟨h, hrun, ?_, ?_⟩
  · rw [hbuffer, hout, storeAll_buffer_lay hreach]
    rfl
  · rw [hlength, hout, storeAll_binLength, lastData_getLast hreach]
    cases hlast : (reached order).getLast? with
    | none => rfl
    | some l =>
      have hne := reached_data (List.mem_of_getLast? hlast)
      simp [piece, Piece.stop, hne]

/-- The cells of the image are right exactly if the lines that are not looked at hold `0xFF`. -/
lemma lay_reached_iff {order : List Line} {n : ℕ} (h : Fits order n) (binHeap : ℕ → UInt8) :
    slice (lay (blit binHeap 0 (List.replicate n 0xFF)) ((reached order).map piece)) 0
        (top (order.map piece)) = image order ↔
      ∀ l ∈ order.dropWhile (fun l => l.record.data ≠ []), ∀ b ∈ l.record.data, b = 0xFF := by
  obtain ⟨rest, hrest⟩ : ∃ rest, rest = order.dropWhile (fun l => l.record.data ≠ []) := ⟨_, rfl⟩
  have hsplit : order.map piece = (reached order).map piece ++ rest.map piece := by
    rw [← List.map_append, hrest, reached_append]
  have hapart := h.apart
  rw [hsplit] at hapart
  obtain ⟨hreach, -, hcross⟩ := List.pairwise_append.mp hapart
  have htop : top (order.map piece) ≤ n := top_le fun p hp => by
    obtain ⟨l, hl, rfl⟩ := List.mem_map.mp hp
    exact h.inside l hl
  have hfill : ∀ i < top (order.map piece),
      blit binHeap 0 (List.replicate n (0xFF : UInt8)) i = 0xFF := fun i hi => by
    have hin := blit_in binHeap 0 (l := List.replicate n (0xFF : UInt8)) (k := i)
      (by rw [List.length_replicate]; omega)
    rwa [Nat.zero_add, List.getElem_replicate] at hin
  rw [← hrest]
  constructor
  · intro heq l hl b hb
    obtain ⟨k, hk, rfl⟩ := List.getElem_of_mem hb
    have hp : piece l ∈ order.map piece :=
      hsplit ▸ List.mem_append_right _ (List.mem_map_of_mem hl)
    have hcover : (piece l).Covers (l.record.addr + k) :=
      ⟨Nat.le_add_right _ _, Nat.add_lt_add_left hk _⟩
    have hlt := hcover.lt_stop.trans_le (stop_le_top hp)
    have hspec := slice_eq_iff.mp (lay_in (fun _ => (0xFF : UInt8)) h.apart hp) k hk
    have hrun : lay (blit binHeap 0 (List.replicate n 0xFF)) ((reached order).map piece)
        (l.record.addr + k) = 0xFF := by
      rw [lay_out, hfill _ hlt]
      exact fun q hq hc => hcross q hq (piece l) (List.mem_map_of_mem hl) _ ⟨hc, hcover⟩
    have hcell := slice_inj heq hlt
    rw [Nat.zero_add] at hcell
    exact hspec.symm.trans (hcell.symm.trans hrun)
  · intro hff
    refine slice_congr fun i hi => ?_
    rw [Nat.zero_add, hsplit]
    have hfill := hfill i hi
    by_cases hreached : ∃ p ∈ (reached order).map piece, p.Covers i
    · -- the piece is the same in both
      obtain ⟨p, hp, hc⟩ := hreached
      have hshort := lay_covered (blit binHeap 0 (List.replicate n 0xFF)) hreach hp hc
      have hwhole := lay_covered (fun _ => (0xFF : UInt8)) hapart (List.mem_append_left _ hp) hc
      exact Option.some.inj (hshort.symm.trans hwhole)
    have hkept : ∀ p ∈ (reached order).map piece, ¬ p.Covers i := fun p hp hc =>
      hreached ⟨p, hp, hc⟩
    rw [lay_out _ hkept, hfill]
    by_cases hlater : ∃ p ∈ rest.map piece, p.Covers i
    · obtain ⟨p, hp, hc⟩ := hlater
      have hmem := List.mem_of_getElem? (lay_covered (fun _ => (0xFF : UInt8)) hapart
        (List.mem_append_right _ hp) hc)
      obtain ⟨l, hl, rfl⟩ := List.mem_map.mp hp
      exact (hff l hl _ hmem).symm
    · rw [lay_out]
      intro p hp hc
      rcases List.mem_append.mp hp with hp | hp
      · exact hkept p hp hc
      · exact hlater ⟨p, hp, hc⟩

/-- The run hands out the image of the records and its size. -/
structure Decoded (lines : List Line) (stack : ℕ) (r : Status × Hex) : Prop where
  success : r.1 = EFI_SUCCESS
  size : binSize stack r.2 = top (lines.map piece)
  bytes : slice r.2.buffer 0 (binSize stack r.2) = image lines

/-- For a run whose lines fit, what has to be right is the size and the lines that are not looked
at. -/
lemma decoded_iff {lines order : List Line} (hperm : order.Perm lines) {eof : EofLine}
    (hfits : Fits lines (fileText order eof).length)
    (hfit : ∀ l ∈ reached order, l.text.length ≤ MAX_LINE_LENGTH)
    (lineHeap binHeap : ℕ → UInt8) (stack : ℕ) :
    Decoded lines stack (processIntelHexFile true true lineHeap binHeap (fileText order eof)) ↔
      ((reached order).getLast?.map fun l => (piece l).stop).getD stack = top (order.map piece) ∧
      ∀ l ∈ order.dropWhile (fun l => l.record.data ≠ []), ∀ b ∈ l.record.data, b = 0xFF := by
  have hfits' := hfits.perm hperm
  obtain ⟨h, hrun, hbuf, hlen⟩ := processIntelHexFile_lay hfits'.data hfit eof lineHeap binHeap
  have hsize : binSize stack h =
      ((reached order).getLast?.map fun l => (piece l).stop).getD stack := by rw [binSize, hlen]
  have htop := top_perm (hperm.map piece)
  have himage := image_perm hperm hfits.apart
  rw [hrun, ← hsize, htop]
  constructor
  · intro hd
    have hbytes := hd.bytes
    rw [hd.size, hbuf, ← htop, ← himage] at hbytes
    exact ⟨hd.size, (lay_reached_iff hfits' _).mp hbytes⟩
  · rintro ⟨hd, hrest⟩
    refine ⟨rfl, hd, ?_⟩
    rw [hd, hbuf, ← htop, ← himage]
    exact (lay_reached_iff hfits' _).mpr hrest

/-- **The order of the records.** Data records that share no address, written in some order, are
turned into their image whatever is in memory before exactly if the order is one of those the
program gets right. -/
theorem processIntelHexFile_order_iff (lines order : List Line) (hperm : order.Perm lines)
    (eof : EofLine) (hfits : Fits lines (fileText order eof).length) :
    (∀ (lineHeap binHeap : ℕ → UInt8) (stack : ℕ), Decoded lines stack
      (processIntelHexFile true true lineHeap binHeap (fileText order eof))) ↔
      Orderly order := by
  by_cases hlong : ∃ l ∈ reached order, MAX_LINE_LENGTH < l.text.length
  · refine iff_of_false (fun hall => ?_) fun ho => ?_
    · have hsmall : EFI_BUFFER_TOO_SMALL ≠ EFI_SUCCESS := efiError_ne_success (efiError_maxBit 5)
      have hst := (hall (fun _ => 0) (fun _ => 0) 0).success
      have hrun := processIntelHexFile_file_long
        (fun l hl => Or.inl ((hfits.perm hperm).data l hl)) hlong eof (fun _ => 0) (fun _ => 0)
      exact hsmall (hrun.symm.trans hst)
    · obtain ⟨l, hl, hlong⟩ := hlong
      exact absurd (ho.fits l hl) (by omega)
  have hfit : ∀ l ∈ reached order, l.text.length ≤ MAX_LINE_LENGTH := fun l hl =>
    not_lt.mp fun hl' => hlong ⟨l, hl, hl'⟩
  constructor
  · intro hall
    have hdecoded : ∀ stack, ((reached order).getLast?.map fun l => (piece l).stop).getD stack =
        top (order.map piece) ∧
        ∀ l ∈ order.dropWhile (fun l => l.record.data ≠ []), ∀ b ∈ l.record.data, b = 0xFF :=
      fun stack => (decoded_iff hperm hfits hfit _ _ stack).mp
        (hall (fun _ => 0) (fun _ => 0) stack)
    cases hlast : (reached order).getLast? with
    | none =>
      -- the size is what is on the stack
      have h0 := (hdecoded 0).1
      have h1 := (hdecoded 1).1
      rw [hlast] at h0 h1
      exact absurd (h0.trans h1.symm) Nat.zero_ne_one
    | some l =>
      obtain ⟨hsize, hrest⟩ := hdecoded 0
      rw [hlast, Option.map_some, Option.getD_some] at hsize
      exact ⟨hfit, ⟨l, hlast, fun l' hl' => hsize ▸ stop_le_top (List.mem_map_of_mem hl')⟩, hrest⟩
  · intro ho lineHeap binHeap stack
    obtain ⟨l, hl, hhigh⟩ := ho.last
    refine (decoded_iff hperm hfits hfit lineHeap binHeap stack).mpr ⟨?_, ho.rest⟩
    rw [hl, Option.map_some, Option.getD_some]
    refine le_antisymm ?_ (top_le fun p hp => ?_)
    · exact stop_le_top (List.mem_map_of_mem (reached_sub (List.mem_of_getLast? hl)))
    · obtain ⟨l', hl', rfl⟩ := List.mem_map.mp hp
      exact hhigh l' hl'

/-- Two bytes, the second one first. -/
def descending : List Line :=
  [⟨ascii ":0100010042BC", [0x0A], ⟨RECORD_DATA, 1, [0x42]⟩, rfl, isEol_lf⟩,
    ⟨ascii ":0100000041BE", [0x0A], ⟨RECORD_DATA, 0, [0x41]⟩, rfl, isEol_lf⟩]

lemma descending_fits {n : ℕ} (hn : 2 ≤ n) : Fits descending n := by
  refine ⟨by decide, ?_, fun l hl => ?_⟩
  · have hpieces : descending.map piece = [⟨1, [0x42]⟩, ⟨0, [0x41]⟩] := rfl
    rw [hpieces]
    simp only [List.pairwise_cons, List.mem_singleton, forall_eq, List.not_mem_nil,
      IsEmpty.forall_iff, implies_true, List.Pairwise.nil, and_true]
    rintro i ⟨⟨hlo, -⟩, -, hhi⟩
    simp only [List.length_singleton] at hlo hhi
    omega
  · have hstop : ∀ l ∈ descending, (piece l).stop ≤ 2 := by decide
    exact (hstop l hl).trans hn

/-- The two bytes in the order of their addresses. -/
theorem processIntelHexFile_order_iff_ascending : Decoded descending 7
    (processIntelHexFile true true (fun _ => 7) (fun _ => 7)
      (fileText descending.reverse eofLine)) := by
  have hfits : Fits descending (fileText descending.reverse eofLine).length :=
    descending_fits (by decide)
  refine (processIntelHexFile_order_iff descending descending.reverse
    (List.reverse_perm descending) eofLine hfits).mpr ⟨by decide, ?_, by decide⟩
    (fun _ => 7) (fun _ => 7) 7
  exact ⟨_, rfl, by decide⟩

/-- Written the other way round, the bytes make an image of one byte. -/
theorem processIntelHexFile_descending : ¬ ∀ (lineHeap binHeap : ℕ → UInt8) (stack : ℕ),
    Decoded descending stack (processIntelHexFile true true lineHeap binHeap
      (fileText descending eofLine)) := by
  intro hall
  obtain ⟨h, hrun, -, hlen⟩ := processIntelHexFile_lay
    (show ∀ l ∈ descending, l.record.type = RECORD_DATA by decide) (by decide) eofLine
    (fun _ => 0) (fun _ => 0)
  have hsize := (hall (fun _ => 0) (fun _ => 0) 0).size
  have hone : binSize 0 h = 1 := by
    rw [binSize, hlen]
    rfl
  rw [hrun] at hsize
  exact absurd (hone.symm.trans hsize) (by decide)

end UefiToolkit.HexOrder
