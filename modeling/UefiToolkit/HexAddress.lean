import UefiToolkit.HexRun

/-!
Extended addresses.

A record of type 02 or 04 sets the base for the data records after it; the full address of a
data byte is the base, the record's address and the byte's index. The program passes over these
records, so that the image is right for some files only.
-/

namespace UefiToolkit.HexAddress

open UefiToolkit.Word UefiToolkit.Mem UefiToolkit.HexModel UefiToolkit.HexRecord
open UefiToolkit.HexRun

/-! ### Full addresses -/

/-- The first two data bytes of a record, as a big-endian word. -/
def dataWord (r : Rec) : ℕ := 2 ^ 8 * (r.data.getD 0 0).toNat + (r.data.getD 1 0).toNat

/-- The base that holds after a record. -/
def nextBase (base : ℕ) (r : Rec) : ℕ :=
  if r.type = RECORD_EXTENDED_SEGMENT_ADDRESS then dataWord r * 16
  else if r.type = RECORD_EXTENDED_LINEAR_ADDRESS then dataWord r * 65536
  else base

/-- A data byte of a file: the base it stands under, its address in the segment, its value. -/
structure Placed where
  base : ℕ
  addr : ℕ
  byte : UInt8

def Placed.full (x : Placed) : ℕ := x.base + x.addr

/-- The data bytes of a file, in order. -/
def placed : ℕ → List Line → List Placed
  | _, [] => []
  | base, l :: lines =>
    (if l.record.type = RECORD_DATA then
      (storesAt l.record.addr l.record.data).map fun x => ⟨base, x.1, x.2⟩ else []) ++
      placed (nextBase base l.record) lines

/-- A file of data, extended segment and extended linear address records. -/
def Segmented (lines : List Line) : Prop :=
  ∀ l ∈ lines, l.record.type = RECORD_DATA ∨
    ((l.record.type = RECORD_EXTENDED_SEGMENT_ADDRESS ∨
      l.record.type = RECORD_EXTENDED_LINEAR_ADDRESS) ∧ l.record.data.length = 2)

/-- The data bytes were stored at their full addresses, inside the image and inside what was
allocated for it; a byte is only overwritten from its own segment, and else is found there. -/
structure Honoured (lines : List Line) (allocated : ℕ) (h : Hex) : Prop where
  stored : h.stores = (placed 0 lines).map fun x => (x.full, x.byte)
  inside : ∀ x ∈ placed 0 lines, x.full < allocated ∧
    ∃ size, h.binLength = some size ∧ x.full < size
  kept : ∀ (i j : ℕ) (x y : Placed), i < j → (placed 0 lines)[i]? = some x →
    (placed 0 lines)[j]? = some y → y.full = x.full → y.base = x.base
  found : ∀ (i : ℕ) (x : Placed), (placed 0 lines)[i]? = some x →
    (∀ (j : ℕ) (y : Placed), i < j → (placed 0 lines)[j]? = some y → y.full ≠ x.full) →
    h.buffer x.full = x.byte

/-- The last data record. -/
def lastData (lines : List Line) : Option Rec :=
  ((lines.map Line.record).filter fun r => r.type = RECORD_DATA).getLast?

/-- The files the program places right: no data follow a record without data, all data stand
under a base of zero, and all end within the text's length and where the last data record
ends. -/
structure Placeable (lines : List Line) (textLength : ℕ) : Prop where
  whole : ∀ l ∈ lines.dropWhile (fun l => l.record.data ≠ []),
    l.record.type = RECORD_DATA → l.record.data = []
  base : ∀ x ∈ placed 0 lines, x.base = 0
  inside : ∀ x ∈ placed 0 lines, x.addr < textLength ∧
    ∃ last, lastData (reached lines) = some last ∧ x.addr < last.addr + last.data.length

/-! ### What the run stores -/

lemma Segmented.known {lines : List Line} (h : Segmented lines) :
    ∀ l ∈ lines, Known l.record.type := by
  intro l hl
  rcases h l hl with hd | ⟨hs | hs, -⟩
  · exact Or.inl hd
  · exact Or.inr (Or.inr (Or.inl hs))
  · exact Or.inr (Or.inr (Or.inr (Or.inr (Or.inl hs))))

/-- The stores as the program makes them, without the base. -/
def rawStores (xs : List Placed) : List (ℕ × UInt8) := xs.map fun x => (x.addr, x.byte)

lemma rawStores_record (base : ℕ) (l : List (ℕ × UInt8)) :
    rawStores (l.map fun x => ⟨base, x.1, x.2⟩) = l := by
  simp [rawStores, Function.comp_def]

lemma rawStores_append (xs ys : List Placed) :
    rawStores (xs ++ ys) = rawStores xs ++ rawStores ys := List.map_append

lemma storeAll_stores (base : ℕ) (lines : List Line) (o : Out) :
    (storeAll lines o).stores = o.stores ++ rawStores (placed base lines) := by
  induction lines generalizing base o with
  | nil => exact (List.append_nil _).symm
  | cons l lines ih =>
    have hcons : storeAll (l :: lines) o = storeAll lines (storeRecord l.record o) := rfl
    rw [hcons, ih (nextBase base l.record), placed, storeRecord]
    by_cases hd : l.record.type = RECORD_DATA
    · rw [if_pos hd, if_pos hd, rawStores_append, rawStores_record]
      exact List.append_assoc _ _ _
    · rw [if_neg hd, if_neg hd]
      rfl

/-- The output is what the stores have made of it. -/
lemma storeAll_buffer (lines : List Line) {o : Out} {m : ℕ → UInt8}
    (h : o.buffer = o.stores.foldl (fun m x => put m x.1 x.2) m) :
    (storeAll lines o).buffer =
      (storeAll lines o).stores.foldl (fun m x => put m x.1 x.2) m := by
  induction lines generalizing o with
  | nil => exact h
  | cons l lines ih =>
    have hcons : storeAll (l :: lines) o = storeAll lines (storeRecord l.record o) := rfl
    rw [hcons]
    refine ih ?_
    rw [storeRecord]
    split_ifs
    · dsimp only
      rw [List.foldl_append, ← h, blit_eq_foldl]
    · exact h

lemma storeAll_binLength (lines : List Line) (o : Out) :
    (storeAll lines o).binLength = match lastData lines with
      | none => o.binLength
      | some r => some (r.addr + r.data.length) := by
  induction lines using List.reverseRecOn with
  | nil => rfl
  | append_singleton lines l ih =>
    have hsnoc : storeAll (lines ++ [l]) o = storeRecord l.record (storeAll lines o) := by
      simp [storeAll]
    have hlast : lastData (lines ++ [l]) =
        if l.record.type = RECORD_DATA then some l.record else lastData lines := by
      unfold lastData
      rw [List.map_append, List.filter_append]
      split_ifs with hd
      · simp [hd]
      · simp [hd]
    rw [hsnoc, storeRecord, hlast]
    by_cases hd : l.record.type = RECORD_DATA
    · rw [if_pos hd, if_pos hd]
    · rw [if_neg hd, if_neg hd]
      exact ih

lemma placed_append (base : ℕ) (xs ys : List Line) :
    ∃ base', placed base (xs ++ ys) = placed base xs ++ placed base' ys := by
  induction xs generalizing base with
  | nil => exact ⟨base, rfl⟩
  | cons l xs ih =>
    obtain ⟨base', h⟩ := ih (nextBase base l.record)
    exact ⟨base', by rw [List.cons_append, placed, placed, h, List.append_assoc]⟩

lemma storesAt_eq_nil {a : ℕ} {bs : List UInt8} : storesAt a bs = [] ↔ bs = [] := by
  cases bs <;> simp [storesAt]

lemma placed_eq_nil {base : ℕ} {lines : List Line} : placed base lines = [] ↔
    ∀ l ∈ lines, l.record.type = RECORD_DATA → l.record.data = [] := by
  induction lines generalizing base with
  | nil => simp [placed]
  | cons l lines ih =>
    rw [placed, List.append_eq_nil_iff, ih, List.forall_mem_cons]
    refine and_congr_left fun _ => ?_
    by_cases hd : l.record.type = RECORD_DATA
    · simp [hd, storesAt_eq_nil]
    · simp [hd]

/-- The last store to an address is what is read there. -/
lemma foldl_put_last {l : List (ℕ × UInt8)} {i a : ℕ} {b : UInt8} (hi : l[i]? = some (a, b))
    (hlast : ∀ (j : ℕ) (y : ℕ × UInt8), i < j → l[j]? = some y → y.1 ≠ a) (m : ℕ → UInt8) :
    l.foldl (fun m x => put m x.1 x.2) m a = b := by
  induction l using List.reverseRecOn with
  | nil => simp at hi
  | append_singleton l x ih =>
    rw [List.foldl_append, List.foldl_cons, List.foldl_nil]
    by_cases hlt : i < l.length
    · have hx : x.1 ≠ a := hlast l.length x hlt (by simp)
      rw [put_ne _ _ hx.symm]
      refine ih ?_ fun j y hij hj => hlast j y hij ?_
      · rwa [List.getElem?_append_left hlt] at hi
      · rwa [List.getElem?_append_left (List.getElem?_eq_some_iff.mp hj).1]
    · have hlen := (List.getElem?_eq_some_iff.mp hi).1
      rw [List.length_append, List.length_singleton] at hlen
      obtain rfl : i = l.length := by omega
      have hx : x = (a, b) := by simpa using hi
      rw [hx]
      exact put_self _ _ _

/-- A run over a file whose lines fit, or the program stops before. -/
lemma processIntelHexFile_segmented {lines : List Line} (hseg : Segmented lines)
    (hfit : ∀ l ∈ reached lines, l.text.length ≤ MAX_LINE_LENGTH) (eof : EofLine)
    (lineHeap binHeap : ℕ → UInt8) :
    ∃ h, processIntelHexFile true true lineHeap binHeap (fileText lines eof) = (EFI_SUCCESS, h) ∧
      h.stores = rawStores (placed 0 (reached lines)) ∧
      (∃ m : ℕ → UInt8, h.buffer = h.stores.foldl (fun m x => put m x.1 x.2) m) ∧
      h.binLength = match lastData (reached lines) with
        | none => none
        | some r => some (r.addr + r.data.length) := by
  obtain ⟨h, hrun, hout⟩ := processIntelHexFile_file hseg.known hfit eof lineHeap binHeap
  have hstores : h.stores = (outOf h).stores := rfl
  have hbuffer : h.buffer = (outOf h).buffer := rfl
  have hlength : h.binLength = (outOf h).binLength := rfl
  refine ⟨h, hrun, ?_, ⟨blit binHeap 0 (List.replicate (fileText lines eof).length 0xFF), ?_⟩, ?_⟩
  · rw [hstores, hout, storeAll_stores 0]
    rfl
  · rw [hstores, hbuffer, hout]
    exact storeAll_buffer (reached lines) rfl
  · rw [hlength, hout, storeAll_binLength]
    rfl

/-- The data bytes of the lines that are reached come first; the others are never looked at. -/
lemma placed_split (lines : List Line) : ∃ base, placed 0 lines = placed 0 (reached lines) ++
    placed base (lines.dropWhile fun l => l.record.data ≠ []) := by
  obtain ⟨base, h⟩ := placed_append 0 (reached lines)
    (lines.dropWhile fun l => l.record.data ≠ [])
  refine ⟨base, ?_⟩
  rw [← h, reached, List.takeWhile_append_dropWhile]

lemma Honoured.placeable {lines : List Line} {n : ℕ} {h : Hex} (hh : Honoured lines n h)
    (hstores : h.stores = rawStores (placed 0 (reached lines)))
    (hlen : h.binLength = match lastData (reached lines) with
      | none => none
      | some r => some (r.addr + r.data.length)) : Placeable lines n := by
  obtain ⟨base, hsplit⟩ := placed_split lines
  have hstored := hstores.symm.trans hh.stored
  -- as many bytes were stored as there are, so none stand behind the last line looked at
  have hrest : placed base (lines.dropWhile fun l => l.record.data ≠ []) = [] := by
    have hcount := congrArg List.length hstored
    rw [hsplit] at hcount
    simp only [rawStores, List.length_map, List.length_append] at hcount
    exact List.length_eq_zero_iff.mp (by omega)
  rw [hrest, List.append_nil] at hsplit
  have hbase : ∀ x ∈ placed 0 lines, x.base = 0 := by
    intro x hx
    rw [← hsplit] at hstored
    have heq := List.map_inj_left.mp hstored x hx
    have hfull : x.addr = x.base + x.addr := (Prod.mk.inj heq).1
    omega
  refine ⟨placed_eq_nil.mp hrest, hbase, fun x hx => ?_⟩
  obtain ⟨hn, size, hsize, hlt⟩ := hh.inside x hx
  have hfull : x.full = x.addr := by rw [Placed.full, hbase x hx, Nat.zero_add]
  rw [hfull] at hn hlt
  refine ⟨hn, ?_⟩
  rw [hlen] at hsize
  cases hlast : lastData (reached lines) with
  | none => rw [hlast] at hsize; cases hsize
  | some r =>
    rw [hlast] at hsize
    injection hsize with hsize
    exact ⟨r, rfl, hsize ▸ hlt⟩

lemma Placeable.honoured {lines : List Line} {n : ℕ} {h : Hex} (hp : Placeable lines n)
    (hstores : h.stores = rawStores (placed 0 (reached lines)))
    (hbuffer : ∃ m : ℕ → UInt8, h.buffer = h.stores.foldl (fun m x => put m x.1 x.2) m)
    (hlen : h.binLength = match lastData (reached lines) with
      | none => none
      | some r => some (r.addr + r.data.length)) : Honoured lines n h := by
  obtain ⟨base, hsplit⟩ := placed_split lines
  rw [placed_eq_nil.mpr hp.whole, List.append_nil] at hsplit
  have hfull : ∀ x ∈ placed 0 lines, x.full = x.addr := fun x hx => by
    rw [Placed.full, hp.base x hx, Nat.zero_add]
  have hstored : h.stores = (placed 0 lines).map fun x => (x.full, x.byte) := by
    rw [hstores, ← hsplit]
    exact List.map_congr_left fun x hx => by rw [hfull x hx]
  refine ⟨hstored, fun x hx => ?_, fun i j x y _ hx hy _ => ?_, fun i x hx hlast => ?_⟩
  · obtain ⟨hn, r, hr, hlt⟩ := hp.inside x hx
    rw [hlen, hr, hfull x hx]
    exact ⟨hn, _, rfl, hlt⟩
  · rw [hp.base x (List.mem_of_getElem? hx), hp.base y (List.mem_of_getElem? hy)]
  · obtain ⟨m, hm⟩ := hbuffer
    rw [hm]
    refine foldl_put_last (i := i) ?_ (fun j y hij hy => ?_) m
    · rw [hstored, List.getElem?_map, hx]
      rfl
    · rw [hstored, List.getElem?_map, Option.map_eq_some_iff] at hy
      obtain ⟨z, hz, rfl⟩ := hy
      exact hlast j z hij hz

/-- **Extended addresses.** Success means that every data byte is at its full address exactly
for the files that are placed right without looking at the bases, and for those rejected for a
line that does not fit. -/
theorem processIntelHexFile_honoured_iff (lines : List Line) (hseg : Segmented lines)
    (eof : EofLine) :
    (∀ (lineAllocated binAllocated : Bool) (lineHeap binHeap : ℕ → UInt8),
      (processIntelHexFile lineAllocated binAllocated lineHeap binHeap (fileText lines eof)).1 =
          EFI_SUCCESS →
        Honoured lines (fileText lines eof).length
          (processIntelHexFile lineAllocated binAllocated lineHeap binHeap
            (fileText lines eof)).2) ↔
      (∃ l ∈ reached lines, MAX_LINE_LENGTH < l.text.length) ∨
        Placeable lines (fileText lines eof).length := by
  by_cases hlong : ∃ l ∈ reached lines, MAX_LINE_LENGTH < l.text.length
  · refine iff_of_true (fun lineAllocated binAllocated lineHeap binHeap hst => ?_) (Or.inl hlong)
    have hsmall : EFI_BUFFER_TOO_SMALL ≠ EFI_SUCCESS :=
        efiError_ne_success (efiError_maxBit 5)
    obtain ⟨rfl, rfl⟩ := allocated_of_success hst
    exact absurd hst (processIntelHexFile_file_long hseg.known hlong eof _ _ ▸ hsmall)
  have hfit : ∀ l ∈ reached lines, l.text.length ≤ MAX_LINE_LENGTH := fun l hl =>
    not_lt.mp fun hl' => hlong ⟨l, hl, hl'⟩
  constructor
  · intro hall
    obtain ⟨h, hrun, hstores, -, hlen⟩ := processIntelHexFile_segmented hseg hfit eof
      (fun _ => 0) (fun _ => 0)
    have hh := hall true true (fun _ => 0) (fun _ => 0) (by rw [hrun])
    rw [hrun] at hh
    exact Or.inr (hh.placeable hstores hlen)
  · intro hcond lineAllocated binAllocated lineHeap binHeap hst
    have hp := hcond.resolve_left hlong
    obtain ⟨rfl, rfl⟩ := allocated_of_success hst
    obtain ⟨h, hrun, hstores, hbuffer, hlen⟩ := processIntelHexFile_segmented hseg hfit eof
      lineHeap binHeap
    rw [hrun]
    exact hp.honoured hstores hbuffer hlen

/-- A segment base, a linear base of zero in its place, and one byte. -/
def flatLines : List Line :=
  [⟨ascii ":020000021000EC", [0x0A], ⟨RECORD_EXTENDED_SEGMENT_ADDRESS, 0, [0x10, 0]⟩, by decide,
      isEol_lf⟩,
    ⟨ascii ":020000040000FA", [0x0A], ⟨RECORD_EXTENDED_LINEAR_ADDRESS, 0, [0, 0]⟩, by decide,
      isEol_lf⟩,
    ⟨ascii ":0100000041BE", [0x0A], ⟨RECORD_DATA, 0, [0x41]⟩, by decide, isEol_lf⟩]

theorem processIntelHexFile_honoured_iff_flat :
    Honoured flatLines (fileText flatLines eofLine).length
      (processIntelHexFile true true (fun _ => 0) (fun _ => 0)
        (fileText flatLines eofLine)).2 := by
  have hseg : Segmented flatLines := by
    intro l hl
    simp only [flatLines, List.mem_cons, List.not_mem_nil, or_false] at hl
    rcases hl with rfl | rfl | rfl
    · exact Or.inr ⟨Or.inl rfl, rfl⟩
    · exact Or.inr ⟨Or.inr rfl, rfl⟩
    · exact Or.inl rfl
  have hplaced : placed 0 flatLines = [⟨0, 0, 0x41⟩] := rfl
  refine (processIntelHexFile_honoured_iff flatLines hseg eofLine).mpr (Or.inr ⟨?_, ?_, ?_⟩)
    true true (fun _ => 0) (fun _ => 0) ?_
  · decide
  · rw [hplaced]
    simp
  · rw [hplaced]
    intro x hx
    rw [List.mem_singleton.mp hx]
    exact ⟨by decide, ⟨RECORD_DATA, 0, [0x41]⟩, rfl, by decide⟩
  · obtain ⟨h, hrun, -⟩ := processIntelHexFile_segmented hseg (by decide) eofLine (fun _ => 0)
      (fun _ => 0)
    rw [hrun]

/-- One byte, at address 65536. -/
def highLines : List Line :=
  [⟨ascii ":020000040001F9", [0x0A], ⟨RECORD_EXTENDED_LINEAR_ADDRESS, 0, [0, 1]⟩, by decide,
      isEol_lf⟩,
    ⟨ascii ":0100000041BE", [0x0A], ⟨RECORD_DATA, 0, [0x41]⟩, by decide, isEol_lf⟩]

/-- The byte is stored at address zero of an image of one byte, and the file is accepted. -/
theorem processIntelHexFile_linear_base :
    ∃ h, processIntelHexFile true true (fun _ => 0) (fun _ => 0) (fileText highLines eofLine) =
        (EFI_SUCCESS, h) ∧ h.stores = [(0, 0x41)] ∧ h.binLength = some 1 ∧
      (placed 0 highLines).map Placed.full = [65536] ∧
      ¬ Honoured highLines (fileText highLines eofLine).length h := by
  have hseg : Segmented highLines := by
    intro l hl
    simp only [highLines, List.mem_cons, List.not_mem_nil, or_false] at hl
    rcases hl with rfl | rfl
    · exact Or.inr ⟨Or.inr rfl, rfl⟩
    · exact Or.inl rfl
  obtain ⟨h, hrun, hstores, -, hlen⟩ := processIntelHexFile_segmented hseg (by decide) eofLine
    (fun _ => 0) (fun _ => 0)
  have hstored : h.stores = [(0, 0x41)] := hstores
  refine ⟨h, hrun, hstored, hlen, rfl, fun hh => ?_⟩
  have hwant : h.stores = [(65536, 0x41)] := hh.stored
  rw [hstored] at hwant
  exact absurd hwant (by decide)

end UefiToolkit.HexAddress
