import UefiToolkit.HexRecord

/-!
Runs over the lines of a well-formed file.

A round of the line loop that meets a record with data stores the data and goes on; it stops at
a record without data, and fails at a line that does not fit the line buffer.
-/

namespace UefiToolkit.HexRun

open UefiToolkit.Word UefiToolkit.Mem UefiToolkit.HexModel UefiToolkit.HexRecord

/-! ### Files -/

def IsEol (eol : List UInt8) : Prop := eol = [0x0D] ∨ eol = [0x0A] ∨ eol = [0x0D, 0x0A]

lemma isEol_lf : IsEol [0x0A] := Or.inr (Or.inl rfl)
lemma isEol_crlf : IsEol [0x0D, 0x0A] := Or.inr (Or.inr rfl)

/-- A record line with its line break. -/
structure Line where
  chars : List UInt8
  eol : List UInt8
  record : Rec
  parses : parseRecord chars = some record
  ends : IsEol eol

def Line.text (l : Line) : List UInt8 := l.chars ++ l.eol

/-- The end-of-file record, with or without a line break. -/
structure EofLine where
  chars : List UInt8
  eol : List UInt8
  addr : ℕ
  parses : parseRecord chars = some ⟨RECORD_END_OF_FILE, addr, []⟩
  ends : eol = [] ∨ IsEol eol

def EofLine.text (x : EofLine) : List UInt8 := x.chars ++ x.eol

def fileText (lines : List Line) (eof : EofLine) : List UInt8 :=
  lines.flatMap Line.text ++ eof.text

/-- The characters of a string of ASCII. -/
def ascii (s : String) : List UInt8 := s.toList.map fun c => UInt8.ofNat c.toNat

/-- `:00000001FF`, without a line break. -/
def eofLine : EofLine := ⟨ascii ":00000001FF", [], 0, by decide, Or.inl rfl⟩

lemma fileText_cons (l : Line) (lines : List Line) (eof : EofLine) :
    fileText (l :: lines) eof = l.text ++ fileText lines eof := by
  simp [fileText, List.append_assoc]

lemma parseRecord_head {cs : List UInt8} {r : Rec} (h : parseRecord cs = some r) :
    ∃ ds, cs = INTEL_HEX_START_CODE :: ds := by
  obtain ⟨ds, -, hcs, -⟩ := parseRecord_spec h
  exact ⟨ds, hcs⟩

/-- What follows a line break in a file is a start code. -/
lemma fileText_head (lines : List Line) (eof : EofLine) :
    (fileText lines eof).head? = some INTEL_HEX_START_CODE := by
  cases lines with
  | nil =>
    obtain ⟨ds, hds⟩ := parseRecord_head eof.parses
    simp [fileText, EofLine.text, hds]
  | cons l lines =>
    obtain ⟨ds, hds⟩ := parseRecord_head l.parses
    simp [fileText_cons, Line.text, hds]

/-! ### Cutting lines -/

lemma findIdx_isBreak {cs : List UInt8} (hcs : ∀ c ∈ cs, isBreak c = false) (l : List UInt8) :
    (cs ++ l).findIdx isBreak = cs.length + l.findIdx isBreak := by
  have hall : cs.findIdx isBreak = cs.length := List.findIdx_eq_length.mpr hcs
  rw [List.findIdx_append, hall, if_neg (lt_irrefl _), Nat.add_comm]

lemma lineLength_plain {cs : List UInt8} (hcs : ∀ c ∈ cs, isBreak c = false) :
    lineLength cs = cs.length := by
  have h := findIdx_isBreak hcs []
  rw [List.append_nil, List.findIdx_nil, Nat.add_zero] at h
  unfold lineLength
  dsimp only
  rw [h, if_pos (Nat.sub_le _ _)]

lemma lineLength_eol {cs eol rest : List UInt8} (hcs : ∀ c ∈ cs, isBreak c = false)
    (heol : IsEol eol) (hrest : rest.head? ≠ some 0x0A) :
    lineLength (cs ++ eol ++ rest) = (cs ++ eol).length := by
  have h := findIdx_isBreak hcs (eol ++ rest)
  have hbreak : (eol ++ rest).findIdx isBreak = 0 := by
    rcases heol with rfl | rfl | rfl <;> rfl
  have hnext : (cs ++ (eol ++ rest)).getD (cs.length + 1) 0 = (eol ++ rest).getD 1 0 := by
    simp [List.getD_eq_getElem?_getD, List.getElem?_append_right]
  rw [hbreak, Nat.add_zero] at h
  unfold lineLength
  dsimp only
  rw [List.append_assoc, h, hnext]
  simp only [List.length_append]
  rcases heol with rfl | rfl | rfl
  · cases rest with
    | nil => simp
    | cons c rest =>
      have hc : c ≠ 0x0A := fun hc => hrest (by rw [hc]; rfl)
      simp [hc]
  · cases rest with
    | nil => simp
    | cons c rest =>
      have hc : c ≠ 0x0A := fun hc => hrest (by rw [hc]; rfl)
      simp [hc]
  · rw [if_neg (by simp; omega)]
    rfl

/-- The line buffer after a line was copied into it. -/
def lineCells (line : ℕ → UInt8) (cs : List UInt8) : ℕ → UInt8 :=
  blit (blit line 0 (List.replicate MAX_LINE_LENGTH 0)) 0 cs

/-- One round, on a text that begins with a given line. -/
lemma lineLoop_line (cs rest : List UInt8) (hne : cs ≠ [])
    (hlen : lineLength (cs ++ rest) = cs.length) (hfit : cs.length ≤ MAX_LINE_LENGTH) (h : Hex) :
    lineLoop (cs ++ rest) h = match processLine { h with line := lineCells h.line cs } with
      | .more h => lineLoop rest h
      | .leave h => (EFI_SUCCESS, h)
      | .fail status h => (status, h) := by
  have hget : intelHexGetLine (cs ++ rest) h.line MAX_LINE_LENGTH =
      (EFI_SUCCESS, lineCells h.line cs, cs.length) := by
    unfold intelHexGetLine lineCells
    dsimp only
    rw [hlen, if_neg (by omega), List.take_left' rfl]
  rw [lineLoop, if_neg (by simp [hne])]
  dsimp only
  rw [hget, if_neg (by simp)]
  dsimp only
  cases processLine { h with line := lineCells h.line cs } with
  | more h' => exact congrArg (lineLoop · h') (List.drop_left' rfl)
  | leave h' => rfl
  | fail status h' => rfl

lemma lineLoop_long (cs rest : List UInt8) (hlen : lineLength (cs ++ rest) = cs.length)
    (hlong : MAX_LINE_LENGTH < cs.length) (h : Hex) :
    lineLoop (cs ++ rest) h = (EFI_BUFFER_TOO_SMALL, freeBoth h) := by
  have hne : cs ++ rest ≠ [] := by
    intro hnil
    rw [List.append_eq_nil_iff] at hnil
    rw [hnil.1] at hlong
    simp at hlong
  rw [lineLoop, if_neg hne]
  unfold intelHexGetLine
  dsimp only
  rw [hlen, if_pos hlong,
    if_pos (show efiError EFI_BUFFER_TOO_SMALL = true by decide)]

/-- What follows a round, on the text that is left. -/
def Outcome.next (rest : List UInt8) : Outcome → Status × Hex
  | .more h => lineLoop rest h
  | .leave h => (EFI_SUCCESS, h)
  | .fail status h => (status, h)

/-- The three ways a round can go on a text. -/
lemma lineLoop_cases (text : List UInt8) (h : Hex) :
    (text = [] ∧ lineLoop text h = (EFI_SUCCESS, h)) ∨
    (text ≠ [] ∧ MAX_LINE_LENGTH < lineLength text ∧
      lineLoop text h = (EFI_BUFFER_TOO_SMALL, freeBoth h)) ∨
    (text ≠ [] ∧ lineLength text ≤ MAX_LINE_LENGTH ∧
      (text.take (lineLength text)).length = lineLength text ∧
      (text.drop (lineLength text)).length < text.length ∧
      lineLoop text h = Outcome.next (text.drop (lineLength text))
        (processLine { h with line := lineCells h.line (text.take (lineLength text)) })) := by
  by_cases hnil : text = []
  · subst hnil
    rw [lineLoop, if_pos rfl]
    exact Or.inl ⟨rfl, rfl⟩
  refine Or.inr ?_
  have hsplit : text.take (lineLength text) ++ text.drop (lineLength text) = text :=
    List.take_append_drop _ _
  have hlen : (text.take (lineLength text)).length = lineLength text :=
    List.length_take_of_le (lineLength_le text)
  have hpos := lineLength_pos hnil
  by_cases hlong : MAX_LINE_LENGTH < lineLength text
  · have hrun := lineLoop_long (text.take (lineLength text)) (text.drop (lineLength text))
      (by rw [hsplit, hlen]) (by rw [hlen]; exact hlong) h
    rw [hsplit] at hrun
    exact Or.inl ⟨hnil, hlong, hrun⟩
  · have hne : text.take (lineLength text) ≠ [] := fun h0 => by
      rw [h0, List.length_nil] at hlen
      omega
    have hrun := lineLoop_line (text.take (lineLength text)) (text.drop (lineLength text)) hne
      (by rw [hsplit, hlen]) (by rw [hlen]; omega) h
    rw [hsplit] at hrun
    have hshort : (text.drop (lineLength text)).length < text.length := by
      have := List.length_pos_of_ne_nil hnil
      rw [List.length_drop]
      omega
    refine Or.inr ⟨hnil, by omega, hlen, hshort, hrun.trans ?_⟩
    cases processLine { h with line := lineCells h.line (text.take (lineLength text)) } <;> rfl

/-! ### One record -/

/-- The stores of a list of bytes from address `a` on. -/
def storesAt (a : ℕ) : List UInt8 → List (ℕ × UInt8)
  | [] => []
  | b :: bs => (a, b) :: storesAt (a + 1) bs

/-- The output, as far as it was made. -/
structure Out where
  buffer : ℕ → UInt8
  binLength : Option ℕ
  stores : List (ℕ × UInt8)

def outOf (h : Hex) : Out := ⟨h.buffer, h.binLength, h.stores⟩

/-- What a record does to the output: the address it stores at is its own, whatever the
records before it were. -/
def storeRecord (r : Rec) (o : Out) : Out :=
  if r.type = RECORD_DATA then
    ⟨blit o.buffer r.addr r.data, some (r.addr + r.data.length), o.stores ++ storesAt r.addr r.data⟩
  else o

lemma dataLoop_spec (line : ℕ → UInt8) (n : ℕ) (x : Data) :
    (dataLoop line n x).binLength = x.binLength + n ∧
      (dataLoop line n x).buffer = blit x.buffer x.binLength (bytesAt line x.ptrLine n) ∧
      (dataLoop line n x).stores =
        x.stores ++ storesAt x.binLength (bytesAt line x.ptrLine n) := by
  induction n generalizing x with
  | zero => exact ⟨rfl, (blit_nil _ _).symm, (List.append_nil _).symm⟩
  | succ n ih =>
    obtain ⟨hlen, hbuf, hst⟩ := ih (dataByte line x)
    refine ⟨?_, ?_, ?_⟩
    · rw [dataLoop, hlen, dataByte]
      dsimp only
      omega
    · rw [dataLoop, hbuf, bytesAt_succ, dataByte]
      dsimp only
      rw [put_eq_blit]
      exact blit_append x.buffer x.binLength [intelHexGetByte line x.ptrLine]
        (bytesAt line (x.ptrLine + 2) n)
    · rw [dataLoop, hst, bytesAt_succ, dataByte]
      dsimp only
      rw [storesAt, List.append_assoc]
      rfl

lemma blit_eq_foldl (m : ℕ → UInt8) (a : ℕ) (bs : List UInt8) :
    blit m a bs = (storesAt a bs).foldl (fun m x => put m x.1 x.2) m := by
  induction bs generalizing m a with
  | nil => exact blit_nil m a
  | cons b bs ih =>
    rw [storesAt, List.foldl_cons, ← ih, put_eq_blit]
    exact (blit_append m a [b] bs).symm

/-- A type the program knows. -/
def Known (t : UInt8) : Prop :=
  t = RECORD_DATA ∨ t = RECORD_END_OF_FILE ∨ t = RECORD_EXTENDED_SEGMENT_ADDRESS ∨
    t = RECORD_START_SEGMENT_ADDRESS ∨ t = RECORD_EXTENDED_LINEAR_ADDRESS ∨
    t = RECORD_START_LINEAR_ADDRESS

lemma processLine_more {h : Hex} {r : Rec} (hr : Reads h.line r) (hdata : r.data ≠ [])
    (hknown : Known r.type) :
    ∃ h', processLine h = .more h' ∧ outOf h' = storeRecord r (outOf h) := by
  have hcount : ¬ intelHexGetByte h.line 1 = 0 := by
    intro h0
    have hn := hr.count
    rw [h0] at hn
    exact hdata (List.length_eq_zero_iff.mp hn.symm)
  unfold processLine
  dsimp only
  rw [if_neg hcount, hr.type, hr.addr, hr.count]
  by_cases hd : r.type = RECORD_DATA
  · rw [if_pos hd]
    refine ⟨_, rfl, ?_⟩
    rw [storeRecord, if_pos hd]
    obtain ⟨hlen, hbuf, hst⟩ := dataLoop_spec h.line r.data.length
      ⟨9, r.addr, r.data.length + (intelHexGetByte h.line 3).toNat +
        (intelHexGetByte h.line 5).toNat + r.type.toNat, h.buffer, h.stores,
        h.reads ++ [0, 1, 2] ++ [3, 4, 5, 6, 7, 8]⟩
    rw [hr.data] at hbuf hst
    simp only [outOf]
    rw [hlen, hbuf, hst]
  · rw [if_neg hd, storeRecord, if_neg hd]
    by_cases he : r.type = RECORD_END_OF_FILE
    · rw [if_pos he]
      exact ⟨_, rfl, rfl⟩
    · rw [if_neg he, if_pos ((hknown.resolve_left hd).resolve_left he)]
      exact ⟨_, rfl, rfl⟩

/-- A record without data ends the file. -/
lemma processLine_leave {h : Hex} {r : Rec} (hr : Reads h.line r) (hdata : r.data = []) :
    ∃ h', processLine h = .leave h' ∧ outOf h' = outOf h := by
  have hcount : intelHexGetByte h.line 1 = 0 := by
    apply UInt8.toNat_inj.mp
    rw [hr.count, hdata]
    rfl
  unfold processLine
  dsimp only
  rw [if_pos hcount]
  exact ⟨_, rfl, rfl⟩

lemma reads_lineCells {cs eol : List UInt8} {r : Rec} (h : parseRecord cs = some r)
    (line : ℕ → UInt8) : Reads (lineCells line (cs ++ eol)) r :=
  reads_of_parseRecord h (by
    have hall : slice (lineCells line (cs ++ eol)) 0 (cs ++ eol).length = [] ++ cs ++ eol :=
      slice_blit _ 0 (cs ++ eol)
    exact slice_mid hall)

/-! ### The loop on a file -/

lemma Line.length_text (l : Line) :
    l.text.length = 11 + 2 * l.record.data.length + l.eol.length := by
  rw [Line.text, List.length_append, parseRecord_length l.parses]

lemma isEol_length {eol : List UInt8} (h : IsEol eol) : 1 ≤ eol.length ∧ eol.length ≤ 2 := by
  rcases h with rfl | rfl | rfl <;> decide

lemma Line.lineLength (l : Line) (lines : List Line) (eof : EofLine) :
    lineLength (l.text ++ fileText lines eof) = l.text.length :=
  lineLength_eol (parseRecord_break l.parses) l.ends (by
    rw [fileText_head]
    decide)

lemma Line.text_ne_nil (l : Line) : l.text ≠ [] := by
  intro h
  have := l.length_text
  rw [h, List.length_nil] at this
  omega

lemma lineLoop_more {l : Line} (hdata : l.record.data ≠ []) (hknown : Known l.record.type)
    (hfit : l.text.length ≤ MAX_LINE_LENGTH) (lines : List Line) (eof : EofLine) (h : Hex) :
    ∃ h', lineLoop (fileText (l :: lines) eof) h = lineLoop (fileText lines eof) h' ∧
      outOf h' = storeRecord l.record (outOf h) := by
  obtain ⟨h', hp, hout⟩ := processLine_more
    (h := { h with line := lineCells h.line l.text }) (reads_lineCells l.parses h.line)
    hdata hknown
  refine ⟨h', ?_, hout⟩
  rw [fileText_cons, lineLoop_line _ _ l.text_ne_nil (l.lineLength lines eof) hfit h, hp]

lemma lineLoop_leave {l : Line} (hdata : l.record.data = []) (lines : List Line) (eof : EofLine)
    (h : Hex) :
    ∃ h', lineLoop (fileText (l :: lines) eof) h = (EFI_SUCCESS, h') ∧ outOf h' = outOf h := by
  obtain ⟨h', hp, hout⟩ := processLine_leave
    (h := { h with line := lineCells h.line l.text }) (reads_lineCells l.parses h.line) hdata
  refine ⟨h', ?_, hout⟩
  have hfit : l.text.length ≤ MAX_LINE_LENGTH := by
    have heol := (isEol_length l.ends).2
    rw [l.length_text, hdata, List.length_nil, MAX_LINE_LENGTH]
    omega
  rw [fileText_cons, lineLoop_line _ _ l.text_ne_nil (l.lineLength lines eof) hfit h, hp]

lemma lineLoop_eof (eof : EofLine) (h : Hex) :
    ∃ h', lineLoop (fileText [] eof) h = (EFI_SUCCESS, h') ∧ outOf h' = outOf h := by
  obtain ⟨h', hp, hout⟩ := processLine_leave
    (h := { h with line := lineCells h.line eof.text }) (reads_lineCells eof.parses h.line) rfl
  refine ⟨h', ?_, hout⟩
  have hchars := parseRecord_length eof.parses
  have htext : eof.text.length = 11 + eof.eol.length := by
    rw [EofLine.text, List.length_append, hchars]
    rfl
  have heol : eof.eol.length ≤ 2 := by
    rcases eof.ends with h0 | h0
    · rw [h0]; decide
    · exact (isEol_length h0).2
  have hcut : lineLength (eof.text ++ []) = eof.text.length := by
    rcases eof.ends with h0 | h0
    · rw [List.append_nil, EofLine.text, h0, List.append_nil]
      exact lineLength_plain (parseRecord_break eof.parses)
    · exact lineLength_eol (parseRecord_break eof.parses) h0 (by simp)
  have hne : eof.text ≠ [] := fun h0 => by
    rw [h0, List.length_nil] at htext
    omega
  have hrun := lineLoop_line _ [] hne hcut (by rw [MAX_LINE_LENGTH]; omega) h
  rw [List.append_nil, hp] at hrun
  exact hrun

/-- The lines before the first record without data: the ones the program looks at. -/
def reached (lines : List Line) : List Line := lines.takeWhile fun l => l.record.data ≠ []

lemma reached_cons {l : Line} (h : l.record.data ≠ []) (lines : List Line) :
    reached (l :: lines) = l :: reached lines := List.takeWhile_cons_of_pos (by simpa using h)

lemma reached_stop {l : Line} (h : l.record.data = []) (lines : List Line) :
    reached (l :: lines) = [] := List.takeWhile_cons_of_neg (by simpa using h)

/-- The output after some records. -/
def storeAll (lines : List Line) (o : Out) : Out :=
  lines.foldl (fun o l => storeRecord l.record o) o

lemma lineLoop_file {lines : List Line} (hknown : ∀ l ∈ lines, Known l.record.type)
    (hfit : ∀ l ∈ reached lines, l.text.length ≤ MAX_LINE_LENGTH) (eof : EofLine) (h : Hex) :
    ∃ h', lineLoop (fileText lines eof) h = (EFI_SUCCESS, h') ∧
      outOf h' = storeAll (reached lines) (outOf h) := by
  induction lines generalizing h with
  | nil => exact lineLoop_eof eof h
  | cons l lines ih =>
    by_cases hdata : l.record.data = []
    · rw [reached_stop hdata]
      exact lineLoop_leave hdata lines eof h
    · rw [reached_cons hdata] at hfit ⊢
      obtain ⟨h₁, hrun₁, hout₁⟩ := lineLoop_more hdata (hknown l (by simp))
        (hfit l (by simp)) lines eof h
      obtain ⟨h₂, hrun₂, hout₂⟩ := ih (fun x hx => hknown x (by simp [hx]))
        (fun x hx => hfit x (by simp [hx])) h₁
      refine ⟨h₂, hrun₁.trans hrun₂, ?_⟩
      rw [hout₂, hout₁]
      rfl

/-- A line that does not fit ends the run, if it is reached. -/
lemma lineLoop_file_long {lines : List Line} (hknown : ∀ l ∈ lines, Known l.record.type)
    (hlong : ∃ l ∈ reached lines, MAX_LINE_LENGTH < l.text.length) (eof : EofLine) (h : Hex) :
    (lineLoop (fileText lines eof) h).1 = EFI_BUFFER_TOO_SMALL := by
  induction lines generalizing h with
  | nil => simp [reached] at hlong
  | cons l lines ih =>
    by_cases hdata : l.record.data = []
    · rw [reached_stop hdata] at hlong
      simp at hlong
    · rw [reached_cons hdata] at hlong
      by_cases hl : MAX_LINE_LENGTH < l.text.length
      · rw [fileText_cons, lineLoop_long _ _ (l.lineLength lines eof) hl]
      · obtain ⟨h₁, hrun₁, -⟩ := lineLoop_more hdata (hknown l (by simp)) (by omega) lines eof h
        rw [hrun₁]
        refine ih (fun x hx => hknown x (by simp [hx])) ?_ h₁
        obtain ⟨x, hx, hlx⟩ := hlong
        rcases List.mem_cons.mp hx with rfl | hx
        · exact absurd hlx hl
        · exact ⟨x, hx, hlx⟩

/-! ### The program -/

/-- The variables before the first line, for a text of `n` bytes. -/
def start (lineHeap binHeap : ℕ → UInt8) (n : ℕ) : Hex :=
  ⟨lineHeap, blit binHeap 0 (List.replicate n 0xFF), none, 0, [], [], [], none, []⟩

/-- With both buffers the program is the line loop, and frees afterwards. -/
lemma processIntelHexFile_allocated (lineHeap binHeap : ℕ → UInt8) (text : List UInt8) :
    processIntelHexFile true true lineHeap binHeap text =
      freeLine (lineLoop text (start lineHeap binHeap text.length)) := rfl

@[simp] lemma freeLine_status (r : Status × Hex) : (freeLine r).1 = r.1 := by
  unfold freeLine
  split_ifs <;> rfl

@[simp] lemma freeLine_line (r : Status × Hex) : (freeLine r).2.line = r.2.line := by
  unfold freeLine
  split_ifs <;> rfl

@[simp] lemma freeLine_reads (r : Status × Hex) : (freeLine r).2.reads = r.2.reads := by
  unfold freeLine
  split_ifs <;> rfl

@[simp] lemma freeLine_out (r : Status × Hex) : outOf (freeLine r).2 = outOf r.2 := by
  unfold freeLine
  split_ifs <;> rfl

lemma processIntelHexFile_file {lines : List Line} (hknown : ∀ l ∈ lines, Known l.record.type)
    (hfit : ∀ l ∈ reached lines, l.text.length ≤ MAX_LINE_LENGTH) (eof : EofLine)
    (lineHeap binHeap : ℕ → UInt8) :
    ∃ h, processIntelHexFile true true lineHeap binHeap (fileText lines eof) = (EFI_SUCCESS, h) ∧
      outOf h = storeAll (reached lines)
        (outOf (start lineHeap binHeap (fileText lines eof).length)) := by
  obtain ⟨h, hrun, hout⟩ := lineLoop_file hknown hfit eof
    (start lineHeap binHeap (fileText lines eof).length)
  have hstatus := freeLine_status (EFI_SUCCESS, h)
  rw [processIntelHexFile_allocated, hrun]
  exact ⟨(freeLine (EFI_SUCCESS, h)).2, Prod.ext hstatus rfl,
    (freeLine_out (EFI_SUCCESS, h)).trans hout⟩

lemma processIntelHexFile_file_long {lines : List Line}
    (hknown : ∀ l ∈ lines, Known l.record.type)
    (hlong : ∃ l ∈ reached lines, MAX_LINE_LENGTH < l.text.length) (eof : EofLine)
    (lineHeap binHeap : ℕ → UInt8) :
    (processIntelHexFile true true lineHeap binHeap (fileText lines eof)).1 =
      EFI_BUFFER_TOO_SMALL := by
  rw [processIntelHexFile_allocated, freeLine_status]
  exact lineLoop_file_long hknown hlong eof _

/-- Success takes both buffers. -/
lemma allocated_of_success {lineAllocated binAllocated : Bool} {lineHeap binHeap : ℕ → UInt8}
    {text : List UInt8}
    (h : (processIntelHexFile lineAllocated binAllocated lineHeap binHeap text).1 = EFI_SUCCESS) :
    lineAllocated = true ∧ binAllocated = true := by
  have hoom : EFI_OUT_OF_RESOURCES ≠ EFI_SUCCESS := efiError_ne_success (efiError_maxBit 9)
  cases lineAllocated with
  | false => exact absurd h hoom
  | true =>
    cases binAllocated with
    | false => exact absurd h hoom
    | true => exact ⟨rfl, rfl⟩

end UefiToolkit.HexRun
