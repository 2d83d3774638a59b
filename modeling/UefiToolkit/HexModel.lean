import UefiToolkit.Word
import UefiToolkit.Mem

/-!
Turning an Intel HEX text into a binary image, as `HexToBin` does it.

The text that is left is a list; the line buffer and the output are memories from the
allocated address on, since nothing bounds the reads and the stores.
-/

namespace UefiToolkit.HexModel

open UefiToolkit.Word UefiToolkit.Mem

def RECORD_DATA : UInt8 := 0
def RECORD_END_OF_FILE : UInt8 := 1
def RECORD_EXTENDED_SEGMENT_ADDRESS : UInt8 := 2
def RECORD_START_SEGMENT_ADDRESS : UInt8 := 3
def RECORD_EXTENDED_LINEAR_ADDRESS : UInt8 := 4
def RECORD_START_LINEAR_ADDRESS : UInt8 := 5

def MAX_LINE_LENGTH : ℕ := 256
def INTEL_HEX_START_CODE : UInt8 := 0x3A

/-! ### Digits -/

/-- Another character is noted in the debug output and counts as zero. -/
def intelHexCharToHex (char : UInt8) : UInt8 :=
  if 0x30 ≤ char ∧ char ≤ 0x39 then char - 0x30
  else if 0x61 ≤ char ∧ char ≤ 0x66 then char - 0x61 + 10
  else if 0x41 ≤ char ∧ char ≤ 0x46 then char - 0x41 + 10
  else 0

def intelHexGetByte (m : ℕ → UInt8) (p : ℕ) : UInt8 :=
  intelHexCharToHex (m p) <<< 4 ||| intelHexCharToHex (m (p + 1))

def intelHexGetWord (m : ℕ → UInt8) (p : ℕ) : ℕ :=
  u16 ((intelHexGetByte m p).toNat <<< 8 ||| (intelHexGetByte m (p + 2)).toNat)

/-! ### Lines -/

def isBreak (char : UInt8) : Bool := char = 0x0D || char = 0x0A

/-- The length of the first line, its line break included. -/
def lineLength (buffer : List UInt8) : ℕ :=
  let ptrBuf := buffer.findIdx isBreak
  if buffer.length - 1 ≤ ptrBuf then buffer.length
  else if buffer.getD (ptrBuf + 1) 0 = 0x0A then ptrBuf + 2
  else ptrBuf + 1

def intelHexGetLine (buffer : List UInt8) (lineBuffer : ℕ → UInt8) (lineSize : ℕ) :
    Status × (ℕ → UInt8) × ℕ :=
  let length := lineLength buffer
  if lineSize < length then (EFI_BUFFER_TOO_SMALL, lineBuffer, length)
  else (EFI_SUCCESS,
    blit (blit lineBuffer 0 (List.replicate lineSize 0)) 0 (buffer.take length), length)

lemma lineLength_le (buffer : List UInt8) : lineLength buffer ≤ buffer.length := by
  unfold lineLength
  dsimp only
  split_ifs <;> omega

lemma lineLength_pos {buffer : List UInt8} (h : buffer ≠ []) : 0 < lineLength buffer := by
  have := List.length_pos_of_ne_nil h
  unfold lineLength
  dsimp only
  split_ifs <;> omega

lemma intelHexGetLine_length (buffer : List UInt8) (lineBuffer : ℕ → UInt8) (lineSize : ℕ) :
    (intelHexGetLine buffer lineBuffer lineSize).2.2 = lineLength buffer := by
  unfold intelHexGetLine
  dsimp only
  split_ifs <;> rfl

/-! ### The file -/

/-- What is given to `FreePool`. -/
inductive Freed
  | sourcePtrLine
  | buffer
  /-- `PtrLine`: a place in the line buffer, or what was on the stack before a line was read. -/
  | ptrLine (p : Option ℕ)

/-- The variables of `ProcessIntelHexFile`, and what it touched. -/
structure Hex where
  /-- The memory from `SourcePtrLine` on. -/
  line : ℕ → UInt8
  /-- The memory from `Buffer` on. -/
  buffer : ℕ → UInt8
  /-- Nothing until a data record assigns it. -/
  binLength : Option ℕ
  lineNumber : ℕ
  /-- The stores through `Buffer`, in order. -/
  stores : List (ℕ × UInt8)
  /-- The cells of the line buffer that were read. -/
  reads : List ℕ
  /-- The lines for which a checksum error was printed. -/
  printed : List ℕ
  /-- `PtrLine` as a place in the line buffer; nothing until a line is read. -/
  ptrLine : Option ℕ
  freed : List Freed

/-- The variables of the data loop. -/
structure Data where
  ptrLine : ℕ
  binLength : ℕ
  checkSum : ℕ
  buffer : ℕ → UInt8
  stores : List (ℕ × UInt8)
  reads : List ℕ

def dataByte (line : ℕ → UInt8) (x : Data) : Data :=
  let data := intelHexGetByte line x.ptrLine
  { ptrLine := x.ptrLine + 2
    binLength := x.binLength + 1
    checkSum := x.checkSum + data.toNat
    buffer := put x.buffer x.binLength data
    stores := x.stores ++ [(x.binLength, data)]
    reads := x.reads ++ [x.ptrLine, x.ptrLine + 1] }

/-- The data loop with `n` bytes left. -/
def dataLoop (line : ℕ → UInt8) : ℕ → Data → Data
  | 0, x => x
  | n + 1, x => dataLoop line n (dataByte line x)

/-- How a round of the line loop ends. -/
inductive Outcome
  | more (h : Hex)
  | leave (h : Hex)
  | fail (status : Status) (h : Hex)

/-- One line, in the line buffer. A wrong start code is only noted in the debug output. -/
def processLine (h : Hex) : Outcome :=
  let byteCount := intelHexGetByte h.line 1
  let h := { h with reads := h.reads ++ [0, 1, 2], ptrLine := some 1 }
  if byteCount = 0 then .leave h
  else
    let address := intelHexGetWord h.line 3
    let recordType := intelHexGetByte h.line 7
    let checkSum := byteCount.toNat + (intelHexGetByte h.line 3).toNat +
      (intelHexGetByte h.line 5).toNat + recordType.toNat
    let h := { h with reads := h.reads ++ [3, 4, 5, 6, 7, 8], ptrLine := some 9 }
    if recordType = RECORD_DATA then
      let x := dataLoop h.line byteCount.toNat ⟨9, address, checkSum, h.buffer, h.stores, h.reads⟩
      let checkSum := x.checkSum + (intelHexGetByte h.line x.ptrLine).toNat
      .more { h with
        buffer := x.buffer
        binLength := some x.binLength
        stores := x.stores
        reads := x.reads ++ [x.ptrLine, x.ptrLine + 1]
        -- a bad checksum is printed, and the line counts all the same
        printed := if checkSum % 2 ^ 8 ≠ 0 then h.printed ++ [h.lineNumber] else h.printed
        ptrLine := some x.ptrLine
        lineNumber := h.lineNumber + 1 }
    else if recordType = RECORD_END_OF_FILE then .more { h with lineNumber := h.lineNumber + 1 }
    else if recordType = RECORD_EXTENDED_SEGMENT_ADDRESS ∨
        recordType = RECORD_START_SEGMENT_ADDRESS ∨
        recordType = RECORD_EXTENDED_LINEAR_ADDRESS ∨
        recordType = RECORD_START_LINEAR_ADDRESS then
      .more { h with lineNumber := h.lineNumber + 1 }
    else .fail EFI_UNSUPPORTED h

/-- What a line that is too long leads to: not the line buffer is freed, but `PtrLine`, which is the
place the line before was read up to. -/
def freeBoth (h : Hex) : Hex := { h with freed := h.freed ++ [.ptrLine h.ptrLine, .buffer] }

/-- `while (CurrentPtr < BufferEnd)`, with the text from `CurrentPtr` on. -/
def lineLoop (source : List UInt8) (h : Hex) : Status × Hex :=
  if source = [] then (EFI_SUCCESS, h)
  else
    let r := intelHexGetLine source h.line MAX_LINE_LENGTH
    if efiError r.1 then (r.1, freeBoth h)
    else
      match processLine { h with line := r.2.1 } with
      | .more h => lineLoop (source.drop r.2.2) h
      | .leave h => (EFI_SUCCESS, h)
      | .fail status h => (status, h)
termination_by source.length
decreasing_by
  have := lineLength_pos ‹_›
  have := List.length_pos_of_ne_nil ‹source ≠ []›
  rw [intelHexGetLine_length, List.length_drop]
  omega

/-- What comes after the loop: an error has already returned. -/
def freeLine (r : Status × Hex) : Status × Hex :=
  if efiError r.1 then r else (r.1, { r.2 with freed := r.2.freed ++ [.sourcePtrLine] })

/-- `lineHeap` and `binHeap` are the two buffers as they are allocated. On success the caller is
given `buffer`, and `binLength` as its size; a type that is not known leaves without freeing. -/
def processIntelHexFile (lineAllocated binAllocated : Bool) (lineHeap binHeap : ℕ → UInt8)
    (text : List UInt8) : Status × Hex :=
  let h : Hex := ⟨lineHeap, binHeap, none, 0, [], [], [], none, []⟩
  if !lineAllocated then (EFI_OUT_OF_RESOURCES, h)
  else if !binAllocated then (EFI_OUT_OF_RESOURCES, h)
  else
    let h := { h with buffer := blit binHeap 0 (List.replicate text.length 0xFF) }
    freeLine (lineLoop text h)

end UefiToolkit.HexModel
