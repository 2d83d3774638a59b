import UefiToolkit.Word
import UefiToolkit.Mem
import UefiToolkit.LineEditor

/-!
Reading a command line at the console, as `UefiConsoleInRead` does it.

The caller's buffer is a memory of characters. The history is a ring of lines behind a list
head: a place of it is an index, and none for the head. The index `(UINTN) - 1` of
`Update` is none as well.
-/

namespace UefiToolkit.ConsoleModel

open UefiToolkit.Word UefiToolkit.LineEditor

def CHAR_NULL : UInt16 := 0
def CHAR_BACKSPACE : UInt16 := 0x08
def CHAR_CARRIAGE_RETURN : UInt16 := 0x0D

def SCAN_UP : UInt16 := 0x01
def SCAN_DOWN : UInt16 := 0x02
def SCAN_RIGHT : UInt16 := 0x03
def SCAN_LEFT : UInt16 := 0x04
def SCAN_HOME : UInt16 := 0x05
def SCAN_END : UInt16 := 0x06
def SCAN_DELETE : UInt16 := 0x08
def SCAN_ESC : UInt16 := 0x17

/-- `(UINTN) - 1`. -/
def UINTN_MAX : ℕ := 2 ^ 64 - 1

/-- `EFI_INPUT_KEY`. -/
structure Key where
  scanCode : UInt16
  unicodeChar : UInt16
  deriving DecidableEq

/-- The answer of `ReadKeyStroke`: a key, or an error status. -/
inductive KeyStroke where
  | key (k : Key)
  | error (s : Status)
  deriving DecidableEq

/-- What is done to the screen. `print` stands for the format `%s%.*s` with the string and the
precision; the call gives no third argument, and what the second `%s` takes instead is not known. -/
inductive Output where
  | setCursorPosition (column row : ℕ)
  | print (string : List UInt16) (precision : ℕ)
  | newline
  deriving DecidableEq

/-- The console: its mode, the cursor as the call finds it, the answers of
`SetCursorPosition`. -/
structure Console where
  totalColumn : ℕ
  totalRow : ℕ
  cursorColumn : ℕ
  cursorRow : ℕ
  setCursorPosition : ℕ → ℕ → Status
  totalColumn_pos : 0 < totalColumn

/-! ### Strings -/

def isChar (c : UInt16) : Bool := c ≠ CHAR_NULL

/-- A string of the heap: the characters before its terminator. -/
structure CStr where
  chars : List UInt16
  isChar_of_mem : ∀ c ∈ chars, isChar c = true

/-- The string at cell `p` of a buffer of `size` cells. -/
def strAt (size : ℕ) (m : ℕ → UInt16) (p : ℕ) : CStr :=
  ⟨(Mem.slice m p (size - p)).takeWhile isChar, fun _ => List.mem_takeWhile_imp⟩

def strLen (size : ℕ) (m : ℕ → UInt16) : ℕ := (strAt size m 0).chars.length

/-- `CopyMem` inside the buffer. -/
def copyMem (m : ℕ → UInt16) (dst src n : ℕ) : ℕ → UInt16 := Mem.blit m dst (Mem.slice m src n)

/-- `SetMem` with zero. -/
def zeroMem (m : ℕ → UInt16) (dst n : ℕ) : ℕ → UInt16 :=
  Mem.blit m dst (List.replicate n CHAR_NULL)

/-! ### The history -/

def MaxHistoryCmdCount : ℕ := 0x20

/-- `allocated` tells whether the pool has room for the node and for the copy of the line. -/
def addLineToCommandHistory (allocated : Bool × Bool) (history : List CStr) (line : CStr) :
    List CStr :=
  if allocated.1 = false ∨ allocated.2 = false then history
  else if u16 history.length < MaxHistoryCmdCount then history ++ [line]
  else history.tail ++ [line]

/-! ### The cursor -/

def moveCursorBackward (lineLength : ℕ) (column row : ℕ) : ℕ × ℕ :=
  if column = 0 then (sub64 lineLength 1, if 0 < row then row - 1 else row)
  else (column - 1, row)

def moveCursorForward (lineLength totalRow : ℕ) (column row : ℕ) : ℕ × ℕ :=
  let column := add64 column 1
  if lineLength ≤ column then (0, if row < sub64 totalRow 1 then add64 row 1 else row)
  else (column, row)

/-! ### One key -/

/-- The local variables of the read loop. -/
structure InRead (n : ℕ) where
  currentString : ℕ → UInt16
  column : ℕ
  row : ℕ
  update : Option ℕ
  delete : ℕ
  stringLen : ℕ
  stringCurPos : ℕ
  outputLength : ℕ
  linePos : Option (Fin n)
  newPos : Option (Fin n)
  screen : List Output

section Key

variable {n : ℕ} (con : Console) (maxStr size : ℕ)

/-- The tail of the line, `StringLen - StringCurPos` characters behind a column. -/
def tailColumn (s : InRead n) (column : ℕ) : ℕ :=
  add64 (sub64 s.stringLen s.stringCurPos) column % con.totalColumn

def tailRow (s : InRead n) (column : ℕ) : ℕ :=
  add64 s.row (add64 (sub64 s.stringLen s.stringCurPos) column / con.totalColumn)

/-- The row of the first character. -/
def firstRow (s : InRead n) : ℕ :=
  sub64 s.row (add64 s.stringCurPos con.cursorColumn / con.totalColumn)

def backspaceKey (s : InRead n) : InRead n :=
  if s.stringCurPos = 0 then s
  else
    let pos := s.stringCurPos - 1
    let (column, row) := moveCursorBackward con.totalColumn s.column s.row
    { s with
      currentString := copyMem s.currentString pos (pos + 1) (sub64 s.stringLen pos)
      stringCurPos := pos, update := some pos, delete := 1, column := column, row := row }

def printableKey (c : UInt16) (s : InRead n) : InRead n :=
  if s.stringLen = sub64 maxStr 1 ∧ s.stringCurPos = s.stringLen then s
  else
    { s with
      currentString := Mem.put s.currentString s.stringCurPos c
      update := some s.stringCurPos, stringCurPos := s.stringCurPos + 1, outputLength := 1 }

def deleteKey (s : InRead n) : InRead n :=
  if s.stringLen = 0 then s
  else
    { s with
      currentString := copyMem s.currentString s.stringCurPos (s.stringCurPos + 1)
        (sub64 s.stringLen s.stringCurPos)
      update := some s.stringCurPos, delete := 1 }

def upKey (s : InRead n) : InRead n :=
  let s := { s with newPos := prev s.linePos }
  if s.linePos = none then { s with newPos := prev s.linePos } else s

def downKey (s : InRead n) : InRead n :=
  let s := { s with newPos := next s.linePos }
  if s.newPos = none then { s with newPos := next s.linePos } else s

def leftKey (s : InRead n) : InRead n :=
  if s.stringCurPos = 0 then s
  else
    let (column, row) := moveCursorBackward con.totalColumn s.column s.row
    { s with stringCurPos := s.stringCurPos - 1, column := column, row := row }

def rightKey (s : InRead n) : InRead n :=
  if s.stringCurPos < s.stringLen then
    let (column, row) := moveCursorForward con.totalColumn con.totalRow s.column s.row
    { s with stringCurPos := s.stringCurPos + 1, column := column, row := row }
  else s

def homeKey (s : InRead n) : InRead n :=
  { s with row := firstRow con s, column := con.cursorColumn, stringCurPos := 0 }

def endKey (s : InRead n) : InRead n :=
  { s with
    row := tailRow con s s.column, column := tailColumn con s s.column
    stringCurPos := s.stringLen }

def escKey (s : InRead n) : InRead n :=
  { s with
    currentString := Mem.put s.currentString 0 CHAR_NULL
    update := some 0, delete := s.stringLen, row := firstRow con s, column := con.cursorColumn
    outputLength := 0 }

/-- The `switch` on a key without a character. -/
def scanKey (scanCode : UInt16) (s : InRead n) : InRead n :=
  if scanCode = SCAN_DELETE then deleteKey s
  else if scanCode = SCAN_UP then upKey s
  else if scanCode = SCAN_DOWN then downKey s
  else if scanCode = SCAN_LEFT then leftKey con s
  else if scanCode = SCAN_RIGHT then rightKey con s
  else if scanCode = SCAN_HOME then homeKey con s
  else if scanCode = SCAN_END then endKey con s
  else if scanCode = SCAN_ESC then escKey con s
  else s

/-- The `switch` on a key other than the carriage return. -/
def switchKey (k : Key) (s : InRead n) : InRead n :=
  if k.unicodeChar = CHAR_BACKSPACE then backspaceKey con s
  else if k.unicodeChar = 0 then scanKey con k.scanCode s
  else if 0x20 ≤ k.unicodeChar then printableKey maxStr k.unicodeChar s
  else s

/-- Take over the line the history is asked for. -/
def recallLine (history : Fin n → CStr) (s : InRead n) : InRead n :=
  match s.newPos with
  | none => s
  | some i =>
    let line := (history i).chars
    let outputLength := if line.length < sub64 maxStr 1 then line.length else sub64 maxStr 1
    { s with
      column := con.cursorColumn, row := firstRow con s
      linePos := some i, newPos := none
      outputLength := outputLength
      currentString :=
        Mem.put (Mem.blit s.currentString 0 (line.take outputLength)) outputLength CHAR_NULL
      stringCurPos := outputLength
      update := some 0
      delete := if outputLength < s.stringLen then sub64 s.stringLen outputLength else s.delete }

/-- Move the cursor behind what was printed. -/
def advanceCursor (s : InRead n) : InRead n :=
  let behind := add64 s.column s.outputLength
  let tailRow := tailRow con s behind
  let row :=
    if tailColumn con s behind = 0 ∧ con.totalRow ≤ tailRow ∧ s.row ≠ tailRow then sub64 s.row 1
    else s.row
  if con.totalColumn ≤ behind then
    let skipLength := sub64 s.outputLength (sub64 con.totalColumn s.column)
    let row := add64 row (skipLength / con.totalColumn + 1)
    { s with
      row := if sub64 con.totalRow 1 < row then sub64 con.totalRow 1 else row
      column := skipLength % con.totalColumn }
  else { s with row := row, column := behind }

/-- Print the string from the update index on. -/
def printUpdate (update : ℕ) (s : InRead n) : InRead n :=
  if s.column ≠ UINTN_MAX ∧ s.row ≠ UINTN_MAX then
    { s with screen := s.screen ++ [.setCursorPosition s.column s.row,
        .print (strAt size s.currentString update).chars s.delete] }
  else s

/-- Take the length of the string anew and clear the cells behind it. -/
def measureLine (s : InRead n) : InRead n :=
  let len := strLen size s.currentString
  { s with
    stringLen := len
    currentString :=
      if s.delete ≠ 0 then zeroMem s.currentString len s.delete else s.currentString
    stringCurPos := if len < s.stringCurPos then len else s.stringCurPos
    update := none }

def redraw (k : Key) (s : InRead n) : InRead n :=
  match s.update with
  | none => s
  | some update =>
    let s := measureLine size (printUpdate size update s)
    let s :=
      if k.unicodeChar ≠ CHAR_BACKSPACE ∧ ¬ (k.unicodeChar = 0 ∧ k.scanCode = SCAN_DELETE) then
        advanceCursor con s
      else s
    { s with delete := 0 }

/-- A key other than the carriage return. -/
def processKey (history : Fin n → CStr) (s : InRead n) (k : Key) : InRead n :=
  let s := redraw con size k (recallLine con maxStr history (switchKey con maxStr k s))
  { s with screen := s.screen ++ [.setCursorPosition s.column s.row] }

/-- The carriage return ends the loop; the status is that of its `SetCursorPosition`. -/
def carriageReturn (s : InRead n) : InRead n × Status :=
  if s.column ≠ UINTN_MAX ∧ s.row ≠ UINTN_MAX then
    let column := tailColumn con s s.column
    let row := tailRow con s s.column
    ({ s with screen := s.screen ++ [.setCursorPosition column row, .newline] },
      con.setCursorPosition column row)
  else (s, EFI_SUCCESS)

end Key

/-! ### The call -/

section Call

variable (con : Console) (history : List CStr)

/-- `MaxStr`, the characters of the buffer that are used. -/
def maxStr (bufferSize : UInt64) : ℕ :=
  let screen := sub64 (mul64 con.totalColumn (sub64 con.totalRow 1)) con.cursorColumn
  if bufferSize.toNat / 2 < screen then bufferSize.toNat / 2 else screen

def start (bufferSize : UInt64) (buffer : ℕ → UInt16) : InRead history.length where
  currentString := zeroMem buffer 0 (maxStr con bufferSize)
  column := con.cursorColumn
  row := con.cursorRow
  update := some 0
  delete := 0
  stringLen := 0
  stringCurPos := 0
  outputLength := 0
  linePos := none
  newPos := none
  screen := []

/-- One round of the loop; the status is given when the loop is left. -/
def poll (bufferSize : UInt64) (s : InRead history.length) :
    KeyStroke → InRead history.length × Option Status
  | .error e =>
    if e = EFI_NOT_READY then (s, none)
    else
      ({ s with
        currentString := zeroMem s.currentString 0 (maxStr con bufferSize), stringLen := 0 },
        some e)
  | .key k =>
    if k.unicodeChar = CHAR_CARRIAGE_RETURN then
      let (s, status) := carriageReturn con s
      (s, some status)
    else
      (processKey con (maxStr con bufferSize) (bufferSize.toNat / 2) history.get s k, none)

/-- The locals when the loop is left, the status, and the key strokes that were not read;
none while the loop waits for a key. -/
def readLoop (bufferSize : UInt64) (s : InRead history.length) :
    List KeyStroke → Option (InRead history.length × Status × List KeyStroke)
  | [] => none
  | stroke :: rest =>
    let (s, left) := poll con history bufferSize s stroke
    match left with
    | none => readLoop bufferSize s rest
    | some status => some (s, status, rest)

/-- What a call leaves behind. -/
structure Outcome where
  status : Status
  bufferSize : ℕ
  buffer : ℕ → UInt16
  history : List CStr
  screen : List Output
  unread : List KeyStroke

def uefiConsoleInRead (allocated : Bool × Bool) (bufferSize : UInt64) (buffer : ℕ → UInt16)
    (strokes : List KeyStroke) : Option Outcome :=
  if bufferSize.toNat < 4 then
    some ⟨EFI_BUFFER_TOO_SMALL, 4, buffer, history, [], strokes⟩
  else do
    let (s, status, unread) ←
      readLoop con history bufferSize (start con history bufferSize buffer) strokes
    let line := strAt (bufferSize.toNat / 2) s.currentString 0
    return {
      status, unread
      bufferSize := mul64 s.stringLen 2
      buffer := s.currentString
      history :=
        if 0 < line.chars.length then addLineToCommandHistory allocated history line
        else history
      screen := s.screen }

end Call

end UefiToolkit.ConsoleModel
