import UefiToolkit.Word
import UefiToolkit.Loop
import UefiToolkit.Mem

/-!
The debug shell on the serial port.

The command buffer is a memory of bytes that is neither set up nor cleared between two lines,
and an argument is the index of its first byte. What the shell does to the outside, a write to
the port or an access to a model specific register, is noted in order.
-/

namespace UefiToolkit.ShellModel

open UefiToolkit.Word

def SHELL_CMD_BUF_SIZE : ℕ := 128
def SHELL_MAX_ARGS : ℕ := 8

/-- The bytes of an ASCII text. -/
def ascii (s : String) : List UInt8 := s.toList.map Char.toUInt8

def CHAR_NULL : UInt8 := 0
def CHAR_BACKSPACE : UInt8 := 0x08
def CHAR_TAB : UInt8 := 0x09
def CHAR_LINEFEED : UInt8 := 0x0A
def CHAR_CARRIAGE_RETURN : UInt8 := 0x0D
def CHAR_SPACE : UInt8 := 0x20
def CHAR_DELETE : UInt8 := 0x7F

inductive Event where
  | serialPortWrite (bytes : List UInt8)
  | asmReadMsr64 (index : UInt32)
  | asmWriteMsr64 (index : UInt32) (value : UInt64)
  deriving DecidableEq

/-- The command buffer, and what was done so far. -/
structure Shell where
  cmdBuf : ℕ → UInt8
  trace : List Event

def Shell.note (s : Shell) (e : Event) : Shell := { s with trace := s.trace ++ [e] }

/-! ### Output -/

def shellPrint (str : List UInt8) (s : Shell) : Shell :=
  if 0 < str.length then s.note (.serialPortWrite str) else s

def upperDigit (nibble : UInt8) : UInt8 :=
  if nibble < 10 then 0x30 + nibble else 0x41 + nibble - 10

/-- The last `n` hexadecimal digits of a value. -/
def hexDigits : ℕ → UInt64 → List UInt8
  | 0, _ => []
  | n + 1, value => hexDigits n (value >>> 4) ++ [upperDigit (value &&& 0xF).toUInt8]

def shellPrintHex64 (value : UInt64) (s : Shell) : Shell :=
  shellPrint (ascii "0x" ++ hexDigits 16 value) s

/-! ### Numbers -/

def nibbleOf (c : UInt8) : Option UInt64 :=
  if 0x30 ≤ c ∧ c ≤ 0x39 then some (c - 0x30).toUInt64
  else if 0x61 ≤ c ∧ c ≤ 0x66 then some (c - 0x61 + 10).toUInt64
  else if 0x41 ≤ c ∧ c ≤ 0x46 then some (c - 0x41 + 10).toUInt64
  else none

def parseDigits (result : UInt64) : List UInt8 → Option UInt64
  | [] => some result
  | c :: str =>
    match nibbleOf c with
    | none => none
    | some nibble => parseDigits (result <<< 4 ||| nibble) str

/-- The string behind an optional `0x` or `0X`. -/
def skipPrefix : List UInt8 → List UInt8
  | c :: d :: str => if c = 0x30 ∧ (d = 0x78 ∨ d = 0x58) then str else c :: d :: str
  | str => str

def shellParseHex64 (str : List UInt8) : Option UInt64 :=
  if skipPrefix str = [] then none else parseDigits 0 (skipPrefix str)

/-! ### Reading a line -/

/-- The locals of the read loop. -/
structure ReadLine where
  shell : Shell
  pos : ℕ

def isEol (ch : UInt8) : Bool := ch = CHAR_CARRIAGE_RETURN || ch = CHAR_LINEFEED

def isErase (ch : UInt8) : Bool := ch = CHAR_BACKSPACE || ch = CHAR_DELETE

def isPrintable (ch : UInt8) : Bool := 0x20 ≤ ch && ch < 0x7F

/-- One byte that does not end the line. -/
def readByte (bufSize : ℕ) (s : ReadLine) (ch : UInt8) : ReadLine :=
  if isErase ch then
    if 0 < s.pos then
      { shell := s.shell.note (.serialPortWrite [CHAR_BACKSPACE, CHAR_SPACE, CHAR_BACKSPACE])
        pos := s.pos - 1 }
    else s
  else if isPrintable ch then
    if s.pos < sub64 bufSize 1 then
      { shell :=
          { s.shell with cmdBuf := Mem.put s.shell.cmdBuf s.pos ch }.note (.serialPortWrite [ch])
        pos := s.pos + 1 }
    else s
  else s

/-- The shell when the line is complete, and the bytes behind it; no bytes are given back while
the loop polls the port. -/
def readLoop (bufSize : ℕ) (s : ReadLine) : List UInt8 → Shell × Option (List UInt8)
  | [] => (s.shell, none)
  | ch :: stream =>
    if isEol ch then
      let shell := shellPrint [CHAR_CARRIAGE_RETURN, CHAR_LINEFEED] s.shell
      ({ shell with cmdBuf := Mem.put shell.cmdBuf s.pos CHAR_NULL }, some stream)
    else readLoop bufSize (readByte bufSize s ch) stream

def shellReadLine (bufSize : ℕ) (s : Shell) (stream : List UInt8) :
    Shell × Option (List UInt8) :=
  readLoop bufSize ⟨s, 0⟩ stream

lemma readLoop_length_lt {bufSize : ℕ} {stream rest : List UInt8} {s : ReadLine} {s' : Shell}
    (h : readLoop bufSize s stream = (s', some rest)) : rest.length < stream.length := by
  induction stream generalizing s with
  | nil => simp [readLoop] at h
  | cons ch stream ih =>
    unfold readLoop at h
    split_ifs at h with heol
    · obtain ⟨-, rfl⟩ := Prod.mk.inj h |>.imp id Option.some.inj
      simp
    · exact (ih h).trans (by simp)

/-! ### Tokens -/

def isBlank (c : UInt8) : Bool := c = CHAR_SPACE || c = CHAR_TAB

def isTokenChar (c : UInt8) : Bool := c ≠ CHAR_NULL && !isBlank c

/-- `while (p (*Line)) Line++;` inside the command buffer. -/
def skipWhile (p : UInt8 → Bool) (buf : ℕ → UInt8) (line : ℕ) : Option ℕ :=
  Loop.whileFuel (fun line => p (buf line)) (fun line => some (line + 1)) SHELL_CMD_BUF_SIZE line

/-- The locals of the tokenizer; `argc` is the length of `argv`. -/
structure Tokenizer where
  buf : ℕ → UInt8
  line : ℕ
  argv : List ℕ

/-- A token from `line` to `finish` is noted, and closed unless the text ends there. -/
def takeToken (s : Tokenizer) (line finish : ℕ) : Tokenizer :=
  if s.buf finish = CHAR_NULL then { s with line := finish, argv := s.argv ++ [line] }
  else ⟨Mem.put s.buf finish CHAR_NULL, finish + 1, s.argv ++ [line]⟩

def tokenRound (s : Tokenizer) : Option Tokenizer :=
  (skipWhile isBlank s.buf s.line).bind fun line =>
    -- at the terminator the loop is left, since its condition fails there
    if s.buf line = CHAR_NULL then some { s with line := line }
    else (skipWhile isTokenChar s.buf line).map (takeToken s line)

def wantsToken (maxArgs : ℕ) (s : Tokenizer) : Bool :=
  s.buf s.line ≠ CHAR_NULL && s.argv.length < maxArgs

def shellTokenize (buf : ℕ → UInt8) (maxArgs : ℕ) : Option Tokenizer :=
  Loop.whileFuel (wantsToken maxArgs) tokenRound SHELL_CMD_BUF_SIZE ⟨buf, 0, []⟩

/-! ### Commands -/

def isChar (c : UInt8) : Bool := c ≠ CHAR_NULL

/-- The string at index `p` of the command buffer. -/
def strAt (buf : ℕ → UInt8) (p : ℕ) : List UInt8 :=
  (Mem.slice buf p (SHELL_CMD_BUF_SIZE - p)).takeWhile isChar

def arg (argv : List ℕ) (buf : ℕ → UInt8) (i : ℕ) : List UInt8 := strAt buf (argv.getD i 0)

section Commands

-- what the register of an index reads, after all that was done
variable (msr : List Event → UInt32 → UInt64)

def cmdHelp (s : Shell) : Shell :=
  shellPrint (ascii "  exit                     - Leave debug shell and continue boot\r\n") <|
  shellPrint (ascii "  help                     - Show this message\r\n") <|
  shellPrint (ascii "  writemsr <index> <value> - Write 64-bit MSR (hex index and value)\r\n") <|
  shellPrint (ascii "  readmsr  <index>         - Read 64-bit MSR (hex index)\r\n") <|
  shellPrint (ascii "Available commands:\r\n") s

/-- An error about an argument, which is quoted. -/
def printQuoted (text argument : List UInt8) (s : Shell) : Shell :=
  shellPrint (ascii "'\r\n") (shellPrint argument (shellPrint text s))

/-- The index argument, if it is one. -/
def parseIndex (str : List UInt8) : Option UInt64 :=
  (shellParseHex64 str).filter fun index => index ≤ 0xFFFFFFFF

def cmdReadMsr (argv : List ℕ) (s : Shell) : Shell :=
  if argv.length < 2 then shellPrint (ascii "Usage: readmsr <index_hex>\r\n") s
  else
    match parseIndex (arg argv s.cmdBuf 1) with
    | none => printQuoted (ascii "Error: invalid MSR index '") (arg argv s.cmdBuf 1) s
    | some index =>
      let value := msr s.trace index.toUInt32
      let s := s.note (.asmReadMsr64 index.toUInt32)
      let s := shellPrintHex64 index (shellPrint (ascii "MSR[") s)
      let s := shellPrintHex64 value (shellPrint (ascii "] = ") s)
      shellPrint (ascii "\r\n") s

def cmdWriteMsr (argv : List ℕ) (s : Shell) : Shell :=
  if argv.length < 3 then
    shellPrint (ascii "Usage: writemsr <index_hex> <value_hex>\r\n") s
  else
    match parseIndex (arg argv s.cmdBuf 1) with
    | none => printQuoted (ascii "Error: invalid MSR index '") (arg argv s.cmdBuf 1) s
    | some index =>
      match shellParseHex64 (arg argv s.cmdBuf 2) with
      | none => printQuoted (ascii "Error: invalid value '") (arg argv s.cmdBuf 2) s
      | some value =>
        let s := s.note (.asmWriteMsr64 index.toUInt32 value)
        let s := shellPrintHex64 index (shellPrint (ascii "MSR[") s)
        let s := shellPrintHex64 value (shellPrint (ascii "] <- ") s)
        shellPrint (ascii " (written)\r\n") s

/-- The dispatch on the first argument; true ends the shell. -/
def dispatch (argv : List ℕ) (s : Shell) : Shell × Bool :=
  let cmd := arg argv s.cmdBuf 0
  if argv.length = 0 then (s, false)
  else if cmd = ascii "help" then (cmdHelp s, false)
  else if cmd = ascii "readmsr" then (cmdReadMsr msr argv s, false)
  else if cmd = ascii "writemsr" then (cmdWriteMsr argv s, false)
  else if cmd = ascii "exit" then (shellPrint (ascii "Exiting debug shell...\r\n") s, true)
  else
    (shellPrint (ascii "'. Type 'help' for available commands.\r\n")
      (shellPrint cmd (shellPrint (ascii "Unknown command: '") s)), false)

def shellProcessCommand (s : Shell) : Option (Shell × Bool) :=
  (shellTokenize s.cmdBuf SHELL_MAX_ARGS).map fun t =>
    dispatch msr t.argv { s with cmdBuf := t.buf }

/-! ### The session -/

/-- How a session stands when the port has no more bytes: left, with the bytes it did not
read, or at the port. -/
structure Outcome where
  trace : List Event
  unread : Option (List UInt8)

def shellLoop (activePrompt : List UInt8) (s : Shell) (stream : List UInt8) : Option Outcome :=
  match _ : shellReadLine SHELL_CMD_BUF_SIZE (shellPrint activePrompt s) stream with
  | (s, none) => some ⟨s.trace, none⟩
  | (s, some rest) =>
    match shellProcessCommand msr s with
    | none => none
    | some (s, true) => some ⟨s.trace, some rest⟩
    | some (s, false) => shellLoop activePrompt s rest
termination_by stream.length
decreasing_by exact readLoop_length_lt ‹_›

section Loop

variable {msr} {activePrompt : List UInt8} {s s' s'' : Shell} {stream rest : List UInt8}

lemma shellLoop_waiting
    (h : shellReadLine SHELL_CMD_BUF_SIZE (shellPrint activePrompt s) stream = (s', none)) :
    shellLoop msr activePrompt s stream = some ⟨s'.trace, none⟩ := by
  rw [shellLoop]
  split
  · rename_i heq
    rw [h] at heq
    cases heq
    rfl
  · rename_i heq
    rw [h] at heq
    cases heq

lemma shellLoop_line {leaves : Bool}
    (h : shellReadLine SHELL_CMD_BUF_SIZE (shellPrint activePrompt s) stream = (s', some rest))
    (hcommand : shellProcessCommand msr s' = some (s'', leaves)) :
    shellLoop msr activePrompt s stream =
      if leaves then some ⟨s''.trace, some rest⟩ else shellLoop msr activePrompt s'' rest := by
  rw [shellLoop]
  split
  · rename_i heq
    rw [h] at heq
    cases heq
  · rename_i heq
    rw [h] at heq
    cases heq
    rw [hcommand]
    cases leaves <;> rfl

end Loop

def printBanner (s : Shell) : Shell :=
  shellPrint (ascii "Type 'help' for available commands.\r\n\r\n")
    (shellPrint (ascii "\r\n*** Debug Shell ***\r\n") s)

/-- The bytes in the command buffer at the start are what the stack holds. -/
def runDebugShell (prompt : Option (List UInt8)) (stack : ℕ → UInt8) (stream : List UInt8) :
    Option Outcome :=
  shellLoop msr (prompt.getD (ascii "> ")) (printBanner ⟨stack, []⟩) stream

end Commands

end UefiToolkit.ShellModel
