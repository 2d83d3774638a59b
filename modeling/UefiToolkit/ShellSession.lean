import UefiToolkit.ShellTokens
import UefiToolkit.ShellLine

/-!
The register accesses of a debug shell session, and where it ends.

The reference session reads the stream byte by byte and keeps the line as it was edited so
far; at the end of a line its first words decide what is done.
-/

namespace UefiToolkit.ShellSession

open UefiToolkit.Word UefiToolkit.ShellModel UefiToolkit.ShellTokens UefiToolkit.ShellLine

/-! ### The reference session -/

/-- An access to a model specific register. -/
inductive Access where
  | read (index : ℕ)
  | write (index value : ℕ)
  deriving DecidableEq

/-- The line behind a byte that does not end it. -/
def keep (line : List UInt8) (ch : UInt8) : List UInt8 :=
  if isErase ch then line.dropLast
  else if isPrintable ch ∧ line.length < 127 then line ++ [ch]
  else line

/-- A register index: a number of 32 bits. -/
def msrIndex (word : List UInt8) : Option ℕ :=
  (shellParseHex64 word).bind fun index =>
    if index.toNat ≤ 0xFFFFFFFF then some index.toNat else none

/-- The access a command line asks for. -/
def access : List (List UInt8) → Option Access
  | [] => none
  | cmd :: args =>
    if cmd = ascii "readmsr" then
      match args with
      | [] => none
      | index :: _ => (msrIndex index).map .read
    else if cmd = ascii "writemsr" then
      match args with
      | index :: value :: _ =>
        (msrIndex index).bind fun index =>
          (shellParseHex64 value).map fun value => .write index value.toNat
      | _ => none
    else none

/-- The words of a line that count. -/
def commandLine (line : List UInt8) : List (List UInt8) := (words line).take 8

def exits (line : List (List UInt8)) : Bool := line.head? = some (ascii "exit")

/-- What comes of a complete line, given what comes of the rest of the stream. -/
def endLine (line rest : List UInt8) (later : List Access × Option (List UInt8)) :
    List Access × Option (List UInt8) :=
  if exits (commandLine line) then ([], some rest)
  else ((access (commandLine line)).toList ++ later.1, later.2)

/-- The accesses of a session and the bytes it leaves unread, if it ends. -/
def session (line : List UInt8) : List UInt8 → List Access × Option (List UInt8)
  | [] => ([], none)
  | ch :: stream =>
    if isEol ch then endLine line stream (session [] stream) else session (keep line ch) stream

lemma session_eol {ch : UInt8} (h : isEol ch = true) (line stream : List UInt8) :
    session line (ch :: stream) = endLine line stream (session [] stream) := by
  rw [session, if_pos h]

lemma session_keep {ch : UInt8} (h : ¬ isEol ch = true) (line stream : List UInt8) :
    session line (ch :: stream) = session (keep line ch) stream := by
  rw [session, if_neg h]

/-! ### The accesses in a trace -/

/-- The access that an event is. -/
def eventAccess : Event → Option Access
  | .serialPortWrite _ => none
  | .asmReadMsr64 index => some (.read index.toNat)
  | .asmWriteMsr64 index value => some (.write index.toNat value.toNat)

def accesses (s : Shell) : List Access := s.trace.filterMap eventAccess

lemma accesses_note (s : Shell) (e : Event) :
    accesses (s.note e) = accesses s ++ (eventAccess e).toList := by
  cases e <;> simp [accesses, Shell.note, eventAccess]

@[simp] lemma shellPrint_cmdBuf (str : List UInt8) (s : Shell) :
    (shellPrint str s).cmdBuf = s.cmdBuf := by
  unfold shellPrint
  split_ifs <;> rfl

@[simp] lemma accesses_shellPrint (str : List UInt8) (s : Shell) :
    accesses (shellPrint str s) = accesses s := by
  unfold shellPrint
  split_ifs
  · simp [accesses_note, eventAccess]
  · rfl

@[simp] lemma accesses_shellPrintHex64 (value : UInt64) (s : Shell) :
    accesses (shellPrintHex64 value s) = accesses s := accesses_shellPrint _ s

@[simp] lemma accesses_printQuoted (text argument : List UInt8) (s : Shell) :
    accesses (printQuoted text argument s) = accesses s := by simp [printQuoted]

@[simp] lemma accesses_cmdHelp (s : Shell) : accesses (cmdHelp s) = accesses s := by
  simp [cmdHelp]

/-! ### Commands -/

section Commands

variable (msr : List Event → UInt32 → UInt64)

lemma parseIndex_eq (word : List UInt8) :
    (parseIndex word).map UInt64.toNat = msrIndex word := by
  unfold parseIndex msrIndex
  cases hv : shellParseHex64 word with
  | none => rfl
  | some v =>
    by_cases hle : v ≤ 0xFFFFFFFF
    · have hnat : v.toNat ≤ 0xFFFFFFFF := UInt64.le_iff_toNat_le.mp hle
      simp [Option.filter, hle, hnat]
    · have hnat : ¬ v.toNat ≤ 0xFFFFFFFF := fun h => hle (UInt64.le_iff_toNat_le.mpr h)
      simp [Option.filter, hle, hnat]

/-- The index in the register instruction is the number that was parsed. -/
lemma parseIndex_toUInt32 {word : List UInt8} {index : UInt64} (h : parseIndex word = some index) :
    index.toUInt32.toNat = index.toNat := by
  have hle : index ≤ 0xFFFFFFFF := by
    simp only [parseIndex, Option.filter_eq_some_iff, decide_eq_true_eq] at h
    exact h.2
  have hnat : index.toNat ≤ 0xFFFFFFFF := UInt64.le_iff_toNat_le.mp hle
  rw [UInt64.toNat_toUInt32]
  exact Nat.mod_eq_of_lt (by omega)

lemma cmdReadMsr_accesses (cmd index : ℕ) (argv : List ℕ) (s : Shell) :
    accesses (cmdReadMsr msr (cmd :: index :: argv) s) =
      accesses s ++ ((msrIndex (strAt s.cmdBuf index)).map Access.read).toList := by
  have harg : arg (cmd :: index :: argv) s.cmdBuf 1 = strAt s.cmdBuf index := rfl
  rw [cmdReadMsr, if_neg (by simp), harg, ← parseIndex_eq]
  cases hindex : parseIndex (strAt s.cmdBuf index) with
  | none => simp
  | some v => simp [accesses_note, eventAccess, parseIndex_toUInt32 hindex]

lemma cmdWriteMsr_accesses (cmd index value : ℕ) (argv : List ℕ) (s : Shell) :
    accesses (cmdWriteMsr (cmd :: index :: value :: argv) s) =
      accesses s ++ ((msrIndex (strAt s.cmdBuf index)).bind fun i =>
        (shellParseHex64 (strAt s.cmdBuf value)).map fun v => Access.write i v.toNat).toList := by
  have hindexArg : arg (cmd :: index :: value :: argv) s.cmdBuf 1 = strAt s.cmdBuf index := rfl
  have hvalueArg : arg (cmd :: index :: value :: argv) s.cmdBuf 2 = strAt s.cmdBuf value := rfl
  rw [cmdWriteMsr, if_neg (by simp), hindexArg, hvalueArg, ← parseIndex_eq]
  cases hindex : parseIndex (strAt s.cmdBuf index) with
  | none => simp
  | some i =>
    cases hvalue : shellParseHex64 (strAt s.cmdBuf value) with
    | none => simp
    | some v => simp [accesses_note, eventAccess, parseIndex_toUInt32 hindex]

lemma ascii_ne : ascii "help" ≠ ascii "readmsr" ∧ ascii "help" ≠ ascii "writemsr" ∧
    ascii "help" ≠ ascii "exit" ∧ ascii "readmsr" ≠ ascii "writemsr" ∧
    ascii "readmsr" ≠ ascii "exit" ∧ ascii "writemsr" ≠ ascii "exit" := by
  decide

/-- The dispatch does what the words at the arguments ask for. -/
lemma dispatch_spec (argv : List ℕ) (s : Shell) :
    accesses (dispatch msr argv s).1 =
        accesses s ++ (access (argv.map (strAt s.cmdBuf))).toList ∧
      (dispatch msr argv s).2 = exits (argv.map (strAt s.cmdBuf)) := by
  obtain ⟨h1, h2, h3, h4, h5, h6⟩ := ascii_ne
  cases argv with
  | nil => simp [dispatch, access, exits]
  | cons cmd argv =>
    have hcmd : arg (cmd :: argv) s.cmdBuf 0 = strAt s.cmdBuf cmd := rfl
    simp only [dispatch, hcmd, List.length_cons, Nat.succ_ne_zero, if_false, List.map_cons,
      access, exits, List.head?_cons, Option.some.injEq]
    by_cases hhelp : strAt s.cmdBuf cmd = ascii "help"
    · simp [hhelp, h1, h2, h3]
    by_cases hread : strAt s.cmdBuf cmd = ascii "readmsr"
    · cases argv with
      | nil => simp [hread, h1.symm, h5, cmdReadMsr]
      | cons index argv => simp [hread, h1.symm, h5, cmdReadMsr_accesses]
    by_cases hwrite : strAt s.cmdBuf cmd = ascii "writemsr"
    · match argv with
      | [] => simp [hwrite, h2.symm, h4.symm, h6, cmdWriteMsr]
      | [index] => simp [hwrite, h2.symm, h4.symm, h6, cmdWriteMsr]
      | index :: value :: argv => simp [hwrite, h2.symm, h4.symm, h6, cmdWriteMsr_accesses]
    by_cases hexit : strAt s.cmdBuf cmd = ascii "exit"
    · simp [hexit, h3.symm, h5.symm, h6.symm]
    · simp [hhelp, hread, hwrite, hexit]

end Commands

/-! ### Reading a line -/

/-- The command buffer begins with the line as it was kept so far. -/
structure Kept (s : ReadLine) (line : List UInt8) : Prop where
  pos : s.pos = line.length
  cells : Mem.slice s.shell.cmdBuf 0 line.length = line
  fits : line.length ≤ 127
  chars : ∀ c ∈ line, isChar c = true

section Reading

variable {s : ReadLine} {line : List UInt8}

lemma readByte_kept (h : Kept s line) (ch : UInt8) :
    Kept (readByte SHELL_CMD_BUF_SIZE s ch) (keep line ch) ∧
      accesses (readByte SHELL_CMD_BUF_SIZE s ch).shell = accesses s.shell := by
  have hpos : 1 ≤ SHELL_CMD_BUF_SIZE := by decide
  have hsize : SHELL_CMD_BUF_SIZE < 2 ^ 64 := by decide
  have hkeep : keep line ch = edit SHELL_CMD_BUF_SIZE line ch := rfl
  have hheld : Held SHELL_CMD_BUF_SIZE s line := ⟨h.pos, h.cells, h.fits⟩
  obtain ⟨hp, hc, hf⟩ := readByte_held hpos hsize hheld ch
  rw [hkeep]
  rcases readByte_cases hpos hsize hheld ch with
    ⟨init, c, rfl, hedit, hread⟩ | ⟨hprint, -, hedit, hread⟩ | ⟨hedit, hread⟩
  · refine ⟨⟨hp, hc, hf, ?_⟩, ?_⟩
    · rw [hedit]
      exact fun c hc => h.chars c (List.mem_append_left _ hc)
    · rw [hread]
      simp [accesses_note, eventAccess]
  · refine ⟨⟨hp, hc, hf, ?_⟩, ?_⟩
    · rw [hedit]
      intro c hc
      rcases List.mem_append.mp hc with hc | hc
      · exact h.chars c hc
      · obtain rfl := List.mem_singleton.mp hc
        simp only [isPrintable, Bool.and_eq_true, decide_eq_true_eq] at hprint
        simp only [isChar, decide_eq_true_eq]
        rintro rfl
        exact absurd hprint.1 (by decide)
    · rw [hread]
      simp [Shell.note, accesses, eventAccess]
  · rw [hedit, hread]
    exact ⟨h, rfl⟩

/-- The terminator behind the kept characters makes them a string. -/
lemma Kept.strIn (h : Kept s line) : StrIn (Mem.put s.shell.cmdBuf s.pos CHAR_NULL) 0 line where
  cells := by
    refine (Mem.slice_congr fun i hi => Mem.put_ne _ _ ?_).trans h.cells
    rw [h.pos]
    omega
  terminator := by
    rw [Nat.zero_add, h.pos]
    exact Mem.put_self _ _ _
  chars := h.chars

/-- The loop stays at the port, or it ends with a line that the reference session keeps. -/
lemma readLoop_session (h : Kept s line) (stream : List UInt8) :
    (∃ s', readLoop SHELL_CMD_BUF_SIZE s stream = (s', none) ∧
      accesses s' = accesses s.shell ∧ session line stream = ([], none)) ∨
    ∃ s' rest line', readLoop SHELL_CMD_BUF_SIZE s stream = (s', some rest) ∧
      accesses s' = accesses s.shell ∧ StrIn s'.cmdBuf 0 line' ∧ line'.length ≤ 127 ∧
      session line stream = endLine line' rest (session [] rest) := by
  induction stream generalizing s line with
  | nil => exact Or.inl ⟨s.shell, rfl, rfl, rfl⟩
  | cons ch stream ih =>
    by_cases heol : isEol ch = true
    · refine Or.inr ⟨_, stream, line, by rw [readLoop, if_pos heol], ?_, ?_, h.fits,
        session_eol heol line stream⟩
      · exact accesses_shellPrint _ s.shell
      · simpa only [shellPrint_cmdBuf] using h.strIn
    · obtain ⟨hkept, hacc⟩ := readByte_kept h ch
      rw [readLoop, if_neg heol, session_keep heol, ← hacc]
      exact ih hkept

end Reading

/-! ### The session as a whole -/

section Session

variable (msr : List Event → UInt32 → UInt64)

/-- A complete line does what its words ask for. -/
lemma shellProcessCommand_spec {s : Shell} {line : List UInt8} (h : StrIn s.cmdBuf 0 line)
    (hlen : line.length ≤ 127) :
    ∃ s', shellProcessCommand msr s = some (s', exits (commandLine line)) ∧
      accesses s' = accesses s ++ (access (commandLine line)).toList := by
  obtain ⟨t, htokens, hargv⟩ :=
    shellTokenize_words h (Nat.lt_succ_of_le hlen) SHELL_MAX_ARGS
  obtain ⟨hacc, hexit⟩ := dispatch_spec msr t.argv { s with cmdBuf := t.buf }
  simp only [hargv] at hacc hexit
  refine ⟨_, ?_, hacc⟩
  rw [shellProcessCommand, htokens, Option.map_some]
  exact congrArg some (Prod.ext rfl hexit)

lemma access_exit {line : List (List UInt8)} (h : exits line = true) : access line = none := by
  obtain ⟨-, -, -, -, h5, h6⟩ := ascii_ne
  cases line with
  | nil => rfl
  | cons cmd args =>
    obtain rfl : cmd = ascii "exit" := by simpa [exits] using h
    simp [access, h5.symm, h6.symm]

lemma shellLoop_session (activePrompt : List UInt8) (s : Shell) (stream : List UInt8) :
    ∃ out, shellLoop msr activePrompt s stream = some out ∧
      out.trace.filterMap eventAccess = accesses s ++ (session [] stream).1 ∧
      out.unread = (session [] stream).2 := by
  induction hn : stream.length using Nat.strong_induction_on generalizing s stream with
  | _ n ih =>
    subst hn
    have hkept : Kept ⟨shellPrint activePrompt s, 0⟩ [] := ⟨rfl, rfl, Nat.zero_le _, by simp⟩
    rcases readLoop_session hkept stream with
      ⟨s', hread, hacc, hsession⟩ | ⟨s', rest, line, hread, hacc, hline, hlen, hsession⟩
    · refine ⟨_, shellLoop_waiting hread, ?_, by rw [hsession]⟩
      rw [hsession, List.append_nil]
      exact hacc.trans (accesses_shellPrint _ s)
    · obtain ⟨s'', hcommand, hacc'⟩ := shellProcessCommand_spec msr hline hlen
      rw [hacc, accesses_shellPrint] at hacc'
      rw [shellLoop_line hread hcommand, hsession, endLine]
      by_cases hexit : exits (commandLine line) = true
      · rw [if_pos hexit, if_pos hexit]
        rw [access_exit hexit] at hacc'
        exact ⟨_, rfl, hacc', rfl⟩
      · rw [if_neg hexit, if_neg hexit]
        obtain ⟨out, hrun, htrace, hunread⟩ :=
          ih rest.length (readLoop_length_lt hread) s'' rest rfl
        refine ⟨out, hrun, ?_, hunread⟩
        rw [htrace, hacc', List.append_assoc]

/-- Every carriage return followed by a line feed. -/
def crLf (stream : List UInt8) : List UInt8 :=
  stream.flatMap fun ch =>
    if ch = CHAR_CARRIAGE_RETURN then [CHAR_CARRIAGE_RETURN, CHAR_LINEFEED] else [ch]

/-- The accesses behind a line do not depend on the bytes that an exit leaves unread. -/
lemma endLine_congr (line rest rest' : List UInt8)
    {later later' : List Access × Option (List UInt8)}
    (h : later.1 = later'.1) :
    (endLine line rest later).1 = (endLine line rest' later').1 := by
  unfold endLine
  split_ifs
  · rfl
  · simp only [h]

/-- The empty line between a carriage return and a line feed asks for nothing. -/
lemma session_crLf (line stream : List UInt8) :
    (session line (crLf stream)).1 = (session line stream).1 := by
  induction stream generalizing line with
  | nil => rfl
  | cons ch stream ih =>
    by_cases hcr : ch = CHAR_CARRIAGE_RETURN
    · subst hcr
      have heol : isEol CHAR_CARRIAGE_RETURN = true := rfl
      have hempty : session [] (CHAR_LINEFEED :: crLf stream) = session [] (crLf stream) := rfl
      have hcons : crLf (CHAR_CARRIAGE_RETURN :: stream) =
          CHAR_CARRIAGE_RETURN :: CHAR_LINEFEED :: crLf stream := rfl
      rw [hcons, session_eol heol, session_eol heol, hempty]
      exact endLine_congr _ _ _ (ih [])
    · have hcons : crLf (ch :: stream) = ch :: crLf stream := by
        simp [crLf, hcr]
      rw [hcons]
      by_cases heol : isEol ch = true
      · rw [session_eol heol, session_eol heol]
        exact endLine_congr _ _ _ (ih [])
      · rw [session_keep heol, session_keep heol]
        exact ih _

/-- **The session.** For every stream the register accesses and the place where the shell ends
are those of the reference session; so a line feed behind every carriage return changes no
access. -/
theorem runDebugShell_session (prompt : Option (List UInt8)) (stack : ℕ → UInt8)
    (stream : List UInt8) :
    ∃ out, runDebugShell msr prompt stack stream = some out ∧
      out.trace.filterMap eventAccess = (session [] stream).1 ∧
      out.unread = (session [] stream).2 ∧
      ∃ out', runDebugShell msr prompt stack (crLf stream) = some out' ∧
        out'.trace.filterMap eventAccess = out.trace.filterMap eventAccess := by
  have hstart : accesses (printBanner ⟨stack, []⟩) = [] := by
    simp only [printBanner, accesses_shellPrint]
    rfl
  obtain ⟨out, hrun, htrace, hunread⟩ :=
    shellLoop_session msr (prompt.getD (ascii "> ")) (printBanner ⟨stack, []⟩) stream
  obtain ⟨out', hrun', htrace', -⟩ :=
    shellLoop_session msr (prompt.getD (ascii "> ")) (printBanner ⟨stack, []⟩) (crLf stream)
  rw [hstart, List.nil_append] at htrace htrace'
  refine ⟨out, hrun, htrace, hunread, out', hrun', ?_⟩
  rw [htrace, htrace', session_crLf]

end Session

end UefiToolkit.ShellSession
