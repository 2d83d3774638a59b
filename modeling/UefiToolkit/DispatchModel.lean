import UefiToolkit.CommandModel

/-!
Running a command line, as `UefiConsole` does it: the first parameter of the cleaned line selects
the command, and the whole line is parsed once more into the parameters its handler finds in the
shell parameters protocol.

The environment of the handlers is that protocol and whatever else there is.
-/

namespace UefiToolkit.DispatchModel

open UefiToolkit.Word UefiToolkit.ArgsModel UefiToolkit.ConsoleString UefiToolkit.CommandModel

def CHAR_HASH : UInt16 := 0x23

/-- `EFI_SHELL_PARAMETERS_PROTOCOL`, with the entries stored into the array `Argv`. -/
structure Parameters where
  argc : ℕ
  argv : List (ℕ × Str)

/-- `SHELL_OPERATION_TYPES`. -/
inductive OperationType
  | internalCommand
  | scriptFileName
  | efiApplication
  | fileSysChange
  | unknownInvalid
  deriving DecidableEq

/-- `UpdateArgcArgv`, whose caller keeps the old parameters. -/
def updateArgcArgv (debugCode : Bool) (limit : ℕ) (alloc : ℕ → Bool) (shellParameters : Parameters)
    (newCommandLine : Str) (type : OperationType) : Status × Parameters :=
  let stripParamQuotation := decide (type ≠ .scriptFileName)
  let args := parseCommandLineToArgs debugCode limit alloc (some newCommandLine)
    stripParamQuotation shellParameters.argc
  (args.status, ⟨args.argc, args.stores⟩)

/-- Each `^` in front of a `#` is dropped; the walker passes the `#`. -/
def unescapeHash : Str → Str
  | [] => []
  | c :: s =>
    if c = CHAR_ESCAPE then
      match s with
      | [] => [c]
      | d :: t => if d = CHAR_HASH then d :: unescapeHash t else c :: unescapeHash (d :: t)
    else c :: unescapeHash s

/-- A `#` ends the string unless a `^` stands in front of it. What the loop does behind the new
end is not seen. -/
def dropComment : Str → Str
  | [] => []
  | c :: s =>
    if c = CHAR_ESCAPE then
      match s with
      | [] => [c]
      | d :: t => if d = CHAR_HASH then c :: d :: dropComment t else c :: dropComment (d :: t)
    else if c = CHAR_HASH then []
    else c :: dropComment s

variable {ε : Type}

/-- What running a command line leaves. -/
structure Outcome (ε : Type) where
  status : Status
  /-- What is stored into `*CommandStatus`. -/
  commandStatus : Option Status
  /-- The name by which a handler was selected, and the parameters in force when it ran. -/
  seen : Option (Str × Parameters)
  state : St (Parameters × ε)

def setParameters (p : Parameters) (s : St (Parameters × ε)) : St (Parameters × ε) :=
  { s with env := (p, s.env.2) }

variable (e : Services (Parameters × ε)) (getExit : Parameters × ε → Bool) (debugCode : Bool)
  (limit : ℕ) (alloc : ℕ → Bool)

/-- The command is run with the parameters in place. -/
def runHandler (firstParameter : Str) (s : St (Parameters × ε)) : Outcome ε :=
  match consoleCommandRunCommandHandler e firstParameter s with
  | (status, some commandReturnedStatus, _, s') =>
    { status := if getExit s'.env then commandReturnedStatus else status
      commandStatus :=
        if commandReturnedStatus ≠ 0 then some (commandReturnedStatus ||| MAX_BIT)
        else some EFI_SUCCESS
      seen := some (firstParameter, s.env.1)
      state := s' }
  | (status, none, _, s') => ⟨status, none, none, s'⟩

def runInternalCommand (cmdLine firstParameter : Str) (s : St (Parameters × ε)) : Outcome ε :=
  if !alloc 0 then ⟨EFI_OUT_OF_RESOURCES, none, none, s⟩
  else
    let (status, parameters) := updateArgcArgv debugCode limit (fun n => alloc (n + 1)) s.env.1
      (unescapeHash cmdLine) .internalCommand
    let r :=
      if efiError status then ⟨status, none, none, s⟩
      else runHandler e getExit firstParameter (setParameters parameters s)
    -- `RestoreArgcArgv`
    { r with state := setParameters s.env.1 r.state }

/-- The line without blanks around it and without its comment. -/
def cleanOriginal (line : Str) : Str := trimSpaces (dropComment (trimSpaces line))

def runShellCommand (cmdLine : Str) (s : St (Parameters × ε)) : Outcome ε :=
  if cmdLine.length = 0 then ⟨EFI_SUCCESS, none, none, s⟩
  else
    match (strnCatGrow (fun n _ => (alloc n, n + 1)) limit none none cmdLine 0 0).1 with
    | none => ⟨EFI_OUT_OF_RESOURCES, none, none, s⟩
    | some copy =>
      let clean := cleanOriginal copy
      if clean.length = 0 then ⟨EFI_SUCCESS, none, none, s⟩
      else if !alloc 1 then ⟨EFI_OUT_OF_RESOURCES, none, none, s⟩
      else
        let r := getNextParameter debugCode limit clean
          (List.replicate (clean.length + 1) CHAR_NULL) true
        if efiError r.1 then ⟨EFI_SUCCESS, none, none, s⟩
        else runInternalCommand e getExit debugCode limit (fun n => alloc (n + 2)) clean
          (strAt r.2.2 0) s

end UefiToolkit.DispatchModel
