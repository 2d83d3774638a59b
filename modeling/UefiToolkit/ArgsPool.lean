import UefiToolkit.Allocator
import UefiToolkit.DispatchModel

/-!
`Argc` and `Argv` of the shell parameters protocol, with the pool their array and strings are
allocated from: they are saved and replaced before a command runs and restored after it.

`room n` says whether the `n`-th allocation of the pool succeeds.
-/

namespace UefiToolkit.ArgsPool

open UefiToolkit.Word UefiToolkit.Allocator UefiToolkit.ArgsModel
open UefiToolkit.DispatchModel (OperationType)

/-- What a block holds: characters, or pointers to strings. -/
inductive Block
  | chars (cells : List UInt16)
  | array (entries : List (Option ℕ))

/-- A string with its terminator. -/
def Block.string (s : Str) : Block := .chars (s ++ [CHAR_NULL])

/-- `EFI_SHELL_PARAMETERS_PROTOCOL`, the fields for the arguments. -/
structure ShellParameters where
  argc : ℕ
  argv : Option ℕ

/-- `Argv[i]`; what cannot be read is taken for a null pointer. -/
def entry (pool : Pool Block) (argv i : ℕ) : Option ℕ :=
  match pool.blocks argv with
  | some (.array entries) => entries.getD i none
  | _ => none

/-- `Argv[i] = newParam`, inside the array. -/
def setEntry (pool : Pool Block) (argv i newParam : ℕ) : Pool Block :=
  match pool.blocks argv with
  | some (.array entries) => pool.write argv (.array (entries.set i (some newParam)))
  | _ => pool

section Parse

variable (debugCode : Bool) (limit : ℕ) (room : ℕ → Bool) (stripQuotation : Bool)

/-- The filling pass; it clears the parameter buffer of `size` cells each time. -/
def fillLoop (size argv : ℕ) (walker : Option Str) (argc : ℕ) (pool : Pool Block) :
    Status × ℕ × Pool Block :=
  match walker with
  | none => (EFI_SUCCESS, argc, pool)
  | some s =>
    if s = [] then (EFI_SUCCESS, argc, pool)
    else
      let r := getNextParameter debugCode limit s (List.replicate size CHAR_NULL) stripQuotation
      if efiError r.1 then (EFI_INVALID_PARAMETER, argc, pool)
      else
        match pool.allocate room (.string (strAt r.2.2 0)) with
        | (none, pool) => (EFI_OUT_OF_RESOURCES, argc, pool)
        | (some newParam, pool) =>
          fillLoop size argv r.2.1 (argc + 1) (setEntry pool argv argc newParam)
termination_by left walker
decreasing_by
  obtain ⟨rest, hrest, hlt⟩ := getNextParameter_shorter ‹_›
  rw [hrest]
  exact hlt

/-- From the array's allocation to `Done`, where the two buffers are freed. -/
def fillArgv (walker : Str) (count size newCommandLine tempParameter : ℕ)
    (shellParameters : ShellParameters) (pool : Pool Block) :
    Status × ShellParameters × Pool Block :=
  let done := fun pool : Pool Block => (pool.free (some tempParameter)).free (some newCommandLine)
  match pool.allocate room (.array (List.replicate count none)) with
  | (none, pool) => (EFI_OUT_OF_RESOURCES, { shellParameters with argv := none }, done pool)
  | (some argv, pool) =>
    let (status, argc, pool) :=
      fillLoop debugCode limit room stripQuotation size argv (some walker) 0 pool
    (status, ⟨argc, some argv⟩, done pool)

/-- `Argv` and `Argc` are changed where the source changes them: a parse that gets neither buffer
leaves both as they were. -/
def parseCommandLineToArgs (commandLine : Option Str) (shellParameters : ShellParameters)
    (pool : Pool Block) : Status × ShellParameters × Pool Block :=
  match commandLine with
  | none => (EFI_SUCCESS, ⟨0, none⟩, pool)
  | some line =>
    if line.length = 0 then (EFI_SUCCESS, ⟨0, none⟩, pool)
    else
      match pool.allocate room (.string line) with
      | (none, pool) => (EFI_OUT_OF_RESOURCES, shellParameters, pool)
      | (some newCommandLine, pool) =>
        let walker := trimSpaces line
        let size := walker.length + 1
        match pool.allocate room (.chars (List.replicate size CHAR_NULL)) with
        | (none, pool) =>
          (EFI_OUT_OF_RESOURCES, shellParameters, pool.free (some newCommandLine))
        | (some tempParameter, pool) =>
          let (count, _) := countLoop debugCode limit (some walker)
            (List.replicate size CHAR_NULL) 0
          fillArgv debugCode limit room stripQuotation walker count size newCommandLine
            tempParameter shellParameters pool

end Parse

/-- What `UpdateArgcArgv` hands back: `OldArgc` and `OldArgv`. -/
abbrev Saved := ShellParameters

/-- Both out parameters are given, as the one caller gives them. -/
def updateArgcArgv (debugCode : Bool) (limit : ℕ) (room : ℕ → Bool)
    (newCommandLine : Option Str) (type : OperationType) (shellParameters : ShellParameters)
    (pool : Pool Block) : Status × Saved × ShellParameters × Pool Block :=
  let saved : Saved := ⟨shellParameters.argc, shellParameters.argv⟩
  let stripParamQuotation := decide (type ≠ .scriptFileName)
  let (status, shellParameters, pool) := parseCommandLineToArgs debugCode limit room
    stripParamQuotation newCommandLine shellParameters pool
  (status, saved, shellParameters, pool)

/-- `FreePool (Argv[LoopCounter])`, for `n` entries from `loopCounter` on. -/
def freeEntries (argv loopCounter : ℕ) : ℕ → Pool Block → Pool Block
  | 0, pool => pool
  | n + 1, pool => freeEntries argv (loopCounter + 1) n (pool.free (entry pool argv loopCounter))

/-- What is freed is told from the protocol alone. -/
def restoreArgcArgv (shellParameters : ShellParameters) (old : Saved) (pool : Pool Block) :
    ShellParameters × Pool Block :=
  let pool :=
    match shellParameters.argv with
    | none => pool
    | some argv => (freeEntries argv 0 shellParameters.argc pool).free (some argv)
  (⟨old.argc, old.argv⟩, pool)

end UefiToolkit.ArgsPool
