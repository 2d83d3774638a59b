import UefiToolkit.ConsoleString
import UefiToolkit.Loop

/-!
The commands of the debug shell: registered by name, kept in an ordered list, run by name.

The list is the nodes from the head on, without the head; a pointer to the head is `none`. What a
node holds is kept beside the list.
-/

namespace UefiToolkit.CommandModel

open UefiToolkit.Word UefiToolkit.Loop UefiToolkit.ArgsModel UefiToolkit.ConsoleString

def RETURN_ALREADY_STARTED : Status := MAX_BIT + 20

abbrev Node := ℕ
/-- The address of a function, or a handle. -/
abbrev Pointer := ℕ

/-- `SHELL_COMMAND_INTERNAL_LIST_ENTRY`, without its link. -/
structure Entry where
  commandString : Str
  getManFileName : Pointer
  commandHandler : Pointer
  lastError : Bool
  hiiHandle : Pointer
  manFormatHelp : UInt16

/-- `sizeof (SHELL_COMMAND_INTERNAL_LIST_ENTRY)`. -/
def entrySize : ℕ := 64

/-- The arguments of a registration. -/
structure Call where
  commandString : Str
  commandHandler : Pointer
  getManFileName : Pointer
  shellMinSupportLevel : ℕ
  profileName : Str
  canAffectLE : Bool
  hiiHandle : Pointer
  manFormatHelp : UInt16

def Call.entry (c : Call) : Entry :=
  ⟨c.commandString, c.getManFileName, c.commandHandler, c.canAffectLE, c.hiiHandle,
    c.manFormatHelp⟩

@[simp] lemma Call.entry_commandString (c : Call) : c.entry.commandString = c.commandString := rfl

/-- The collation protocol, the pool, and what a handler does. -/
structure Services (ε : Type) where
  striColl : Str → Str → ℤ
  allocatePool : ε → ℕ → Bool × ε
  commandHandler : Pointer → ε → ℕ × ε

structure St (ε : Type) where
  env : ε
  node : Node → Entry
  /-- The node the pool hands out next. -/
  fresh : Node
  commandList : List Node
  profileList : Option Str
  profileListSize : ℕ
  /-- The handlers that were run. -/
  ran : List Pointer

/-- The entries in list order. -/
def St.entries {ε : Type} (s : St ε) : List Entry := s.commandList.map s.node

variable {ε : Type} (e : Services ε)

def allocatePool (n : ℕ) (s : St ε) : Bool × St ε :=
  ((e.allocatePool s.env n).1, { s with env := (e.allocatePool s.env n).2 })

/-! ### The list -/

def getFirstNode (l : List Node) : Option Node := l.head?

def getNextNode (l : List Node) (n : Node) : Option Node := l[l.idxOf n + 1]?

def insertHeadList (l : List Node) (n : Node) : List Node := n :: l

/-- The two nodes trade places; the second is returned. -/
def swapListEntries (l : List Node) (first second : Node) : List Node × Node :=
  (l.map (Equiv.swap first second), second)

/-- The node with a command string that compares with `commandString` as equal. -/
def findCommand (commandString : Str) (s : St ε) : Option Node :=
  s.commandList.find? fun n => decide (e.striColl commandString (s.node n).commandString = 0)

def shellCommandIsCommandOnInternalList (commandString : Str) (s : St ε) : Bool :=
  (findCommand e commandString s).isSome

def shellCommandIsCommandOnList (commandString : Str) (s : St ε) : Bool :=
  if shellCommandIsCommandOnInternalList e commandString s then true else false

/-! ### Registering -/

/-- The variables of the loop that moves a new command to its place. -/
structure Move where
  list : List Node
  prevCommand : Node
  command : Option Node
  /-- The loop was left by `break`. -/
  left : Bool

def Move.more (w : Move) : Bool := w.command.isSome && !w.left

def moveStep (node : Node → Entry) (w : Move) : Option Move :=
  match w.command with
  | none => some w
  | some command =>
    let lexicalMatchValue :=
      e.striColl (node w.prevCommand).commandString (node command).commandString
    if 0 < lexicalMatchValue then
      let (list, command) := swapListEntries w.list w.prevCommand command
      some { w with list := list, command := getNextNode list command }
    else if lexicalMatchValue < 0 then some { w with left := true }
    else some { w with command := getNextNode w.list command }

def SEMICOLON : Str := [0x3B]

/-- The name of a profile that is not in the list of profiles yet is added to it. -/
def addProfile (limit : ℕ) (profileName : Str) (s : St ε) : St ε :=
  if 0 < profileName.length ∧ (s.profileList.map fun l => decide (profileName <:+: l)) ≠ some true
  then
    -- the first one gets a leading semicolon
    let (list, size, env) :=
      if s.profileList = none then
        strnCatGrow e.allocatePool limit s.profileList (some s.profileListSize) SEMICOLON 0 s.env
      else (s.profileList, some s.profileListSize, s.env)
    let (list, size, env) := strnCatGrow e.allocatePool limit list size profileName 0 env
    let (list, size, env) := strnCatGrow e.allocatePool limit list size SEMICOLON 0 env
    { s with profileList := list, profileListSize := size.getD 0, env := env }
  else s

/-- A node with the entry, not linked yet. -/
def newNode (x : Entry) (s : St ε) : Node × St ε :=
  (s.fresh, { s with node := Function.update s.node s.fresh x, fresh := s.fresh + 1 })

def consoleCommandRegisterCommandName (fuel limit : ℕ) (c : Call) (s : St ε) :
    Option (Status × St ε) :=
  if shellCommandIsCommandOnList e c.commandString s then some (RETURN_ALREADY_STARTED, s)
  else
    let (allocated, s) := allocatePool e entrySize s
    if !allocated then some (EFI_OUT_OF_RESOURCES, s)
    else
      let (allocated, s) := allocatePool e (strSize c.commandString) s
      if !allocated then some (EFI_OUT_OF_RESOURCES, s)
      else
        let (node, s) := newNode c.entry (addProfile e limit c.profileName s)
        let list := insertHeadList s.commandList node
        match getFirstNode list with
        | none => some (EFI_SUCCESS, { s with commandList := list })
        | some first =>
          (whileFuel Move.more (moveStep e s.node) fuel ⟨list, first, some first, false⟩).map
            fun w => (EFI_SUCCESS, { s with commandList := w.list })

/-- A run of registrations, with each call's status. -/
def registerAll (fuel limit : ℕ) (log : List (Call × Status)) :
    List Call → St ε → Option (List (Call × Status) × St ε)
  | [], s => some (log, s)
  | c :: calls, s =>
    (consoleCommandRegisterCommandName e fuel limit c s).bind fun (status, s) =>
      registerAll fuel limit (log ++ [(c, status)]) calls s

/-! ### Running -/

/-- The status, `*RetVal` and `*CanAffectLE` when they are stored. -/
def consoleCommandRunCommandHandler (commandString : Str) (s : St ε) :
    Status × Option ℕ × Option Bool × St ε :=
  match findCommand e commandString s with
  | none => (EFI_NOT_FOUND, none, none, s)
  | some n =>
    let (retVal, env) := e.commandHandler (s.node n).commandHandler s.env
    (EFI_SUCCESS, some retVal, some (s.node n).lastError,
      { s with env := env, ran := s.ran ++ [(s.node n).commandHandler] })

/-- The module's variables as the constructor leaves them. -/
def init (env : ε) : St ε where
  env := env
  node _ := ⟨[], 0, 0, false, 0, 0⟩
  fresh := 0
  commandList := []
  profileList := none
  profileListSize := 0
  ran := []

end UefiToolkit.CommandModel
