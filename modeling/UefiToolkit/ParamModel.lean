import UefiToolkit.ConsoleString

/-!
Sorting the arguments of a command into flags with their values and positional parameters, as
`ConsoleParameters` does it.

A package is its nodes from the first on. The node under work is kept apart until it is inserted;
nothing writes to it afterwards.
-/

namespace UefiToolkit.ParamModel

open UefiToolkit.Word UefiToolkit.ArgsModel UefiToolkit.ConsoleString

def CHAR_MINUS : UInt16 := 0x2D
def CHAR_PLUS : UInt16 := 0x2B
def CHAR_SLASH : UInt16 := 0x2F
def CHAR_COLON : UInt16 := 0x3A

/-- `(UINTN)(-1)`. -/
def UINTN_MAX : ℕ := 2 ^ 64 - 1

/-- `SHELL_PARAM_TYPE`. -/
inductive ParamType
  | flag
  | value
  | position
  | start
  | doubleValue
  | maxValue
  | timeValue
  deriving DecidableEq

/-- `SHELL_PARAM_ITEM`. A check list is its items before the one without a name. -/
structure ParamItem where
  name : Str
  type : ParamType

/-- `SHELL_PARAM_PACKAGE`, without its link. -/
structure ParamPackage where
  name : Option Str
  type : ParamType
  value : Option Str
  originalPosition : ℕ
  deriving DecidableEq

/-- `sizeof (SHELL_PARAM_PACKAGE)`. -/
def packageSize : ℕ := 48
/-- `sizeof (LIST_ENTRY)`. -/
def listEntrySize : ℕ := 16

/-! ### Numbers -/

def isDecimalDigitCharacter (c : UInt16) : Bool := 0x30 ≤ c && c ≤ 0x39

def isHexaDecimalDigitCharacter (c : UInt16) : Bool :=
  (0x30 ≤ c && c ≤ 0x39) || (0x41 ≤ c && c ≤ 0x46) || (0x61 ≤ c && c ≤ 0x66)

/-- The characters that are left belong to a number. -/
def onlyDigits (hex stopAtSpace timeNumbers : Bool) : Str → Bool
  | [] => true
  | c :: s =>
    if stopAtSpace ∧ c = CHAR_SPACE then true
    else if timeNumbers ∧ c = CHAR_COLON then onlyDigits hex stopAtSpace timeNumbers s
    else if hex then
      isHexaDecimalDigitCharacter c && onlyDigits hex stopAtSpace timeNumbers s
    else isDecimalDigitCharacter c && onlyDigits hex stopAtSpace timeNumbers s

def internalShellIsHexOrDecimalNumber (string : Str) (forceHex stopAtSpace timeNumbers : Bool) :
    Bool :=
  let string := if string.head? = some CHAR_MINUS then string.tail else string
  if string = [] then false
  else
    let leadingZero := decide (string.head? = some 0x30)
    let string := string.dropWhile (· = 0x30)
    -- `0x` or `0X`, but not `x` or `X`
    if string.head? = some 0x78 ∨ string.head? = some 0x58 then
      if !leadingZero then false else onlyDigits true stopAtSpace timeNumbers string.tail
    else onlyDigits forceHex stopAtSpace timeNumbers string

/-! ### The check list -/

/-- `StrnCmp` finds no difference. -/
def strnCmp (first second : Str) (length : ℕ) : Bool := first.take length = second.take length

/-- `StrCpyS` to a buffer of `destMax` characters; what does not fit leaves it alone. -/
def strCpyS (limit : ℕ) (destination : Str) (destMax : ℕ) (source : Str) : Str :=
  if limit < destMax ∨ destMax ≤ source.length then destination else source

/-- `StrCatS`, likewise. -/
def strCatS (limit : ℕ) (destination : Str) (destMax : ℕ) (source : Str) : Str :=
  if limit < destMax ∨ destMax ≤ destination.length + source.length then destination
  else destination ++ source

def QUESTION_MARK : Str := [CHAR_MINUS, 0x3F]
def PAGE_BREAK : Str := [CHAR_MINUS, 0x62]

variable {ε : Type} (limit : ℕ) (stringNoCaseCompare : Str → Str → ℤ)
  (allocate : ε → ℕ → Bool × ε)

/-- The type of the first item that fits the name. Of a `TypeStart` item only the beginning of
the name is compared. -/
def findItem (name : Str) : List ParamItem → ε → Option ParamType × ε
  | [], env => (none, env)
  | item :: checkList, env =>
    if item.type = .start then
      if strnCmp name item.name item.name.length then (some item.type, env)
      else
        let (tempString, _, env) :=
          strnCatGrow allocate limit none none name item.name.length env
        if tempString.map (stringNoCaseCompare · item.name) = some 0 then (some item.type, env)
        else findItem name checkList env
    else if stringNoCaseCompare name item.name = 0 then (some item.type, env)
    else findItem name checkList env

/-- A question mark and the page break mode are always supported. -/
def internalIsOnCheckList (name : Str) (checkList : List ParamItem) (env : ε) :
    Option ParamType × ε :=
  if name = QUESTION_MARK ∨ name = PAGE_BREAK then (some .flag, env)
  else findItem limit stringNoCaseCompare allocate name checkList env

def internalIsFlag (name : Str) (alwaysAllowNumbers timeNumbers : Bool) : Bool :=
  if ((name.head? = some CHAR_MINUS ∨ name.head? = some CHAR_PLUS) ∧
      internalShellIsHexOrDecimalNumber name.tail false false timeNumbers = true) ∧
      alwaysAllowNumbers = true then false
  else decide (name.head? = some CHAR_SLASH ∨ name.head? = some CHAR_MINUS ∨
    name.head? = some CHAR_PLUS)

/-! ### The package -/

/-- The variables of the loop. -/
structure Parser (ε : Type) where
  checkPackage : List ParamPackage
  currentItemPackage : Option ParamPackage
  getItemValue : ℕ
  valueSize : ℕ
  count : ℕ
  env : ε

/-- What a call leaves. -/
structure Result (ε : Type) where
  status : Status
  /-- What is stored into `*CheckPackage`. -/
  checkPackage : Option (List ParamPackage)
  /-- What is stored into `*ProblemParam`, if anything is. -/
  problemParam : Option (Option Str)
  env : ε

def outOfResources (env : ε) : Result ε := ⟨EFI_OUT_OF_RESOURCES, none, none, env⟩

/-- A flag that still waits for values is inserted as it is. -/
def insertLeftover (s : Parser ε) : Parser ε :=
  if s.getItemValue ≠ 0 then
    { s with getItemValue := 0
             checkPackage := s.currentItemPackage.toList ++ s.checkPackage }
  else s

/-- `AllocateCopyPool` of a string. -/
def copyString (string : Str) (env : ε) : Option Str × ε :=
  let (allocated, env) := allocate env (strSize string)
  (if allocated then some string else none, env)

/-- The package begins to wait for values. -/
def wantValues (package : ParamPackage) (n : ℕ) (s : Parser ε) : Parser ε :=
  { s with currentItemPackage := some package, getItemValue := n, valueSize := 0 }

/-- The package is inserted. -/
def insertPackage (package : ParamPackage) (s : Parser ε) : Parser ε :=
  { s with currentItemPackage := some package, checkPackage := package :: s.checkPackage }

/-- An argument on the check list. -/
def takeFlag (argument : Str) (type : ParamType) (s : Parser ε) : Except (Result ε) (Parser ε) :=
  let s := insertLeftover s
  let (allocated, env) := allocate s.env packageSize
  if !allocated then .error (outOfResources env)
  else
    match copyString allocate argument env with
    | (none, env) => .error (outOfResources env)
    | (some name, env) =>
      let s := { s with env := env }
      let package : ParamPackage := ⟨some name, type, none, UINTN_MAX⟩
      match type with
      | .value | .timeValue => .ok (wantValues package 1 s)
      | .doubleValue => .ok (wantValues package 2 s)
      | .maxValue => .ok (wantValues package UINTN_MAX s)
      | _ => .ok (insertPackage package s)

/-- An argument that is a value of the flag before it. -/
def takeValue (argument : Str) (package : ParamPackage) (s : Parser ε) :
    Except (Result ε) (Parser ε) :=
  let currentValueSize := s.valueSize + strSize argument + 2
  let (allocated, env) := allocate s.env currentValueSize
  if !allocated then .error (outOfResources env)
  else
    let value := package.value.getD []
    let value :=
      if s.valueSize = 0 then strCpyS limit value (currentValueSize / 2) argument
      else strCatS limit (strCatS limit value (currentValueSize / 2) [CHAR_SPACE])
        (currentValueSize / 2) argument
    let package := { package with value := some value }
    let s := { s with currentItemPackage := some package
                      valueSize := s.valueSize + (strSize argument + 2)
                      getItemValue := s.getItemValue - 1
                      env := env }
    .ok (if s.getItemValue = 0 then insertPackage package s else s)

/-- A `^` in front of a switch character is dropped. -/
def stripEscape : Str → Str
  | c :: d :: s =>
    if c = CHAR_ESCAPE ∧ (d = CHAR_MINUS ∨ d = CHAR_SLASH ∨ d = CHAR_PLUS) then d :: s
    else c :: d :: s
  | s => s

/-- An argument that is no flag. -/
def takePositional (argument : Str) (s : Parser ε) : Except (Result ε) (Parser ε) :=
  let tempPointer := stripEscape argument
  let (allocated, env) := allocate s.env packageSize
  if !allocated then .error (outOfResources env)
  else
    match copyString allocate tempPointer env with
    | (none, env) => .error (outOfResources env)
    | (some value, env) =>
      .ok (insertPackage ⟨none, .position, some value, s.count⟩
        { s with count := s.count + 1, env := env })

/-- A flag that is not recognised. -/
def rejectFlag (problemParam : Bool) (argument : Str) (s : Parser ε) : Result ε :=
  let (problem, env) :=
    if problemParam then
      let (copy, env) := copyString allocate argument s.env
      (some copy, env)
    else (none, s.env)
  ⟨EFI_VOLUME_CORRUPTED, none, problem, env⟩

variable (checkList : List ParamItem) (problemParam alwaysAllowNumbers : Bool)

/-- The flag before the argument waits for it. -/
def waitsFor (argument : Str) (s : Parser ε) : Option ParamPackage :=
  if s.getItemValue ≠ 0 then
    s.currentItemPackage.filter fun package =>
      !internalIsFlag argument alwaysAllowNumbers (decide (package.type = .timeValue))
  else none

def parseArgument (argument : Option Str) (s : Parser ε) : Except (Result ε) (Parser ε) :=
  match argument with
  -- do nothing for NULL argv
  | none => .ok s
  | some argument =>
    let (type, env) :=
      internalIsOnCheckList limit stringNoCaseCompare allocate argument checkList s.env
    let s := { s with env := env }
    match type with
    | some type => takeFlag allocate argument type s
    | none =>
      match waitsFor alwaysAllowNumbers argument s with
      | some package => takeValue limit allocate argument package s
      | none =>
        if !internalIsFlag argument alwaysAllowNumbers false then
          takePositional allocate argument s
        else .error (rejectFlag allocate problemParam argument s)

/-- `problemParam` says whether the pointer is given. -/
def internalCommandLineParse (argv : List (Option Str)) (env : ε) : Result ε :=
  if argv.length < 1 then ⟨EFI_SUCCESS, none, none, env⟩
  else
    let (allocated, env) := allocate env listEntrySize
    if !allocated then outOfResources env
    else
      let parsed := argv.foldlM
        (fun s argument => parseArgument limit stringNoCaseCompare allocate checkList problemParam
          alwaysAllowNumbers argument s) (Parser.mk [] none 0 0 0 env)
      match parsed with
      | .error result => result
      | .ok s => ⟨EFI_SUCCESS, some (insertLeftover s).checkPackage, none, s.env⟩

/-! ### Reading a package -/

def commandLineGetRawValue (checkPackage : Option (List ParamPackage)) (position : ℕ) :
    Option Str :=
  checkPackage.bind fun nodes =>
    (nodes.find? fun node => decide (node.originalPosition = position)).bind ParamPackage.value

def commandLineGetCount (checkPackage : Option (List ParamPackage)) : ℕ :=
  (checkPackage.map fun nodes => nodes.countP fun node => node.name.isNone).getD 0

end UefiToolkit.ParamModel
