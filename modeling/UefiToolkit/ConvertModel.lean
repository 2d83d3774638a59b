import UefiToolkit.ParamModel

/-!
The numbers of the console, as `ConsoleParameters` recognises and converts them.

A string is its characters before the terminator. A converter gives back what it stores to its
output, and none where it stores nothing.
-/

namespace UefiToolkit.ConvertModel

open UefiToolkit.Word UefiToolkit.ArgsModel UefiToolkit.ParamModel

/-- `(UINT64) ~0`. -/
def UINT64_MAX : ℕ := 2 ^ 64 - 1

def CHAR_ZERO : UInt16 := 0x30
def CHAR_X : UInt16 := 0x58

/-- `L"0x"`. -/
def PREFIX_X_LOWER : Str := [CHAR_ZERO, 0x78]
/-- `L"0X"`. -/
def PREFIX_X_UPPER : Str := [CHAR_ZERO, CHAR_X]

def internalConsoleCharToUpper (c : UInt16) : UInt16 := if 0x61 ≤ c ∧ c ≤ 0x7A then c - 0x20 else c

def internalConsoleHexCharToUintn (c : UInt16) : ℕ :=
  if isDecimalDigitCharacter c then c.toNat - 0x30
  else sub64 (10 + (internalConsoleCharToUpper c).toNat) 0x41

/-- `*(String - 1)` at a rest of the string; `before` is what stands before the string. -/
def charBefore (before : UInt16) (string rest : Str) : UInt16 :=
  (before :: string).getD (string.length - rest.length) CHAR_NULL

/-- Behind the pad spaces and the leading zeros. -/
def skipPadAndZeros (string : Str) : Str :=
  (string.dropWhile fun c => c = CHAR_SPACE ∨ c = CHAR_TAB).dropWhile (· = CHAR_ZERO)

/-- The loop over the digits, alike for both radices but for the shifts that stand for 16. -/
def digitLoop (radix : ℕ) (isDigit : UInt16 → Bool) (digit : UInt16 → ℕ) (stopAtSpace : Bool)
    (result : ℕ) : Str → Status × Option ℕ
  | [] => (EFI_SUCCESS, some result)
  | c :: string =>
    if isDigit c then
      if ¬ result ≤ sub64 UINT64_MAX (digit c) / radix then (EFI_DEVICE_ERROR, none)
      else
        let result := add64 (mul64 result radix) (digit c)
        if stopAtSpace ∧ string.head? = some CHAR_SPACE then (EFI_SUCCESS, some result)
        else digitLoop radix isDigit digit stopAtSpace result string
    else (EFI_SUCCESS, some result)

def isX (string : Str) : Bool := string.head?.map internalConsoleCharToUpper = some CHAR_X

def internalConsoleStrHexToUint64 (before : UInt16) (string : Str) (stopAtSpace : Bool) :
    Status × Option ℕ :=
  let rest := skipPadAndZeros string
  if isX rest ∧ charBefore before string rest ≠ CHAR_ZERO then (EFI_SUCCESS, none)
  else
    let rest := if isX rest then rest.tail else rest
    -- there is a space where there should not be
    if rest.head? = some CHAR_SPACE then (EFI_INVALID_PARAMETER, none)
    else
      digitLoop 16 isHexaDecimalDigitCharacter internalConsoleHexCharToUintn stopAtSpace 0 rest

def internalConsoleStrDecimalToUint64 (string : Str) (stopAtSpace : Bool) : Status × Option ℕ :=
  let rest := skipPadAndZeros string
  if stopAtSpace ∧ rest.head? = some CHAR_SPACE then (EFI_SUCCESS, some 0)
  else digitLoop 10 isDecimalDigitCharacter (fun c => c.toNat - 0x30) stopAtSpace 0 rest

/-- The same text as `InternalShellIsHexOrDecimalNumber`. -/
def internalConsoleIsHexOrDecimalNumber (string : Str) (forceHex stopAtSpace timeNumbers : Bool) :
    Bool :=
  internalShellIsHexOrDecimalNumber string forceHex stopAtSpace timeNumbers

/-- `Hex` behind the two attempts to recognise the string; none where both fail. -/
def recognise (string : Str) (forceHex stopAtSpace : Bool) : Option Bool :=
  if internalConsoleIsHexOrDecimalNumber string forceHex stopAtSpace false then some forceHex
  else if !forceHex && internalConsoleIsHexOrDecimalNumber string true stopAtSpace false then
    some true
  else none

/-- The conversion of a string without leading spaces. -/
def convert (before : UInt16) (walker : Str) (hex stopAtSpace : Bool) : Status × Option ℕ :=
  if hex ∨ strnCmp walker PREFIX_X_LOWER 2 ∨ strnCmp walker PREFIX_X_UPPER 2 then
    internalConsoleStrHexToUint64 before walker stopAtSpace
  else internalConsoleStrDecimalToUint64 walker stopAtSpace

/-- The status, and `*Value` at the end; `Value` may be null. What `RetVal` holds before a converter
stores to it is `stack`. -/
def consoleConvertStringToUint64 (stack : ℕ) (before : UInt16) (string : Str) (value : Option ℕ)
    (forceHex stopAtSpace : Bool) : Status × Option ℕ :=
  match recognise string forceHex stopAtSpace with
  | none => (EFI_INVALID_PARAMETER, value)
  | some hex =>
    let walker := string.dropWhile (· = CHAR_SPACE)
    if walker = [] ∨ internalConsoleIsHexOrDecimalNumber walker hex stopAtSpace false = false then
      (EFI_INVALID_PARAMETER, value)
    else
      let (status, retVal) := convert (charBefore before string walker) walker hex stopAtSpace
      if value = none ∧ efiError status = false then (EFI_NOT_FOUND, none)
      else (status, value.map fun _ => retVal.getD stack)

end UefiToolkit.ConvertModel
