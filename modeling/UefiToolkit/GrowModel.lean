import UefiToolkit.ConsoleString
import UefiToolkit.Loop

/-!
The buffer under a string that grows, as `ConsoleStrnCatGrow` keeps it.

The buffer is the list of its characters, with a terminator somewhere in it and whatever behind
that. The source of an append is another string, which does not overlap the buffer.
-/

namespace UefiToolkit.GrowModel

open UefiToolkit.Word UefiToolkit.ArgsModel

/-! ### Strings in buffers -/

/-- `StrSize`; none where the buffer holds no terminator. -/
def strSize (cells : List UInt16) : Option ℕ :=
  if CHAR_NULL ∈ cells then some (u64 (2 * ((strAt cells 0).length + 1))) else none

/-- `StrnLenS`. -/
def strnLenS (cells : List UInt16) (maxSize : ℕ) : ℕ := (strAt (cells.take maxSize) 0).length

/-- `StrnCatS`; `limit` is the longest string the safe string functions take. -/
def strnCatS (limit : ℕ) (cells : List UInt16) (destMax : ℕ) (source : Str) (length : ℕ) :
    Status × List UInt16 :=
  let destLen := strnLenS cells destMax
  let copyLen := destMax - destLen
  if limit < length ∨ limit < destMax ∨ destMax = 0 then (EFI_INVALID_PARAMETER, cells)
  else if copyLen = 0 then (EFI_BAD_BUFFER_SIZE, cells)
  else
    let sourceLen := min source.length (min copyLen length)
    if copyLen ≤ length ∧ copyLen ≤ sourceLen then (EFI_BUFFER_TOO_SMALL, cells)
    else (EFI_SUCCESS, cells.take destLen ++ source.take sourceLen ++ [CHAR_NULL] ++
      cells.drop (destLen + sourceLen + 1))

/-- `ReallocatePool`: the new buffer begins like the old one, and is zero behind that. -/
def reallocatePool (oldSize newSize : ℕ) (old : Option (List UInt16)) : List UInt16 :=
  let kept := (old.getD []).take (min oldSize newSize / 2)
  kept ++ List.replicate (newSize / 2 - kept.length) CHAR_NULL

/-! ### Appending -/

/-- `*Destination` and `*CurrentSize`. -/
structure Dest where
  buffer : Option (List UInt16)
  currentSize : ℕ
  deriving DecidableEq

/-- `while (NewSize < Need) NewSize += 2 * Count * sizeof (CHAR16);`. -/
def growLoop (fuel need count newSize : ℕ) : Option ℕ :=
  Loop.whileFuel (fun newSize => newSize < need)
    (fun newSize => some (u64 (newSize + 2 * count * 2))) fuel newSize

/-- `DestinationStartSize`; none where an assertion on the destination fails. -/
def startSize (d : Dest) : Option ℕ :=
  match d.buffer with
  | none => some 0
  | some cells => (strSize cells).filter (· ≤ d.currentSize)

/-- The append to a buffer that is large enough, if there is one. -/
def append (limit : ℕ) (d : Dest) (source : Str) (count : ℕ) : Dest × List Status :=
  match d.buffer with
  | none => (d, [])
  | some cells =>
    let (status, cells) := strnCatS limit cells (d.currentSize / 2) source count
    ({ d with buffer := some cells }, [status])

variable {ε : Type} (allocate : ε → ℕ → Bool × ε)

/-- With a size and a source; what `StrnCatS` answers is noted and goes nowhere. -/
def consoleStrnCatGrow (limit fuel : ℕ) (d : Dest) (source : Str) (count : ℕ) (env : ε) :
    Option (Dest × List Status × ε) :=
  let d := if d.currentSize = 0 then { d with buffer := none } else d
  (startSize d).bind fun destinationStartSize =>
    let count := if count = 0 then source.length else count
    let need := u64 (destinationStartSize + count * 2)
    if d.currentSize < need then
      (growLoop fuel need count d.currentSize).map fun newSize =>
        let (allocated, env) := allocate env newSize
        let buffer :=
          if allocated then some (reallocatePool d.currentSize newSize d.buffer) else none
        let (d, statuses) := append limit ⟨buffer, newSize⟩ source count
        (d, statuses, env)
    else
      let (d, statuses) := append limit d source count
      some (d, statuses, env)

/-! ### One append after the other -/

/-- A string to append, and how many characters of it; zero for all. -/
structure Append where
  source : Str
  chars : ∀ c ∈ source, isChar c = true
  count : ℕ

/-- The pair, what `StrnCatS` answered so far, and the pool. -/
structure Grow (ε : Type) where
  dest : Dest
  statuses : List Status
  env : ε

def grow (limit fuel : ℕ) (s : Grow ε) (a : Append) : Option (Grow ε) :=
  (consoleStrnCatGrow allocate limit fuel s.dest a.source a.count s.env).map
    fun (dest, statuses, env) => ⟨dest, s.statuses ++ statuses, env⟩

end UefiToolkit.GrowModel
