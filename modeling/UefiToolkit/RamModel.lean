import UefiToolkit.Word
import UefiToolkit.Loop
import UefiToolkit.Bytes

/-!
The debug log in RAM, as `RamDebugLib` keeps it: a sixteen byte header (signature, latest
index, reserved) and, behind it, records that end in NUL. Memory is reached through MMIO
reads and writes only, and every one of them is kept in a trace.
-/

namespace UefiToolkit.RamModel

open UefiToolkit.Word UefiToolkit.Loop UefiToolkit.Mem UefiToolkit.Bytes

/-- One MMIO access. -/
inductive Access
  | rd8 (a : ℕ)
  | rd32 (a : ℕ)
  | wr8 (a : ℕ) (v : UInt8)
  | wr32 (a v : ℕ)
  deriving DecidableEq

/-- Memory, whether it takes writes, and the accesses made so far. -/
structure St where
  mem : ℕ → UInt8
  writable : Bool
  trace : List Access

def St.note (s : St) (x : Access) : St := { s with trace := s.trace ++ [x] }

def mmioRead8 (s : St) (a : ℕ) : UInt8 × St := (s.mem a, s.note (.rd8 a))

def mmioRead32 (s : St) (a : ℕ) : ℕ × St := (word32 s.mem a, s.note (.rd32 a))

def mmioWrite8 (s : St) (a : ℕ) (v : UInt8) : St :=
  { s.note (.wr8 a v) with mem := if s.writable then put s.mem a v else s.mem }

def mmioWrite32 (s : St) (a v : ℕ) : St :=
  { s.note (.wr32 a v) with mem := if s.writable then blit s.mem a (le32 v) else s.mem }

/-- `RAM_DEBUG_BASE` and `RAM_DEBUG_SIZE`, both `UINT32`. -/
structure Config where
  base : ℕ
  size : ℕ

/-- `SIGNATURE_32 ('R', 'M', 'D', 'P')`. -/
def RAM_DEBUG_HEADER_ID : ℕ := 0x50444D52
def RAM_DEBUG_DISABLE : UInt8 := 0x5A
def DEBUG_STRING_END_FLAG : UInt8 := 0
def DEBUG_PRINT_BUFFER_DFT_VALUE : UInt8 := 0xCC
/-- `sizeof (RAM_DEBUG_PRINT_HEADER)`. -/
def headerSize : ℕ := 16

variable (c : Config)

def sigAddr : ℕ := c.base
def latestIdxAddr : ℕ := c.base + 4
def bufferStart : ℕ := c.base + headerSize
def bufferSize : ℕ := sub64 c.size headerSize

/-- `for (Index = 0; Index < bound; Index++) MmioWrite8 (addr + Index, DFT_VALUE)`, with a
32-bit `Index`. -/
def fillDefault (addr bound fuel : ℕ) (s : St) : Option St :=
  (whileFuel (fun x : ℕ × St => decide (x.1 < bound))
    (fun x => some (u32 (x.1 + 1), mmioWrite8 x.2 (addr + x.1) DEBUG_PRINT_BUFFER_DFT_VALUE))
    fuel (0, s)).map Prod.snd

def ramDebugGetLatestIndex (fuel : ℕ) (s : St) : Option (Except Status ℕ × St) :=
  if c.base = 0 then some (.error EFI_INVALID_PARAMETER, s)
  else if c.size = 0 then some (.error EFI_INVALID_PARAMETER, s)
  else
    let (ramDebugSig, s) := mmioRead32 s (sigAddr c)
    if ramDebugSig ≠ RAM_DEBUG_HEADER_ID then
      -- the first time here: initialise the header and the buffer
      let s := mmioWrite32 s (sigAddr c) RAM_DEBUG_HEADER_ID
      let (ramDebugSig, s) := mmioRead32 s (sigAddr c)
      if ramDebugSig ≠ RAM_DEBUG_HEADER_ID then some (.error EFI_WRITE_PROTECTED, s)
      else
        let s := mmioWrite32 s (latestIdxAddr c) 0
        (fillDefault (bufferStart c) (bufferSize c) fuel s).bind fun s =>
          let (latestIndex, s) := mmioRead32 s (latestIdxAddr c)
          some (.ok latestIndex, s)
    else
      let (latestIndex, s) := mmioRead32 s (latestIdxAddr c)
      some (.ok latestIndex, s)

/-- The `do … while` of `RamDebugGetRecordSize`, from the running record size on. -/
def recordSizeLoop : ℕ → ℕ → ℕ → St → Option (ℕ × St)
  | 0, _, _, _ => none
  | fuel + 1, recordAddr, recordSize, s =>
    let (bufValue8, s) := mmioRead8 s recordAddr
    let recordAddr := u64 (recordAddr + 1)
    let recordSize := u32 (recordSize + 1)
    if bufValue8 ≠ DEBUG_STRING_END_FLAG then recordSizeLoop fuel recordAddr recordSize s
    else some (recordSize, s)

def ramDebugGetRecordSize (fuel recordAddr : ℕ) (s : St) : Option (ℕ × St) :=
  recordSizeLoop fuel recordAddr 0 s

/-- The variables of the loop that counts the records to remove. -/
structure Removal where
  recordOffset : ℕ
  remainedSize : ℕ
  s : St

def removeRound (fuel : ℕ) (x : Removal) : Option Removal :=
  (ramDebugGetRecordSize fuel (bufferStart c + x.recordOffset) x.s).map fun r =>
    ⟨u32 (x.recordOffset + r.1), u32 (x.remainedSize + r.1), r.2⟩

/-- `while (RemainedSize < NewRecordLength)`: how many records need be removed. -/
def removeLoop (newRecordLength fuel : ℕ) (x : Removal) : Option Removal :=
  whileFuel (fun x => decide (x.remainedSize < newRecordLength)) (removeRound c fuel) fuel x

/-- Move the byte at the index forward by `recordOffset`. -/
def moveRound (recordOffset : ℕ) (y : ℕ × St) : Option (ℕ × St) :=
  let (value8, s) := mmioRead8 y.2 (bufferStart c + recordOffset + y.1)
  some (u32 (y.1 + 1), mmioWrite8 s (bufferStart c + y.1) value8)

/-- `for (Index = 0; Index < bound; Index++)`: move `bound` bytes. -/
def moveLoop (recordOffset bound fuel : ℕ) (s : St) : Option St :=
  (whileFuel (fun y : ℕ × St => decide (y.1 < bound)) (moveRound c recordOffset) fuel
    (0, s)).map Prod.snd

def ramDebugCleanUp (fuel newRecordLength latestIndex : ℕ) (s : St) : Option (ℕ × St) := do
  let remainedSize := u32 (sub64 (bufferSize c) latestIndex)
  let x ← removeLoop c newRecordLength fuel ⟨0, remainedSize, s⟩
  let s ← moveLoop c x.recordOffset (sub32 latestIndex x.recordOffset) fuel x.s
  let latestIndex := sub32 latestIndex x.recordOffset
  let s ← fillDefault (bufferStart c + latestIndex) (sub64 (bufferSize c) latestIndex) fuel s
  some (latestIndex, s)

/-- `RAM_DEBUG_STOP_LOGGING_WHEN_BUFFER_FULL`. -/
def stopLoggingWhenBufferFull : Bool := false

/-- `while (Counter--) MmioWrite8 (DebugPrintBufferAddr++, *Buffer++)`. -/
def copyRecord (buffer : ℕ → UInt8) : ℕ → ℕ → ℕ → St → St
  | 0, _, _, s => s
  | counter + 1, addr, i, s =>
    copyRecord buffer counter (addr + 1) (i + 1) (mmioWrite8 s addr (buffer i))

/-- `RamDebugPrint`, with the value the CMOS flag holds at the call. -/
def ramDebugPrint (fuel : ℕ) (cmosFlag : UInt8) (buffer : ℕ → UInt8) (size : ℕ) (s : St) :
    Option St :=
  if cmosFlag = RAM_DEBUG_DISABLE then some s
  else if bufferSize c < size then some s
  else do
    let (status, s) ← ramDebugGetLatestIndex c fuel s
    match status with
    | .error _ => some s
    | .ok latestIndex =>
      let tempBufferSize := u32 (u32 size + 1)
      let (latestIndex, s) ←
        if bufferSize c < u32 (latestIndex + tempBufferSize) ∧ !stopLoggingWhenBufferFull then
          ramDebugCleanUp c fuel tempBufferSize latestIndex s
        else some (latestIndex, s)
      if u32 (latestIndex + tempBufferSize) ≤ bufferSize c then
        let s := copyRecord buffer tempBufferSize (bufferStart c + latestIndex) 0 s
        some (mmioWrite32 s (latestIdxAddr c) (u32 (latestIndex + tempBufferSize)))
      else some s

/-- A call: what the CMOS flag holds, and the string with its size. -/
structure Call where
  cmosFlag : UInt8
  buffer : ℕ → UInt8
  size : ℕ

/-- The call's string, without its NUL. -/
def Call.msg (x : Call) : List UInt8 := slice x.buffer 0 x.size

def Call.print (fuel : ℕ) (s : St) (x : Call) : Option St :=
  ramDebugPrint c fuel x.cmosFlag x.buffer x.size s

end UefiToolkit.RamModel
