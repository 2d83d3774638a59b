import UefiToolkit.Word
import UefiToolkit.Loop
import UefiToolkit.Mem

/-!
Updating the SPI flash, as `PlatformFlashAccessLib` does it: block by block, each compared
first, then erased, programmed and read back.

The flash is memory mapped for reads. It changes only through the cycles that the SPI
protocol executes, and what a cycle does to it is up to the device.
-/

namespace UefiToolkit.FlashModel

open UefiToolkit.Word UefiToolkit.Loop UefiToolkit.Mem

def BLOCK_SIZE : ℕ := 0x1000
def SIZE_4KB : ℕ := 0x1000
def TPL_NOTIFY : ℕ := 16

def SPI_OPCODE_WRITE_INDEX : ℕ := 2
def SPI_OPCODE_ERASE_INDEX : ℕ := 4
/-- `SPI_WREN`, the first prefix opcode. -/
def SPI_WREN : ℕ := 0

/-- The arguments of one `Execute`, without the region, which is always the whole flash. -/
structure SpiCycle where
  opcodeIndex : ℕ
  prefixOpcodeIndex : ℕ
  dataCycle : Bool
  atomic : Bool
  shiftOut : Bool
  address : ℕ
  data : List UInt8
  deriving DecidableEq

/-- A platform: what a cycle does, and whether the next pool allocation succeeds. -/
structure Platform (δ : Type) where
  execute : δ → (ℕ → UInt8) → SpiCycle → Status × (ℕ → UInt8) × δ
  allocatePool : δ → ℕ → Bool × δ

inductive Event
  | execute (q : SpiCycle)
  | raiseTpl (tpl : ℕ)
  | restoreTpl (tpl : ℕ)
  | progress (percent : ℕ)
  deriving DecidableEq

/-- The flash content by offset into the flash area, the task priority, and what happened. -/
structure St (δ : Type) where
  dev : δ
  flash : ℕ → UInt8
  tpl : ℕ
  trace : List Event

/-- `PcdFlashAreaBaseAddress` and `PcdFlashAreaSize`. -/
structure Config where
  base : ℕ
  size : ℕ

/-- `FLASH_ADDRESS_TYPE`. -/
inductive AddressType
  | relative
  | absolute
  deriving DecidableEq

variable {δ : Type} (c : Config) (p : Platform δ)

def St.note (s : St δ) (e : Event) : St δ := { s with trace := s.trace ++ [e] }

def execute (s : St δ) (q : SpiCycle) : Status × St δ :=
  let r := p.execute s.dev s.flash q
  (r.1, { s.note (.execute q) with flash := r.2.1, dev := r.2.2 })

def allocatePool (s : St δ) (n : ℕ) : Bool × St δ :=
  let r := p.allocatePool s.dev n
  (r.1, { s with dev := r.2 })

def raiseTpl (s : St δ) (tpl : ℕ) : ℕ × St δ :=
  (s.tpl, { s.note (.raiseTpl tpl) with tpl := tpl })

def restoreTpl (s : St δ) (tpl : ℕ) : St δ := { s.note (.restoreTpl tpl) with tpl := tpl }

def progress (s : St δ) (present : Bool) (percent : ℕ) : St δ :=
  if present then s.note (.progress percent) else s

/-- `CopyMem` from the mapped flash, which always succeeds. -/
def spiFlashRead (address numBytes : ℕ) (s : St δ) : Status × List UInt8 :=
  (EFI_SUCCESS, slice s.flash (address - c.base) numBytes)

/-- The variables of the two loops that issue cycles. -/
structure Cycles (δ : Type) where
  status : Status
  remainingBytes : ℕ
  offset : ℕ
  buffer : ℕ
  s : St δ

/-- Bytes remain and no cycle failed: a failed one breaks out of the loop. -/
def Cycles.more (x : Cycles δ) : Bool := decide (0 < x.remainingBytes) && !efiError x.status

/-- One round of the program loop. -/
def writeStep (buffer : ℕ → UInt8) (x : Cycles δ) : Cycles δ :=
  let length := if SIZE_4KB < x.remainingBytes then SIZE_4KB else x.remainingBytes
  let (status, s) := execute p x.s ⟨SPI_OPCODE_WRITE_INDEX, SPI_WREN, true, true, true,
    u32 x.offset, slice buffer x.buffer length⟩
  if efiError status then { x with status := status, s := s }
  else ⟨status, x.remainingBytes - length, u64 (x.offset + length), x.buffer + length, s⟩

/-- One round of the erase loop. -/
def eraseStep (x : Cycles δ) : Cycles δ :=
  let (status, s) := execute p x.s ⟨SPI_OPCODE_ERASE_INDEX, SPI_WREN, false, true, true,
    u32 x.offset, []⟩
  if efiError status then { x with status := status, s := s }
  else { x with status := status, remainingBytes := sub64 x.remainingBytes SIZE_4KB,
                offset := u64 (x.offset + SIZE_4KB), s := s }

/-- Program `numBytes` bytes of `buffer`, from index `start` on: the status, the number of
bytes written, the state. -/
def spiFlashWrite (buffer : ℕ → UInt8) (fuel address numBytes start : ℕ) (s : St δ) :
    Option (Status × ℕ × St δ) :=
  (whileFuel Cycles.more (fun x => some (writeStep p buffer x)) fuel
    ⟨EFI_SUCCESS, numBytes, sub64 address c.base, start, s⟩).map
    fun x => (x.status, numBytes - x.remainingBytes, x.s)

def spiFlashBlockErase (fuel address numBytes : ℕ) (s : St δ) : Option (Status × ℕ × St δ) :=
  (whileFuel Cycles.more (fun x => some (eraseStep p x)) fuel
    ⟨EFI_SUCCESS, numBytes, sub64 address c.base, 0, s⟩).map
    fun x => (x.status, sub64 numBytes x.remainingBytes, x.s)

def internalEraseBlock (fuel baseAddress : ℕ) (s : St δ) : Option (Status × St δ) :=
  (spiFlashBlockErase c p fuel baseAddress BLOCK_SIZE s).map fun r => (r.1, r.2.2)

/-- Compare a block of flash with the buffer from index `start` on. -/
def internalCompareBlock (buffer : ℕ → UInt8) (baseAddress start : ℕ) (s : St δ) :
    Status × St δ :=
  let (allocated, s) := allocatePool p s BLOCK_SIZE
  if !allocated then (EFI_OUT_OF_RESOURCES, s)
  else
    let (status, compareBuffer) := spiFlashRead c baseAddress BLOCK_SIZE s
    if efiError status then (status, s)
    else if compareBuffer ≠ slice buffer start BLOCK_SIZE then (EFI_VOLUME_CORRUPTED, s)
    else (status, s)

def internalWriteBlock (buffer : ℕ → UInt8) (fuel baseAddress start bufferSize : ℕ) (s : St δ) :
    Option (Status × St δ) :=
  (spiFlashWrite c p buffer fuel baseAddress bufferSize start s).bind fun (status, _, s) =>
    if efiError status then some (status, s)
    else some (internalCompareBlock c p buffer baseAddress start s)

/-- The body of the loop: nothing for a block that matches, else erase and write. -/
def updateBlock (buffer : ℕ → UInt8) (fuel address buf length : ℕ) (status : Status) (s : St δ) :
    Option (Status × St δ) :=
  let (compared, s) := internalCompareBlock c p buffer address buf s
  if !efiError compared then some (status, s)
  else
    (internalEraseBlock c p fuel address s).bind fun (status, s) =>
      if efiError status then some (status, s)
      else internalWriteBlock c p buffer fuel address buf
        (u32 (if BLOCK_SIZE < length then BLOCK_SIZE else length)) s

/-- What the progress function is told before block `index`. -/
def percentage (startPercentage endPercentage countOfBlocks index : ℕ) : ℕ :=
  u64 (startPercentage +
    u64 (index * sub64 endPercentage startPercentage) / countOfBlocks)

/-- The loop over the blocks, `n` of them left. The last component of the result says that
the loop was left by `goto Done`, with the task priority already restored. -/
def blockLoop (buffer : ℕ → UInt8) (fuel : ℕ) (present : Bool)
    (startPercentage endPercentage countOfBlocks oldTpl : ℕ) :
    ℕ → ℕ → ℕ → ℕ → Status → St δ → Option (Status × St δ × Bool)
  | 0, _, _, _, status, s => some (status, s, false)
  | n + 1, address, buf, length, status, s =>
    let s := progress s present
      (percentage startPercentage endPercentage countOfBlocks (countOfBlocks - (n + 1)))
    (updateBlock c p buffer fuel address buf length status s).bind fun (status, s) =>
      if efiError status then some (status, restoreTpl s oldTpl, true)
      else blockLoop buffer fuel present startPercentage endPercentage countOfBlocks oldTpl n
        (u64 (address + BLOCK_SIZE)) (buf + BLOCK_SIZE)
        (if BLOCK_SIZE < length then length - BLOCK_SIZE else 0) status s

def performFlashWriteWithProgress (buffer : ℕ → UInt8) (fuel flashAddress : ℕ)
    (flashAddressType : AddressType) (length : ℕ) (present : Bool)
    (startPercentage endPercentage : ℕ) (s : St δ) : Option (Status × St δ) :=
  let flashAddress :=
    if flashAddressType = .relative then u64 (flashAddress + c.base) else flashAddress
  let countOfBlocks := length / BLOCK_SIZE
  let (oldTpl, s) := raiseTpl s TPL_NOTIFY
  (blockLoop c p buffer fuel present startPercentage endPercentage countOfBlocks oldTpl
    countOfBlocks flashAddress 0 length EFI_SUCCESS s).map fun (status, s, left) =>
      let s := if left then s else restoreTpl s oldTpl
      (status, progress s present endPercentage)

def performFlashWrite (buffer : ℕ → UInt8) (fuel flashAddress : ℕ)
    (flashAddressType : AddressType) (length : ℕ) (s : St δ) : Option (Status × St δ) :=
  performFlashWriteWithProgress c p buffer fuel flashAddress flashAddressType length false 0 0 s

end UefiToolkit.FlashModel
