import UefiToolkit.Faults
import UefiToolkit.Mem
import UefiToolkit.StructPack
import UefiToolkit.Word

/-!
`uefi_avb_boot_kernel`: an Android boot image that was loaded is copied to where the kernel is to
be started from.

Reads of the image and accesses to the buffers are checked, and fault where they go outside. The
messages that are printed are left out.
-/

namespace UefiToolkit.BootModel

open UefiToolkit.Word UefiToolkit.Mem UefiToolkit.StructPack UefiToolkit.Faults

/-! ### What is given -/

/-- `AvbPartitionData`; its size is that of the data. -/
structure PartitionData where
  partitionName : List UInt8
  data : List UInt8

/-- `AvbSlotVerifyData`. -/
structure SlotData where
  loadedPartitions : List PartitionData
  cmdline : List UInt8

/-- `UEFIAvbBootKernelResult`, as far as it is used. -/
inductive BootResult
  | errorOom
  | errorPartitionInvalidFormat
  | errorKernelInvalidFormat

abbrev Boot (α : Type) := Run BootResult α

/-- What pages are allocated for. -/
inductive Use
  | kernel
  | initramfs
  | cmdline
  | setup
  deriving DecidableEq

/-- `AllocatePages` below a maximal address, and what the pages of each buffer hold before. -/
structure Firmware where
  allocatePages : Use → ℕ → ℕ → Option ℕ
  contents : Use → ℕ → UInt8

/-! ### Memory -/

def EFI_PAGE_SIZE : ℕ := 4096

/-- `EFI_SIZE_TO_PAGES`. -/
def sizeToPages (size : ℕ) : ℕ :=
  size / EFI_PAGE_SIZE + if size % EFI_PAGE_SIZE ≠ 0 then 1 else 0

structure Buffer where
  address : ℕ
  size : ℕ
  cells : ℕ → UInt8

/-- A buffer of whole pages; without room the boot ends. -/
def allocate (fw : Firmware) (use : Use) (maxAddress size : ℕ) : Boot Buffer :=
  match fw.allocatePages use maxAddress (sizeToPages size) with
  | some address => .ok ⟨address, sizeToPages size * EFI_PAGE_SIZE, fw.contents use⟩
  | none => fail .errorOom

def Buffer.write (b : Buffer) (offset : ℕ) (bytes : List UInt8) : Boot Buffer :=
  need (bytes = [] ∨ offset + bytes.length ≤ b.size)
    { b with cells := blit b.cells offset bytes }

def Buffer.read (b : Buffer) (offset n : ℕ) : Boot (List UInt8) :=
  need (n = 0 ∨ offset + n ≤ b.size) (slice b.cells offset n)

def readData (data : List UInt8) (offset n : ℕ) : Boot (List UInt8) :=
  need (n = 0 ∨ offset + n ≤ data.length) ((data.drop offset).take n)

/-- A 32-bit field of the header. -/
def readField (data : List UInt8) (offset : ℕ) : Boot ℕ :=
  need (offset + 4 ≤ data.length) (leValue ((data.drop offset).take 4))

/-- The length of a text up to its end. -/
def avbStrlen (data : List UInt8) (offset : ℕ) : Boot ℕ :=
  need ((data.drop offset).findIdx (· = 0) < (data.drop offset).length)
    ((data.drop offset).findIdx (· = 0))

/-! ### The image -/

/-- `ANDROID!`. -/
def BOOT_MAGIC : List UInt8 := [0x41, 0x4E, 0x44, 0x52, 0x4F, 0x49, 0x44, 0x21]

def BOOT_ARGS_SIZE : ℕ := 512

/-- The name `boot`. -/
def bootName : List UInt8 := [0x62, 0x6F, 0x6F, 0x74]

def kernelSize (data : List UInt8) : Boot ℕ := readField data 8
def ramdiskSize (data : List UInt8) : Boot ℕ := readField data 16
def secondSize (data : List UInt8) : Boot ℕ := readField data 24
def pageSize (data : List UInt8) : Boot ℕ := readField data 36

/-- The place of `cmdline` in the header. -/
def cmdlineOffset : ℕ := 64

/-- No 64-bit sum of 32-bit values wraps around. -/
def roundUp (value size : ℕ) : Boot ℕ := need (size ≠ 0) ((value + size - 1) / size * size)

def avbSafeAddTo (value valueToAdd : ℕ) : Option ℕ :=
  if add64 value valueToAdd < value then none else some (add64 value valueToAdd)

/-- The magic and the sizes. -/
def checkImage (data : List UInt8) : Boot Unit := do
  let magic ← readData data 0 8
  check .errorPartitionInvalidFormat (BOOT_MAGIC = magic)
  let kernel ← kernelSize data
  let ramdisk ← ramdiskSize data
  match avbSafeAddTo kernel ramdisk with
  | none => fail .errorPartitionInvalidFormat
  | some total =>
    let second ← secondSize data
    match avbSafeAddTo total second with
    | none => fail .errorPartitionInvalidFormat
    | some total => check .errorPartitionInvalidFormat (total ≤ data.length)

/-! ### The buffers -/

section Buffers

variable (fw : Firmware) (data : List UInt8)

def loadKernel : Boot Buffer := do
  let kernel ← kernelSize data
  let buffer ← allocate fw .kernel 0x3fffffff kernel
  let page ← pageSize data
  let bytes ← readData data page kernel
  buffer.write 0 bytes

/-- `initramfs_size`, and the buffer unless it is 0. -/
def loadInitramfs : Boot (ℕ × Option Buffer) := do
  let ramdisk ← ramdiskSize data
  let second ← secondSize data
  let initramfsSize := u32 (ramdisk + second)
  if 0 < initramfsSize then do
    let buffer ← allocate fw .initramfs 0x3fffffff initramfsSize
    let page ← pageSize data
    let kernel ← kernelSize data
    let kernelPages ← roundUp kernel page
    let bytes ← readData data (page + kernelPages) ramdisk
    let buffer ← buffer.write 0 bytes
    let ramdiskPages ← roundUp ramdisk page
    let bytes ← readData data (page + kernelPages + ramdiskPages) second
    -- the second one is also copied to the start
    let buffer ← buffer.write 0 bytes
    pure (initramfsSize, some buffer)
  else pure (initramfsSize, none)

/-- The three parts with spaces between them, the last one only if it is not empty. -/
def buildCmdline (slotCmdline : List UInt8) (cmdlineExtra : Option (List UInt8)) :
    Boot Buffer := do
  let firstLen ← avbStrlen data cmdlineOffset
  let secondLen := slotCmdline.length
  let extra := cmdlineExtra.getD []
  let extraLen := if 0 < extra.length then extra.length + 1 else 0
  let cmdlineLen := firstLen + 1 + secondLen + 1 + extraLen
  let buffer ← allocate fw .cmdline 0xA0000 cmdlineLen
  let bytes ← readData data cmdlineOffset firstLen
  let buffer ← buffer.write 0 bytes
  let buffer ← buffer.write firstLen [0x20]
  let buffer ← buffer.write (firstLen + 1) slotCmdline
  let offset := firstLen + 1 + secondLen
  let buffer ←
    if 0 < extraLen then do
      let buffer ← buffer.write offset [0x20]
      buffer.write (offset + 1) extra
    else pure buffer
  let buffer ← buffer.write (offset + extraLen) [0]
  -- the assertion at the end
  need (offset + extraLen + 1 = cmdlineLen) buffer

end Buffers

/-! ### The handover -/

/-- `sizeof (struct SetupHeader)`. -/
def setupHeaderSize : ℕ := 0x268

/-- `SETUP_MAGIC`, `HdrS`. -/
def SETUP_MAGIC : ℕ := 0x53726448

/-- The header at the start of the kernel. -/
def checkKernel (kernel : Buffer) : Boot Unit := do
  let signature ← kernel.read 0x1FE 2
  check .errorKernelInvalidFormat (leValue signature = 0xAA55)
  let header ← kernel.read 0x202 4
  check .errorKernelInvalidFormat (leValue header = SETUP_MAGIC)
  let version ← kernel.read 0x206 2
  check .errorKernelInvalidFormat (0x20B ≤ leValue version)
  let relocatable ← kernel.read 0x234 1
  check .errorKernelInvalidFormat (leValue relocatable ≠ 0)

/-- The setup buffer: the header of the kernel, and where everything is. -/
def fillSetup (fw : Firmware) (kernel cmdline : Buffer) (initramfs : ℕ × Option Buffer) :
    Boot Buffer := do
  let setup ← allocate fw .setup 0x3fffffff 0x4000
  let setup ← setup.write 0 (List.replicate 0x4000 0)
  let header ← kernel.read 0 setupHeaderSize
  let setup ← setup.write 0 header
  let setup ← setup.write 0x210 [0xFF]
  let setupSecs ← kernel.read 0x1F1 1
  let setup ← setup.write 0x214
    (leBytes 4 (u32 (u32 kernel.address + (leValue setupSecs + 1) * 512)))
  let setup ← setup.write 0x228 (leBytes 4 (u32 cmdline.address))
  let setup ← setup.write 0x218 (leBytes 4 (u32 ((initramfs.2.map Buffer.address).getD 0)))
  setup.write 0x21C (leBytes 4 (u32 initramfs.1))

/-- What the kernel is started with. -/
structure Handover where
  kernel : Buffer
  initramfsSize : ℕ
  initramfs : Option Buffer
  cmdline : Buffer
  setup : Buffer

/-- A value is the jump to the kernel. -/
def uefiAvbBootKernel (fw : Firmware) (slot : SlotData) (cmdlineExtra : Option (List UInt8)) :
    Boot Handover :=
  match slot.loadedPartitions with
  | [boot] => do
    check .errorPartitionInvalidFormat (boot.partitionName = bootName)
    checkImage boot.data
    let kernel ← loadKernel fw boot.data
    let initramfs ← loadInitramfs fw boot.data
    let cmdline ← buildCmdline fw boot.data slot.cmdline cmdlineExtra
    checkKernel kernel
    let setup ← fillSetup fw kernel cmdline initramfs
    pure ⟨kernel, initramfs.1, initramfs.2, cmdline, setup⟩
  | _ => fail .errorPartitionInvalidFormat

end UefiToolkit.BootModel
