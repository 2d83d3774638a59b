import UefiToolkit.DiskModel

/-!
`UefiTool`: its option loop, and the routine that does what the options ask for.

What is read is kept: the elements of `Argv` in a list of indices, and those of
`mProcessorLocBuf` among the actions of the routine. The lines that are printed are left out.
-/

namespace UefiToolkit.ToolModel

open UefiToolkit.Word UefiToolkit.DiskModel

abbrev Str := List UInt16

/-! ### The globals -/

def OPCODE_RDMSR_BIT : ℕ := 0x1
def OPCODE_WRMSR_BIT : ℕ := 0x2
def OPCODE_CPUID_BIT : ℕ := 0x4
def OPCODE_ALLPROCESSOR_BIT : ℕ := 0x8
def OPCODE_PROCESSOR_INDEX_BIT : ℕ := 0x10
def OPCODE_SGDT_BIT : ℕ := 0x20
def OPCODE_CR_BIT : ℕ := 0x40
def OPCODE_RMM_BIT : ℕ := 0x80
def OPCODE_WMM_BIT : ℕ := 0x100
def OPCODE_DUMPMEM_BIT : ℕ := 0x200
def OPCODE_UCODE_BIT : ℕ := 0x400
def OPCODE_READ_MEM_TEST_BIT : ℕ := 0x800
def OPCODE_WRITE_MEM_TEST_BIT : ℕ := 0x1000

/-- `gUtContext`. -/
structure Context where
  msrIndex : ℕ := 0
  msrValue : ℕ := 0
  cpuIdIndex : ℕ := 0
  cpuIdSubIndex : ℕ := 0
  processorIndex : ℕ := 0
  mmAddress : ℕ := 0
  mmValue : ℕ := 0
  mmWidth : ℕ := 0
  mmAccessType : ℕ := 0
  dumpMemAddress : ℕ := 0
  dumpMemSize : ℕ := 0
  dumpMemFile : Str := []

/-- `mProcessorNum` and `mBspIndex`; there are as many locations as processors. -/
structure Processors where
  processorNum : ℕ
  bspIndex : ℕ

/-- The MP service, the allocation of the locations and the saving of a file. -/
structure Platform where
  locateProtocol : Status
  getNumberOfProcessors : Status × ℕ
  allocatePool : ℕ → Status
  getProcessorInfo : ℕ → Status
  whoAmI : Status × ℕ
  saveFileToDisk : Str → ℕ → ℕ → Status

def getProcessorsCpuLocation (p : Platform) : Except Status Processors :=
  if efiError p.locateProtocol then .error EFI_UNSUPPORTED
  else if efiError p.getNumberOfProcessors.1 then .error p.getNumberOfProcessors.1
  else
    let processorNum := p.getNumberOfProcessors.2
    if efiError (p.allocatePool processorNum) then .error (p.allocatePool processorNum)
    else
      match (List.range processorNum).find? fun index => efiError (p.getProcessorInfo index) with
      | some index => .error (p.getProcessorInfo index)
      | none =>
        if efiError p.whoAmI.1 then .error p.whoAmI.1 else .ok ⟨processorNum, p.whoAmI.2⟩

/-! ### The option loop -/

def toUpper (a : UInt16) : UInt16 := if 0x61 ≤ a ∧ a ≤ 0x7A then a - 0x20 else a

def strUpr (s : Str) : Str := s.map toUpper

/-- The arms of the option loop, in the order of the source. -/
inductive Arm
  | rdmsr | wrmsr | cpuid | allProcessors | processor | rmm | wmm | width | mem | io | dumpmem
  | readTest | writeTest
  deriving DecidableEq

def Arm.all : List Arm :=
  [.rdmsr, .wrmsr, .cpuid, .allProcessors, .processor, .rmm, .wmm, .width, .mem, .io, .dumpmem,
    .readTest, .writeTest]

def Arm.name : Arm → Str
  | .rdmsr => unicode "RDMSR"
  | .wrmsr => unicode "WRMSR"
  | .cpuid => unicode "CPUID"
  | .allProcessors => unicode "-A"
  | .processor => unicode "-P"
  | .rmm => unicode "-RMM"
  | .wmm => unicode "-WMM"
  | .width => unicode "-W"
  | .mem => unicode "-MEM"
  | .io => unicode "-IO"
  | .dumpmem => unicode "DUMPMEM"
  | .readTest => unicode "-RT"
  | .writeTest => unicode "-WT"

/-- The guard of the arm is `Index + lookAhead < Argc`. -/
def Arm.lookAhead : Arm → ℕ
  | .rdmsr => 1
  | .wrmsr => 2
  | .cpuid => 2
  | .allProcessors => 0
  | .processor => 1
  | .rmm => 1
  | .wmm => 1
  | .width => 0
  | .mem => 0
  | .io => 0
  | .dumpmem => 3
  | .readTest => 1
  | .writeTest => 1

/-- The arm reads `Argv[Index + 1]` to `Argv[Index + operands]` and passes over them. -/
def Arm.operands : Arm → ℕ
  | .rdmsr => 1
  | .wrmsr => 2
  | .cpuid => 2
  | .allProcessors => 0
  | .processor => 1
  | .rmm => 1
  | .wmm => 2
  | .width => 1
  | .mem => 0
  | .io => 0
  | .dumpmem => 3
  | .readTest => 1
  | .writeTest => 2

/-- The bits that the arm sets in `Opcode`. -/
def Arm.opcode : Arm → ℕ
  | .rdmsr => OPCODE_RDMSR_BIT
  | .wrmsr => OPCODE_WRMSR_BIT
  | .cpuid => OPCODE_CPUID_BIT
  | .allProcessors => OPCODE_ALLPROCESSOR_BIT
  | .processor => OPCODE_PROCESSOR_INDEX_BIT
  | .rmm => OPCODE_RMM_BIT
  | .wmm => OPCODE_WMM_BIT
  | .width => 0
  | .mem => 0
  | .io => 0
  | .dumpmem => OPCODE_DUMPMEM_BIT
  | .readTest => OPCODE_READ_MEM_TEST_BIT
  | .writeTest => OPCODE_WRITE_MEM_TEST_BIT

section Options

variable (strHexToUintn : Str → ℕ)

/-- What the arm stores; `arg i` is `Argv[Index + i]`. -/
def Arm.store (arg : ℕ → Str) (c : Context) : Arm → Context
  | .rdmsr => { c with msrIndex := u32 (strHexToUintn (arg 1)) }
  | .wrmsr =>
    { c with msrIndex := u32 (strHexToUintn (arg 1)), msrValue := strHexToUintn (arg 2) }
  | .cpuid =>
    { c with
      cpuIdIndex := u32 (strHexToUintn (arg 1))
      cpuIdSubIndex := u32 (strHexToUintn (arg 2)) }
  | .allProcessors => c
  | .processor => { c with processorIndex := strHexToUintn (arg 1) }
  | .rmm => { c with mmAddress := strHexToUintn (arg 1) }
  | .wmm => { c with mmAddress := strHexToUintn (arg 1), mmValue := strHexToUintn (arg 2) }
  | .width => { c with mmWidth := strHexToUintn (arg 1) }
  | .mem => { c with mmAccessType := 0 }
  | .io => { c with mmAccessType := 1 }
  | .dumpmem =>
    { c with
      dumpMemAddress := strHexToUintn (arg 1)
      dumpMemSize := strHexToUintn (arg 2)
      -- the size of the pointer is copied, which is four characters
      dumpMemFile := (arg 3).take 4 }
  | .readTest => { c with mmAddress := strHexToUintn (arg 1) }
  | .writeTest => { c with mmAddress := strHexToUintn (arg 1), mmValue := strHexToUintn (arg 2) }

/-- The state of the loop; `reads` are the indices of `Argv` that were read. -/
structure State where
  index : ℕ
  opcode : ℕ
  context : Context
  argv : ℕ → Str
  reads : List ℕ

/-- The first arm whose guard holds and whose name is the word at `index`. -/
def selected (argc index : ℕ) (word : Str) : Option Arm :=
  Arm.all.find? fun arm => index + arm.lookAhead < argc && word = arm.name

/-- The loop's body; `Index` is a `UINT8`. -/
def optionStep (argc : ℕ) (s : State) : State :=
  let word := strUpr (s.argv s.index)
  let argv := Function.update s.argv s.index word
  match selected argc s.index word with
  | some arm =>
    { index := u8 (s.index + (arm.operands + 1))
      opcode := s.opcode ||| arm.opcode
      context := arm.store strHexToUintn (fun i => argv (s.index + i)) s.context
      argv := argv
      reads := s.reads ++ (List.range (arm.operands + 1)).map (s.index + ·) }
  | none => { s with index := u8 (s.index + 1), argv := argv, reads := s.reads ++ [s.index] }

/-- `Index + 1 > Argc`, where the loop ends. -/
def atEnd (argc : ℕ) (s : State) : Bool := argc < s.index + 1

/-- The loop after at most so many rounds. -/
def optionLoop (argc : ℕ) : ℕ → State → State
  | 0, s => s
  | rounds + 1, s =>
    if atEnd argc s then s else optionLoop argc rounds (optionStep strHexToUintn argc s)

end Options

/-! ### The routine -/

inductive Action
  | readMsr (index : ℕ)
  | writeMsr (index value : ℕ)
  | cpuid (index subIndex : ℕ)
  | readGdtr
  | readCr
  | microcodeSignature
  | ioRead (bytes address : ℕ)
  | ioWrite (bytes address value : ℕ)
  | mmioRead (bytes address : ℕ)
  | mmioWrite (bytes address value : ℕ)
  | saveFile (name : Str) (size address : ℕ)
  /-- The action is done by another processor. -/
  | startupThisAp (processor : ℕ) (action : Action)
  /-- `mProcessorLocBuf[processor]` is read. -/
  | location (processor : ℕ)

/-- Done by the processor itself or by another one, and then the location is printed. -/
def onProcessor (m : Processors) (index : ℕ) (action : Action) : List Action :=
  [if index = m.bspIndex then action else .startupThisAp index action, .location index]

/-- The loop over all processors. -/
def onEachProcessor (m : Processors) (action : Action) : List Action :=
  (List.range m.processorNum).flatMap fun index => onProcessor m index action

/-- The accesses to memory and IO ports. A read of eight bytes of memory is one of the port. -/
def memoryAccess (opcode : ℕ) (c : Context) : List Action :=
  let isRead := opcode &&& OPCODE_RMM_BIT ≠ 0
  if opcode &&& (OPCODE_RMM_BIT ||| OPCODE_WMM_BIT) = 0 then []
  else if c.mmWidth ∉ [1, 2, 4, 8] then []
  else if c.mmAccessType ≠ 0 then
    if isRead then [.ioRead c.mmWidth c.mmAddress]
    else [.ioWrite c.mmWidth c.mmAddress (c.mmValue % 2 ^ (8 * c.mmWidth))]
  else if isRead then
    if c.mmWidth = 8 then [.ioRead 8 c.mmAddress] else [.mmioRead c.mmWidth c.mmAddress]
  else [.mmioWrite c.mmWidth c.mmAddress (c.mmValue % 2 ^ (8 * c.mmWidth))]

/-- The actions of the routine; one that fails to save the file ends there. -/
def uefiToolRoutine (p : Platform) (m : Processors) (opcode : ℕ) (c : Context) : List Action :=
  (if opcode = OPCODE_RDMSR_BIT then [.readMsr c.msrIndex] else []) ++
  (if opcode = OPCODE_WRMSR_BIT then [.writeMsr c.msrIndex c.msrValue] else []) ++
  (if opcode = OPCODE_CPUID_BIT then [.cpuid c.cpuIdIndex c.cpuIdSubIndex] else []) ++
  (if opcode = OPCODE_SGDT_BIT then [.readGdtr] else []) ++
  (if opcode = OPCODE_CR_BIT then [.readCr] else []) ++
  (if opcode = OPCODE_RDMSR_BIT ||| OPCODE_PROCESSOR_INDEX_BIT then
    onProcessor m c.processorIndex (.readMsr c.msrIndex) else []) ++
  (if opcode = OPCODE_RDMSR_BIT ||| OPCODE_ALLPROCESSOR_BIT then
    onEachProcessor m (.readMsr c.msrIndex) else []) ++
  (if opcode = OPCODE_CPUID_BIT ||| OPCODE_ALLPROCESSOR_BIT then
    onEachProcessor m (.cpuid c.cpuIdIndex c.cpuIdSubIndex) else []) ++
  memoryAccess opcode c ++
  (if opcode = OPCODE_DUMPMEM_BIT then
    [.saveFile c.dumpMemFile c.dumpMemSize c.dumpMemAddress] else []) ++
  (if opcode = OPCODE_DUMPMEM_BIT ∧
      efiError (p.saveFileToDisk c.dumpMemFile c.dumpMemSize c.dumpMemAddress) then []
  else
    (if opcode = OPCODE_UCODE_BIT then onEachProcessor m .microcodeSignature else []) ++
    (if opcode = OPCODE_READ_MEM_TEST_BIT then
      onEachProcessor m (.mmioRead 8 c.mmAddress) else []) ++
    (if opcode = OPCODE_WRITE_MEM_TEST_BIT then
      onEachProcessor m (.mmioWrite 8 c.mmAddress c.mmValue) else []))

/-! ### The tool -/

/-- The only argument: a flag, or the tool ends. -/
def onlyArgument (word : Str) : Except Status ℕ :=
  if word ∈ [unicode "/H", unicode "-H", unicode "/?", unicode "-?"] then .error EFI_SUCCESS
  else if word ∈ [unicode "/SGDT", unicode "-SGDT"] then .ok OPCODE_SGDT_BIT
  else if word ∈ [unicode "/CR", unicode "-CR"] then .ok OPCODE_CR_BIT
  else if word ∈ [unicode "/MCU", unicode "-MCU"] then .ok OPCODE_UCODE_BIT
  else .error EFI_INVALID_PARAMETER

/-- What is done before the option loop: the tool ends, with a status and the elements of `Argv`
it has read, or the loop is entered. -/
def enterLoop (p : Platform) (argc : ℕ) (argv : ℕ → Str) :
    Except (Status × List ℕ) (Processors × State) :=
  let context : Context := { mmWidth := 4 }
  if argc = 1 then .error (EFI_INVALID_PARAMETER, [])
  else
    let first : Except Status ℕ × (ℕ → Str) × List ℕ :=
      if argc = 2 then
        (onlyArgument (strUpr (argv 1)), Function.update argv 1 (strUpr (argv 1)), [1])
      else (.ok 0, argv, [])
    match first with
    | (.error status, _, reads) => .error (status, reads)
    | (.ok opcode, argv, reads) =>
      match getProcessorsCpuLocation p with
      | .error status => .error (status, reads)
      | .ok m => .ok (m, ⟨1, opcode, context, argv, reads⟩)

/-- What the tool has done after at most so many rounds of the option loop. The status is missing
while the loop runs. -/
structure Trace where
  status : Option Status
  reads : List ℕ
  actions : List Action

def shellAppMain (strHexToUintn : Str → ℕ) (p : Platform) (argc : ℕ) (argv : ℕ → Str)
    (rounds : ℕ) : Trace :=
  match enterLoop p argc argv with
  | .error (status, reads) => ⟨some status, reads, []⟩
  | .ok (m, s) =>
    let s := optionLoop strHexToUintn argc rounds s
    if atEnd argc s then ⟨some 0, s.reads, uefiToolRoutine p m s.opcode s.context⟩
    else ⟨none, s.reads, []⟩

end UefiToolkit.ToolModel
