import UefiToolkit.Loop
import UefiToolkit.SparseModel

/-!
How `PartEdit` finds the disk and its partitions.

The disk is the first block device that is whole, fixed and not behind USB. The partitions are the
devices whose path continues that of the disk, and their names are taken from the partition table.
-/

namespace UefiToolkit.DeviceModel

open UefiToolkit.Word UefiToolkit.Loop UefiToolkit.Mem UefiToolkit.Bytes UefiToolkit.SparseModel

/-! ### Device paths -/

def MEDIA_DEVICE_PATH : UInt8 := 0x04
def MEDIA_HARDDRIVE_DP : UInt8 := 0x01
def MESSAGING_DEVICE_PATH : UInt8 := 0x03
def MSG_USB_DP : UInt8 := 0x05
def END_DEVICE_PATH_TYPE : UInt8 := 0x7F
def END_ENTIRE_DEVICE_PATH_SUBTYPE : UInt8 := 0xFF

/-- A node of a device path: its header, whose length counts the header, and what comes behind. -/
structure Node where
  type : UInt8
  subType : UInt8
  data : List UInt8
  fits : data.length + 4 < 2 ^ 16

def Node.isDevicePathEndType (n : Node) : Bool := decide (n.type = END_DEVICE_PATH_TYPE)

def Node.isDevicePathEnd (n : Node) : Bool :=
  n.isDevicePathEndType && decide (n.subType = END_ENTIRE_DEVICE_PATH_SUBTYPE)

/-- A device path without the node that ends it. -/
structure DevicePath where
  nodes : List Node
  goesOn : ∀ n ∈ nodes, n.isDevicePathEnd = false

/-- `DevicePathType == type && DevicePathSubType == subType`. -/
def Node.is (n : Node) (type subType : UInt8) : Bool :=
  decide (n.type = type) && decide (n.subType = subType)

def isUsbDevice : Option DevicePath → Bool
  | none => false
  | some path =>
    path.nodes.foldl (fun found n => if n.is MESSAGING_DEVICE_PATH MSG_USB_DP then true else found)
      false

def Node.bytes (n : Node) : List UInt8 :=
  let length := n.data.length + 4
  [n.type, n.subType, UInt8.ofNat length, UInt8.ofNat (length / 2 ^ 8)] ++ n.data

/-- The bytes of the path up to the node that ends it. -/
def DevicePath.bytes (path : DevicePath) : List UInt8 := path.nodes.flatMap Node.bytes

/-- The bytes of the whole path. -/
def DevicePath.allBytes (path : DevicePath) : List UInt8 :=
  path.bytes ++ [END_DEVICE_PATH_TYPE, END_ENTIRE_DEVICE_PATH_SUBTYPE, 4, 0]

/-! ### Services -/

/-- `EFI_BLOCK_IO_MEDIA`, as far as it is looked at here. -/
structure BlockMedia where
  logicalPartition : Bool
  removableMedia : Bool
  blockSize : ℕ

/-- The handles and their protocols; what comes with an error is not looked at. -/
structure Services (ε : Type) where
  /-- The handles with `BlockIo`. -/
  locateHandleBuffer : Status × List Handle
  blockIo : Handle → Status × BlockMedia
  diskIo : Handle → Status
  devicePath : Handle → Status × DevicePath
  /-- The handle with `BlockIo` whose path is the longest that begins this one. -/
  locateDevicePath : DevicePath → Status × Handle
  allocatePool : ε → ℕ → Bool × ε
  readBlocks : ε → Handle → ℕ → ℕ → Status × List UInt8 × ε

variable {ε : Type} (e : Services ε)

/-! ### The disk -/

/-- `PARTITON_DATA`: the handle that the protocols are of, and the path. What was never assigned is
`none`. -/
structure PartData where
  handle : Option Handle
  parentDevicePath : Option DevicePath

/-- The variables of the loop of `InitDevicePath`; `exit` is set by a `break` (to success) or a
`return`. -/
structure Scan where
  index : ℕ
  handle : Option Handle
  devicePath : Option DevicePath
  exit : Option Status

def Scan.more (handleCount : ℕ) (x : Scan) : Bool :=
  x.exit.isNone && decide (x.index < handleCount)

/-- `Index++`, in a `UINT8`. -/
def Scan.next (x : Scan) : Scan := { x with index := u8 (x.index + 1) }

/-- One round of the loop, for `HandleBuffer[Index]`. -/
def scanHandle (h : Handle) (x : Scan) : Scan :=
  let (status, blockIo) := e.blockIo h
  if efiError status then { x with exit := some status }
  else
    let x := { x with handle := some h }
    let status := e.diskIo h
    if efiError status then { x with exit := some status }
    else if blockIo.logicalPartition || blockIo.removableMedia then x.next
    else
      let (status, devicePath) := e.devicePath h
      if efiError status then x.next
      else
        let x := { x with devicePath := some devicePath }
        if isUsbDevice (some devicePath) then x.next else { x with exit := some EFI_SUCCESS }

def scanStep (handles : List Handle) (x : Scan) : Option Scan :=
  handles[x.index]?.map fun h => scanHandle e h x

def initDevicePath (fuel : ℕ) : Option (Status × Option PartData) :=
  let (status, handles) := e.locateHandleBuffer
  if efiError status then some (status, none)
  else
    (whileFuel (Scan.more handles.length) (scanStep e handles) fuel ⟨0, none, none, none⟩).map
      fun x =>
        let returned := x.exit.getD EFI_SUCCESS
        if efiError returned then (returned, none)
        else if handles.length ≤ x.index then (EFI_DEVICE_ERROR, none)
        else (EFI_SUCCESS, some ⟨x.handle, x.devicePath⟩)

/-! ### The partition table -/

/-- `SIGNATURE_64 ('E','F','I',' ','P','A','R','T')`. -/
def EFI_PTAB_HEADER_ID : ℕ := 0x5452415020494645

/-- `EFI_PARTITION_TABLE_HEADER`, as far as it is looked at. -/
structure GptHeader where
  signature : ℕ
  myLba : ℕ
  numberOfPartitionEntries : ℕ
  sizeOfPartitionEntry : ℕ

def gptHeader (m : ℕ → UInt8) : GptHeader where
  signature := word64 m 0
  myLba := word64 m 24
  numberOfPartitionEntries := word32 m 80
  sizeOfPartitionEntry := word32 m 84

/-- `ALIGN_VALUE` of a `UINTN` to a `UINT32`. -/
def alignValue (value alignment : ℕ) : ℕ :=
  u64 (value + (sub64 alignment value &&& sub32 alignment 1))

/-- The memory from `*PartitionEntries` on; the heaps are what stands in the pool before. -/
def readPartitionEntries (headerHeap entriesHeap : ℕ → UInt8) (h : Handle) (media : BlockMedia)
    (env : ε) : Status × Option (ℕ → UInt8) × ε :=
  let (allocated, env) := e.allocatePool env media.blockSize
  if !allocated then (EFI_OUT_OF_RESOURCES, none, env)
  else
    let (status, data, env) := e.readBlocks env h 1 media.blockSize
    if efiError status then (status, none, env)
    else
      let header := gptHeader (blit headerHeap 0 data)
      if header.signature ≠ EFI_PTAB_HEADER_ID ∨ header.myLba ≠ 1 then (EFI_DEVICE_ERROR, none, env)
      else
        let bufferSize := alignValue
          (u64 (header.sizeOfPartitionEntry * header.numberOfPartitionEntries)) media.blockSize
        let (allocated, env) := e.allocatePool env bufferSize
        -- it is the argument that is tested, not the buffer; the read refuses a buffer at null
        if !allocated then (EFI_INVALID_PARAMETER, none, env)
        else
          let (status, data, env) := e.readBlocks env h 2 bufferSize
          if efiError status then (status, none, env)
          else (status, some (blit entriesHeap 0 data), env)

/-! ### The partitions -/

/-- `sizeof (EFI_PARTITION_ENTRY)`, and the offset of `PartitionName` in it. -/
def partitionEntryLen : ℕ := 128
def partitionNameOffset : ℕ := 56

def PARTITION_NAME_MAX_LENGTH : ℕ := 36

/-- `sizeof (PARTITION_LIST)`. -/
def partitionListLen : ℕ := 96

/-- `PartitionNumber` of a `HARDDRIVE_DEVICE_PATH`. -/
def Node.partitionNumber (n : Node) : ℕ := word32 (fun i => n.data.getD i 0) 0

/-- The first node for a partition, before any end of the path or of an instance of it. -/
def harddriveNode : List Node → Option Node
  | [] => none
  | n :: nodes =>
    if n.isDevicePathEndType then none
    else if n.is MEDIA_DEVICE_PATH MEDIA_HARDDRIVE_DP then some n
    else harddriveNode nodes

/-- The variables of the loop of `InitDiskPartition`. -/
structure Listing (ε : Type) where
  status : Status
  devicePath : Option DevicePath
  list : List PartitionEntry
  failed : Bool
  env : ε

/-- The entry for partition `number`; `behind` is the memory that follows the name. -/
def partitionEntry (partitionEntries : ℕ → UInt8) (behind : Handle → ℕ → UInt16) (h : Handle)
    (number : ℕ) : PartitionEntry where
  partitionName i :=
    if i < PARTITION_NAME_MAX_LENGTH then UInt16.ofNat (word16 partitionEntries
      ((number - 1) * partitionEntryLen + partitionNameOffset + 2 * i))
    else behind h i
  partitionHandle := h

/-- One round of the loop. -/
def listHandle (parent : DevicePath) (partitionEntries : ℕ → UInt8) (behind : Handle → ℕ → UInt16)
    (h : Handle) (x : Listing ε) : Listing ε :=
  let (status, path) := e.devicePath h
  -- an error is asserted not to happen; the variable keeps what it was
  let x := { x with
    status := status, devicePath := if efiError status then x.devicePath else some path }
  match x.devicePath with
  | none => x
  | some path =>
    if !parent.bytes.isPrefixOf path.allBytes then x
    else match harddriveNode path.nodes.tail with
      | none => x
      | some node =>
        if node.partitionNumber = 0 then x
        else
          let (allocated, env) := e.allocatePool x.env partitionListLen
          if !allocated then
            { x with status := EFI_OUT_OF_RESOURCES, list := [], failed := true, env := env }
          else { x with env := env, list := x.list ++
            [partitionEntry partitionEntries behind h node.partitionNumber] }

/-- The loop over the handles; without room for an entry the list is freed. -/
def listHandles (parent : DevicePath) (partitionEntries : ℕ → UInt8)
    (behind : Handle → ℕ → UInt16) : List Handle → Listing ε → Listing ε
  | [], x => x
  | h :: handles, x =>
    let x := listHandle e parent partitionEntries behind h x
    if x.failed then x else listHandles parent partitionEntries behind handles x

/-- The list of the partitions of the disk with this path. -/
def initDiskPartition (headerHeap entriesHeap : ℕ → UInt8) (behind : Handle → ℕ → UInt16)
    (mDiskDevicePath : DevicePath) (env : ε) : Status × List PartitionEntry × ε :=
  let (status, flashHandle) := e.locateDevicePath mDiskDevicePath
  if efiError status then (EFI_SUCCESS, [], env)
  else
    let (status, media) := e.blockIo flashHandle
    if efiError status then (EFI_DEVICE_ERROR, [], env)
    else
      let (_, partitionEntries, env) :=
        readPartitionEntries e headerHeap entriesHeap flashHandle media env
      match partitionEntries with
      | none => (EFI_SUCCESS, [], env)
      | some partitionEntries =>
        let x := listHandles e mDiskDevicePath partitionEntries behind e.locateHandleBuffer.2
          ⟨e.locateHandleBuffer.1, none, [], false, env⟩
        (x.status, x.list, x.env)

end UefiToolkit.DeviceModel
