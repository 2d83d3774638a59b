import UefiToolkit.AvbTypes
import UefiToolkit.Bytes
import UefiToolkit.Effect

/-!
The A/B metadata of `libavb_ab`: the record in the `misc` partition with its checksum, the choice
of a slot to boot, and the operations that mark a slot.

A variable that a function has not written yet holds what its stack held before.
-/

namespace UefiToolkit.AbModel

open UefiToolkit.Bytes UefiToolkit.AvbModel UefiToolkit.AvbTypes UefiToolkit.Effect

/-! ### The checksum -/

def crc32Tab : Array UInt32 := #[
  0x00000000, 0x77073096, 0xee0e612c, 0x990951ba, 0x076dc419, 0x706af48f, 0xe963a535, 0x9e6495a3,
  0x0edb8832, 0x79dcb8a4, 0xe0d5e91e, 0x97d2d988, 0x09b64c2b, 0x7eb17cbd, 0xe7b82d07, 0x90bf1d91,
  0x1db71064, 0x6ab020f2, 0xf3b97148, 0x84be41de, 0x1adad47d, 0x6ddde4eb, 0xf4d4b551, 0x83d385c7,
  0x136c9856, 0x646ba8c0, 0xfd62f97a, 0x8a65c9ec, 0x14015c4f, 0x63066cd9, 0xfa0f3d63, 0x8d080df5,
  0x3b6e20c8, 0x4c69105e, 0xd56041e4, 0xa2677172, 0x3c03e4d1, 0x4b04d447, 0xd20d85fd, 0xa50ab56b,
  0x35b5a8fa, 0x42b2986c, 0xdbbbc9d6, 0xacbcf940, 0x32d86ce3, 0x45df5c75, 0xdcd60dcf, 0xabd13d59,
  0x26d930ac, 0x51de003a, 0xc8d75180, 0xbfd06116, 0x21b4f4b5, 0x56b3c423, 0xcfba9599, 0xb8bda50f,
  0x2802b89e, 0x5f058808, 0xc60cd9b2, 0xb10be924, 0x2f6f7c87, 0x58684c11, 0xc1611dab, 0xb6662d3d,
  0x76dc4190, 0x01db7106, 0x98d220bc, 0xefd5102a, 0x71b18589, 0x06b6b51f, 0x9fbfe4a5, 0xe8b8d433,
  0x7807c9a2, 0x0f00f934, 0x9609a88e, 0xe10e9818, 0x7f6a0dbb, 0x086d3d2d, 0x91646c97, 0xe6635c01,
  0x6b6b51f4, 0x1c6c6162, 0x856530d8, 0xf262004e, 0x6c0695ed, 0x1b01a57b, 0x8208f4c1, 0xf50fc457,
  0x65b0d9c6, 0x12b7e950, 0x8bbeb8ea, 0xfcb9887c, 0x62dd1ddf, 0x15da2d49, 0x8cd37cf3, 0xfbd44c65,
  0x4db26158, 0x3ab551ce, 0xa3bc0074, 0xd4bb30e2, 0x4adfa541, 0x3dd895d7, 0xa4d1c46d, 0xd3d6f4fb,
  0x4369e96a, 0x346ed9fc, 0xad678846, 0xda60b8d0, 0x44042d73, 0x33031de5, 0xaa0a4c5f, 0xdd0d7cc9,
  0x5005713c, 0x270241aa, 0xbe0b1010, 0xc90c2086, 0x5768b525, 0x206f85b3, 0xb966d409, 0xce61e49f,
  0x5edef90e, 0x29d9c998, 0xb0d09822, 0xc7d7a8b4, 0x59b33d17, 0x2eb40d81, 0xb7bd5c3b, 0xc0ba6cad,
  0xedb88320, 0x9abfb3b6, 0x03b6e20c, 0x74b1d29a, 0xead54739, 0x9dd277af, 0x04db2615, 0x73dc1683,
  0xe3630b12, 0x94643b84, 0x0d6d6a3e, 0x7a6a5aa8, 0xe40ecf0b, 0x9309ff9d, 0x0a00ae27, 0x7d079eb1,
  0xf00f9344, 0x8708a3d2, 0x1e01f268, 0x6906c2fe, 0xf762575d, 0x806567cb, 0x196c3671, 0x6e6b06e7,
  0xfed41b76, 0x89d32be0, 0x10da7a5a, 0x67dd4acc, 0xf9b9df6f, 0x8ebeeff9, 0x17b7be43, 0x60b08ed5,
  0xd6d6a3e8, 0xa1d1937e, 0x38d8c2c4, 0x4fdff252, 0xd1bb67f1, 0xa6bc5767, 0x3fb506dd, 0x48b2364b,
  0xd80d2bda, 0xaf0a1b4c, 0x36034af6, 0x41047a60, 0xdf60efc3, 0xa867df55, 0x316e8eef, 0x4669be79,
  0xcb61b38c, 0xbc66831a, 0x256fd2a0, 0x5268e236, 0xcc0c7795, 0xbb0b4703, 0x220216b9, 0x5505262f,
  0xc5ba3bbe, 0xb2bd0b28, 0x2bb45a92, 0x5cb36a04, 0xc2d7ffa7, 0xb5d0cf31, 0x2cd99e8b, 0x5bdeae1d,
  0x9b64c2b0, 0xec63f226, 0x756aa39c, 0x026d930a, 0x9c0906a9, 0xeb0e363f, 0x72076785, 0x05005713,
  0x95bf4a82, 0xe2b87a14, 0x7bb12bae, 0x0cb61b38, 0x92d28e9b, 0xe5d5be0d, 0x7cdcefb7, 0x0bdbdf21,
  0x86d3d2d4, 0xf1d4e242, 0x68ddb3f8, 0x1fda836e, 0x81be16cd, 0xf6b9265b, 0x6fb077e1, 0x18b74777,
  0x88085ae6, 0xff0f6a70, 0x66063bca, 0x11010b5c, 0x8f659eff, 0xf862ae69, 0x616bffd3, 0x166ccf45,
  0xa00ae278, 0xd70dd2ee, 0x4e048354, 0x3903b3c2, 0xa7672661, 0xd06016f7, 0x4969474d, 0x3e6e77db,
  0xaed16a4a, 0xd9d65adc, 0x40df0b66, 0x37d83bf0, 0xa9bcae53, 0xdebb9ec5, 0x47b2cf7f, 0x30b5ffe9,
  0xbdbdf21c, 0xcabac28a, 0x53b39330, 0x24b4a3a6, 0xbad03605, 0xcdd70693, 0x54de5729, 0x23d967bf,
  0xb3667a2e, 0xc4614ab8, 0x5d681b02, 0x2a6f2b94, 0xb40bbe37, 0xc30c8ea1, 0x5a05df1b, 0x2d02ef8d]

/-- One round of the loop. -/
def crc32Step (crc : UInt32) (b : UInt8) : UInt32 :=
  crc32Tab.getD ((crc ^^^ b.toUInt32) &&& 0xFF).toNat 0 ^^^ (crc >>> 8)

/-- `avb_crc32`, for a size that an `int` holds. -/
def avbCrc32 (buf : List UInt8) : UInt32 :=
  (buf.foldl crc32Step (0 ^^^ ~~~0)) ^^^ ~~~0

/-- The bytes of a value in the other order; `avb_be32toh` and `avb_htobe32`. -/
def swap32 (v : UInt32) : UInt32 :=
  ((v &&& 0xFF) <<< 24) ||| (((v >>> 8) &&& 0xFF) <<< 16) ||| (((v >>> 16) &&& 0xFF) <<< 8) |||
    ((v >>> 24) &&& 0xFF)

/-! ### The record -/

/-- `AvbABSlotData`. -/
structure AvbABSlotData where
  priority : UInt8
  triesRemaining : UInt8
  successfulBoot : UInt8
  reserved : UInt8
  deriving DecidableEq

/-- `AvbABData`. -/
structure AvbABData where
  magic : Fin 4 → UInt8
  versionMajor : UInt8
  versionMinor : UInt8
  reserved1 : Fin 2 → UInt8
  slots : Fin 2 → AvbABSlotData
  reserved2 : Fin 12 → UInt8
  crc32 : UInt32
  deriving DecidableEq

def AvbABSlotData.bytes (slot : AvbABSlotData) : List UInt8 :=
  [slot.priority, slot.triesRemaining, slot.successfulBoot, slot.reserved]

/-- The 28 bytes before the checksum. -/
def AvbABData.body (data : AvbABData) : List UInt8 :=
  List.ofFn data.magic ++ [data.versionMajor, data.versionMinor] ++ List.ofFn data.reserved1 ++
    (data.slots 0).bytes ++ (data.slots 1).bytes ++ List.ofFn data.reserved2

/-- The record as it lies in memory. -/
def AvbABData.bytes (data : AvbABData) : List UInt8 := data.body ++ le32 data.crc32.toNat

def slotAt (b : List UInt8) (i : ℕ) : AvbABSlotData :=
  ⟨b.getD i 0, b.getD (i + 1) 0, b.getD (i + 2) 0, b.getD (i + 3) 0⟩

/-- The record that lies in a buffer of 32 bytes. -/
def ofBytes (b : List UInt8) : AvbABData where
  magic i := b.getD i 0
  versionMajor := b.getD 4 0
  versionMinor := b.getD 5 0
  reserved1 i := b.getD (6 + i) 0
  slots i := slotAt b (8 + 4 * i)
  reserved2 i := b.getD (16 + i) 0
  crc32 := UInt32.ofNat (word32 (fun i => b.getD i 0) 28)

/-- `\0AB0`. -/
def AVB_AB_MAGIC : Fin 4 → UInt8 := ![0x00, 0x41, 0x42, 0x30]

def AVB_AB_MAJOR_VERSION : UInt8 := 1
def AVB_AB_MINOR_VERSION : UInt8 := 0
def AVB_AB_DATA_SIZE : ℕ := 32
def AVB_AB_MAX_PRIORITY : UInt8 := 15
def AVB_AB_MAX_TRIES_REMAINING : UInt8 := 7

/-- `avb_ab_data_verify_and_byteswap`. -/
def avbAbDataVerifyAndByteswap (src : AvbABData) : Option AvbABData :=
  if src.magic ≠ AVB_AB_MAGIC then none
  else
    let dest := { src with crc32 := swap32 src.crc32 }
    if AVB_AB_MAJOR_VERSION < dest.versionMajor then none
    else if dest.crc32 ≠ avbCrc32 dest.body then none
    else some dest

/-- `avb_ab_data_update_crc_and_byteswap`. -/
def avbAbDataUpdateCrcAndByteswap (src : AvbABData) : AvbABData :=
  { src with crc32 := swap32 (avbCrc32 src.body) }

/-- `avb_ab_data_init`. -/
def avbAbDataInit : AvbABData where
  magic := AVB_AB_MAGIC
  versionMajor := AVB_AB_MAJOR_VERSION
  versionMinor := AVB_AB_MINOR_VERSION
  reserved1 _ := 0
  slots := ![⟨AVB_AB_MAX_PRIORITY, AVB_AB_MAX_TRIES_REMAINING, 0, 0⟩,
    ⟨AVB_AB_MAX_PRIORITY - 1, AVB_AB_MAX_TRIES_REMAINING, 0, 0⟩]
  reserved2 _ := 0
  crc32 := 0

/-! ### Slots -/

def slotIsBootable (slot : AvbABSlotData) : Bool :=
  decide (0 < slot.priority) &&
    (decide (slot.successfulBoot ≠ 0) || decide (0 < slot.triesRemaining))

def slotSetUnbootable (slot : AvbABSlotData) : AvbABSlotData :=
  { slot with priority := 0, triesRemaining := 0, successfulBoot := 0 }

/-- The second test sees what the first one left. -/
def slotNormalize (slot : AvbABSlotData) : AvbABSlotData :=
  if 0 < slot.priority then
    let slot := if slot.triesRemaining = 0 ∧ slot.successfulBoot = 0 then slotSetUnbootable slot
      else slot
    if 0 < slot.triesRemaining ∧ slot.successfulBoot ≠ 0 then slotSetUnbootable slot else slot
  else slotSetUnbootable slot

abbrev Slots := Fin 2 → AvbABSlotData

/-- Both slots, each on its own. -/
def normalizeSlots (slots : Slots) : Slots := fun n => slotNormalize (slots n)

/-! ### The record on the disk -/

/-- The name `misc`. -/
def miscName : List UInt8 := [0x6D, 0x69, 0x73, 0x63]

def AB_METADATA_MISC_PARTITION_OFFSET : ℤ := 2048

section Storage

variable {σ : Type} (ops : AvbOps σ)

def avbAbDataWrite (data : AvbABData) (env : σ) : AvbIOResult × σ :=
  let serialized := avbAbDataUpdateCrcAndByteswap data
  let (ioRet, env) :=
    ops.writeToPartition miscName AB_METADATA_MISC_PARTITION_OFFSET serialized.bytes env
  match ioRet with
  | .errorOom => (.errorOom, env)
  | .ok => (.ok, env)
  | _ => (.errorIo, env)

/-- The record is left as it was when nothing could be read. -/
def avbAbDataRead (data : AvbABData) (env : σ) : AvbIOResult × AvbABData × σ :=
  let (ioRet, numBytesRead, serialized, env) :=
    ops.readFromPartition miscName AB_METADATA_MISC_PARTITION_OFFSET AVB_AB_DATA_SIZE env
  match ioRet with
  | .errorOom => (.errorOom, data, env)
  | .ok =>
    if numBytesRead ≠ some AVB_AB_DATA_SIZE then (.errorIo, data, env)
    else
      match avbAbDataVerifyAndByteswap (ofBytes serialized) with
      | some data => (.ok, data, env)
      | none =>
        let (ioRet, env) := avbAbDataWrite ops avbAbDataInit env
        (ioRet, avbAbDataInit, env)
  | _ => (.errorIo, data, env)

/-- The result, `*ab_data` and `*ab_data_orig`. -/
def loadMetadata (abData abDataOrig : AvbABData) (env : σ) :
    AvbIOResult × AvbABData × AvbABData × σ :=
  let (ioRet, abData, env) := avbAbDataRead ops abData env
  if ioRet ≠ .ok then (ioRet, abData, abDataOrig, env)
  else (.ok, { abData with slots := normalizeSlots abData.slots }, abData, env)

def saveMetadataIfChanged (abData abDataOrig : AvbABData) (env : σ) : AvbIOResult × σ :=
  if abData ≠ abDataOrig then avbAbDataWrite ops abData env else (.ok, env)

/-- What the three operations that mark a slot have in common. -/
def markSlot (change : Slots → Slots) (stack : AvbABData × AvbABData) (env : σ) :
    AvbIOResult × σ :=
  let (ret, abData, abDataOrig, env) := loadMetadata ops stack.1 stack.2 env
  if ret ≠ .ok then (ret, env)
  else saveMetadataIfChanged ops { abData with slots := change abData.slots } abDataOrig env

/-- Top priority, not successful and with all tries; the other slot comes after it. -/
def makeActive (n : Fin 2) (slots : Slots) : Slots :=
  let slots := Function.update slots n { slots n with
    priority := AVB_AB_MAX_PRIORITY, triesRemaining := AVB_AB_MAX_TRIES_REMAINING,
    successfulBoot := 0 }
  let other := 1 - n
  if (slots other).priority = AVB_AB_MAX_PRIORITY then
    Function.update slots other { slots other with priority := AVB_AB_MAX_PRIORITY - 1 }
  else slots

def makeUnbootable (n : Fin 2) (slots : Slots) : Slots :=
  Function.update slots n (slotSetUnbootable (slots n))

/-- A slot that cannot be booted is left alone. -/
def makeSuccessful (n : Fin 2) (slots : Slots) : Slots :=
  if slotIsBootable (slots n) then
    Function.update slots n { slots n with triesRemaining := 0, successfulBoot := 1 }
  else slots

def avbAbMarkSlotActive (slotNumber : Fin 2) : AvbABData × AvbABData → σ → AvbIOResult × σ :=
  markSlot ops (makeActive slotNumber)

def avbAbMarkSlotUnbootable (slotNumber : Fin 2) : AvbABData × AvbABData → σ → AvbIOResult × σ :=
  markSlot ops (makeUnbootable slotNumber)

def avbAbMarkSlotSuccessful (slotNumber : Fin 2) : AvbABData × AvbABData → σ → AvbIOResult × σ :=
  markSlot ops (makeSuccessful slotNumber)

end Storage

/-! ### Choosing a slot -/

inductive AvbABFlowResult
  | ok
  | okWithVerificationError
  | errorOom
  | errorIo
  | errorNoBootableSlots
  | errorInvalidArgument
  deriving DecidableEq

/-- `slot_suffixes`. -/
def slotSuffixes : Fin 2 → List UInt8 := ![[0x5F, 0x61], [0x5F, 0x62]]

/-- The slot that a suffix stands for. -/
def slotOfSuffix (suffix : List UInt8) : Fin 2 := if suffix = slotSuffixes 0 then 0 else 1

/-- The variables of `avb_ab_flow`. -/
structure Flow (σ : Type) where
  env : σ
  abData : AvbABData
  abDataOrig : AvbABData
  slotData : Fin 2 → Option AvbSlotVerifyData
  sawAndAllowedVerificationError : Bool

/-- `goto out` leaves with a result; without one, an assertion has failed. -/
abbrev FlowM (σ α : Type) := Eff (Flow σ) (Option AvbABFlowResult) α

section Choice

variable {σ : Type} (ops : AvbOps σ)

/-- `avb_slot_verify` of one slot, with `*out_data`. -/
abbrev SlotVerify (σ : Type) := Fin 2 → σ → (AvbSlotVerifyResult × Option AvbSlotVerifyData) × σ

def onEnv {α : Type} (f : σ → α × σ) : FlowM σ α :=
  act fun s => ((f s.env).1, { s with env := (f s.env).2 })

def checkIo : AvbIOResult → FlowM σ Unit
  | .errorOom => fail (some .errorOom)
  | .ok => pure ()
  | _ => fail (some .errorIo)

def setSlotUnbootable (n : Fin 2) : FlowM σ Unit :=
  modify fun s => { s with
    abData := { s.abData with slots := makeUnbootable n s.abData.slots } }

/-- A slot that can be booted is verified. -/
def validateSlot (verify : SlotVerify σ) (allow : Bool) (n : Fin 2) : FlowM σ Unit := do
  let s ← get
  if slotIsBootable (s.abData.slots n) then
    let (verifyResult, data) ← onEnv (verify n)
    modify fun s => { s with slotData := Function.update s.slotData n data }
    match verifyResult with
    | .errorOom => fail (some .errorOom)
    | .errorIo => fail (some .errorIo)
    | .ok => pure ()
    | .errorInvalidMetadata | .errorUnsupportedVersion => setSlotUnbootable n
    | .errorVerification | .errorRollbackIndex | .errorPublicKeyRejected =>
      if allow then modify fun s => { s with sawAndAllowedVerificationError := true }
      else setSlotUnbootable n
    | .errorInvalidArgument => fail (some .errorInvalidArgument)
  else pure ()

/-- `slot_index_to_boot`. -/
def slotIndexToBoot (slots : Slots) : Option (Fin 2) :=
  if slotIsBootable (slots 0) && slotIsBootable (slots 1) then
    if (slots 0).priority < (slots 1).priority then some 1 else some 0
  else if slotIsBootable (slots 0) then some 0
  else if slotIsBootable (slots 1) then some 1
  else none

/-- The largest value that supports the slots there are data of. -/
def rollbackIndexValue (slotData : Fin 2 → Option AvbSlotVerifyData) (n : ℕ) : UInt64 :=
  match slotData 0, slotData 1 with
  | some a, some b =>
    if a.rollbackIndexes n < b.rollbackIndexes n then a.rollbackIndexes n else b.rollbackIndexes n
  | some a, none => a.rollbackIndexes n
  | none, some b => b.rollbackIndexes n
  | none, none => 0

def updateRollbackIndex (n : ℕ) : FlowM σ Unit := do
  let s ← get
  let value := rollbackIndexValue s.slotData n
  if value ≠ 0 then
    let (ioRet, current) ← onEnv (ops.readRollbackIndex n)
    checkIo ioRet
    if current ≠ value then
      let ioRet ← onEnv (ops.writeRollbackIndex n value)
      checkIo ioRet
    else pure ()
  else pure ()

/-- One try less for a slot that has not booted successfully. -/
def useTry (slot : AvbABSlotData) : AvbABSlotData :=
  if slot.successfulBoot = 0 ∧ 0 < slot.triesRemaining then
    { slot with triesRemaining := slot.triesRemaining - 1 }
  else slot

/-- `avb_ab_flow` up to `out`; the data are those of the slot to boot. -/
def flowBody (verify : SlotVerify σ) (allow : Bool) :
    FlowM σ (AvbABFlowResult × AvbSlotVerifyData) := do
  let ioRet ← act fun s =>
    let (ioRet, abData, abDataOrig, env) := loadMetadata ops s.abData s.abDataOrig s.env
    (ioRet, { s with abData := abData, abDataOrig := abDataOrig, env := env })
  checkIo ioRet
  validateSlot verify allow 0
  validateSlot verify allow 1
  let s ← get
  match slotIndexToBoot s.abData.slots with
  | none => fail (some .errorNoBootableSlots)
  | some i =>
    each (List.range AVB_MAX_NUMBER_OF_ROLLBACK_INDEX_LOCATIONS) (updateRollbackIndex ops)
    match s.slotData i with
    | none => fail none
    | some data =>
      modify fun s => { s with abData := { s.abData with
        slots := Function.update s.abData.slots i (useTry (s.abData.slots i)) } }
      pure (if s.sawAndAllowedVerificationError then .okWithVerificationError else .ok, data)

/-- `avb_ab_flow`: the result and `*out_data`, unless an assertion failed. -/
def avbAbFlow (verify : SlotVerify σ) (allow : Bool) (stack : AvbABData × AvbABData) (env : σ) :
    Option (AvbABFlowResult × Option AvbSlotVerifyData) × σ :=
  let (r, s) := flowBody ops verify allow ⟨env, stack.1, stack.2, fun _ => none, false⟩
  match r with
  | .error none => (none, s.env)
  | .error (some ret) => finish s ret none
  | .ok (ret, data) => finish s ret (some data)
where
  /-- From `out` on. -/
  finish (s : Flow σ) (ret : AvbABFlowResult) (data : Option AvbSlotVerifyData) :=
    let (ioRet, env) := saveMetadataIfChanged ops s.abData s.abDataOrig s.env
    match ioRet with
    | .ok => (some (ret, data), env)
    | .errorOom => (some (.errorOom, none), env)
    | _ => (some (.errorIo, none), env)

end Choice

end UefiToolkit.AbModel
