import UefiToolkit.StructPack

/-!
`GenerateCapsule`: a payload with its signature wrapped into the image of an FMP capsule and that
into a UEFI capsule, and such a capsule taken apart again.

A class is a structure of its fields; a method gives back its result and the object after it, or
the exception it raises. The fields that only `DumpInfo` reads, `_Valid` among them, are left out.
-/

namespace UefiToolkit.CapsuleModel

open StructPack

inductive PyError
  | valueError
  | structError
  deriving DecidableEq

/-- `struct.pack`. -/
def structPack (fs : List Field) (vs : List Value) : Except PyError (List UInt8) :=
  (pack fs vs).elim (.error .structError) .ok

/-- `struct.unpack`. -/
def structUnpack (fs : List Field) (b : List UInt8) : Except PyError (List Value) :=
  (unpack fs b).elim (.error .structError) .ok

/-- `Buffer[i:j]`. -/
def slice (buffer : List UInt8) (i j : ℕ) : List UInt8 := (buffer.take j).drop i

/-! ### GUIDs -/

/-- The first three groups of a GUID with their bytes turned round. -/
def swapGroups (b : List UInt8) : List UInt8 :=
  (b.take 4).reverse ++ ((b.drop 4).take 2).reverse ++ ((b.drop 6).take 2).reverse ++ b.drop 8

lemma swapGroups_length {b : List UInt8} (h : b.length = 16) : (swapGroups b).length = 16 := by
  simp [swapGroups, h]

lemma swapGroups_swapGroups {b : List UInt8} (h : b.length = 16) :
    swapGroups (swapGroups b) = b := by
  match b, h with
  | [_, _, _, _, _, _, _, _, _, _, _, _, _, _, _, _], _ => rfl

/-- `uuid.UUID`, its bytes in the order of its text. -/
structure Uuid where
  bytes : List UInt8
  size : bytes.length = 16
  deriving DecidableEq

def Uuid.bytesLe (u : Uuid) : List UInt8 := swapGroups u.bytes

/-- `uuid.UUID (bytes_le = …)`. -/
def Uuid.ofBytesLe (b : List UInt8) : Except PyError Uuid :=
  if h : b.length = 16 then .ok ⟨swapGroups b, swapGroups_length h⟩ else .error .valueError

@[simp] lemma Uuid.bytesLe_length (u : Uuid) : u.bytesLe.length = 16 := swapGroups_length u.size

@[simp] lemma Uuid.ofBytesLe_bytesLe (u : Uuid) : Uuid.ofBytesLe u.bytesLe = .ok u := by
  obtain ⟨b, hb⟩ := u
  rw [ofBytesLe, dif_pos (bytesLe_length _)]
  exact congrArg Except.ok (Uuid.mk.injEq .. ▸ swapGroups_swapGroups hb)

/-! ### `FmpAuthHeaderClass` -/

namespace FmpAuthHeader

def structFormat : List Field := [.uint 8, .uint 4, .uint 2, .uint 2, .str 16]

def structSize : ℕ := calcsize structFormat

def monotonicCountSize : ℕ := calcsize [.uint 8]

def structAuthInfoSize : ℕ := calcsize [.uint 4, .uint 2, .uint 2, .str 16]

def winCertRevision : ℕ := 0x0200

def winCertTypeEfiGuid : ℕ := 0x0EF1

/-- `a7717414-c616-4977-9420-844712a735bf`. -/
def efiCertTypeRsa2048Sha256Guid : Uuid :=
  ⟨[0xa7, 0x71, 0x74, 0x14, 0xc6, 0x16, 0x49, 0x77, 0x94, 0x20, 0x84, 0x47, 0x12, 0xa7, 0x35,
    0xbf], rfl⟩

end FmpAuthHeader

structure FmpAuthHeader where
  monotonicCount : ℕ := 0
  dwLength : ℕ := FmpAuthHeader.structAuthInfoSize
  wRevision : ℕ := FmpAuthHeader.winCertRevision
  wCertificateType : ℕ := FmpAuthHeader.winCertTypeEfiGuid
  certType : Uuid := FmpAuthHeader.efiCertTypeRsa2048Sha256Guid
  certData : List UInt8 := []
  payload : List UInt8 := []
  deriving DecidableEq

namespace FmpAuthHeader

def encode (self : FmpAuthHeader) : Except PyError (List UInt8 × FmpAuthHeader) :=
  if self.wRevision ≠ winCertRevision then .error .valueError
  else if self.wCertificateType ≠ winCertTypeEfiGuid then .error .valueError
  else if self.certType ≠ efiCertTypeRsa2048Sha256Guid then .error .valueError
  else do
    let dwLength := structAuthInfoSize + self.certData.length
    let header ← structPack structFormat [.int self.monotonicCount, .int dwLength,
      .int self.wRevision, .int self.wCertificateType, .bytes self.certType.bytesLe]
    .ok (header ++ self.certData ++ self.payload, { self with dwLength := dwLength })

/-- The result and, when it succeeds, all the fields come from the buffer. -/
def decode (buffer : List UInt8) : Except PyError (List UInt8 × FmpAuthHeader) :=
  if buffer.length < structSize then .error .valueError
  else
    match structUnpack structFormat (slice buffer 0 structSize) with
    | .ok [.int monotonicCount, .int dwLength, .int wRevision, .int wCertificateType,
        .bytes certType] =>
      if dwLength < structAuthInfoSize then .error .valueError
      else if wRevision ≠ winCertRevision then .error .valueError
      else if wCertificateType ≠ winCertTypeEfiGuid then .error .valueError
      else if certType ≠ efiCertTypeRsa2048Sha256Guid.bytesLe then .error .valueError
      else do
        let certType ← Uuid.ofBytesLe certType
        let payload := buffer.drop (monotonicCountSize + dwLength)
        .ok (payload,
          { monotonicCount := monotonicCount
            dwLength := dwLength
            wRevision := wRevision
            wCertificateType := wCertificateType
            certType := certType
            certData := slice buffer structSize (monotonicCountSize + dwLength)
            payload := payload })
    | _ => .error .structError

end FmpAuthHeader

/-! ### `FmpCapsuleImageHeaderClass` -/

namespace FmpCapsuleImageHeader

def structFormat : List Field :=
  [.uint 4, .str 16, .uint 1, .uint 1, .uint 1, .uint 1, .uint 4, .uint 4, .uint 8]

def structSize : ℕ := calcsize structFormat

/-- `EFI_FIRMWARE_MANAGEMENT_CAPSULE_IMAGE_HEADER_INIT_VERSION`. -/
def initVersion : ℕ := 0x00000002

end FmpCapsuleImageHeader

structure FmpCapsuleImageHeader where
  version : ℕ := FmpCapsuleImageHeader.initVersion
  updateImageTypeId : Uuid := ⟨List.replicate 16 0, rfl⟩
  updateImageIndex : ℕ := 0
  updateImageSize : ℕ := 0
  updateVendorCodeSize : ℕ := 0
  updateHardwareInstance : ℕ := 0
  payload : List UInt8 := []
  vendorCodeBytes : List UInt8 := []
  deriving DecidableEq

namespace FmpCapsuleImageHeader

def encode (self : FmpCapsuleImageHeader) :
    Except PyError (List UInt8 × FmpCapsuleImageHeader) := do
  let updateImageSize := self.payload.length
  let updateVendorCodeSize := self.vendorCodeBytes.length
  let header ← structPack structFormat [.int self.version, .bytes self.updateImageTypeId.bytesLe,
    .int self.updateImageIndex, .int 0, .int 0, .int 0, .int updateImageSize,
    .int updateVendorCodeSize, .int self.updateHardwareInstance]
  .ok (header ++ self.payload ++ self.vendorCodeBytes,
    { self with updateImageSize := updateImageSize, updateVendorCodeSize := updateVendorCodeSize })

def decode (buffer : List UInt8) : Except PyError (List UInt8 × FmpCapsuleImageHeader) :=
  if buffer.length < structSize then .error .valueError
  else
    match structUnpack structFormat (slice buffer 0 structSize) with
    | .ok [.int version, .bytes updateImageTypeId, .int updateImageIndex, .int _, .int _, .int _,
        .int updateImageSize, .int updateVendorCodeSize, .int updateHardwareInstance] =>
      if version < initVersion then .error .valueError
      else if updateImageIndex < 1 then .error .valueError
      else if updateImageSize + updateVendorCodeSize ≠ (buffer.drop structSize).length then
        .error .valueError
      else do
        let updateImageTypeId ← Uuid.ofBytesLe updateImageTypeId
        .ok (buffer.drop structSize,
          { version := version
            updateImageTypeId := updateImageTypeId
            updateImageIndex := updateImageIndex
            updateImageSize := updateImageSize
            updateVendorCodeSize := updateVendorCodeSize
            updateHardwareInstance := updateHardwareInstance
            payload := slice buffer structSize (structSize + updateImageSize)
            vendorCodeBytes := buffer.drop (structSize + updateImageSize) })
    | _ => .error .structError

end FmpCapsuleImageHeader

/-! ### `FmpCapsuleHeaderClass` -/

namespace FmpCapsuleHeader

def structFormat : List Field := [.uint 4, .uint 2, .uint 2]

def structSize : ℕ := calcsize structFormat

def itemOffsetFormat : List Field := [.uint 8]

def itemOffsetSize : ℕ := calcsize itemOffsetFormat

/-- `EFI_FIRMWARE_MANAGEMENT_CAPSULE_HEADER_INIT_VERSION`. -/
def initVersion : ℕ := 0x00000001

/-- An element of `_PayloadList`. -/
structure Payload where
  updateImageTypeId : Uuid
  payload : List UInt8 := []
  vendorCodeBytes : List UInt8 := []
  hardwareInstance : ℕ := 0
  deriving DecidableEq

end FmpCapsuleHeader

structure FmpCapsuleHeader where
  version : ℕ := FmpCapsuleHeader.initVersion
  embeddedDriverCount : ℕ := 0
  payloadItemCount : ℕ := 0
  itemOffsetList : List ℕ := []
  embeddedDriverList : List (List UInt8) := []
  payloadList : List FmpCapsuleHeader.Payload := []
  fmpCapsuleImageHeaderList : List FmpCapsuleImageHeader := []
  deriving DecidableEq

namespace FmpCapsuleHeader

def addEmbeddedDriver (self : FmpCapsuleHeader) (d : List UInt8) : FmpCapsuleHeader :=
  { self with embeddedDriverList := self.embeddedDriverList ++ [d] }

def addPayload (self : FmpCapsuleHeader) (p : Payload) : FmpCapsuleHeader :=
  { self with payloadList := self.payloadList ++ [p] }

def getFmpCapsuleImageHeader (self : FmpCapsuleHeader) (index : ℕ) :
    Except PyError FmpCapsuleImageHeader :=
  (self.fmpCapsuleImageHeaderList[index]?).elim (.error .valueError) .ok

/-- What the loops of `Encode` carry along. -/
structure Items where
  fmpCapsuleData : List UInt8
  itemOffsetList : List ℕ
  fmpCapsuleImageHeaderList : List FmpCapsuleImageHeader
  offset : ℕ
  index : ℕ

def encodeDriver (s : Items) (driver : List UInt8) : Items :=
  { s with
    fmpCapsuleData := s.fmpCapsuleData ++ driver
    itemOffsetList := s.itemOffsetList ++ [s.offset]
    offset := s.offset + driver.length }

def encodePayload (s : Items) (p : Payload) : Except PyError Items := do
  let (image, header) ← FmpCapsuleImageHeader.encode
    { updateImageTypeId := p.updateImageTypeId
      updateImageIndex := s.index
      payload := p.payload
      vendorCodeBytes := p.vendorCodeBytes
      updateHardwareInstance := p.hardwareInstance }
  .ok
    { fmpCapsuleData := s.fmpCapsuleData ++ image
      itemOffsetList := s.itemOffsetList ++ [s.offset]
      fmpCapsuleImageHeaderList := s.fmpCapsuleImageHeaderList ++ [header]
      offset := s.offset + image.length
      index := s.index + 1 }

def encodeOffset (header : List UInt8) (offset : ℕ) : Except PyError (List UInt8) := do
  let b ← structPack itemOffsetFormat [.int offset]
  .ok (header ++ b)

/-- The offsets and image headers are added to those an earlier call left in the object. -/
def encode (self : FmpCapsuleHeader) : Except PyError (List UInt8 × FmpCapsuleHeader) := do
  let embeddedDriverCount := self.embeddedDriverList.length
  let payloadItemCount := self.payloadList.length
  let header ← structPack structFormat
    [.int self.version, .int embeddedDriverCount, .int payloadItemCount]
  let items := self.embeddedDriverList.foldl encodeDriver
    { fmpCapsuleData := []
      itemOffsetList := self.itemOffsetList
      fmpCapsuleImageHeaderList := self.fmpCapsuleImageHeaderList
      offset := structSize + (embeddedDriverCount + payloadItemCount) * itemOffsetSize
      index := 1 }
  let items ← self.payloadList.foldlM encodePayload items
  let header ← items.itemOffsetList.foldlM encodeOffset header
  .ok (header ++ items.fmpCapsuleData,
    { self with
      embeddedDriverCount := embeddedDriverCount
      payloadItemCount := payloadItemCount
      itemOffsetList := items.itemOffsetList
      fmpCapsuleImageHeaderList := items.fmpCapsuleImageHeaderList })

/-- So many offsets from `offset` on; the result is their list and the offset behind them. -/
def decodeOffsets (buffer : List UInt8) : ℕ → ℕ → List ℕ → Except PyError (List ℕ × ℕ)
  | 0, offset, l => .ok (l, offset)
  | n + 1, offset, l =>
    match structUnpack itemOffsetFormat (slice buffer offset (offset + itemOffsetSize)) with
    | .ok [.int itemOffset] =>
      if buffer.length ≤ itemOffset then .error .valueError
      else decodeOffsets buffer n (offset + itemOffsetSize) (l ++ [itemOffset])
    | _ => .error .structError

/-- An item ends where the next begins, the last one with the buffer. -/
def item (buffer : List UInt8) (itemOffsetList : List ℕ) (index : ℕ) : List UInt8 :=
  slice buffer (itemOffsetList.getD index 0)
    (if index < itemOffsetList.length - 1 then itemOffsetList.getD (index + 1) 0
      else buffer.length)

def decodePayload (buffer : List UInt8) (self : FmpCapsuleHeader) (index : ℕ) :
    Except PyError FmpCapsuleHeader := do
  let (_, header) ← FmpCapsuleImageHeader.decode (item buffer self.itemOffsetList index)
  -- the hardware instance stays in the image header
  let self := self.addPayload
    { updateImageTypeId := header.updateImageTypeId
      payload := header.payload
      vendorCodeBytes := header.vendorCodeBytes }
  .ok { self with fmpCapsuleImageHeaderList := self.fmpCapsuleImageHeaderList ++ [header] }

def decode (buffer : List UInt8) : Except PyError (List UInt8 × FmpCapsuleHeader) :=
  if buffer.length < structSize then .error .valueError
  else
    match structUnpack structFormat (slice buffer 0 structSize) with
    | .ok [.int version, .int embeddedDriverCount, .int payloadItemCount] =>
      if version < initVersion then .error .valueError
      else do
        let (itemOffsetList, offset) ←
          decodeOffsets buffer (embeddedDriverCount + payloadItemCount) structSize []
        let self : FmpCapsuleHeader :=
          { version := version
            embeddedDriverCount := embeddedDriverCount
            payloadItemCount := payloadItemCount
            itemOffsetList := itemOffsetList }
        let self := (List.range embeddedDriverCount).foldl
          (fun h i => h.addEmbeddedDriver (item buffer itemOffsetList i)) self
        let self ← (List.range' embeddedDriverCount payloadItemCount).foldlM
          (decodePayload buffer) self
        .ok (buffer.drop offset, self)
    | _ => .error .structError

end FmpCapsuleHeader

/-! ### `UefiCapsuleHeaderClass` -/

namespace UefiCapsuleHeader

def structFormat : List Field := [.str 16, .uint 4, .uint 4, .uint 4, .uint 4]

def structSize : ℕ := calcsize structFormat

/-- `EFI_FIRMWARE_MANAGEMENT_CAPSULE_ID_GUID`, `6DCBD5ED-E82D-4C44-BDA1-7194199AD92A`. -/
def efiFirmwareManagementCapsuleIdGuid : Uuid :=
  ⟨[0x6D, 0xCB, 0xD5, 0xED, 0xE8, 0x2D, 0x4C, 0x44, 0xBD, 0xA1, 0x71, 0x94, 0x19, 0x9A, 0xD9,
    0x2A], rfl⟩

def capsuleFlagsPersistAcrossReset : ℕ := 0x00010000

def capsuleFlagsPopulateSystemTable : ℕ := 0x00020000

def capsuleFlagsInitiateReset : ℕ := 0x00040000

end UefiCapsuleHeader

structure UefiCapsuleHeader where
  capsuleGuid : Uuid := UefiCapsuleHeader.efiFirmwareManagementCapsuleIdGuid
  headerSize : ℕ := UefiCapsuleHeader.structSize
  oemFlags : ℕ := 0x0000
  persistAcrossReset : Bool := false
  populateSystemTable : Bool := false
  initiateReset : Bool := false
  capsuleImageSize : ℕ := UefiCapsuleHeader.structSize
  payload : List UInt8 := []
  deriving DecidableEq

namespace UefiCapsuleHeader

/-- `Flags | Flag` where the condition holds. -/
def orFlag (flags flag : ℕ) (b : Bool) : ℕ := if b then flags ||| flag else flags

def encode (self : UefiCapsuleHeader) : Except PyError (List UInt8 × UefiCapsuleHeader) := do
  let flags := self.oemFlags
  let flags := orFlag flags capsuleFlagsPersistAcrossReset self.persistAcrossReset
  let flags := orFlag flags capsuleFlagsPopulateSystemTable self.populateSystemTable
  let flags := orFlag flags capsuleFlagsInitiateReset self.initiateReset
  let capsuleImageSize := self.headerSize + self.payload.length
  let header ← structPack structFormat [.bytes self.capsuleGuid.bytesLe, .int self.headerSize,
    .int flags, .int capsuleImageSize, .int 0]
  .ok (header ++ self.payload, { self with capsuleImageSize := capsuleImageSize })

def decode (buffer : List UInt8) : Except PyError (List UInt8 × UefiCapsuleHeader) :=
  if buffer.length < structSize then .error .valueError
  else
    match structUnpack structFormat (slice buffer 0 structSize) with
    | .ok [.bytes capsuleGuid, .int headerSize, .int flags, .int capsuleImageSize, .int _] =>
      if headerSize < structSize then .error .valueError
      else if capsuleImageSize ≠ buffer.length then .error .valueError
      else do
        let capsuleGuid ← Uuid.ofBytesLe capsuleGuid
        .ok (buffer.drop headerSize,
          { capsuleGuid := capsuleGuid
            headerSize := headerSize
            oemFlags := flags &&& 0xffff
            persistAcrossReset := flags &&& capsuleFlagsPersistAcrossReset != 0
            populateSystemTable := flags &&& capsuleFlagsPopulateSystemTable != 0
            initiateReset := flags &&& capsuleFlagsInitiateReset != 0
            capsuleImageSize := capsuleImageSize
            payload := buffer.drop headerSize })
    | _ => .error .structError

end UefiCapsuleHeader

/-! ### `GenerateCapsule` -/

inductive CapsuleFlag
  | persistAcrossReset
  | initiateReset
  deriving DecidableEq

/-- The arguments of an encode operation. -/
structure EncodeArgs where
  capsuleFlag : List CapsuleFlag
  capsuleOemFlag : ℕ
  guid : Option Uuid
  hardwareInstance : ℕ
  monotonicCount : ℕ
  outputFile : Bool
  onWindows : Bool

/-- The additional verification; the text is that of the error. -/
def EncodeArgs.verify (args : EncodeArgs) : Except String Uuid :=
  match args.guid with
  | none => .error "the following option is required: --guid"
  | some guid =>
    if CapsuleFlag.persistAcrossReset ∉ args.capsuleFlag ∧
        CapsuleFlag.initiateReset ∈ args.capsuleFlag then
      .error "--capflag InitiateReset also requires --capflag PersistAcrossReset"
    else if 0xFFFF < args.capsuleOemFlag then
      .error "--capoemflag must be an integer between 0x0000 and 0xffff"
    else if 0xFFFFFFFFFFFFFFFF < args.hardwareInstance then
      .error "--hardware-instance must be an integer in range 0x0..0xffffffffffffffff"
    else if 0xFFFFFFFFFFFFFFFF < args.monotonicCount then
      .error "--monotonic-count must be an integer in range 0x0..0xffffffffffffffff"
    else if ¬args.outputFile then
      .error "the following option is required for all encode and decode operations: --output"
    else if ¬args.onWindows then
      .error "Use of openssl is not supported on this operating system."
    else .ok guid

/-- The encode path: the payload read and the `CertData` its signing gave. -/
def encodeCapsule (args : EncodeArgs) (certData payload : List UInt8) :
    Except String (List UInt8) := do
  let guid ← args.verify
  let (result, _) ← (FmpAuthHeader.encode
      { monotonicCount := args.monotonicCount
        certData := certData
        payload := payload }).mapError
    fun _ => "GenerateCapsule: error: can not encode FMP Auth Header"
  let (result, _) ← (FmpCapsuleHeader.encode (FmpCapsuleHeader.addPayload {}
      { updateImageTypeId := guid
        payload := result
        hardwareInstance := args.hardwareInstance })).mapError
    fun _ => "GenerateCapsule: error: can not encode FMP Capsule Header"
  let (result, _) ← (UefiCapsuleHeader.encode
      { oemFlags := args.capsuleOemFlag
        persistAcrossReset := decide (CapsuleFlag.persistAcrossReset ∈ args.capsuleFlag)
        populateSystemTable := false
        initiateReset := decide (CapsuleFlag.initiateReset ∈ args.capsuleFlag)
        payload := result }).mapError
    fun _ => "GenerateCapsule: error: can not encode UEFI Capsule Header"
  .ok result

/-- The three objects after the dump path; the last is absent when there is no such header. -/
structure Dump where
  uefiCapsuleHeader : UefiCapsuleHeader
  fmpCapsuleHeader : FmpCapsuleHeader
  fmpAuthHeader : Option FmpAuthHeader
  result : List UInt8
  deriving DecidableEq

/-- The `try` around the last header: its failure leaves the result as it was. -/
def dumpAuthHeader (result : List UInt8) : List UInt8 × Option FmpAuthHeader :=
  match FmpAuthHeader.decode result with
  | .ok (r, header) => (r, some header)
  | .error _ => (result, none)

def decodeHeaders (buffer : List UInt8) : Except PyError Dump := do
  let (result, uefiCapsuleHeader) ← UefiCapsuleHeader.decode buffer
  let (_, fmpCapsuleHeader) ← FmpCapsuleHeader.decode result
  let imageHeader ← fmpCapsuleHeader.getFmpCapsuleImageHeader 0
  let (result, fmpAuthHeader) := dumpAuthHeader imageHeader.payload
  .ok
    { uefiCapsuleHeader := uefiCapsuleHeader
      fmpCapsuleHeader := fmpCapsuleHeader
      fmpAuthHeader := fmpAuthHeader
      result := result }

/-- The dump path. -/
def dumpInfo (buffer : List UInt8) : Except String Dump :=
  (decodeHeaders buffer).mapError fun _ => "GenerateCapsule: error: can not decode capsule"

end UefiToolkit.CapsuleModel
