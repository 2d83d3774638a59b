import UefiToolkit.CapsuleModel

/-!
A capsule that `GenerateCapsule` encodes is taken apart to what it was made of, one layer after
the other, and every size and offset in its headers is that of the bytes it describes.
-/

namespace UefiToolkit.CapsuleRoundTrip

open StructPack CapsuleModel

/-- A record that fits its format is packed, and unpacked from the front of a buffer. -/
lemma struct_pack_unpack (fs : List Field) (vs : List Value) (n : ℕ) (hn : calcsize fs = n)
    (h : List.Forall₂ Fits fs vs) :
    ∃ b, structPack fs vs = .ok b ∧ b.length = n ∧ structUnpack fs b = .ok vs ∧
      ∀ rest, structUnpack fs (slice (b ++ rest) 0 n) = .ok vs := by
  subst hn
  obtain ⟨b, hb, hlen, hu⟩ := pack_fits h
  have hunpack : structUnpack fs b = .ok vs := by
    rw [structUnpack, hu]
    rfl
  refine ⟨b, ?_, hlen, hunpack, fun rest => ?_⟩
  · rw [structPack, hb]
    rfl
  · rw [slice, List.take_left' hlen, List.drop_zero, hunpack]

lemma fits_int {k n : ℕ} (h : n < 256 ^ k) : Fits (.uint k) (.int n) := h

lemma fits_guid (u : Uuid) : Fits (.str 16) (.bytes u.bytesLe) := u.bytesLe_length

lemma ok_bind {α β : Type} (a : α) (f : α → Except PyError β) : (Except.ok a >>= f) = f a := rfl

lemma slice_between {a b c : List UInt8} {i j : ℕ} (hi : a.length = i)
    (hj : a.length + b.length = j) : slice (a ++ b ++ c) i j = b := by
  rw [slice, List.take_left' (by rw [List.length_append, hj]), List.drop_left' hi]

/-! ### The authentication header -/

section Auth

open FmpAuthHeader

/-- What it encodes it decodes to the same fields. -/
lemma auth_decode_encode {m : ℕ} (certData payload : List UInt8) (hm : m < 2 ^ 64)
    (hlen : structAuthInfoSize + certData.length < 2 ^ 32) :
    ∃ header h, FmpAuthHeader.encode
        { monotonicCount := m, certData := certData, payload := payload } =
          .ok (header ++ certData ++ payload, h) ∧
      header.length = FmpAuthHeader.structSize ∧
      FmpAuthHeader.decode (header ++ certData ++ payload) = .ok (payload, h) ∧
      h =
        { monotonicCount := m
          dwLength := structAuthInfoSize + certData.length
          certData := certData
          payload := payload } := by
  obtain ⟨header, hpack, hsize, -, hunpack⟩ := struct_pack_unpack structFormat
    [.int m, .int (structAuthInfoSize + certData.length), .int winCertRevision,
      .int winCertTypeEfiGuid, .bytes efiCertTypeRsa2048Sha256Guid.bytesLe] structSize rfl
    (.cons (fits_int hm) (.cons (fits_int hlen) (.cons (fits_int (by decide))
      (.cons (fits_int (by decide)) (.cons (fits_guid _) .nil)))))
  have hcut : header.length + certData.length =
      monotonicCountSize + (structAuthInfoSize + certData.length) := by
    rw [hsize, ← Nat.add_assoc]
    rfl
  refine ⟨header, _, ?_, hsize, ?_, rfl⟩
  · rw [FmpAuthHeader.encode, if_neg (not_not.mpr rfl), if_neg (not_not.mpr rfl),
      if_neg (not_not.mpr rfl)]
    dsimp only
    rw [hpack]
    rfl
  · have hlong : ¬(header ++ certData ++ payload).length < structSize := by
      rw [List.length_append, List.length_append, hsize]
      exact not_lt.mpr (Nat.le_add_right_of_le (Nat.le_add_right _ _))
    rw [FmpAuthHeader.decode, if_neg hlong, List.append_assoc, hunpack,
      ← List.append_assoc]
    simp only [not_lt.mpr (Nat.le_add_right structAuthInfoSize _), ne_eq, not_true_eq_false,
      if_false, Uuid.ofBytesLe_bytesLe]
    rw [slice_between hsize hcut, List.drop_left' (by rw [List.length_append, hcut])]
    rfl

end Auth

/-! ### The image header -/

section Image

open FmpCapsuleImageHeader

lemma image_decode_encode (g : Uuid) {i w : ℕ} (payload vendor : List UInt8) (hi : 1 ≤ i)
    (hi' : i < 2 ^ 8) (hw : w < 2 ^ 64) (hlen : payload.length < 2 ^ 32)
    (hlen' : vendor.length < 2 ^ 32) :
    ∃ header h, FmpCapsuleImageHeader.encode
        { updateImageTypeId := g
          updateImageIndex := i
          updateHardwareInstance := w
          payload := payload
          vendorCodeBytes := vendor } = .ok (header ++ payload ++ vendor, h) ∧
      header.length = FmpCapsuleImageHeader.structSize ∧
      FmpCapsuleImageHeader.decode (header ++ payload ++ vendor) = .ok (payload ++ vendor, h) ∧
      h =
        { updateImageTypeId := g
          updateImageIndex := i
          updateImageSize := payload.length
          updateVendorCodeSize := vendor.length
          updateHardwareInstance := w
          payload := payload
          vendorCodeBytes := vendor } := by
  obtain ⟨header, hpack, hsize, -, hunpack⟩ := struct_pack_unpack structFormat
    [.int initVersion, .bytes g.bytesLe, .int i, .int 0, .int 0, .int 0, .int payload.length,
      .int vendor.length, .int w] structSize rfl
    (.cons (fits_int (by decide)) (.cons (fits_guid g) (.cons (fits_int hi')
      (.cons (fits_int (by decide)) (.cons (fits_int (by decide)) (.cons (fits_int (by decide))
      (.cons (fits_int hlen) (.cons (fits_int hlen') (.cons (fits_int hw) .nil)))))))))
  refine ⟨header, _, ?_, hsize, ?_, rfl⟩
  · rw [FmpCapsuleImageHeader.encode, hpack]
    rfl
  · have hlong : ¬(header ++ payload ++ vendor).length < structSize := by
      rw [List.length_append, List.length_append, hsize]
      exact not_lt.mpr (Nat.le_add_right_of_le (Nat.le_add_right _ _))
    have hrest : (header ++ payload ++ vendor).drop structSize = payload ++ vendor := by
      rw [List.append_assoc, List.drop_left' hsize]
    rw [FmpCapsuleImageHeader.decode, if_neg hlong, hrest, List.append_assoc, hunpack,
      ← List.append_assoc]
    simp only [lt_irrefl, not_lt.mpr hi, List.length_append, ne_eq, not_true_eq_false,
      if_false, Uuid.ofBytesLe_bytesLe]
    rw [slice_between hsize (by rw [hsize]), List.drop_left' (by rw [List.length_append, hsize])]
    rfl

end Image

/-! ### The FMP capsule -/

section Fmp

open FmpCapsuleHeader

/-- Where the only item of a capsule with one payload stands. -/
def itemOffset : ℕ := structSize + itemOffsetSize

/-- The image header that goes with the payload. -/
def imageHeader (g : Uuid) (w : ℕ) (payload : List UInt8) : FmpCapsuleImageHeader where
  updateImageTypeId := g
  updateImageIndex := 1
  updateImageSize := payload.length
  updateHardwareInstance := w
  payload := payload

variable {g : Uuid} {w : ℕ} {header offsets image payload : List UInt8}

lemma fmp_encode {h : FmpCapsuleImageHeader}
    (hpack : structPack structFormat [.int initVersion, .int 0, .int 1] = .ok header)
    (hpack' : structPack itemOffsetFormat [.int itemOffset] = .ok offsets)
    (himage : FmpCapsuleImageHeader.encode
      { updateImageTypeId := g
        updateImageIndex := 1
        updateHardwareInstance := w
        payload := payload } = .ok (image ++ payload, h)) :
    FmpCapsuleHeader.encode (addPayload {}
      { updateImageTypeId := g, payload := payload, hardwareInstance := w }) =
      .ok (header ++ offsets ++ (image ++ payload),
        { payloadItemCount := 1
          itemOffsetList := [itemOffset]
          payloadList := [{ updateImageTypeId := g, payload := payload, hardwareInstance := w }]
          fmpCapsuleImageHeaderList := [h] }) := by
  have hitem : encodePayload
      { fmpCapsuleData := []
        itemOffsetList := []
        fmpCapsuleImageHeaderList := []
        offset := itemOffset
        index := 1 } { updateImageTypeId := g, payload := payload, hardwareInstance := w } =
      .ok
        { fmpCapsuleData := image ++ payload
          itemOffsetList := [itemOffset]
          fmpCapsuleImageHeaderList := [h]
          offset := itemOffset + (image ++ payload).length
          index := 2 } := by
    rw [encodePayload]
    dsimp only
    rw [himage]
    rfl
  have hoffset : encodeOffset header itemOffset = .ok (header ++ offsets) := by
    rw [encodeOffset, hpack']
    rfl
  have hstart : structSize + (0 + 1) * itemOffsetSize = itemOffset := rfl
  rw [FmpCapsuleHeader.encode]
  dsimp only [addPayload, List.nil_append, List.length_nil, List.length_singleton, List.foldl_nil]
  rw [hpack]
  simp only [List.foldlM_cons, List.foldlM_nil, bind_pure]
  change (encodePayload _ _ >>= _) = _
  rw [hstart, hitem, ok_bind]
  dsimp only
  rw [List.foldlM_cons, hoffset]
  rfl

lemma decodeOffsets_single (hsize : header.length = structSize)
    (hsize' : offsets.length = itemOffsetSize)
    (hunpack : structUnpack itemOffsetFormat offsets = .ok [.int itemOffset])
    {rest : List UInt8} (hrest : rest ≠ []) :
    decodeOffsets (header ++ offsets ++ rest) 1 structSize [] =
      .ok ([itemOffset], itemOffset) := by
  have hlen : ¬(header ++ offsets ++ rest).length ≤ itemOffset := by
    rw [List.length_append, List.length_append, hsize, hsize', ← itemOffset]
    have := List.length_pos_of_ne_nil hrest
    omega
  rw [decodeOffsets, slice_between hsize (by rw [hsize, hsize']), hunpack]
  dsimp only
  rw [if_neg hlen]
  rfl

/-- The offset leads to the image header, which goes into the lists with its payload. -/
lemma fmp_decode {h : FmpCapsuleImageHeader} (hsize : header.length = structSize)
    (hsize' : offsets.length = itemOffsetSize) (hne : image ≠ [])
    (hunpack : ∀ rest, structUnpack structFormat (slice (header ++ rest) 0 structSize) =
      .ok [.int initVersion, .int 0, .int 1])
    (hunpack' : structUnpack itemOffsetFormat offsets = .ok [.int itemOffset])
    {r : List UInt8} (himage : FmpCapsuleImageHeader.decode (image ++ payload) = .ok (r, h)) :
    FmpCapsuleHeader.decode (header ++ offsets ++ (image ++ payload)) = .ok (image ++ payload,
      { payloadItemCount := 1
        itemOffsetList := [itemOffset]
        payloadList := [{ updateImageTypeId := h.updateImageTypeId
                          payload := h.payload
                          vendorCodeBytes := h.vendorCodeBytes }]
        fmpCapsuleImageHeaderList := [h] }) := by
  have hfront : (header ++ offsets).length = itemOffset := by
    rw [List.length_append, hsize, hsize', itemOffset]
  have hlong : ¬(header ++ offsets ++ (image ++ payload)).length < structSize := by
    rw [List.append_assoc, List.length_append, hsize]
    exact not_lt.mpr (Nat.le_add_right _ _)
  have hitem : item (header ++ offsets ++ (image ++ payload)) [itemOffset] 0 =
      image ++ payload := by
    rw [item, if_neg (by simp), slice, List.take_length]
    exact List.drop_left' hfront
  have hadd : decodePayload (header ++ offsets ++ (image ++ payload))
      { payloadItemCount := 1, itemOffsetList := [itemOffset] } 0 =
      .ok
        { payloadItemCount := 1
          itemOffsetList := [itemOffset]
          payloadList := [{ updateImageTypeId := h.updateImageTypeId
                            payload := h.payload
                            vendorCodeBytes := h.vendorCodeBytes }]
          fmpCapsuleImageHeaderList := [h] } := by
    rw [decodePayload, hitem, himage]
    rfl
  rw [FmpCapsuleHeader.decode, if_neg hlong, List.append_assoc, hunpack, ← List.append_assoc]
  dsimp only
  rw [if_neg (lt_irrefl _), Nat.zero_add,
    decodeOffsets_single hsize hsize' hunpack' (List.append_ne_nil_of_left_ne_nil hne _), ok_bind]
  dsimp only [List.range_zero, List.foldl_nil]
  rw [List.range'_one, List.foldlM_cons, hadd, List.drop_left' hfront]
  rfl

end Fmp

/-! ### The UEFI capsule -/

section Uefi

open UefiCapsuleHeader

/-- The flags of a capsule that does not populate the system table. -/
def flagsOf (oem : ℕ) (persist reset : Bool) : ℕ :=
  orFlag (orFlag oem capsuleFlagsPersistAcrossReset persist) capsuleFlagsInitiateReset reset

lemma orFlag_and_disjoint {f flag mask : ℕ} (b : Bool) (h : flag &&& mask = 0) :
    orFlag f flag b &&& mask = f &&& mask := by
  cases b with
  | false => rfl
  | true => rw [orFlag, if_pos rfl, Nat.and_or_distrib_right, h, Nat.or_zero]

lemma orFlag_and_self {f flag : ℕ} (b : Bool) (h : f &&& flag = 0) (hne : flag ≠ 0) :
    (orFlag f flag b &&& flag != 0) = b := by
  cases b with
  | false => simp [orFlag, h]
  | true => simp [orFlag, Nat.and_or_distrib_right, h, hne]

lemma orFlag_lt {f flag n : ℕ} (b : Bool) (hf : f < 2 ^ n) (hflag : flag < 2 ^ n) :
    orFlag f flag b < 2 ^ n := by
  rw [orFlag]
  split_ifs
  · exact Nat.or_lt_two_pow hf hflag
  · exact hf

lemma oem_and_flag {oem i : ℕ} (h : oem < 2 ^ 16) (hi : 16 ≤ i) : oem &&& 2 ^ i = 0 := by
  rw [Nat.and_two_pow, Nat.testBit_lt_two_pow (h.trans_le (Nat.pow_le_pow_right (by omega) hi))]
  exact Nat.zero_mul _

lemma flagsOf_fields {oem : ℕ} (persist reset : Bool) (h : oem < 2 ^ 16) :
    flagsOf oem persist reset &&& 0xffff = oem ∧
    (flagsOf oem persist reset &&& capsuleFlagsPersistAcrossReset != 0) = persist ∧
    (flagsOf oem persist reset &&& capsuleFlagsPopulateSystemTable != 0) = false ∧
    (flagsOf oem persist reset &&& capsuleFlagsInitiateReset != 0) = reset := by
  have hoem (i : ℕ) (hi : 16 ≤ i) := oem_and_flag h hi
  unfold flagsOf
  refine ⟨?_, ?_, ?_, ?_⟩
  · rw [orFlag_and_disjoint _ (by decide), orFlag_and_disjoint _ (by decide)]
    exact (Nat.and_two_pow_sub_one_eq_mod oem 16).trans (Nat.mod_eq_of_lt h)
  · rw [orFlag_and_disjoint _ (by decide)]
    exact orFlag_and_self _ (hoem 16 (by omega)) (by decide)
  · rw [orFlag_and_disjoint _ (by decide), orFlag_and_disjoint _ (by decide)]
    exact bne_eq_false_iff_eq.mpr (hoem 17 (by omega))
  · refine orFlag_and_self _ ?_ (by decide)
    rw [orFlag_and_disjoint _ (by decide)]
    exact hoem 18 (by omega)

lemma uefi_decode_encode {oem : ℕ} (persist reset : Bool) (payload : List UInt8)
    (hoem : oem < 2 ^ 16) (hlen : UefiCapsuleHeader.structSize + payload.length < 2 ^ 32) :
    ∃ header h, UefiCapsuleHeader.encode
        { oemFlags := oem
          persistAcrossReset := persist
          populateSystemTable := false
          initiateReset := reset
          payload := payload } = .ok (header ++ payload, h) ∧
      header.length = UefiCapsuleHeader.structSize ∧
      UefiCapsuleHeader.decode (header ++ payload) = .ok (payload, h) ∧
      h =
        { oemFlags := oem
          persistAcrossReset := persist
          initiateReset := reset
          capsuleImageSize := UefiCapsuleHeader.structSize + payload.length
          payload := payload } := by
  obtain ⟨hmask, hpersist, hpopulate, hreset⟩ := flagsOf_fields persist reset hoem
  have hflags : flagsOf oem persist reset < 2 ^ 32 :=
    orFlag_lt _ (orFlag_lt _ (hoem.trans (by decide)) (by decide)) (by decide)
  obtain ⟨header, hpack, hsize, -, hunpack⟩ := struct_pack_unpack structFormat
    [.bytes efiFirmwareManagementCapsuleIdGuid.bytesLe, .int structSize,
      .int (flagsOf oem persist reset), .int (structSize + payload.length), .int 0] structSize rfl
    (.cons (fits_guid _) (.cons (fits_int (by decide)) (.cons (fits_int hflags)
      (.cons (fits_int hlen) (.cons (fits_int (by decide)) .nil)))))
  have hwhole : (header ++ payload).length = structSize + payload.length := by
    rw [List.length_append, hsize]
  refine ⟨header, _, ?_, hsize, ?_, rfl⟩
  · rw [UefiCapsuleHeader.encode]
    change (structPack structFormat [_, _, .int (flagsOf oem persist reset), _, _] >>= _) = _
    rw [hpack]
    rfl
  · rw [UefiCapsuleHeader.decode, if_neg (by omega), hunpack]
    dsimp only
    rw [if_neg (lt_irrefl _), hwhole, if_neg (not_not.mpr rfl), Uuid.ofBytesLe_bytesLe, ok_bind,
      List.drop_left' hsize, hmask, hpersist, hpopulate, hreset]

end Uefi

/-! ### The capsule -/

lemma verify_ok {args : EncodeArgs} {guid : Uuid} (h : args.verify = .ok guid) :
    args.capsuleOemFlag < 2 ^ 16 ∧ args.hardwareInstance < 2 ^ 64 ∧
      args.monotonicCount < 2 ^ 64 := by
  unfold EncodeArgs.verify at h
  split at h
  · cases h
  · split_ifs at h
    cases h
    omega

/-- The headers tell what the capsule was made of. -/
structure Contents (args : EncodeArgs) (guid : Uuid) (certData payload : List UInt8)
    (uefi : UefiCapsuleHeader) (image : FmpCapsuleImageHeader) (auth : FmpAuthHeader) : Prop where
  payload : auth.payload = payload
  certData : auth.certData = certData
  monotonicCount : auth.monotonicCount = args.monotonicCount
  guid : image.updateImageTypeId = guid
  hardwareInstance : image.updateHardwareInstance = args.hardwareInstance
  oemFlags : uefi.oemFlags = args.capsuleOemFlag
  persistAcrossReset : uefi.persistAcrossReset = true ↔
    CapsuleFlag.persistAcrossReset ∈ args.capsuleFlag
  populateSystemTable : uefi.populateSystemTable = false
  initiateReset : uefi.initiateReset = true ↔ CapsuleFlag.initiateReset ∈ args.capsuleFlag

/-- The parts of a capsule in their order: three headers with the table of offsets behind the
second, the header of the signed image, the signature and the payload. -/
structure Parts where
  uefiHeader : List UInt8
  fmpHeader : List UInt8
  itemOffsets : List UInt8
  imageHeader : List UInt8
  authHeader : List UInt8
  certData : List UInt8
  payload : List UInt8

/-- The image that the authentication header signs. -/
def Parts.signed (p : Parts) : List UInt8 := p.authHeader ++ p.certData ++ p.payload

def Parts.fmpCapsule (p : Parts) : List UInt8 :=
  p.fmpHeader ++ p.itemOffsets ++ (p.imageHeader ++ p.signed)

def Parts.capsule (p : Parts) : List UInt8 := p.uefiHeader ++ p.fmpCapsule

/-- Each size in the headers is that of the bytes it is about, each offset the place of them. -/
structure Measured (p : Parts) (uefi : UefiCapsuleHeader) (fmp : FmpCapsuleHeader)
    (image : FmpCapsuleImageHeader) (auth : FmpAuthHeader) : Prop where
  uefiHeader : p.uefiHeader.length = UefiCapsuleHeader.structSize
  fmpHeader : p.fmpHeader.length = FmpCapsuleHeader.structSize
  itemOffsets : p.itemOffsets.length = FmpCapsuleHeader.itemOffsetSize * fmp.itemOffsetList.length
  imageHeader : p.imageHeader.length = FmpCapsuleImageHeader.structSize
  authHeader : p.authHeader.length = FmpAuthHeader.structSize
  headerSize : uefi.headerSize = p.uefiHeader.length
  capsuleImageSize : uefi.capsuleImageSize = p.capsule.length
  embeddedDriverCount : fmp.embeddedDriverCount = 0
  payloadItemCount : fmp.payloadItemCount = 1
  itemOffsetList : fmp.itemOffsetList = [(p.fmpHeader ++ p.itemOffsets).length]
  updateImageSize : image.updateImageSize = p.signed.length
  updateVendorCodeSize : image.updateVendorCodeSize = 0
  dwLength : FmpAuthHeader.monotonicCountSize + auth.dwLength =
    (p.authHeader ++ p.certData).length

/-- Arguments with both flags, an OEM flag and a high instance number. -/
def sampleArgs : EncodeArgs where
  capsuleFlag := [.initiateReset, .persistAcrossReset]
  capsuleOemFlag := 0xABCD
  guid := some UefiCapsuleHeader.efiFirmwareManagementCapsuleIdGuid
  hardwareInstance := 2 ^ 63
  monotonicCount := 7
  outputFile := true
  onWindows := true

/-- **A capsule decodes to what it was encoded from**: whenever the arguments are accepted and
the whole capsule is smaller than `2 ^ 32` bytes, encoding succeeds and so does the dump, with the
same contents and with sizes and offsets that are those of the capsule. -/
theorem generateCapsule_roundTrip (args : EncodeArgs) (guid : Uuid) (certData payload : List UInt8)
    (haccepted : args.verify = .ok guid)
    (hsize : UefiCapsuleHeader.structSize + (itemOffset + (FmpCapsuleImageHeader.structSize +
      (FmpAuthHeader.structSize + certData.length + payload.length))) < 2 ^ 32) :
    ∃ (p : Parts) (uefi : UefiCapsuleHeader) (fmp : FmpCapsuleHeader)
      (image : FmpCapsuleImageHeader) (auth : FmpAuthHeader),
      p.certData = certData ∧ p.payload = payload ∧
      encodeCapsule args certData payload = .ok p.capsule ∧
      dumpInfo p.capsule = .ok ⟨uefi, fmp, some auth, payload⟩ ∧
      fmp.getFmpCapsuleImageHeader 0 = .ok image ∧
      Contents args guid certData payload uefi image auth ∧ Measured p uefi fmp image auth := by
  obtain ⟨hoem, hw, hm⟩ := verify_ok haccepted
  have hauthLen : FmpAuthHeader.structAuthInfoSize + certData.length < 2 ^ 32 := by
    have : FmpAuthHeader.structAuthInfoSize ≤ FmpAuthHeader.structSize := by decide
    omega
  obtain ⟨authHeader, auth, hauthEncode, hauthSize, hauthDecode, hauth⟩ :=
    auth_decode_encode certData payload hm hauthLen
  have hsigned : (authHeader ++ certData ++ payload).length =
      FmpAuthHeader.structSize + certData.length + payload.length := by
    rw [List.length_append, List.length_append, hauthSize]
  obtain ⟨imageHeader, image, himageEncode, himageSize, himageDecode, himage⟩ :=
    image_decode_encode guid (authHeader ++ certData ++ payload) [] le_rfl (by decide) hw
      (by omega) (by decide)
  rw [List.append_nil] at himageEncode himageDecode
  obtain ⟨fmpHeader, hpack, hfmpSize, -, hunpack⟩ := struct_pack_unpack
    FmpCapsuleHeader.structFormat [.int FmpCapsuleHeader.initVersion, .int 0, .int 1]
    FmpCapsuleHeader.structSize rfl (.cons (fits_int (by decide)) (.cons (fits_int (by decide))
      (.cons (fits_int (by decide)) .nil)))
  obtain ⟨offsets, hpack', hoffsetSize, hunpack', -⟩ := struct_pack_unpack
    FmpCapsuleHeader.itemOffsetFormat [.int itemOffset] FmpCapsuleHeader.itemOffsetSize rfl
    (.cons (fits_int (by decide)) .nil)
  have hfmpEncode := fmp_encode hpack hpack' himageEncode
  obtain ⟨fmp, hfmp, hfmpDecode⟩ : ∃ fmp, fmp = _ ∧ FmpCapsuleHeader.decode _ = .ok (_, fmp) :=
    ⟨_, rfl, fmp_decode hfmpSize hoffsetSize (by rintro rfl; cases himageSize) hunpack hunpack'
      himageDecode⟩
  set capsule := fmpHeader ++ offsets ++ (imageHeader ++ (authHeader ++ certData ++ payload))
    with hcapsule
  have hfront : (fmpHeader ++ offsets).length = itemOffset := by
    rw [List.length_append, hfmpSize, hoffsetSize, itemOffset]
  have hcapsuleLen : capsule.length = itemOffset + (FmpCapsuleImageHeader.structSize +
      (FmpAuthHeader.structSize + certData.length + payload.length)) := by
    rw [hcapsule, List.length_append, hfront, List.length_append, himageSize, hsigned]
  obtain ⟨uefiHeader, uefi, huefiEncode, huefiSize, huefiDecode, huefi⟩ := uefi_decode_encode
    (decide (CapsuleFlag.persistAcrossReset ∈ args.capsuleFlag))
    (decide (CapsuleFlag.initiateReset ∈ args.capsuleFlag)) capsule hoem (by omega)
  have hget : fmp.getFmpCapsuleImageHeader 0 = .ok image := by
    rw [hfmp]
    rfl
  refine ⟨⟨uefiHeader, fmpHeader, offsets, imageHeader, authHeader, certData, payload⟩, uefi, fmp,
    image, auth, rfl, rfl, ?_, ?_, hget, ?_, ?_⟩
  · rw [encodeCapsule, haccepted]
    change ((FmpAuthHeader.encode _).mapError _ >>= _) = _
    rw [hauthEncode]
    change ((FmpCapsuleHeader.encode _).mapError _ >>= _) = _
    rw [hfmpEncode]
    change ((UefiCapsuleHeader.encode _).mapError _ >>= _) = _
    rw [huefiEncode]
    rfl
  · have hsignedPayload : image.payload = authHeader ++ certData ++ payload := by
      rw [himage]
    have hdump : decodeHeaders (uefiHeader ++ capsule) = .ok ⟨uefi, fmp, some auth, payload⟩ := by
      rw [decodeHeaders, huefiDecode, ok_bind]
      dsimp only
      rw [hfmpDecode, ok_bind]
      dsimp only
      rw [hget, ok_bind, dumpAuthHeader, hsignedPayload, hauthDecode]
    rw [dumpInfo]
    exact congrArg (Except.mapError _) hdump
  · subst hauth himage huefi
    exact ⟨rfl, rfl, rfl, rfl, rfl, rfl, decide_eq_true_iff, rfl, decide_eq_true_iff⟩
  · subst hauth himage huefi hfmp
    refine ⟨huefiSize, hfmpSize, hoffsetSize.trans (Nat.mul_one _).symm, himageSize, hauthSize,
      huefiSize.symm, ?_, rfl, rfl, congrArg (fun n => [n]) hfront.symm, rfl, rfl, ?_⟩
    · have hwhole : (uefiHeader ++ capsule).length =
          UefiCapsuleHeader.structSize + capsule.length := by
        rw [List.length_append, huefiSize]
      exact hwhole.symm
    · rw [List.length_append, hauthSize, ← Nat.add_assoc]
      rfl

/-- A payload of five bytes with its signature. -/
theorem generateCapsule_roundTrip_sample :
    ∃ (p : Parts) (uefi : UefiCapsuleHeader) (fmp : FmpCapsuleHeader)
      (image : FmpCapsuleImageHeader) (auth : FmpAuthHeader),
      p.certData = [0xAA, 0xBB] ∧ p.payload = [1, 2, 3, 4, 5] ∧
      encodeCapsule sampleArgs [0xAA, 0xBB] [1, 2, 3, 4, 5] = .ok p.capsule ∧
      dumpInfo p.capsule = .ok ⟨uefi, fmp, some auth, [1, 2, 3, 4, 5]⟩ ∧
      fmp.getFmpCapsuleImageHeader 0 = .ok image ∧
      Contents sampleArgs UefiCapsuleHeader.efiFirmwareManagementCapsuleIdGuid [0xAA, 0xBB]
        [1, 2, 3, 4, 5] uefi image auth ∧ Measured p uefi fmp image auth :=
  generateCapsule_roundTrip _ _ _ _ rfl (by decide)

end UefiToolkit.CapsuleRoundTrip
