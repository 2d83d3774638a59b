import UefiToolkit.AbModel
import UefiToolkit.Crc

/-!
The A/B metadata on the disk: which 32 bytes are taken for a record, and which damage to a record
is seen.

The table belongs to a shift register, so a record that is damaged in one place of up to four
bytes is not taken for another one.
-/

namespace UefiToolkit.AbCodec

open UefiToolkit.Bytes UefiToolkit.StructPack UefiToolkit.AbModel

/-! ### The checksum -/

/-- The polynomial that the table is made of. -/
def crc32Poly : BitVec 32 := 0xEDB88320

lemma crc32Tab_eq : ∀ i : Fin 256,
    (crc32Tab.getD i 0).toBitVec = (Crc.shift crc32Poly)^[8] (BitVec.ofNat 32 i) := by
  decide +kernel

lemma crc32Step_eq (c : UInt32) (b : UInt8) :
    (crc32Step c b).toBitVec = Crc.byteStep crc32Poly c.toBitVec b := by
  rw [Crc.byteStep_table _ (by decide), crc32Step, UInt32.toBitVec_xor, UInt32.toBitVec_shiftRight]
  set i := (c ^^^ b.toUInt32) &&& 0xFF with hi
  have hlt : i.toNat < 256 := by
    rw [hi, UInt32.toNat_and]
    exact lt_of_le_of_lt Nat.and_le_right (by decide)
  have hbits : BitVec.ofNat 32 i.toNat =
      (c.toBitVec ^^^ b.toBitVec.setWidth 32) &&& BitVec.ofNat 32 255 := by
    rw [show BitVec.ofNat 32 i.toNat = i.toBitVec from BitVec.ofNat_toNat 32 i.toBitVec |>.trans
      (BitVec.setWidth_eq _), hi]
    rfl
  rw [crc32Tab_eq ⟨i.toNat, hlt⟩, hbits]
  rfl

lemma crc32_fold_eq (c : UInt32) (l : List UInt8) :
    (l.foldl crc32Step c).toBitVec = Crc.register crc32Poly c.toBitVec l := by
  induction l generalizing c with
  | nil => rfl
  | cons b l ih => rw [List.foldl_cons, ih, crc32Step_eq, Crc.register_cons]

/-- The checksum, without the table. -/
lemma avbCrc32_eq (l : List UInt8) :
    (avbCrc32 l).toBitVec = ~~~ Crc.register crc32Poly (BitVec.allOnes 32) l := by
  have hxor : ∀ v : UInt32, v ^^^ ~~~0 = ~~~v := fun v => by simp
  rw [avbCrc32, hxor, UInt32.toBitVec_not, crc32_fold_eq]
  rfl

lemma avbCrc32_burst {pre post x y : List UInt8} (hlen : x.length = y.length) (h4 : x.length ≤ 4)
    (h : avbCrc32 (pre ++ x ++ post) = avbCrc32 (pre ++ y ++ post)) : x = y := by
  have hreg := congrArg UInt32.toBitVec h
  rw [avbCrc32_eq, avbCrc32_eq, BitVec.not_inj] at hreg
  exact Crc.register_burst (by decide) _ hlen (by omega) hreg

lemma swap32_swap32 (v : UInt32) : swap32 (swap32 v) = v := by
  apply UInt32.toBitVec_inj.mp
  refine BitVec.eq_of_getLsbD_eq fun i hi => ?_
  simp only [swap32, UInt32.toBitVec_or, UInt32.toBitVec_and, UInt32.toBitVec_shiftLeft,
    UInt32.toBitVec_shiftRight]
  interval_cases i <;> simp

lemma swap32_inj {v v' : UInt32} (h : swap32 v = swap32 v') : v = v' := by
  rw [← swap32_swap32 v, h, swap32_swap32]

/-! ### The record in memory -/

@[simp] lemma body_length (d : AvbABData) : d.body.length = 28 := by
  simp [AvbABData.body, AvbABSlotData.bytes]

@[simp] lemma bytes_length (d : AvbABData) : d.bytes.length = 32 := by
  simp [AvbABData.bytes, le32]

/-- A value is read back from its four bytes. -/
lemma ofNat_word32_le32 {m : ℕ → UInt8} {a : ℕ} {v : UInt32}
    (h : ∀ i < 4, m (a + i) = (le32 v.toNat).getD i 0) : UInt32.ofNat (word32 m a) = v := by
  have hv := v.toNat_lt
  have hword : word32 m a = v.toNat := by
    have h0 := h 0 (by omega)
    rw [Nat.add_zero] at h0
    rw [word32, h0, h 1 (by omega), h 2 (by omega), h 3 (by omega)]
    simp only [le32, List.getD_cons_zero, List.getD_cons_succ, UInt8.toNat_ofNat']
    omega
  rw [hword, UInt32.ofNat_toNat]

lemma ofBytes_bytes (d : AvbABData) : ofBytes d.bytes = d := by
  obtain ⟨magic, major, minor, reserved1, slots, reserved2, crc⟩ := d
  simp only [ofBytes, AvbABData.bytes, AvbABData.body, AvbABSlotData.bytes, List.ofFn, Fin.foldr,
    AvbABData.mk.injEq]
  refine ⟨?_, rfl, rfl, ?_, ?_, ?_, ?_⟩
  · funext i; fin_cases i <;> rfl
  · funext i; fin_cases i <;> rfl
  · funext i; fin_cases i <;> rfl
  · funext i; fin_cases i <;> rfl
  · refine ofNat_word32_le32 fun i hi => ?_
    interval_cases i <;> rfl

/-- The bytes of the value at an address. -/
lemma le32_word32 (m : ℕ → UInt8) (a : ℕ) :
    le32 (word32 m a) = [m a, m (a + 1), m (a + 2), m (a + 3)] := by
  have h0 := (m a).toNat_lt
  have h1 := (m (a + 1)).toNat_lt
  have h2 := (m (a + 2)).toNat_lt
  have h3 := (m (a + 3)).toNat_lt
  simp only [le32, word32, List.cons.injEq, and_true]
  refine ⟨?_, ?_, ?_, ?_⟩ <;>
    (apply UInt8.toNat_inj.mp; rw [UInt8.toNat_ofNat']; omega)

lemma bytes_ofBytes {b : List UInt8} (h : b.length = 32) : (ofBytes b).bytes = b := by
  have hcrc : (ofBytes b).crc32.toNat = word32 (fun i => b.getD i 0) 28 :=
    Nat.mod_eq_of_lt (word32_lt _ _)
  rw [AvbABData.bytes, hcrc, le32_word32]
  refine List.ext_getElem (by simp [h]) fun i hi hi' => ?_
  rw [h] at hi'
  simp only [AvbABData.body, AvbABSlotData.bytes, ofBytes, slotAt, List.ofFn, Fin.foldr]
  interval_cases i <;> exact List.getD_eq_getElem _ _ (by omega)

/-- The checksum is not part of the body. -/
@[simp] lemma body_crc32 (d : AvbABData) (c : UInt32) :
    ({ d with crc32 := c } : AvbABData).body = d.body := rfl

/-! ### What is taken for a record -/

/-- A record as a read gives it. -/
structure Valid (d : AvbABData) : Prop where
  magic : d.magic = AVB_AB_MAGIC
  version : d.versionMajor ≤ AVB_AB_MAJOR_VERSION
  crc32 : d.crc32 = avbCrc32 d.body

lemma verify_eq (src : AvbABData) :
    avbAbDataVerifyAndByteswap src =
      if src.magic = AVB_AB_MAGIC ∧ src.versionMajor ≤ AVB_AB_MAJOR_VERSION ∧
          swap32 src.crc32 = avbCrc32 src.body then
        some { src with crc32 := swap32 src.crc32 }
      else none := by
  unfold avbAbDataVerifyAndByteswap
  by_cases hmagic : src.magic = AVB_AB_MAGIC
  · refine (if_neg (not_not.mpr hmagic)).trans ?_
    by_cases hversion : AVB_AB_MAJOR_VERSION < src.versionMajor
    · exact (if_pos hversion).trans (if_neg fun h => UInt8.not_le.mpr hversion h.2.1).symm
    · refine (if_neg hversion).trans ?_
      by_cases hcrc : swap32 src.crc32 = avbCrc32 src.body
      · exact (if_neg (not_not.mpr hcrc)).trans
          (if_pos ⟨hmagic, UInt8.not_lt.mp hversion, hcrc⟩).symm
      · exact (if_pos hcrc).trans (if_neg fun h => hcrc h.2.2).symm
  · exact (if_pos hmagic).trans (if_neg fun h => hmagic h.1).symm

lemma verify_eq_some_iff {src d : AvbABData} :
    avbAbDataVerifyAndByteswap src = some d ↔
      Valid d ∧ src = { d with crc32 := swap32 d.crc32 } := by
  rw [verify_eq]
  constructor
  · intro h
    obtain ⟨⟨hmagic, hversion, hcrc⟩, rfl⟩ := Option.ite_some_none_eq_some.mp h
    exact ⟨⟨hmagic, hversion, hcrc⟩, by simp only [swap32_swap32]⟩
  · rintro ⟨⟨hmagic, hversion, hcrc⟩, rfl⟩
    simp only [swap32_swap32]
    exact if_pos ⟨hmagic, hversion, hcrc⟩

/-- A record with its checksum. -/
def sealed (d : AvbABData) : AvbABData := { d with crc32 := avbCrc32 d.body }

lemma valid_sealed {d : AvbABData} (hmagic : d.magic = AVB_AB_MAGIC)
    (hversion : d.versionMajor ≤ AVB_AB_MAJOR_VERSION) : Valid (sealed d) :=
  ⟨hmagic, hversion, rfl⟩

lemma update_sealed (d : AvbABData) :
    avbAbDataUpdateCrcAndByteswap (sealed d) = avbAbDataUpdateCrcAndByteswap d := rfl

lemma Valid.update_eq {d : AvbABData} (h : Valid d) :
    avbAbDataUpdateCrcAndByteswap d = { d with crc32 := swap32 d.crc32 } := by
  rw [avbAbDataUpdateCrcAndByteswap, h.crc32]

/-- What was written is read, with its checksum. -/
lemma verify_update {d : AvbABData} (hmagic : d.magic = AVB_AB_MAGIC)
    (hversion : d.versionMajor ≤ AVB_AB_MAJOR_VERSION) :
    avbAbDataVerifyAndByteswap (ofBytes (avbAbDataUpdateCrcAndByteswap d).bytes) =
      some (sealed d) := by
  have hvalid := valid_sealed hmagic hversion
  rw [ofBytes_bytes, verify_eq_some_iff, ← hvalid.update_eq]
  exact ⟨hvalid, rfl⟩

/-- **The codec**: 32 bytes are taken for a record exactly if they are what a write makes of a
record with the right magic, a known version and its own checksum, and that record is read. -/
theorem read_iff_written {b : List UInt8} (hb : b.length = 32) (d : AvbABData) :
    avbAbDataVerifyAndByteswap (ofBytes b) = some d ↔
      Valid d ∧ b = (avbAbDataUpdateCrcAndByteswap d).bytes := by
  rw [verify_eq_some_iff]
  refine and_congr_right fun hd => ?_
  rw [hd.update_eq]
  constructor
  · intro h
    rw [← h, bytes_ofBytes hb]
  · rintro rfl
    exact ofBytes_bytes _

theorem read_iff_written_init :
    avbAbDataVerifyAndByteswap (ofBytes (avbAbDataUpdateCrcAndByteswap avbAbDataInit).bytes) =
      some (sealed avbAbDataInit) :=
  (read_iff_written (bytes_length _) _).mpr
    ⟨valid_sealed rfl (by decide), congrArg _ (update_sealed _).symm⟩

/-! ### Damage -/

/-- The checksum of a body, as it is stored. -/
def trailer (body : List UInt8) : List UInt8 := le32 (swap32 (avbCrc32 body)).toNat

lemma trailer_inj {l l' : List UInt8} (h : trailer l = trailer l') : avbCrc32 l = avbCrc32 l' := by
  have hword : ∀ v : UInt32, UInt32.ofNat (word32 (fun i => (le32 v.toNat).getD i 0) 0) = v :=
    fun v => ofNat_word32_le32 fun i _ => by rw [Nat.zero_add]
  apply swap32_inj
  rw [← hword (swap32 (avbCrc32 l)), ← hword (swap32 (avbCrc32 l'))]
  exact congrArg (fun b : List UInt8 => UInt32.ofNat (word32 (fun i => b.getD i 0) 0)) h

/-- A buffer that is taken for a record is a body and its checksum. -/
lemma eq_body_trailer {b : List UInt8} {d : AvbABData} (hb : b.length = 32)
    (h : avbAbDataVerifyAndByteswap (ofBytes b) = some d) : b = d.body ++ trailer d.body := by
  obtain ⟨hd, hsrc⟩ := verify_eq_some_iff.mp h
  rw [← bytes_ofBytes hb, hsrc, AvbABData.bytes, body_crc32, hd.crc32, trailer]

/-- Two buffers that are taken for records and differ in one place of up to four bytes only,
before the checksum or in it, are one buffer. -/
lemma eq_of_read {pre x y post : List UInt8} {d d' : AvbABData} (hlen : x.length = y.length)
    (h4 : x.length ≤ 4) (hsize : pre.length + x.length + post.length = 32)
    (hplace : pre.length + x.length ≤ 28 ∨ 28 ≤ pre.length)
    (hx : avbAbDataVerifyAndByteswap (ofBytes (pre ++ x ++ post)) = some d)
    (hy : avbAbDataVerifyAndByteswap (ofBytes (pre ++ y ++ post)) = some d') : x = y := by
  have hbx := eq_body_trailer (by simp only [List.length_append]; omega) hx
  have hby := eq_body_trailer (by simp only [List.length_append]; omega) hy
  rcases hplace with hplace | hplace
  · -- the stored checksum is the same, so the bodies have one checksum
    obtain ⟨mid, sum, hpost, hmid⟩ : ∃ mid sum, mid ++ sum = post ∧
        pre.length + x.length + mid.length = 28 :=
      ⟨_, _, List.take_append_drop (28 - (pre.length + x.length)) post,
        by rw [List.length_take]; omega⟩
    rw [← hpost, ← List.append_assoc] at hbx hby
    obtain ⟨hbody, hsum⟩ := List.append_inj hbx (by
      simp only [List.length_append, body_length]; omega)
    obtain ⟨hbody', hsum'⟩ := List.append_inj hby (by
      simp only [List.length_append, body_length]; omega)
    have hcrc := trailer_inj (hsum.symm.trans hsum')
    rw [← hbody, ← hbody'] at hcrc
    exact avbCrc32_burst hlen h4 hcrc
  · -- the bodies are the same, so the stored checksums are
    have htake : ∀ z : List UInt8, (pre ++ z ++ post).take 28 = pre.take 28 := fun z => by
      rw [List.append_assoc, List.take_append_of_le_length hplace]
    have hbody : d.body = d'.body := by
      have h := htake x
      have h' := htake y
      rw [hbx, List.take_left' (body_length d)] at h
      rw [hby, List.take_left' (body_length d')] at h'
      rw [h, h']
    rw [← hbody, ← hbx, List.append_assoc, List.append_assoc, List.append_cancel_left_eq] at hby
    exact (List.append_inj hby hlen.symm).1.symm

/-- **Damage is seen**: a record that is changed in one place of up to four bytes, before the
checksum or in it, is not taken for a record any more. -/
theorem damage_seen {pre x y post : List UInt8} {d : AvbABData} (hlen : x.length = y.length)
    (h4 : x.length ≤ 4) (hsize : pre.length + x.length + post.length = 32)
    (hplace : pre.length + x.length ≤ 28 ∨ 28 ≤ pre.length)
    (hx : avbAbDataVerifyAndByteswap (ofBytes (pre ++ x ++ post)) = some d) (hne : x ≠ y) :
    avbAbDataVerifyAndByteswap (ofBytes (pre ++ y ++ post)) = none := by
  rcases hy : avbAbDataVerifyAndByteswap (ofBytes (pre ++ y ++ post)) with _ | d'
  · rfl
  · exact absurd (eq_of_read hlen h4 hsize hplace hx hy) hne

/-- The priority of the first slot of a new record, overwritten. -/
theorem damage_seen_priority :
    avbAbDataVerifyAndByteswap (ofBytes
      ((avbAbDataUpdateCrcAndByteswap avbAbDataInit).bytes.take 8 ++ [0] ++
        (avbAbDataUpdateCrcAndByteswap avbAbDataInit).bytes.drop 9)) = none :=
  damage_seen (x := [AVB_AB_MAX_PRIORITY]) rfl (by simp) (by simp) (Or.inl (by simp))
    (verify_update (d := avbAbDataInit) rfl (by decide)) (by decide)

end UefiToolkit.AbCodec
