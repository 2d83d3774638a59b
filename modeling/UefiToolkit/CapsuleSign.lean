import UefiToolkit.CapsuleRoundTrip
import UefiToolkit.Numeral

/-!
What `SignPayloadByRsa2048Sha256` hands to openssl, against what is stored in the capsule.
-/

namespace UefiToolkit.CapsuleSign

open UefiToolkit.Numeral UefiToolkit.StructPack UefiToolkit.CapsuleModel
  UefiToolkit.CapsuleRoundTrip

/-! ### The monotonic count -/

/-- `str` of a number. -/
def str (n : ℕ) : List Char := Nat.toDigits 10 n

/-- `long`, on a text of digits. -/
def long (digit : ℕ → Option ℕ) (base : ℕ) (s : List Char) : Option ℕ :=
  if s = [] then none else (s.mapM fun c => digit c.toNat).map (value base)

/-- Nothing is assigned when the text is no number. -/
def monotonicCountValue (s : List Char) : Option ℕ :=
  if ['0', 'X'].isPrefixOf (s.map Char.toUpper) then long hexDigit 16 (s.drop 2)
  else long decimalDigit 10 s

lemma decimalDigit_digitChar {d : ℕ} (h : d < 10) : decimalDigit d.digitChar.toNat = some d := by
  interval_cases d <;> decide

lemma mapM_str (n : ℕ) :
    ∃ ds, (str n).mapM (fun c => decimalDigit c.toNat) = some ds ∧ value 10 ds = n := by
  induction n using Nat.strongRecOn with
  | ind n ih =>
    unfold str at ih ⊢
    rw [Nat.toDigits_eq_if (by norm_num)]
    split_ifs with hlt
    · exact ⟨[n], by simp [decimalDigit_digitChar hlt], by simp [value]⟩
    · obtain ⟨ds, hds, hvalue⟩ := ih (n / 10) (by omega)
      refine ⟨ds ++ [n % 10], ?_, ?_⟩
      · rw [List.mapM_append, hds]
        simp [decimalDigit_digitChar (Nat.mod_lt n (by norm_num))]
      · rw [value_snoc, hvalue]
        omega

/-- A digit has no case. -/
lemma digit_toUpper {c : Char} (h : c.isDigit = true) : c.toUpper = c := by
  have hle : c.val ≤ 57 := by
    simp only [Char.isDigit, Bool.and_eq_true, decide_eq_true_eq] at h
    exact h.2
  unfold Char.toUpper
  rw [dif_neg]
  intro hlower
  have h97 := hlower.1
  rw [UInt32.le_iff_toNat_le] at hle h97
  simp at hle h97
  omega

lemma str_no_prefix (n : ℕ) : ['0', 'X'].isPrefixOf ((str n).map Char.toUpper) = false := by
  have hdigit : ∀ c ∈ str n, c.isDigit = true := fun c hc =>
    Nat.isDigit_of_mem_toDigits (by norm_num) (by norm_num) hc
  rw [Bool.eq_false_iff]
  intro hprefix
  have hmem : 'X' ∈ (str n).map Char.toUpper :=
    (List.isPrefixOf_iff_prefix.mp hprefix).subset (by simp)
  obtain ⟨c, hc, hupper⟩ := List.mem_map.mp hmem
  have hd := hdigit c hc
  rw [digit_toUpper hd] at hupper
  rw [hupper] at hd
  exact absurd hd (by decide)

/-- The count is read back from its text. -/
lemma monotonicCountValue_str (n : ℕ) : monotonicCountValue (str n) = some n := by
  obtain ⟨ds, hds, hvalue⟩ := mapM_str n
  rw [monotonicCountValue, str_no_prefix, if_neg Bool.false_ne_true, long,
    if_neg (show str n ≠ [] from Nat.toDigits_ne_nil), hds, Option.map_some, hvalue]

/-! ### The signature -/

/-- A key of openssl: what `rsa -modulus` tells of it, and `dgst -sha256 -sign`. -/
structure OpenSsl where
  publicKey : List UInt8
  sign : List UInt8 → List UInt8

/-- `51aa59de-fdf2-4ea3-bc63-875fb7842ee9`. -/
def efiHashAlgorithmSha256Guid : Uuid :=
  ⟨[0x51, 0xaa, 0x59, 0xde, 0xfd, 0xf2, 0x4e, 0xa3, 0xbc, 0x63, 0x87, 0x5f, 0xb7, 0x84, 0x2e,
    0xe9], rfl⟩

/-- What openssl is given to sign; `none` is an exception. The format is a native one, with the
integer at a multiple of eight bytes. -/
def fullInputFileBuffer (monotonicCountStr : List Char) (inputFileBuffer : List UInt8) :
    Option (List UInt8) :=
  if monotonicCountStr = [] then some inputFileBuffer
  else
    (monotonicCountValue monotonicCountStr).bind fun value =>
      packNative 0 [.str inputFileBuffer.length, .uint 8] [.bytes inputFileBuffer, .int value]

def signPayloadByRsa2048Sha256 (openSsl : OpenSsl) (monotonicCountStr : List Char)
    (inputFile : List UInt8) : Option (List UInt8) :=
  (fullInputFileBuffer monotonicCountStr inputFile).map fun buffer =>
    efiHashAlgorithmSha256Guid.bytesLe ++ openSsl.publicKey ++ openSsl.sign buffer

section Sign

variable {count : ℕ} {payload certData image : List UInt8} {h : FmpAuthHeader}

lemma fullInputFileBuffer_str (payload : List UInt8) (hcount : count < 2 ^ 64) :
    fullInputFileBuffer (str count) payload =
      some (payload ++ (List.replicate (padding payload.length 8) 0 ++ leBytes 8 count)) := by
  rw [fullInputFileBuffer, if_neg (show str count ≠ [] from Nat.toDigits_ne_nil),
    monotonicCountValue_str, Option.bind_some, packNative_str_uint payload hcount]

/-- A header that is encoded has a length that fits. -/
lemma encode_fits (hok : FmpAuthHeader.encode
    { monotonicCount := count, certData := certData, payload := payload } = .ok (image, h)) :
    FmpAuthHeader.structAuthInfoSize + certData.length < 2 ^ 32 := by
  by_contra hlarge
  have hbad : packField (.uint 4)
      (.int (FmpAuthHeader.structAuthInfoSize + certData.length)) = none := if_neg hlarge
  have hpack : ∀ rest, pack FmpAuthHeader.structFormat (.int count ::
      .int (FmpAuthHeader.structAuthInfoSize + certData.length) :: rest) = none := fun rest => by
    rw [FmpAuthHeader.structFormat, pack, pack, hbad, Option.bind_none]
    cases packField (.uint 8) (.int count) <;> rfl
  rw [FmpAuthHeader.encode, if_neg (not_not.mpr rfl), if_neg (not_not.mpr rfl),
    if_neg (not_not.mpr rfl)] at hok
  dsimp only at hok
  rw [structPack, hpack] at hok
  cases hok

/-- openssl signs the payload with the 64-bit count behind it, which are the payload and the count
that the header decodes to. -/
structure SignedAsStored (openSsl : OpenSsl) (count : ℕ) (payload : List UInt8) : Prop where
  signed : fullInputFileBuffer (str count) payload = some (payload ++ leBytes 8 count)
  verified : ∀ certData image h,
    signPayloadByRsa2048Sha256 openSsl (str count) payload = some certData →
    FmpAuthHeader.encode { monotonicCount := count, certData := certData, payload := payload } =
      .ok (image, h) →
    ∃ result auth, FmpAuthHeader.decode image = .ok (result, auth) ∧
      fullInputFileBuffer (str count) payload =
        some (auth.payload ++ leBytes 8 auth.monotonicCount)

/-- **What is signed is what is stored** exactly when the length of the payload is a multiple of
eight: the count is aligned in what is signed, with zeros in front of it. -/
theorem signPayload_stored_iff (openSsl : OpenSsl) (count : ℕ) (payload : List UInt8)
    (hcount : count < 2 ^ 64) :
    SignedAsStored openSsl count payload ↔ payload.length % 8 = 0 := by
  have hbuffer := fullInputFileBuffer_str payload hcount
  rw [← padding_eq_zero_iff (by norm_num : 0 < 8)]
  constructor
  · rintro ⟨hsigned, -⟩
    rw [hbuffer, Option.some.injEq] at hsigned
    have hlen := congrArg List.length hsigned
    simp only [List.length_append, List.length_replicate, leBytes_length] at hlen
    omega
  · intro hpadding
    rw [hpadding, List.replicate_zero, List.nil_append] at hbuffer
    refine ⟨hbuffer, fun certData image h _ hok => ?_⟩
    obtain ⟨header, h', hencode, -, hdecode, hfields⟩ :=
      auth_decode_encode certData payload hcount (encode_fits hok)
    rw [hencode] at hok
    cases hok
    refine ⟨payload, _, hdecode, ?_⟩
    rw [hfields]
    exact hbuffer

/-! ### Two payloads -/

def sampleOpenSsl : OpenSsl := ⟨List.replicate 256 1, fun _ => List.replicate 256 2⟩

/-- Seven zeros come between a payload of one byte and the count. -/
theorem signPayload_one_byte : ¬ SignedAsStored sampleOpenSsl 5 [0xAA] := by
  intro h
  have hbuffer := fullInputFileBuffer_str [0xAA] (by decide : 5 < 2 ^ 64)
  rw [h.signed, Option.some.injEq] at hbuffer
  exact absurd (congrArg List.length hbuffer) (by decide)

theorem signPayload_eight_bytes : SignedAsStored sampleOpenSsl 5 (List.replicate 8 0xAA) :=
  (signPayload_stored_iff sampleOpenSsl 5 (List.replicate 8 0xAA) (by decide)).mpr (by decide)

end Sign

end UefiToolkit.CapsuleSign
