import Mathlib

/-!
Records of little-endian integers and byte strings, packed one field behind the other without
padding between them.
-/

namespace UefiToolkit.StructPack

/-- An unsigned integer of so many bytes, or a string of so many. -/
inductive Field
  | uint (bytes : ℕ)
  | str (bytes : ℕ)

inductive Value
  | int (n : ℕ)
  | bytes (b : List UInt8)

def Field.size : Field → ℕ
  | .uint k => k
  | .str k => k

def calcsize (fs : List Field) : ℕ := (fs.map Field.size).sum

/-- The little-endian bytes of an integer. -/
def leBytes : ℕ → ℕ → List UInt8
  | 0, _ => []
  | k + 1, n => UInt8.ofNat n :: leBytes k (n / 256)

def leValue : List UInt8 → ℕ
  | [] => 0
  | b :: l => b.toNat + 256 * leValue l

/-- An integer has to fit; a string is cut or padded with zeros. -/
def packField : Field → Value → Option (List UInt8)
  | .uint k, .int n => if n < 256 ^ k then some (leBytes k n) else none
  | .str k, .bytes b => some (b.take k ++ List.replicate (k - b.length) 0)
  | _, _ => none

def unpackField : Field → List UInt8 → Value
  | .uint _, b => .int (leValue b)
  | .str _, b => .bytes b

/-- There are as many values as fields. -/
def pack : List Field → List Value → Option (List UInt8)
  | [], [] => some []
  | f :: fs, v :: vs => (packField f v).bind fun b => (pack fs vs).map fun l => b ++ l
  | _, _ => none

def unpackFields : List Field → List UInt8 → List Value
  | [], _ => []
  | f :: fs, b => unpackField f (b.take f.size) :: unpackFields fs (b.drop f.size)

/-- The buffer has exactly the size of the record. -/
def unpack (fs : List Field) (b : List UInt8) : Option (List Value) :=
  if b.length = calcsize fs then some (unpackFields fs b) else none

/-! ### Unpacking what was packed -/

/-- The value fits the field as it is. -/
def Fits : Field → Value → Prop
  | .uint k, .int n => n < 256 ^ k
  | .str k, .bytes b => b.length = k
  | _, _ => False

@[simp] lemma leBytes_length (k n : ℕ) : (leBytes k n).length = k := by
  induction k generalizing n with
  | zero => rfl
  | succ k ih => rw [leBytes, List.length_cons, ih]

lemma leValue_lt (l : List UInt8) : leValue l < 256 ^ l.length := by
  induction l with
  | nil => simp [leValue]
  | cons b l ih =>
    have hb : b.toNat < 256 := b.toNat_lt
    rw [leValue, List.length_cons, Nat.pow_succ]
    omega

lemma leValue_inj {l l' : List UInt8} (hlen : l.length = l'.length)
    (h : leValue l = leValue l') : l = l' := by
  induction l generalizing l' with
  | nil => exact (List.length_eq_zero_iff.mp hlen.symm).symm
  | cons b l ih =>
    obtain _ | ⟨b', l'⟩ := l'
    · cases hlen
    · have hb : b.toNat < 256 := b.toNat_lt
      have hb' : b'.toNat < 256 := b'.toNat_lt
      rw [leValue, leValue] at h
      rw [UInt8.toNat_inj.mp (by omega : b.toNat = b'.toNat),
        ih (Nat.succ.inj hlen) (by omega)]

lemma leValue_leBytes_mod (k n : ℕ) : leValue (leBytes k n) = n % 256 ^ k := by
  induction k generalizing n with
  | zero => rw [leBytes, leValue, Nat.pow_zero, Nat.mod_one]
  | succ k ih =>
    have hbyte : (UInt8.ofNat n).toNat = n % 256 := UInt8.toNat_ofNat'
    rw [leBytes, leValue, ih, hbyte, Nat.pow_succ, Nat.mul_comm (256 ^ k) 256, Nat.mod_mul]

lemma leValue_leBytes {k n : ℕ} (h : n < 256 ^ k) : leValue (leBytes k n) = n := by
  rw [leValue_leBytes_mod, Nat.mod_eq_of_lt h]

/-- One field: its size, and its value read back. -/
lemma packField_fits {f : Field} {v : Value} (h : Fits f v) :
    ∃ b, packField f v = some b ∧ b.length = f.size ∧ unpackField f b = v := by
  match f, v, h with
  | .uint k, .int n, h =>
    exact ⟨leBytes k n, if_pos h, leBytes_length k n, congrArg Value.int (leValue_leBytes h)⟩
  | .str k, .bytes b, h =>
    have hk : b.length = k := h
    refine ⟨b, ?_, hk, rfl⟩
    rw [packField, List.take_of_length_le hk.le, hk, Nat.sub_self, List.replicate_zero,
      List.append_nil]

/-- **Round trip**: values that fit are packed, to the size of the record, and unpacked. -/
theorem pack_fits {fs : List Field} {vs : List Value} (h : List.Forall₂ Fits fs vs) :
    ∃ b, pack fs vs = some b ∧ b.length = calcsize fs ∧ unpack fs b = some vs := by
  suffices hp : ∃ b, pack fs vs = some b ∧ b.length = calcsize fs ∧ unpackFields fs b = vs by
    obtain ⟨b, hb, hlen, hu⟩ := hp
    exact ⟨b, hb, hlen, by rw [unpack, if_pos hlen, hu]⟩
  induction h with
  | nil => exact ⟨[], rfl, rfl, rfl⟩
  | @cons f v fs vs hfv _ ih =>
    obtain ⟨b, hb, hlen, hu⟩ := packField_fits hfv
    obtain ⟨l, hl, hlen', hu'⟩ := ih
    refine ⟨b ++ l, ?_, ?_, ?_⟩
    · rw [pack, hb, hl]
      rfl
    · rw [List.length_append, hlen, hlen', calcsize, calcsize, List.map_cons, List.sum_cons]
    · rw [unpackFields, List.take_left' hlen, List.drop_left' hlen, hu, hu']

/-! ### Native alignment -/

/-- An integer begins at a multiple of its size, a string anywhere. -/
def Field.alignment : Field → ℕ
  | .uint k => k
  | .str _ => 1

/-- The zeros between a position and the next multiple of the alignment. -/
def padding (position alignment : ℕ) : ℕ :=
  (alignment - position % alignment) % alignment

/-- The fields from a position of the record on, each one aligned. -/
def packNative : ℕ → List Field → List Value → Option (List UInt8)
  | _, [], [] => some []
  | position, f :: fs, v :: vs =>
    (packField f v).bind fun b =>
      (packNative (position + padding position f.alignment + f.size) fs vs).map fun l =>
        List.replicate (padding position f.alignment) 0 ++ b ++ l
  | _, _, _ => none

lemma padding_eq_zero_iff {position alignment : ℕ} (h : 0 < alignment) :
    padding position alignment = 0 ↔ position % alignment = 0 := by
  have hlt := Nat.mod_lt position h
  unfold padding
  constructor
  · intro hzero
    by_contra hne
    rw [Nat.mod_eq_of_lt (by omega)] at hzero
    omega
  · intro hzero
    rw [hzero, Nat.sub_zero, Nat.mod_self]

@[simp] lemma padding_one (position : ℕ) : padding position 1 = 0 := Nat.mod_one _

/-- A string with an integer behind it. -/
lemma packNative_str_uint {k n : ℕ} (b : List UInt8) (h : n < 256 ^ k) :
    packNative 0 [.str b.length, .uint k] [.bytes b, .int n] =
      some (b ++ (List.replicate (padding b.length k) 0 ++ leBytes k n)) := by
  have hstr : packField (.str b.length) (.bytes b) = some b := by
    rw [packField, List.take_length, Nat.sub_self, List.replicate_zero, List.append_nil]
  have hint : packField (.uint k) (.int n) = some (leBytes k n) := if_pos h
  simp only [packNative, hstr, hint, Option.bind_some, Option.map_some, Field.alignment, Field.size,
    padding_one, List.replicate_zero, List.nil_append, List.append_nil, Nat.zero_add]

end UefiToolkit.StructPack
