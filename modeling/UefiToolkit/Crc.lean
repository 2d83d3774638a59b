import UefiToolkit.StructPack

/-!
Cyclic checksums from a shift register that its lowest bit leaves first.

A shift is linear in exclusive or, and with the top bit of the polynomial set no two registers
shift to the same one. A message that fits the register goes into it at once, so two messages of
one checksum never differ in a place that short only.
-/

namespace UefiToolkit.Crc

open UefiToolkit.StructPack

variable {w : ℕ} (p : BitVec w)

/-- One shift; the polynomial is taken in for a one that leaves. -/
def shift (c : BitVec w) : BitVec w := if c.getLsbD 0 then (c >>> 1) ^^^ p else c >>> 1

/-- A byte goes in. -/
def byteStep (c : BitVec w) (b : UInt8) : BitVec w :=
  (shift p)^[8] (c ^^^ b.toBitVec.setWidth w)

/-- The register after a message. -/
def register (c : BitVec w) (l : List UInt8) : BitVec w := l.foldl (byteStep p) c

@[simp] lemma register_nil (c : BitVec w) : register p c [] = c := rfl

@[simp] lemma register_cons (c : BitVec w) (b : UInt8) (l : List UInt8) :
    register p c (b :: l) = register p (byteStep p c b) l := rfl

lemma register_append (c : BitVec w) (l l' : List UInt8) :
    register p c (l ++ l') = register p (register p c l) l' := List.foldl_append

/-! ### Shifts -/

lemma shift_xor (a b : BitVec w) : shift p (a ^^^ b) = shift p a ^^^ shift p b := by
  unfold shift
  rw [BitVec.getLsbD_xor, BitVec.ushiftRight_xor_distrib]
  rcases ha : a.getLsbD 0 with _ | _ <;> rcases hb : b.getLsbD 0 with _ | _
  · simp
  · simp [BitVec.xor_assoc]
  · simp [BitVec.xor_assoc, BitVec.xor_comm p]
  · have hcancel : p ^^^ (b >>> 1 ^^^ p) = b >>> 1 := by
      rw [BitVec.xor_comm (b >>> 1), ← BitVec.xor_assoc, BitVec.xor_self, BitVec.zero_xor]
    simp [BitVec.xor_assoc, hcancel]

lemma shifts_xor (n : ℕ) (a b : BitVec w) :
    (shift p)^[n] (a ^^^ b) = (shift p)^[n] a ^^^ (shift p)^[n] b := by
  induction n generalizing a b with
  | zero => rfl
  | succ n ih => rw [Function.iterate_succ_apply, shift_xor, ih]; rfl

/-- Zeros at the low end leave without a trace. -/
lemma shifts_high {c : BitVec w} {n : ℕ} (h : ∀ i < n, c.getLsbD i = false) :
    (shift p)^[n] c = c >>> n := by
  induction n generalizing c with
  | zero => simp
  | succ n ih =>
    have hshift : shift p c = c >>> 1 := by rw [shift, h 0 (by omega)]; rfl
    have hlow : ∀ i < n, (c >>> 1).getLsbD i = false := fun i hi => by
      rw [BitVec.getLsbD_ushiftRight]
      exact h (1 + i) (by omega)
    rw [Function.iterate_succ_apply, hshift, ih hlow, ← BitVec.shiftRight_add, Nat.add_comm]

variable {p}

lemma shift_injective (hp : p.getLsbD (w - 1) = true) : Function.Injective (shift p) := by
  intro a b hab
  have hw : 0 < w := by
    by_contra hw
    obtain rfl : w = 0 := by omega
    simp at hp
  have hzero : shift p (a ^^^ b) = 0#w := by rw [shift_xor, hab, BitVec.xor_self]
  rw [← BitVec.xor_eq_zero_iff]
  generalize a ^^^ b = d at hzero
  rw [shift] at hzero
  split_ifs at hzero with hd
  · -- the polynomial's top bit has no other source
    have htop := congrArg (fun v : BitVec w => v.getLsbD (w - 1)) hzero
    simp only [BitVec.getLsbD_xor, BitVec.getLsbD_ushiftRight, hp, BitVec.getLsbD_zero] at htop
    rw [BitVec.getLsbD_of_ge d _ (by omega)] at htop
    exact absurd htop (by decide)
  · refine BitVec.eq_of_getLsbD_eq fun i hi => ?_
    rcases i with _ | i
    · simpa using hd
    · have hbit := congrArg (fun v : BitVec w => v.getLsbD i) hzero
      simp only [BitVec.getLsbD_ushiftRight, BitVec.getLsbD_zero] at hbit
      rw [Nat.add_comm, hbit, BitVec.getLsbD_zero]

lemma shifts_injective (hp : p.getLsbD (w - 1) = true) (n : ℕ) :
    Function.Injective (shift p)^[n] := (shift_injective hp).iterate n

lemma byteStep_injective (hp : p.getLsbD (w - 1) = true) (b : UInt8) :
    Function.Injective fun c => byteStep p c b := by
  intro a c h
  rw [← BitVec.xor_left_inj (b.toBitVec.setWidth w)]
  exact shifts_injective hp 8 h

lemma register_injective (hp : p.getLsbD (w - 1) = true) (l : List UInt8) :
    Function.Injective fun c => register p c l := by
  induction l with
  | nil => exact fun _ _ h => h
  | cons b l ih => exact fun _ _ h => byteStep_injective hp b (ih h)

/-! ### A byte at a time from a table -/

variable (p)

/-- What goes in for a byte depends on the low end alone. -/
theorem byteStep_table (hw : 8 ≤ w) (c : BitVec w) (b : UInt8) :
    byteStep p c b =
      (shift p)^[8] ((c ^^^ b.toBitVec.setWidth w) &&& BitVec.ofNat w 255) ^^^ (c >>> 8) := by
  have h255 : ∀ i < w, (BitVec.ofNat w 255).getLsbD i = decide (i < 8) := fun i hi => by
    rw [BitVec.getLsbD_ofNat, show (255 : ℕ) = 2 ^ 8 - 1 from rfl, Nat.testBit_two_pow_sub_one]
    simp [hi]
  set x := c ^^^ b.toBitVec.setWidth w with hx
  have hsplit : x = (x &&& BitVec.ofNat w 255) ^^^ (x &&& ~~~BitVec.ofNat w 255) := by
    refine BitVec.eq_of_getLsbD_eq fun i hi => ?_
    simp only [BitVec.getLsbD_xor, BitVec.getLsbD_and, BitVec.getLsbD_not, hi, decide_true,
      Bool.true_and]
    cases x.getLsbD i <;> cases (BitVec.ofNat w 255).getLsbD i <;> rfl
  have hlow : ∀ i < 8, (x &&& ~~~BitVec.ofNat w 255).getLsbD i = false := fun i hi => by
    simp [BitVec.getLsbD_and, BitVec.getLsbD_not, h255 i (by omega), hi]
  have hhigh : (x &&& ~~~BitVec.ofNat w 255) >>> 8 = c >>> 8 := by
    refine BitVec.eq_of_getLsbD_eq fun i hi => ?_
    simp only [BitVec.getLsbD_ushiftRight, BitVec.getLsbD_and, BitVec.getLsbD_not, hx,
      BitVec.getLsbD_xor, BitVec.getLsbD_setWidth]
    rw [BitVec.getLsbD_of_ge b.toBitVec _ (by omega)]
    by_cases hi' : 8 + i < w
    · rw [h255 _ hi']
      simp [hi']
    · rw [BitVec.getLsbD_of_ge c _ (by omega)]
      simp
  calc byteStep p c b = (shift p)^[8] x := rfl
    _ = (shift p)^[8] ((x &&& BitVec.ofNat w 255) ^^^ (x &&& ~~~BitVec.ofNat w 255)) := by
        rw [← hsplit]
    _ = _ := by rw [shifts_xor, shifts_high p hlow, hhigh]

/-! ### A message that fits the register -/

lemma ofNat_leValue_cons (b : UInt8) (l : List UInt8) :
    BitVec.ofNat w (leValue (b :: l)) =
      b.toBitVec.setWidth w ^^^ BitVec.ofNat w (2 ^ 8 * leValue l) := by
  refine BitVec.eq_of_getLsbD_eq fun i hi => ?_
  have hb : b.toNat < 2 ^ 8 := b.toNat_lt
  rw [BitVec.getLsbD_xor, BitVec.getLsbD_ofNat, BitVec.getLsbD_ofNat, BitVec.getLsbD_setWidth,
    leValue, Nat.add_comm, show (256 : ℕ) = 2 ^ 8 from rfl, Nat.testBit_two_pow_mul_add _ hb,
    Nat.testBit_two_pow_mul]
  have hbit : b.toBitVec.getLsbD i = b.toNat.testBit i := rfl
  rw [hbit]
  by_cases h8 : i < 8
  · simp [h8, hi, show ¬ 8 ≤ i by omega]
  · have hlt : b.toNat < 2 ^ i :=
      lt_of_lt_of_le hb (Nat.pow_le_pow_right (by decide) (by omega))
    rw [Nat.testBit_lt_two_pow hlt]
    simp [h8, hi, show 8 ≤ i by omega]

/-- The bytes of a message that fits stand side by side in the register. -/
lemma register_fits {l : List UInt8} (h : 8 * l.length ≤ w) (c : BitVec w) :
    register p c l = (shift p)^[8 * l.length] (c ^^^ BitVec.ofNat w (leValue l)) := by
  induction l generalizing c with
  | nil => simp [leValue]
  | cons b l ih =>
    rw [List.length_cons] at h
    have hv : 2 ^ 8 * leValue l < 2 ^ w := by
      have hl := leValue_lt l
      calc 2 ^ 8 * leValue l < 2 ^ 8 * 256 ^ l.length := by omega
        _ = 2 ^ (8 + 8 * l.length) := by
            rw [show (256 : ℕ) = 2 ^ 8 from rfl, ← Nat.pow_mul, Nat.pow_add]
        _ ≤ 2 ^ w := Nat.pow_le_pow_right (by decide) (by omega)
    have hlow : ∀ i < 8, (BitVec.ofNat w (2 ^ 8 * leValue l)).getLsbD i = false := fun i hi => by
      rw [BitVec.getLsbD_ofNat, Nat.testBit_two_pow_mul]
      simp [show ¬ 8 ≤ i by omega]
    have hdown : BitVec.ofNat w (2 ^ 8 * leValue l) >>> 8 = BitVec.ofNat w (leValue l) := by
      apply BitVec.eq_of_toNat_eq
      rw [BitVec.toNat_ushiftRight, BitVec.toNat_ofNat, BitVec.toNat_ofNat, Nat.mod_eq_of_lt hv,
        Nat.mod_eq_of_lt (by omega), Nat.shiftRight_eq_div_pow,
        Nat.mul_div_cancel_left _ (by decide)]
    rw [register_cons, ih (by omega), List.length_cons, Nat.mul_succ, Function.iterate_add_apply,
      ofNat_leValue_cons, ← BitVec.xor_assoc, shifts_xor p 8, shifts_high p hlow, hdown]
    rfl

/-- **Short differences show**: messages that differ in a place no longer than the register, and
nowhere else, leave different registers. -/
theorem register_burst {p : BitVec w} (hp : p.getLsbD (w - 1) = true) (c : BitVec w)
    {pre post x y : List UInt8} (hlen : x.length = y.length) (hw : 8 * x.length ≤ w)
    (h : register p c (pre ++ x ++ post) = register p c (pre ++ y ++ post)) : x = y := by
  rw [register_append, register_append, register_append, register_append] at h
  have hmid := register_injective hp post h
  have hw' : 8 * y.length ≤ w := by omega
  rw [register_fits p hw, register_fits p hw', hlen] at hmid
  have hval := (BitVec.xor_right_inj _).mp (shifts_injective hp _ hmid)
  have hfit : ∀ l : List UInt8, 8 * l.length ≤ w → leValue l < 2 ^ w := fun l hl =>
    lt_of_lt_of_le (leValue_lt l) (by
      rw [show (256 : ℕ) = 2 ^ 8 from rfl, ← Nat.pow_mul]
      exact Nat.pow_le_pow_right (by decide) hl)
  have hnat := congrArg BitVec.toNat hval
  rw [BitVec.toNat_ofNat, BitVec.toNat_ofNat, Nat.mod_eq_of_lt (hfit x hw),
    Nat.mod_eq_of_lt (hfit y hw')] at hnat
  exact leValue_inj hlen hnat

end UefiToolkit.Crc
