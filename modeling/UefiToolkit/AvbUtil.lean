import UefiToolkit.Mem

/-!
The helpers of `libavb`: big-endian numbers in memory, and comparisons that look at every byte.
-/

namespace UefiToolkit.AvbUtil

open UefiToolkit.Mem

/-! ### Numbers in memory -/

/-- `avb_be32toh` of what lies at address `a`. -/
def be32toh (d : ℕ → UInt8) (a : ℕ) : UInt32 :=
  (d a).toUInt32 <<< 24 ||| (d (a + 1)).toUInt32 <<< 16 ||| (d (a + 2)).toUInt32 <<< 8 |||
    (d (a + 3)).toUInt32

/-- `avb_be64toh` of what lies at address `a`. -/
def be64toh (d : ℕ → UInt8) (a : ℕ) : UInt64 :=
  (d a).toUInt64 <<< 56 ||| (d (a + 1)).toUInt64 <<< 48 ||| (d (a + 2)).toUInt64 <<< 40 |||
    (d (a + 3)).toUInt64 <<< 32 ||| (d (a + 4)).toUInt64 <<< 24 ||| (d (a + 5)).toUInt64 <<< 16 |||
    (d (a + 6)).toUInt64 <<< 8 ||| (d (a + 7)).toUInt64

/-- The big-endian number that bytes stand for. -/
def beValue (l : List UInt8) : ℕ := l.foldl (fun v b => 2 ^ 8 * v + b.toNat) 0

lemma shiftLeft_or {v b k : ℕ} (hb : b < 2 ^ 8) :
    v <<< (8 + k) ||| b <<< k = (2 ^ 8 * v + b) <<< k := by
  rw [Nat.shiftLeft_add, ← Nat.shiftLeft_or_distrib, ← Nat.shiftLeft_add_eq_or_of_lt hb,
    Nat.shiftLeft_eq v 8, Nat.mul_comm]

lemma shiftLeft_mod {b k w : ℕ} (hb : b < 2 ^ 8) (h : 8 + k ≤ w) : b <<< k % 2 ^ w = b <<< k := by
  rw [Nat.shiftLeft_eq]
  refine Nat.mod_eq_of_lt ?_
  calc b * 2 ^ k < 2 ^ 8 * 2 ^ k := Nat.mul_lt_mul_of_pos_right hb (by positivity)
    _ = 2 ^ (8 + k) := (pow_add 2 8 k).symm
    _ ≤ 2 ^ w := Nat.pow_le_pow_right (by decide) h

lemma slice_getD {l : List UInt8} {a n : ℕ} (h : a + n ≤ l.length) :
    slice (fun i => l.getD i 0) a n = (l.drop a).take n := by
  refine List.ext_getElem (by simp; omega) fun i h1 h2 => ?_
  rw [slice_length] at h1
  rw [slice_getElem, List.getElem_take, List.getElem_drop, List.getD_eq_getElem _ _ (by omega)]

lemma be32toh_toNat (d : ℕ → UInt8) (a : ℕ) :
    (be32toh d a).toNat = beValue (slice d a 4) := by
  have h (i : ℕ) : (d i).toNat < 2 ^ 8 := (d i).toNat_lt
  simp only [be32toh, UInt32.toNat_or, UInt32.toNat_shiftLeft, UInt8.toNat_toUInt32,
    UInt32.reduceToNat, Nat.reduceMod]
  rw [shiftLeft_mod (h _) (by omega), shiftLeft_mod (h _) (by omega),
    shiftLeft_mod (h _) (by omega), shiftLeft_or (k := 16) (h _), shiftLeft_or (k := 8) (h _)]
  have hlast := shiftLeft_or (v := 2 ^ 8 * (2 ^ 8 * (d a).toNat + (d (a + 1)).toNat) +
    (d (a + 2)).toNat) (k := 0) (h (a + 3))
  rw [Nat.shiftLeft_zero, Nat.shiftLeft_zero] at hlast
  rw [hlast]
  simp [beValue, slice, List.range_succ]

lemma be64toh_toNat (d : ℕ → UInt8) (a : ℕ) :
    (be64toh d a).toNat = beValue (slice d a 8) := by
  have h (i : ℕ) : (d i).toNat < 2 ^ 8 := (d i).toNat_lt
  simp only [be64toh, UInt64.toNat_or, UInt64.toNat_shiftLeft, UInt8.toNat_toUInt64,
    UInt64.reduceToNat, Nat.reduceMod]
  rw [shiftLeft_mod (h _) (by omega), shiftLeft_mod (h _) (by omega),
    shiftLeft_mod (h _) (by omega), shiftLeft_mod (h _) (by omega), shiftLeft_mod (h _) (by omega),
    shiftLeft_mod (h _) (by omega), shiftLeft_mod (h _) (by omega), shiftLeft_or (k := 48) (h _),
    shiftLeft_or (k := 40) (h _), shiftLeft_or (k := 32) (h _), shiftLeft_or (k := 24) (h _),
    shiftLeft_or (k := 16) (h _), shiftLeft_or (k := 8) (h _)]
  have hlast (v : ℕ) : v <<< 8 ||| (d (a + 7)).toNat = 2 ^ 8 * v + (d (a + 7)).toNat := by
    have := shiftLeft_or (v := v) (k := 0) (h (a + 7))
    rwa [Nat.shiftLeft_zero, Nat.shiftLeft_zero] at this
  rw [hlast]
  simp [beValue, slice, List.range_succ]

lemma be32toh_congr {d d' : ℕ → UInt8} {a a' : ℕ} (h : ∀ i < 4, d (a + i) = d' (a' + i)) :
    be32toh d a = be32toh d' a' := by
  apply UInt32.toNat_inj.mp
  rw [be32toh_toNat, be32toh_toNat, slice_congr h]

lemma beValue_append (l l' : List UInt8) :
    beValue (l ++ l') = beValue l * (2 ^ 8) ^ l'.length + beValue l' := by
  induction l' using List.reverseRecOn with
  | nil => simp [beValue]
  | append_singleton l' b ih =>
    have hsnoc (l : List UInt8) : beValue (l ++ [b]) = 2 ^ 8 * beValue l + b.toNat := by
      simp [beValue]
    rw [← List.append_assoc, hsnoc, hsnoc, ih, List.length_append, List.length_singleton]
    ring

lemma beValue_inj {l l' : List UInt8} (hlen : l.length = l'.length)
    (h : beValue l = beValue l') : l = l' := by
  induction l using List.reverseRecOn generalizing l' with
  | nil => exact (List.length_eq_zero_iff.mp hlen.symm).symm
  | append_singleton l b ih =>
    induction l' using List.reverseRecOn with
    | nil => simp at hlen
    | append_singleton l' b' _ =>
      have hb := b.toNat_lt
      have hb' := b'.toNat_lt
      simp only [List.length_append, List.length_singleton, Nat.add_right_cancel_iff] at hlen
      simp only [beValue_append, List.length_singleton, pow_one] at h
      have hone (b : UInt8) : beValue [b] = b.toNat := by simp [beValue]
      rw [hone, hone] at h
      rw [ih hlen (by omega), UInt8.toNat_inj.mp (show b.toNat = b'.toNat by omega)]

/-- The big-endian bytes of a word. -/
def beBytes (tmp : UInt32) : List UInt8 :=
  [(tmp >>> 24).toUInt8, (tmp >>> 16).toUInt8, (tmp >>> 8).toUInt8, tmp.toUInt8]

lemma beBytes_toNat (t : UInt32) : beValue (beBytes t) = t.toNat := by
  have ht := t.toNat_lt
  simp only [beValue, beBytes, List.foldl_cons, List.foldl_nil, UInt32.toNat_toUInt8,
    UInt32.toNat_shiftRight, UInt32.reduceToNat, Nat.reduceMod, Nat.shiftRight_eq_div_pow]
  omega

/-! ### Comparing -/

/-- `avb_safe_memcmp` of two stretches of the same size: whether they differ. -/
def avbSafeMemcmp (s1 s2 : List UInt8) : Bool :=
  decide ((s1.zip s2).foldl (fun result b => result ||| (b.1 ^^^ b.2)) 0 ≠ 0)

lemma foldl_or_eq_zero {l : List (UInt8 × UInt8)} {r : UInt8} :
    l.foldl (fun result b => result ||| (b.1 ^^^ b.2)) r = 0 ↔ r = 0 ∧ ∀ b ∈ l, b.1 = b.2 := by
  induction l generalizing r with
  | nil => simp
  | cons b l ih =>
    rw [List.foldl_cons, ih, UInt8.or_eq_zero_iff, UInt8.xor_eq_zero_iff, List.forall_mem_cons,
      and_assoc]

lemma avbSafeMemcmp_eq {s1 s2 : List UInt8} (h : s1.length = s2.length) :
    avbSafeMemcmp s1 s2 = decide (s1 ≠ s2) := by
  unfold avbSafeMemcmp
  rw [decide_eq_decide, not_iff_not, foldl_or_eq_zero]
  simp only [true_and]
  induction s1 generalizing s2 with
  | nil => simp [List.length_eq_zero_iff.mp h.symm]
  | cons a s1 ih =>
    rcases s2 with _ | ⟨b, s2⟩
    · cases h
    · simp only [List.zip_cons_cons, List.forall_mem_cons, List.cons.injEq]
      rw [ih (by simpa using h)]

end UefiToolkit.AvbUtil
