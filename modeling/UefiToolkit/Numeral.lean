import Mathlib.Data.Nat.Digits.Defs
import Mathlib.Data.List.Forall2
import Mathlib.Tactic.Linarith

/-!
Numbers that are written with digits, the most significant one first.

A program reads such a number digit by digit. An accumulator of a fixed width keeps the number up
to a multiple of its range; with a check before each step it keeps the number itself, or finds that
it is too large.
-/

namespace UefiToolkit.Numeral

variable {α : Type*} {b : ℕ}

/-! ### Digits -/

/-- The number with these digits in base `b`. -/
def value (b : ℕ) (ds : List ℕ) : ℕ := Nat.ofDigits b ds.reverse

lemma value_append (ds es : List ℕ) :
    value b (ds ++ es) = value b ds * b ^ es.length + value b es := by
  unfold value
  rw [List.reverse_append, Nat.ofDigits_append, List.length_reverse]
  ring

lemma value_snoc (ds : List ℕ) (d : ℕ) : value b (ds ++ [d]) = value b ds * b + d := by
  rw [value_append, List.length_singleton, pow_one]
  simp [value]

/-- Zeros in front do not count. -/
lemma value_zeros (n : ℕ) (ds : List ℕ) : value b (List.replicate n 0 ++ ds) = value b ds := by
  have hzero : value b (List.replicate n 0) = 0 := by
    rw [value, List.reverse_replicate, Nat.ofDigits_replicate_zero]
  rw [value_append, hzero, Nat.zero_mul, Nat.zero_add]

/-- A number does not become less by more digits. -/
lemma value_le_append (hb : 0 < b) (ds es : List ℕ) : value b ds ≤ value b (ds ++ es) := by
  rw [value_append]
  calc value b ds ≤ value b ds * b ^ es.length := Nat.le_mul_of_pos_right _ (Nat.pow_pos hb)
    _ ≤ _ := Nat.le_add_right _ _

/-- The digits that the characters of a string stand for. -/
def Reads (digit : α → Option ℕ) : List α → List ℕ → Prop :=
  List.Forall₂ fun c d => digit c = some d

lemma Reads.unique {digit : α → Option ℕ} {s : List α} {ds es : List ℕ} (hd : Reads digit s ds)
    (he : Reads digit s es) : ds = es :=
  List.right_unique_forall₂' (fun _ _ _ h h' => Option.some.inj (h.symm.trans h')) hd he

/-! ### Accumulators -/

/-- An accumulator of range `m` keeps the number up to a multiple of `m`. -/
lemma value_snoc_mod {m n : ℕ} {ds : List ℕ} (h : n = value b ds % m) (d : ℕ) :
    (n * b + d) % m = value b (ds ++ [d]) % m := by
  rw [h, value_snoc, Nat.add_mod, Nat.mod_mul_mod, ← Nat.add_mod]

/-- The check before a step finds exactly what the step would make too large. -/
lemma le_quotient_iff {n d m : ℕ} (hb : 0 < b) (hd : d ≤ m) : n ≤ (m - d) / b ↔ n * b + d ≤ m := by
  rw [Nat.le_div_iff_mul_le hb]
  omega

/-! ### Digits in ASCII -/

/-- `0` to `9`. -/
def decimalDigit (c : ℕ) : Option ℕ := if 48 ≤ c ∧ c ≤ 57 then some (c - 48) else none

/-- `0` to `9`, `a` to `f` and `A` to `F`. -/
def hexDigit (c : ℕ) : Option ℕ :=
  if 48 ≤ c ∧ c ≤ 57 then some (c - 48)
  else if 97 ≤ c ∧ c ≤ 102 then some (c - 87)
  else if 65 ≤ c ∧ c ≤ 70 then some (c - 55)
  else none

lemma hexDigit_lt {c d : ℕ} (h : hexDigit c = some d) : d < 16 := by
  unfold hexDigit at h
  split_ifs at h <;> (injection h with h; omega)

lemma decimalDigit_lt {c d : ℕ} (h : decimalDigit c = some d) : d < 10 := by
  unfold decimalDigit at h
  split_ifs at h
  injection h with h
  omega

end UefiToolkit.Numeral
