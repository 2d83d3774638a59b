import Mathlib

/-!
Numbers in limbs, the least significant one first, and products modulo a number in Montgomery's
form.

A round adds a multiple of the modulus that makes a sum divisible by the base, and divides; one
round for each limb gives a product divided by a power of the base.
-/

namespace UefiToolkit.Limbs

open Finset

/-- The number in `k` limbs. -/
def value (β : ℕ) (f : ℕ → ℕ) (k : ℕ) : ℕ := ∑ i ∈ range k, f i * β ^ i

variable {β k : ℕ} {f g : ℕ → ℕ}

@[simp] lemma value_zero (β : ℕ) (f : ℕ → ℕ) : value β f 0 = 0 := rfl

lemma value_succ (β : ℕ) (f : ℕ → ℕ) (k : ℕ) :
    value β f (k + 1) = value β f k + f k * β ^ k := sum_range_succ _ _

lemma value_succ' (β : ℕ) (f : ℕ → ℕ) (k : ℕ) :
    value β f (k + 1) = f 0 + β * value β (fun i => f (i + 1)) k := by
  rw [value, sum_range_succ', pow_zero, mul_one, add_comm, value, mul_sum]
  congr 1
  exact sum_congr rfl fun i _ => by ring

lemma value_congr (h : ∀ i < k, f i = g i) : value β f k = value β g k :=
  sum_congr rfl fun i hi => by rw [h i (mem_range.mp hi)]

lemma value_lt (h : ∀ i < k, f i < β) : value β f k < β ^ k := by
  induction k with
  | zero => simp
  | succ k ih =>
    have hlow := ih fun i hi => h i (by omega)
    have htop := h k (by omega)
    calc value β f (k + 1) = value β f k + f k * β ^ k := value_succ β f k
      _ < β ^ k + f k * β ^ k := by omega
      _ = (f k + 1) * β ^ k := by ring
      _ ≤ β * β ^ k := Nat.mul_le_mul_right _ htop
      _ = β ^ (k + 1) := by ring

/-! ### Montgomery's form -/

variable {n : ℕ}

/-- **The rounds of a product**: each takes one limb of the first factor. -/
theorem rounds {a V : ℕ → ℕ} {b : ℕ} (h0 : V 0 = 0)
    (hround : ∀ i < k, β * V (i + 1) ≡ a i * b + V i [MOD n]) :
    β ^ k * V k ≡ value β a k * b [MOD n] := by
  induction k with
  | zero =>
    rw [h0, value_zero, Nat.mul_zero, Nat.zero_mul]
  | succ k ih =>
    calc β ^ (k + 1) * V (k + 1) = β ^ k * (β * V (k + 1)) := by ring
      _ ≡ β ^ k * (a k * b + V k) [MOD n] := (hround k (by omega)).mul_left _
      _ = a k * β ^ k * b + β ^ k * V k := by ring
      _ ≡ a k * β ^ k * b + value β a k * b [MOD n] :=
        (ih fun i hi => hround i (by omega)).add_left _
      _ = value β a (k + 1) * b := by rw [value_succ]; ring

/-- `z` is the product of `x` and `y`, divided by `r`. -/
def MontMul (n r x y z : ℕ) : Prop := r * z ≡ x * y [MOD n]

/-- `x` stands for `u`. -/
def Mont (n r u x : ℕ) : Prop := x ≡ u * r [MOD n]

variable {r u v x y z : ℕ}

lemma MontMul.cancel (hr : Nat.Coprime n r) (h : r * z ≡ r * x [MOD n]) : z ≡ x [MOD n] :=
  Nat.ModEq.cancel_left_of_coprime hr h

/-- Multiplying by the square of the base brings a number into the form. -/
lemma MontMul.enter {rr : ℕ} (hr : Nat.Coprime n r) (hrr : rr ≡ r * r [MOD n])
    (h : MontMul n r u rr x) : Mont n r u x := by
  refine MontMul.cancel hr (h.trans ?_)
  calc u * rr ≡ u * (r * r) [MOD n] := hrr.mul_left _
    _ = r * (u * r) := by ring

/-- In the form, numbers are multiplied. -/
lemma MontMul.mul (hr : Nat.Coprime n r) (hx : Mont n r u x) (hy : Mont n r v y)
    (h : MontMul n r x y z) : Mont n r (u * v) z := by
  refine MontMul.cancel hr (h.trans ?_)
  calc x * y ≡ u * r * (v * r) [MOD n] := hx.mul hy
    _ = r * (u * v * r) := by ring

/-- Multiplying with a number outside of the form leads out of it. -/
lemma MontMul.leave (hr : Nat.Coprime n r) (hx : Mont n r u x) (h : MontMul n r x v z) :
    z ≡ u * v [MOD n] := by
  refine MontMul.cancel hr (h.trans ?_)
  calc x * v ≡ u * r * v [MOD n] := hx.mul_right _
    _ = r * (u * v) := by ring

end UefiToolkit.Limbs
