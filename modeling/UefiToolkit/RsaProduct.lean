import UefiToolkit.Limbs
import UefiToolkit.RsaModel

/-!
The arithmetic of the signature check: what subtracting the modulus, a round of a product and a
whole product do to the numbers in the arrays.
-/

namespace UefiToolkit.RsaProduct

open UefiToolkit.Mem UefiToolkit.Limbs UefiToolkit.RsaModel

/-- What a word counts. -/
def base : ℕ := 2 ^ 32

/-- The number in the `k` low words. -/
def val (f : Words) (k : ℕ) : ℕ := value base (fun i => (f i).toNat) k

variable {key : IAvbKey} {a b c : Words}

lemma val_lt (f : Words) (k : ℕ) : val f k < base ^ k :=
  value_lt fun i _ => (f i).toNat_lt

lemma val_succ (f : Words) (k : ℕ) :
    val f (k + 1) = val f k + (f k).toNat * base ^ k := value_succ _ _ k

lemma val_congr {f g : Words} {k : ℕ} (h : ∀ i < k, f i = g i) : val f k = val g k :=
  value_congr fun i hi => by rw [h i hi]

lemma val_put {f : Words} {k : ℕ} (v : UInt32) : val (f.set k v) k = val f k :=
  val_congr fun i hi => f.set_ne v (by omega)

/-! ### Subtracting the modulus -/

/-- **A subtraction** of the modulus wraps when the number is less. -/
lemma subM_spec (key : IAvbKey) (a : Words) :
    val (subM key a) key.len + val key.n key.len = val a key.len +
      if val a key.len < val key.n key.len then base ^ key.len else 0 := by
  -- the borrow is that of the words so far; the others are as they were
  have hloop : ∀ k, ∃ (A : ℤ) (r : Words), (List.range k).foldl
      (fun (s : ℤ × Words) i =>
        let A := s.1 + (s.2 i).toNat - (key.n i).toNat
        (A / 2 ^ 32, s.2.set i (UInt32.ofInt A))) (0, a) = (A, r) ∧
      (A = 0 ∨ A = -1) ∧ (∀ i, k ≤ i → r i = a i) ∧
      (val a k : ℤ) - val key.n k = val r k + A * (base ^ k : ℕ) := by
    intro k
    induction k with
    | zero => exact ⟨0, a, rfl, Or.inl rfl, fun i _ => rfl, by simp [val]⟩
    | succ k ih =>
      obtain ⟨A, r, hrun, hA, hrest, hval⟩ := ih
      have hn := (key.n k).toNat_lt
      have ha := (a k).toNat_lt
      set B := A + (r k).toNat - (key.n k).toNat with hB
      refine ⟨B / 2 ^ 32, r.set k (UInt32.ofInt B), ?_, ?_, ?_, ?_⟩
      · rw [List.range_succ, List.foldl_append, hrun]
        rfl
      · rw [hrest k le_rfl] at hB
        omega
      · intro i hi
        rw [Words.set_ne _ _ (by omega), hrest i (by omega)]
      · have hword : ((UInt32.ofInt B).toNat : ℤ) = B % 2 ^ 32 := by
          have hlt := Int.emod_lt_of_pos B (show (0 : ℤ) < 2 ^ 32 by norm_num)
          have hpos := Int.emod_nonneg B (show (2 : ℤ) ^ 32 ≠ 0 by norm_num)
          rw [UInt32.ofInt, UInt32.toNat_ofNat', Nat.mod_eq_of_lt (by omega),
            Int.toNat_of_nonneg hpos]
        rw [val_succ, val_succ, val_succ, val_put, Words.set_self]
        have hbase : (base : ℤ) = 2 ^ 32 := rfl
        rw [pow_succ base, Nat.cast_add, Nat.cast_add, Nat.cast_add, Nat.cast_mul, Nat.cast_mul,
          Nat.cast_mul, Nat.cast_mul, hword, hbase]
        have hdiv := Int.emod_add_mul_ediv B (2 ^ 32)
        rw [hrest k le_rfl] at hB
        generalize B % 2 ^ 32 = low at hdiv ⊢
        generalize B / 2 ^ 32 = high at hdiv ⊢
        generalize ((base ^ k : ℕ) : ℤ) = p at hval ⊢
        linear_combination hval - p * hB - p * hdiv
  obtain ⟨A, r, hrun, hA, -, hval⟩ := hloop key.len
  have hsub : subM key a = r := by rw [subM, hrun]
  have hr := val_lt r key.len
  have hn := val_lt key.n key.len
  have ha := val_lt a key.len
  rw [hsub]
  generalize base ^ key.len = R at *
  rcases hA with rfl | rfl
  · rw [if_neg (by omega)]
    omega
  · rw [if_pos (by omega)]
    omega

/-- The comparison is that of the numbers. -/
lemma geM_eq (key : IAvbKey) (a : Words) :
    geM key a = decide (val key.n key.len ≤ val a key.len) := by
  have hwords : ∀ k, geWords key a k = decide (val key.n k ≤ val a k) := by
    intro k
    induction k with
    | zero => simp [geWords, val]
    | succ k ih =>
      have hn := val_lt key.n k
      have ha := val_lt a k
      rw [geWords, val_succ, val_succ, ih]
      generalize base ^ k = p at hn ha ⊢
      split_ifs with hlt hgt
      · rw [UInt32.lt_iff_toNat_lt] at hlt
        have hle := Nat.mul_le_mul_right p (Nat.succ_le_of_lt hlt)
        rw [Nat.succ_mul] at hle
        exact (decide_eq_false (by omega)).symm
      · rw [UInt32.lt_iff_toNat_lt] at hgt
        have hle := Nat.mul_le_mul_right p (Nat.succ_le_of_lt hgt)
        rw [Nat.succ_mul] at hle
        exact (decide_eq_true (by omega)).symm
      · rw [UInt32.lt_iff_toNat_lt] at hlt hgt
        rw [decide_eq_decide, show (a k).toNat = (key.n k).toNat by omega,
          Nat.add_le_add_iff_right]
  exact hwords key.len

/-! ### A round of a product -/

/-- Nothing is lost in a round. -/
lemma mulAdd_toNat (x : UInt64) (a b c : UInt32) :
    ((x >>> 32) + a.toUInt64 * b.toUInt64 + c.toUInt64).toNat =
      x.toNat / base + a.toNat * b.toNat + c.toNat := by
  have hx := x.toNat_lt
  have ha := a.toNat_lt
  have hb := b.toNat_lt
  have hc := c.toNat_lt
  have hmul : a.toNat * b.toNat ≤ (2 ^ 32 - 1) * (2 ^ 32 - 1) :=
    Nat.mul_le_mul (by omega) (by omega)
  have hshift : (x >>> 32).toNat = x.toNat / 2 ^ 32 := by
    rw [UInt64.toNat_shiftRight, Nat.shiftRight_eq_div_pow]
    rfl
  have hprod : (a.toUInt64 * b.toUInt64).toNat = a.toNat * b.toNat := by
    rw [UInt64.toNat_mul, UInt32.toNat_toUInt64, UInt32.toNat_toUInt64]
    exact Nat.mod_eq_of_lt (by omega)
  rw [UInt64.toNat_add, UInt64.toNat_add, hshift, hprod, UInt32.toNat_toUInt64, base]
  generalize a.toNat * b.toNat = q at hmul ⊢
  omega

lemma toUInt32_add_base (x : UInt64) : x.toNat = x.toUInt32.toNat + base * (x.toNat / base) := by
  rw [UInt64.toNat_toUInt32, base]
  omega

/-- The modulus has an inverse, and the key says which. -/
def HasInverse (key : IAvbKey) : Prop := key.n0inv * key.n 0 = -1

/-- The multiple of the modulus that is added makes the low word zero. -/
lemma low_eq_zero (h : HasInverse key) (x : UInt32) : x * key.n0inv * key.n 0 + x = 0 := by
  rw [UInt32.mul_assoc, show key.n0inv * key.n 0 = -1 from h]
  grind

/-- What the rounds up to the words `m` have done: the words from `m` on are as they were, and those
before it with what is carried are the sum without its low word. -/
structure Rounds (key : IAvbKey) (a d0 : UInt32) (b c : Words) (m : ℕ) (s : Row) : Prop where
  rest : ∀ i, m ≤ i → s.c i = c i
  sum : a.toNat * val b (m + 1) + val c (m + 1) + d0.toNat * val key.n (m + 1) =
    base * val s.c m + (s.A.toNat / base + s.B.toNat / base) * base ^ (m + 1)

lemma rounds_row {a d0 : UInt32} {m : ℕ} {s : Row} (h : Rounds key a d0 b c m s) :
    Rounds key a d0 b c (m + 1) (row key a d0 b s (m + 1)) := by
  obtain ⟨rest, sum⟩ := h
  have hA := mulAdd_toNat s.A a (b (m + 1)) (s.c (m + 1))
  set A := (s.A >>> 32) + a.toUInt64 * (b (m + 1)).toUInt64 + (s.c (m + 1)).toUInt64 with hAdef
  have hB := mulAdd_toNat s.B d0 (key.n (m + 1)) A.toUInt32
  set B := (s.B >>> 32) + d0.toUInt64 * (key.n (m + 1)).toUInt64 + A.toUInt32.toUInt64 with hBdef
  have hrow : row key a d0 b s (m + 1) = ⟨A, B, s.c.set m B.toUInt32⟩ := rfl
  rw [hrow]
  refine ⟨fun i hi => ?_, ?_⟩
  · show s.c.set m B.toUInt32 i = c i
    rw [Words.set_ne _ _ (by omega), rest i (by omega)]
  · rw [rest (m + 1) (by omega)] at hA
    have hAsplit := hA.symm.trans (toUInt32_add_base A)
    have hBsplit := hB.symm.trans (toUInt32_add_base B)
    show _ = base * val (s.c.set m B.toUInt32) (m + 1) + (A.toNat / base + B.toNat / base) * _
    rw [val_succ b (m + 1), val_succ c (m + 1), val_succ key.n (m + 1),
      val_succ (s.c.set m B.toUInt32) m, val_put, Words.set_self]
    calc a.toNat * (val b (m + 1) + (b (m + 1)).toNat * base ^ (m + 1)) +
          (val c (m + 1) + (c (m + 1)).toNat * base ^ (m + 1)) +
          d0.toNat * (val key.n (m + 1) + (key.n (m + 1)).toNat * base ^ (m + 1))
        = (a.toNat * val b (m + 1) + val c (m + 1) + d0.toNat * val key.n (m + 1)) +
          (a.toNat * (b (m + 1)).toNat + (c (m + 1)).toNat + d0.toNat * (key.n (m + 1)).toNat) *
            base ^ (m + 1) := by ring
      _ = base * val s.c m + ((s.A.toNat / base + a.toNat * (b (m + 1)).toNat +
          (c (m + 1)).toNat) + s.B.toNat / base + d0.toNat * (key.n (m + 1)).toNat) *
            base ^ (m + 1) := by rw [sum]; ring
      _ = base * val s.c m + ((s.B.toNat / base + d0.toNat * (key.n (m + 1)).toNat +
          A.toUInt32.toNat) + base * (A.toNat / base)) * base ^ (m + 1) := by
        rw [hAsplit]
        ring
      _ = base * val s.c m + (B.toUInt32.toNat + base * (B.toNat / base) +
          base * (A.toNat / base)) * base ^ (m + 1) := by rw [hBsplit]
      _ = _ := by ring

/-- Before the loop only the low words have been added. -/
lemma rounds_start (h : HasInverse key) (a : UInt32) (b c : Words) {A : UInt64}
    (hA : A = a.toUInt64 * (b 0).toUInt64 + (c 0).toUInt64) :
    Rounds key a (A.toUInt32 * key.n0inv) b c 0 ⟨A,
      (A.toUInt32 * key.n0inv).toUInt64 * (key.n 0).toUInt64 + A.toUInt32.toUInt64, c⟩ := by
  set d0 := A.toUInt32 * key.n0inv with hd0
  set B := d0.toUInt64 * (key.n 0).toUInt64 + A.toUInt32.toUInt64 with hB
  have hzero (a b c : UInt32) : (a.toUInt64 * b.toUInt64 + c.toUInt64).toNat =
      a.toNat * b.toNat + c.toNat := by
    have h := mulAdd_toNat 0 a b c
    rwa [show (0 : UInt64) >>> 32 = 0 from rfl, UInt64.zero_add, UInt64.toNat_zero, Nat.zero_div,
      Nat.zero_add] at h
  have hAval : a.toNat * (b 0).toNat + (c 0).toNat =
      A.toUInt32.toNat + base * (A.toNat / base) := by
    rw [← toUInt32_add_base, hA, hzero]
  have hlow : B.toUInt32 = 0 := by
    rw [hB, UInt64.toUInt32_add, UInt64.toUInt32_mul, UInt32.toUInt32_toUInt64,
      UInt32.toUInt32_toUInt64, UInt32.toUInt32_toUInt64]
    exact low_eq_zero h _
  have hBval := (hzero d0 (key.n 0) A.toUInt32).symm.trans (toUInt32_add_base B)
  rw [hlow, UInt32.toNat_zero, Nat.zero_add] at hBval
  refine ⟨fun i _ => rfl, ?_⟩
  have hone (f : Words) : val f (0 + 1) = (f 0).toNat := by simp [val, value]
  rw [hone, hone, hone]
  show _ = base * 0 + (A.toNat / base + B.toNat / base) * base ^ (0 + 1)
  calc a.toNat * (b 0).toNat + (c 0).toNat + d0.toNat * (key.n 0).toNat
      = base * (A.toNat / base) + (d0.toNat * (key.n 0).toNat + A.toUInt32.toNat) := by
        rw [hAval]
        ring
    _ = base * (A.toNat / base) + base * (B.toNat / base) := by rw [hBval]
    _ = _ := by ring

/-- **A round of a product** adds a multiple of one factor and divides by the base. -/
lemma montMulAdd_spec (h : HasInverse key) (hlen : 0 < key.len) (c : Words) (a : UInt32)
    (b : Words) : base * val (montMulAdd key c a b) key.len ≡
      a.toNat * val b key.len + val c key.len [MOD val key.n key.len] := by
  obtain ⟨m, hm⟩ : ∃ m, key.len = m + 1 := ⟨key.len - 1, by omega⟩
  set A := a.toUInt64 * (b 0).toUInt64 + (c 0).toUInt64 with hA
  set d0 := A.toUInt32 * key.n0inv with hd0
  set B := d0.toUInt64 * (key.n 0).toUInt64 + A.toUInt32.toUInt64 with hB
  have hloop : ∀ k, Rounds key a d0 b c k
      ((List.range' 1 k).foldl (row key a d0 b) ⟨A, B, c⟩) := by
    intro k
    induction k with
    | zero => exact rounds_start h a b c rfl
    | succ k ih =>
      rw [List.range'_concat, List.foldl_append, Nat.one_mul, Nat.add_comm 1 k]
      exact rounds_row ih
  have hmont : montMulAdd key c a b =
      let s := (List.range' 1 m).foldl (row key a d0 b) ⟨A, B, c⟩
      let A := (s.A >>> 32) + (s.B >>> 32)
      if A >>> 32 ≠ 0 then subM key (s.c.set m A.toUInt32) else s.c.set m A.toUInt32 := by
    rw [montMulAdd, hm, Nat.add_sub_cancel]
  obtain ⟨-, hsum⟩ := hloop m
  rw [hmont]
  generalize (List.range' 1 m).foldl (row key a d0 b) ⟨A, B, c⟩ = s at hsum ⊢
  simp only
  set C := (s.A >>> 32) + (s.B >>> 32) with hC
  have hCval : C.toNat = s.A.toNat / base + s.B.toNat / base := by
    have hsA := s.A.toNat_lt
    have hsB := s.B.toNat_lt
    rw [hC, UInt64.toNat_add, UInt64.toNat_shiftRight, UInt64.toNat_shiftRight,
      Nat.shiftRight_eq_div_pow, Nat.shiftRight_eq_div_pow, base]
    simp only [UInt64.reduceToNat, Nat.reduceMod]
    omega
  have hcarry : (C >>> 32 ≠ 0) ↔ C.toNat / base ≠ 0 := by
    rw [Ne, ← UInt64.toNat_inj, UInt64.toNat_shiftRight, Nat.shiftRight_eq_div_pow]
    rfl
  -- the sum is the new words and a carry, times the base
  have hput : val (s.c.set m C.toUInt32) (m + 1) = val s.c m + C.toUInt32.toNat * base ^ m := by
    rw [val_succ, val_put, Words.set_self]
  have hsplit := toUInt32_add_base C
  have htotal : a.toNat * val b (m + 1) + val c (m + 1) + d0.toNat * val key.n (m + 1) =
      base * (val (s.c.set m C.toUInt32) (m + 1) + C.toNat / base * base ^ (m + 1)) := by
    calc _ = base * val s.c m + C.toNat * base ^ (m + 1) := by rw [hsum, hCval]
      _ = base * val s.c m +
          (C.toUInt32.toNat + base * (C.toNat / base)) * base ^ (m + 1) := by rw [← hsplit]
      _ = base * (val s.c m + C.toUInt32.toNat * base ^ m + C.toNat / base * base ^ (m + 1)) := by
        ring
      _ = _ := by rw [hput]
  have hmod : base * (val (s.c.set m C.toUInt32) (m + 1) + C.toNat / base * base ^ (m + 1)) ≡
      a.toNat * val b (m + 1) + val c (m + 1) [MOD val key.n (m + 1)] := by
    rw [← htotal]
    exact (Nat.modEq_iff_dvd' (Nat.le_add_right _ _)).mpr
      (by rw [Nat.add_sub_cancel_left]; exact Nat.dvd_mul_left _ _) |>.symm
  rw [hm]
  by_cases hz : C.toNat / base = 0
  · rw [if_neg (by rw [hcarry]; exact not_not.mpr hz)]
    rwa [hz, Nat.zero_mul, Nat.add_zero] at hmod
  · rw [if_pos (hcarry.mpr hz)]
    have hsub := subM_spec key (s.c.set m C.toUInt32)
    rw [hm] at hsub
    have hn := val_lt key.n (m + 1)
    -- the sum is less than the base times what the words can hold and the modulus
    have hlt : val (s.c.set m C.toUInt32) (m + 1) + C.toNat / base * base ^ (m + 1) <
        base ^ (m + 1) + val key.n (m + 1) := by
      have hab := Nat.mul_le_mul_left a.toNat (val_lt b (m + 1)).le
      have hc := val_lt c (m + 1)
      have ha : (a.toNat + 1) * base ^ (m + 1) ≤ base * base ^ (m + 1) :=
        Nat.mul_le_mul_right _ a.toNat_lt
      have hd : d0.toNat * val key.n (m + 1) ≤ base * val key.n (m + 1) :=
        Nat.mul_le_mul_right _ d0.toNat_lt.le
      rw [Nat.succ_mul] at ha
      refine Nat.lt_of_mul_lt_mul_left (a := base) ?_
      rw [← htotal, Nat.mul_add]
      omega
    have hone : C.toNat / base = 1 := by
      have htwo : C.toNat / base * base ^ (m + 1) < 2 * base ^ (m + 1) := by omega
      exact Nat.le_antisymm (Nat.lt_succ_iff.mp (Nat.lt_of_mul_lt_mul_right htwo))
        (Nat.pos_of_ne_zero hz)
    rw [hone, Nat.one_mul] at hlt hmod
    rw [if_pos (by omega)] at hsub
    calc base * val (subM key (s.c.set m C.toUInt32)) (m + 1)
        ≡ base * val (subM key (s.c.set m C.toUInt32)) (m + 1) + base * val key.n (m + 1)
          [MOD val key.n (m + 1)] := (Nat.add_mul_mod_self_right _ _ _).symm
      _ = base * (val (s.c.set m C.toUInt32) (m + 1) + base ^ (m + 1)) := by
        rw [← Nat.mul_add, hsub]
      _ ≡ _ [MOD val key.n (m + 1)] := hmod

/-- **A product** in Montgomery's form. -/
lemma montMul_spec (h : HasInverse key) (hlen : 0 < key.len) (a b : Words) :
    MontMul (val key.n key.len) (base ^ key.len) (val a key.len) (val b key.len)
      (val (montMul key a b) key.len) := by
  have hrounds := rounds (β := base) (k := key.len) (n := val key.n key.len)
    (a := fun i => (a i).toNat) (b := val b key.len)
    (V := fun i => val ((List.range i).foldl (fun c i => montMulAdd key c (a i) b) ⟨fun _ => 0⟩)
      key.len) ?_ fun i _ => ?_
  · exact hrounds
  · simp [val, value]
  · rw [List.range_succ, List.foldl_append]
    exact montMulAdd_spec h hlen _ _ b

end UefiToolkit.RsaProduct
