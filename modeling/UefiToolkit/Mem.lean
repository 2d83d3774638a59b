import Mathlib

/-!
Flat memories: a cell for every address, ranges of cells read and written as lists.
-/

namespace UefiToolkit.Mem

variable {α : Type*}

/-- Write one cell. -/
def put (m : ℕ → α) (a : ℕ) (v : α) : ℕ → α := fun i => if i = a then v else m i

/-- Write a list of cells from address `a` on. -/
def blit (m : ℕ → α) (a : ℕ) (l : List α) : ℕ → α :=
  fun i => if a ≤ i then (l[i - a]?).getD (m i) else m i

/-- The `n` cells from address `a` on. -/
def slice (m : ℕ → α) (a n : ℕ) : List α := (List.range n).map fun i => m (a + i)

@[simp] lemma put_self (m : ℕ → α) (a : ℕ) (v : α) : put m a v a = v := by simp [put]

lemma put_ne (m : ℕ → α) {a i : ℕ} (v : α) (h : i ≠ a) : put m a v i = m i := by simp [put, h]

lemma blit_out (m : ℕ → α) {a : ℕ} {l : List α} {i : ℕ} (h : i < a ∨ a + l.length ≤ i) :
    blit m a l i = m i := by
  unfold blit
  split_ifs with ha
  · rw [List.getElem?_eq_none (by omega)]; rfl
  · rfl

lemma blit_in (m : ℕ → α) (a : ℕ) {l : List α} {k : ℕ} (h : k < l.length) :
    blit m a l (a + k) = l[k] := by
  simp [blit, h]

@[simp] lemma blit_nil (m : ℕ → α) (a : ℕ) : blit m a [] = m :=
  funext fun i => by simp [blit]

lemma blit_append (m : ℕ → α) (a : ℕ) (l l' : List α) :
    blit (blit m a l) (a + l.length) l' = blit m a (l ++ l') := by
  funext i
  by_cases h1 : a + l.length ≤ i
  · by_cases h2 : i < a + l.length + l'.length
    · have e : i = a + l.length + (i - (a + l.length)) := by omega
      rw [e, blit_in _ _ (by omega), show a + l.length + (i - (a + l.length)) =
        a + (l.length + (i - (a + l.length))) by omega,
        blit_in _ _ (by rw [List.length_append]; omega),
        List.getElem_append_right (by omega)]
      congr 1; omega
    · rw [blit_out _ (by omega), blit_out _ (by omega),
        blit_out _ (by rw [List.length_append]; omega)]
  · rw [blit_out _ (by omega)]
    by_cases h2 : a ≤ i
    · have e : i = a + (i - a) := by omega
      rw [e, blit_in _ _ (by omega), blit_in _ _ (by rw [List.length_append]; omega),
        List.getElem_append_left (by omega)]
    · rw [blit_out _ (by omega), blit_out _ (by omega)]

lemma put_eq_blit (m : ℕ → α) (a : ℕ) (v : α) : put m a v = blit m a [v] := by
  funext i
  by_cases h : i = a
  · subst h; simp [blit]
  · rw [put_ne _ _ h, blit_out]
    simp only [List.length_singleton]; omega

@[simp] lemma slice_zero (m : ℕ → α) (a : ℕ) : slice m a 0 = [] := rfl

@[simp] lemma slice_length (m : ℕ → α) (a n : ℕ) : (slice m a n).length = n := by simp [slice]

@[simp] lemma slice_getElem (m : ℕ → α) (a n k : ℕ) (h : k < (slice m a n).length) :
    (slice m a n)[k] = m (a + k) := by
  simp [slice]

lemma slice_add (m : ℕ → α) (a n k : ℕ) :
    slice m a (n + k) = slice m a n ++ slice m (a + n) k := by
  simp only [slice, List.range_add, List.map_append, List.map_map]
  congr 1
  exact List.map_congr_left fun i _ => by simp [Nat.add_assoc]

lemma slice_succ (m : ℕ → α) (a n : ℕ) : slice m a (n + 1) = slice m a n ++ [m (a + n)] := by
  rw [slice_add]; simp [slice]

lemma slice_congr {m m' : ℕ → α} {a a' n : ℕ} (h : ∀ i < n, m (a + i) = m' (a' + i)) :
    slice m a n = slice m' a' n :=
  List.map_congr_left fun i hi => h i (List.mem_range.mp hi)

lemma slice_inj {m m' : ℕ → α} {a a' n : ℕ} (h : slice m a n = slice m' a' n) {i : ℕ}
    (hi : i < n) : m (a + i) = m' (a' + i) := by
  have hcell := congrArg (fun l : List α => l[i]?) h
  simpa [slice, hi] using hcell

lemma slice_eq_iff {m : ℕ → α} {a : ℕ} {l : List α} :
    slice m a l.length = l ↔ ∀ (i : ℕ) (h : i < l.length), m (a + i) = l[i] := by
  constructor
  · intro h i hi
    have := congrArg (fun k : List α => k[i]?) h
    simpa [List.getElem?_eq_getElem hi, slice, hi] using this
  · intro h
    exact List.ext_getElem (by simp) fun i h1 h2 => by simpa using h i h2

/-- What was written is read back. -/
lemma slice_blit (m : ℕ → α) (a : ℕ) (l : List α) : slice (blit m a l) a l.length = l :=
  slice_eq_iff.mpr fun _ h => blit_in m a h

lemma blit_slice_in (m m' : ℕ → α) (a b : ℕ) {n k : ℕ} (h : k < n) :
    blit m a (slice m' b n) (a + k) = m' (b + k) := by
  rw [blit_in m a (show k < (slice m' b n).length by rw [slice_length]; exact h), slice_getElem]

/-- A stretch of memory that is copied elsewhere is found there. -/
lemma slice_blit_slice (m m' : ℕ → α) (a b n : ℕ) :
    slice (blit m a (slice m' b n)) a n = slice m' b n := by
  have h := slice_blit m a (slice m' b n)
  rw [slice_length] at h
  exact h

/-- A range apart from the written one keeps its cells. -/
lemma slice_blit_out (m : ℕ → α) {a b n : ℕ} {l : List α} (h : b + n ≤ a ∨ a + l.length ≤ b) :
    slice (blit m a l) b n = slice m b n :=
  slice_congr fun i hi => blit_out m (by omega)

lemma slice_take (m : ℕ → α) (a : ℕ) {n k : ℕ} (h : k ≤ n) :
    (slice m a n).take k = slice m a k := by
  obtain ⟨j, rfl⟩ := Nat.exists_eq_add_of_le h
  rw [slice_add, List.take_append_of_le_length (by simp), List.take_of_length_le (by simp)]

lemma slice_drop (m : ℕ → α) (a : ℕ) {n k : ℕ} (h : k ≤ n) :
    (slice m a n).drop k = slice m (a + k) (n - k) := by
  obtain ⟨j, rfl⟩ := Nat.exists_eq_add_of_le h
  rw [slice_add, List.drop_left' (slice_length m a k), Nat.add_sub_cancel_left]

/-- A range read up to the first cell that fails a test. -/
lemma takeWhile_slice {m : ℕ → α} {a n : ℕ} {l : List α} {q : α → Bool}
    (h : slice m a l.length = l) (hq : ∀ c ∈ l, q c = true) (hend : q (m (a + l.length)) = false)
    (hn : l.length < n) : (slice m a n).takeWhile q = l := by
  obtain ⟨k, rfl⟩ := Nat.exists_eq_add_of_lt hn
  have hsplit : slice m a (l.length + k + 1) =
      l ++ m (a + l.length) :: slice m (a + (l.length + 1)) k := by
    rw [show l.length + k + 1 = l.length + 1 + k by omega, slice_add, slice_succ, h]
    simp
  rw [hsplit, List.takeWhile_append_of_pos hq, List.takeWhile_cons_of_neg (by simp [hend]),
    List.append_nil]

/-- A part of a known range. -/
lemma slice_mid {m : ℕ → α} {a n : ℕ} {l l' l'' : List α} (h : slice m a n = l ++ l' ++ l'') :
    slice m (a + l.length) l'.length = l' := by
  have hn : n = l.length + l'.length + l''.length := by
    have := congrArg List.length h
    simp only [slice_length, List.length_append] at this
    exact this
  rw [hn, slice_add, slice_add] at h
  have h1 := (List.append_inj h (by simp)).1
  exact (List.append_inj h1 (by simp)).2

/-! ### Writing some cells of a range -/

/-- Write the cells that are given, from address `a` on, and skip the others. -/
def overlay (m : ℕ → α) (a : ℕ) (l : List (Option α)) : ℕ → α :=
  fun i => if a ≤ i then (l[i - a]?).join.getD (m i) else m i

@[simp] lemma overlay_nil (m : ℕ → α) (a : ℕ) : overlay m a [] = m :=
  funext fun i => by simp [overlay]

lemma overlay_append (m : ℕ → α) (a : ℕ) (l l' : List (Option α)) :
    overlay (overlay m a l) (a + l.length) l' = overlay m a (l ++ l') := by
  funext i
  unfold overlay
  by_cases h1 : a + l.length ≤ i
  · have h2 : a ≤ i := by omega
    rw [if_pos h1, if_pos h2, if_pos h2, List.getElem?_append_right (by omega),
      List.getElem?_eq_none (by omega : l.length ≤ i - a)]
    rw [show i - a - l.length = i - (a + l.length) by omega]
    rfl
  · rw [if_neg h1]
    by_cases h2 : a ≤ i
    · rw [if_pos h2, if_pos h2, List.getElem?_append_left (by omega)]
    · rw [if_neg h2, if_neg h2]

lemma overlay_some (m : ℕ → α) (a : ℕ) (l : List α) : overlay m a (l.map some) = blit m a l := by
  funext i
  unfold overlay blit
  split_ifs
  · rw [List.getElem?_map]
    cases l[i - a]? <;> rfl
  · rfl

lemma overlay_none (m : ℕ → α) (a n : ℕ) : overlay m a (List.replicate n none) = m := by
  funext i
  unfold overlay
  split_ifs
  · rw [List.getElem?_replicate]
    split_ifs <;> rfl
  · rfl

/-! ### Changes confined to a range -/

/-- `m'` differs from `m` inside `[lo, hi)` only. -/
def Confined (lo hi : ℕ) (m m' : ℕ → α) : Prop := ∀ i, i < lo ∨ hi ≤ i → m' i = m i

variable {lo hi : ℕ} {m m' m'' : ℕ → α}

lemma Confined.refl (lo hi : ℕ) (m : ℕ → α) : Confined lo hi m m := fun _ _ => rfl

lemma Confined.trans (h : Confined lo hi m m') (h' : Confined lo hi m' m'') :
    Confined lo hi m m'' := fun i hi => (h' i hi).trans (h i hi)

lemma Confined.mono {lo' hi' : ℕ} (h : Confined lo hi m m') (hlo : lo' ≤ lo) (hhi : hi ≤ hi') :
    Confined lo' hi' m m' := fun i hi => h i (by omega)

lemma Confined.slice (h : Confined lo hi m m') {a n : ℕ} (ha : a + n ≤ lo ∨ hi ≤ a) :
    slice m' a n = Mem.slice m a n := slice_congr fun i hi => h (a + i) (by omega)

lemma Confined.put (h : Confined lo hi m m') {a : ℕ} (ha : lo ≤ a ∧ a < hi) (v : α) :
    Confined lo hi m (put m' a v) :=
  h.trans fun _ _ => put_ne _ _ (by omega)

lemma Confined.blit (h : Confined lo hi m m') {a : ℕ} {l : List α}
    (ha : lo ≤ a ∧ a + l.length ≤ hi) : Confined lo hi m (blit m' a l) :=
  h.trans fun _ _ => blit_out _ (by omega)

/-- A range written back undoes the changes in it. -/
lemma Confined.blit_slice {a n : ℕ} (h : Confined a (a + n) m m') :
    Mem.blit m' a (Mem.slice m a n) = m := by
  funext i
  by_cases hi : i < a ∨ a + n ≤ i
  · rw [blit_out _ (by simpa using hi), h i hi]
  · obtain ⟨k, rfl⟩ := Nat.exists_eq_add_of_le (show a ≤ i by omega)
    rw [blit_in _ _ (by rw [slice_length]; omega), slice_getElem]

end UefiToolkit.Mem
