import Mathlib

/-!
Logs of bounded size that drop their oldest records.

A log is a list of records, oldest first; on the medium every record is followed by a
terminator. A new record pushes out as many old ones as it takes to make room.
-/

namespace UefiToolkit.RecordLog

variable {α : Type*}

/-- The cells of a list of records, each closed by the terminator `t`. -/
def cells (t : α) (rs : List (List α)) : List α := rs.flatMap (· ++ [t])

/-- The number of cells a list of records takes. -/
def size (rs : List (List α)) : ℕ := (rs.map fun r => r.length + 1).sum

@[simp] lemma size_nil : size ([] : List (List α)) = 0 := rfl
@[simp] lemma size_cons (r : List α) (rs : List (List α)) :
    size (r :: rs) = r.length + 1 + size rs := by simp [size]
@[simp] lemma size_append (rs rs' : List (List α)) : size (rs ++ rs') = size rs + size rs' := by
  simp [size]

@[simp] lemma cells_nil (t : α) : cells t [] = [] := rfl
lemma cells_cons (t : α) (r : List α) (rs : List (List α)) :
    cells t (r :: rs) = r ++ t :: cells t rs := by simp [cells]
lemma cells_append (t : α) (rs rs' : List (List α)) :
    cells t (rs ++ rs') = cells t rs ++ cells t rs' := by simp [cells]

@[simp] lemma cells_length (t : α) (rs : List (List α)) : (cells t rs).length = size rs := by
  induction rs with
  | nil => rfl
  | cons r rs ih => rw [cells_cons, size_cons, List.length_append, List.length_cons, ih]; omega

lemma cells_getLast? (t : α) {rs : List (List α)} (h : 0 < size rs) :
    (cells t rs).getLast? = some t := by
  rcases rs.eq_nil_or_concat with rfl | ⟨rs, r, rfl⟩
  · cases h
  · rw [List.concat_eq_append, cells_append, cells_cons, cells_nil, ← List.append_assoc,
      List.getLast?_concat]

/-- Cells that end with a terminator are those of some records. -/
lemma exists_cells (t : α) (l : List α) (h : l = [] ∨ l.getLast? = some t) :
    ∃ rs, cells t rs = l ∧ ∀ r ∈ rs, t ∉ r := by
  classical
  induction l with
  | nil => exact ⟨[], rfl, by simp⟩
  | cons a l ih =>
    have hlast : (a :: l).getLast? = some t := by simpa using h
    by_cases hl : l = []
    · subst hl
      obtain rfl : a = t := by simpa using hlast
      exact ⟨[[]], rfl, by simp⟩
    obtain ⟨rs, hrs, hfree⟩ := ih (Or.inr (by rwa [List.getLast?_cons_of_ne_nil hl] at hlast))
    by_cases ha : a = t
    · subst ha
      exact ⟨[] :: rs, by rw [cells_cons, hrs]; rfl, by simpa using hfree⟩
    · -- the cell joins the first record
      cases rs with
      | nil => exact absurd hrs.symm hl
      | cons r rs =>
        refine ⟨(a :: r) :: rs, by rw [cells_cons, List.cons_append, ← cells_cons, hrs], ?_⟩
        intro x hx
        rcases List.mem_cons.mp hx with rfl | hx
        · intro hm
          rcases List.mem_cons.mp hm with rfl | hm
          · exact ha rfl
          · exact hfree r (by simp) hm
        · exact hfree x (by simp [hx])

/-- What is left of a log once the oldest records made room for `need` more cells. -/
def makeRoom (cap need : ℕ) : List (List α) → List (List α)
  | [] => []
  | r :: rs => if size (r :: rs) + need ≤ cap then r :: rs else makeRoom cap need rs

/-- The log after one more record. -/
def push (cap : ℕ) (rs : List (List α)) (r : List α) : List (List α) :=
  makeRoom cap (r.length + 1) rs ++ [r]

lemma makeRoom_of_fits {cap need : ℕ} {rs : List (List α)} (h : size rs + need ≤ cap) :
    makeRoom cap need rs = rs := by
  cases rs with
  | nil => rfl
  | cons r rs => simp only [makeRoom, if_pos h]

lemma makeRoom_of_full {cap need : ℕ} {r : List α} {rs : List (List α)}
    (h : cap < size (r :: rs) + need) : makeRoom cap need (r :: rs) = makeRoom cap need rs := by
  simp only [makeRoom, if_neg (by omega : ¬ size (r :: rs) + need ≤ cap)]

/-- Room is made whenever the record can fit at all. -/
lemma makeRoom_fits {cap : ℕ} (need : ℕ) (h : need ≤ cap) (rs : List (List α)) :
    size (makeRoom cap need rs) + need ≤ cap := by
  induction rs with
  | nil => simpa [makeRoom] using h
  | cons r rs ih =>
    unfold makeRoom
    split_ifs with hfit
    · exact hfit
    · exact ih

/-- Records go whole, oldest first, and no more of them than needed. -/
lemma makeRoom_eq_drop (cap need : ℕ) (rs : List (List α)) :
    ∃ k, makeRoom cap need rs = rs.drop k ∧ ∀ j < k, cap < size (rs.drop j) + need := by
  induction rs with
  | nil => exact ⟨0, rfl, by omega⟩
  | cons r rs ih =>
    by_cases hfit : size (r :: rs) + need ≤ cap
    · exact ⟨0, makeRoom_of_fits hfit, by omega⟩
    · obtain ⟨k, hk, hmin⟩ := ih
      refine ⟨k + 1, by rw [makeRoom_of_full (by omega), hk]; rfl, fun j hj => ?_⟩
      cases j with
      | zero => simp only [List.drop_zero]; omega
      | succ j => exact hmin j (by omega)

lemma makeRoom_suffix (cap need : ℕ) (rs : List (List α)) : makeRoom cap need rs <:+ rs := by
  obtain ⟨k, hk, -⟩ := makeRoom_eq_drop cap need rs
  rw [hk]; exact List.drop_suffix k rs

/-- What a log holds is the end of what was pushed. -/
lemma foldl_push_suffix (cap : ℕ) (rs rs' : List (List α)) :
    rs'.foldl (push cap) rs <:+ rs ++ rs' := by
  induction rs' generalizing rs with
  | nil => simp
  | cons r rs' ih =>
    refine (ih (push cap rs r)).trans ?_
    obtain ⟨p, hp⟩ := makeRoom_suffix cap (r.length + 1) rs
    refine ⟨p, ?_⟩
    unfold push
    rw [List.append_assoc, ← List.append_assoc p, hp]; simp

end UefiToolkit.RecordLog
