import Mathlib

/-!
Lists kept in the order of a comparison.

A comparison answers a negative number, zero or a positive number; values that compare as zero
count as the same.
-/

namespace UefiToolkit.Collate

variable {α β : Type*}

/-- The comparison orders all values, up to those that compare as zero. -/
structure TotalPreorder (coll : α → α → ℤ) : Prop where
  swap : ∀ a b, 0 < coll a b ↔ coll b a < 0
  trans : ∀ a b c, coll a b ≤ 0 → coll b c ≤ 0 → coll a c ≤ 0

namespace TotalPreorder

variable {coll : α → α → ℤ} (h : TotalPreorder coll) {a b c : α}
include h

lemma refl (a : α) : coll a a = 0 := by
  have := h.swap a a
  omega

lemma symm (hab : coll a b = 0) : coll b a = 0 := by
  have := h.swap a b
  have := h.swap b a
  omega

lemma pos_iff : coll a b < 0 ↔ 0 < coll b a := (h.swap b a).symm

lemma total (a b : α) : coll a b ≤ 0 ∨ coll b a ≤ 0 := by
  have := h.swap a b
  omega

/-- What compares as zero is on the same side of every other value. -/
lemma neg_of_eq_of_neg (hab : coll a b = 0) (hbc : coll b c < 0) : coll a c < 0 := by
  have hle := h.trans a b c hab.le hbc.le
  rcases lt_or_eq_of_le hle with hlt | heq
  · exact hlt
  · have := h.trans c a b (h.symm heq).le hab.le
    have := h.pos_iff (a := b) (b := c)
    omega

lemma eq_trans (hab : coll a b = 0) (hbc : coll b c = 0) : coll a c = 0 := by
  have hle := h.trans a b c hab.le hbc.le
  have hge := h.trans c b a (h.symm hbc).le (h.symm hab).le
  have := h.swap a c
  have := h.swap c a
  omega

end TotalPreorder

/-- Values compared through a linear order. -/
def compareBy {γ : Type*} [LinearOrder γ] (f : α → γ) (a b : α) : ℤ :=
  if f a < f b then -1 else if f b < f a then 1 else 0

lemma compareBy_totalPreorder {γ : Type*} [LinearOrder γ] (f : α → γ) :
    TotalPreorder (compareBy f) where
  swap a b := by
    unfold compareBy
    rcases lt_trichotomy (f a) (f b) with h | h | h
    · simp [h, h.not_gt]
    · simp [h]
    · simp [h, h.not_gt]
  trans a b c := by
    have hle : ∀ x y : α, compareBy f x y ≤ 0 ↔ f x ≤ f y := by
      intro x y
      unfold compareBy
      rcases lt_trichotomy (f x) (f y) with h | h | h
      · simp [h, h.le]
      · simp [h]
      · simp [h, h.not_gt]
    rw [hle, hle, hle]
    exact le_trans

section Lists

variable {coll : α → α → ℤ} {key : β → α}

/-- Strictly ascending by key. -/
def Ascending (coll : α → α → ℤ) (key : β → α) (l : List β) : Prop :=
  l.Pairwise fun x y => coll (key x) (key y) < 0

/-- `x` may stand before `y`. -/
def Before (coll : α → α → ℤ) (key : β → α) (x y : β) : Prop := coll (key x) (key y) ≤ 0

instance (coll : α → α → ℤ) (key : β → α) : DecidableRel (Before coll key) := fun x y =>
  inferInstanceAs (Decidable (coll (key x) (key y) ≤ 0))

/-- The members whose key compares with `k` as zero. -/
def sameKey (coll : α → α → ℤ) (key : β → α) (k : α) (x : β) : Bool :=
  decide (coll k (key x) = 0)

/-- A value whose key is new is put in its place. -/
lemma Ascending.orderedInsert (h : TotalPreorder coll) {l : List β} (hl : Ascending coll key l)
    {x : β} (hnew : ∀ y ∈ l, coll (key x) (key y) ≠ 0) :
    Ascending coll key (l.orderedInsert (Before coll key) x) := by
  induction l with
  | nil => exact List.pairwise_singleton _ x
  | cons y l ih =>
    obtain ⟨hy, hl⟩ := List.pairwise_cons.mp hl
    have hne := hnew y List.mem_cons_self
    rw [List.orderedInsert_cons]
    split_ifs with hxy
    · have hlt : coll (key x) (key y) < 0 := lt_of_le_of_ne hxy hne
      refine List.pairwise_cons.mpr ⟨fun z hz => ?_, List.pairwise_cons.mpr ⟨hy, hl⟩⟩
      rcases List.mem_cons.mp hz with rfl | hz
      · exact hlt
      · exact lt_of_le_of_ne (h.trans _ _ _ hlt.le (hy z hz).le)
          (hnew z (List.mem_cons_of_mem y hz))
    · refine List.pairwise_cons.mpr ⟨fun z hz => ?_, ih hl fun z hz =>
        hnew z (List.mem_cons_of_mem y hz)⟩
      rcases (List.mem_orderedInsert _).mp hz with rfl | hz
      · have hpos : 0 < coll (key z) (key y) := not_le.mp hxy
        exact (h.swap _ _).mp hpos
      · exact hy z hz

/-- A key is found at its only member. -/
lemma Ascending.find_same (h : TotalPreorder coll) {l : List β} (hl : Ascending coll key l)
    {k : α} {x : β} (hx : x ∈ l) (hk : coll k (key x) = 0) :
    l.find? (sameKey coll key k) = some x := by
  induction l with
  | nil => cases hx
  | cons y l ih =>
    obtain ⟨hy, hl⟩ := List.pairwise_cons.mp hl
    rcases List.mem_cons.mp hx with rfl | hx
    · rw [List.find?_cons_of_pos (by simpa [sameKey] using hk)]
    · have hlt := hy x hx
      have hne : coll k (key y) ≠ 0 := fun heq => by
        have := h.neg_of_eq_of_neg heq hlt
        omega
      rw [List.find?_cons_of_neg (by simpa [sameKey] using hne)]
      exact ih hl hx

lemma eq_toList_of_perm {l : List β} {o : Option β} (h : l.Perm o.toList) : l = o.toList := by
  cases o with
  | none => exact List.perm_nil.mp h
  | some x => exact List.perm_singleton.mp h

/-- Insertion adds a member to those of its own key, and to no others. -/
lemma filter_orderedInsert (h : TotalPreorder coll) {l : List β} {x : β} {o : Option β} {k : α}
    (hl : l.filter (sameKey coll key k) = o.toList)
    (hnew : ∀ y ∈ l, coll (key x) (key y) ≠ 0) :
    (l.orderedInsert (Before coll key) x).filter (sameKey coll key k) =
      (if coll k (key x) = 0 then some x else o).toList := by
  refine eq_toList_of_perm (((List.perm_orderedInsert _ x l).filter _).trans ?_)
  split_ifs with hk
  · have hnone : l.filter (sameKey coll key k) = [] := by
      refine List.filter_eq_nil_iff.mpr fun y hy hsame => hnew y hy ?_
      exact h.eq_trans (h.symm hk) (by simpa [sameKey] using hsame)
    rw [List.filter_cons_of_pos (by simpa [sameKey] using hk), hnone]
    exact List.Perm.refl _
  · rw [List.filter_cons_of_neg (by simpa [sameKey] using hk), hl]

end Lists

end UefiToolkit.Collate
