import Mathlib

/-!
Runs cut short: a list of events changes a state one by one, and the run may be lost from any
point of it on.
-/

namespace UefiToolkit.Cuts

variable {μ ι : Type*} {apply : μ → ι → μ} {I J : μ → Prop} {m : μ} {l l' : List ι}

/-- `I` holds wherever the events are cut off. -/
def AtEveryCut (apply : μ → ι → μ) (I : μ → Prop) (m : μ) (l : List ι) : Prop :=
  ∀ p, p <+: l → I (p.foldl apply m)

lemma AtEveryCut.start (h : AtEveryCut apply I m l) : I m := h [] List.nil_prefix

lemma AtEveryCut.all (h : AtEveryCut apply I m l) : I (l.foldl apply m) := h l List.prefix_rfl

lemma atEveryCut_nil : AtEveryCut apply I m [] ↔ I m := by
  refine ⟨AtEveryCut.start, fun h p hp => ?_⟩
  rw [List.prefix_nil.mp hp]
  exact h

lemma atEveryCut_cons {x : ι} :
    AtEveryCut apply I m (x :: l) ↔ I m ∧ AtEveryCut apply I (apply m x) l := by
  constructor
  · refine fun h => ⟨h.start, fun p hp => ?_⟩
    exact h (x :: p) (List.cons_prefix_cons.mpr ⟨rfl, hp⟩)
  · rintro ⟨hm, h⟩ p hp
    rcases List.prefix_cons_iff.mp hp with rfl | ⟨t, rfl, ht⟩
    · exact hm
    · exact h t ht

lemma atEveryCut_append : AtEveryCut apply I m (l ++ l') ↔
    AtEveryCut apply I m l ∧ AtEveryCut apply I (l.foldl apply m) l' := by
  induction l generalizing m with
  | nil =>
    rw [List.nil_append, atEveryCut_nil]
    exact ⟨fun h => ⟨h.start, h⟩, And.right⟩
  | cons x l ih => rw [List.cons_append, atEveryCut_cons, ih, atEveryCut_cons, and_assoc]; rfl

/-- Events that all keep `J`. -/
lemma foldl_preserves (hl : ∀ x ∈ l, ∀ m, J m → J (apply m x)) (hm : J m) :
    J (l.foldl apply m) := by
  induction l generalizing m with
  | nil => exact hm
  | cons x l ih => exact ih (fun y hy => hl y (by simp [hy])) (hl x (by simp) m hm)

lemma atEveryCut_of_preserves (hl : ∀ x ∈ l, ∀ m, J m → J (apply m x)) (hJ : ∀ m, J m → I m)
    (hm : J m) : AtEveryCut apply I m l :=
  fun _ hp => hJ _ (foldl_preserves (fun x hx => hl x (hp.subset hx)) hm)

/-- Events without effect can be left out of sight. -/
lemma foldl_filter {q : ι → Bool} (hq : ∀ x ∈ l, q x = false → ∀ m, apply m x = m) :
    (l.filter q).foldl apply m = l.foldl apply m := by
  induction l generalizing m with
  | nil => rfl
  | cons x l ih =>
    have hl := fun y hy => hq y (List.mem_cons_of_mem x hy)
    rcases hx : q x with _ | _
    · rw [List.filter_cons_of_neg (by simp [hx]), ih hl, List.foldl_cons, hq x (by simp) hx]
    · rw [List.filter_cons_of_pos hx, List.foldl_cons, ih hl, List.foldl_cons]

lemma atEveryCut_filter {q : ι → Bool} (hq : ∀ x ∈ l, q x = false → ∀ m, apply m x = m) :
    AtEveryCut apply I m (l.filter q) ↔ AtEveryCut apply I m l := by
  constructor
  · intro h p hp
    have hp' := h (p.filter q) (hp.filter q)
    rwa [foldl_filter fun x hx => hq x (hp.subset hx)] at hp'
  · intro h p hp
    obtain ⟨r, hr, rfl⟩ := List.prefix_filter_iff.mp hp
    rw [foldl_filter fun x hx => hq x (hr.subset hx)]
    exact h r hr

end UefiToolkit.Cuts
