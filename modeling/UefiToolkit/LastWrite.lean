import Mathlib

/-!
A state that is updated step by step: what a part of it holds is what the last step that sets
the part has stored.
-/

namespace UefiToolkit.LastWrite

variable {σ ι β γ : Type*}

/-- The last that is set in a list of steps. -/
def lastSet (sets : ι → Option β) (l : List ι) : Option β := (l.filterMap sets).getLast?

lemma lastSet_snoc (sets : ι → Option β) (l : List ι) (i : ι) :
    lastSet sets (l ++ [i]) = (sets i).or (lastSet sets l) := by
  unfold lastSet
  rw [List.filterMap_append]
  cases h : sets i with
  | none => simp [h]
  | some b => simp [h]

lemma lastSet_map (f : β → γ) (sets : ι → Option β) (l : List ι) :
    lastSet (fun i => (sets i).map f) l = (lastSet sets l).map f := by
  induction l using List.reverseRecOn with
  | nil => rfl
  | append_singleton l i ih =>
    rw [lastSet_snoc, lastSet_snoc, ih]
    cases sets i <;> rfl

/-- **The last write wins**: a part that each step either sets or keeps. -/
theorem foldl_lastSet (get : σ → β) (step : σ → ι → σ) (sets : ι → Option β)
    (h : ∀ s i, get (step s i) = (sets i).getD (get s)) (s : σ) (l : List ι) :
    get (l.foldl step s) = (lastSet sets l).getD (get s) := by
  induction l using List.reverseRecOn with
  | nil => rfl
  | append_singleton l i ih =>
    rw [List.foldl_append, List.foldl_cons, List.foldl_nil, h, ih, lastSet_snoc]
    cases sets i <;> rfl

end UefiToolkit.LastWrite
