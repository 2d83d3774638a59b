import Mathlib

/-!
Computations that may fail with an error, or fault: an access outside of what there is, or a
division by zero, after which nothing is known.
-/

namespace UefiToolkit.Faults

variable {ε α β : Type}

/-- The missing error is the fault. -/
abbrev Run (ε α : Type) := Except (Option ε) α

def fault : Run ε α := .error none

def fail (e : ε) : Run ε α := .error (some e)

/-- A value that can be had only under a condition. -/
def need (p : Prop) [Decidable p] (a : α) : Run ε α := if p then .ok a else fault

/-- A computation that goes on only under a condition. -/
def check (e : ε) (p : Prop) [Decidable p] : Run ε Unit := if p then .ok () else fail e

def Safe (x : Run ε α) : Prop := x ≠ fault

@[simp] lemma safe_ok (a : α) : Safe (.ok a : Run ε α) := nofun

@[simp] lemma safe_pure (a : α) : Safe (pure a : Run ε α) := nofun

@[simp] lemma safe_fail (e : ε) : Safe (fail e : Run ε α) := nofun

/-- **The rule of composition**: what follows is safe from every value that comes. -/
theorem safe_bind {x : Run ε α} {f : α → Run ε β} :
    Safe (x >>= f) ↔ Safe x ∧ ∀ a, x = .ok a → Safe (f a) := by
  rcases x with e | a
  · cases e with
    | none => exact ⟨fun h => absurd rfl h, fun h => absurd rfl h.1⟩
    | some e => exact ⟨fun _ => ⟨nofun, nofun⟩, fun _ => nofun⟩
  · exact ⟨fun h => ⟨safe_ok a, fun b hb => by cases hb; exact h⟩, fun h => h.2 a rfl⟩

@[simp] lemma ok_bind (a : α) (f : α → Run ε β) : (.ok a >>= f) = f a := rfl

lemma need_of {p : Prop} [Decidable p] (h : p) (a : α) : (need p a : Run ε α) = .ok a := if_pos h

lemma bind_ok_iff {x : Run ε α} {f : α → Run ε β} {b : β} :
    (x >>= f) = .ok b ↔ ∃ a, x = .ok a ∧ f a = .ok b := by
  rcases x with e | a
  · exact ⟨nofun, fun ⟨_, h, _⟩ => by cases h⟩
  · exact ⟨fun h => ⟨a, rfl, h⟩, fun ⟨_, h, h'⟩ => by cases h; exact h'⟩

section Conditions

variable {p : Prop} [Decidable p] {a : α} {b : β} {e : ε} {u : Unit}

@[simp] lemma safe_need : Safe (need p a : Run ε α) ↔ p := by
  unfold need
  split_ifs with h
  · exact ⟨fun _ => h, fun _ => safe_ok a⟩
  · exact ⟨fun hs => absurd rfl hs, fun hp => absurd hp h⟩

lemma need_ok_iff {a' : α} : (need p a : Run ε α) = .ok a' ↔ p ∧ a = a' := by
  unfold need
  split_ifs with h
  · rw [Except.ok.injEq]
    exact ⟨fun hab => ⟨h, hab⟩, fun hab => hab.2⟩
  · exact ⟨nofun, fun hp => absurd hp.1 h⟩

@[simp] lemma safe_check : Safe (check e p) := by
  unfold check
  split_ifs
  · exact safe_ok ()
  · exact safe_fail e

@[simp] lemma check_ok_iff : check e p = .ok u ↔ p := by
  unfold check
  split_ifs with h
  · exact ⟨fun _ => h, fun _ => rfl⟩
  · exact ⟨nofun, fun hp => absurd hp h⟩

@[simp] lemma safe_need_bind {f : α → Run ε β} : Safe (need p a >>= f) ↔ p ∧ Safe (f a) := by
  rw [safe_bind, safe_need]
  refine and_congr_right fun hp => ⟨fun h => h a (need_ok_iff.mpr ⟨hp, rfl⟩), ?_⟩
  rintro h a' ha
  rwa [← (need_ok_iff.mp ha).2]

@[simp] lemma need_bind_ok_iff {f : α → Run ε β} :
    (need p a >>= f) = .ok b ↔ p ∧ f a = .ok b := by
  simp only [bind_ok_iff, need_ok_iff, and_assoc, exists_and_left, exists_eq_left']

@[simp] lemma safe_check_bind {f : Unit → Run ε β} :
    Safe (check e p >>= f) ↔ (p → Safe (f ())) := by
  rw [safe_bind]
  exact ⟨fun h hp => h.2 () (check_ok_iff.mpr hp),
    fun h => ⟨safe_check, fun _ hu => h (check_ok_iff.mp hu)⟩⟩

@[simp] lemma check_bind_ok_iff {f : Unit → Run ε β} :
    (check e p >>= f) = .ok b ↔ p ∧ f () = .ok b := by
  rw [bind_ok_iff]
  exact ⟨fun ⟨_, hu, hf⟩ => ⟨check_ok_iff.mp hu, hf⟩, fun ⟨hp, hf⟩ => ⟨(), check_ok_iff.mpr hp, hf⟩⟩

end Conditions

end UefiToolkit.Faults
