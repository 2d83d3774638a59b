import Mathlib

/-!
A pool that blocks are allocated from and freed into, and the books of a piece of code that
allocates and frees.

A block is named by a number that no other allocation gets, so that a freed block is never taken
for a later one. The pool keeps a log of what was allocated and what was freed.
-/

namespace UefiToolkit.Allocator

variable {β : Type*}

structure Pool (β : Type*) where
  blocks : ℕ → Option β
  next : ℕ
  /-- The allocations tried so far, those that failed too. -/
  attempts : ℕ
  allocated : List ℕ
  freed : List (Option ℕ)
  fresh : ∀ a, next ≤ a → blocks a = none

/-- `room n` says whether the `n`-th allocation succeeds. -/
def Pool.allocate (room : ℕ → Bool) (b : β) (p : Pool β) : Option ℕ × Pool β :=
  if room p.attempts then
    (some p.next,
      { blocks := Function.update p.blocks p.next (some b)
        next := p.next + 1
        attempts := p.attempts + 1
        allocated := p.allocated ++ [p.next]
        freed := p.freed
        fresh := fun a ha => by
          rw [Function.update_of_ne (by omega), p.fresh a (by omega)] })
  else (none, { p with attempts := p.attempts + 1 })

/-- Freeing goes to the log whatever it is given, also a null pointer. -/
def Pool.free (a : Option ℕ) (p : Pool β) : Pool β :=
  match a with
  | none => { p with freed := p.freed ++ [none] }
  | some a =>
    { p with
      blocks := Function.update p.blocks a none
      freed := p.freed ++ [some a]
      fresh := fun x hx => by
        by_cases hxa : x = a
        · rw [hxa, Function.update_self]
        · rw [Function.update_of_ne hxa, p.fresh x hx] }

/-- The contents of a live block change. -/
def Pool.write (a : ℕ) (b : β) (p : Pool β) : Pool β :=
  if h : (p.blocks a).isSome then
    { p with
      blocks := Function.update p.blocks a (some b)
      fresh := fun x hx => by
        have hxa : x ≠ a := fun hxa => by
          rw [← hxa, p.fresh x hx] at h
          cases h
        rw [Function.update_of_ne hxa, p.fresh x hx] }
  else p

section Fields

variable {p : Pool β} {room : ℕ → Bool} {a x : ℕ} {b : β}

lemma Pool.allocate_some (h : room p.attempts = true) :
    ∃ p', p.allocate room b = (some p.next, p') ∧ p'.next = p.next + 1 ∧
      p'.attempts = p.attempts + 1 ∧ p'.blocks = Function.update p.blocks p.next (some b) ∧
      p'.allocated = p.allocated ++ [p.next] ∧ p'.freed = p.freed := by
  unfold Pool.allocate
  rw [if_pos h]
  exact ⟨_, rfl, rfl, rfl, rfl, rfl, rfl⟩

lemma Pool.allocate_none (h : room p.attempts = false) :
    ∃ p', p.allocate room b = (none, p') ∧ p'.next = p.next ∧ p'.attempts = p.attempts + 1 ∧
      p'.blocks = p.blocks ∧ p'.allocated = p.allocated ∧ p'.freed = p.freed := by
  unfold Pool.allocate
  rw [if_neg (by simp [h])]
  exact ⟨_, rfl, rfl, rfl, rfl, rfl, rfl⟩

lemma Pool.blocks_free_self : (p.free (some a)).blocks a = none := Function.update_self _ _ _

lemma Pool.blocks_free_of_ne (h : x ≠ a) : (p.free (some a)).blocks x = p.blocks x :=
  Function.update_of_ne h _ _

lemma Pool.blocks_write_of_ne (h : x ≠ a) : (p.write a b).blocks x = p.blocks x := by
  unfold Pool.write
  split_ifs
  · exact Function.update_of_ne h _ _
  · rfl

lemma Pool.blocks_write_self (h : p.blocks a ≠ none) : (p.write a b).blocks a = some b := by
  unfold Pool.write
  rw [dif_pos (Option.isSome_iff_ne_none.mpr h)]
  exact Function.update_self _ _ _

lemma Pool.write_log : (p.write a b).next = p.next ∧ (p.write a b).attempts = p.attempts ∧
    (p.write a b).allocated = p.allocated ∧ (p.write a b).freed = p.freed := by
  unfold Pool.write
  split_ifs <;> exact ⟨rfl, rfl, rfl, rfl⟩

end Fields

/-! ### The books -/

/-- From `p₀` to `p` nothing was touched but the blocks `own`, which were allocated on the way
and are held still; all others that were allocated were freed, each of them once, and nothing
else was. -/
structure Owns (p₀ p : Pool β) (own : List ℕ) : Prop where
  next_le : p₀.next ≤ p.next
  old : ∀ a, a ∉ own → p.blocks a = p₀.blocks a
  live : ∀ a ∈ own, p.blocks a ≠ none
  books : ∃ news gone : List ℕ, p.allocated = p₀.allocated ++ news ∧
    p.freed = p₀.freed ++ gone.map some ∧ (gone ++ own).Perm news ∧ news.Nodup ∧
    ∀ a ∈ news, p₀.next ≤ a ∧ a < p.next

/-- All that was allocated from `p₀` to `p` was freed, each block once, nothing else was, and all
the blocks are as they were. -/
structure Settled (p₀ p : Pool β) : Prop where
  blocks : p.blocks = p₀.blocks
  books : ∃ news gone : List ℕ, p.allocated = p₀.allocated ++ news ∧
    p.freed = p₀.freed ++ gone.map some ∧ gone.Perm news ∧ news.Nodup ∧
    ∀ a ∈ news, p₀.blocks a = none

namespace Owns

variable {p₀ p : Pool β} {own : List ℕ} {room : ℕ → Bool} {a : ℕ} {b : β}

lemma refl (p : Pool β) : Owns p p [] :=
  ⟨le_rfl, fun _ _ => rfl, by simp, [], [], by simp, by simp, by simp, by simp, by simp⟩

lemma nodup (h : Owns p₀ p own) : own.Nodup := by
  obtain ⟨news, gone, -, -, hperm, hnd, -⟩ := h.books
  exact ((hperm.nodup_iff).mpr hnd).of_append_right

lemma mem_range (h : Owns p₀ p own) (ha : a ∈ own) : p₀.next ≤ a ∧ a < p.next := by
  obtain ⟨news, gone, -, -, hperm, -, hrange⟩ := h.books
  exact hrange a (hperm.subset (List.mem_append_right gone ha))

lemma perm (h : Owns p₀ p own) {own' : List ℕ} (hp : own.Perm own') : Owns p₀ p own' := by
  obtain ⟨news, gone, hal, hfr, hperm, hnd, hrange⟩ := h.books
  exact ⟨h.next_le, fun x hx => h.old x fun hm => hx (hp.subset hm),
    fun x hx => h.live x (hp.symm.subset hx),
    news, gone, hal, hfr, (hp.symm.append_left gone).trans hperm, hnd, hrange⟩

lemma allocate_none (h : Owns p₀ p own) (hroom : room p.attempts = false) :
    ∃ p', p.allocate room b = (none, p') ∧ Owns p₀ p' own ∧ p'.blocks = p.blocks := by
  obtain ⟨p', hp', hnext, -, hblocks, hal, hfr⟩ := Pool.allocate_none (b := b) hroom
  refine ⟨p', hp', ⟨hnext ▸ h.next_le, ?_, ?_, ?_⟩, hblocks⟩
  · rw [hblocks]
    exact h.old
  · rw [hblocks]
    exact h.live
  · rw [hal, hfr, hnext]
    exact h.books

lemma allocate_some (h : Owns p₀ p own) (hroom : room p.attempts = true) :
    ∃ p', p.allocate room b = (some p.next, p') ∧ Owns p₀ p' (p.next :: own) ∧
      p'.blocks = Function.update p.blocks p.next (some b) ∧ p'.attempts = p.attempts + 1 := by
  obtain ⟨p', hp', hnext, hatt, hblocks, hal, hfr⟩ := Pool.allocate_some (b := b) hroom
  obtain ⟨news, gone, hnews, hgone, hperm, hnd, hrange⟩ := h.books
  have hnle := h.next_le
  refine ⟨p', hp', ⟨by omega, fun x hx => ?_, fun x hx => ?_, news ++ [p.next], gone,
    ?_, ?_, ?_, ?_, ?_⟩, hblocks, hatt⟩
  · rw [List.mem_cons, not_or] at hx
    rw [hblocks, Function.update_of_ne hx.1, h.old x hx.2]
  · rw [hblocks]
    by_cases hxn : x = p.next
    · rw [hxn, Function.update_self]
      simp
    · rw [Function.update_of_ne hxn]
      exact h.live x ((List.mem_cons.mp hx).resolve_left hxn)
  · rw [hal, hnews, List.append_assoc]
  · rw [hfr, hgone]
  · calc (gone ++ p.next :: own).Perm (p.next :: (gone ++ own)) := List.perm_middle
      _ |>.Perm (p.next :: news) := hperm.cons _
      _ |>.Perm (news ++ [p.next]) := (List.perm_append_singleton _ _).symm
  · refine List.nodup_append.mpr ⟨hnd, List.nodup_singleton _, fun x hx y hy => ?_⟩
    have := (hrange x hx).2
    rw [List.mem_singleton.mp hy]
    omega
  · intro x hx
    rcases List.mem_append.mp hx with hx | hx
    · have := hrange x hx
      omega
    · rw [List.mem_singleton.mp hx]
      omega

/-- A block that is held may be written. -/
lemma write (h : Owns p₀ p own) (ha : a ∈ own) : Owns p₀ (p.write a b) own := by
  obtain ⟨hnext, -, hal, hfr⟩ := Pool.write_log (p := p) (a := a) (b := b)
  refine ⟨hnext ▸ h.next_le, fun x hx => ?_, fun x hx => ?_, ?_⟩
  · have hxa : x ≠ a := fun hxa => hx (hxa ▸ ha)
    rw [Pool.blocks_write_of_ne hxa, h.old x hx]
  · by_cases hxa : x = a
    · rw [hxa, Pool.blocks_write_self (h.live a ha)]
      simp
    · rw [Pool.blocks_write_of_ne hxa]
      exact h.live x hx
  · rw [hal, hfr, hnext]
    exact h.books

/-- A block that is held may be freed. -/
lemma free (h : Owns p₀ p (a :: own)) : Owns p₀ (p.free (some a)) own := by
  obtain ⟨news, gone, hal, hfr, hperm, hnd, hrange⟩ := h.books
  have hrangea := h.mem_range List.mem_cons_self
  have hnotin : a ∉ own := (List.nodup_cons.mp h.nodup).1
  -- the freed block was not there before, and is not there again
  have hgone : p₀.blocks a = none := p₀.fresh a hrangea.1
  refine ⟨h.next_le, fun x hx => ?_, fun x hx => ?_, news, gone ++ [a], hal, ?_, ?_, hnd, hrange⟩
  · by_cases hxa : x = a
    · rw [hxa, Pool.blocks_free_self, hgone]
    · rw [Pool.blocks_free_of_ne hxa, h.old x (by simp [hxa, hx])]
  · have hxa : x ≠ a := fun hxa => hnotin (hxa ▸ hx)
    rw [Pool.blocks_free_of_ne hxa]
    exact h.live x (List.mem_cons_of_mem a hx)
  · change p.freed ++ [some a] = _
    rw [hfr, List.map_append, List.append_assoc]
    rfl
  · rw [List.append_assoc]
    exact hperm

/-- **The books are settled** when nothing is held any more. -/
theorem settled (h : Owns p₀ p []) : Settled p₀ p := by
  obtain ⟨news, gone, hal, hfr, hperm, hnd, hrange⟩ := h.books
  rw [List.append_nil] at hperm
  exact ⟨funext fun a => h.old a List.not_mem_nil, news, gone, hal, hfr, hperm, hnd,
    fun a ha => p₀.fresh a (hrange a ha).1⟩

end Owns

end UefiToolkit.Allocator
