import Mathlib

/-!
Values that blocks of a fixed size are absorbed into, one block after the other. Of a stream that
comes in pieces, what does not fill a block waits for the next piece.
-/

namespace UefiToolkit.Chain

variable {α H : Type*} (compress : H → List α → H) (B : ℕ)

/-- Absorb the full blocks of a list. -/
def absorb (h : H) (l : List α) : H :=
  (List.range (l.length / B)).foldl (fun h i => compress h ((l.drop (B * i)).take B)) h

/-- What does not fill a block. -/
def pending (l : List α) : List α := l.drop (B * (l.length / B))

variable {compress B}

@[simp] lemma absorb_nil (h : H) : absorb compress B h [] = h := by simp [absorb]

lemma pending_length (l : List α) : (pending B l).length = l.length % B := by
  have := Nat.div_add_mod l.length B
  rw [pending, List.length_drop]
  omega

lemma pending_of_lt {l : List α} (h : l.length < B) : pending B l = l := by
  rw [pending, Nat.div_eq_of_lt h, Nat.mul_zero, List.drop_zero]

lemma pending_of_dvd {l : List α} (h : B ∣ l.length) : pending B l = [] := by
  rw [← List.length_eq_zero_iff, pending_length, Nat.mod_eq_zero_of_dvd h]

lemma absorb_of_lt {h : H} {l : List α} (hl : l.length < B) : absorb compress B h l = h := by
  rw [absorb, Nat.div_eq_of_lt hl]
  rfl

/-- Full blocks are absorbed before what follows them. -/
lemma absorb_append (hB : 0 < B) (h : H) {l : List α} (hl : B ∣ l.length) (l' : List α) :
    absorb compress B h (l ++ l') = absorb compress B (absorb compress B h l) l' := by
  obtain ⟨n, hn⟩ := hl
  have hcount : (l ++ l').length / B = n + l'.length / B := by
    rw [List.length_append, hn, Nat.mul_add_div hB]
  have hfirst : l.length / B = n := by rw [hn, Nat.mul_div_cancel_left _ hB]
  unfold absorb
  rw [hcount, hfirst, List.range_add, List.foldl_append, List.foldl_map]
  have hblock : ∀ i < n, ((l ++ l').drop (B * i)).take B = (l.drop (B * i)).take B := by
    intro i hi
    have hle : B * (i + 1) ≤ B * n := Nat.mul_le_mul_left B hi
    rw [Nat.mul_succ] at hle
    rw [List.drop_append_of_le_length (by omega), List.take_append_of_le_length (by simp; omega)]
  have hrest : ∀ i, ((l ++ l').drop (B * (n + i))).take B = (l'.drop (B * i)).take B := by
    intro i
    have hfull : l.length ≤ B * (n + i) := by
      rw [hn]
      exact Nat.mul_le_mul_left B (by omega)
    rw [List.drop_append, List.drop_eq_nil_of_le hfull, List.nil_append, hn, Nat.mul_add,
      Nat.add_sub_cancel_left]
  simp only [hrest]
  congr 1
  exact List.foldl_ext _ _ _ fun h i hi => by rw [hblock i (List.mem_range.mp hi)]

/-- A list is its full blocks and what waits. -/
lemma blocks_append_pending (l : List α) :
    ∃ full, l = full ++ pending B l ∧ B ∣ full.length := by
  refine ⟨l.take (B * (l.length / B)), (List.take_append_drop _ l).symm, ?_⟩
  rw [List.length_take, Nat.min_eq_left (Nat.mul_div_le _ _)]
  exact Nat.dvd_mul_right _ _

lemma pending_append (hB : 0 < B) (l l' : List α) :
    pending B (l ++ l') = pending B (pending B l ++ l') := by
  obtain ⟨full, hl, n, hn⟩ := blocks_append_pending (B := B) l
  conv_lhs => rw [hl, List.append_assoc]
  generalize pending B l ++ l' = r
  rw [pending, pending, List.length_append, hn, Nat.mul_add_div hB, Nat.mul_add, ← hn,
    List.drop_append]
  simp

lemma absorb_pending (hB : 0 < B) (h : H) (l l' : List α) :
    absorb compress B h (l ++ l') =
      absorb compress B (absorb compress B h l) (pending B l ++ l') := by
  obtain ⟨full, hl, hfull⟩ := blocks_append_pending (B := B) l
  have hlt : (pending B l).length < B := by
    rw [pending_length]
    exact Nat.mod_lt _ hB
  have habsorb : absorb compress B h l = absorb compress B h full := by
    conv_lhs => rw [hl]
    rw [absorb_append hB h hfull, absorb_of_lt hlt]
  conv_lhs => rw [hl, List.append_assoc]
  rw [absorb_append hB h hfull, habsorb]

end UefiToolkit.Chain
