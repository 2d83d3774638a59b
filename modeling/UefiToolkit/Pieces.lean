import UefiToolkit.Mem

/-!
Laying pieces of data into a flat memory.

Each piece stands at an address of its own. Pieces that share no cell are laid to the same
memory in whatever order.
-/

namespace UefiToolkit.Pieces

open UefiToolkit.Mem

variable {α : Type*}

structure Piece (α : Type*) where
  addr : ℕ
  data : List α

def Piece.Covers (p : Piece α) (i : ℕ) : Prop := p.addr ≤ i ∧ i < p.addr + p.data.length

def Piece.Apart (p q : Piece α) : Prop := ∀ i, ¬ (p.Covers i ∧ q.Covers i)

/-- One past the highest cell of a piece; a piece without data has none. -/
def Piece.stop (p : Piece α) : ℕ := if p.data = [] then 0 else p.addr + p.data.length

/-- One past the highest cell of all. -/
def top (ps : List (Piece α)) : ℕ := (ps.map Piece.stop).foldr max 0

/-- Lay the pieces, the first one first. -/
def lay (m : ℕ → α) (ps : List (Piece α)) : ℕ → α :=
  ps.foldl (fun m p => blit m p.addr p.data) m

lemma Piece.Apart.symm {p q : Piece α} (h : p.Apart q) : q.Apart p :=
  fun i hi => h i hi.symm

lemma Piece.Covers.lt_stop {p : Piece α} {i : ℕ} (h : p.Covers i) : i < p.stop := by
  have hne : p.data ≠ [] := fun h0 => by
    have := h.2
    rw [h0, List.length_nil] at this
    have := h.1
    omega
  rw [Piece.stop, if_neg hne]
  exact h.2

/-! ### The end -/

lemma stop_le_top {ps : List (Piece α)} {p : Piece α} (h : p ∈ ps) : p.stop ≤ top ps := by
  induction ps with
  | nil => simp at h
  | cons q ps ih =>
    have hcons : top (q :: ps) = max q.stop (top ps) := rfl
    rw [hcons]
    rcases List.mem_cons.mp h with rfl | h
    · exact le_max_left _ _
    · exact (ih h).trans (le_max_right _ _)

lemma top_le {ps : List (Piece α)} {n : ℕ} (h : ∀ p ∈ ps, p.stop ≤ n) : top ps ≤ n := by
  induction ps with
  | nil => exact Nat.zero_le n
  | cons q ps ih =>
    exact max_le (h q (by simp)) (ih fun p hp => h p (by simp [hp]))

lemma top_perm {ps qs : List (Piece α)} (h : ps.Perm qs) : top ps = top qs :=
  le_antisymm (top_le fun _ hp => stop_le_top (h.mem_iff.mp hp))
    (top_le fun _ hp => stop_le_top (h.mem_iff.mpr hp))

/-! ### The cells -/

@[simp] lemma lay_cons (m : ℕ → α) (p : Piece α) (ps : List (Piece α)) :
    lay m (p :: ps) = lay (blit m p.addr p.data) ps := rfl

lemma blit_uncovered (m : ℕ → α) {p : Piece α} {i : ℕ} (h : ¬ p.Covers i) :
    blit m p.addr p.data i = m i :=
  blit_out m (by unfold Piece.Covers at h; omega)

/-- A cell that no piece covers is kept. -/
lemma lay_out (m : ℕ → α) {ps : List (Piece α)} {i : ℕ} (h : ∀ p ∈ ps, ¬ p.Covers i) :
    lay m ps i = m i := by
  induction ps generalizing m with
  | nil => rfl
  | cons p ps ih =>
    rw [lay_cons, ih _ fun q hq => h q (by simp [hq]), blit_uncovered m (h p (by simp))]

/-- Of pieces that share no cell each one is found whole. -/
lemma lay_in (m : ℕ → α) {ps : List (Piece α)} (hapart : ps.Pairwise Piece.Apart)
    {p : Piece α} (hp : p ∈ ps) : slice (lay m ps) p.addr p.data.length = p.data := by
  induction ps generalizing m with
  | nil => simp at hp
  | cons q ps ih =>
    obtain ⟨hq, hps⟩ := List.pairwise_cons.mp hapart
    rw [lay_cons]
    rcases List.mem_cons.mp hp with rfl | hp
    · have hkept : slice (lay (blit m p.addr p.data) ps) p.addr p.data.length =
          slice (blit m p.addr p.data) p.addr p.data.length :=
        slice_congr fun i hi => lay_out _ fun r hr hc =>
          hq r hr (p.addr + i) ⟨⟨Nat.le_add_right _ _, by omega⟩, hc⟩
      rw [hkept, slice_blit]
    · exact ih _ hps hp

/-- A cell of such a piece does not depend on what was there before. -/
lemma lay_covered (m : ℕ → α) {ps : List (Piece α)} (hapart : ps.Pairwise Piece.Apart)
    {p : Piece α} (hp : p ∈ ps) {i : ℕ} (hc : p.Covers i) :
    p.data[i - p.addr]? = some (lay m ps i) := by
  obtain ⟨hlo, hhi⟩ := hc
  obtain ⟨k, rfl⟩ := Nat.exists_eq_add_of_le hlo
  have hk : k < p.data.length := by omega
  rw [slice_eq_iff.mp (lay_in m hapart hp) k hk, Nat.add_sub_cancel_left,
    List.getElem?_eq_getElem hk]

/-- **The order does not matter** for pieces that share no cell. -/
theorem lay_perm (m : ℕ → α) {ps qs : List (Piece α)} (h : ps.Perm qs)
    (hapart : ps.Pairwise Piece.Apart) : lay m ps = lay m qs := by
  have hapart' : qs.Pairwise Piece.Apart :=
    (h.pairwise_iff fun h => h.symm).mp hapart
  funext i
  by_cases hi : ∃ p ∈ ps, p.Covers i
  · obtain ⟨p, hp, hc⟩ := hi
    have hps := lay_covered m hapart hp hc
    have hqs := lay_covered m hapart' (h.mem_iff.mp hp) hc
    exact Option.some.inj (hps.symm.trans hqs)
  · have hps : ∀ p ∈ ps, ¬ p.Covers i := fun p hp hc => hi ⟨p, hp, hc⟩
    rw [lay_out m hps, lay_out m fun p hp => hps p (h.mem_iff.mpr hp)]

end UefiToolkit.Pieces
