import Mathlib

/-!
Overwrite-mode line editing with a bounded line, and the walk over a list of earlier lines.

A line carries the facts that its cursor stands inside the text or at its end and that the
text fits. The earlier lines form a ring with one head: the walk starts at the head, the
newest line stands before it and the oldest behind it.
-/

namespace UefiToolkit.LineEditor

variable {α : Type*} {cap : ℕ}

/-- A line of at most `cap` characters under edit. -/
@[ext] structure Line (α : Type*) (cap : ℕ) where
  text : List α
  cursor : ℕ
  cursor_le : cursor ≤ text.length
  length_le : text.length ≤ cap

namespace Line

def empty : Line α cap := ⟨[], 0, le_rfl, Nat.zero_le _⟩

/-- Overwrite the character at the cursor, or append one; a full line takes no more. -/
def put (l : Line α cap) (c : α) : Line α cap :=
  if h : l.cursor < l.text.length then
    ⟨l.text.set l.cursor c, l.cursor + 1, by simpa using h, by simpa using l.length_le⟩
  else if h' : l.text.length < cap then
    ⟨l.text ++ [c], l.cursor + 1, by simpa using l.cursor_le, by simpa using h'⟩
  else l

/-- Remove the character at the cursor, if there is one. -/
def delete (l : Line α cap) : Line α cap :=
  ⟨l.text.eraseIdx l.cursor, l.cursor, by
    have := l.cursor_le
    rw [List.length_eraseIdx]
    split_ifs <;> omega, (List.eraseIdx_sublist _ _).length_le.trans l.length_le⟩

def left (l : Line α cap) : Line α cap :=
  ⟨l.text, l.cursor - 1, (Nat.sub_le _ _).trans l.cursor_le, l.length_le⟩

/-- Remove the character before the cursor, if there is one. -/
def backspace (l : Line α cap) : Line α cap := if l.cursor = 0 then l else l.left.delete

def right (l : Line α cap) : Line α cap :=
  ⟨l.text, min (l.cursor + 1) l.text.length, min_le_right _ _, l.length_le⟩

def home (l : Line α cap) : Line α cap := ⟨l.text, 0, Nat.zero_le _, l.length_le⟩

def toEnd (l : Line α cap) : Line α cap := ⟨l.text, l.text.length, le_rfl, l.length_le⟩

/-- A line of the given text, as much of it as fits, with the cursor at the end. -/
def load (s : List α) : Line α cap :=
  ⟨s.take cap, (s.take cap).length, le_rfl, List.length_take_le _ _⟩

lemma put_inside {l : Line α cap} (h : l.cursor < l.text.length) (c : α) :
    (l.put c).text = l.text.set l.cursor c ∧ (l.put c).cursor = l.cursor + 1 := by
  simp [put, h]

lemma put_end {l : Line α cap} (h : l.cursor = l.text.length) (h' : l.text.length < cap) (c : α) :
    (l.put c).text = l.text ++ [c] ∧ (l.put c).cursor = l.cursor + 1 := by
  simp [put, h, h']

lemma put_full {l : Line α cap} (h : l.cursor = l.text.length) (h' : l.text.length = cap) (c : α) :
    l.put c = l := by
  simp [put, h, h']

lemma mem_put {l : Line α cap} {c a : α} (h : a ∈ (l.put c).text) : a ∈ l.text ∨ a = c := by
  unfold put at h
  split_ifs at h
  · exact List.mem_or_eq_of_mem_set h
  · simpa using h
  · exact Or.inl h

end Line

/-! ### The earlier lines -/

/-- A line is added behind the others; a full list drops its first one. -/
def remember (max : ℕ) (ls : List α) (l : α) : List α :=
  if ls.length < max then ls ++ [l] else ls.tail ++ [l]

/-- What is remembered are the last lines. -/
lemma remember_rtake {max : ℕ} (hmax : 0 < max) (ls : List α) (l : α) :
    remember max (ls.rtake max) l = (ls ++ [l]).rtake max := by
  unfold remember List.rtake
  rw [List.length_drop, List.length_append, List.length_singleton]
  rcases Nat.lt_or_ge ls.length max with hlt | hge
  · rw [if_pos (by omega), Nat.sub_eq_zero_of_le hlt.le, Nat.sub_eq_zero_of_le hlt,
      List.drop_zero, List.drop_zero]
  · rw [if_neg (by omega), List.tail_drop, List.drop_append_of_le_length (by omega)]
    congr 2
    omega

lemma remember_map {β : Type*} (f : α → β) (max : ℕ) (ls : List α) (l : α) :
    (remember max ls l).map f = remember max (ls.map f) (f l) := by
  unfold remember
  rw [List.length_map]
  split_ifs <;> simp [List.map_tail]

/-! ### The walk over the earlier lines -/

variable {n : ℕ}

/-- The element behind a place of the ring; none stands for the head. -/
def next : Option (Fin n) → Option (Fin n)
  | none => if h : 0 < n then some ⟨0, h⟩ else none
  | some i => if h : i.val + 1 < n then some ⟨i.val + 1, h⟩ else none

/-- The element before a place of the ring; none stands for the head. -/
def prev : Option (Fin n) → Option (Fin n)
  | none => if h : 0 < n then some ⟨n - 1, by omega⟩ else none
  | some i => if 0 < i.val then some ⟨i.val - 1, by omega⟩ else none

/-- One line back from the head to the newest line, and on to the oldest. -/
def older : Option (Fin n) → Option (Fin n)
  | none => if h : 0 < n then some ⟨n - 1, by omega⟩ else none
  | some i => some ⟨i.val - 1, by omega⟩

/-- One line forth from the head to the oldest line, and on to the newest. -/
def newer : Option (Fin n) → Option (Fin n)
  | none => if h : 0 < n then some ⟨0, h⟩ else none
  | some i => if h : i.val + 1 < n then some ⟨i.val + 1, h⟩ else some i

/-- The walk forth stays at the newest line. -/
lemma newer_some (i : Fin n) : newer (some i) = some ⟨min (i.val + 1) (n - 1), by omega⟩ := by
  simp only [newer]
  split_ifs with h
  · rw [Option.some.injEq, Fin.mk.injEq]
    omega
  · have hlast : i = ⟨min (i.val + 1) (n - 1), by omega⟩ := Fin.ext (by simp only; omega)
    exact congrArg some hlast

/-- The walk back is a step of the ring, but for the step onto the head. -/
lemma prev_eq (p : Option (Fin n)) : prev p = if older p = p then none else older p := by
  cases p with
  | none => by_cases h : 0 < n <;> simp [prev, older, h]
  | some i =>
    by_cases h : 0 < i.val
    · have hne : (⟨i.val - 1, by omega⟩ : Fin n) ≠ i := by
        intro he
        have := congrArg Fin.val he
        simp only at this
        omega
      simp [prev, older, h, hne]
    · have he : (⟨i.val - 1, by omega⟩ : Fin n) = i := Fin.ext (by simp only; omega)
      simp [prev, older, h, he]

/-- The walk forth is a step of the ring, but for the step onto the head. -/
lemma next_eq (p : Option (Fin n)) : next p = if newer p = p then none else newer p := by
  cases p with
  | none => by_cases h : 0 < n <;> simp [next, newer, h]
  | some i =>
    by_cases h : i.val + 1 < n
    · have hne : (⟨i.val + 1, h⟩ : Fin n) ≠ i := by
        intro he
        have := congrArg Fin.val he
        simp only at this
        omega
      simp [next, newer, h, hne]
    · simp [next, newer, h]

end UefiToolkit.LineEditor
