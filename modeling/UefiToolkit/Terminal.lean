import UefiToolkit.Mem

/-!
A terminal without edges.

A backspace moves the cursor to the left and a character overwrites what is there. Characters that
are wiped out in this way leave a screen that was blank at the cursor as it was.
-/

namespace UefiToolkit.Terminal

open UefiToolkit.Mem

def BACKSPACE : UInt8 := 0x08
def LINE_FEED : UInt8 := 0x0A
def CARRIAGE_RETURN : UInt8 := 0x0D
def SPACE : UInt8 := 0x20

/-- The cursor, and the cells of each row. -/
structure Screen where
  row : ℕ
  col : ℕ
  cell : ℕ → ℕ → UInt8

def feed (t : Screen) (c : UInt8) : Screen :=
  if c = BACKSPACE then { t with col := t.col - 1 }
  else if c = CARRIAGE_RETURN then { t with col := 0 }
  else if c = LINE_FEED then { t with row := t.row + 1 }
  else { t with col := t.col + 1, cell := put t.cell t.row (put (t.cell t.row) t.col c) }

def display (t : Screen) (bytes : List UInt8) : Screen := bytes.foldl feed t

/-- The screen with a text at the cursor, and the cursor behind it. -/
def Screen.typed (t : Screen) (text : List UInt8) : Screen where
  row := t.row
  col := t.col + text.length
  cell := put t.cell t.row (blit (t.cell t.row) t.col text)

/-- A character that is shown. -/
def Graphic (c : UInt8) : Prop := c ≠ BACKSPACE ∧ c ≠ CARRIAGE_RETURN ∧ c ≠ LINE_FEED

/-- Nothing stands at the cursor or behind it. -/
def Screen.Blank (t : Screen) : Prop := ∀ i, t.col ≤ i → t.cell t.row i = SPACE

lemma display_append (t : Screen) (bytes bytes' : List UInt8) :
    display t (bytes ++ bytes') = display (display t bytes) bytes' := List.foldl_append

lemma feed_graphic (t : Screen) {c : UInt8} (h : Graphic c) :
    feed t c =
      { t with col := t.col + 1, cell := put t.cell t.row (put (t.cell t.row) t.col c) } := by
  unfold feed
  rw [if_neg h.1, if_neg h.2.1, if_neg h.2.2]

lemma put_put {α : Type*} (m : ℕ → α) (a : ℕ) (v w : α) : put (put m a v) a w = put m a w := by
  funext i
  unfold put
  split_ifs <;> rfl

@[simp] lemma typed_nil (t : Screen) : t.typed [] = t := by
  have hcell : put t.cell t.row (blit (t.cell t.row) t.col []) = t.cell := by
    funext i
    unfold put
    split_ifs with hi
    · rw [hi, blit_nil]
    · rfl
  unfold Screen.typed
  rw [hcell]
  rfl

/-- A character is shown behind the text. -/
lemma feed_typed (t : Screen) (text : List UInt8) {c : UInt8} (h : Graphic c) :
    feed (t.typed text) c = t.typed (text ++ [c]) := by
  have hrow : put (blit (t.cell t.row) t.col text) (t.col + text.length) c =
      blit (t.cell t.row) t.col (text ++ [c]) := by rw [put_eq_blit, blit_append]
  rw [feed_graphic _ h]
  unfold Screen.typed
  dsimp only
  rw [put_self, put_put, hrow, List.length_append, List.length_singleton, Nat.add_assoc]

/-- The last character of the text is wiped out. -/
lemma display_wipe {t : Screen} (hblank : t.Blank) (text : List UInt8) (c : UInt8) :
    display (t.typed (text ++ [c])) [BACKSPACE, SPACE, BACKSPACE] = t.typed text := by
  have hspace : Graphic SPACE := by unfold Graphic; decide
  have hback : ∀ s : Screen, feed s BACKSPACE = { s with col := s.col - 1 } := fun s => if_pos rfl
  have hcol : t.col + text.length + 1 - 1 = t.col + text.length := Nat.add_sub_cancel _ _
  have hrow : put (blit (t.cell t.row) t.col (text ++ [c])) (t.col + text.length) SPACE =
      blit (t.cell t.row) t.col text := by
    funext i
    rw [← blit_append, ← put_eq_blit, put_put]
    by_cases hi : i = t.col + text.length
    · rw [hi, put_self, blit_out _ (Or.inr le_rfl), hblank _ (Nat.le_add_right _ _)]
    · rw [put_ne _ _ hi]
  unfold display
  rw [List.foldl_cons, List.foldl_cons, List.foldl_cons, List.foldl_nil, hback, hback,
    feed_graphic _ hspace]
  unfold Screen.typed
  dsimp only
  rw [put_self, put_put, List.length_append, List.length_singleton, ← Nat.add_assoc, hcol, hcol,
    hrow]

end UefiToolkit.Terminal
