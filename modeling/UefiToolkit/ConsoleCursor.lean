import UefiToolkit.ConsoleEdit

/-!
The cursor of the console while a command line is read.

The line runs on over the rows of the screen. Its place is the row of its first character, and the
row and the column of the cursor follow from that and from the place in the line. At the lower edge
the screen scrolls, and the first row moves up.
-/

namespace UefiToolkit.ConsoleCursor

open UefiToolkit.Word UefiToolkit.LineEditor UefiToolkit.ConsoleModel UefiToolkit.ConsoleEdit

/-! ### Rows and columns -/

section Wrap

variable {width : ℕ}

/-- Going on from a column. -/
lemma wrap_add (hw : 0 < width) (p k : ℕ) :
    (p % width + k) % width = (p + k) % width ∧
      p / width + (p % width + k) / width = (p + k) / width := by
  refine ⟨Nat.mod_add_mod p width k, ?_⟩
  have hp : p + k = p % width + k + width * (p / width) := by
    have := Nat.mod_add_div p width
    omega
  rw [hp, Nat.add_mul_div_left _ _ hw, Nat.add_comm]

/-- The place before one in the first column is in the last. -/
lemma wrap_back_zero (hw : 0 < width) {p : ℕ} (h : (p + 1) % width = 0) :
    p % width = width - 1 ∧ p / width + 1 = (p + 1) / width := by
  have hlt := Nat.mod_lt p hw
  obtain ⟨hmod, hdiv⟩ := wrap_add hw p 1
  have hlast : p % width + 1 = width := by
    by_contra hne
    rw [h, Nat.mod_eq_of_lt (by omega)] at hmod
    omega
  rw [hlast, Nat.div_self hw] at hdiv
  exact ⟨by omega, hdiv⟩

lemma wrap_back_pos (hw : 0 < width) {p : ℕ} (h : (p + 1) % width ≠ 0) :
    p % width + 1 = (p + 1) % width ∧ p / width = (p + 1) / width := by
  have hlt := Nat.mod_lt p hw
  obtain ⟨hmod, hdiv⟩ := wrap_add hw p 1
  have hin : p % width + 1 < width := by
    by_contra hge
    have hlast : p % width + 1 = width := by omega
    rw [hlast, Nat.mod_self] at hmod
    exact h hmod.symm
  rw [Nat.mod_eq_of_lt hin] at hmod
  rw [Nat.div_eq_of_lt hin] at hdiv
  exact ⟨hmod, hdiv⟩

end Wrap

/-! ### What is asked for -/

/-- A cursor that is set is on the screen. -/
def OnScreen (con : Console) : Output → Prop
  | .setCursorPosition column row => column < con.totalColumn ∧ row < con.totalRow
  | .print _ _ => True
  | .newline => True

section Decrements

variable {n : ℕ} (con : Console)

/-- Whether the cursor goes on behind what was printed. -/
def Advances (k : Key) : Prop :=
  k.unicodeChar ≠ CHAR_BACKSPACE ∧ ¬ (k.unicodeChar = 0 ∧ k.scanCode = SCAN_DELETE)

instance (k : Key) : Decidable (Advances k) := inferInstanceAs (Decidable (_ ∧ _))

/-- The decrements of `Row` in the `switch`: what it is, and what is taken from it. -/
def switchDecrements (k : Key) (s : InRead n) : List (ℕ × ℕ) :=
  if k.unicodeChar = CHAR_BACKSPACE ∨ k.unicodeChar = 0 ∧ k.scanCode = SCAN_LEFT then
    if s.stringCurPos ≠ 0 ∧ s.column = 0 ∧ 0 < s.row then [(s.row, 1)] else []
  else if k.unicodeChar = 0 ∧ (k.scanCode = SCAN_HOME ∨ k.scanCode = SCAN_ESC) then
    [(s.row, add64 s.stringCurPos con.cursorColumn / con.totalColumn)]
  else []

def recallDecrements (s : InRead n) : List (ℕ × ℕ) :=
  if s.newPos.isSome then [(s.row, add64 s.stringCurPos con.cursorColumn / con.totalColumn)] else []

def advanceDecrements (s : InRead n) : List (ℕ × ℕ) :=
  if tailColumn con s (add64 s.column s.outputLength) = 0 ∧
      con.totalRow ≤ tailRow con s (add64 s.column s.outputLength) ∧
      s.row ≠ tailRow con s (add64 s.column s.outputLength) then [(s.row, 1)]
  else []

def redrawDecrements (size : ℕ) (k : Key) (s : InRead n) : List (ℕ × ℕ) :=
  match s.update with
  | none => []
  | some update =>
    if Advances k then advanceDecrements con (measureLine size (printUpdate size update s)) else []

/-- The decrements of `Row` while a key is processed. -/
def rowDecrements (maxStr size : ℕ) (history : Fin n → CStr) (s : InRead n) (k : Key) :
    List (ℕ × ℕ) :=
  switchDecrements con k s ++ recallDecrements con (switchKey con maxStr k s) ++
    redrawDecrements con size k (recallLine con maxStr history (switchKey con maxStr k s))

end Decrements

/-! ### Places on the screen -/

/-- What the types say: the cursor of the mode is two numbers of type `INT32`, the size of the
screen two of type `UINTN`. -/
structure Typed (con : Console) : Prop where
  column_int32 : con.cursorColumn < 2 ^ 31
  row_int32 : con.cursorRow < 2 ^ 31
  totalColumn_lt : con.totalColumn < 2 ^ 64
  totalRow_lt : con.totalRow < 2 ^ 64

/-- The cursor is on the screen as the call finds it, and a line of `cap` characters and its
terminator fit from there on the rows above the last one. -/
structure Fits (con : Console) (cap : ℕ) : Prop extends Typed con where
  column_lt : con.cursorColumn < con.totalColumn
  row_lt : con.cursorRow < con.totalRow
  room : con.cursorColumn + cap + 1 ≤ con.totalColumn * (con.totalRow - 1)
  cap_lt : cap < 2 ^ 63

section Place

variable {con : Console} {cap : ℕ}

/-- The column of place `p` of the line. -/
def colOf (con : Console) (p : ℕ) : ℕ := (con.cursorColumn + p) % con.totalColumn

/-- The row of place `p` below the first row of the line. -/
def rowOf (con : Console) (p : ℕ) : ℕ := (con.cursorColumn + p) / con.totalColumn

lemma colOf_lt (con : Console) (p : ℕ) : colOf con p < con.totalColumn :=
  Nat.mod_lt _ con.totalColumn_pos

lemma colOf_le (con : Console) (p : ℕ) : colOf con p ≤ con.cursorColumn + p := Nat.mod_le _ _

lemma rowOf_le (con : Console) (p : ℕ) : rowOf con p ≤ con.cursorColumn + p := Nat.div_le_self _ _

lemma rowOf_mono (con : Console) {p p' : ℕ} (h : p ≤ p') : rowOf con p ≤ rowOf con p' :=
  Nat.div_le_div_right (by omega)

lemma Fits.colOf_zero (h : Fits con cap) : colOf con 0 = con.cursorColumn :=
  Nat.mod_eq_of_lt h.column_lt

lemma Fits.rowOf_zero (h : Fits con cap) : rowOf con 0 = 0 := Nat.div_eq_of_lt h.column_lt

/-- The line leaves a row free. -/
lemma Fits.rowOf_lt (h : Fits con cap) {p : ℕ} (hp : p ≤ cap) : rowOf con p < con.totalRow - 1 := by
  have hroom := h.room
  rw [rowOf, Nat.div_lt_iff_lt_mul con.totalColumn_pos, Nat.mul_comm]
  omega

lemma place_add (con : Console) (p k : ℕ) :
    (colOf con p + k) % con.totalColumn = colOf con (p + k) ∧
      rowOf con p + (colOf con p + k) / con.totalColumn = rowOf con (p + k) := by
  unfold colOf rowOf
  rw [← Nat.add_assoc]
  exact wrap_add con.totalColumn_pos (con.cursorColumn + p) k

/-- A cursor at place `p` of a line that begins in row `first`. -/
structure At (con : Console) (first p column row : ℕ) : Prop where
  first_le : first ≤ con.cursorRow
  column_eq : column = colOf con p
  row_eq : row = first + rowOf con p
  row_lt : row < con.totalRow

section At

variable {first p column row : ℕ}

lemma At.onScreen (h : At con first p column row) :
    OnScreen con (.setCursorPosition column row) := ⟨h.column_eq ▸ colOf_lt con p, h.row_lt⟩

/-- A decrement by the rows above the cursor leads to the first row. -/
lemma At.sub_rows (hfits : Fits con cap) (h : At con first p column row) (hp : p ≤ cap) :
    add64 p con.cursorColumn / con.totalColumn = rowOf con p ∧ rowOf con p ≤ row ∧
      sub64 row (add64 p con.cursorColumn / con.totalColumn) = first := by
  have hrow := h.row_eq
  have hlt := h.row_lt
  have htotal := hfits.totalRow_lt
  have hcap := hfits.cap_lt
  have hint := hfits.column_int32
  have hadd : add64 p con.cursorColumn / con.totalColumn = rowOf con p := by
    rw [add64, u64_of_lt (by omega), rowOf, Nat.add_comm]
  refine ⟨hadd, by omega, ?_⟩
  rw [hadd, sub64_of_le (by omega) (by omega)]
  omega

lemma At.home (hfits : Fits con cap) (h : At con first p column row) :
    At con first 0 con.cursorColumn first := by
  have hrow := h.row_eq
  have hlt := h.row_lt
  exact ⟨h.first_le, hfits.colOf_zero.symm, by rw [hfits.rowOf_zero, Nat.add_zero], by omega⟩

lemma At.backward (hfits : Fits con cap) (h : At con first (p + 1) column row) :
    At con first p (moveCursorBackward con.totalColumn column row).1
        (moveCursorBackward con.totalColumn column row).2 ∧
      (column = 0 → 0 < row) := by
  have hrow := h.row_eq
  have hlt := h.row_lt
  have hwidth := hfits.totalColumn_lt
  unfold moveCursorBackward
  by_cases h0 : column = 0
  · have hwrap : (con.cursorColumn + p + 1) % con.totalColumn = 0 := h.column_eq.symm.trans h0
    obtain ⟨hlast, hup⟩ := wrap_back_zero con.totalColumn_pos hwrap
    have hpos : rowOf con (p + 1) = rowOf con p + 1 := hup.symm
    rw [if_pos h0, if_pos (by omega), sub64_of_le hwidth con.totalColumn_pos]
    exact ⟨⟨h.first_le, hlast.symm, by simp only; omega, by simp only; omega⟩, fun _ => by omega⟩
  · have hwrap : (con.cursorColumn + p + 1) % con.totalColumn ≠ 0 :=
      fun h' => h0 (h.column_eq.trans h')
    obtain ⟨hleft, hsame⟩ := wrap_back_pos con.totalColumn_pos hwrap
    have hpos : rowOf con (p + 1) = rowOf con p := hsame.symm
    have hcol : column = colOf con p + 1 := h.column_eq.trans hleft.symm
    rw [if_neg h0]
    exact ⟨⟨h.first_le, by simp only; omega, by simp only; omega, h.row_lt⟩,
      fun h' => absurd h' h0⟩

lemma At.forward (hfits : Fits con cap) (h : At con first p column row)
    (hon : first + rowOf con (p + 1) < con.totalRow) :
    At con first (p + 1) (moveCursorForward con.totalColumn con.totalRow column row).1
      (moveCursorForward con.totalColumn con.totalRow column row).2 := by
  have hrow := h.row_eq
  have hlt := h.row_lt
  have htotal := hfits.totalRow_lt
  have hwidth := hfits.totalColumn_lt
  have hcol := h.column_eq
  have hcolLt := colOf_lt con p
  obtain ⟨hnext, hdown⟩ := place_add con p 1
  unfold moveCursorForward
  dsimp only
  rw [add64, u64_of_lt (by omega)]
  by_cases hwrap : con.totalColumn ≤ column + 1
  · have hlast : colOf con p + 1 = con.totalColumn := by omega
    rw [hlast, Nat.mod_self] at hnext
    rw [hlast, Nat.div_self con.totalColumn_pos] at hdown
    rw [if_pos hwrap, sub64_of_le htotal (by omega), if_pos (by omega), add64,
      u64_of_lt (by omega)]
    exact ⟨h.first_le, hnext, by simp only; omega, by simp only; omega⟩
  · rw [Nat.mod_eq_of_lt (by omega)] at hnext
    rw [Nat.div_eq_of_lt (by omega)] at hdown
    rw [if_neg hwrap]
    exact ⟨h.first_le, by simp only; omega, by simp only; omega, h.row_lt⟩

end At

/-- The tail of the line, from the cursor and `out` characters printed at it. -/
lemma tail_place (hfits : Fits con cap) {n : ℕ} {s : InRead n} {first start out : ℕ}
    (h : At con first start s.column s.row) (hpos : start + out = s.stringCurPos)
    (hle : s.stringCurPos ≤ s.stringLen) (hlen : s.stringLen ≤ cap) :
    add64 s.column out = colOf con start + out ∧
      tailColumn con s (add64 s.column out) = colOf con s.stringLen ∧
      tailRow con s (add64 s.column out) = first + rowOf con s.stringLen := by
  have hcolumn := colOf_le con start
  have hrow := rowOf_le con s.stringLen
  have hint := hfits.column_int32
  have hint' := hfits.row_int32
  have hcap := hfits.cap_lt
  have hfirst := h.first_le
  have hbehind : add64 s.column out = colOf con start + out := by
    rw [h.column_eq, add64, u64_of_lt (by omega)]
  have hsum : add64 (sub64 s.stringLen s.stringCurPos) (colOf con start + out) =
      colOf con start + (s.stringLen - start) := by
    rw [sub64_of_le (by omega) hle, add64, u64_of_lt (by omega)]
    omega
  obtain ⟨hcol, hdown⟩ := place_add con start (s.stringLen - start)
  rw [show start + (s.stringLen - start) = s.stringLen by omega] at hcol hdown
  refine ⟨hbehind, ?_, ?_⟩
  · rw [hbehind, tailColumn, hsum, hcol]
  · rw [hbehind, tailRow, hsum, h.row_eq, add64, Nat.add_assoc, hdown, u64_of_lt (by omega)]

/-- Behind what is printed at a place the cursor moves on. If that is below the screen, the screen
scrolls. -/
lemma advanceCursor_place (hfits : Fits con cap) {n : ℕ} {s : InRead n} {first start : ℕ}
    (h : At con first start s.column s.row) (hpos : start + s.outputLength = s.stringCurPos)
    (hle : s.stringCurPos ≤ s.stringLen) (hlen : s.stringLen ≤ cap)
    (htail : first + rowOf con s.stringLen < con.totalRow ∨ s.stringCurPos = s.stringLen) :
    (advanceCursor con s).column = colOf con s.stringCurPos ∧
      (advanceCursor con s).row =
        min (con.totalRow - 1) (first + rowOf con s.stringCurPos) ∧
      ∀ d ∈ advanceDecrements con s, d.2 ≤ d.1 := by
  have hcolumn := colOf_le con start
  have hint := hfits.column_int32
  have hint' := hfits.row_int32
  have hcap := hfits.cap_lt
  have hfirst := h.first_le
  have hrow := h.row_eq
  have hon := h.row_lt
  obtain ⟨hbehind, hcolEq, hrowEq⟩ := tail_place hfits h hpos hle hlen
  obtain ⟨hposCol, hposRow⟩ := place_add con start s.outputLength
  rw [hpos] at hposCol hposRow
  have hposLe := rowOf_le con s.stringCurPos
  have hfree := hfits.rowOf_lt (hle.trans hlen)
  have hlast : sub64 con.totalRow 1 = con.totalRow - 1 :=
    sub64_of_le hfits.totalRow_lt (by omega)
  -- the screen scrolls by a row that the line is away from the upper edge
  have hscroll : con.totalRow ≤ first + rowOf con s.stringLen →
      con.totalRow ≤ first + rowOf con s.stringCurPos ∧ 1 ≤ s.row := by
    intro hge
    rw [htail.resolve_left (by omega)]
    exact ⟨hge, by rw [htail.resolve_left (by omega)] at hfree; omega⟩
  have hstep : (advanceCursor con s).column = colOf con s.stringCurPos ∧
      (advanceCursor con s).row = min (con.totalRow - 1) (first + rowOf con s.stringCurPos) := by
    unfold advanceCursor
    dsimp only
    rw [hcolEq, hrowEq, hbehind, hlast]
    obtain ⟨row, hrow'⟩ : ∃ row, row = if colOf con s.stringLen = 0 ∧
        con.totalRow ≤ first + rowOf con s.stringLen ∧ s.row ≠ first + rowOf con s.stringLen
      then sub64 s.row 1 else s.row := ⟨_, rfl⟩
    have hmoved : row = s.row ∨
        row + 1 = s.row ∧ con.totalRow ≤ first + rowOf con s.stringCurPos := by
      split_ifs at hrow' with hcond
      · obtain ⟨hge, hone⟩ := hscroll hcond.2.1
        rw [sub64_of_le (by omega) hone] at hrow'
        exact Or.inr ⟨by omega, hge⟩
      · exact Or.inl hrow'
    rw [← hrow']
    by_cases hwrap : con.totalColumn ≤ colOf con start + s.outputLength
    · obtain ⟨skip, hskip⟩ := Nat.exists_eq_add_of_le hwrap
      have hlt := colOf_lt con start
      have hwidth := hfits.totalColumn_lt
      have hskip' : sub64 s.outputLength (sub64 con.totalColumn s.column) = skip := by
        rw [h.column_eq, sub64_of_le hwidth hlt.le, sub64_of_le (by omega) (by omega)]
        omega
      rw [hskip, Nat.add_mod_left] at hposCol
      rw [hskip, Nat.add_div_left _ con.totalColumn_pos] at hposRow
      rw [if_pos hwrap, hskip', hposCol, add64, u64_of_lt (by omega)]
      refine ⟨rfl, ?_⟩
      dsimp only
      split_ifs <;> omega
    · rw [Nat.mod_eq_of_lt (by omega)] at hposCol
      rw [Nat.div_eq_of_lt (by omega)] at hposRow
      rw [if_neg hwrap]
      refine ⟨hposCol, ?_⟩
      dsimp only
      omega
  refine ⟨hstep.1, hstep.2, fun d hd => ?_⟩
  unfold advanceDecrements at hd
  rw [hcolEq, hrowEq] at hd
  split_ifs at hd with hcond
  · rw [List.mem_singleton.mp hd]
    exact (hscroll hcond.2.1).2
  · exact absurd hd List.not_mem_nil

end Place

/-! ### Between two keys -/

section Keys

variable {con : Console} {n cap : ℕ} {buffer : ℕ → UInt16} {s s' : InRead n} {t : Session n cap}

/-- The cursor is at its place in the line, the line ends on the screen, and every cursor that was
set is on the screen. -/
structure Placed (con : Console) (s : InRead n) : Prop where
  at_cursor : ∃ first, At con first s.stringCurPos s.column s.row ∧
    first + rowOf con s.stringLen < con.totalRow
  quiet : s.update ≠ none → s.outputLength = 0
  screen : ∀ o ∈ s.screen, OnScreen con o

/-- Before a line of `len` characters with the cursor at `pos` is drawn: the cursor is where the
printing begins, if it moves with the printing, and at its place otherwise. -/
structure Aimed (con : Console) (k : Key) (len pos : ℕ) (s : InRead n) : Prop where
  at_start : ∃ first start, At con first start s.column s.row ∧
    (s.update ≠ none ∧ Advances k → start + s.outputLength = pos ∧
      (first + rowOf con len < con.totalRow ∨ pos = len)) ∧
    (¬ (s.update ≠ none ∧ Advances k) → start = pos ∧ first + rowOf con len < con.totalRow)
  screen : ∀ o ∈ s.screen, OnScreen con o

lemma printUpdate_screen {first start : ℕ} (h : At con first start s.column s.row)
    (hscreen : ∀ o ∈ s.screen, OnScreen con o) (size update : ℕ) :
    ∃ screen, printUpdate size update s = { s with screen := screen } ∧
      ∀ o ∈ screen, OnScreen con o := by
  unfold printUpdate
  split_ifs
  · refine ⟨_, rfl, fun o ho => ?_⟩
    rcases List.mem_append.mp ho with ho | ho
    · exact hscreen o ho
    · rcases List.mem_pair.mp ho with rfl | rfl
      · exact h.onScreen
      · trivial
  · exact ⟨s.screen, rfl, hscreen⟩

lemma redraw_some {size update : ℕ} {k : Key} (hu : s.update = some update) :
    redraw con size k s =
      { (if Advances k then advanceCursor con (measureLine size (printUpdate size update s))
          else measureLine size (printUpdate size update s)) with delete := 0 } := by
  unfold redraw
  rw [hu]
  rfl

lemma redrawDecrements_some {size update : ℕ} {k : Key} (hu : s.update = some update) :
    redrawDecrements con size k s =
      if Advances k then advanceDecrements con (measureLine size (printUpdate size update s))
      else [] := by
  unfold redrawDecrements
  rw [hu]

/-- Drawing the line brings the cursor to its place. -/
lemma redraw_placed (hfits : Fits con cap) {size : ℕ} (h : Pending buffer s t)
    (hsize : cap + 1 ≤ size) {k : Key}
    (ha : Aimed con k t.line.text.length t.line.cursor s) :
    Placed con (redraw con size k s) ∧ ∀ d ∈ redrawDecrements con size k s, d.2 ≤ d.1 := by
  obtain ⟨first, start, hat, hmoves, hstays⟩ := ha.at_start
  have hle := t.line.cursor_le
  have hlen := t.line.length_le
  cases hu : s.update with
  | none =>
    obtain ⟨hslen, hspos, -⟩ := h.still hu
    obtain ⟨rfl, hend⟩ := hstays fun h' => h'.1 hu
    simp only [redraw, redrawDecrements, hu]
    exact ⟨⟨⟨first, by rwa [hspos], by rwa [hslen]⟩, fun h' => absurd hu h', ha.screen⟩,
      fun _ hd => absurd hd List.not_mem_nil⟩
  | some update =>
    obtain ⟨screen, hprint, hscreen⟩ := printUpdate_screen hat ha.screen size update
    have hshows := measureLine_shows h hsize screen
    rw [redraw_some hu, redrawDecrements_some hu, hprint]
    obtain ⟨m, hm⟩ : ∃ m, m = measureLine size { s with screen := screen } := ⟨_, rfl⟩
    rw [← hm] at hshows ⊢
    have hmcol : m.column = s.column := by rw [hm]; rfl
    have hmrow : m.row = s.row := by rw [hm]; rfl
    have hmout : m.outputLength = s.outputLength := by rw [hm]; rfl
    have hmscreen : m.screen = screen := by rw [hm]; rfl
    have hmupdate : m.update = none := by rw [hm]; rfl
    have hmlen : m.stringLen = t.line.text.length := (hshows 0 0).stringLen
    have hmpos : m.stringCurPos = t.line.cursor := (hshows 0 0).stringCurPos
    have hquiet : m.update ≠ none → m.outputLength = 0 := fun h' => absurd hmupdate h'
    rw [← hmscreen] at hscreen
    by_cases hk : Advances k
    · obtain ⟨hpos, htail⟩ := hmoves ⟨by rw [hu]; nofun, hk⟩
      rw [← hmlen, ← hmpos] at htail hle
      rw [← hmlen] at hlen
      obtain ⟨hcol, hrow, hdec⟩ := advanceCursor_place hfits (s := m)
        (by rwa [hmcol, hmrow]) (by rw [hmout, hpos, hmpos]) hle hlen htail
      have hfree := hfits.rowOf_lt (hle.trans hlen)
      have hfirst := hat.first_le
      have hmono := rowOf_mono con hle
      obtain ⟨column, row, hadv⟩ := advanceCursor_eq con m
      rw [hadv] at hcol hrow
      rw [if_pos hk, if_pos hk, hadv]
      refine ⟨⟨⟨min first (con.totalRow - 1 - rowOf con m.stringCurPos), ?_, ?_⟩, hquiet,
        hscreen⟩, hdec⟩
      · exact ⟨by omega, hcol, by simp only at hrow ⊢; omega, by simp only at hrow ⊢; omega⟩
      · show min first _ + rowOf con m.stringLen < con.totalRow
        rcases htail with htail | htail
        · omega
        · rw [← htail]
          omega
    · obtain ⟨rfl, hend⟩ := hstays fun h' => hk h'.2
      rw [if_neg hk, if_neg hk]
      exact ⟨⟨⟨first, by rwa [hmpos, hmcol, hmrow], by rwa [hmlen]⟩, hquiet, hscreen⟩,
        fun _ hd => absurd hd List.not_mem_nil⟩

/-- A key that prints nothing leaves the cursor where the line is drawn from. -/
lemma Placed.aimed (h : Placed con s) (k : Key) : Aimed con k s.stringLen s.stringCurPos s := by
  obtain ⟨first, hat, hend⟩ := h.at_cursor
  exact ⟨⟨first, s.stringCurPos, hat, fun h' => ⟨by rw [h.quiet h'.1, Nat.add_zero], Or.inl hend⟩,
    fun _ => ⟨rfl, hend⟩⟩, h.screen⟩

lemma Placed.aimed_shows (hp : Placed con s) (h : Shows buffer s t) (k : Key) :
    Aimed con k t.line.text.length t.line.cursor s := by
  rw [← h.stringLen, ← h.stringCurPos]
  exact hp.aimed k

lemma advances_of_le {k : Key} (hk : 0x20 ≤ k.unicodeChar) : Advances k := by
  constructor
  · intro h
    rw [h] at hk
    exact absurd hk (by decide)
  · rintro ⟨h, -⟩
    rw [h] at hk
    exact absurd hk (by decide)

lemma printableKey_aimed (h : Shows buffer s t) (hp : Placed con s) (hcap : cap + 1 < 2 ^ 64)
    {k : Key} (hk : 0x20 ≤ k.unicodeChar) :
    Aimed con k (t.line.put k.unicodeChar).text.length (t.line.put k.unicodeChar).cursor
      (printableKey (cap + 1) k.unicodeChar s) := by
  have hmax : sub64 (cap + 1) 1 = cap := by rw [sub64_of_le hcap (by omega)]; omega
  obtain ⟨first, hat, hend⟩ := hp.at_cursor
  rw [h.stringLen] at hend
  unfold printableKey
  rw [hmax, h.stringLen, h.stringCurPos]
  have hprints : ∀ {len pos : ℕ}, s.stringCurPos + 1 = pos →
      first + rowOf con len < con.totalRow ∨ pos = len →
      Aimed con k len pos
        { s with
          currentString := Mem.put s.currentString t.line.cursor k.unicodeChar
          update := some t.line.cursor, stringLen := t.line.text.length
          stringCurPos := t.line.cursor + 1, outputLength := 1 } :=
    fun hpos hlast => ⟨⟨first, s.stringCurPos, hat, fun _ => ⟨hpos, hlast⟩,
      fun h' => absurd ⟨nofun, advances_of_le hk⟩ h'⟩, hp.screen⟩
  rcases t.line.cursor_le.lt_or_eq with hin | hlast
  · -- a character is overwritten
    obtain ⟨htext, hcur⟩ := Line.put_inside hin k.unicodeChar
    rw [if_neg (by omega), htext, hcur, List.length_set]
    exact hprints (by rw [h.stringCurPos]) (Or.inl hend)
  · rcases t.line.length_le.lt_or_eq with hroom | hfull
    · -- a character is appended
      obtain ⟨htext, hcur⟩ := Line.put_end hlast hroom k.unicodeChar
      rw [if_neg (by omega), htext, hcur, List.length_append, List.length_singleton]
      exact hprints (by rw [h.stringCurPos]) (Or.inr (by omega))
    · -- the line is full
      rw [if_pos ⟨hfull, hlast⟩, Line.put_full hlast hfull]
      exact hp.aimed_shows h k

lemma backspaceKey_aimed (hfits : Fits con cap) (h : Shows buffer s t) (hp : Placed con s) {k : Key}
    (hk : k.unicodeChar = CHAR_BACKSPACE) :
    Aimed con k t.line.backspace.text.length t.line.backspace.cursor (backspaceKey con s) := by
  have hpos := h.stringCurPos
  unfold backspaceKey Line.backspace
  by_cases h0 : t.line.cursor = 0
  · rw [if_pos (hpos.trans h0), if_pos h0]
    exact hp.aimed_shows h k
  · obtain ⟨first, hat, hend⟩ := hp.at_cursor
    obtain ⟨p, hp'⟩ : ∃ p, s.stringCurPos = p + 1 := ⟨s.stringCurPos - 1, by omega⟩
    rw [hp'] at hat
    have hshort : t.line.left.delete.text.length ≤ s.stringLen := by
      rw [h.stringLen]
      exact (List.eraseIdx_sublist _ _).length_le
    have hmono := rowOf_mono con hshort
    rw [if_neg h0, if_neg (by omega)]
    refine ⟨⟨first, p, (hat.backward hfits).1, fun h' => absurd hk h'.2.1, fun _ => ⟨?_, ?_⟩⟩,
      hp.screen⟩
    · simp only [Line.delete, Line.left]; omega
    · omega

lemma deleteKey_aimed (h : Shows buffer s t) (hp : Placed con s) {k : Key}
    (hk : k.unicodeChar = 0 ∧ k.scanCode = SCAN_DELETE) :
    Aimed con k t.line.delete.text.length t.line.delete.cursor (deleteKey s) := by
  obtain ⟨first, hat, hend⟩ := hp.at_cursor
  have hshort : t.line.delete.text.length ≤ s.stringLen := by
    rw [h.stringLen]
    exact (List.eraseIdx_sublist _ _).length_le
  have hmono := rowOf_mono con hshort
  unfold deleteKey
  split_ifs <;>
  exact ⟨⟨first, s.stringCurPos, hat, fun h' => absurd hk h'.2.2,
    fun _ => ⟨h.stringCurPos, by omega⟩⟩, hp.screen⟩

lemma escKey_aimed (hfits : Fits con cap) (h : Shows buffer s t) (hp : Placed con s) (k : Key) :
    Aimed con k 0 0 (escKey con s) := by
  obtain ⟨first, hat, -⟩ := hp.at_cursor
  have hcur := t.line.cursor_le.trans t.line.length_le
  obtain ⟨-, -, hfirst⟩ := hat.sub_rows hfits (by rw [h.stringCurPos]; exact hcur)
  have hhome := hat.home hfits
  have hend : first + rowOf con 0 < con.totalRow := hhome.row_eq ▸ hhome.row_lt
  refine ⟨⟨first, 0, ?_, fun _ => ⟨rfl, Or.inl hend⟩, fun _ => ⟨rfl, hend⟩⟩, hp.screen⟩
  simp only [escKey, firstRow, hfirst]
  exact hhome

/-! ### Keys that only move the cursor -/

lemma leftKey_placed (hfits : Fits con cap) (hp : Placed con s) : Placed con (leftKey con s) := by
  obtain ⟨first, hat, hend⟩ := hp.at_cursor
  unfold leftKey
  split_ifs with h0
  · exact hp
  · obtain ⟨p, hp'⟩ : ∃ p, s.stringCurPos = p + 1 := ⟨s.stringCurPos - 1, by omega⟩
    rw [hp'] at hat
    refine ⟨⟨first, ?_, hend⟩, hp.quiet, hp.screen⟩
    simp only [hp', Nat.add_sub_cancel]
    exact (hat.backward hfits).1

lemma rightKey_placed (hfits : Fits con cap) (hp : Placed con s) :
    Placed con (rightKey con s) := by
  obtain ⟨first, hat, hend⟩ := hp.at_cursor
  unfold rightKey
  split_ifs with hin
  · have hmono := rowOf_mono con (show s.stringCurPos + 1 ≤ s.stringLen from hin)
    exact ⟨⟨first, hat.forward hfits (by omega), hend⟩, hp.quiet, hp.screen⟩
  · exact hp

lemma homeKey_placed (hfits : Fits con cap) (hp : Placed con s) (hle : s.stringCurPos ≤ cap) :
    Placed con (homeKey con s) := by
  obtain ⟨first, hat, hend⟩ := hp.at_cursor
  obtain ⟨-, -, hfirst⟩ := hat.sub_rows hfits hle
  refine ⟨⟨first, ?_, hend⟩, hp.quiet, hp.screen⟩
  simp only [homeKey, firstRow, hfirst]
  exact hat.home hfits

lemma tail_at (hfits : Fits con cap) (hp : Placed con s) (hle : s.stringCurPos ≤ s.stringLen)
    (hlen : s.stringLen ≤ cap) :
    ∃ first, At con first s.stringLen (tailColumn con s s.column) (tailRow con s s.column) ∧
      first + rowOf con s.stringLen < con.totalRow := by
  obtain ⟨first, hat, hend⟩ := hp.at_cursor
  obtain ⟨hcol, htailCol, htailRow⟩ := tail_place hfits hat (Nat.add_zero _) hle hlen
  rw [hcol, Nat.add_zero, ← hat.column_eq] at htailCol htailRow
  exact ⟨first, ⟨hat.first_le, htailCol, htailRow, by omega⟩, hend⟩

lemma endKey_placed (hfits : Fits con cap) (hp : Placed con s) (hle : s.stringCurPos ≤ s.stringLen)
    (hlen : s.stringLen ≤ cap) : Placed con (endKey con s) :=
  ⟨tail_at hfits hp hle hlen, hp.quiet, hp.screen⟩

/-! ### A key as a whole -/

lemma visit_aimed (h : Shows buffer s t) (hp : Placed con s) (history : Fin n → CStr) (k : Key)
    {place step : Option (Fin n)} (hstep : step = if place = t.place then none else place)
    (hnone : step = none) :
    Aimed con k (t.visit history place).line.text.length (t.visit history place).line.cursor
      { s with newPos := step } := by
  rcases visit_cases t history hstep with ⟨-, hsame⟩ | ⟨i, hsome, -⟩
  · have hs : { s with newPos := none } = s := by rw [← h.newPos]
    rw [hsame, hnone, hs]
    exact hp.aimed_shows h k
  · exact absurd (hnone.symm.trans hsome) nofun

lemma switchKey_aimed (hfits : Fits con cap) (h : Shows buffer s t) (hp : Placed con s)
    (history : Fin n → CStr) (k : Key) (hnone : (switchKey con (cap + 1) k s).newPos = none) :
    Aimed con k (t.perform history (command k)).line.text.length
      (t.perform history (command k)).line.cursor (switchKey con (cap + 1) k s) := by
  have hcap := hfits.cap_lt
  have hlen := t.line.length_le
  have hle := t.line.cursor_le
  rw [← h.stringLen] at hlen
  rw [← h.stringCurPos, ← h.stringLen] at hle
  have hkey := switchKey_pressed con (cap + 1) s k
  generalize switchKey con (cap + 1) k s = s' at hkey hnone ⊢
  generalize command k = c at hkey ⊢
  cases hkey with
  | put hc => exact printableKey_aimed h hp (by omega) hc
  | backspace hc => exact backspaceKey_aimed hfits h hp hc
  | delete hc hs => exact deleteKey_aimed h hp ⟨hc, hs⟩
  | older =>
    rw [upKey_eq h] at hnone ⊢
    exact visit_aimed h hp history k (prev_eq t.place) hnone
  | newer =>
    rw [downKey_eq h] at hnone ⊢
    exact visit_aimed h hp history k (next_eq t.place) hnone
  | left => exact (leftKey_placed hfits hp).aimed_shows (leftKey_shows con h) k
  | right => exact (rightKey_placed hfits hp).aimed_shows (rightKey_shows con h) k
  | home => exact (homeKey_placed hfits hp (hle.trans hlen)).aimed_shows (homeKey_shows con h) k
  | toEnd => exact (endKey_placed hfits hp hle hlen).aimed_shows (endKey_shows con h) k
  | clear => exact escKey_aimed hfits h hp k
  | nothing => exact hp.aimed_shows h k

/-- A history line is asked for by a key behind which the cursor moves on. -/
lemma advances_of_recall {maxStr : ℕ} {k : Key} (hnone : s.newPos = none)
    (hsome : (switchKey con maxStr k s).newPos ≠ none) : Advances k := by
  have hkey := switchKey_pressed con maxStr s k
  generalize switchKey con maxStr k s = s' at hkey hsome
  generalize command k = c at hkey
  cases hkey with
  | older hc hs => exact ⟨by rw [hc]; decide, fun h' => absurd (hs.symm.trans h'.2) (by decide)⟩
  | newer hc hs => exact ⟨by rw [hc]; decide, fun h' => absurd (hs.symm.trans h'.2) (by decide)⟩
  | put =>
    refine absurd ?_ hsome
    unfold printableKey
    split_ifs <;> exact hnone
  | backspace =>
    refine absurd ?_ hsome
    unfold backspaceKey
    split_ifs <;> exact hnone
  | delete =>
    refine absurd ?_ hsome
    unfold deleteKey
    split_ifs <;> exact hnone
  | left =>
    refine absurd ?_ hsome
    unfold leftKey
    split_ifs <;> exact hnone
  | right =>
    refine absurd ?_ hsome
    unfold rightKey
    split_ifs <;> exact hnone
  | home => exact absurd hnone hsome
  | toEnd => exact absurd hnone hsome
  | clear => exact absurd hnone hsome
  | nothing => exact absurd hnone hsome

lemma recallLine_aimed (hfits : Fits con cap) (h : Shows buffer s t) (hp : Placed con s)
    (history : Fin n → CStr) (i : Fin n) {k : Key} (hk : Advances k) :
    Aimed con k (Line.load (history i).chars : Line UInt16 cap).text.length
      (Line.load (history i).chars : Line UInt16 cap).cursor
      (recallLine con (cap + 1) history { s with newPos := some i }) := by
  have hcap := hfits.cap_lt
  obtain ⟨first, hat, -⟩ := hp.at_cursor
  have hcur := t.line.cursor_le.trans t.line.length_le
  obtain ⟨-, -, hfirst⟩ := hat.sub_rows hfits (by rw [h.stringCurPos]; exact hcur)
  simp only [recallLine, recall_length (by omega : cap + 1 < 2 ^ 64), firstRow, hfirst]
  exact ⟨⟨first, 0, hat.home hfits, fun _ => ⟨Nat.zero_add _, Or.inr rfl⟩,
    fun h' => absurd ⟨Option.some_ne_none 0, hk⟩ h'⟩, hp.screen⟩

/-- **One key.** The cursor is at its place again, and no decrement has gone below zero. -/
theorem processKey_placed (hfits : Fits con cap) {size : ℕ} (h : Shows buffer s t)
    (hp : Placed con s) (hsize : cap + 1 ≤ size) (history : Fin n → CStr) (k : Key) :
    Placed con (processKey con (cap + 1) size history s k) ∧
      ∀ d ∈ rowDecrements con (cap + 1) size history s k, d.2 ≤ d.1 := by
  have hcap := hfits.cap_lt
  obtain ⟨first, hat, -⟩ := hp.at_cursor
  have hcur := t.line.cursor_le.trans t.line.length_le
  rw [← h.stringCurPos] at hcur
  obtain ⟨hrows, habove, -⟩ := hat.sub_rows hfits hcur
  have hswitch : ∀ d ∈ switchDecrements con k s, d.2 ≤ d.1 := by
    intro d hd
    unfold switchDecrements at hd
    split_ifs at hd with h1 h2 h3
    · rw [List.mem_singleton.mp hd]
      exact h2.2.2
    · exact absurd hd List.not_mem_nil
    · rw [List.mem_singleton.mp hd, hrows]
      exact habove
    · exact absurd hd List.not_mem_nil
  have haimed : Aimed con k (t.perform history (command k)).line.text.length
      (t.perform history (command k)).line.cursor
      (recallLine con (cap + 1) history (switchKey con (cap + 1) k s)) ∧
      ∀ d ∈ recallDecrements con (switchKey con (cap + 1) k s), d.2 ≤ d.1 := by
    cases hnew : (switchKey con (cap + 1) k s).newPos with
    | none =>
      refine ⟨?_, fun d hd => ?_⟩
      · unfold recallLine
        rw [hnew]
        exact switchKey_aimed hfits h hp history k hnew
      · rw [recallDecrements, hnew] at hd
        exact absurd hd List.not_mem_nil
    | some i =>
      have hk := advances_of_recall h.newPos (by rw [hnew]; nofun)
      rcases switchKey_switched con h (by omega) history k with hpend | ⟨j, hs, ht⟩
      · exact absurd (hpend.newPos.symm.trans hnew) nofun
      · rw [hs, ht]
        refine ⟨recallLine_aimed hfits h hp history j hk, fun d hd => ?_⟩
        rw [List.mem_singleton.mp hd]
        simp only [hrows]
        exact habove
  have hpending := (recalled_pending con h (by omega) history k)
  obtain ⟨hplaced, hredraw⟩ := redraw_placed hfits hpending hsize haimed.1
  refine ⟨⟨hplaced.at_cursor, hplaced.quiet, fun o ho => ?_⟩, fun d hd => ?_⟩
  · rcases List.mem_append.mp ho with ho | ho
    · exact hplaced.screen o ho
    · rw [List.mem_singleton.mp ho]
      obtain ⟨first', hat', -⟩ := hplaced.at_cursor
      exact hat'.onScreen
  · rcases List.mem_append.mp hd with hd | hd
    · rcases List.mem_append.mp hd with hd | hd
      · exact hswitch d hd
      · exact haimed.2 d hd
    · exact hredraw d hd

end Keys

/-! ### The call -/

section Call

variable {con : Console} {history : List CStr} {bufferSize : UInt64} {buffer : ℕ → UInt16} {cap : ℕ}

/-- The line is limited to the rows above the last one. -/
lemma fits_of_maxStr (htyped : Typed con) (hcol : con.cursorColumn < con.totalColumn)
    (hrow : con.cursorRow < con.totalRow) (hrows : 2 ≤ con.totalRow)
    (hmax : maxStr con bufferSize = cap + 1) : Fits con cap := by
  have hint := htyped.column_int32
  have hle : maxStr con bufferSize ≤ bufferSize.toNat / 2 := maxStr_le
  have hsize : bufferSize.toNat < 2 ^ 64 := bufferSize.toNat_lt
  refine ⟨htyped, hcol, hrow, ?_, by omega⟩
  have hwide : con.totalColumn ≤ con.totalColumn * (con.totalRow - 1) :=
    Nat.le_mul_of_pos_right _ (by omega)
  by_cases hbig : con.totalColumn * (con.totalRow - 1) < 2 ^ 64
  · have hscreen : maxStr con bufferSize ≤
        con.totalColumn * (con.totalRow - 1) - con.cursorColumn := by
      have hsub : sub64 (mul64 con.totalColumn (sub64 con.totalRow 1)) con.cursorColumn =
          con.totalColumn * (con.totalRow - 1) - con.cursorColumn := by
        rw [sub64_of_le htyped.totalRow_lt (by omega), mul64, u64_of_lt hbig,
          sub64_of_le hbig (by omega)]
      unfold maxStr
      dsimp only
      rw [hsub]
      split_ifs <;> omega
    omega
  · omega

lemma start_placed (hfits : Fits con cap) : Placed con (start con history bufferSize buffer) := by
  have hzero : con.cursorRow + rowOf con 0 = con.cursorRow := by
    rw [hfits.rowOf_zero, Nat.add_zero]
  exact ⟨⟨con.cursorRow, ⟨le_rfl, hfits.colOf_zero.symm, hzero.symm, hfits.row_lt⟩,
    hzero.trans_lt hfits.row_lt⟩, fun _ => rfl, nofun⟩

/-- The cursor is at its place in every round. -/
lemma locals_placed (hfits : Fits con cap) (hmax : maxStr con bufferSize = cap + 1)
    {strokes : List KeyStroke} {s : InRead history.length}
    (h : locals con history bufferSize buffer strokes = some s) :
    ∃ t : Session history.length cap, Shows buffer s t ∧ Placed con s := by
  have hround : ∀ m (u : Session history.length cap) stroke, Shows buffer m u ∧ Placed con m →
      keepsReading stroke = true → ∃ m', readKey con history bufferSize m stroke = some m' ∧
        Shows buffer m' (u.edit history.get stroke) ∧ Placed con m' := by
    intro m u stroke hm hstroke
    obtain ⟨m', hm', hshows⟩ := readKey_shows hmax hm.1 hstroke
    refine ⟨m', hm', hshows, ?_⟩
    rw [← (readKey_some hm').2]
    cases stroke with
    | error e =>
      have he : e = EFI_NOT_READY := by simpa [keepsReading] using hstroke
      rw [poll, if_pos he]
      exact hm.2
    | key k =>
      have hk : k.unicodeChar ≠ CHAR_CARRIAGE_RETURN := by simpa [keepsReading] using hstroke
      rw [poll, if_neg hk, hmax]
      exact (processKey_placed hfits hm.1 hm.2 (hmax ▸ maxStr_le) history.get k).1
  obtain ⟨s', hs', hplaced⟩ := Loop.run_sim (readKey con history bufferSize)
    (Session.edit history.get) (fun stroke => keepsReading stroke = true) hround
    ⟨start_shows hmax, start_placed hfits⟩ strokes (keepsReading_of_locals h)
  obtain rfl := Option.some.inj (h.symm.trans hs')
  exact ⟨_, hplaced⟩

/-- The stroke that ends the loop sets the cursor behind the line at most. -/
lemma poll_screen (hfits : Fits con cap) {m s : InRead history.length}
    {t : Session history.length cap} (h : Shows buffer m t) (hp : Placed con m)
    {stroke : KeyStroke} {status : Status}
    (hpoll : poll con history bufferSize m stroke = (s, some status)) :
    ∀ o ∈ s.screen, OnScreen con o := by
  have hle := t.line.cursor_le
  have hlen := t.line.length_le
  rw [← h.stringLen] at hlen
  rw [← h.stringCurPos, ← h.stringLen] at hle
  obtain ⟨first, htail, -⟩ := tail_at hfits hp hle hlen
  rcases poll_left hpoll with rfl | hreturn
  · exact hp.screen
  · have hs : s = (carriageReturn con m).1 := (congrArg Prod.fst hreturn).symm
    rw [hs, carriageReturn]
    split_ifs
    · intro o ho
      rcases List.mem_append.mp ho with ho | ho
      · exact hp.screen o ho
      · rcases List.mem_pair.mp ho with rfl | rfl
        · exact htail.onScreen
        · trivial
    · exact hp.screen

/-- **The cursor.** After every key the column is that of the place in the line, no decrement of the
row goes below zero, and no cursor is set off the screen, the one behind the line included. -/
theorem uefiConsoleInRead_onScreen (htyped : Typed con)
    (hcol : con.cursorColumn < con.totalColumn) (hrow : con.cursorRow < con.totalRow)
    (hrows : 2 ≤ con.totalRow) (hmax : 2 ≤ maxStr con bufferSize) (allocated : Bool × Bool) :
    (∀ strokes s, locals con history bufferSize buffer strokes = some s →
      s.column = (con.cursorColumn + s.stringCurPos) % con.totalColumn ∧
      (∀ o ∈ s.screen, OnScreen con o) ∧
      ∀ k, ∀ d ∈ rowDecrements con (maxStr con bufferSize) (bufferSize.toNat / 2) history.get s k,
        d.2 ≤ d.1) ∧
    ∀ strokes out, uefiConsoleInRead con history allocated bufferSize buffer strokes = some out →
      ∀ o ∈ out.screen, OnScreen con o := by
  obtain ⟨cap, hcap⟩ : ∃ cap, maxStr con bufferSize = cap + 1 :=
    ⟨maxStr con bufferSize - 1, by omega⟩
  have hfits := fits_of_maxStr htyped hcol hrow hrows hcap
  constructor
  · intro strokes s hs
    obtain ⟨t, hshows, hplaced⟩ := locals_placed hfits hcap hs
    obtain ⟨first, hat, -⟩ := hplaced.at_cursor
    refine ⟨hat.column_eq, hplaced.screen, fun k => ?_⟩
    rw [hcap]
    exact (processKey_placed hfits hshows hplaced (hcap ▸ maxStr_le) history.get k).2
  · intro strokes out hout
    have hsize : maxStr con bufferSize ≤ bufferSize.toNat / 2 := maxStr_le
    obtain ⟨s, status, rest, hloop, rfl⟩ := uefiConsoleInRead_some (by omega) hout
    obtain ⟨read, stroke, m, rfl, hm, hpoll⟩ := readLoop_some hloop
    obtain ⟨t, hshows, hplaced⟩ := locals_placed hfits hcap hm
    exact poll_screen hfits hshows hplaced hpoll

/-- A screen of four columns and three rows, and the cursor on the last row. -/
def smallConsole : Console := ⟨4, 3, 1, 2, fun _ _ => EFI_SUCCESS, by norm_num⟩

/-- Four characters wrap there, and the screen scrolls. -/
theorem uefiConsoleInRead_onScreen_wraps :
    ∃ s, locals smallConsole [] 64 (fun _ => 0) (List.replicate 4 (.key ⟨0, 0x61⟩)) = some s ∧
      s.column = (1 + s.stringCurPos) % 4 ∧ ∀ o ∈ s.screen, OnScreen smallConsole o := by
  have htyped : Typed smallConsole := by constructor <;> norm_num [smallConsole]
  have hrun := (@uefiConsoleInRead_onScreen smallConsole [] 64 (fun _ => 0)
    htyped (by decide) (by decide) (by decide) (by decide +kernel) (true, true)).1
  obtain ⟨s, hs⟩ := Option.isSome_iff_exists.mp (show (locals smallConsole [] 64 (fun _ => 0)
    (List.replicate 4 (.key ⟨0, 0x61⟩))).isSome = true by rfl)
  exact ⟨s, hs, (hrun _ s hs).1, (hrun _ s hs).2.1⟩

end Call

end UefiToolkit.ConsoleCursor
