import UefiToolkit.Loop
import UefiToolkit.ConsoleModel

/-!
Reading a command line is overwrite-mode line editing.

The reference is a session: a line under edit and a place in the history. After every key the
buffer shows the text of the session and nothing behind it, and the locals follow its cursor.
-/

namespace UefiToolkit.ConsoleEdit

open UefiToolkit.Word UefiToolkit.LineEditor UefiToolkit.ConsoleModel

/-! ### The reference session -/

/-- A line under edit, and the place in the history; none stands outside it. -/
structure Session (n cap : ℕ) where
  line : Line UInt16 cap
  place : Option (Fin n)

inductive Command where
  | put (c : UInt16)
  | backspace
  | delete
  | older
  | newer
  | left
  | right
  | home
  | toEnd
  | clear
  | nothing

/-- What a key asks for. -/
def command (k : Key) : Command :=
  if 0x20 ≤ k.unicodeChar then .put k.unicodeChar
  else if k.unicodeChar = CHAR_BACKSPACE then .backspace
  else if k.unicodeChar ≠ CHAR_NULL then .nothing
  else if k.scanCode = SCAN_UP then .older
  else if k.scanCode = SCAN_DOWN then .newer
  else if k.scanCode = SCAN_RIGHT then .right
  else if k.scanCode = SCAN_LEFT then .left
  else if k.scanCode = SCAN_HOME then .home
  else if k.scanCode = SCAN_END then .toEnd
  else if k.scanCode = SCAN_DELETE then .delete
  else if k.scanCode = SCAN_ESC then .clear
  else .nothing

section Session

variable {n cap : ℕ} (history : Fin n → CStr)

/-- Move to a place of the history; the line found there is loaded, if the place is a new one. -/
def Session.visit (t : Session n cap) (place : Option (Fin n)) : Session n cap :=
  if place = t.place then t
  else
    match place with
    | none => t
    | some i => ⟨Line.load (history i).chars, some i⟩

def Session.perform (t : Session n cap) : Command → Session n cap
  | .put c => { t with line := t.line.put c }
  | .backspace => { t with line := t.line.backspace }
  | .delete => { t with line := t.line.delete }
  | .older => t.visit history (older t.place)
  | .newer => t.visit history (newer t.place)
  | .left => { t with line := t.line.left }
  | .right => { t with line := t.line.right }
  | .home => { t with line := t.line.home }
  | .toEnd => { t with line := t.line.toEnd }
  | .clear => { t with line := Line.empty }
  | .nothing => t

/-- A key stroke; one that could not be read changes nothing. -/
def Session.edit (t : Session n cap) : KeyStroke → Session n cap
  | .key k => t.perform history (command k)
  | .error _ => t

end Session

/-! ### Text in the buffer -/

/-- The first `max` cells hold the text, its terminator and zeros, but for `gap` cells behind
the terminator's place. -/
def Holds (max gap : ℕ) (m : ℕ → UInt16) (text : List UInt16) : Prop :=
  ∀ i < max, i ≤ text.length ∨ text.length + gap ≤ i → m i = text[i]?.getD CHAR_NULL

section Holds

variable {max gap size : ℕ} {m : ℕ → UInt16} {text line : List UInt16}

lemma holds_iff : Holds max 0 m text ↔ ∀ i < max, m i = text[i]?.getD CHAR_NULL :=
  ⟨fun h i hi => h i hi (by omega), fun h i hi _ => h i hi⟩

lemma Holds.mono (h : Holds max 0 m text) (gap : ℕ) : Holds max gap m text :=
  fun i hi _ => holds_iff.mp h i hi

lemma Holds.strAt (h : Holds max gap m text) (hlen : text.length < max) (hsize : max ≤ size)
    (hchar : ∀ c ∈ text, isChar c = true) : (strAt size m 0).chars = text := by
  have hcells : Mem.slice m 0 text.length = text := by
    refine Mem.slice_eq_iff.mpr fun i hi => ?_
    rw [Nat.zero_add, h i (by omega) (Or.inl hi.le), List.getElem?_eq_getElem hi]
    rfl
  have hnul : m text.length = CHAR_NULL := by
    rw [h _ hlen (Or.inl le_rfl), List.getElem?_eq_none le_rfl]
    rfl
  exact Mem.takeWhile_slice hcells hchar (by rw [Nat.zero_add, hnul]; rfl) (by omega)

/-- The cells behind the terminator are cleared. -/
lemma Holds.zeroMem (h : Holds max gap m text) :
    Holds max 0 (zeroMem m text.length gap) text := by
  refine holds_iff.mpr fun i hi => ?_
  by_cases hin : text.length ≤ i ∧ i < text.length + gap
  · obtain ⟨k, rfl⟩ := Nat.exists_eq_add_of_le hin.1
    have hk : k < (List.replicate gap CHAR_NULL).length := by simp; omega
    rw [ConsoleModel.zeroMem, Mem.blit_in _ _ hk, List.getElem?_eq_none hin.1]
    simp
  · rw [ConsoleModel.zeroMem, Mem.blit_out _ (by simp; omega)]
    exact h i hi (by omega)

/-- Cleared cells hold the empty text. -/
lemma holds_nil (max : ℕ) (m : ℕ → UInt16) : Holds max 0 (ConsoleModel.zeroMem m 0 max) [] := by
  refine holds_iff.mpr fun i hi => ?_
  have hzero := Mem.blit_in m 0 (l := List.replicate max CHAR_NULL) (k := i)
    (by rwa [List.length_replicate])
  simpa [ConsoleModel.zeroMem] using hzero

lemma Holds.put_inside (h : Holds max 0 m text) {p : ℕ} (hp : p < text.length) (c : UInt16) :
    Holds max 0 (Mem.put m p c) (text.set p c) := by
  refine holds_iff.mpr fun i hi => ?_
  by_cases hip : i = p
  · subst hip
    simp [hp]
  · rw [Mem.put_ne _ _ hip, holds_iff.mp h i hi, List.getElem?_set_ne (Ne.symm hip)]

lemma Holds.put_end (h : Holds max 0 m text) (c : UInt16) :
    Holds max 0 (Mem.put m text.length c) (text ++ [c]) := by
  refine holds_iff.mpr fun i hi => ?_
  rcases Nat.lt_trichotomy i text.length with hlt | rfl | hgt
  · rw [Mem.put_ne _ _ hlt.ne, holds_iff.mp h i hi, List.getElem?_append_left hlt]
  · simp
  · rw [Mem.put_ne _ _ hgt.ne', holds_iff.mp h i hi, List.getElem?_eq_none hgt.le,
      List.getElem?_eq_none (by rw [List.length_append, List.length_singleton]; omega)]

/-- The gap a character leaves is closed, terminator included. -/
lemma Holds.erase (h : Holds max 0 m text) {p : ℕ} (hp : p < text.length)
    (hlen : text.length < max) :
    Holds max 0 (copyMem m p (p + 1) (text.length - p)) (text.eraseIdx p) := by
  refine holds_iff.mpr fun i hi => ?_
  rw [List.getElem?_eraseIdx]
  by_cases hin : p ≤ i ∧ i < text.length
  · obtain ⟨k, rfl⟩ := Nat.exists_eq_add_of_le hin.1
    have hk : k < (Mem.slice m (p + 1) (text.length - p)).length := by
      rw [Mem.slice_length]; omega
    rw [copyMem, Mem.blit_in _ _ hk, Mem.slice_getElem, if_neg (by omega),
      holds_iff.mp h _ (by omega), show p + 1 + k = p + k + 1 by omega]
  · rw [copyMem, Mem.blit_out _ (by rw [Mem.slice_length]; omega), holds_iff.mp h i hi]
    split_ifs with hlt
    · rfl
    · rw [List.getElem?_eq_none (by omega), List.getElem?_eq_none (by omega)]

lemma Holds.clear (h : Holds max 0 m text) :
    Holds max text.length (Mem.put m 0 CHAR_NULL) [] := by
  intro i hi hgap
  by_cases h0 : i = 0
  · subst h0
    simp
  · rw [Mem.put_ne _ _ h0, holds_iff.mp h i hi, List.getElem?_eq_none (by simp at hgap; omega)]
    rfl

/-- A line is loaded over another; what is left of the longer one is the gap. -/
lemma Holds.load (h : Holds max 0 m text) (line : List UInt16) :
    Holds max (text.length - line.length)
      (Mem.put (Mem.blit m 0 line) line.length CHAR_NULL) line := by
  intro i hi hgap
  rcases Nat.lt_trichotomy i line.length with hlt | rfl | hgt
  · rw [Mem.put_ne _ _ hlt.ne, List.getElem?_eq_getElem hlt]
    simpa using Mem.blit_in m 0 hlt
  · simp
  · rw [Mem.put_ne _ _ hgt.ne', Mem.blit_out _ (by omega), holds_iff.mp h i hi,
      List.getElem?_eq_none (by omega), List.getElem?_eq_none hgt.le]

end Holds

/-! ### The locals between two keys -/

lemma confined_zeroMem {max p k : ℕ} {m m' : ℕ → UInt16} (h : Mem.Confined 0 max m m')
    (hp : p + k ≤ max) : Mem.Confined 0 max m (zeroMem m' p k) :=
  h.blit ⟨Nat.zero_le p, by simpa using hp⟩

section Locals

variable {n cap : ℕ} {buffer : ℕ → UInt16} {s : InRead n} {t : Session n cap}

/-- The locals show a session: the buffer holds its line in the first `cap + 1` cells, zeros
behind it, and is untouched from there on. -/
structure Shows (buffer : ℕ → UInt16) (s : InRead n) (t : Session n cap) : Prop where
  cells : Holds (cap + 1) 0 s.currentString t.line.text
  outside : Mem.Confined 0 (cap + 1) buffer s.currentString
  chars : ∀ c ∈ t.line.text, isChar c = true
  stringLen : s.stringLen = t.line.text.length
  stringCurPos : s.stringCurPos = t.line.cursor
  delete : s.delete = 0
  linePos : s.linePos = t.place
  newPos : s.newPos = none

/-- The locals before the line is drawn again: the length is still to be measured, and
`Delete` cells are still to be cleared. -/
structure Pending (buffer : ℕ → UInt16) (s : InRead n) (t : Session n cap) : Prop where
  cells : Holds (cap + 1) s.delete s.currentString t.line.text
  fits : t.line.text.length + s.delete ≤ cap + 1
  outside : Mem.Confined 0 (cap + 1) buffer s.currentString
  chars : ∀ c ∈ t.line.text, isChar c = true
  cursor : min s.stringCurPos t.line.text.length = t.line.cursor
  still : s.update = none →
    s.stringLen = t.line.text.length ∧ s.stringCurPos = t.line.cursor ∧ s.delete = 0
  linePos : s.linePos = t.place
  newPos : s.newPos = none

lemma Shows.length_lt (_ : Shows buffer s t) : t.line.text.length < cap + 1 :=
  Nat.lt_succ_of_le t.line.length_le

lemma Shows.pending (h : Shows buffer s t) : Pending buffer s t where
  cells := h.cells.mono _
  fits := by rw [h.delete]; exact h.length_lt.le
  outside := h.outside
  chars := h.chars
  cursor := by rw [h.stringCurPos]; exact min_eq_left t.line.cursor_le
  still := fun _ => ⟨h.stringLen, h.stringCurPos, h.delete⟩
  linePos := h.linePos
  newPos := h.newPos

/-! ### The keys -/

variable (con : Console)

lemma printableKey_pending (h : Shows buffer s t) (hcap : cap + 1 < 2 ^ 64) {c : UInt16}
    (hc : isChar c = true) :
    Pending buffer (printableKey (cap + 1) c s) { t with line := t.line.put c } := by
  have hmax : sub64 (cap + 1) 1 = cap := by rw [sub64_of_le hcap (by omega)]; omega
  have hle := t.line.length_le
  have hchars : ∀ a ∈ (t.line.put c).text, isChar a = true := by
    intro a ha
    rcases Line.mem_put ha with ha | rfl
    · exact h.chars a ha
    · exact hc
  unfold printableKey
  rw [hmax, h.stringLen, h.stringCurPos]
  rcases t.line.cursor_le.lt_or_eq with hin | hend
  · -- a character is overwritten
    obtain ⟨htext, hcur⟩ := Line.put_inside hin c
    rw [if_neg (by omega)]
    refine ⟨?_, ?_, h.outside.put (by omega) c, hchars, ?_, nofun, h.linePos, h.newPos⟩
    · simpa only [htext] using (h.cells.put_inside hin c).mono _
    · simp only [htext, h.delete, List.length_set]; omega
    · simp only [htext, hcur, List.length_set]; omega
  · rcases hle.lt_or_eq with hroom | hfull
    · -- a character is appended
      obtain ⟨htext, hcur⟩ := Line.put_end hend hroom c
      rw [if_neg (by omega)]
      refine ⟨?_, ?_, h.outside.put (by omega) c, hchars, ?_, nofun, h.linePos,
        h.newPos⟩
      · simpa only [htext, hend] using (h.cells.put_end c).mono _
      · simp only [htext, h.delete, List.length_append, List.length_singleton]; omega
      · simp only [htext, hcur, List.length_append, List.length_singleton]; omega
    · -- the line is full
      rw [if_pos ⟨hfull, hend⟩, Line.put_full hend hfull]
      exact h.pending

/-- Both keys that remove the character at a place `p` leave this behind. -/
lemma erase_pending (h : Shows buffer s t) (hcap : cap + 1 < 2 ^ 64) {p : ℕ}
    {l : Line UInt16 cap} (hp : p < t.line.text.length) (hl : l.text = t.line.text.eraseIdx p)
    (hcur : p = l.cursor) (column row : ℕ) :
    Pending buffer
      { s with
        currentString := copyMem s.currentString p (p + 1) (sub64 s.stringLen p)
        stringCurPos := p, update := some p, delete := 1, column := column, row := row }
      { t with line := l } := by
  have hlen := h.length_lt
  have hsub : sub64 s.stringLen p = t.line.text.length - p := by
    rw [h.stringLen]
    exact sub64_of_le (by omega) hp.le
  have hl' : l.text.length = t.line.text.length - 1 := by
    rw [hl, List.length_eraseIdx_of_lt hp]
  refine ⟨?_, ?_, ?_, ?_, ?_, nofun, h.linePos, h.newPos⟩
  · simpa only [hsub, hl] using (h.cells.erase hp hlen).mono 1
  · simp only [hl']; omega
  · simp only [hsub]
    exact h.outside.blit (by rw [Mem.slice_length]; omega)
  · intro c hc
    simp only [hl] at hc
    exact h.chars c ((List.eraseIdx_sublist _ _).subset hc)
  · simp only [hl', ← hcur]; omega

lemma backspaceKey_pending (h : Shows buffer s t) (hcap : cap + 1 < 2 ^ 64) :
    Pending buffer (backspaceKey con s) { t with line := t.line.backspace } := by
  have hcur := t.line.cursor_le
  have hpos := h.stringCurPos
  unfold backspaceKey Line.backspace
  by_cases h0 : t.line.cursor = 0
  · rw [if_pos (hpos.trans h0), if_pos h0]
    exact h.pending
  · rw [if_neg (by omega), if_neg h0]
    refine erase_pending h hcap (by omega) ?_ ?_ _ _
    · rw [hpos]; rfl
    · rw [hpos]; rfl

lemma deleteKey_pending (h : Shows buffer s t) (hcap : cap + 1 < 2 ^ 64) :
    Pending buffer (deleteKey s) { t with line := t.line.delete } := by
  have hlen := h.length_lt
  unfold deleteKey
  rcases t.line.cursor_le.lt_or_eq with hin | hend
  · rw [if_neg (by rw [h.stringLen]; omega)]
    refine erase_pending h hcap (l := t.line.delete) (by rwa [h.stringCurPos]) ?_
      h.stringCurPos s.column s.row
    rw [h.stringCurPos]; rfl
  · -- nothing stands at the cursor
    have hsame : t.line.delete = t.line := Line.ext (List.eraseIdx_of_length_le hend.ge) rfl
    rw [hsame]
    split_ifs
    · exact h.pending
    · have hcopy : copyMem s.currentString s.stringCurPos (s.stringCurPos + 1)
          (sub64 s.stringLen s.stringCurPos) = s.currentString := by
        rw [h.stringLen, h.stringCurPos, hend, sub64_of_le (by omega) le_rfl, Nat.sub_self]
        simp [copyMem]
      rw [hcopy]
      exact ⟨h.cells.mono 1, by simpa using h.length_lt, h.outside, h.chars,
        h.pending.cursor, nofun, h.linePos, h.newPos⟩

lemma escKey_pending (h : Shows buffer s t) :
    Pending buffer (escKey con s) (⟨Line.empty, t.place⟩ : Session n cap) where
  cells := by
    simp only [escKey, h.stringLen]
    exact h.cells.clear
  fits := by
    simp only [escKey, h.stringLen, Line.empty, List.length_nil, Nat.zero_add]
    exact h.length_lt.le
  outside := h.outside.put ⟨le_rfl, Nat.succ_pos cap⟩ _
  chars := by simp [Line.empty]
  cursor := by simp [Line.empty]
  still := nofun
  linePos := h.linePos
  newPos := h.newPos

/-- A key that only moves the cursor. -/
lemma Shows.move (h : Shows buffer s t) {l : Line UInt16 cap} (hl : l.text = t.line.text)
    {p : ℕ} (hp : p = l.cursor) (column row : ℕ) :
    Shows buffer { s with stringCurPos := p, column := column, row := row }
      { t with line := l } where
  cells := by simpa only [hl] using h.cells
  outside := h.outside
  chars := by simpa only [hl] using h.chars
  stringLen := by simpa only [hl] using h.stringLen
  stringCurPos := hp
  delete := h.delete
  linePos := h.linePos
  newPos := h.newPos

lemma leftKey_shows (h : Shows buffer s t) :
    Shows buffer (leftKey con s) { t with line := t.line.left } := by
  unfold leftKey
  split_ifs with h0
  · exact h.move (l := t.line.left) rfl (by rw [h.stringCurPos] at *; simp [Line.left, h0])
      s.column s.row
  · exact h.move (l := t.line.left) rfl (by rw [h.stringCurPos]; rfl) _ _

lemma rightKey_shows (h : Shows buffer s t) :
    Shows buffer (rightKey con s) { t with line := t.line.right } := by
  have hcur := t.line.cursor_le
  have hr : t.line.right.cursor = min (t.line.cursor + 1) t.line.text.length := rfl
  have hpos := h.stringCurPos
  have hlen := h.stringLen
  unfold rightKey
  split_ifs
  · exact h.move (l := t.line.right) rfl (by omega) _ _
  · exact h.move (l := t.line.right) rfl (by omega) s.column s.row

lemma homeKey_shows (h : Shows buffer s t) :
    Shows buffer (homeKey con s) { t with line := t.line.home } :=
  h.move (l := t.line.home) rfl rfl _ _

lemma endKey_shows (h : Shows buffer s t) :
    Shows buffer (endKey con s) { t with line := t.line.toEnd } :=
  h.move (l := t.line.toEnd) rfl h.stringLen _ _

lemma recall_length (hcap : cap + 1 < 2 ^ 64) (line : List UInt16) :
    (if line.length < sub64 (cap + 1) 1 then line.length else sub64 (cap + 1) 1) =
      (line.take cap).length := by
  rw [sub64_of_le hcap (by omega), List.length_take, Nat.add_sub_cancel]
  split_ifs <;> omega

/-- The history line the locals ask for is taken over. -/
lemma recallLine_pending (h : Shows buffer s t) (hcap : cap + 1 < 2 ^ 64)
    (history : Fin n → CStr) (i : Fin n) :
    Pending buffer (recallLine con (cap + 1) history { s with newPos := some i })
      (⟨Line.load (history i).chars, some i⟩ : Session n cap) := by
  have hlen := h.length_lt
  set line := (history i).chars with hline
  have htake : line.take (line.take cap).length = line.take cap := by
    rw [List.length_take, List.take_eq_take_iff]
    omega
  have hle : (line.take cap).length ≤ cap := List.length_take_le _ _
  have hgap : (if (line.take cap).length < s.stringLen
      then sub64 s.stringLen (line.take cap).length else s.delete) =
      t.line.text.length - (line.take cap).length := by
    rw [h.stringLen, h.delete]
    split_ifs with hlt
    · exact sub64_of_le (by omega) hlt.le
    · omega
  simp only [recallLine, ← hline, recall_length hcap, htake, hgap]
  refine ⟨?_, ?_, ?_, ?_, ?_, nofun, rfl, rfl⟩
  · exact h.cells.load (line.take cap)
  · simp only [Line.load]; omega
  · exact (h.outside.blit (by omega)).put (by omega) _
  · exact fun c hc => (history i).isChar_of_mem c (List.mem_of_mem_take hc)
  · simp [Line.load]

/-! ### Drawing the line -/

lemma advanceCursor_eq (s : InRead n) :
    ∃ column row, advanceCursor con s = { s with column := column, row := row } := by
  unfold advanceCursor
  dsimp only
  split_ifs <;> exact ⟨_, _, rfl⟩

lemma printUpdate_eq (size update : ℕ) (s : InRead n) :
    ∃ screen, printUpdate size update s = { s with screen := screen } := by
  unfold printUpdate
  split_ifs
  · exact ⟨_, rfl⟩
  · exact ⟨s.screen, rfl⟩

lemma measureLine_shows {size : ℕ} (h : Pending buffer s t) (hsize : cap + 1 ≤ size)
    (screen : List Output) (column row : ℕ) :
    Shows buffer
      { measureLine size { s with screen := screen } with
        column := column, row := row, delete := 0 }
      t := by
  have hlen : strLen size s.currentString = t.line.text.length :=
    congrArg List.length
      (h.cells.strAt (Nat.lt_succ_of_le t.line.length_le) hsize h.chars)
  have hcells : (if s.delete ≠ 0 then zeroMem s.currentString t.line.text.length s.delete
      else s.currentString) = zeroMem s.currentString t.line.text.length s.delete := by
    split_ifs with h0
    · rfl
    · rw [not_not.mp h0, zeroMem, List.replicate_zero, Mem.blit_nil]
  simp only [measureLine, hlen, hcells]
  refine ⟨h.cells.zeroMem, confined_zeroMem h.outside h.fits, h.chars, rfl, ?_, rfl, h.linePos,
    h.newPos⟩
  rw [← h.cursor]
  simp only
  split_ifs <;> omega

lemma redraw_shows {size : ℕ} (h : Pending buffer s t) (hsize : cap + 1 ≤ size) (k : Key) :
    Shows buffer (redraw con size k s) t := by
  unfold redraw
  cases hu : s.update with
  | none =>
    obtain ⟨hlen, hpos, hdel⟩ := h.still hu
    have hcells := h.cells
    rw [hdel] at hcells
    exact ⟨hcells, h.outside, h.chars, hlen, hpos, hdel, h.linePos, h.newPos⟩
  | some update =>
    obtain ⟨screen, hprint⟩ := printUpdate_eq size update s
    simp only [hprint]
    split_ifs
    · obtain ⟨column, row, hadvance⟩ := advanceCursor_eq con (measureLine size { s with screen })
      rw [hadvance]
      exact measureLine_shows h hsize screen column row
    · exact measureLine_shows h hsize screen s.column s.row

/-! ### A key as a whole -/

/-- What the `switch` leaves behind: the line edited, or a history line asked for. -/
def Switched (buffer : ℕ → UInt16) (history : Fin n → CStr) (s s' : InRead n)
    (t' : Session n cap) : Prop :=
  Pending buffer s' t' ∨
    ∃ i, s' = { s with newPos := some i } ∧ t' = ⟨Line.load (history i).chars, some i⟩

/-- A step of the ring asks for the line at the place that is visited, if that is a new one. -/
lemma visit_cases (t : Session n cap) (history : Fin n → CStr) {place step : Option (Fin n)}
    (hstep : step = if place = t.place then none else place) :
    step = none ∧ t.visit history place = t ∨
      ∃ i, step = some i ∧ t.visit history place = ⟨Line.load (history i).chars, some i⟩ := by
  unfold Session.visit
  subst hstep
  split_ifs
  · exact Or.inl ⟨rfl, rfl⟩
  · cases place with
    | none => exact Or.inl ⟨rfl, rfl⟩
    | some i => exact Or.inr ⟨i, rfl, rfl⟩

lemma visit_switched (h : Shows buffer s t) (history : Fin n → CStr) {place step : Option (Fin n)}
    (hstep : step = if place = t.place then none else place) :
    Switched buffer history s { s with newPos := step } (t.visit history place) := by
  rcases visit_cases t history hstep with ⟨hnone, hsame⟩ | ⟨i, hsome, hline⟩
  · have hs : { s with newPos := none } = s := by rw [← h.newPos]
    rw [hnone, hsame, hs]
    exact Or.inl h.pending
  · exact Or.inr ⟨i, by rw [hsome], hline⟩

/-- What the `switch` does with a key, and the command that is. -/
inductive Pressed (con : Console) (maxStr : ℕ) (k : Key) (s : InRead n) : InRead n → Command → Prop
  | put (hc : 0x20 ≤ k.unicodeChar) :
    Pressed con maxStr k s (printableKey maxStr k.unicodeChar s) (.put k.unicodeChar)
  | backspace (hc : k.unicodeChar = CHAR_BACKSPACE) :
    Pressed con maxStr k s (backspaceKey con s) .backspace
  | delete (hc : k.unicodeChar = 0) (hs : k.scanCode = SCAN_DELETE) :
    Pressed con maxStr k s (deleteKey s) .delete
  | older (hc : k.unicodeChar = 0) (hs : k.scanCode = SCAN_UP) :
    Pressed con maxStr k s (upKey s) .older
  | newer (hc : k.unicodeChar = 0) (hs : k.scanCode = SCAN_DOWN) :
    Pressed con maxStr k s (downKey s) .newer
  | left (hc : k.unicodeChar = 0) (hs : k.scanCode = SCAN_LEFT) :
    Pressed con maxStr k s (leftKey con s) .left
  | right (hc : k.unicodeChar = 0) (hs : k.scanCode = SCAN_RIGHT) :
    Pressed con maxStr k s (rightKey con s) .right
  | home (hc : k.unicodeChar = 0) (hs : k.scanCode = SCAN_HOME) :
    Pressed con maxStr k s (homeKey con s) .home
  | toEnd (hc : k.unicodeChar = 0) (hs : k.scanCode = SCAN_END) :
    Pressed con maxStr k s (endKey con s) .toEnd
  | clear (hc : k.unicodeChar = 0) (hs : k.scanCode = SCAN_ESC) :
    Pressed con maxStr k s (escKey con s) .clear
  | nothing (hc : k.unicodeChar ≠ CHAR_BACKSPACE)
      (hs : k.unicodeChar = 0 →
        k.scanCode ≠ SCAN_LEFT ∧ k.scanCode ≠ SCAN_HOME ∧ k.scanCode ≠ SCAN_ESC) :
    Pressed con maxStr k s s .nothing

lemma scanKey_pressed (maxStr : ℕ) (s : InRead n) {k : Key} (hk : k.unicodeChar = 0) :
    Pressed con maxStr k s (scanKey con k.scanCode s) (command k) := by
  obtain ⟨scan, c⟩ := k
  obtain rfl : c = 0 := hk
  by_cases h1 : scan = SCAN_DELETE
  · subst h1
    exact .delete rfl rfl
  by_cases h2 : scan = SCAN_UP
  · subst h2
    exact .older rfl rfl
  by_cases h3 : scan = SCAN_DOWN
  · subst h3
    exact .newer rfl rfl
  by_cases h4 : scan = SCAN_LEFT
  · subst h4
    exact .left rfl rfl
  by_cases h5 : scan = SCAN_RIGHT
  · subst h5
    exact .right rfl rfl
  by_cases h6 : scan = SCAN_HOME
  · subst h6
    exact .home rfl rfl
  by_cases h7 : scan = SCAN_END
  · subst h7
    exact .toEnd rfl rfl
  by_cases h8 : scan = SCAN_ESC
  · subst h8
    exact .clear rfl rfl
  · have hcommand : command ⟨scan, 0⟩ = .nothing := by
      simp [command, h1, h2, h3, h4, h5, h6, h7, h8, CHAR_BACKSPACE, CHAR_NULL]
    have hscan : scanKey con scan s = s := by
      simp only [scanKey, h1, h2, h3, h4, h5, h6, h7, h8, if_false]
    rw [hcommand, hscan]
    exact .nothing (show (0 : UInt16) ≠ CHAR_BACKSPACE by decide) fun _ => ⟨h4, h6, h8⟩

lemma switchKey_pressed (maxStr : ℕ) (s : InRead n) (k : Key) :
    Pressed con maxStr k s (switchKey con maxStr k s) (command k) := by
  unfold switchKey
  by_cases h1 : k.unicodeChar = CHAR_BACKSPACE
  · have hcommand : command k = .backspace := by
      simp [command, h1, CHAR_BACKSPACE]
    rw [if_pos h1, hcommand]
    exact .backspace h1
  by_cases h2 : k.unicodeChar = 0
  · rw [if_neg h1, if_pos h2]
    exact scanKey_pressed con maxStr s h2
  rw [if_neg h1, if_neg h2]
  by_cases h3 : 0x20 ≤ k.unicodeChar
  · rw [if_pos h3, command, if_pos h3]
    exact .put h3
  · have hcommand : command k = .nothing := by
      simp [command, h1, h2, h3, CHAR_NULL]
    rw [if_neg h3, hcommand]
    exact .nothing h1 fun h => absurd h h2

lemma upKey_eq (h : Shows buffer s t) : upKey s = { s with newPos := prev t.place } := by
  simp [upKey, h.linePos]

lemma downKey_eq (h : Shows buffer s t) : downKey s = { s with newPos := next t.place } := by
  simp [downKey, h.linePos]

lemma switchKey_switched (h : Shows buffer s t) (hcap : cap + 1 < 2 ^ 64)
    (history : Fin n → CStr) (k : Key) :
    Switched buffer history s (switchKey con (cap + 1) k s) (t.perform history (command k)) := by
  have hkey := switchKey_pressed con (cap + 1) s k
  generalize switchKey con (cap + 1) k s = s' at hkey ⊢
  generalize command k = c at hkey ⊢
  cases hkey with
  | put hc =>
    refine Or.inl (printableKey_pending h hcap (decide_eq_true ?_))
    rintro h0
    rw [h0] at hc
    exact absurd hc (by decide)
  | backspace => exact Or.inl (backspaceKey_pending con h hcap)
  | delete => exact Or.inl (deleteKey_pending h hcap)
  | older =>
    rw [upKey_eq h]
    exact visit_switched h history (prev_eq t.place)
  | newer =>
    rw [downKey_eq h]
    exact visit_switched h history (next_eq t.place)
  | left => exact Or.inl (leftKey_shows con h).pending
  | right => exact Or.inl (rightKey_shows con h).pending
  | home => exact Or.inl (homeKey_shows con h).pending
  | toEnd => exact Or.inl (endKey_shows con h).pending
  | clear => exact Or.inl (escKey_pending con h)
  | nothing => exact Or.inl h.pending

lemma recalled_pending (h : Shows buffer s t) (hcap : cap + 1 < 2 ^ 64) (history : Fin n → CStr)
    (k : Key) :
    Pending buffer (recallLine con (cap + 1) history (switchKey con (cap + 1) k s))
      (t.perform history (command k)) := by
  rcases switchKey_switched con h hcap history k with hp | ⟨i, hs, ht⟩
  · unfold recallLine
    rw [hp.newPos]
    exact hp
  · rw [hs, ht]
    exact recallLine_pending con h hcap history i

/-- **One key.** The locals follow the session. -/
theorem processKey_shows {size : ℕ} (h : Shows buffer s t) (hcap : cap + 1 < 2 ^ 64)
    (hsize : cap + 1 ≤ size) (history : Fin n → CStr) (k : Key) :
    Shows buffer (processKey con (cap + 1) size history s k)
      (t.perform history (command k)) := by
  have hshows := redraw_shows con (recalled_pending con h hcap history k) hsize k
  exact ⟨hshows.cells, hshows.outside, hshows.chars, hshows.stringLen, hshows.stringCurPos,
    hshows.delete, hshows.linePos, hshows.newPos⟩

end Locals

/-! ### The call -/

section Call

variable (con : Console) (history : List CStr) (bufferSize : UInt64) (buffer : ℕ → UInt16)

/-- A stroke that leaves the loop running: a key other than the carriage return, or none yet. -/
def keepsReading : KeyStroke → Bool
  | .key k => k.unicodeChar ≠ CHAR_CARRIAGE_RETURN
  | .error e => e = EFI_NOT_READY

/-- One round of a loop that keeps running. -/
def readKey (s : InRead history.length) (stroke : KeyStroke) : Option (InRead history.length) :=
  if (poll con history bufferSize s stroke).2 = none then
    some (poll con history bufferSize s stroke).1
  else none

/-- The locals after strokes that leave the loop running. -/
def locals (strokes : List KeyStroke) : Option (InRead history.length) :=
  Loop.run (readKey con history bufferSize) (start con history bufferSize buffer) strokes

/-- The reference session after the strokes, for lines of at most `cap` characters: it begins
with an empty line and outside the history. -/
def session (cap : ℕ) (strokes : List KeyStroke) : Session history.length cap :=
  strokes.foldl (Session.edit history.get) ⟨Line.empty, none⟩

/-- The cursor stands in the line, the line fits, and zeros stand behind it. -/
structure Tidy {n : ℕ} (maxStr : ℕ) (s : InRead n) : Prop where
  curPos_le : s.stringCurPos ≤ s.stringLen
  len_le : s.stringLen ≤ maxStr - 1
  tail : ∀ i, s.stringLen ≤ i → i < maxStr → s.currentString i = CHAR_NULL

variable {con history bufferSize buffer}

lemma Shows.tidy {n cap : ℕ} {s : InRead n} {t : Session n cap} (h : Shows buffer s t) :
    Tidy (cap + 1) s := by
  refine ⟨?_, ?_, fun i hlen hi => ?_⟩
  · rw [h.stringCurPos, h.stringLen]
    exact t.line.cursor_le
  · rw [h.stringLen]
    exact t.line.length_le
  · rw [h.stringLen] at hlen
    rw [holds_iff.mp h.cells i hi, List.getElem?_eq_none hlen]
    rfl

lemma maxStr_lt : maxStr con bufferSize < 2 ^ 64 := by
  have := sub64_lt (mul64 con.totalColumn (sub64 con.totalRow 1)) con.cursorColumn
  unfold maxStr
  dsimp only
  split_ifs <;> omega

lemma maxStr_le : maxStr con bufferSize ≤ bufferSize.toNat / 2 := by
  unfold maxStr
  dsimp only
  split_ifs <;> omega

lemma start_shows {cap : ℕ} (hmax : maxStr con bufferSize = cap + 1) :
    Shows buffer (start con history bufferSize buffer)
      (⟨Line.empty, none⟩ : Session history.length cap) where
  cells := by
    rw [← hmax]
    exact holds_nil _ buffer
  outside := by
    rw [← hmax]
    exact confined_zeroMem (Mem.Confined.refl 0 _ buffer) (Nat.zero_add _).le
  chars := by simp [Line.empty]
  stringLen := rfl
  stringCurPos := rfl
  delete := rfl
  linePos := rfl
  newPos := rfl

lemma readKey_shows {cap : ℕ} (hmax : maxStr con bufferSize = cap + 1)
    {s : InRead history.length} {t : Session history.length cap} {stroke : KeyStroke}
    (h : Shows buffer s t) (hstroke : keepsReading stroke = true) :
    ∃ s', readKey con history bufferSize s stroke = some s' ∧
      Shows buffer s' (t.edit history.get stroke) := by
  cases stroke with
  | error e =>
    have he : e = EFI_NOT_READY := by simpa [keepsReading] using hstroke
    exact ⟨s, by simp [readKey, poll, he], h⟩
  | key k =>
    have hk : k.unicodeChar ≠ CHAR_CARRIAGE_RETURN := by simpa [keepsReading] using hstroke
    refine ⟨_, by simp only [readKey, poll, if_neg hk, if_true]; rfl, ?_⟩
    rw [hmax]
    exact processKey_shows con h (hmax ▸ maxStr_lt) (hmax ▸ maxStr_le) history.get k

/-- The locals follow the session over any strokes that leave the loop running. -/
lemma locals_shows (buffer : ℕ → UInt16) {cap : ℕ} (hmax : maxStr con bufferSize = cap + 1)
    {strokes : List KeyStroke}
    (h : ∀ stroke ∈ strokes, keepsReading stroke = true) :
    ∃ s, locals con history bufferSize buffer strokes = some s ∧
      Shows buffer s (session history cap strokes) :=
  Loop.run_sim (readKey con history bufferSize) (Session.edit history.get)
    (fun stroke => keepsReading stroke = true)
    (fun _ _ _ hs hk => readKey_shows hmax hs hk) (start_shows hmax) strokes h

/-- A round that keeps running has read a stroke that leaves the loop running. -/
lemma readKey_some {s s' : InRead history.length} {stroke : KeyStroke}
    (h : readKey con history bufferSize s stroke = some s') :
    keepsReading stroke = true ∧ (poll con history bufferSize s stroke).1 = s' := by
  unfold readKey at h
  split_ifs at h with hleft
  refine ⟨?_, Option.some.inj h⟩
  by_contra hstroke
  cases stroke with
  | error e =>
    have he : e ≠ EFI_NOT_READY := by simpa [keepsReading] using hstroke
    simp [poll, he] at hleft
  | key k =>
    have hk : k.unicodeChar = CHAR_CARRIAGE_RETURN := by simpa [keepsReading] using hstroke
    simp [poll, hk] at hleft

lemma keepsReading_of_locals {strokes : List KeyStroke} {s : InRead history.length}
    (h : locals con history bufferSize buffer strokes = some s) :
    ∀ stroke ∈ strokes, keepsReading stroke = true :=
  Loop.run_forall (readKey con history bufferSize)
    (fun _ _ _ hkey => (readKey_some hkey).1) h

lemma carriageReturn_eq {n : ℕ} (con : Console) (s : InRead n) :
    ∃ screen status, carriageReturn con s = ({ s with screen := screen }, status) := by
  unfold carriageReturn
  split_ifs
  · exact ⟨_, _, rfl⟩
  · exact ⟨s.screen, _, rfl⟩

/-- The loop is left by a read error, which clears the buffer, or by the carriage return. -/
lemma poll_left {m s : InRead history.length} {stroke : KeyStroke} {status : Status}
    (h : poll con history bufferSize m stroke = (s, some status)) :
    s = { m with
      currentString := zeroMem m.currentString 0 (maxStr con bufferSize), stringLen := 0 } ∨
    carriageReturn con m = (s, status) := by
  cases stroke with
  | error e =>
    rw [poll] at h
    split_ifs at h
    · exact absurd (congrArg Prod.snd h) nofun
    · exact Or.inl (congrArg Prod.fst h).symm
  | key k =>
    rw [poll] at h
    split_ifs at h
    · rcases hret : carriageReturn con m with ⟨s', status'⟩
      simp only [hret, Prod.mk.injEq, Option.some.injEq] at h
      exact Or.inr (by rw [h.1, h.2])
    · exact absurd (congrArg Prod.snd h) nofun

/-- The loop is left by the stroke before those that were not read. -/
lemma readLoop_some {s s' : InRead history.length} {strokes rest : List KeyStroke} {status : Status}
    (h : readLoop con history bufferSize s strokes = some (s', status, rest)) :
    ∃ read stroke m, strokes = read ++ stroke :: rest ∧
      Loop.run (readKey con history bufferSize) s read = some m ∧
      poll con history bufferSize m stroke = (s', some status) := by
  induction strokes generalizing s with
  | nil => exact absurd h nofun
  | cons stroke strokes ih =>
    unfold readLoop at h
    rcases hpoll : poll con history bufferSize s stroke with ⟨m, _ | left⟩
    · simp only [hpoll] at h
      obtain ⟨read, last, m', rfl, hrun, hlast⟩ := ih h
      have hkey : readKey con history bufferSize s stroke = some m := by
        rw [readKey, hpoll, if_pos rfl]
      exact ⟨stroke :: read, last, m', rfl, by rw [Loop.run_cons hkey, hrun], hlast⟩
    · simp only [hpoll, Option.some.injEq, Prod.mk.injEq] at h
      obtain ⟨rfl, rfl, rfl⟩ := h
      exact ⟨[], stroke, s, rfl, rfl, hpoll⟩

/-- What a call that has read leaves behind, by the locals at its end. -/
lemma uefiConsoleInRead_some {allocated : Bool × Bool} {strokes : List KeyStroke} {out : Outcome}
    (hsize : 4 ≤ bufferSize.toNat)
    (h : uefiConsoleInRead con history allocated bufferSize buffer strokes = some out) :
    ∃ s status rest, readLoop con history bufferSize (start con history bufferSize buffer) strokes =
        some (s, status, rest) ∧
      out = {
        status, unread := rest
        bufferSize := mul64 s.stringLen 2
        buffer := s.currentString
        history :=
          if 0 < (strAt (bufferSize.toNat / 2) s.currentString 0).chars.length then
            addLineToCommandHistory allocated history
              (strAt (bufferSize.toNat / 2) s.currentString 0)
          else history
        screen := s.screen } := by
  rw [uefiConsoleInRead, if_neg (by omega)] at h
  obtain ⟨⟨s, status, rest⟩, hloop, hout⟩ := Option.bind_eq_some_iff.mp h
  exact ⟨s, status, rest, hloop, (Option.some.inj hout).symm⟩

lemma readLoop_append {s s' : InRead history.length} {strokes rest : List KeyStroke}
    (h : Loop.run (readKey con history bufferSize) s strokes = some s') :
    readLoop con history bufferSize s (strokes ++ rest) =
      readLoop con history bufferSize s' rest := by
  induction strokes generalizing s with
  | nil =>
    obtain rfl : s = s' := by simpa using h
    rfl
  | cons stroke strokes ih =>
    by_cases hleft : (poll con history bufferSize s stroke).2 = none
    · have hkey : readKey con history bufferSize s stroke =
          some (poll con history bufferSize s stroke).1 := by rw [readKey, if_pos hleft]
      rw [Loop.run_cons hkey] at h
      rw [← ih h, List.cons_append, readLoop]
      simp only [hleft]
    · simp [Loop.run, readKey, hleft] at h

/-- **Line editing.** After every stroke the locals are tidy and show the reference session; at
the carriage return the buffer holds the line, and `BufferSize` is its length in bytes. -/
theorem uefiConsoleInRead_edits (hmax : 2 ≤ maxStr con bufferSize) (allocated : Bool × Bool)
    {strokes : List KeyStroke} (h : ∀ stroke ∈ strokes, keepsReading stroke = true)
    {cr : Key} (hcr : cr.unicodeChar = CHAR_CARRIAGE_RETURN) (rest : List KeyStroke) :
    (∀ read, read <+: strokes → ∃ s, locals con history bufferSize buffer read = some s ∧
      Tidy (maxStr con bufferSize) s ∧
      Shows buffer s (session history (maxStr con bufferSize - 1) read)) ∧
    ∃ out, uefiConsoleInRead con history allocated bufferSize buffer
        (strokes ++ .key cr :: rest) = some out ∧
      out.unread = rest ∧
      Holds (maxStr con bufferSize) 0 out.buffer
        (session history (maxStr con bufferSize - 1) strokes).line.text ∧
      Mem.Confined 0 (maxStr con bufferSize) buffer out.buffer ∧
      out.bufferSize =
        2 * (session history (maxStr con bufferSize - 1) strokes).line.text.length := by
  obtain ⟨cap, hcap⟩ : ∃ cap, maxStr con bufferSize = cap + 1 :=
    ⟨maxStr con bufferSize - 1, by omega⟩
  have hle : maxStr con bufferSize ≤ bufferSize.toNat / 2 := maxStr_le
  rw [show maxStr con bufferSize - 1 = cap by omega, hcap]
  constructor
  · intro read hread
    obtain ⟨s, hs, hshows⟩ := locals_shows buffer hcap
      fun stroke hstroke => h stroke (hread.subset hstroke)
    exact ⟨s, hs, hshows.tidy, hshows⟩
  · obtain ⟨s, hs, hshows⟩ := locals_shows buffer hcap h
    obtain ⟨screen, status, hret⟩ := carriageReturn_eq con s
    have hloop : readLoop con history bufferSize (start con history bufferSize buffer)
        (strokes ++ .key cr :: rest) = some ({ s with screen := screen }, status, rest) := by
      rw [readLoop_append hs, readLoop]
      simp only [poll, if_pos hcr, hret]
    have hlt : bufferSize.toNat < 2 ^ 64 := bufferSize.toNat_lt
    have hlen := hshows.tidy.len_le
    refine ⟨_, by rw [uefiConsoleInRead, if_neg (by omega), hloop]; rfl, rfl, hshows.cells,
      hshows.outside, ?_⟩
    rw [mul64, u64_of_lt (by simp only; omega)]
    simp only [hshows.stringLen]
    exact Nat.mul_comm _ _

/-- A screen of 80 columns and 25 rows, and the cursor behind a prompt. -/
def sampleConsole : Console := ⟨80, 25, 3, 4, fun _ _ => EFI_SUCCESS, by norm_num⟩

lemma isChar_sample : ∀ c ∈ ([0x64, 0x69, 0x72, 0x2E] : List UInt16), isChar c = true := by
  simp [isChar, CHAR_NULL]

/-- A line of four characters. -/
def sampleLine : CStr := ⟨[0x64, 0x69, 0x72, 0x2E], isChar_sample⟩

def sampleStrokes : List KeyStroke :=
  [.key ⟨SCAN_UP, 0⟩, .error EFI_NOT_READY, .key ⟨SCAN_LEFT, 0⟩, .key ⟨0, 0x58⟩]

/-- In a buffer for three characters `UP` recalls as much of the line, and a character
behind `LEFT` overwrites the last one. -/
theorem uefiConsoleInRead_edits_sample :
    ∃ out, uefiConsoleInRead sampleConsole [sampleLine] (true, true) 8 (fun _ => 7)
        (sampleStrokes ++ .key ⟨0, CHAR_CARRIAGE_RETURN⟩ :: []) = some out ∧
      Holds 4 0 out.buffer [0x64, 0x69, 0x58] ∧ out.bufferSize = 6 := by
  have hmax : 2 ≤ maxStr sampleConsole 8 := by decide +kernel
  have hkeys : ∀ stroke ∈ sampleStrokes, keepsReading stroke = true := by decide +kernel
  obtain ⟨-, out, hrun, -, hbuffer, -, hsize⟩ :=
    uefiConsoleInRead_edits hmax (true, true) hkeys
      (rfl : (⟨0, CHAR_CARRIAGE_RETURN⟩ : Key).unicodeChar = CHAR_CARRIAGE_RETURN) []
  exact ⟨out, hrun, hbuffer, hsize⟩

end Call

end UefiToolkit.ConsoleEdit
