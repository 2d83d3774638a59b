import UefiToolkit.ShellModel
import UefiToolkit.Terminal

/-!
How the debug shell reads a line.

The buffer and what is echoed follow the same reference line, byte by byte: what the operator sees
is what is kept.
-/

namespace UefiToolkit.ShellLine

open UefiToolkit.Word UefiToolkit.Mem UefiToolkit.Terminal UefiToolkit.ShellModel

/-! ### The reference line -/

/-- The line behind a byte that does not end it. -/
def edit (bufSize : ℕ) (line : List UInt8) (ch : UInt8) : List UInt8 :=
  if isErase ch then line.dropLast
  else if isPrintable ch ∧ line.length < bufSize - 1 then line ++ [ch]
  else line

lemma isPrintable_graphic {ch : UInt8} (h : isPrintable ch = true) : Graphic ch := by
  rw [isPrintable, Bool.and_eq_true] at h
  have hle := of_decide_eq_true h.1
  refine ⟨?_, ?_, ?_⟩
  all_goals
    rintro rfl
    exact absurd hle (by decide)

/-! ### One byte -/

/-- The buffer begins with the line. -/
structure Held (bufSize : ℕ) (s : ReadLine) (line : List UInt8) : Prop where
  pos : s.pos = line.length
  cells : slice s.shell.cmdBuf 0 line.length = line
  fits : line.length ≤ bufSize - 1

/-- What was echoed since `start` shows the line, and nothing behind the buffer was written. -/
structure Echoed (bufSize : ℕ) (start : Shell) (t : Screen) (s : ReadLine) (line : List UInt8) :
    Prop where
  held : Held bufSize s line
  inside : Confined 0 bufSize start.cmdBuf s.shell.cmdBuf
  echo : ∃ writes : List (List UInt8),
    s.shell.trace = start.trace ++ writes.map Event.serialPortWrite ∧
    display t writes.flatten = t.typed line

section Reading

variable {bufSize : ℕ} {start : Shell} {t : Screen} {s : ReadLine} {line : List UInt8}

/-- What a byte does: the last character goes, one comes, or nothing happens. -/
lemma readByte_cases (hpos : 1 ≤ bufSize) (hsize : bufSize < 2 ^ 64) (h : Held bufSize s line)
    (ch : UInt8) :
    (∃ init c, line = init ++ [c] ∧ edit bufSize line ch = init ∧ readByte bufSize s ch =
      ⟨s.shell.note (.serialPortWrite [BACKSPACE, SPACE, BACKSPACE]), init.length⟩) ∨
    (isPrintable ch = true ∧ line.length < bufSize - 1 ∧ edit bufSize line ch = line ++ [ch] ∧
      readByte bufSize s ch = ⟨{ s.shell with cmdBuf := put s.shell.cmdBuf line.length ch }.note
        (.serialPortWrite [ch]), line.length + 1⟩) ∨
    (edit bufSize line ch = line ∧ readByte bufSize s ch = s) := by
  obtain ⟨hline, -, -⟩ := h
  unfold readByte edit
  rw [sub64_of_le hsize hpos, hline]
  by_cases herase : isErase ch = true
  · rw [if_pos herase, if_pos herase]
    rcases line.eq_nil_or_concat' with rfl | ⟨init, c, rfl⟩
    · exact Or.inr (Or.inr ⟨rfl, if_neg (Nat.lt_irrefl 0)⟩)
    · refine Or.inl ⟨init, c, rfl, List.dropLast_concat, ?_⟩
      rw [List.length_append, List.length_singleton, if_pos (Nat.succ_pos _), Nat.add_sub_cancel]
      rfl
  · rw [if_neg herase, if_neg herase]
    by_cases hprint : isPrintable ch = true
    · by_cases hlen : line.length < bufSize - 1
      · refine Or.inr (Or.inl ⟨hprint, hlen, if_pos ⟨hprint, hlen⟩, ?_⟩)
        rw [if_pos hprint, if_pos hlen]
      · refine Or.inr (Or.inr ⟨if_neg fun hc => hlen hc.2, ?_⟩)
        rw [if_pos hprint, if_neg hlen]
    · exact Or.inr (Or.inr ⟨if_neg fun hc => hprint hc.1, if_neg hprint⟩)

lemma readByte_held (hpos : 1 ≤ bufSize) (hsize : bufSize < 2 ^ 64) (h : Held bufSize s line)
    (ch : UInt8) : Held bufSize (readByte bufSize s ch) (edit bufSize line ch) := by
  rcases readByte_cases hpos hsize h ch with
    ⟨init, c, rfl, hedit, hread⟩ | ⟨-, hlen, hedit, hread⟩ | ⟨hedit, hread⟩
  · have hfits := h.fits
    have hcells := congrArg (List.take init.length) h.cells
    rw [List.length_append] at hfits
    rw [slice_take _ _ (by simp), List.take_left] at hcells
    rw [hedit, hread]
    exact ⟨rfl, hcells, by omega⟩
  · have hcells : slice (put s.shell.cmdBuf line.length ch) 0 (line.length + 1) = line ++ [ch] := by
      rw [slice_succ, Nat.zero_add, put_self]
      congr 1
      refine (slice_congr fun i hi => put_ne _ _ ?_).trans h.cells
      omega
    have hlength : (line ++ [ch]).length = line.length + 1 := by simp
    rw [hedit, hread]
    exact ⟨hlength.symm, hlength ▸ hcells, by omega⟩
  · rw [hedit, hread]
    exact h

lemma echoed_nil (start : Shell) (t : Screen) : Echoed bufSize start t ⟨start, 0⟩ [] where
  held := ⟨rfl, rfl, Nat.zero_le _⟩
  inside := Confined.refl _ _ _
  echo := ⟨[], (List.append_nil _).symm, (typed_nil t).symm⟩

/-- One write more is echoed. -/
lemma Echoed.write (h : Echoed bufSize start t s line) {bytes line' : List UInt8}
    (hshown : display (t.typed line) bytes = t.typed line') :
    ∃ writes : List (List UInt8),
      s.shell.trace ++ [Event.serialPortWrite bytes] =
        start.trace ++ writes.map Event.serialPortWrite ∧
      display t writes.flatten = t.typed line' := by
  obtain ⟨writes, htrace, hdisplay⟩ := h.echo
  refine ⟨writes ++ [bytes], ?_, ?_⟩
  · rw [htrace, List.map_append, List.append_assoc]
    rfl
  · rw [List.flatten_append, List.flatten_singleton, display_append, hdisplay, hshown]

lemma readByte_echoed (hpos : 1 ≤ bufSize) (hsize : bufSize < 2 ^ 64) (hblank : t.Blank)
    (h : Echoed bufSize start t s line) (ch : UInt8) :
    Echoed bufSize start t (readByte bufSize s ch) (edit bufSize line ch) := by
  have hheld := readByte_held hpos hsize h.held ch
  rcases readByte_cases hpos hsize h.held ch with
    ⟨init, c, rfl, hedit, hread⟩ | ⟨hprint, hlen, hedit, hread⟩ | ⟨hedit, hread⟩
  · rw [hedit, hread] at hheld ⊢
    exact ⟨hheld, h.inside, h.write (display_wipe hblank init c)⟩
  · rw [hedit, hread] at hheld ⊢
    exact ⟨hheld, h.inside.put ⟨Nat.zero_le _, by omega⟩ ch,
      h.write (feed_typed t line (isPrintable_graphic hprint))⟩
  · rw [hedit, hread]
    exact h

/-! ### A line -/

/-- Bytes that do not end the line are taken one by one. -/
lemma readLoop_typed (bufSize : ℕ) {typed : List UInt8} (htyped : ∀ c ∈ typed, isEol c = false)
    (s : ReadLine) (stream : List UInt8) :
    readLoop bufSize s (typed ++ stream) =
      readLoop bufSize (typed.foldl (readByte bufSize) s) stream := by
  induction typed generalizing s with
  | nil => rfl
  | cons c typed ih =>
    have hc : ¬ isEol c = true := ne_true_of_eq_false (htyped c List.mem_cons_self)
    rw [List.cons_append, readLoop, if_neg hc, List.foldl_cons]
    exact ih (fun c hc => htyped c (List.mem_cons_of_mem _ hc)) _

lemma readBytes_echoed (hpos : 1 ≤ bufSize) (hsize : bufSize < 2 ^ 64) (hblank : t.Blank)
    (h : Echoed bufSize start t s line) (typed : List UInt8) :
    Echoed bufSize start t (typed.foldl (readByte bufSize) s)
      (typed.foldl (edit bufSize) line) := by
  induction typed generalizing s line with
  | nil => exact h
  | cons c typed ih => exact ih (readByte_echoed hpos hsize hblank h c)

end Reading

/-! ### What is left of a stream -/

/-- The bytes in front of the first one that ends the line. -/
def typedBytes (stream : List UInt8) : List UInt8 := stream.takeWhile fun ch => !isEol ch

/-- The bytes behind it. -/
def unread (stream : List UInt8) : List UInt8 := (stream.dropWhile fun ch => !isEol ch).tail

lemma typedBytes_eol {stream : List UInt8} {ch : UInt8} (h : ch ∈ typedBytes stream) :
    isEol ch = false := by
  simpa using List.mem_takeWhile_imp h

lemma stream_split {stream : List UInt8} (h : ∃ ch ∈ stream, isEol ch = true) :
    ∃ ch, isEol ch = true ∧ stream = typedBytes stream ++ ch :: unread stream := by
  have hne : stream.dropWhile (fun ch => !isEol ch) ≠ [] := by
    obtain ⟨ch, hch, heol⟩ := h
    rw [Ne, List.dropWhile_eq_nil_iff]
    exact fun hall => absurd (hall ch hch) (by simp [heol])
  obtain ⟨ch, rest, hdrop⟩ := List.exists_cons_of_ne_nil hne
  refine ⟨ch, ?_, ?_⟩
  · have hhead := List.head_dropWhile_not (fun ch => !isEol ch) hne
    simpa [hdrop] using hhead
  · unfold typedBytes unread
    rw [hdrop, List.tail_cons, ← hdrop, List.takeWhile_append_dropWhile]

/-- The line that the bytes of a stream make. -/
def lineOf (bufSize : ℕ) (typed : List UInt8) : List UInt8 := typed.foldl (edit bufSize) []

/-- The line is in the buffer as a string, nothing else is written to, and after each byte of it
the terminal shows what is kept. -/
structure ReadsLine (bufSize : ℕ) (start : Shell) (t : Screen) (typed : List UInt8)
    (s : Shell) : Prop where
  fits : (lineOf bufSize typed).length < bufSize
  cells : slice s.cmdBuf 0 (lineOf bufSize typed).length = lineOf bufSize typed
  terminator : s.cmdBuf (lineOf bufSize typed).length = CHAR_NULL
  inside : Confined 0 bufSize start.cmdBuf s.cmdBuf
  shown : ∀ now, now <+: typed → ∃ (s : Shell) (writes : List (List UInt8)),
    shellReadLine bufSize start now = (s, none) ∧
    s.trace = start.trace ++ writes.map Event.serialPortWrite ∧
    display t writes.flatten = t.typed (lineOf bufSize now)
  ended : ∃ writes : List (List UInt8),
    s.trace = start.trace ++ writes.map Event.serialPortWrite ∧
    display t writes.flatten =
      { t.typed (lineOf bufSize typed) with row := t.row + 1, col := 0 }

/-- **Reading a line.** Of a stream with an end of line the bytes in front of it make the line, the
bytes behind it are left, and the terminal shows at every moment what is kept. -/
theorem shellReadLine_reads (bufSize : ℕ) (hpos : 1 ≤ bufSize) (hsize : bufSize < 2 ^ 64)
    (start : Shell) (t : Screen) (hblank : t.Blank) (stream : List UInt8)
    (heol : ∃ ch ∈ stream, isEol ch = true) :
    ∃ s, shellReadLine bufSize start stream = (s, some (unread stream)) ∧
      ReadsLine bufSize start t (typedBytes stream) s := by
  obtain ⟨ch, hch, hstream⟩ := stream_split heol
  have hechoed : ∀ typed : List UInt8, Echoed bufSize start t
      (typed.foldl (readByte bufSize) ⟨start, 0⟩) (lineOf bufSize typed) := fun typed =>
    readBytes_echoed hpos hsize hblank (echoed_nil start t) typed
  obtain ⟨s, hs⟩ : ∃ s, s = (typedBytes stream).foldl (readByte bufSize) ⟨start, 0⟩ := ⟨_, rfl⟩
  have h := hechoed (typedBytes stream)
  rw [← hs] at h
  have hfits := h.held.fits
  have hp := h.held.pos
  refine ⟨{ s.shell.note (.serialPortWrite [CHAR_CARRIAGE_RETURN, CHAR_LINEFEED]) with
    cmdBuf := put s.shell.cmdBuf s.pos CHAR_NULL }, ?_, ?_⟩
  · rw [shellReadLine, hstream, readLoop_typed bufSize fun c hc => typedBytes_eol hc, ← hs,
      readLoop, if_pos hch, ← hstream]
    rfl
  · refine ⟨by omega, ?_, ?_, h.inside.put ⟨Nat.zero_le _, by omega⟩ _, ?_, ?_⟩
    · refine (slice_congr fun i hi => put_ne _ _ ?_).trans h.held.cells
      omega
    · rw [← hp]
      exact put_self _ _ _
    · intro now hnow
      have hnowEol : ∀ c ∈ now, isEol c = false := fun c hc => typedBytes_eol (hnow.subset hc)
      obtain ⟨writes, htrace, hshown⟩ := (hechoed now).echo
      refine ⟨_, writes, ?_, htrace, hshown⟩
      have hrun := readLoop_typed bufSize hnowEol ⟨start, 0⟩ []
      rw [List.append_nil] at hrun
      exact hrun
    · obtain ⟨writes, htrace, hshown⟩ := h.echo
      refine ⟨writes ++ [[CHAR_CARRIAGE_RETURN, CHAR_LINEFEED]], ?_, ?_⟩
      · rw [List.map_append, ← List.append_assoc, ← htrace]
        rfl
      · rw [List.flatten_append, List.flatten_singleton, display_append, hshown]
        rfl

/-- `ab`, a backspace and `c`, into a buffer of three bytes. -/
theorem shellReadLine_reads_three : ∃ s,
    shellReadLine 3 ⟨fun _ => 7, []⟩ [97, 98, 8, 99, 13, 100] =
      (s, some (unread [97, 98, 8, 99, 13, 100])) ∧
    ReadsLine 3 ⟨fun _ => 7, []⟩ ⟨0, 2, fun _ _ => SPACE⟩
      (typedBytes [97, 98, 8, 99, 13, 100]) s :=
  shellReadLine_reads 3 (by decide) (by decide) ⟨fun _ => 7, []⟩ ⟨0, 2, fun _ _ => SPACE⟩
    (fun _ _ => rfl) [97, 98, 8, 99, 13, 100] ⟨13, by decide, by decide⟩

end UefiToolkit.ShellLine
