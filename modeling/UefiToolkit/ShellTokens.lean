import UefiToolkit.ShellModel

/-!
The tokenizer finds the words of a line, whatever stands behind the line in the buffer.

The words are the maximal runs of characters other than space and tab.
-/

namespace UefiToolkit.ShellTokens

open UefiToolkit.ShellModel

/-- The words of a text, in order. -/
def words (text : List UInt8) : List (List UInt8) :=
  (text.splitOnP isBlank).filter (· ≠ [])

/-! ### Words -/

@[simp] lemma words_nil : words [] = [] := rfl

lemma words_blank {c : UInt8} (hc : isBlank c = true) (text : List UInt8) :
    words (c :: text) = words text := by
  simp [words, List.splitOnP_cons_eq_if_modifyHead, hc]

lemma words_blanks {blanks : List UInt8} (h : ∀ c ∈ blanks, isBlank c = true) (text : List UInt8) :
    words (blanks ++ text) = words text := by
  induction blanks with
  | nil => rfl
  | cons c blanks ih =>
    rw [List.cons_append, words_blank (h c (by simp)),
      ih fun a ha => h a (List.mem_cons_of_mem c ha)]

lemma words_single {w : List UInt8} (hne : w ≠ []) (hw : ∀ c ∈ w, isBlank c = false) :
    words w = [w] := by
  rw [words, List.splitOnP_eq_singleton hw]
  simp [hne]

lemma words_cons {w : List UInt8} (hne : w ≠ []) (hw : ∀ c ∈ w, isBlank c = false) {b : UInt8}
    (hb : isBlank b = true) (text : List UInt8) :
    words (w ++ b :: text) = w :: words text := by
  rw [words, List.splitOnP_append_cons_of_forall_mem hw b hb]
  simp [hne, words]

/-! ### Strings in the command buffer -/

/-- A text and its terminator stand in the buffer from index `p` on. -/
structure StrIn (buf : ℕ → UInt8) (p : ℕ) (text : List UInt8) : Prop where
  cells : Mem.slice buf p text.length = text
  terminator : buf (p + text.length) = CHAR_NULL
  chars : ∀ c ∈ text, isChar c = true

section StrIn

variable {buf : ℕ → UInt8} {p : ℕ} {c : UInt8} {text : List UInt8}

lemma StrIn.head (h : StrIn buf p (c :: text)) : buf p = c := by
  have := Mem.slice_eq_iff.mp h.cells 0 (by simp)
  simpa using this

lemma StrIn.tail (h : StrIn buf p (c :: text)) : StrIn buf (p + 1) text where
  cells := by
    have hcells := Mem.slice_eq_iff.mp h.cells
    refine Mem.slice_eq_iff.mpr fun i hi => ?_
    have := hcells (i + 1) (by simpa using hi)
    rwa [List.getElem_cons_succ, show p + (i + 1) = p + 1 + i by omega] at this
  terminator := by
    have := h.terminator
    rwa [List.length_cons, show p + (text.length + 1) = p + 1 + text.length by omega] at this
  chars := fun a ha => h.chars a (List.mem_cons_of_mem c ha)

lemma StrIn.drop (h : StrIn buf p text) {k : ℕ} (hk : k ≤ text.length) :
    StrIn buf (p + k) (text.drop k) := by
  induction k generalizing p text with
  | zero => exact h
  | succ k ih =>
    cases text with
    | nil => simp at hk
    | cons c text =>
      have := ih h.tail (by simpa using hk)
      rwa [show p + 1 + k = p + (k + 1) by omega] at this

/-- The buffer holds the terminator where the text is at its end, and only there. -/
lemma StrIn.at_end_iff (h : StrIn buf p text) : buf p = CHAR_NULL ↔ text = [] := by
  cases text with
  | nil => simpa using h.terminator
  | cons c text =>
    have hc := h.chars c (by simp)
    rw [h.head]
    simpa [isChar] using hc

lemma StrIn.strAt (h : StrIn buf p text) (hsize : p + text.length < SHELL_CMD_BUF_SIZE) :
    strAt buf p = text :=
  Mem.takeWhile_slice h.cells h.chars (by rw [h.terminator]; rfl) (by omega)

/-- A byte written behind the terminator, or in front of the text, leaves the string alone. -/
lemma StrIn.put (h : StrIn buf p text) {q : ℕ} (hq : q < p ∨ p + text.length < q) (v : UInt8) :
    StrIn (Mem.put buf q v) p text where
  cells := by
    refine (Mem.slice_congr fun i hi => Mem.put_ne _ _ ?_).trans h.cells
    omega
  terminator := by
    rw [Mem.put_ne _ _ (by omega)]
    exact h.terminator
  chars := h.chars

/-- A string is cut where a terminator is written. -/
lemma StrIn.cut {w rest : List UInt8} (h : StrIn buf p (w ++ rest)) :
    StrIn (Mem.put buf (p + w.length) CHAR_NULL) p w where
  cells := by
    have hcells := Mem.slice_eq_iff.mp h.cells
    refine Mem.slice_eq_iff.mpr fun i hi => ?_
    rw [Mem.put_ne _ _ (by omega), hcells i (by rw [List.length_append]; omega),
      List.getElem_append_left hi]
  terminator := Mem.put_self _ _ _
  chars := fun a ha => h.chars a (List.mem_append_left rest ha)

lemma skipWhile_eq (h : StrIn buf p text) {q : UInt8 → Bool} (hq : q CHAR_NULL = false)
    (hlen : text.length ≤ SHELL_CMD_BUF_SIZE) :
    skipWhile q buf p = some (p + (text.takeWhile q).length) := by
  unfold skipWhile
  generalize SHELL_CMD_BUF_SIZE = fuel at hlen
  induction text generalizing p fuel with
  | nil =>
    refine Loop.whileFuel_done ?_ _
    have := h.terminator
    simp only [List.length_nil, Nat.add_zero] at this
    simp [this, hq]
  | cons c text ih =>
    obtain ⟨n, rfl⟩ : ∃ n, fuel = n + 1 := ⟨fuel - 1, by rw [List.length_cons] at hlen; omega⟩
    by_cases hc : q c = true
    · have hcond : q (buf p) = true := by rwa [h.head]
      rw [@Loop.whileFuel_step _ (fun line => q (buf line)) _ p (p + 1) hcond rfl,
        ih h.tail n (by simpa using hlen), List.takeWhile_cons_of_pos hc,
        List.length_cons]
      congr 1
      omega
    · rw [Loop.whileFuel_done (by simpa [h.head] using hc), List.takeWhile_cons_of_neg hc]
      rfl

end StrIn

/-! ### The tokenizer -/

/-- The words taken so far stand where `argv` points, the rest of the text at `line`. -/
structure Split (text : List UInt8) (s : Tokenizer) (taken : List (List UInt8))
    (rest : List UInt8) : Prop where
  string : StrIn s.buf s.line rest
  place : s.line + rest.length = text.length
  words : words text = taken ++ words rest
  argv : List.Forall₂ (fun p w => StrIn s.buf p w ∧ p + w.length ≤ s.line) s.argv taken

section Tokenizer

variable {text rest w : List UInt8} {s : Tokenizer} {taken : List (List UInt8)}

/-- Words taken before stay in place when a later token is closed, or none is. -/
lemma argv_snoc {buf : ℕ → UInt8} {argv : List ℕ} {line p next : ℕ}
    (h : List.Forall₂ (fun p w => StrIn s.buf p w ∧ p + w.length ≤ line) argv taken)
    (hbuf : ∀ p w, StrIn s.buf p w → p + w.length ≤ line → StrIn buf p w)
    (hw : StrIn buf p w) (hline : line ≤ next) (hp : p + w.length ≤ next) :
    List.Forall₂ (fun p w => StrIn buf p w ∧ p + w.length ≤ next) (argv ++ [p])
      (taken ++ [w]) := by
  refine List.rel_append (h.imp fun p w hpw => ?_) (List.Forall₂.cons ⟨hw, hp⟩ .nil)
  exact ⟨hbuf p w hpw.1 hpw.2, hpw.2.trans hline⟩

/-- A word and what stands behind it. -/
lemma takeToken_split (h : StrIn s.buf p (w ++ rest)) (hne : w ≠ [])
    (hw : ∀ c ∈ w, isBlank c = false) (hrest : ∀ b ∈ rest.head?, isBlank b = true)
    (hplace : p + (w ++ rest).length = text.length)
    (hwords : words text = taken ++ words (w ++ rest)) (hline : s.line ≤ p)
    (hargv : List.Forall₂ (fun p w => StrIn s.buf p w ∧ p + w.length ≤ s.line) s.argv taken) :
    ∃ rest', Split text (takeToken s p (p + w.length)) (taken ++ [w]) rest' := by
  have hpos : 0 < w.length := List.length_pos_iff.mpr hne
  have hfinish : StrIn s.buf (p + w.length) rest := by
    have := h.drop (k := w.length) (by simp)
    rwa [List.drop_left' rfl] at this
  cases rest with
  | nil =>
    rw [List.append_nil] at h hplace hwords
    refine ⟨[], ?_⟩
    rw [takeToken, if_pos (hfinish.at_end_iff.mpr rfl)]
    refine ⟨hfinish, hplace, ?_, ?_⟩
    · rw [hwords, words_single hne hw]
      simp
    · exact argv_snoc hargv (fun _ _ hp _ => hp) h (by simp only; omega) le_rfl
  | cons b rest =>
    have hb : isBlank b = true := hrest b rfl
    refine ⟨rest, ?_⟩
    rw [takeToken, if_neg (by rw [hfinish.at_end_iff]; simp)]
    refine ⟨hfinish.tail.put (Or.inl (Nat.lt_succ_self _)) _, ?_, ?_, ?_⟩
    · simp only [List.length_append, List.length_cons] at hplace
      simp only
      omega
    · rw [hwords, words_cons hne hw hb]
      simp
    · exact argv_snoc hargv (fun q v hq hlen => hq.put (Or.inr (by omega)) _) h.cut
        (by simp only; omega) (by simp only; omega)

lemma takeToken_argv (s : Tokenizer) (line finish : ℕ) :
    (takeToken s line finish).argv = s.argv ++ [line] := by
  unfold takeToken
  split_ifs <;> rfl

lemma le_takeToken_line (s : Tokenizer) (line finish : ℕ) :
    finish ≤ (takeToken s line finish).line := by
  unfold takeToken
  split_ifs
  · exact le_rfl
  · exact Nat.le_succ _

/-- The characters in front of a text that pass a test, and what is behind them. -/
lemma span_split (q : UInt8 → Bool) (text : List UInt8) :
    ∃ l r, text = l ++ r ∧ text.takeWhile q = l ∧ (∀ c ∈ l, q c = true) ∧
      ∀ c ∈ r.head?, q c = false := by
  refine ⟨_, _, List.takeWhile_append_dropWhile.symm, rfl,
    fun c hc => List.mem_takeWhile_imp hc, ?_⟩
  intro c hc
  have := List.head?_dropWhile_not q text
  rw [Option.mem_def.mp hc] at this
  simpa using this

/-- The word in front of a text, and what is behind it. -/
lemma word_split {c : UInt8} {r : List UInt8} (hchars : ∀ a ∈ c :: r, isChar a = true)
    (hc : isBlank c = false) :
    ∃ w tail, c :: r = w ++ tail ∧ (c :: r).takeWhile isTokenChar = w ∧ w ≠ [] ∧
      (∀ a ∈ w, isBlank a = false) ∧ ∀ b ∈ tail.head?, isBlank b = true := by
  have hctoken : isTokenChar c = true := by
    have := hchars c (by simp)
    simpa [isTokenChar, isChar, hc] using this
  obtain ⟨w, tail, hsplit, htake, hw, htail⟩ := span_split isTokenChar (c :: r)
  refine ⟨w, tail, hsplit, htake, ?_, ?_, ?_⟩
  · rw [← htake, List.takeWhile_cons_of_pos hctoken]
    exact List.cons_ne_nil _ _
  · intro a ha
    have := hw a ha
    simp only [isTokenChar, Bool.and_eq_true, Bool.not_eq_true'] at this
    exact this.2
  · -- the word ends at a character that is no terminator, so at a blank
    intro b hb
    have hnot := htail b hb
    have hmem : b ∈ c :: r := by
      rw [hsplit]
      exact List.mem_append_right w (List.mem_of_mem_head? hb)
    have hchar : isChar b = true := hchars b hmem
    simp only [isTokenChar, isChar] at hnot hchar
    simpa [hchar] using hnot

/-- The blanks in front of a word are passed over. -/
lemma skipBlanks {buf : ℕ → UInt8} {p : ℕ} (h : StrIn buf p rest)
    (hlen : rest.length ≤ SHELL_CMD_BUF_SIZE) :
    ∃ k r, skipWhile isBlank buf p = some (p + k) ∧ StrIn buf (p + k) r ∧
      k + r.length = rest.length ∧ words rest = words r ∧ ∀ c ∈ r.head?, isBlank c = false := by
  obtain ⟨blanks, r, hsplit, htake, hblanks, hhead⟩ := span_split isBlank rest
  have hnext := h.drop (k := blanks.length) (by rw [hsplit]; simp)
  have hdrop : rest.drop blanks.length = r := by rw [hsplit, List.drop_left' rfl]
  have hwords : words rest = words r := by rw [hsplit, words_blanks hblanks]
  rw [hdrop] at hnext
  refine ⟨blanks.length, r, ?_, hnext, ?_, hwords, hhead⟩
  · rw [skipWhile_eq h rfl hlen, htake]
  · rw [hsplit, List.length_append]

/-- The characters of a word are passed over. -/
lemma skipWord {buf : ℕ → UInt8} {p : ℕ} {c : UInt8} {r : List UInt8}
    (h : StrIn buf p (c :: r)) (hc : isBlank c = false)
    (hlen : (c :: r).length ≤ SHELL_CMD_BUF_SIZE) :
    ∃ w tail, c :: r = w ++ tail ∧ w ≠ [] ∧ (∀ a ∈ w, isBlank a = false) ∧
      (∀ b ∈ tail.head?, isBlank b = true) ∧
      skipWhile isTokenChar buf p = some (p + w.length) := by
  obtain ⟨w, tail, hsplit, htake, hne, hw, htail⟩ := word_split h.chars hc
  exact ⟨w, tail, hsplit, hne, hw, htail, by rw [skipWhile_eq h rfl hlen, htake]⟩

/-- A round of the loop takes a word or finds that none is left, and moves on. -/
lemma tokenRound_split (h : Split text s taken rest) (hne : rest ≠ [])
    (hlen : text.length ≤ SHELL_CMD_BUF_SIZE) :
    ∃ s' taken' rest', tokenRound s = some s' ∧ Split text s' taken' rest' ∧
      s.line < s'.line ∧ s'.argv.length ≤ s.argv.length + 1 := by
  obtain ⟨hstring, hplace, hwords, hargv⟩ := h
  have hpos : 0 < rest.length := List.length_pos_iff.mpr hne
  obtain ⟨k, r, hskip, hr, hkr, hsame, hhead⟩ := skipBlanks hstring (by omega)
  rw [tokenRound, hskip, Option.bind_some]
  cases r with
  | nil =>
    -- nothing but blanks
    refine ⟨_, taken, [], if_pos (hr.at_end_iff.mpr rfl), ⟨hr, ?_, by rw [hwords, hsame], ?_⟩,
      ?_, Nat.le_succ _⟩
    · simp only [List.length_nil] at hkr ⊢; omega
    · exact hargv.imp fun q w hq => ⟨hq.1, by simp only; omega⟩
    · simp only [List.length_nil] at hkr ⊢; omega
  | cons c r =>
    obtain ⟨w, tail, hw, hwne, hblank, htail, hskipw⟩ := skipWord hr (hhead c rfl) (by omega)
    have hwpos : 0 < w.length := List.length_pos_iff.mpr hwne
    rw [if_neg (by rw [hr.at_end_iff]; simp), hskipw, Option.map_some]
    rw [hw] at hr hkr hsame
    obtain ⟨rest', hsplit⟩ := takeToken_split hr hwne hblank htail (by omega)
      (hwords.trans (by rw [hsame])) (Nat.le_add_right _ _) hargv
    refine ⟨_, _, rest', rfl, hsplit, ?_, ?_⟩
    · have := le_takeToken_line s (s.line + k) (s.line + k + w.length)
      omega
    · rw [takeToken_argv]
      simp

/-- What the loop keeps. -/
def Takes (text : List UInt8) (maxArgs : ℕ) (s : Tokenizer) : Prop :=
  (∃ taken rest, Split text s taken rest) ∧ s.argv.length ≤ maxArgs

lemma takes_round {maxArgs : ℕ} (h : Takes text maxArgs s) (hcond : wantsToken maxArgs s = true)
    (hlen : text.length ≤ SHELL_CMD_BUF_SIZE) :
    ∃ s', tokenRound s = some s' ∧ Takes text maxArgs s' ∧
      text.length - s'.line < text.length - s.line := by
  obtain ⟨⟨taken, rest, hsplit⟩, hargc⟩ := h
  simp only [wantsToken, Bool.and_eq_true, decide_eq_true_eq] at hcond
  have hne : rest ≠ [] := by
    rw [Ne, ← hsplit.string.at_end_iff]
    exact hcond.1
  obtain ⟨s', taken', rest', hround, hsplit', hline, hargv⟩ := tokenRound_split hsplit hne hlen
  have hplace := hsplit'.place
  exact ⟨s', hround, ⟨⟨taken', rest', hsplit'⟩, by omega⟩, by omega⟩

/-- **Tokens.** The arguments are the first `maxArgs` words of the line. -/
theorem shellTokenize_words {buf : ℕ → UInt8} (h : StrIn buf 0 text)
    (hlen : text.length < SHELL_CMD_BUF_SIZE) (maxArgs : ℕ) :
    ∃ t, shellTokenize buf maxArgs = some t ∧
      t.argv.map (strAt t.buf) = (words text).take maxArgs := by
  have hstart : Split text ⟨buf, 0, []⟩ [] text := ⟨h, Nat.zero_add _, rfl, .nil⟩
  obtain ⟨t, hrun, ⟨⟨taken, rest, hsplit⟩, hargc⟩, hdone⟩ :=
    Loop.whileFuel_spec (wantsToken maxArgs) tokenRound
      (fun _ hs hcond => takes_round hs hcond hlen.le) SHELL_CMD_BUF_SIZE _
      ⟨⟨_, _, hstart⟩, Nat.zero_le _⟩ (by simp only; omega)
  refine ⟨t, hrun, ?_⟩
  have hplace := hsplit.place
  have hwords : t.argv.map (strAt t.buf) = taken := by
    rw [← List.forall₂_eq_eq_eq, List.forall₂_map_left_iff]
    exact hsplit.argv.imp fun p w hpw => hpw.1.strAt (by omega)
  have hcount : taken.length = t.argv.length := by rw [← hwords, List.length_map]
  rw [hwords, hsplit.words]
  -- the loop ends with the text or with the last argument
  rcases hargc.lt_or_eq with hlt | hfull
  · have hend : rest = [] := by
      rw [← hsplit.string.at_end_iff]
      simpa [wantsToken, hlt] using hdone
    rw [hend, words_nil, List.append_nil, List.take_of_length_le (by omega)]
  · rw [List.take_left' (by omega)]

end Tokenizer

end UefiToolkit.ShellTokens
