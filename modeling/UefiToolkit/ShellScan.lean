import UefiToolkit.ShellTokens

/-!
The tokenizer on a line of any length, with every access to the line checked.

A run begins at a character other than space and tab, at the beginning of the line or behind a
space or a tab.
-/

namespace UefiToolkit.ShellScan

open UefiToolkit.ShellModel UefiToolkit.ShellTokens

/-! ### Checked accesses -/

/-- `*Line`; only the first `size` bytes may be touched. -/
def load (size : ℕ) (buf : ℕ → UInt8) (line : ℕ) : Option UInt8 :=
  if line < size then some (buf line) else none

/-- `while (p (*Line)) Line++;`, with `left` bytes from `line` on. -/
def scanWhile (p : UInt8 → Bool) (buf : ℕ → UInt8) : ℕ → ℕ → Option ℕ
  | 0, _ => none
  | left + 1, line => if p (buf line) then scanWhile p buf left (line + 1) else some line

/-- The token at `line`; the byte that is read behind it is the one that is written. -/
def scanToken (size : ℕ) (s : Tokenizer) (line : ℕ) : Option Tokenizer :=
  (scanWhile isTokenChar s.buf (size - line) line).bind fun finish =>
    (load size s.buf finish).map fun _ => takeToken s line finish

/-- The loop of the tokenizer with room for so many arguments. -/
def scanTokens (size : ℕ) : ℕ → Tokenizer → Option Tokenizer
  | 0, s => (load size s.buf s.line).map fun _ => s
  | room + 1, s =>
    (load size s.buf s.line).bind fun c =>
      if c = CHAR_NULL then some s
      else
        (scanWhile isBlank s.buf (size - s.line) s.line).bind fun line =>
          (load size s.buf line).bind fun c =>
            if c = CHAR_NULL then some { s with line := line }
            else (scanToken size s line).bind (scanTokens size room)

/-! ### Runs -/

/-- Where the runs of a text begin that stands behind a character. -/
def startsBehind (before : UInt8) (text : List UInt8) : List ℕ :=
  (List.range text.length).filter fun i =>
    isBlank ((before :: text).getD i 0) && !isBlank (text.getD i 0)

/-- Where the runs of a line begin, in order. -/
def runStarts (text : List UInt8) : List ℕ := startsBehind CHAR_SPACE text

/-- The run that begins at index `p`. -/
def runAt (text : List UInt8) (p : ℕ) : List UInt8 := (text.drop p).takeWhile fun c => !isBlank c

lemma startsBehind_cons (before c : UInt8) (text : List UInt8) :
    startsBehind before (c :: text) =
      (if isBlank before && !isBlank c then [0] else []) ++ (startsBehind c text).map (· + 1) := by
  rw [startsBehind, List.length_cons, List.range_succ_eq_map, List.filter_cons, List.filter_map]
  have htail : (fun i => isBlank ((before :: c :: text).getD i 0) &&
      !isBlank ((c :: text).getD i 0)) ∘ Nat.succ =
        fun i => isBlank ((c :: text).getD i 0) && !isBlank (text.getD i 0) := by
    funext i
    simp
  rw [htail]
  simp only [List.getD_cons_zero, startsBehind]
  split_ifs <;> rfl

/-- A blank in front of a text is like its beginning. -/
lemma startsBehind_blank {before : UInt8} (h : isBlank before = true) (text : List UInt8) :
    startsBehind before text = runStarts text := by
  cases text with
  | nil => rfl
  | cons c text => rw [runStarts, startsBehind_cons, startsBehind_cons, h]; rfl

lemma runStarts_blanks {blanks : List UInt8} (h : ∀ c ∈ blanks, isBlank c = true)
    (text : List UInt8) :
    runStarts (blanks ++ text) = (runStarts text).map (· + blanks.length) := by
  induction blanks with
  | nil => simp
  | cons c blanks ih =>
    have hc := h c (by simp)
    rw [List.cons_append, runStarts, startsBehind_cons, startsBehind_blank hc,
      ih fun a ha => h a (List.mem_cons_of_mem c ha), List.map_map]
    simp only [hc, Bool.not_true, Bool.and_false, Bool.false_eq_true, if_false, List.nil_append,
      List.length_cons]
    rfl

/-- No run begins inside a word. -/
lemma startsBehind_word {before : UInt8} (hbefore : isBlank before = false) {w rest : List UInt8}
    (hw : ∀ c ∈ w, isBlank c = false) (hrest : ∀ b ∈ rest.head?, isBlank b = true) :
    startsBehind before (w ++ rest) = (runStarts rest).map (· + w.length) := by
  induction w generalizing before with
  | nil =>
    cases rest with
    | nil => rfl
    | cons b rest =>
      have hb : isBlank b = true := hrest b rfl
      simp [runStarts, startsBehind_cons, hb]
  | cons c w ih =>
    rw [List.cons_append, startsBehind_cons, hbefore, Bool.false_and, if_neg Bool.false_ne_true,
      List.nil_append, ih (hw c (by simp)) fun a ha => hw a (List.mem_cons_of_mem c ha),
      List.map_map]
    rfl

lemma runStarts_word {w rest : List UInt8} (hne : w ≠ []) (hw : ∀ c ∈ w, isBlank c = false)
    (hrest : ∀ b ∈ rest.head?, isBlank b = true) :
    runStarts (w ++ rest) = 0 :: (runStarts rest).map (· + w.length) := by
  obtain ⟨c, w, rfl⟩ := List.exists_cons_of_ne_nil hne
  have hc := hw c (by simp)
  rw [List.cons_append, runStarts, startsBehind_cons, hc,
    startsBehind_word hc (fun a ha => hw a (List.mem_cons_of_mem c ha)) hrest, List.map_map]
  rfl

lemma runAt_word {text w rest : List UInt8} {p : ℕ} (h : text.drop p = w ++ rest)
    (hw : ∀ c ∈ w, isBlank c = false) (hrest : ∀ b ∈ rest.head?, isBlank b = true) :
    runAt text p = w := by
  rw [runAt, h, List.takeWhile_append_of_pos fun c hc => by rw [hw c hc]; rfl]
  cases rest with
  | nil => simp
  | cons b rest => simp [hrest b rfl]

lemma runAt_append {front text : List UInt8} (p : ℕ) :
    runAt (front ++ text) (front.length + p) = runAt text p := by
  rw [runAt, List.drop_length_add_append, runAt]

/-- The runs of what stands in front of a text are not the runs of the text. -/
lemma map_runAt_append (front text : List UInt8) (l : List ℕ) :
    (l.map (· + front.length)).map (runAt (front ++ text)) = l.map (runAt text) := by
  rw [List.map_map]
  refine List.map_congr_left fun p _ => ?_
  rw [Function.comp_apply, Nat.add_comm, runAt_append]

lemma words_word {w rest : List UInt8} (hne : w ≠ []) (hw : ∀ c ∈ w, isBlank c = false)
    (hrest : ∀ b ∈ rest.head?, isBlank b = true) : words (w ++ rest) = w :: words rest := by
  cases rest with
  | nil => rw [List.append_nil, words_single hne hw, words_nil]
  | cons b rest =>
    have hb : isBlank b = true := hrest b rfl
    rw [words_cons hne hw hb, words_blank hb]

/-- The runs of a line are its words. -/
theorem runStarts_words (text : List UInt8) : (runStarts text).map (runAt text) = words text := by
  obtain ⟨n, hn⟩ : ∃ n, text.length ≤ n := ⟨_, le_rfl⟩
  induction n generalizing text with
  | zero =>
    rw [List.length_eq_zero_iff.mp (Nat.le_zero.mp hn)]
    rfl
  | succ n ih =>
    obtain ⟨blanks, r, rfl, -, hblanks, hhead⟩ := span_split isBlank text
    rw [words_blanks hblanks, runStarts_blanks hblanks, map_runAt_append]
    cases r with
    | nil => rfl
    | cons c r =>
      have hc : isBlank c = false := hhead c rfl
      obtain ⟨w, rest, hsplit, htake, hw, hrest⟩ := span_split (fun a => !isBlank a) (c :: r)
      simp only [Bool.not_eq_true', Bool.not_eq_false'] at hw hrest
      have hne : w ≠ [] := by
        rw [← htake, List.takeWhile_cons_of_pos (by simp [hc])]
        exact List.cons_ne_nil _ _
      have hpos : 0 < w.length := List.length_pos_iff.mpr hne
      rw [hsplit] at hn ⊢
      have hlen : rest.length ≤ n := by
        simp only [List.length_append] at hn
        omega
      rw [runStarts_word hne hw hrest, List.map_cons, map_runAt_append, ih rest hlen,
        words_word hne hw hrest, runAt_word rfl hw hrest]

lemma map_shift (l : List ℕ) (a b : ℕ) : (l.map (· + a)).map (· + b) = l.map (· + (b + a)) := by
  rw [List.map_map]
  refine List.map_congr_left fun i _ => ?_
  simp only [Function.comp_apply]
  omega

/-! ### The scan -/

section Scan

variable {buf : ℕ → UInt8} {text rest : List UInt8} {size p : ℕ}

lemma scanWhile_eq (h : StrIn buf p rest) {q : UInt8 → Bool} (hq : q CHAR_NULL = false) {left : ℕ}
    (hleft : rest.length < left) :
    scanWhile q buf left p = some (p + (rest.takeWhile q).length) := by
  induction rest generalizing p left with
  | nil =>
    obtain ⟨n, rfl⟩ : ∃ n, left = n + 1 := ⟨left - 1, by omega⟩
    have hend : buf p = CHAR_NULL := h.terminator
    rw [scanWhile, hend, hq, if_neg Bool.false_ne_true]
    rfl
  | cons c rest ih =>
    obtain ⟨n, rfl⟩ : ∃ n, left = n + 1 := ⟨left - 1, by omega⟩
    rw [scanWhile, h.head]
    by_cases hc : q c = true
    · rw [if_pos hc, ih h.tail (by simpa using hleft), List.takeWhile_cons_of_pos hc,
        List.length_cons, Nat.add_assoc, Nat.add_comm 1]
    · rw [if_neg hc, List.takeWhile_cons_of_neg hc]
      rfl

lemma load_eq (buf : ℕ → UInt8) (h : p < size) : load size buf p = some (buf p) := if_pos h

/-- The runs in front of `line` are found, and only blanks there were overwritten. -/
structure Scanned (buf : ℕ → UInt8) (text : List UInt8) (s : Tokenizer) : Prop where
  line_le : s.line ≤ text.length
  starts : runStarts text = s.argv ++ (runStarts (text.drop s.line)).map (· + s.line)
  tokens : ∀ p ∈ s.argv, StrIn s.buf p (runAt text p) ∧ p + (runAt text p).length ≤ s.line
  runs : ∀ i, isBlank (buf i) = false → s.buf i = buf i
  behind : ∀ i, s.line ≤ i → s.buf i = buf i

variable {s : Tokenizer}

lemma Scanned.start (buf : ℕ → UInt8) (text : List UInt8) : Scanned buf text ⟨buf, 0, []⟩ where
  line_le := Nat.zero_le _
  starts := by simp
  tokens := by simp
  runs := fun _ _ => rfl
  behind := fun _ _ => rfl

/-- What is left of the line is still there. -/
lemma Scanned.string (h : Scanned buf text s) (htext : StrIn buf 0 text) :
    StrIn s.buf s.line (text.drop s.line) := by
  have hdrop := htext.drop h.line_le
  rw [Nat.zero_add] at hdrop
  refine ⟨(Mem.slice_congr fun i _ => h.behind _ ?_).trans hdrop.cells, ?_, hdrop.chars⟩
  · omega
  · rw [h.behind _ (Nat.le_add_right _ _)]
    exact hdrop.terminator

/-- Blanks are passed over. -/
lemma Scanned.skip (h : Scanned buf text s) {blanks : List UInt8}
    (hdrop : text.drop s.line = blanks ++ rest) (hblanks : ∀ c ∈ blanks, isBlank c = true) :
    Scanned buf text { s with line := s.line + blanks.length } ∧
      text.drop (s.line + blanks.length) = rest := by
  have hrest : text.drop (s.line + blanks.length) = rest := by
    rw [← List.drop_drop, hdrop, List.drop_left' rfl]
  have hlen := congrArg List.length hdrop
  rw [List.length_drop, List.length_append] at hlen
  have hline := h.line_le
  refine ⟨⟨?_, ?_, ?_, h.runs, fun i hi => h.behind i ?_⟩, hrest⟩
  · simp only
    omega
  · rw [h.starts, hdrop, runStarts_blanks hblanks, map_shift, hrest]
  · intro p hp
    exact ⟨(h.tokens p hp).1, (h.tokens p hp).2.trans (Nat.le_add_right _ _)⟩
  · simp only at hi
    omega

/-- A word at `line`: the next run, and what is behind it. -/
lemma Scanned.word (h : Scanned buf text s) {w : List UInt8} (hdrop : text.drop s.line = w ++ rest)
    (hne : w ≠ []) (hw : ∀ c ∈ w, isBlank c = false)
    (hrest : ∀ b ∈ rest.head?, isBlank b = true) :
    text.drop (s.line + w.length) = rest ∧ s.line + w.length + rest.length = text.length ∧
      runStarts text = s.argv ++ [s.line] ++ (runStarts rest).map (· + (s.line + w.length)) := by
  have hlen := congrArg List.length hdrop
  rw [List.length_drop, List.length_append] at hlen
  have hline := h.line_le
  refine ⟨?_, by omega, ?_⟩
  · rw [← List.drop_drop, hdrop, List.drop_left' rfl]
  · rw [h.starts, hdrop, runStarts_word hne hw hrest, List.map_cons, map_shift, Nat.zero_add,
      List.append_assoc, List.singleton_append]

/-- A token is taken, and closed unless the line ends there. -/
lemma Scanned.token (h : Scanned buf text s) (htext : StrIn buf 0 text) {w : List UInt8}
    (hdrop : text.drop s.line = w ++ rest) (hne : w ≠ []) (hw : ∀ c ∈ w, isBlank c = false)
    (hrest : ∀ b ∈ rest.head?, isBlank b = true) :
    Scanned buf text (takeToken s s.line (s.line + w.length)) := by
  have hstring := h.string htext
  rw [hdrop] at hstring
  have hpos : 0 < w.length := List.length_pos_iff.mpr hne
  have hrun : runAt text s.line = w := runAt_word hdrop hw hrest
  obtain ⟨hbehind, hlen, hstarts⟩ := h.word hdrop hne hw hrest
  have hend : StrIn s.buf (s.line + w.length) rest := by
    have := hstring.drop (k := w.length) (by simp)
    rwa [List.drop_left' rfl] at this
  cases rest with
  | nil =>
    rw [List.append_nil] at hstring
    rw [takeToken, if_pos (hend.at_end_iff.mpr rfl)]
    refine ⟨?_, ?_, ?_, h.runs, fun i hi => h.behind i ?_⟩
    · simp only [List.length_nil] at hlen ⊢
      omega
    · simp only [hbehind]
      exact hstarts
    · intro p hp
      rcases List.mem_append.mp hp with hp | hp
      · exact ⟨(h.tokens p hp).1, (h.tokens p hp).2.trans (Nat.le_add_right _ _)⟩
      · rw [List.mem_singleton.mp hp, hrun]
        exact ⟨hstring, le_rfl⟩
    · simp only at hi
      omega
  | cons b rest =>
    have hb : isBlank b = true := hrest b rfl
    have hone : runStarts (b :: rest) = (runStarts rest).map (· + 1) :=
      @runStarts_blanks [b] (by simpa using hb) rest
    rw [takeToken, if_neg (by rw [hend.at_end_iff]; simp)]
    refine ⟨?_, ?_, ?_, ?_, ?_⟩
    · simp only [List.length_cons] at hlen ⊢
      omega
    · have hnext : text.drop (s.line + w.length + 1) = rest := by
        rw [← List.drop_drop, hbehind]
        rfl
      rw [hnext, hstarts, hone, map_shift]
    · intro p hp
      rcases List.mem_append.mp hp with hp | hp
      · obtain ⟨hold, hle⟩ := h.tokens p hp
        exact ⟨hold.put (Or.inr (by omega)) _, by simp only; omega⟩
      · rw [List.mem_singleton.mp hp, hrun]
        exact ⟨hstring.cut, by simp only; omega⟩
    · -- the byte that is written is a blank
      intro i hi
      have hbyte : buf (s.line + w.length) = b := by
        rw [← h.behind _ (Nat.le_add_right _ _), hend.head]
      have hne : i ≠ s.line + w.length := by
        rintro rfl
        rw [hbyte, hb] at hi
        exact Bool.noConfusion hi
      exact (Mem.put_ne _ _ hne).trans (h.runs i hi)
    · intro i hi
      simp only at hi
      exact (Mem.put_ne _ _ (by omega)).trans (h.behind i (by omega))

/-- The loop takes as many tokens as it may, or as there are. -/
lemma scanTokens_scanned (htext : StrIn buf 0 text) (hsize : text.length < size) (room : ℕ)
    (h : Scanned buf text s) :
    ∃ t, scanTokens size room s = some t ∧ Scanned buf text t ∧
      (t.argv.length = s.argv.length + room ∨
        t.argv.length ≤ s.argv.length + room ∧ text.drop t.line = []) := by
  induction room generalizing s with
  | zero =>
    have hline := h.line_le
    refine ⟨s, ?_, h, Or.inl rfl⟩
    rw [scanTokens, load_eq s.buf (by omega)]
    rfl
  | succ room ih =>
    have hline := h.line_le
    have hstring := h.string htext
    have hlen : (text.drop s.line).length = text.length - s.line := List.length_drop
    rw [scanTokens, load_eq s.buf (by omega), Option.bind_some]
    by_cases hend : s.buf s.line = CHAR_NULL
    · exact ⟨s, if_pos hend, h, Or.inr ⟨Nat.le_add_right _ _, hstring.at_end_iff.mp hend⟩⟩
    · rw [if_neg hend]
      obtain ⟨blanks, r, hsplit, htake, hblanks, hhead⟩ := span_split isBlank (text.drop s.line)
      obtain ⟨hskip, hr⟩ := h.skip hsplit hblanks
      have hstring' := hskip.string htext
      simp only [hr] at hstring'
      have hline' := hskip.line_le
      simp only at hline'
      rw [scanWhile_eq hstring rfl (by omega), htake, Option.bind_some, load_eq s.buf (by omega),
        Option.bind_some]
      cases r with
      | nil =>
        rw [if_pos (hstring'.at_end_iff.mpr rfl)]
        exact ⟨_, rfl, hskip, Or.inr ⟨Nat.le_add_right _ _, hr⟩⟩
      | cons c r =>
        obtain ⟨w, tail, hword, htakew, hne, hw, htail⟩ := word_split hstring'.chars (hhead c rfl)
        rw [if_neg (by rw [hstring'.at_end_iff]; simp)]
        have hrlen := congrArg List.length hr
        rw [List.length_drop] at hrlen
        rw [hword] at hr
        have htoken := hskip.token htext hr hne hw htail
        have hfinish : s.line + blanks.length + w.length ≤ text.length := by
          have := congrArg List.length hr
          rw [List.length_drop, List.length_append] at this
          omega
        have hscan : scanToken size s (s.line + blanks.length) =
            some (takeToken s (s.line + blanks.length) (s.line + blanks.length + w.length)) := by
          rw [scanToken, scanWhile_eq hstring' rfl (by omega), htakew, Option.bind_some,
            load_eq s.buf (by omega)]
          rfl
        obtain ⟨t, ht, hscanned, hcount⟩ := ih htoken
        refine ⟨t, ?_, hscanned, ?_⟩
        · rw [hscan, Option.bind_some]
          exact ht
        · rw [takeToken_argv, List.length_append, List.length_singleton] at hcount
          rwa [Nat.add_right_comm, Nat.add_assoc] at hcount

/-- **The tokenizer** takes the first runs of a line, as many as it may: each is closed in place,
nothing but blanks is overwritten, and nothing is touched behind the line and its terminator. -/
theorem scanTokens_runs (htext : StrIn buf 0 text) (maxArgs : ℕ) :
    ∃ t, scanTokens (text.length + 1) maxArgs ⟨buf, 0, []⟩ = some t ∧
      t.argv.length = min maxArgs (runStarts text).length ∧
      t.argv = (runStarts text).take maxArgs ∧
      (∀ p ∈ t.argv, StrIn t.buf p (runAt text p)) ∧
      (∀ i, isBlank (buf i) = false → t.buf i = buf i) ∧
      ∀ i, text.length ≤ i → t.buf i = buf i := by
  obtain ⟨t, ht, hscanned, hend⟩ := scanTokens_scanned htext (Nat.lt_succ_self _) maxArgs
    (Scanned.start buf text)
  have hstarts := hscanned.starts
  have hargv : t.argv = (runStarts text).take maxArgs := by
    simp only [List.length_nil, Nat.zero_add] at hend
    rcases hend with hfull | ⟨hle, hnone⟩
    · rw [hstarts, List.take_left' hfull]
    · have hall : runStarts text = t.argv := by
        rw [hstarts, hnone]
        exact List.append_nil _
      rw [hall, List.take_of_length_le hle]
  refine ⟨t, ht, ?_, hargv, fun p hp => (hscanned.tokens p hp).1, hscanned.runs, fun i hi => ?_⟩
  · rw [hargv, List.length_take]
  · exact hscanned.behind i (hscanned.line_le.trans hi)

/-- A tab, two words and a blank between them. -/
def twoWords : List UInt8 := [CHAR_TAB, 0x61, 0x62, CHAR_SPACE, 0x63]

theorem scanTokens_runs_two :
    ∃ t, scanTokens (twoWords.length + 1) 1
        ⟨Mem.blit (fun _ => 0xFF) 0 (twoWords ++ [CHAR_NULL]), 0, []⟩ = some t ∧
      t.argv.length = min 1 (runStarts twoWords).length ∧
      t.argv = (runStarts twoWords).take 1 ∧
      (∀ p ∈ t.argv, StrIn t.buf p (runAt twoWords p)) ∧
      (∀ i, isBlank (Mem.blit (fun _ => 0xFF) 0 (twoWords ++ [CHAR_NULL]) i) = false →
        t.buf i = Mem.blit (fun _ => 0xFF) 0 (twoWords ++ [CHAR_NULL]) i) ∧
      ∀ i, twoWords.length ≤ i →
        t.buf i = Mem.blit (fun _ => 0xFF) 0 (twoWords ++ [CHAR_NULL]) i :=
  scanTokens_runs ⟨by decide, by decide,
    by simp [twoWords, isChar, CHAR_NULL, CHAR_TAB, CHAR_SPACE]⟩ 1

end Scan

/-! ### The command buffer -/

section CommandBuffer

variable {buf : ℕ → UInt8} {q : UInt8 → Bool} {left p finish : ℕ}

/-- A scan stops at a character that fails the test, behind those that pass it. -/
lemma scanWhile_stop (h : scanWhile q buf left p = some finish) :
    p ≤ finish ∧ q (buf finish) = false := by
  induction left generalizing p with
  | zero => simp [scanWhile] at h
  | succ left ih =>
    rw [scanWhile] at h
    split_ifs at h with hp
    · obtain ⟨hle, hstop⟩ := ih h
      exact ⟨by omega, hstop⟩
    · cases h
      exact ⟨le_rfl, by simpa using hp⟩

lemma scanWhile_skipWhile (h : scanWhile q buf left p = some finish)
    (hleft : left ≤ SHELL_CMD_BUF_SIZE) : skipWhile q buf p = some finish := by
  unfold skipWhile
  generalize SHELL_CMD_BUF_SIZE = fuel at hleft
  induction left generalizing p fuel with
  | zero => simp [scanWhile] at h
  | succ left ih =>
    obtain ⟨n, rfl⟩ : ∃ n, fuel = n + 1 := ⟨fuel - 1, by omega⟩
    rw [scanWhile] at h
    split_ifs at h with hp
    · rw [@Loop.whileFuel_step _ (fun line => q (buf line)) _ p (p + 1) hp rfl]
      exact ih h n (by omega)
    · cases h
      exact Loop.whileFuel_done (by simpa using hp) _

lemma load_some {size : ℕ} {c : UInt8} (h : load size buf p = some c) : p < size ∧ buf p = c := by
  rw [load] at h
  split_ifs at h with hlt
  exact ⟨hlt, Option.some.inj h⟩

lemma scanToken_some {size : ℕ} {s t : Tokenizer} (h : scanToken size s p = some t) :
    ∃ finish, scanWhile isTokenChar s.buf (size - p) p = some finish ∧ finish < size ∧
      t = takeToken s p finish := by
  obtain ⟨finish, hscan, h⟩ := Option.bind_eq_some_iff.mp h
  obtain ⟨c, hload, rfl⟩ := Option.map_eq_some_iff.mp h
  exact ⟨finish, hscan, (load_some hload).1, rfl⟩

/-- Every round of the scan is one of the loop. -/
lemma scanTokens_rounds {size maxArgs room fuel : ℕ} {s t : Tokenizer}
    (h : scanTokens size room s = some t) (hroom : s.argv.length + room = maxArgs)
    (hsize : size ≤ SHELL_CMD_BUF_SIZE) (hfuel : size ≤ s.line + fuel) :
    Loop.whileFuel (wantsToken maxArgs) tokenRound fuel s = some t := by
  induction room generalizing s fuel with
  | zero =>
    have hfull : wantsToken maxArgs s = false := by
      simp [wantsToken, ← hroom]
    obtain ⟨c, -, rfl⟩ := Option.map_eq_some_iff.mp h
    exact Loop.whileFuel_done hfull _
  | succ room ih =>
    obtain ⟨c, hload, h⟩ := Option.bind_eq_some_iff.mp h
    obtain ⟨hline, rfl⟩ := load_some hload
    obtain ⟨n, rfl⟩ : ∃ n, fuel = n + 1 := ⟨fuel - 1, by omega⟩
    split_ifs at h with hend
    · cases h
      exact Loop.whileFuel_done (by simp [wantsToken, hend]) _
    · have hwants : wantsToken maxArgs s = true := by
        simp only [wantsToken, Bool.and_eq_true, decide_eq_true_eq]
        exact ⟨hend, by omega⟩
      obtain ⟨line, hblanks, h⟩ := Option.bind_eq_some_iff.mp h
      obtain ⟨c, hload', h⟩ := Option.bind_eq_some_iff.mp h
      obtain ⟨hline', rfl⟩ := load_some hload'
      obtain ⟨hle, hblank⟩ := scanWhile_stop hblanks
      have hskip := scanWhile_skipWhile hblanks (by omega)
      split_ifs at h with hbreak
      · cases h
        have hround : tokenRound s = some { s with line := line } := by
          rw [tokenRound, hskip, Option.bind_some, if_pos hbreak]
        rw [Loop.whileFuel_step hwants hround]
        exact Loop.whileFuel_done (by simp [wantsToken, hbreak]) _
      · obtain ⟨u, htoken, h⟩ := Option.bind_eq_some_iff.mp h
        obtain ⟨finish, hscan, hfinish, rfl⟩ := scanToken_some htoken
        have hround : tokenRound s = some (takeToken s line finish) := by
          rw [tokenRound, hskip, Option.bind_some, if_neg hbreak,
            scanWhile_skipWhile hscan (by omega), Option.map_some]
        -- the character behind the blanks belongs to the token
        have hlt : line < finish := by
          obtain ⟨hfirst, hstop⟩ := scanWhile_stop hscan
          refine lt_of_le_of_ne hfirst ?_
          rintro rfl
          simp [isTokenChar, hblank, hbreak] at hstop
        have hnext := le_takeToken_line s line finish
        rw [Loop.whileFuel_step hwants hround]
        refine ih h ?_ (by omega)
        rw [takeToken_argv, List.length_append, List.length_singleton]
        omega

/-- The command buffer is tokenized by a scan that stays inside the line. -/
theorem shellTokenize_scan {text : List UInt8} (htext : StrIn buf 0 text)
    (hlen : text.length < SHELL_CMD_BUF_SIZE) (maxArgs : ℕ) :
    shellTokenize buf maxArgs = scanTokens (text.length + 1) maxArgs ⟨buf, 0, []⟩ := by
  obtain ⟨t, ht, -⟩ := scanTokens_runs htext maxArgs
  rw [ht, shellTokenize]
  exact scanTokens_rounds ht (Nat.zero_add _) hlen (by simp only; omega)

end CommandBuffer

end UefiToolkit.ShellScan
