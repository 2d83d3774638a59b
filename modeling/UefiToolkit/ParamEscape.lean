import UefiToolkit.ArgsParse
import UefiToolkit.ParamParse

/-!
A switch character behind an escape character, from the command line to the package.

The escape character is gone once the line is split into arguments, so the check for one in front of
a switch character comes too late: what is parsed is the bare switch.
-/

namespace UefiToolkit.ParamEscape

open UefiToolkit.Word UefiToolkit.ArgsModel UefiToolkit.ArgsToken UefiToolkit.ArgsParse
  UefiToolkit.ParamModel UefiToolkit.ParamItems UefiToolkit.ParamParse

/-! ### On the command line -/

/-- No character of the text means anything to the tokenizer. -/
def Plain (t : Str) : Prop := ∀ c ∈ t, c ≠ CHAR_SPACE ∧ c ≠ CHAR_QUOTE ∧ c ≠ CHAR_ESCAPE

/-- The text has these words, and a new word begins behind it. -/
def Opens (before : Str) (words : List Str) : Prop :=
  ∀ rest, tokens false none (before ++ rest) = (tokens false none rest).map (words ++ ·)

/-- A word ends in front of the text, which has these words. -/
def Closes (after : Str) (words : List Str) : Prop :=
  (after = [] ∨ after.head? = some CHAR_SPACE) ∧ tokens false none after = some words

section Line

variable {before after t current : Str} {words more : List Str}

lemma tokens_plainText (ht : Plain t) (after : Str) :
    tokens false (some current) (t ++ after) = tokens false (some (current ++ t)) after := by
  induction t generalizing current with
  | nil => rw [List.nil_append, List.append_nil]
  | cons c t ih =>
    obtain ⟨hspace, hquote, hescape⟩ := ht c List.mem_cons_self
    rw [List.cons_append, tokens_plain hescape hquote fun h => absurd h hspace, Option.getD_some,
      ih fun d hd => ht d (List.mem_cons_of_mem c hd), List.append_assoc]
    rfl

lemma tokens_closes (h : Closes after more) :
    tokens false (some t) after = some (t :: more) := by
  obtain ⟨hafter, hmore⟩ := h
  cases after with
  | nil =>
    obtain rfl : more = [] := (Option.some.inj hmore).symm
    rfl
  | cons c after =>
    obtain rfl : c = CHAR_SPACE := by simpa using hafter
    rw [tokens_space] at hmore ⊢
    simp only at hmore ⊢
    rw [hmore]
    rfl

/-- An escaped word is the word. -/
lemma tokenize_escaped (hbefore : Opens before words) (ht : Plain t) (hne : t ≠ [])
    (hafter : Closes after more) :
    tokenize (before ++ CHAR_ESCAPE :: (t ++ after)) = some (words ++ t :: more) := by
  cases t with
  | nil => exact absurd rfl hne
  | cons c t =>
    have hrest : Plain t := fun d hd => ht d (List.mem_cons_of_mem c hd)
    rw [tokenize, hbefore, List.cons_append, tokens_escape, tokens_plainText hrest,
      tokens_closes hafter]
    rfl

end Line

lemma mem_indexed {k : ℕ} {a : Str} {toks : List Str} :
    (k, a) ∈ indexed 0 toks ↔ toks[k]? = some a := by
  have hswap : (k, a) ∈ indexed 0 toks ↔ (a, k) ∈ toks.zipIdx := by
    unfold indexed
    rw [List.mem_map]
    constructor
    · rintro ⟨x, hx, hxa⟩
      rwa [← Prod.swap_swap x, hxa] at hx
    · exact fun h => ⟨(a, k), h, rfl⟩
  rw [hswap, List.mem_zipIdx_iff_getElem?]

/-! ### In the parser -/

section Parser

variable {ε : Type} {limit : ℕ} {compare : Str → Str → ℤ} {allocate : ε → ℕ → Bool × ε}
  {checkList : List ParamItem} {problemParam alwaysAllowNumbers : Bool} {t : Str}

/-- The loop over the arguments, from an empty package on. -/
def parseArguments (limit : ℕ) (compare : Str → Str → ℤ) (allocate : ε → ℕ → Bool × ε)
    (checkList : List ParamItem) (problemParam alwaysAllowNumbers : Bool) (env : ε)
    (arguments : List Str) : Except (Result ε) (Parser ε) :=
  (arguments.map some).foldlM (fun s argument =>
    parseArgument limit compare allocate checkList problemParam alwaysAllowNumbers argument s)
    (Parser.mk [] none 0 0 0 env)

lemma parseArguments_snoc {env : ε} {words : List Str} {s : Parser ε}
    (hs : parseArguments limit compare allocate checkList problemParam alwaysAllowNumbers env
      words = .ok s) (a : Str) :
    parseArguments limit compare allocate checkList problemParam alwaysAllowNumbers env
      (words ++ [a]) =
      parseArgument limit compare allocate checkList problemParam alwaysAllowNumbers
        (some a) s := by
  unfold parseArguments at hs ⊢
  rw [List.map_append, List.foldlM_append, hs]
  show (parseArgument limit compare allocate checkList problemParam alwaysAllowNumbers
    (some a) s >>= fun s' => Except.ok s') = _
  cases parseArgument limit compare allocate checkList problemParam alwaysAllowNumbers
    (some a) s <;> rfl

/-- An argument is inserted as a positional parameter exactly if it is neither on the check list
nor a flag. -/
lemma parseArgument_positional_iff (halloc : Allocates allocate) (ht : isSwitch t) {s : Parser ε}
    (hidle : s.getItemValue = 0) :
    (∃ s', parseArgument limit compare allocate checkList problemParam alwaysAllowNumbers
        (some t) s = .ok s' ∧
          s'.checkPackage = ⟨none, .position, some t, s.count⟩ :: s.checkPackage) ↔
      (internalIsOnCheckList limit compare allocate t checkList s.env).1 = none ∧
        internalIsFlag t alwaysAllowNumbers false = false := by
  obtain ⟨found, env, hfound⟩ : ∃ found env,
      internalIsOnCheckList limit compare allocate t checkList s.env = (found, env) := ⟨_, _, rfl⟩
  have hwaits : waitsFor alwaysAllowNumbers t { s with env := env } = none :=
    if_neg (not_not.mpr hidle)
  have hleftover : insertLeftover { s with env := env } = { s with env := env } :=
    if_neg (not_not.mpr hidle)
  have hbare : stripEscape t = t := by
    match t with
    | [] => rfl
    | [c] => rfl
    | c :: d :: t =>
      refine if_neg fun h => ?_
      obtain rfl := h.1
      exact absurd ht (by unfold isSwitch; simp [CHAR_ESCAPE, CHAR_SLASH, CHAR_MINUS, CHAR_PLUS])
  unfold parseArgument
  simp only [hfound]
  cases found with
  | some type =>
    -- a flag, with a name
    obtain ⟨env', htake⟩ := takeFlag_eq halloc t type { s with env := env }
    rw [hleftover] at htake
    refine ⟨?_, fun h => absurd h.1 nofun⟩
    rintro ⟨s', hs', hpackage⟩
    obtain rfl := Except.ok.inj (htake.symm.trans hs')
    split_ifs at hpackage
    · have hname := congrArg ParamPackage.name (List.cons.inj hpackage).1
      exact absurd hname nofun
    · have hlen := congrArg List.length hpackage
      simp only [wantValues, List.length_cons] at hlen
      omega
  | none =>
    rw [hwaits]
    by_cases hflag : internalIsFlag t alwaysAllowNumbers false = true
    · simp [hflag]
    · obtain ⟨env', htake⟩ := takePositional_eq halloc t { s with env := env }
      simp only [eq_false_of_ne_true hflag, Bool.not_false, if_true, htake]
      refine ⟨fun _ => ⟨trivial, trivial⟩, fun _ => ⟨_, rfl, ?_⟩⟩
      simp only [insertPackage, positionalPackage, hbare]

/-- What is asked for of a text `t` behind an escape character, at the place behind `words` on the
line: it is stored as an argument, and the loop inserts that as a positional parameter `t`. -/
def Escaped (limit : ℕ) (compare : Str → Str → ℤ) (allocate : ε → ℕ → Bool × ε)
    (checkList : List ParamItem) (problemParam alwaysAllowNumbers debugCode : Bool) (argc : ℕ)
    (env : ε) (line t : Str) (words : List Str) (s : Parser ε) : Prop :=
  ∃ argument s', (words.length, argument) ∈
      (parseCommandLineToArgs debugCode limit (fun _ => true) (some line) true argc).stores ∧
    parseArguments limit compare allocate checkList problemParam alwaysAllowNumbers env
      (words ++ [argument]) = .ok s' ∧
    s'.checkPackage = ⟨none, .position, some t, s.count⟩ :: s.checkPackage

section Composition

variable (debugCode : Bool) (argc : ℕ) (env : ε) {line before after : Str} {words more : List Str}
  {s : Parser ε}

/-- What the loop gets of an escaped text is the bare one. -/
lemma escaped_bare (hnul : CHAR_NULL ∉ line) (hlimit : line.length < limit)
    (hline : trimSpaces line = before ++ CHAR_ESCAPE :: (t ++ after)) (ht : isSwitch t)
    (hplain : Plain t) (hbefore : Opens before words) (hafter : Closes after more)
    (hs : parseArguments limit compare allocate checkList problemParam alwaysAllowNumbers env
      words = .ok s) :
    Escaped limit compare allocate checkList problemParam alwaysAllowNumbers debugCode argc env line
        t words s ↔
      ∃ s', parseArgument limit compare allocate checkList problemParam alwaysAllowNumbers
          (some t) s = .ok s' ∧
            s'.checkPackage = ⟨none, .position, some t, s.count⟩ :: s.checkPackage := by
  have hne : t ≠ [] := by
    rintro rfl
    exact absurd ht (by decide)
  have hparsed := parseCommandLineToArgs_parsed debugCode limit (some line)
    (fun l hl => Option.some.inj hl ▸ hnul) (fun l hl => Option.some.inj hl ▸ hlimit) argc
  have hstores := (hparsed.success _ (by
    rw [Option.getD_some, hline]
    exact tokenize_escaped hbefore hplain hne hafter)).2.2
  have hstored : ∀ argument, (words.length, argument) ∈
      (parseCommandLineToArgs debugCode limit (fun _ => true) (some line) true argc).stores ↔
      argument = t := by
    intro argument
    rw [hstores, mem_indexed, List.getElem?_append_right le_rfl, Nat.sub_self,
      List.getElem?_cons_zero, Option.some.injEq]
    exact eq_comm
  constructor
  · rintro ⟨argument, s', hargument, hs', hpackage⟩
    rw [(hstored argument).mp hargument, parseArguments_snoc hs] at hs'
    exact ⟨s', hs', hpackage⟩
  · rintro ⟨s', hs', hpackage⟩
    exact ⟨t, s', (hstored t).mpr rfl, (parseArguments_snoc hs t).trans hs', hpackage⟩

/-- **Escaped switches.** Behind the escape character a switch becomes a positional parameter
exactly if it would without: if it is not on the check list, and numbers are allowed and it is
one. -/
theorem escaped_iff (halloc : Allocates allocate) (hnul : CHAR_NULL ∉ line)
    (hlimit : line.length < limit)
    (hline : trimSpaces line = before ++ CHAR_ESCAPE :: (t ++ after)) (ht : isSwitch t)
    (hplain : Plain t) (hbefore : Opens before words) (hafter : Closes after more)
    (hs : parseArguments limit compare allocate checkList problemParam alwaysAllowNumbers env
      words = .ok s) (hidle : s.getItemValue = 0) :
    Escaped limit compare allocate checkList problemParam alwaysAllowNumbers debugCode argc env line
        t words s ↔
      (internalIsOnCheckList limit compare allocate t checkList s.env).1 = none ∧
        internalIsFlag t alwaysAllowNumbers false = false :=
  (escaped_bare debugCode argc env hnul hlimit hline ht hplain hbefore hafter hs).trans
    (parseArgument_positional_iff halloc ht hidle)

end Composition

end Parser

/-! ### A line with an escaped switch -/

def mem : Str := [0x6D, 0x65, 0x6D]

/-- `mem ^` and a text. -/
def escapedLine (t : Str) : Str := mem ++ [CHAR_SPACE, CHAR_ESCAPE] ++ t

lemma opens_mem : Opens (mem ++ [CHAR_SPACE]) [mem] := by
  intro rest
  show tokens false none (0x6D :: 0x65 :: 0x6D :: CHAR_SPACE :: rest) = _
  rw [tokens_plain (by decide) (by decide) (by decide), tokens_plain (by decide) (by decide)
    (by decide), tokens_plain (by decide) (by decide) (by decide), tokens_space]
  rfl

/-- The loop behind the name of the command. -/
def behindMem : Parser Unit := ⟨[⟨none, .position, some mem, 0⟩],
  some ⟨none, .position, some mem, 0⟩, 0, 0, 1, ()⟩

def roomy (env : Unit) (_ : ℕ) : Bool × Unit := (true, env)

lemma escapedLine_spec {t : Str} (ht : t = [0x2D, 0x35] ∨ t = [0x2D, 0x78]) :
    CHAR_NULL ∉ escapedLine t ∧ (escapedLine t).length < 100 ∧ Plain t ∧
      trimSpaces (escapedLine t) = (mem ++ [CHAR_SPACE]) ++ CHAR_ESCAPE :: (t ++ []) := by
  rcases ht with rfl | rfl <;>
  exact ⟨by decide, by decide, List.forall_mem_cons.mpr ⟨by decide, List.forall_mem_singleton.mpr
    (by decide)⟩, by decide⟩

/-- Where numbers are allowed, `^-5` is positional, as `-5` is. -/
theorem escaped_iff_number :
    Escaped 100 sampleCompare roomy [] true true true 0 () (escapedLine [0x2D, 0x35]) [0x2D, 0x35]
      [mem] behindMem := by
  obtain ⟨hnul, hlimit, hplain, hline⟩ := escapedLine_spec (Or.inl rfl)
  have hs : parseArguments 100 sampleCompare roomy [] true true () [mem] = .ok behindMem := rfl
  exact (escaped_iff true 0 () (fun _ _ => rfl) hnul hlimit hline (by decide) hplain
    opens_mem ⟨Or.inl rfl, rfl⟩ hs rfl).mpr (by decide)

/-- `mem ^-x` is refused like `mem -x`, with `-x` as the problem. -/
theorem escaped_switch_refused :
    ¬ Escaped 100 sampleCompare roomy [] true false true 0 () (escapedLine [0x2D, 0x78])
        [0x2D, 0x78] [mem] behindMem ∧
      internalCommandLineParse 100 sampleCompare roomy [] true false
        [some mem, some [0x2D, 0x78]] () =
          ⟨EFI_VOLUME_CORRUPTED, none, some (some [0x2D, 0x78]), ()⟩ := by
  refine ⟨fun h => ?_, by rfl⟩
  obtain ⟨hnul, hlimit, hplain, hline⟩ := escapedLine_spec (Or.inr rfl)
  have hs : parseArguments 100 sampleCompare roomy [] true false () [mem] = .ok behindMem := rfl
  obtain ⟨s', hs', -⟩ := (escaped_bare true 0 () hnul hlimit hline (by decide) hplain
    opens_mem ⟨Or.inl rfl, rfl⟩ hs).mp h
  exact absurd hs' nofun

end UefiToolkit.ParamEscape
