import UefiToolkit.ConvertDigits

/-!
The numbers that `ConsoleConvertStringToUint64` recognises, and those it gives back.

The recogniser takes a minus sign and any zeros before an `x`. The converters know neither: behind a
minus sign, or behind the second of two zeros, the digits are not read.
-/

namespace UefiToolkit.ConvertString

open UefiToolkit.Word UefiToolkit.Numeral UefiToolkit.ArgsModel UefiToolkit.ParamModel
  UefiToolkit.ConvertModel UefiToolkit.ConvertDigits

/-! ### What the recogniser sees -/

/-- The string with a minus sign. -/
def Negative (s : Str) : Prop := s.head? = some CHAR_MINUS

instance (s : Str) : Decidable (Negative s) := inferInstanceAs (Decidable (_ = _))

def unsigned (s : Str) : Str := if Negative s then s.tail else s

/-- What is left behind the sign and the leading zeros. -/
def significant (s : Str) : Str := (unsigned s).dropWhile (· = CHAR_ZERO)

/-- The digits are hexadecimal. -/
def isHex (hex : Bool) (s : Str) : Bool := hex || isX (significant s)

/-- The text up to the stop. -/
def upTo (stopAtSpace : Bool) (s : Str) : Str :=
  if stopAtSpace then s.takeWhile (· ≠ CHAR_SPACE) else s

/-- The digits of a string, without leading zeros. -/
def digits (stopAtSpace : Bool) (s : Str) : Str := upTo stopAtSpace (afterX (significant s))

/-- The string denotes `n`, but for its sign. -/
def Denotes (hex stopAtSpace : Bool) (s : Str) (n : ℕ) : Prop :=
  ∃ ds, Reads (digitOf (isHex hex s)) (digits stopAtSpace s) ds ∧
    value (radixOf (isHex hex s)) ds = n

section Recogniser

variable {hex stopAtSpace : Bool} {s : Str} {n m : ℕ}

lemma Denotes.unique (h : Denotes hex stopAtSpace s n) (h' : Denotes hex stopAtSpace s m) :
    n = m := by
  obtain ⟨ds, hds, rfl⟩ := h
  obtain ⟨es, hes, rfl⟩ := h'
  rw [hds.unique hes]

lemma onlyDigits_iff (s : Str) :
    onlyDigits hex stopAtSpace false s = true ↔
      ∃ ds, Reads (digitOf hex) (upTo stopAtSpace s) ds := by
  induction s with
  | nil => exact ⟨fun _ => ⟨[], by cases stopAtSpace <;> exact List.Forall₂.nil⟩, fun _ => rfl⟩
  | cons c s ih =>
    by_cases hstop : stopAtSpace = true ∧ c = CHAR_SPACE
    · rw [onlyDigits, if_pos hstop]
      refine ⟨fun _ => ⟨[], ?_⟩, fun _ => rfl⟩
      rw [upTo, if_pos hstop.1, List.takeWhile_cons_of_neg (by simpa using hstop.2)]
      exact List.Forall₂.nil
    · have hcons : upTo stopAtSpace (c :: s) = c :: upTo stopAtSpace s := by
        unfold upTo
        cases stopAtSpace with
        | true =>
          have hne : c ≠ CHAR_SPACE := fun h => hstop ⟨rfl, h⟩
          simp [hne]
        | false => rfl
      have hdigit : onlyDigits hex stopAtSpace false (c :: s) = true ↔
          isDigit hex c = true ∧ onlyDigits hex stopAtSpace false s = true := by
        rw [onlyDigits, if_neg hstop, if_neg (by simp)]
        cases hex <;> simp [isDigit]
      rw [hdigit, ih, hcons]
      constructor
      · rintro ⟨hc, ds, hds⟩
        refine ⟨digitValue hex c :: ds, List.Forall₂.cons ?_ hds⟩
        rw [digitOf_eq, if_pos hc]
      · rintro ⟨ds, hds⟩
        obtain ⟨d, es, hc, hes, -⟩ := List.forall₂_cons_left_iff.mp hds
        exact ⟨(isDigit_of_digitOf hc).1, es, hes⟩

lemma isX_iff (s : Str) : isX s = true ↔ s.head? = some 0x78 ∨ s.head? = some 0x58 := by
  have hx : ∀ c : UInt16, internalConsoleCharToUpper c = CHAR_X ↔ c = 0x78 ∨ c = 0x58 := by
    intro c
    constructor
    · intro h
      have hnat := congrArg UInt16.toNat h
      rw [charToUpper_toNat] at hnat
      have hcode : CHAR_X.toNat = 88 := rfl
      split_ifs at hnat with hlower
      · exact Or.inl (UInt16.toNat_inj.mp (show c.toNat = 0x78 by omega))
      · exact Or.inr (UInt16.toNat_inj.mp (show c.toNat = 0x58 by omega))
    · rintro (rfl | rfl) <;> rfl
  unfold isX
  rw [decide_eq_true_eq]
  cases s with
  | nil => simp
  | cons c s => simpa using hx c

/-- What is recognised: some text behind the sign, an `x` behind zeros only, and digits. -/
lemma isHexOrDecimalNumber_iff :
    internalConsoleIsHexOrDecimalNumber s hex stopAtSpace false = true ↔
      unsigned s ≠ [] ∧
      (isX (significant s) = true → (unsigned s).head? = some CHAR_ZERO) ∧
      ∃ n, Denotes hex stopAtSpace s n := by
  have hdenotes : (∃ n, Denotes hex stopAtSpace s n) ↔
      onlyDigits (isHex hex s) stopAtSpace false (afterX (significant s)) = true := by
    rw [onlyDigits_iff]
    constructor
    · rintro ⟨n, ds, hds, -⟩
      exact ⟨ds, hds⟩
    · rintro ⟨ds, hds⟩
      exact ⟨_, ds, hds, rfl⟩
  rw [hdenotes]
  unfold internalConsoleIsHexOrDecimalNumber internalShellIsHexOrDecimalNumber
  have hunsigned : (if s.head? = some CHAR_MINUS then s.tail else s) = unsigned s := rfl
  have hrest : (unsigned s).dropWhile (· = 0x30) = significant s := rfl
  simp only [hunsigned, hrest, ← isX_iff]
  by_cases hne : unsigned s = []
  · simp [hne]
  by_cases hx : isX (significant s) = true
  · have hafter : afterX (significant s) = (significant s).tail := if_pos hx
    have hhex : isHex hex s = true := by rw [isHex, hx, Bool.or_true]
    rw [if_neg hne, if_pos hx, hafter, hhex]
    by_cases hzero : (unsigned s).head? = some 0x30
    · simp [hne, hzero, CHAR_ZERO]
    · simp [hzero, hx, CHAR_ZERO]
  · have hafter : afterX (significant s) = significant s := if_neg hx
    have hhex : isHex hex s = hex := by
      rw [isHex, eq_false_of_ne_true hx, Bool.or_false]
    rw [if_neg hne, if_neg hx, hafter, hhex]
    simp [hne, hx]

end Recogniser

/-! ### What the converters read -/

/-- The digits are not read: they stand behind a minus sign, or behind an `x` that more than one
zero hides from the choice of the converter. -/
def Lost (hex : Bool) (s : Str) : Prop :=
  Negative s ∨ hex = false ∧ isX (significant s) = true ∧ s.take 2 = [CHAR_ZERO, CHAR_ZERO]

/-- A space stands where the hexadecimal converter wants a digit. -/
def Gap (hex : Bool) (s : Str) : Prop :=
  isHex hex s = true ∧ (afterX (significant s)).head? = some CHAR_SPACE

instance (hex : Bool) (s : Str) : Decidable (Lost hex s) := inferInstanceAs (Decidable (_ ∨ _))
instance (hex : Bool) (s : Str) : Decidable (Gap hex s) := inferInstanceAs (Decidable (_ ∧ _))

section Converter

variable {hex stopAtSpace : Bool} {s : Str} {n : ℕ}

lemma unsigned_eq (h : ¬ Negative s) : unsigned s = s := if_neg h

lemma significant_eq (h : ¬ Negative s) : significant s = s.dropWhile (· = CHAR_ZERO) := by
  rw [significant, unsigned_eq h]

/-- Behind the digits stands the end or a space. -/
lemma exists_upTo (stopAtSpace : Bool) (s : Str) :
    ∃ rest, s = upTo stopAtSpace s ++ rest ∧ ∀ c, rest.head? = some c → c = CHAR_SPACE := by
  cases stopAtSpace with
  | false => exact ⟨[], (List.append_nil s).symm, nofun⟩
  | true =>
    refine ⟨s.dropWhile (· ≠ CHAR_SPACE), (List.takeWhile_append_dropWhile).symm, fun c hc => ?_⟩
    have hstop := List.head?_dropWhile_not (· ≠ CHAR_SPACE) s
    rw [hc] at hstop
    simpa using hstop

/-- The loop gives the number of the digits up to the stop. -/
lemma digitLoop_upTo {ds : List ℕ} (h : Reads (digitOf hex) (upTo stopAtSpace s) ds) :
    digitLoop (radixOf hex) (isDigit hex) (digitValue hex) stopAtSpace 0 s =
      answer (value (radixOf hex) ds) := by
  obtain ⟨rest, hsplit, hrest⟩ := exists_upTo stopAtSpace s
  have hloop := digitLoop_answer rest stopAtSpace h fun c hc => by
    rw [hrest c hc]
    exact not_digit_space hex
  rwa [← hsplit] at hloop

lemma upTo_space (h : s.head? = some CHAR_SPACE) : upTo true s = [] := by
  cases s with
  | nil => rfl
  | cons c s =>
    obtain rfl := Option.some.inj h
    rfl

/-- A recognised string without spaces in front is not padded. -/
lemma skip_recognised (hspace : s.head? ≠ some CHAR_SPACE) (hneg : ¬ Negative s)
    (hn : Denotes hex stopAtSpace s n) :
    skipPadAndZeros s = s.dropWhile (· = CHAR_ZERO) := by
  cases s with
  | nil => rfl
  | cons c s =>
    refine skipPadAndZeros_eq ⟨fun h => hspace (congrArg some h), fun htab => ?_⟩ s
    obtain ⟨ds, hds, -⟩ := hn
    subst htab
    have hdigits : digits stopAtSpace (CHAR_TAB :: s) = CHAR_TAB :: upTo stopAtSpace s := by
      have hsig : significant (CHAR_TAB :: s) = CHAR_TAB :: s := by
        rw [significant_eq hneg, List.dropWhile_cons_of_neg (by decide)]
      rw [digits, hsig, afterX,
        if_neg (by simp [isX, internalConsoleCharToUpper, CHAR_TAB, CHAR_X])]
      cases stopAtSpace <;> simp [upTo, CHAR_TAB, CHAR_SPACE]
    rw [hdigits] at hds
    obtain ⟨d, -, hd, -, -⟩ := List.forall₂_cons_left_iff.mp hds
    exact (digit_ne hd).2.1 rfl

/-- Which strings go to the hexadecimal converter by their beginning. -/
lemma strnCmp_prefix_iff (hneg : ¬ Negative s)
    (hx : isX (significant s) = true → (unsigned s).head? = some CHAR_ZERO) :
    strnCmp s PREFIX_X_LOWER 2 = true ∨ strnCmp s PREFIX_X_UPPER 2 = true ↔
      isX (significant s) = true ∧ s.take 2 ≠ [CHAR_ZERO, CHAR_ZERO] := by
  rw [unsigned_eq hneg] at hx
  rw [significant_eq hneg] at hx ⊢
  have hcmp : strnCmp s PREFIX_X_LOWER 2 = true ∨ strnCmp s PREFIX_X_UPPER 2 = true ↔
      s.take 2 = [CHAR_ZERO, 0x78] ∨ s.take 2 = [CHAR_ZERO, 0x58] := by
    unfold strnCmp
    rw [decide_eq_true_eq, decide_eq_true_eq]
    rfl
  rw [hcmp]
  match s with
  | [] => simp [isX]
  | [c] =>
    by_cases hc : c = CHAR_ZERO
    · subst hc
      simp [isX]
    · constructor
      · simp
      · rintro ⟨h, -⟩
        exact absurd (Option.some.inj (hx h)) hc
  | c :: d :: s =>
    have hsecond : ∀ e, (c :: d :: s).take 2 = [CHAR_ZERO, e] ↔ c = CHAR_ZERO ∧ d = e := by simp
    rw [hsecond, hsecond, ne_eq, hsecond]
    by_cases hc : c = CHAR_ZERO
    · subst hc
      rw [List.dropWhile_cons_of_pos (by simp), isX_iff]
      by_cases hd : d = CHAR_ZERO
      · subst hd
        simp [CHAR_ZERO]
      · rw [List.dropWhile_cons_of_neg (by simpa using hd)]
        simp [hd]
    · constructor
      · rintro (⟨h, -⟩ | ⟨h, -⟩) <;> exact absurd h hc
      · rintro ⟨h, -⟩
        exact absurd (Option.some.inj (hx h)) hc

lemma convert_negative (before : UInt16) (hneg : Negative s) :
    convert before s hex stopAtSpace = (EFI_SUCCESS, some 0) := by
  cases s with
  | nil => exact absurd hneg nofun
  | cons c s =>
    obtain rfl := Option.some.inj hneg
    have hskip : skipPadAndZeros (CHAR_MINUS :: s) = CHAR_MINUS :: s := by
      rw [skipPadAndZeros_eq (by decide), List.dropWhile_cons_of_neg (by decide)]
    have hx : isX (CHAR_MINUS :: s) = false := rfl
    unfold convert internalConsoleStrHexToUint64 internalConsoleStrDecimalToUint64
    simp only [hskip, hx, Bool.false_eq_true, false_and, if_false, List.head?_cons,
      Option.some.injEq, show CHAR_MINUS ≠ CHAR_SPACE by decide, and_false, digitLoop,
      show isHexaDecimalDigitCharacter CHAR_MINUS = false by decide,
      show isDecimalDigitCharacter CHAR_MINUS = false by decide, ite_self]

/-- The hexadecimal converter on a recognised string. -/
lemma strHex_recognised (before : UInt16) (hspace : s.head? ≠ some CHAR_SPACE)
    (hneg : ¬ Negative s) (hhex : isHex hex s = true)
    (hx : isX (significant s) = true → (unsigned s).head? = some CHAR_ZERO)
    (hn : Denotes hex stopAtSpace s n) :
    internalConsoleStrHexToUint64 before s stopAtSpace =
      if Gap hex s then (EFI_INVALID_PARAMETER, none) else answer n := by
  have hpad := skip_recognised hspace hneg hn
  rw [unsigned_eq hneg, significant_eq hneg] at hx
  obtain ⟨ds, hds, rfl⟩ := hn
  rw [digits, significant_eq hneg, hhex] at hds
  rw [strHexToUint64_eq before stopAtSpace hpad hx, digitLoop_upTo hds, hhex]
  have hgap : Gap hex s ↔ (afterX (s.dropWhile (· = CHAR_ZERO))).head? = some CHAR_SPACE := by
    rw [Gap, significant_eq hneg, hhex]
    exact and_iff_right rfl
  simp only [hgap]

/-- The decimal converter on a recognised string: an `x` ends the digits before the first one. -/
lemma strDecimal_recognised (hspace : s.head? ≠ some CHAR_SPACE) (hneg : ¬ Negative s)
    (hn : Denotes false stopAtSpace s n) :
    internalConsoleStrDecimalToUint64 s stopAtSpace =
      if isX (significant s) = true then (EFI_SUCCESS, some 0) else answer n := by
  have hpad := skip_recognised hspace hneg hn
  unfold internalConsoleStrDecimalToUint64
  dsimp only
  rw [hpad, ← significant_eq hneg]
  by_cases hx : isX (significant s) = true
  · rw [if_pos hx]
    have hhead := (isX_iff _).mp hx
    rw [if_neg fun h => by
      rcases hhead with h' | h' <;> exact absurd (h'.symm.trans h.2) (by decide)]
    refine @digitLoop_stop false _ _ _ fun c hc => ?_
    rcases hhead with h' | h'
    · obtain rfl := Option.some.inj (h'.symm.trans hc)
      rfl
    · obtain rfl := Option.some.inj (h'.symm.trans hc)
      rfl
  · obtain ⟨ds, hds, rfl⟩ := hn
    have hhex : isHex false s = false := by rw [isHex, eq_false_of_ne_true hx, Bool.or_false]
    rw [digits, afterX, if_neg hx, hhex] at hds
    rw [if_neg hx, hhex]
    split_ifs with hstop
    · rw [hstop.1, upTo_space hstop.2] at hds
      rw [List.forall₂_nil_left_iff.mp hds]
      rfl
    · exact digitLoop_upTo hds

/-- **The conversion** of a recognised string that denotes `n`. -/
theorem convert_recognised (before : UInt16) (hspace : s.head? ≠ some CHAR_SPACE)
    (hrec : internalConsoleIsHexOrDecimalNumber s hex stopAtSpace false = true)
    (hn : Denotes hex stopAtSpace s n) :
    convert before s hex stopAtSpace =
      if Lost hex s then (EFI_SUCCESS, some 0)
      else if Gap hex s then (EFI_INVALID_PARAMETER, none)
      else answer n := by
  obtain ⟨-, hx, -⟩ := isHexOrDecimalNumber_iff.mp hrec
  by_cases hneg : Negative s
  · rw [if_pos (show Lost hex s from Or.inl hneg), convert_negative before hneg]
  have hbegins := strnCmp_prefix_iff hneg hx
  unfold convert
  cases hex with
  | true =>
    have hlost : ¬ Lost true s := by rintro (h | ⟨h, -⟩) <;> [exact hneg h; exact absurd h nofun]
    rw [if_pos (Or.inl rfl), if_neg hlost]
    exact strHex_recognised before hspace hneg rfl hx hn
  | false =>
    by_cases hsig : isX (significant s) = true
    · have hhex : isHex false s = true := by rw [isHex, hsig, Bool.false_or]
      by_cases hzeros : s.take 2 = [CHAR_ZERO, CHAR_ZERO]
      · rw [if_neg (by rw [hbegins]; simp [hzeros]),
          if_pos (show Lost false s from Or.inr ⟨rfl, hsig, hzeros⟩),
          strDecimal_recognised hspace hneg hn, if_pos hsig]
      · have hlost : ¬ Lost false s := by
          rintro (h | ⟨-, -, h⟩) <;> [exact hneg h; exact hzeros h]
        rw [if_pos (Or.inr (hbegins.mpr ⟨hsig, hzeros⟩)), if_neg hlost]
        exact strHex_recognised before hspace hneg hhex hx hn
    · have hlost : ¬ Lost false s := by
        rintro (h | ⟨-, h, -⟩) <;> [exact hneg h; exact hsig h]
      have hgap : ¬ Gap false s := by
        rintro ⟨h, -⟩
        rw [isHex, Bool.false_or] at h
        exact hsig h
      rw [if_neg (by rw [hbegins]; simp [hsig]), if_neg hlost, if_neg hgap,
        strDecimal_recognised hspace hneg hn, if_neg hsig]

end Converter

/-! ### The call -/

section Call

variable {string : Str} {forceHex stopAtSpace hex : Bool} {n : ℕ}
  {value : Option ℕ}

/-- The string without the leading spaces. -/
def walker (string : Str) : Str := string.dropWhile (· = CHAR_SPACE)

/-- The string is recognised with `Hex` being `hex`, and so is what stands behind the spaces. -/
structure Accepted (string : Str) (forceHex stopAtSpace hex : Bool) : Prop where
  string_eq : recognise string forceHex stopAtSpace = some hex
  walker_eq : internalConsoleIsHexOrDecimalNumber (walker string) hex stopAtSpace false = true

lemma walker_head (string : Str) : (walker string).head? ≠ some CHAR_SPACE := by
  intro h
  have hstop := List.head?_dropWhile_not (· = CHAR_SPACE) string
  rw [show (string.dropWhile (· = CHAR_SPACE)).head? = some CHAR_SPACE from h] at hstop
  simp at hstop

lemma Accepted.ne_nil (h : Accepted string forceHex stopAtSpace hex) : walker string ≠ [] := by
  intro hnil
  obtain ⟨hne, -⟩ := isHexOrDecimalNumber_iff.mp h.walker_eq
  rw [hnil] at hne
  exact hne rfl

/-- An accepted string denotes a number. -/
lemma Accepted.denotes (h : Accepted string forceHex stopAtSpace hex) :
    ∃ n, Denotes hex stopAtSpace (walker string) n :=
  (isHexOrDecimalNumber_iff.mp h.walker_eq).2.2

lemma convertString_rejected (stack : ℕ) (before : UInt16) (value : Option ℕ)
    (h : ∀ hex, ¬ Accepted string forceHex stopAtSpace hex) :
    consoleConvertStringToUint64 stack before string value forceHex stopAtSpace =
      (EFI_INVALID_PARAMETER, value) := by
  unfold consoleConvertStringToUint64
  cases hrec : recognise string forceHex stopAtSpace with
  | none => rfl
  | some hex =>
    have hwalker : internalConsoleIsHexOrDecimalNumber (walker string) hex stopAtSpace false =
        false := eq_false_of_ne_true fun h' => h hex ⟨hrec, h'⟩
    exact if_pos (Or.inr hwalker)

/-- What is stored through `Value` at the end. -/
lemma convertString_accepted (stack : ℕ) (before : UInt16)
    (h : Accepted string forceHex stopAtSpace hex) (hn : Denotes hex stopAtSpace (walker string) n)
    (hvalue : value ≠ none) :
    consoleConvertStringToUint64 stack before string value forceHex stopAtSpace =
      if Lost hex (walker string) then (EFI_SUCCESS, some 0)
      else if Gap hex (walker string) then (EFI_INVALID_PARAMETER, some stack)
      else if n < 2 ^ 64 then (EFI_SUCCESS, some n)
      else (EFI_DEVICE_ERROR, some stack) := by
  obtain ⟨prior, rfl⟩ := Option.ne_none_iff_exists'.mp hvalue
  have hconvert := convert_recognised (charBefore before string (walker string))
    (walker_head string) h.walker_eq hn
  have hwalker : ¬ (walker string = [] ∨
      internalConsoleIsHexOrDecimalNumber (walker string) hex stopAtSpace false = false) := by
    rintro (h' | h')
    · exact h.ne_nil h'
    · exact absurd (h.walker_eq.symm.trans h') nofun
  unfold consoleConvertStringToUint64
  rw [h.string_eq]
  show (if walker string = [] ∨
      internalConsoleIsHexOrDecimalNumber (walker string) hex stopAtSpace false = false
    then _ else _) = _
  rw [if_neg hwalker]
  dsimp only
  rw [if_neg fun h' : some prior = none ∧ _ => Option.some_ne_none prior h'.1,
    show string.dropWhile (· = CHAR_SPACE) = walker string from rfl, hconvert, answer]
  split_ifs <;> rfl

/-- What is asked for of a conversion that succeeds: the value is the number denoted, and that of a
minus sign in front is the negative number modulo `2 ^ 64`. -/
def Exact (string : Str) (forceHex stopAtSpace : Bool) : Prop :=
  ∀ stack before prior v,
    consoleConvertStringToUint64 stack before string (some prior) forceHex stopAtSpace =
      (EFI_SUCCESS, some v) →
    ∃ hex n, recognise string forceHex stopAtSpace = some hex ∧
      Denotes hex stopAtSpace (walker string) n ∧ n < 2 ^ 64 ∧
      v = if Negative (walker string) then (2 ^ 64 - n) % 2 ^ 64 else n

/-- **Conversions that succeed** give the number denoted, unless its digits are not read and are not
all zero. -/
theorem consoleConvertStringToUint64_exact_iff (string : Str) (forceHex stopAtSpace : Bool) :
    Exact string forceHex stopAtSpace ↔
      ∀ hex n, Accepted string forceHex stopAtSpace hex →
        Denotes hex stopAtSpace (walker string) n → Lost hex (walker string) → n = 0 := by
  constructor
  · intro h hex n hacc hn hlost
    have hresult := convertString_accepted 0 0 hacc hn
      (Option.some_ne_none 0)
    rw [if_pos hlost] at hresult
    obtain ⟨hex', m, hrec, hm, hlt, hv⟩ := h 0 0 0 0 hresult
    obtain rfl := Option.some.inj (hacc.string_eq.symm.trans hrec)
    rw [hn.unique hm]
    split_ifs at hv <;> omega
  · intro h stack before prior v hresult
    have herror : ∀ k, MAX_BIT + k ≠ EFI_SUCCESS := fun k =>
      efiError_ne_success (efiError_maxBit k)
    by_cases hacc : ∃ hex, Accepted string forceHex stopAtSpace hex
    · obtain ⟨hex, hacc⟩ := hacc
      obtain ⟨n, hn⟩ := hacc.denotes
      rw [convertString_accepted stack before hacc hn (Option.some_ne_none prior)] at hresult
      split_ifs at hresult with hlost hgap hlt
      · obtain rfl := h hex n hacc hn hlost
        obtain rfl := Option.some.inj (congrArg Prod.snd hresult)
        refine ⟨hex, 0, hacc.string_eq, hn, by norm_num, ?_⟩
        split_ifs <;> rfl
      · exact absurd (congrArg Prod.fst hresult) (herror 2)
      · obtain rfl := Option.some.inj (congrArg Prod.snd hresult)
        refine ⟨hex, n, hacc.string_eq, hn, hlt, ?_⟩
        rw [if_neg fun hneg => hlost (Or.inl hneg)]
      · exact absurd (congrArg Prod.fst hresult) (herror 7)
    · rw [convertString_rejected stack before (some prior) (not_exists.mp hacc)] at hresult
      exact absurd (congrArg Prod.fst hresult) (herror 2)

/-- `00x10`, a number to the recogniser. -/
def twoZeros : Str := [0x30, 0x30, 0x78, 0x31, 0x30]

/-- It is taken for 0, and for 16 once the radix is forced. -/
theorem consoleConvertStringToUint64_two_zeros :
    consoleConvertStringToUint64 7 0 twoZeros (some 5) false false = (EFI_SUCCESS, some 0) ∧
      consoleConvertStringToUint64 7 0 twoZeros (some 5) true false = (EFI_SUCCESS, some 16) ∧
      ¬ Exact twoZeros false false := by
  have hzero : consoleConvertStringToUint64 7 0 twoZeros (some 5) false false =
      (EFI_SUCCESS, some 0) := by decide
  refine ⟨hzero, by decide, fun h => ?_⟩
  obtain ⟨hex, n, hrec, hn, -, hv⟩ := h 7 0 5 0 hzero
  obtain rfl : false = hex := Option.some.inj ((show recognise twoZeros false false = some false by
    decide).symm.trans hrec)
  have hsixteen : Denotes false false (walker twoZeros) 16 :=
    ⟨[1, 0], by unfold Reads; decide, by decide⟩
  rw [if_neg (by decide)] at hv
  exact absurd (hn.unique hsixteen) (by omega)

/-! ### What is stored -/

/-- What is asked for of the output: it is left alone by an error, and does not depend on what the
stack held where the call succeeds. -/
def Sound (string : Str) (forceHex stopAtSpace : Bool) : Prop :=
  ∀ stack before value status content,
    consoleConvertStringToUint64 stack before string value forceHex stopAtSpace =
      (status, content) →
    (efiError status = true → content = value) ∧
    (efiError status = false → ∀ stack',
      consoleConvertStringToUint64 stack' before string value forceHex stopAtSpace =
        (status, content))

/-- The converter fails: on a number that is too large, or on a space behind the zeros. -/
def Fails (hex stopAtSpace : Bool) (s : Str) : Prop :=
  ¬ Lost hex s ∧ (Gap hex s ∨ ∃ n, 2 ^ 64 ≤ n ∧ Denotes hex stopAtSpace s n)

/-- **What is stored.** The output is left alone by every error, and depends on what was read only,
unless the converter itself fails on an accepted string. -/
theorem consoleConvertStringToUint64_sound_iff (string : Str) (forceHex stopAtSpace : Bool) :
    Sound string forceHex stopAtSpace ↔
      ∀ hex, Accepted string forceHex stopAtSpace hex →
        ¬ Fails hex stopAtSpace (walker string) := by
  constructor
  · rintro h hex hacc ⟨hlost, hfails⟩
    obtain ⟨n, hn⟩ := hacc.denotes
    have hresult := convertString_accepted 1 0 hacc hn
      (Option.some_ne_none 0)
    rw [if_neg hlost] at hresult
    have herror : ∃ k, consoleConvertStringToUint64 1 0 string (some 0) forceHex stopAtSpace =
        (MAX_BIT + k, some 1) := by
      by_cases hgap : Gap hex (walker string)
      · exact ⟨2, by rw [hresult, if_pos hgap]; rfl⟩
      · obtain ⟨m, hm, hdenotes⟩ := hfails.resolve_left hgap
        rw [hn.unique hdenotes, if_neg hgap, if_neg (by omega)] at hresult
        exact ⟨7, hresult⟩
    obtain ⟨k, hk⟩ := herror
    have hkept := (h 1 0 (some 0) _ _ hk).1 (efiError_maxBit k)
    exact absurd (Option.some.inj hkept) one_ne_zero
  · intro h stack before value status content hresult
    cases value with
    | none =>
      -- nothing is stored
      refine ⟨fun _ => ?_, fun _ stack' => hresult⟩
      refine (congrArg Prod.snd hresult).symm.trans ?_
      unfold consoleConvertStringToUint64
      cases recognise string forceHex stopAtSpace with
      | none => rfl
      | some hex =>
        dsimp only
        split_ifs <;> rfl
    | some prior =>
      by_cases hacc : ∃ hex, Accepted string forceHex stopAtSpace hex
      · obtain ⟨hex, hacc⟩ := hacc
        obtain ⟨n, hn⟩ := hacc.denotes
        have hany : ∀ stack', consoleConvertStringToUint64 stack' before string (some prior)
            forceHex stopAtSpace =
              (EFI_SUCCESS, some (if Lost hex (walker string) then 0 else n)) := by
          intro stack'
          rw [convertString_accepted stack' before hacc hn (Option.some_ne_none prior)]
          have hfine := h hex hacc
          split_ifs with hlost hgap hlt
          · rfl
          · exact absurd ⟨hlost, Or.inl hgap⟩ hfine
          · rfl
          · exact absurd ⟨hlost, Or.inr ⟨n, by omega, hn⟩⟩ hfine
        rw [hany stack] at hresult
        refine ⟨fun herror => ?_, fun _ stack' => (hany stack').trans hresult⟩
        rw [← show EFI_SUCCESS = status from congrArg Prod.fst hresult] at herror
        exact absurd herror not_efiError_success
      · have hrejected := convertString_rejected stack before (some prior) (not_exists.mp hacc)
        rw [hresult] at hrejected
        refine ⟨fun _ => congrArg Prod.snd hrejected, fun hsuccess => ?_⟩
        rw [show status = EFI_INVALID_PARAMETER from congrArg Prod.fst hrejected] at hsuccess
        exact absurd hsuccess (by decide)

/-- A number of 17 hexadecimal digits. -/
def tooLarge : Str := 0x30 :: 0x78 :: 0x31 :: List.replicate 16 0x30

/-- The call fails, and what the stack held is stored over the value of the caller. -/
theorem consoleConvertStringToUint64_too_large :
    consoleConvertStringToUint64 7 0 tooLarge (some 5) false false =
        (EFI_DEVICE_ERROR, some 7) ∧
      ¬ Sound tooLarge false false := by
  have hresult : consoleConvertStringToUint64 7 0 tooLarge (some 5) false false =
      (EFI_DEVICE_ERROR, some 7) := by decide
  refine ⟨hresult, fun h => ?_⟩
  exact absurd ((h 7 0 (some 5) _ _ hresult).1 (by decide)) (by decide)

end Call

end UefiToolkit.ConvertString
