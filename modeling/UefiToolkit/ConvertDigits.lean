import UefiToolkit.Numeral
import UefiToolkit.ConvertModel

/-!
The converters of the console on strings of digits.

Each keeps the number of the digits it has read, and stops with an error at the digit that would
take it beyond 64 bits.
-/

namespace UefiToolkit.ConvertDigits

open UefiToolkit.Word UefiToolkit.Numeral UefiToolkit.ArgsModel UefiToolkit.ParamModel
  UefiToolkit.ConvertModel

/-! ### Digits -/

/-- The digit a character stands for. -/
def digitOf (hex : Bool) (c : UInt16) : Option ℕ :=
  if hex then hexDigit c.toNat else decimalDigit c.toNat

def radixOf (hex : Bool) : ℕ := if hex then 16 else 10

lemma digitOf_lt {hex : Bool} {c : UInt16} {d : ℕ} (h : digitOf hex c = some d) :
    d < radixOf hex := by
  cases hex with
  | true => exact hexDigit_lt h
  | false => exact decimalDigit_lt h

lemma isDecimalDigit_iff (c : UInt16) :
    isDecimalDigitCharacter c = true ↔ 48 ≤ c.toNat ∧ c.toNat ≤ 57 := by
  unfold isDecimalDigitCharacter
  rw [Bool.and_eq_true, decide_eq_true_eq, decide_eq_true_eq, UInt16.le_iff_toNat_le,
    UInt16.le_iff_toNat_le]
  rfl

lemma isHexDigit_iff (c : UInt16) :
    isHexaDecimalDigitCharacter c = true ↔
      (48 ≤ c.toNat ∧ c.toNat ≤ 57) ∨ (65 ≤ c.toNat ∧ c.toNat ≤ 70) ∨
        (97 ≤ c.toNat ∧ c.toNat ≤ 102) := by
  unfold isHexaDecimalDigitCharacter
  simp only [Bool.or_eq_true, Bool.and_eq_true, decide_eq_true_eq, UInt16.le_iff_toNat_le,
    UInt16.reduceToNat, or_assoc]

/-- The test for a digit, and its value, in the words of the source. -/
def isDigit (hex : Bool) : UInt16 → Bool :=
  if hex then isHexaDecimalDigitCharacter else isDecimalDigitCharacter

def digitValue (hex : Bool) : UInt16 → ℕ :=
  if hex then internalConsoleHexCharToUintn else fun c => c.toNat - 0x30

lemma charToUpper_toNat (c : UInt16) :
    (internalConsoleCharToUpper c).toNat =
      if 97 ≤ c.toNat ∧ c.toNat ≤ 122 then c.toNat - 32 else c.toNat := by
  have hlt := c.toNat_lt
  unfold internalConsoleCharToUpper
  simp only [UInt16.le_iff_toNat_le, UInt16.reduceToNat]
  split_ifs
  · have hoffset : (0x20 : UInt16).toNat = 32 := rfl
    rw [UInt16.toNat_sub, hoffset]
    omega
  · rfl

lemma hexCharToUintn_eq {c : UInt16} (h : isHexaDecimalDigitCharacter c = true) :
    hexDigit c.toNat = some (internalConsoleHexCharToUintn c) := by
  have hlt := c.toNat_lt
  have hcases := (isHexDigit_iff c).mp h
  unfold hexDigit internalConsoleHexCharToUintn
  by_cases hdec : 48 ≤ c.toNat ∧ c.toNat ≤ 57
  · rw [if_pos hdec, if_pos ((isDecimalDigit_iff c).mpr hdec)]
  · rw [if_neg hdec, if_neg fun h' => hdec ((isDecimalDigit_iff c).mp h'), charToUpper_toNat]
    split_ifs <;>
    first
    | omega
    | (rw [sub64_of_le (by omega) (by omega), Option.some.injEq]; omega)

/-- The source's tests and values are those of the digits. -/
lemma digitOf_eq (hex : Bool) (c : UInt16) :
    digitOf hex c = if isDigit hex c then some (digitValue hex c) else none := by
  cases hex with
  | true =>
    show hexDigit c.toNat = if isHexaDecimalDigitCharacter c then
      some (internalConsoleHexCharToUintn c) else none
    split_ifs with h
    · exact hexCharToUintn_eq h
    · rw [isHexDigit_iff] at h
      unfold hexDigit
      split_ifs <;> first | rfl | omega
  | false =>
    show decimalDigit c.toNat = if isDecimalDigitCharacter c then some (c.toNat - 48) else none
    unfold decimalDigit
    simp only [isDecimalDigit_iff]

lemma isDigit_of_digitOf {hex : Bool} {c : UInt16} {d : ℕ} (h : digitOf hex c = some d) :
    isDigit hex c = true ∧ digitValue hex c = d := by
  rw [digitOf_eq] at h
  split_ifs at h with hc
  exact ⟨hc, Option.some.inj h⟩

lemma not_digit_space (hex : Bool) : isDigit hex CHAR_SPACE = false := by
  cases hex <;> rfl

/-! ### The loop -/

/-- What a converter makes of a number. -/
def answer (n : ℕ) : Status × Option ℕ :=
  if n < 2 ^ 64 then (EFI_SUCCESS, some n) else (EFI_DEVICE_ERROR, none)

section Loop

variable {hex stopAtSpace : Bool} {result : ℕ} {text rest : Str} {ds : List ℕ}

lemma digitLoop_stop (h : ∀ c, rest.head? = some c → isDigit hex c = false) :
    digitLoop (radixOf hex) (isDigit hex) (digitValue hex) stopAtSpace result rest =
      (EFI_SUCCESS, some result) := by
  cases rest with
  | nil => rfl
  | cons c rest => rw [digitLoop, h c rfl, if_neg Bool.false_ne_true]

/-- The check of the loop: there is room for one more digit. -/
lemma room_iff {c : UInt16} {d : ℕ} (hc : digitOf hex c = some d) :
    result ≤ sub64 UINT64_MAX d / radixOf hex ↔ result * radixOf hex + d < 2 ^ 64 := by
  have hd := digitOf_lt hc
  have hradix : 0 < radixOf hex ∧ radixOf hex ≤ 16 := by cases hex <;> decide
  rw [sub64_of_le (by decide) (by unfold UINT64_MAX; omega), le_quotient_iff hradix.1
    (by unfold UINT64_MAX; omega)]
  unfold UINT64_MAX
  omega

/-- The loop stops at a space in any case. -/
lemma digitLoop_digit {c : UInt16} {d : ℕ} (hc : digitOf hex c = some d)
    (hroom : result * radixOf hex + d < 2 ^ 64) :
    digitLoop (radixOf hex) (isDigit hex) (digitValue hex) stopAtSpace result (c :: text) =
      digitLoop (radixOf hex) (isDigit hex) (digitValue hex) stopAtSpace
        (result * radixOf hex + d) text := by
  obtain ⟨hdigit, hvalue⟩ := isDigit_of_digitOf hc
  have hcheck := (room_iff hc).mpr hroom
  have hstep : add64 (mul64 result (radixOf hex)) d = result * radixOf hex + d := by
    rw [mul64, u64_of_lt (by omega), add64, u64_of_lt hroom]
  rw [digitLoop, if_pos hdigit, hvalue, if_neg (not_not.mpr hcheck)]
  simp only [hstep]
  split_ifs with hstop
  · refine (digitLoop_stop fun c' hc' => ?_).symm
    rw [Option.some.inj (hc'.symm.trans hstop.2)]
    exact not_digit_space hex
  · rfl

lemma digitLoop_overflow {c : UInt16} {d : ℕ} (hc : digitOf hex c = some d)
    (hfull : 2 ^ 64 ≤ result * radixOf hex + d) :
    digitLoop (radixOf hex) (isDigit hex) (digitValue hex) stopAtSpace result (c :: text) =
      (EFI_DEVICE_ERROR, none) := by
  obtain ⟨hdigit, hvalue⟩ := isDigit_of_digitOf hc
  have hcheck : ¬ result ≤ sub64 UINT64_MAX d / radixOf hex := by
    rw [room_iff hc]
    omega
  rw [digitLoop, if_pos hdigit, hvalue, if_pos hcheck]

/-- **The loop** over digits, behind those of `done`: it gives their number, or finds that it is
too large. -/
theorem digitLoop_reads (done : List ℕ) (h : result = value (radixOf hex) done)
    (hlt : result < 2 ^ 64) (hds : Reads (digitOf hex) text ds)
    (hrest : ∀ c, rest.head? = some c → isDigit hex c = false) :
    digitLoop (radixOf hex) (isDigit hex) (digitValue hex) stopAtSpace result (text ++ rest) =
      answer (value (radixOf hex) (done ++ ds)) := by
  have hradix : 0 < radixOf hex := by cases hex <;> decide
  induction hds generalizing result done with
  | nil =>
    rw [List.nil_append, digitLoop_stop hrest, List.append_nil, ← h, answer, if_pos hlt]
  | @cons c d text ds hc _ ih =>
    have hsnoc : result * radixOf hex + d = value (radixOf hex) (done ++ [d]) := by
      rw [value_snoc, h]
    have hsplit : done ++ d :: ds = done ++ [d] ++ ds := by simp
    rw [List.cons_append, hsplit]
    rcases Nat.lt_or_ge (result * radixOf hex + d) (2 ^ 64) with hroom | hfull
    · rw [digitLoop_digit hc hroom]
      exact ih _ hsnoc hroom
    · have hlarge := value_le_append hradix (done ++ [d]) ds
      rw [digitLoop_overflow hc hfull, answer, if_neg (by omega)]

end Loop

/-! ### The converters -/

section Convert

variable {hex : Bool} {str : Str} {ds : List ℕ}

/-- Zeros are digits, and do not count. -/
lemma reads_zeros (h : Reads (digitOf hex) str ds) :
    ∃ es, Reads (digitOf hex) (str.dropWhile (· = CHAR_ZERO)) es ∧
      value (radixOf hex) es = value (radixOf hex) ds := by
  induction h with
  | nil => exact ⟨[], List.Forall₂.nil, rfl⟩
  | @cons c d str ds hc hds ih =>
    by_cases h0 : c = CHAR_ZERO
    · obtain ⟨es, hes, hvalue⟩ := ih
      have hd : d = 0 := by
        rw [h0] at hc
        cases hex <;> exact (Option.some.inj hc).symm
      refine ⟨es, by rwa [List.dropWhile_cons_of_pos (by simpa using h0)], ?_⟩
      rw [hvalue, hd]
      exact (value_zeros 1 ds).symm
    · refine ⟨d :: ds, ?_, rfl⟩
      rw [List.dropWhile_cons_of_neg (by simpa using h0)]
      exact List.Forall₂.cons hc hds

/-- A digit is not what a pad or a prefix begins with. -/
lemma digit_ne {c : UInt16} {d : ℕ} (h : digitOf hex c = some d) :
    c ≠ CHAR_SPACE ∧ c ≠ CHAR_TAB ∧ internalConsoleCharToUpper c ≠ CHAR_X := by
  obtain ⟨hdigit, -⟩ := isDigit_of_digitOf h
  have hhex : isHexaDecimalDigitCharacter c = true := by
    cases hex with
    | true => exact hdigit
    | false => exact (isHexDigit_iff c).mpr (Or.inl ((isDecimalDigit_iff c).mp hdigit))
  rw [isHexDigit_iff] at hhex
  refine ⟨?_, ?_, fun hx => ?_⟩
  · rintro rfl
    exact absurd hhex (by decide)
  · rintro rfl
    exact absurd hhex (by decide)
  · have hnat := congrArg UInt16.toNat hx
    rw [charToUpper_toNat] at hnat
    have hcode : CHAR_X.toNat = 88 := rfl
    split_ifs at hnat <;> omega

/-- Digits, and what follows them, are not padded. -/
lemma skipPadAndZeros_eq {c : UInt16} (h : c ≠ CHAR_SPACE ∧ c ≠ CHAR_TAB) (rest : Str) :
    skipPadAndZeros (c :: rest) = (c :: rest).dropWhile (· = CHAR_ZERO) := by
  rw [skipPadAndZeros, List.dropWhile_cons_of_neg (by simpa using h)]

/-- Where zeros stood, the character before is one. -/
lemma charBefore_zero (before : UInt16) (h : str.head? = some CHAR_ZERO) :
    charBefore before str (str.dropWhile (· = CHAR_ZERO)) = CHAR_ZERO := by
  obtain ⟨zeros, hzeros⟩ : ∃ zeros, zeros = str.takeWhile (· = CHAR_ZERO) := ⟨_, rfl⟩
  have hstr : zeros ++ str.dropWhile (· = CHAR_ZERO) = str := by
    rw [hzeros, List.takeWhile_append_dropWhile]
  have hne : zeros ≠ [] := by
    cases str with
    | nil => exact absurd h nofun
    | cons c str =>
      rw [hzeros, List.takeWhile_cons_of_pos (by simpa using h)]
      nofun
  have hall : ∀ c ∈ zeros, c = CHAR_ZERO := by
    intro c hc
    rw [hzeros] at hc
    simpa using List.mem_takeWhile_imp hc
  have hlen : str.length - (str.dropWhile (· = CHAR_ZERO)).length = zeros.length := by
    have := congrArg List.length hstr
    rw [List.length_append] at this
    omega
  obtain ⟨init, last, rfl⟩ := List.eq_nil_or_concat zeros |>.resolve_left hne
  have hlast : last = CHAR_ZERO := hall last (by simp)
  rw [charBefore, hlen, ← hstr, List.concat_eq_append, List.length_append, List.length_singleton,
    List.getD_cons_succ, List.append_assoc]
  simp [hlast]

/-- Behind the `x`, if there is one. -/
def afterX (string : Str) : Str := if isX string then string.tail else string

/-- The hexadecimal converter on a string that is not padded and has an `x` behind zeros only. -/
lemma strHexToUint64_eq (before : UInt16) (stopAtSpace : Bool)
    (hpad : skipPadAndZeros str = str.dropWhile (· = CHAR_ZERO))
    (hx : isX (str.dropWhile (· = CHAR_ZERO)) = true → str.head? = some CHAR_ZERO) :
    internalConsoleStrHexToUint64 before str stopAtSpace =
      if (afterX (str.dropWhile (· = CHAR_ZERO))).head? = some CHAR_SPACE then
        (EFI_INVALID_PARAMETER, none)
      else digitLoop (radixOf true) (isDigit true) (digitValue true) stopAtSpace 0
        (afterX (str.dropWhile (· = CHAR_ZERO))) := by
  unfold internalConsoleStrHexToUint64
  dsimp only
  rw [hpad, if_neg fun h => h.2 (charBefore_zero before (hx h.1))]
  rfl

lemma digitLoop_answer (rest : Str) (stopAtSpace : Bool) (h : Reads (digitOf hex) str ds)
    (hrest : ∀ c, rest.head? = some c → isDigit hex c = false) :
    digitLoop (radixOf hex) (isDigit hex) (digitValue hex) stopAtSpace 0 (str ++ rest) =
      answer (value (radixOf hex) ds) :=
  digitLoop_reads [] rfl (by norm_num) h hrest

lemma head_reads (h : Reads (digitOf hex) str ds) :
    str.head? ≠ some CHAR_SPACE ∧ isX str = false := by
  cases h with
  | nil => exact ⟨nofun, rfl⟩
  | cons hc =>
    obtain ⟨hspace, -, hx⟩ := digit_ne hc
    exact ⟨fun h' => hspace (Option.some.inj h'),
      decide_eq_false fun h' => hx (Option.some.inj h')⟩

lemma reads_skip (h : Reads (digitOf hex) str ds) :
    skipPadAndZeros str = str.dropWhile (· = CHAR_ZERO) := by
  cases h with
  | nil => rfl
  | cons hc => exact skipPadAndZeros_eq ⟨(digit_ne hc).1, (digit_ne hc).2.1⟩ _

lemma strDecimalToUint64_reads (stopAtSpace : Bool) (h : Reads (digitOf false) str ds) :
    internalConsoleStrDecimalToUint64 str stopAtSpace = answer (value 10 ds) := by
  obtain ⟨es, hes, hvalue⟩ := reads_zeros h
  have hloop := digitLoop_answer [] stopAtSpace hes nofun
  rw [List.append_nil, hvalue] at hloop
  rw [internalConsoleStrDecimalToUint64, reads_skip h]
  simp only [(head_reads hes).1, and_false, if_false]
  exact hloop

lemma strHexToUint64_reads (before : UInt16) (stopAtSpace : Bool)
    (h : Reads (digitOf true) str ds) :
    internalConsoleStrHexToUint64 before str stopAtSpace = answer (value 16 ds) := by
  obtain ⟨es, hes, hvalue⟩ := reads_zeros h
  have hloop := digitLoop_answer [] stopAtSpace hes nofun
  rw [List.append_nil, hvalue] at hloop
  obtain ⟨hspace, hx⟩ := head_reads hes
  have hafter : afterX (str.dropWhile (· = CHAR_ZERO)) = str.dropWhile (· = CHAR_ZERO) := by
    rw [afterX, hx, if_neg Bool.false_ne_true]
  rw [strHexToUint64_eq before stopAtSpace (reads_skip h)
    (fun h' => absurd (hx.symm.trans h') nofun), hafter, if_neg hspace]
  exact hloop

lemma strHexToUint64_marked (before : UInt16) (stopAtSpace : Bool) {x : UInt16}
    (hx : internalConsoleCharToUpper x = CHAR_X) (h : Reads (digitOf true) str ds) :
    internalConsoleStrHexToUint64 before (CHAR_ZERO :: x :: str) stopAtSpace =
      answer (value 16 ds) := by
  have hne : x ≠ CHAR_ZERO := by
    rintro rfl
    exact absurd hx (by decide)
  have hdrop : (CHAR_ZERO :: x :: str).dropWhile (· = CHAR_ZERO) = x :: str := by
    rw [List.dropWhile_cons_of_pos (by simp), List.dropWhile_cons_of_neg (by simpa using hne)]
  have hafter : afterX (x :: str) = str := if_pos (decide_eq_true (congrArg some hx))
  have hloop := digitLoop_answer [] stopAtSpace h nofun
  rw [List.append_nil] at hloop
  rw [strHexToUint64_eq before stopAtSpace (skipPadAndZeros_eq (by decide) _) fun _ => rfl, hdrop,
    hafter, if_neg (head_reads h).1]
  exact hloop

/-- **The converters** on strings of digits of any length: the number, if it is one of 64 bits, and
`EFI_DEVICE_ERROR` otherwise. -/
theorem internalConsoleStrToUint64_exact (stopAtSpace : Bool) :
    (∀ str ds, str ≠ [] → Reads (fun c : UInt16 => decimalDigit c.toNat) str ds →
      internalConsoleStrDecimalToUint64 str stopAtSpace =
        if 2 ^ 64 ≤ value 10 ds then (EFI_DEVICE_ERROR, none)
        else (EFI_SUCCESS, some (value 10 ds))) ∧
    ∀ before pre str ds, pre = [] ∨ pre = PREFIX_X_LOWER ∨ pre = PREFIX_X_UPPER → str ≠ [] →
      Reads (fun c : UInt16 => hexDigit c.toNat) str ds →
      internalConsoleStrHexToUint64 before (pre ++ str) stopAtSpace =
        if 2 ^ 64 ≤ value 16 ds then (EFI_DEVICE_ERROR, none)
        else (EFI_SUCCESS, some (value 16 ds)) := by
  have hanswer : ∀ n, answer n =
      if 2 ^ 64 ≤ n then (EFI_DEVICE_ERROR, none) else (EFI_SUCCESS, some n) := by
    intro n
    unfold answer
    split_ifs <;> first | rfl | omega
  constructor
  · intro str ds _ h
    rw [← hanswer]
    exact strDecimalToUint64_reads stopAtSpace h
  · intro before pre str ds hpre _ h
    rw [← hanswer]
    rcases hpre with rfl | rfl | rfl
    · exact strHexToUint64_reads before stopAtSpace h
    · exact strHexToUint64_marked before stopAtSpace (by decide) h
    · exact strHexToUint64_marked before stopAtSpace (by decide) h

/-- A number of two digits, and the first that is too large. -/
theorem internalConsoleStrToUint64_exact_edge :
    internalConsoleStrDecimalToUint64 [0x39, 0x37] true = (EFI_SUCCESS, some 97) ∧
      internalConsoleStrHexToUint64 0 (PREFIX_X_LOWER ++ 0x31 :: List.replicate 16 0x30) false =
        (EFI_DEVICE_ERROR, none) := by
  obtain ⟨hdecimal, -⟩ := internalConsoleStrToUint64_exact true
  obtain ⟨-, hhex⟩ := internalConsoleStrToUint64_exact false
  have hread := hdecimal [0x39, 0x37] [9, 7] nofun (by unfold Reads; decide)
  have hlarge := hhex 0 PREFIX_X_LOWER (0x31 :: List.replicate 16 0x30) (1 :: List.replicate 16 0)
    (Or.inr (Or.inl rfl)) nofun (by unfold Reads; decide)
  exact ⟨hread, hlarge⟩

end Convert

end UefiToolkit.ConvertDigits
