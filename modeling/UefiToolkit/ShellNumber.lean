import UefiToolkit.Numeral
import UefiToolkit.ShellSession

/-!
The numbers of the debug shell.

The parser keeps the last 64 bits of a number with any number of digits, and looks at the digits
only. A token that is too large passes for one that is not.
-/

namespace UefiToolkit.ShellNumber

open UefiToolkit.Numeral UefiToolkit.ShellModel UefiToolkit.ShellSession

/-! ### Texts of numbers -/

def digitOf (c : UInt8) : Option ℕ := hexDigit c.toNat

/-- The string is a number `n` in hexadecimal digits, behind an optional `0x` or `0X`. -/
def Denotes (str : List UInt8) (n : ℕ) : Prop :=
  ∃ pre text ds, str = pre ++ text ∧ (pre = [] ∨ pre = ascii "0x" ∨ pre = ascii "0X") ∧
    text ≠ [] ∧ Reads digitOf text ds ∧ value 16 ds = n

variable {str : List UInt8} {ds : List ℕ} {n : ℕ}

/-- Behind a `0` that is a digit there is no `x`. -/
lemma skipPrefix_reads (h : Reads digitOf str ds) : skipPrefix str = str := by
  match str with
  | [] => rfl
  | [c] => rfl
  | c :: d :: str =>
    obtain ⟨k, ks, -, hks, rfl⟩ := List.forall₂_cons_left_iff.mp h
    obtain ⟨l, ls, hd, -, rfl⟩ := List.forall₂_cons_left_iff.mp hks
    refine if_neg fun hx => ?_
    have hnone : digitOf d = none := by rcases hx.2 with rfl | rfl <;> rfl
    exact absurd (hd.symm.trans hnone) (Option.some_ne_none l)

lemma skipPrefix_cases (str : List UInt8) :
    ∃ pre, str = pre ++ skipPrefix str ∧ (pre = [] ∨ pre = ascii "0x" ∨ pre = ascii "0X") := by
  unfold skipPrefix
  split
  · split_ifs with hx
    · obtain ⟨rfl, rfl | rfl⟩ := hx
      · exact ⟨ascii "0x", rfl, Or.inr (Or.inl rfl)⟩
      · exact ⟨ascii "0X", rfl, Or.inr (Or.inr rfl)⟩
    · exact ⟨[], rfl, Or.inl rfl⟩
  · exact ⟨[], rfl, Or.inl rfl⟩

lemma denotes_iff : Denotes str n ↔
    skipPrefix str ≠ [] ∧ ∃ ds, Reads digitOf (skipPrefix str) ds ∧ value 16 ds = n := by
  constructor
  · rintro ⟨pre, text, ds, rfl, hpre, hne, hds, hn⟩
    have hskip : skipPrefix (pre ++ text) = text := by
      rcases hpre with rfl | rfl | rfl
      · exact skipPrefix_reads hds
      · rfl
      · rfl
    rw [hskip]
    exact ⟨hne, ds, hds, hn⟩
  · rintro ⟨hne, ds, hds, hn⟩
    obtain ⟨pre, hstr, hpre⟩ := skipPrefix_cases str
    exact ⟨pre, skipPrefix str, ds, hstr, hpre, hne, hds, hn⟩

lemma Denotes.unique {m : ℕ} (h : Denotes str n) (h' : Denotes str m) : n = m := by
  obtain ⟨-, ds, hds, rfl⟩ := denotes_iff.mp h
  obtain ⟨-, es, hes, rfl⟩ := denotes_iff.mp h'
  rw [hds.unique hes]

/-! ### The parser -/

lemma nibbleOf_toNat (c : UInt8) : (nibbleOf c).map UInt64.toNat = digitOf c := by
  have hlt := c.toNat_lt
  unfold nibbleOf digitOf hexDigit
  simp only [UInt8.le_iff_toNat_le, UInt8.reduceToNat]
  split_ifs
  · simp only [Option.map_some, UInt8.toNat_toUInt64, UInt8.toNat_sub, UInt8.reduceToNat,
      Option.some.injEq]
    omega
  · simp only [Option.map_some, UInt8.toNat_toUInt64, UInt8.toNat_add, UInt8.toNat_sub,
      UInt8.reduceToNat, Option.some.injEq]
    omega
  · simp only [Option.map_some, UInt8.toNat_toUInt64, UInt8.toNat_add, UInt8.toNat_sub,
      UInt8.reduceToNat, Option.some.injEq]
    omega
  · rfl

/-- The step keeps the last 64 bits. -/
lemma shift_toNat {result nibble : UInt64} {ds : List ℕ}
    (h : result.toNat = value 16 ds % 2 ^ 64) (hlt : nibble.toNat < 16) :
    (result <<< 4 ||| nibble).toNat = value 16 (ds ++ [nibble.toNat]) % 2 ^ 64 := by
  have hshift : (result <<< 4).toNat = (result.toNat % 2 ^ 60) <<< 4 := by
    rw [UInt64.toNat_shiftLeft, Nat.shiftLeft_eq, Nat.shiftLeft_eq]
    have h4 : (4 : UInt64).toNat % 64 = 4 := rfl
    rw [h4]
    omega
  rw [UInt64.toNat_or, hshift, ← Nat.shiftLeft_add_eq_or_of_lt (show nibble.toNat < 2 ^ 4 from hlt),
    Nat.shiftLeft_eq, ← value_snoc_mod h]
  omega

/-- A run over digits, behind those of `done`. -/
lemma parseDigits_reads (result : UInt64) (done : List ℕ)
    (h : result.toNat = value 16 done % 2 ^ 64) (hds : Reads digitOf str ds) :
    ∃ v, parseDigits result str = some v ∧ v.toNat = value 16 (done ++ ds) % 2 ^ 64 := by
  induction hds generalizing result done with
  | nil => exact ⟨result, rfl, by rw [List.append_nil, h]⟩
  | @cons c d str ds hc _ ih =>
    obtain ⟨nibble, hnibble, hd⟩ := Option.map_eq_some_iff.mp ((nibbleOf_toNat c).trans hc)
    obtain ⟨v, hv, hvalue⟩ := ih _ _ (shift_toNat h (hd ▸ hexDigit_lt hc))
    refine ⟨v, ?_, ?_⟩
    · rw [parseDigits, hnibble]
      exact hv
    · rw [hvalue, hd, List.append_assoc, List.singleton_append]

lemma reads_of_parseDigits {result v : UInt64} (h : parseDigits result str = some v) :
    ∃ ds, Reads digitOf str ds := by
  induction str generalizing result with
  | nil => exact ⟨[], List.Forall₂.nil⟩
  | cons c str ih =>
    rw [parseDigits] at h
    cases hc : nibbleOf c with
    | none =>
      rw [hc] at h
      cases h
    | some nibble =>
      rw [hc] at h
      obtain ⟨ds, hds⟩ := ih h
      refine ⟨nibble.toNat :: ds, List.Forall₂.cons ?_ hds⟩
      rw [← nibbleOf_toNat, hc]
      rfl

/-- What is parsed is the number up to a multiple of `2 ^ 64`. -/
lemma shellParseHex64_eq_some_iff {v : UInt64} :
    shellParseHex64 str = some v ↔ ∃ n, Denotes str n ∧ v.toNat = n % 2 ^ 64 := by
  unfold shellParseHex64
  constructor
  · intro h
    split_ifs at h with hne
    obtain ⟨ds, hds⟩ := reads_of_parseDigits h
    obtain ⟨w, hw, hvalue⟩ := parseDigits_reads 0 [] rfl hds
    obtain rfl := Option.some.inj (hw.symm.trans h)
    exact ⟨value 16 ds, denotes_iff.mpr ⟨hne, ds, hds, rfl⟩, hvalue⟩
  · rintro ⟨n, hn, hv⟩
    obtain ⟨hne, ds, hds, rfl⟩ := denotes_iff.mp hn
    obtain ⟨w, hw, hvalue⟩ := parseDigits_reads 0 [] rfl hds
    rw [if_neg hne, hw, UInt64.toNat_inj.mp (hvalue.trans hv.symm)]

/-! ### The commands -/

section Commands

variable {msr : List Event → UInt32 → UInt64} {argv : List ℕ} {s : Shell}

lemma parseIndex_eq_none (h : ∀ v, shellParseHex64 str = some v → 0xFFFFFFFF < v.toNat) :
    parseIndex str = none := by
  unfold parseIndex
  rw [Option.filter_eq_none_iff]
  intro v hv hle
  have hlt := h v hv
  have hnat : v.toNat ≤ 0xFFFFFFFF := UInt64.le_iff_toNat_le.mp (of_decide_eq_true hle)
  omega

lemma cmdReadMsr_rejects (h : parseIndex (arg argv s.cmdBuf 1) = none) :
    accesses (cmdReadMsr msr argv s) = accesses s := by
  unfold cmdReadMsr
  split_ifs
  · exact accesses_shellPrint _ s
  · rw [h]
    exact accesses_printQuoted _ _ s

lemma cmdWriteMsr_rejects
    (h : parseIndex (arg argv s.cmdBuf 1) = none ∨ shellParseHex64 (arg argv s.cmdBuf 2) = none) :
    accesses (cmdWriteMsr argv s) = accesses s := by
  unfold cmdWriteMsr
  split_ifs
  · exact accesses_shellPrint _ s
  · cases hindex : parseIndex (arg argv s.cmdBuf 1) with
    | none => exact accesses_printQuoted _ _ s
    | some index =>
      rw [h.resolve_left fun hnone => Option.some_ne_none index (hindex.symm.trans hnone)]
      exact accesses_printQuoted _ _ s

end Commands

/-- What is asked for of a token: it is a number exactly if it is the text of one of 64 bits, and
no register is accessed with an index of more than 32 bits or a value of more than 64. -/
structure Exact (str : List UInt8) : Prop where
  accepts : (shellParseHex64 str).isSome = true ↔ ∃ n < 2 ^ 64, Denotes str n
  number : ∀ v, shellParseHex64 str = some v → Denotes str v.toNat
  readIndex : ∀ n, Denotes str n → 0xFFFFFFFF < n → ∀ msr argv (s : Shell),
    arg argv s.cmdBuf 1 = str → accesses (cmdReadMsr msr argv s) = accesses s
  writeIndex : ∀ n, Denotes str n → 0xFFFFFFFF < n → ∀ argv (s : Shell),
    arg argv s.cmdBuf 1 = str → accesses (cmdWriteMsr argv s) = accesses s
  writeValue : ∀ n, Denotes str n → 2 ^ 64 - 1 < n → ∀ argv (s : Shell),
    arg argv s.cmdBuf 2 = str → accesses (cmdWriteMsr argv s) = accesses s

lemma Exact.lt (h : Exact str) (hn : Denotes str n) : n < 2 ^ 64 := by
  have hparsed : shellParseHex64 str = some (UInt64.ofNat n) :=
    shellParseHex64_eq_some_iff.mpr ⟨n, hn, UInt64.toNat_ofNat'⟩
  obtain ⟨m, hm, hstr⟩ := h.accepts.mp (by rw [hparsed]; rfl)
  exact hn.unique hstr ▸ hm

/-- **Tokens that are numbers.** The parser and the commands take a token for what it is exactly if
it is not the text of a number of more than 64 bits. -/
theorem shellParseHex64_exact_iff (str : List UInt8) :
    Exact str ↔ ∀ n, Denotes str n → n < 2 ^ 64 := by
  constructor
  · exact fun h n hn => h.lt hn
  · intro h
    have hnumber : ∀ v, shellParseHex64 str = some v → Denotes str v.toNat := by
      intro v hv
      obtain ⟨n, hn, hvalue⟩ := shellParseHex64_eq_some_iff.mp hv
      rw [hvalue, Nat.mod_eq_of_lt (h n hn)]
      exact hn
    have hindex : ∀ n, Denotes str n → 0xFFFFFFFF < n → parseIndex str = none := by
      intro n hn hlarge
      refine parseIndex_eq_none fun v hv => ?_
      rw [(hnumber v hv).unique hn]
      exact hlarge
    refine ⟨⟨fun hsome => ?_, ?_⟩, hnumber, ?_, ?_, ?_⟩
    · obtain ⟨v, hv⟩ := Option.isSome_iff_exists.mp hsome
      exact ⟨v.toNat, v.toNat_lt, hnumber v hv⟩
    · rintro ⟨n, hlt, hn⟩
      rw [shellParseHex64_eq_some_iff.mpr ⟨n, hn, UInt64.toNat_ofNat'⟩]
      rfl
    · exact fun n hn hlarge msr argv s harg => cmdReadMsr_rejects (harg ▸ hindex n hn hlarge)
    · exact fun n hn hlarge argv s harg => cmdWriteMsr_rejects (Or.inl (harg ▸ hindex n hn hlarge))
    · intro n hn hlarge
      have hlt := h n hn
      omega

/-- A number of 17 digits. -/
def seventeenDigits : List UInt8 := ascii "10000000000000010"

/-- It is taken for the index of register 16. -/
theorem shellParseHex64_seventeen_digits :
    parseIndex seventeenDigits = some 16 ∧ Denotes seventeenDigits (2 ^ 64 + 16) ∧
      ¬ Exact seventeenDigits := by
  have hdenotes : Denotes seventeenDigits (2 ^ 64 + 16) :=
    denotes_iff.mpr ⟨by decide, [1, 0, 0, 0, 0, 0, 0, 0, 0, 0, 0, 0, 0, 0, 0, 1, 0],
      by unfold Reads; decide, by decide⟩
  refine ⟨by decide, hdenotes, fun h => ?_⟩
  exact absurd (h.lt hdenotes) (by decide)

end UefiToolkit.ShellNumber
