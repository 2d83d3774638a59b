import UefiToolkit.Word

/-!
Splitting a command line into arguments, as `ConsoleParameters` does it.

A string is the list of its characters before the terminator. A pointer into the command line
is the string from there on; the parameter under work is edited in place, so its buffer is a list
of cells and a pointer into it is an index.
-/

namespace UefiToolkit.ArgsModel

open UefiToolkit.Word

abbrev Str := List UInt16

def CHAR_NULL : UInt16 := 0
def CHAR_TAB : UInt16 := 0x09
def CHAR_SPACE : UInt16 := 0x20
def CHAR_QUOTE : UInt16 := 0x22
def CHAR_ESCAPE : UInt16 := 0x5E

/-! ### Strings -/

def isBlank (c : UInt16) : Bool := c = CHAR_SPACE || c = CHAR_TAB

def trimSpaces (s : Str) : Str := (s.dropWhile isBlank).rdropWhile isBlank

/-- The offset of the first character of the list, or of the end. -/
def findFirstCharacter (characterList : Str) (escapeCharacter : UInt16) : Str → ℕ
  | [] => 0
  | c :: s =>
    if c = escapeCharacter then
      -- the character behind it is passed over too, unless the string ends here
      match s with
      | [] => 1
      | _ :: s => findFirstCharacter characterList escapeCharacter s + 2
    else if c ∈ characterList then 0
    else findFirstCharacter characterList escapeCharacter s + 1

/-- The offset of the end of the parameter; none if a quote is not closed. -/
def findEndOfParameter (s : Str) : Option ℕ :=
  let first := findFirstCharacter [CHAR_SPACE, CHAR_QUOTE] CHAR_ESCAPE s
  match _ : s.drop first with
  | [] => some first
  | c :: t =>
    if c = CHAR_SPACE then some first
    else
      let closeQuote := findFirstCharacter [CHAR_QUOTE] CHAR_ESCAPE t
      match _ : t.drop closeQuote with
      | [] => none
      | _ :: u => (findEndOfParameter u).map (· + (first + 1 + closeQuote + 1))
termination_by s.length
decreasing_by
  rename_i h₁ _ _ h₂
  have h₁ := congrArg List.length h₁
  have h₂ := congrArg List.length h₂
  simp only [List.length_drop, List.length_cons] at h₁ h₂
  omega

/-! ### The parameter buffer -/

def isChar (c : UInt16) : Bool := c ≠ CHAR_NULL

/-- The string that begins at cell `p`. -/
def strAt (cells : List UInt16) (p : ℕ) : Str := (cells.drop p).takeWhile isChar

/-- `CopyMem` from cell `src` to cell `dst`, for `n` cells. -/
def copyCells (cells : List UInt16) (dst src n : ℕ) : List UInt16 :=
  cells.take dst ++ (cells.drop src).take n ++ cells.drop (dst + n)

/-- `StrnCpyS`; `limit` is the longest string the safe string functions take. -/
def strnCpyS (limit : ℕ) (cells : List UInt16) (source : Str) (n : ℕ) : List UInt16 :=
  if limit < cells.length ∨ limit < n then cells
  else if cells.length ≤ (source.take n).length then cells
  else source.take n ++ [CHAR_NULL] ++ cells.drop ((source.take n).length + 1)

/-- The character at `p` is dropped. -/
def dropCell (cells : List UInt16) (p : ℕ) : List UInt16 :=
  copyCells cells p (p + 1) ((strAt cells (p + 1)).length + 1)

lemma takeWhile_drop {α : Type*} (q : α → Bool) {l : List α} {k : ℕ}
    (h : k ≤ (l.takeWhile q).length) : (l.drop k).takeWhile q = (l.takeWhile q).drop k := by
  induction k generalizing l with
  | zero => rfl
  | succ k ih =>
    cases l with
    | nil => rfl
    | cons c l =>
      by_cases hc : q c = true
      · rw [List.takeWhile_cons_of_pos hc] at h ⊢
        exact ih (by simpa using h)
      · rw [List.takeWhile_cons_of_neg hc] at h
        simp at h

lemma strAt_add (cells : List UInt16) {p k : ℕ} (h : k ≤ (strAt cells p).length) :
    strAt cells (p + k) = (strAt cells p).drop k := by
  unfold strAt
  rw [← List.drop_drop, takeWhile_drop _ h]

section FindFirst

variable {characterList : Str} {escape c d : UInt16} {s : Str}

lemma findFirstCharacter_escape :
    findFirstCharacter characterList escape (escape :: d :: s) =
      findFirstCharacter characterList escape s + 2 := by
  simp [findFirstCharacter]

lemma findFirstCharacter_last : findFirstCharacter characterList escape [escape] = 1 := by
  simp [findFirstCharacter]

lemma findFirstCharacter_found (he : c ≠ escape) (hc : c ∈ characterList) :
    findFirstCharacter characterList escape (c :: s) = 0 := by
  cases s <;> simp [findFirstCharacter, he, hc]

lemma findFirstCharacter_next (he : c ≠ escape) (hc : c ∉ characterList) :
    findFirstCharacter characterList escape (c :: s) =
      findFirstCharacter characterList escape s + 1 := by
  cases s <;> simp [findFirstCharacter, he, hc]

lemma findFirstCharacter_pos (hc : c ∉ characterList) :
    0 < findFirstCharacter characterList escape (c :: s) := by
  by_cases he : c = escape
  · subst he
    cases s with
    | nil => rw [findFirstCharacter_last]; omega
    | cons d s => rw [findFirstCharacter_escape]; omega
  · rw [findFirstCharacter_next he hc]
    omega

end FindFirst

lemma findFirstCharacter_le (characterList : Str) (escapeCharacter : UInt16) (s : Str) :
    findFirstCharacter characterList escapeCharacter s ≤ s.length := by
  fun_induction findFirstCharacter with
  | case1 => exact le_rfl
  | case2 => exact le_rfl
  | case3 d s ih => simp only [List.length_cons]; omega
  | case4 => exact Nat.zero_le _
  | case5 c s hc hl ih => simp only [List.length_cons]; omega

/-- Dropping a character leaves the rest of its string, and no second string behind it. -/
lemma strAt_dropCell {cells : List UInt16} {p : ℕ} {c : UInt16} {r : Str}
    (h : strAt cells p = c :: r) :
    strAt (dropCell cells p) p = r ∧ strAt (dropCell cells p) (p + 1) = r.tail := by
  have hr : strAt cells (p + 1) = r := by
    rw [strAt_add cells (by rw [h]; simp), h]
    rfl
  have hp : (cells.take p).length = p := by
    rw [List.length_take, min_eq_left]
    by_contra hlt
    rw [strAt, List.drop_eq_nil_of_le (by omega)] at h
    cases h
  have hgood : ∀ x ∈ r, isChar x = true := by
    intro x hx
    rw [← hr, strAt] at hx
    exact List.mem_takeWhile_imp hx
  -- what stands behind the string: nothing, or its terminator
  obtain ⟨tail, hD, htail⟩ : ∃ tail, cells.drop (p + 1) = r ++ tail ∧
      (tail = [] ∨ ∃ t, tail = CHAR_NULL :: t) := by
    refine ⟨(cells.drop (p + 1)).dropWhile isChar, ?_, ?_⟩
    · rw [← hr, strAt, List.takeWhile_append_dropWhile]
    · cases hd : (cells.drop (p + 1)).dropWhile isChar with
      | nil => exact Or.inl rfl
      | cons x t =>
        have hx := List.head_dropWhile_not isChar
          (l := cells.drop (p + 1)) (by rw [hd]; simp)
        simp only [hd, List.head_cons] at hx
        exact Or.inr ⟨t, by simpa [isChar] using hx⟩
  have hcells : dropCell cells p = cells.take p ++ (r ++ (tail.take 1 ++ tail)) := by
    unfold dropCell copyCells
    have hrest : cells.drop (p + (r.length + 1)) = tail := by
      rw [show p + (r.length + 1) = p + 1 + r.length by omega, ← List.drop_drop, hD,
        List.drop_left' rfl]
    rw [hr, hrest, hD, List.take_length_add_append]
    simp only [List.append_assoc]
  have hat : (dropCell cells p).drop p = r ++ (tail.take 1 ++ tail) := by
    rw [hcells, List.drop_left' hp]
  refine ⟨?_, ?_⟩
  · rw [strAt, hat, List.takeWhile_append_of_pos hgood]
    rcases htail with rfl | ⟨t, rfl⟩ <;> simp [isChar]
  · rw [strAt, ← List.drop_drop, hat]
    cases r with
    | nil => rcases htail with rfl | ⟨t, rfl⟩ <;> simp [isChar]
    | cons x r =>
      have hgood' : ∀ y ∈ r, isChar y = true := fun y hy =>
        hgood y (List.mem_cons_of_mem x hy)
      change List.takeWhile _ (r ++ _) = r
      rw [List.takeWhile_append_of_pos hgood']
      rcases htail with rfl | ⟨t, rfl⟩ <;> simp [isChar]

/-- What follows the character that was found is shorter than the string. -/
lemma length_of_found {cells : List UInt16} {p : ℕ} {characterList r : Str} {escape c : UInt16}
    (h : strAt cells (p + findFirstCharacter characterList escape (strAt cells p)) = c :: r) :
    r.length < (strAt cells p).length := by
  rw [strAt_add cells (findFirstCharacter_le _ _ _)] at h
  have hlen := congrArg List.length h
  rw [List.length_drop, List.length_cons] at hlen
  omega

/-- The quotes are stripped and the escape characters removed, from `nextDelim` on. -/
def removeLoop (stripQuotation : Bool) (cells : List UInt16) (nextDelim : ℕ) : List UInt16 :=
  let delim := nextDelim +
    findFirstCharacter [CHAR_QUOTE, CHAR_ESCAPE] CHAR_NULL (strAt cells nextDelim)
  match _ : strAt cells delim with
  | [] => cells
  | c :: _ =>
    if c = CHAR_ESCAPE then removeLoop stripQuotation (dropCell cells delim) (delim + 1)
    else if stripQuotation then removeLoop stripQuotation (dropCell cells delim) delim
    else removeLoop stripQuotation cells (delim + 1)
termination_by (strAt cells nextDelim).length
decreasing_by
  all_goals
    rename_i r hd _
    have hshort : r.length < (strAt cells nextDelim).length := length_of_found hd
  · refine lt_of_le_of_lt (le_of_eq (congrArg List.length (strAt_dropCell hd).2)) ?_
    rw [List.length_tail]
    omega
  · exact lt_of_le_of_lt (le_of_eq (congrArg List.length (strAt_dropCell hd).1)) hshort
  · refine lt_of_le_of_lt (le_of_eq (congrArg List.length (strAt_add cells (k := 1) ?_))) ?_
    · rw [hd, List.length_cons]
      omega
    · rw [hd]
      exact hshort

/-! ### Parameters -/

/-- `debugCode` says whether the code between `DEBUG_CODE_BEGIN` and `DEBUG_CODE_END` is there.
The parameter is the string at the start of the returned cells. -/
def getNextParameter (debugCode : Bool) (limit : ℕ) (walker : Str) (tempParameter : List UInt16)
    (stripQuotation : Bool) : Status × Option Str × List UInt16 :=
  let walker := walker.dropWhile (· = CHAR_SPACE)
  if walker.length = 0 then
    (EFI_INVALID_PARAMETER, if debugCode then none else some walker, tempParameter)
  else
    match findEndOfParameter walker with
    | none => (EFI_NOT_FOUND, if debugCode then none else some walker, tempParameter)
    | some nextDelim =>
      let cells := strnCpyS limit tempParameter walker nextDelim
      let cells := if walker.drop nextDelim ≠ [] then cells.set nextDelim CHAR_NULL else cells
      (EFI_SUCCESS, some (walker.drop nextDelim), removeLoop stripQuotation cells 0)

/-- A parameter that does not begin with a space takes at least one character. -/
lemma findEndOfParameter_pos {c : UInt16} {s : Str} {n : ℕ} (hc : c ≠ CHAR_SPACE)
    (h : findEndOfParameter (c :: s) = some n) : 0 < n := by
  by_cases hq : c = CHAR_QUOTE
  · have hfirst : findFirstCharacter [CHAR_SPACE, CHAR_QUOTE] CHAR_ESCAPE (c :: s) = 0 := by
      rw [hq, findFirstCharacter_found (by decide) (by simp)]
    rw [findEndOfParameter, hfirst, List.drop_zero] at h
    simp only [if_neg hc] at h
    split at h
    · cases h
    · rw [Option.map_eq_some_iff] at h
      obtain ⟨k, -, rfl⟩ := h
      omega
  · have hfirst : 0 < findFirstCharacter [CHAR_SPACE, CHAR_QUOTE] CHAR_ESCAPE (c :: s) :=
      findFirstCharacter_pos (by simp [hc, hq])
    rw [findEndOfParameter] at h
    dsimp only at h
    split at h
    · injection h with h
      omega
    · split_ifs at h
      · injection h with h
        omega
      · split at h
        · cases h
        · rw [Option.map_eq_some_iff] at h
          obtain ⟨k, -, rfl⟩ := h
          omega

/-- What a call can do: no parameter is left, a quote is not closed, or the parameter is taken. -/
lemma getNextParameter_cases (debugCode : Bool) (limit : ℕ) (walker : Str)
    (cells : List UInt16) (stripQuotation : Bool) :
    (efiError (getNextParameter debugCode limit walker cells stripQuotation).1 = true ∧
      walker.dropWhile (· = CHAR_SPACE) = []) ∨
    (efiError (getNextParameter debugCode limit walker cells stripQuotation).1 = true ∧
      walker.dropWhile (· = CHAR_SPACE) ≠ [] ∧
      findEndOfParameter (walker.dropWhile (· = CHAR_SPACE)) = none) ∨
    ∃ n, findEndOfParameter (walker.dropWhile (· = CHAR_SPACE)) = some n ∧ 0 < n ∧
      walker.dropWhile (· = CHAR_SPACE) ≠ [] ∧
      (getNextParameter debugCode limit walker cells stripQuotation).1 = EFI_SUCCESS ∧
      (getNextParameter debugCode limit walker cells stripQuotation).2.1 =
        some ((walker.dropWhile (· = CHAR_SPACE)).drop n) := by
  have hinv : efiError EFI_INVALID_PARAMETER = true := efiError_maxBit 2
  have hnf : efiError EFI_NOT_FOUND = true := efiError_maxBit 14
  unfold getNextParameter
  cases hw : walker.dropWhile (· = CHAR_SPACE) with
  | nil => exact Or.inl ⟨hinv, rfl⟩
  | cons c s =>
    have hc : c ≠ CHAR_SPACE := by
      have hhead := List.head_dropWhile_not (fun x : UInt16 => decide (x = CHAR_SPACE))
        (l := walker) (by rw [hw]; simp)
      simpa [hw] using hhead
    refine Or.inr ?_
    dsimp only
    rw [if_neg (by simp)]
    cases hend : findEndOfParameter (c :: s) with
    | none => exact Or.inl ⟨hnf, by simp, rfl⟩
    | some n => exact Or.inr ⟨n, rfl, findEndOfParameter_pos hc hend, by simp, rfl, rfl⟩

/-- The walker gets shorter with each parameter. -/
lemma getNextParameter_shorter {debugCode : Bool} {limit : ℕ} {walker : Str}
    {cells : List UInt16} {stripQuotation : Bool}
    (h : ¬ efiError (getNextParameter debugCode limit walker cells stripQuotation).1 = true) :
    ∃ rest, (getNextParameter debugCode limit walker cells stripQuotation).2.1 = some rest ∧
      rest.length < walker.length := by
  have hle : (walker.dropWhile (· = CHAR_SPACE)).length ≤ walker.length :=
    (List.dropWhile_suffix _).length_le
  rcases getNextParameter_cases debugCode limit walker cells stripQuotation with
    ⟨herr, -⟩ | ⟨herr, -⟩ | ⟨n, -, hpos, hne, -, hrest⟩
  · exact absurd herr h
  · exact absurd herr h
  · refine ⟨_, hrest, ?_⟩
    have := List.length_pos_of_ne_nil hne
    rw [List.length_drop]
    omega

/-- What is left to walk over. -/
def left : Option Str → ℕ
  | none => 0
  | some s => s.length

/-- The counting pass: how many parameters there are before the end or an error. -/
def countLoop (debugCode : Bool) (limit : ℕ) (walker : Option Str) (cells : List UInt16)
    (count : ℕ) : ℕ × List UInt16 :=
  match walker with
  | none => (count, cells)
  | some s =>
    if s = [] then (count, cells)
    else
      let r := getNextParameter debugCode limit s cells true
      if efiError r.1 then (count, r.2.2)
      else countLoop debugCode limit r.2.1 r.2.2 (count + 1)
termination_by left walker
decreasing_by
  obtain ⟨rest, hrest, hlt⟩ := getNextParameter_shorter ‹_›
  rw [hrest]
  exact hlt

/-- The result of parsing a command line. -/
structure Args where
  status : Status
  argc : ℕ
  /-- The entries of the array allocated for `Argv`. -/
  count : ℕ
  /-- The stores into the array. -/
  stores : List (ℕ × Str)

/-- The filling pass, which clears the parameter buffer of `size` cells each time; `alloc` says
which of its allocations succeed. -/
def fillLoop (debugCode : Bool) (limit : ℕ) (alloc : ℕ → Bool) (stripQuotation : Bool) (size : ℕ)
    (walker : Option Str) (args : Args) : Args :=
  match walker with
  | none => args
  | some s =>
    if s = [] then args
    else
      let r := getNextParameter debugCode limit s (List.replicate size CHAR_NULL) stripQuotation
      if efiError r.1 then { args with status := EFI_INVALID_PARAMETER }
      else if !alloc args.argc then { args with status := EFI_OUT_OF_RESOURCES }
      else
        fillLoop debugCode limit alloc stripQuotation size r.2.1
          { args with argc := args.argc + 1
                      stores := args.stores ++ [(args.argc, strAt r.2.2 0)] }
termination_by left walker
decreasing_by
  obtain ⟨rest, hrest, hlt⟩ := getNextParameter_shorter ‹_›
  rw [hrest]
  exact hlt

/-- `alloc n` says whether the `n`-th allocation succeeds; `argc` is what `*Argc` held before. -/
def parseCommandLineToArgs (debugCode : Bool) (limit : ℕ) (alloc : ℕ → Bool)
    (commandLine : Option Str) (stripQuotation : Bool) (argc : ℕ) : Args :=
  match commandLine with
  | none => ⟨EFI_SUCCESS, 0, 0, []⟩
  | some line =>
    if line.length = 0 then ⟨EFI_SUCCESS, 0, 0, []⟩
    else if !alloc 0 then ⟨EFI_OUT_OF_RESOURCES, argc, 0, []⟩
    else
      let newCommandLine := trimSpaces line
      if !alloc 1 then ⟨EFI_OUT_OF_RESOURCES, argc, 0, []⟩
      else
        let size := newCommandLine.length + 1
        let (count, _) := countLoop debugCode limit (some newCommandLine)
          (List.replicate size CHAR_NULL) 0
        if !alloc 2 then ⟨EFI_OUT_OF_RESOURCES, argc, 0, []⟩
        else
          fillLoop debugCode limit (fun n => alloc (n + 3)) stripQuotation size
            (some newCommandLine) ⟨EFI_SUCCESS, 0, count, []⟩

end UefiToolkit.ArgsModel
