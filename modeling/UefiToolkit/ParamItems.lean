import UefiToolkit.ParamModel

/-!
A reading of the arguments of a command: which of them are flags, which are values of the flag in
front and which are positional parameters, and the package they make.
-/

namespace UefiToolkit.ParamItems

open UefiToolkit.ArgsModel UefiToolkit.ParamModel

/-! ### What an argument is -/

/-- The argument begins with `-`, `/` or `+`. -/
def isSwitch (argument : Str) : Prop :=
  argument.head? = some CHAR_SLASH ∨ argument.head? = some CHAR_MINUS ∨
    argument.head? = some CHAR_PLUS

instance (argument : Str) : Decidable (isSwitch argument) := by
  unfold isSwitch
  infer_instance

section CheckList

variable (stringNoCaseCompare : Str → Str → ℤ)

/-- The name is that of the item, or begins with it for `TypeStart`, up to case. -/
def fits (name : Str) (item : ParamItem) : Bool :=
  if item.type = .start then
    name.take item.name.length = item.name ∨
      stringNoCaseCompare (name.take item.name.length) item.name = 0
  else stringNoCaseCompare name item.name = 0

/-- The type under which a name is on the check list. -/
def onCheckList (checkList : List ParamItem) (name : Str) : Option ParamType :=
  if name = QUESTION_MARK ∨ name = PAGE_BREAK then some .flag
  else (checkList.find? (fits stringNoCaseCompare name)).map ParamItem.type

end CheckList

/-- How many values a flag takes. -/
def wantedValues : ParamType → ℕ
  | .value | .timeValue => 1
  | .doubleValue => 2
  | .maxValue => UINTN_MAX
  | .flag | .position | .start => 0

/-- What becomes of the arguments. -/
inductive Item
  | flag (name : Str) (type : ParamType) (parts : List Str)
  | positional (argument : Str)

def Item.arguments : Item → List Str
  | .flag name _ parts => name :: parts
  | .positional argument => [argument]

/-- The values for the flag in front, which wants some more, and the items behind it. -/
def itemsFrom (entry : Str → Option ParamType) : List Str → ℕ → List Str × List Item
  | [], _ => ([], [])
  | a :: args, wanted =>
    match entry a with
    | some type =>
      let r := itemsFrom entry args (wantedValues type)
      ([], .flag a type r.1 :: r.2)
    | none =>
      if wanted = 0 then ([], .positional a :: (itemsFrom entry args 0).2)
      else
        let r := itemsFrom entry args (wanted - 1)
        (a :: r.1, r.2)

def items (entry : Str → Option ParamType) (args : List Str) : List Item :=
  (itemsFrom entry args 0).2

/-- The parts of a value, with spaces between them. -/
def joined (parts : List Str) : Option Str :=
  if parts = [] then none else some (List.intercalate [CHAR_SPACE] parts)

def flagPackage (name : Str) (type : ParamType) (parts : List Str) : ParamPackage :=
  ⟨some name, type, joined parts, UINTN_MAX⟩

def positionalPackage (argument : Str) (position : ℕ) : ParamPackage :=
  ⟨none, .position, some (stripEscape argument), position⟩

/-- The items as packages; the positional parameters are numbered from `n` on. -/
def packages (n : ℕ) : List Item → List ParamPackage
  | [] => []
  | .flag name type parts :: items => flagPackage name type parts :: packages n items
  | .positional argument :: items => positionalPackage argument n :: packages (n + 1) items

def Item.positional? : Item → Option Str
  | .flag _ _ _ => none
  | .positional argument => some argument

/-- The positional parameters. -/
def positionals (items : List Item) : List Str := items.filterMap Item.positional?

/-- The characters that the buffer of a joined value has room for. -/
def joinedSize (parts : List Str) : ℕ := (parts.map fun part => part.length + 2).sum

/-- The room that an item needs. -/
def Item.room : Item → ℕ
  | .flag _ _ parts => joinedSize parts
  | .positional _ => 0

/-! ### The reading -/

variable {entry : Str → Option ParamType} {args : List Str} {wanted : ℕ}

lemma itemsFrom_some {a : Str} {type : ParamType} (h : entry a = some type) :
    itemsFrom entry (a :: args) wanted =
      ([], .flag a type (itemsFrom entry args (wantedValues type)).1 ::
        (itemsFrom entry args (wantedValues type)).2) := by
  rw [itemsFrom, h]

lemma itemsFrom_none {a : Str} (h : entry a = none) : itemsFrom entry (a :: args) wanted =
    if wanted = 0 then ([], .positional a :: (itemsFrom entry args 0).2)
    else (a :: (itemsFrom entry args (wanted - 1)).1, (itemsFrom entry args (wanted - 1)).2) := by
  rw [itemsFrom, h]

/-- What holds of the values for the flag in front and of the items behind it. -/
structure Reading (entry : Str → Option ParamType) (args : List Str) (wanted : ℕ)
    (r : List Str × List Item) : Prop where
  arguments : r.1 ++ r.2.flatMap Item.arguments = args
  length : r.1.length ≤ wanted
  parts : ∀ p ∈ r.1, entry p = none
  flag : ∀ name type parts, Item.flag name type parts ∈ r.2 →
    entry name = some type ∧ parts.length ≤ wantedValues type ∧ ∀ p ∈ parts, entry p = none
  positional : ∀ a, Item.positional a ∈ r.2 → entry a = none

lemma itemsFrom_reading (entry : Str → Option ParamType) (args : List Str) (wanted : ℕ) :
    Reading entry args wanted (itemsFrom entry args wanted) := by
  induction args generalizing wanted with
  | nil => exact ⟨rfl, Nat.zero_le _, by simp [itemsFrom], by simp [itemsFrom], by simp [itemsFrom]⟩
  | cons a args ih =>
    cases h : entry a with
    | some type =>
      obtain ⟨hargs, hlen, hparts, hflag, hpos⟩ := ih (wantedValues type)
      rw [itemsFrom_some h]
      refine ⟨?_, Nat.zero_le _, by simp, fun name type' parts hmem => ?_, fun b hmem => ?_⟩
      · simp only [List.nil_append, List.flatMap_cons, Item.arguments, List.cons_append, hargs]
      · rcases List.mem_cons.mp hmem with heq | hmem
        · injection heq with hname htype hparts'
          subst hname htype hparts'
          exact ⟨h, hlen, hparts⟩
        · exact hflag name type' parts hmem
      · rcases List.mem_cons.mp hmem with heq | hmem
        · cases heq
        · exact hpos b hmem
    | none =>
      rw [itemsFrom_none h]
      split_ifs with hw
      · obtain ⟨hargs, hlen, -, hflag, hpos⟩ := ih 0
        rw [List.length_eq_zero_iff.mp (Nat.le_zero.mp hlen), List.nil_append] at hargs
        refine ⟨?_, Nat.zero_le _, by simp, fun name type parts hmem => ?_, fun b hmem => ?_⟩
        · simp only [List.nil_append, List.flatMap_cons, Item.arguments, List.cons_append, hargs]
        · rcases List.mem_cons.mp hmem with heq | hmem
          · cases heq
          · exact hflag name type parts hmem
        · rcases List.mem_cons.mp hmem with heq | hmem
          · injection heq with hb
            rw [hb]
            exact h
          · exact hpos b hmem
      · obtain ⟨hargs, hlen, hparts, hflag, hpos⟩ := ih (wanted - 1)
        refine ⟨?_, ?_, fun p hp => ?_, hflag, hpos⟩
        · rw [List.cons_append, hargs]
        · rw [List.length_cons]
          omega
        · rcases List.mem_cons.mp hp with rfl | hp
          · exact h
          · exact hparts p hp

/-! ### The values -/

lemma joinedSize_snoc (parts : List Str) (a : Str) :
    joinedSize (parts ++ [a]) = joinedSize parts + (a.length + 2) := by
  simp [joinedSize]

lemma joinedSize_append (parts more : List Str) :
    joinedSize (parts ++ more) = joinedSize parts + joinedSize more := by
  simp [joinedSize]

lemma intercalate_snoc {parts : List Str} (h : parts ≠ []) (a : Str) :
    List.intercalate [CHAR_SPACE] (parts ++ [a]) =
      List.intercalate [CHAR_SPACE] parts ++ [CHAR_SPACE] ++ a := by
  induction parts with
  | nil => exact absurd rfl h
  | cons p parts ih =>
    cases parts with
    | nil => simp [List.intercalate_cons_cons]
    | cons q parts =>
      have h' := ih (by simp)
      rw [List.cons_append] at h'
      rw [List.cons_append, List.cons_append, List.intercalate_cons_cons, h',
        List.intercalate_cons_cons]
      simp only [List.append_assoc]

/-- There is room for one more space and a terminator. -/
lemma intercalate_length {parts : List Str} (h : parts ≠ []) :
    (List.intercalate [CHAR_SPACE] parts).length + 2 ≤ joinedSize parts := by
  induction parts with
  | nil => exact absurd rfl h
  | cons p parts ih =>
    cases parts with
    | nil => simp [joinedSize]
    | cons q parts =>
      have h' := ih (by simp)
      have hsize : joinedSize (p :: q :: parts) = p.length + 2 + joinedSize (q :: parts) := by
        simp [joinedSize]
      rw [List.intercalate_cons_cons, hsize, List.length_append, List.length_append,
        List.length_singleton]
      omega

/-! ### Reading the package -/

lemma mem_packages {node : ParamPackage} {l : List Item} {n : ℕ} (h : node ∈ packages n l)
    (hpos : node.originalPosition < UINTN_MAX) : n ≤ node.originalPosition ∧
      ∃ a, (positionals l)[node.originalPosition - n]? = some a ∧
        node.value = some (stripEscape a) := by
  induction l generalizing n with
  | nil => cases h
  | cons item l ih =>
    cases item with
    | flag name type parts =>
      rcases List.mem_cons.mp h with rfl | h
      · exact absurd hpos (lt_irrefl _)
      · exact ih h
    | positional a =>
      rcases List.mem_cons.mp h with rfl | h
      · exact ⟨le_rfl, a, by simp [positionalPackage, positionals, Item.positional?], rfl⟩
      · obtain ⟨hle, b, hb, hvalue⟩ := ih h
        refine ⟨by omega, b, ?_, hvalue⟩
        rw [show node.originalPosition - n = node.originalPosition - (n + 1) + 1 by omega]
        exact hb

lemma packages_mem {l : List Item} {n k : ℕ} {a : Str} (h : (positionals l)[k]? = some a) :
    positionalPackage a (n + k) ∈ packages n l := by
  induction l generalizing n k with
  | nil => cases h
  | cons item l ih =>
    cases item with
    | flag name type parts => exact List.mem_cons_of_mem _ (ih h)
    | positional b =>
      cases k with
      | zero =>
        obtain rfl : b = a := by simpa [positionals, Item.positional?] using h
        exact List.mem_cons_self
      | succ k =>
        refine List.mem_cons_of_mem _ ?_
        rw [show n + (k + 1) = n + 1 + k by omega]
        exact ih h

/-- The value at a position is that of the positional parameter with this number. -/
lemma rawValue_packages (l : List Item) {i : ℕ} (hi : i < UINTN_MAX) :
    commandLineGetRawValue (some (packages 0 l).reverse) i =
      (positionals l)[i]?.map stripEscape := by
  have hfind : commandLineGetRawValue (some (packages 0 l).reverse) i =
      ((packages 0 l).reverse.find? fun node => decide (node.originalPosition = i)).bind
        ParamPackage.value := rfl
  rw [hfind]
  cases hnode : (packages 0 l).reverse.find? fun node => decide (node.originalPosition = i) with
  | none =>
    cases ha : (positionals l)[i]? with
    | none => rfl
    | some a =>
      have hmem := List.mem_reverse.mpr (packages_mem (n := 0) ha)
      have hne := List.find?_eq_none.mp hnode _ hmem
      simp [positionalPackage] at hne
  | some node =>
    have hmem := List.mem_reverse.mp (List.mem_of_find?_eq_some hnode)
    have hpos : node.originalPosition = i := by simpa using List.find?_some hnode
    obtain ⟨-, a, ha, hvalue⟩ := mem_packages hmem (hpos ▸ hi)
    rw [hpos, Nat.sub_zero] at ha
    rw [ha]
    exact hvalue

lemma count_packages (l : List Item) (n : ℕ) :
    (packages n l).countP (fun node => node.name.isNone) = (positionals l).length := by
  induction l generalizing n with
  | nil => rfl
  | cons item l ih =>
    cases item with
    | flag name type parts =>
      rw [packages, List.countP_cons_of_neg (by simp [flagPackage])]
      exact ih n
    | positional a =>
      rw [packages, List.countP_cons_of_pos rfl, ih]
      rfl

lemma positions_packages (l : List Item) (n : ℕ) :
    ((packages n l).filter fun node => node.name.isNone).map ParamPackage.originalPosition =
      List.range' n (positionals l).length := by
  induction l generalizing n with
  | nil => rfl
  | cons item l ih =>
    cases item with
    | flag name type parts =>
      rw [packages, List.filter_cons_of_neg (by simp [flagPackage])]
      exact ih n
    | positional a =>
      rw [packages, List.filter_cons_of_pos rfl, List.map_cons, ih]
      rfl

end UefiToolkit.ParamItems
