import UefiToolkit.ParamItems

/-!
Parsing the arguments of a command keeps every one of them once: as the name of a flag, as part
of its value, or as a positional parameter.

The loop is followed through the reading of the whole line, with the flag that waits for values in
front.
-/

namespace UefiToolkit.ParamParse

open UefiToolkit.Word UefiToolkit.ArgsModel UefiToolkit.ConsoleString UefiToolkit.ParamModel
open UefiToolkit.ParamItems

/-! ### One argument -/

section Loop

variable {ε : Type} {limit : ℕ} {compare : Str → Str → ℤ} {allocate : ε → ℕ → Bool × ε}
  {checkList : List ParamItem} {problemParam : Bool} {a : Str} {s : Parser ε}

/-- Every allocation is made. -/
def Allocates (allocate : ε → ℕ → Bool × ε) : Prop := ∀ env n, (allocate env n).1 = true

lemma Allocates.eq (h : Allocates allocate) (env : ε) (n : ℕ) :
    ∃ env', allocate env n = (true, env') := ⟨_, Prod.ext (h env n) rfl⟩

lemma copyString_eq (h : Allocates allocate) (string : Str) (env : ε) :
    ∃ env', copyString allocate string env = (some string, env') := by
  obtain ⟨env', henv⟩ := h.eq env (strSize string)
  exact ⟨env', by rw [copyString, henv]; rfl⟩

lemma findItem_eq (h : Allocates allocate) (name : Str) {checkList : List ParamItem}
    (hnames : ∀ item ∈ checkList, item.name.length < limit) (env : ε) :
    (findItem limit compare allocate name checkList env).1 =
      (checkList.find? (fits compare name)).map ParamItem.type := by
  induction checkList generalizing env with
  | nil => rfl
  | cons item checkList ih =>
    have hrest (env : ε) := ih (fun x hx => hnames x (List.mem_cons_of_mem item hx)) env
    rw [findItem, List.find?_cons]
    by_cases hstart : item.type = .start
    · rw [if_pos hstart]
      by_cases hbegin : name.take item.name.length = item.name
      · have hcmp : strnCmp name item.name item.name.length = true := by
          simp [strnCmp, hbegin]
        have hfits : fits compare name item = true := by simp [fits, hstart, hbegin]
        rw [if_pos hcmp, hfits]
        rfl
      · have hcmp : ¬ strnCmp name item.name item.name.length = true := by
          simpa [strnCmp] using hbegin
        have hlen : item.name.length ≠ 0 := by
          intro h0
          rw [h0] at hbegin
          exact hbegin (by rw [List.length_eq_zero_iff.mp h0]; rfl)
        rw [if_neg hcmp]
        dsimp only
        rw [strnCatGrow_new h, if_neg hlen, if_pos (hnames item List.mem_cons_self),
          Option.map_some]
        have hfits : fits compare name item =
            decide (compare (name.take item.name.length) item.name = 0) := by
          simp [fits, hstart, hbegin]
        rw [hfits]
        by_cases hz : compare (name.take item.name.length) item.name = 0
        · rw [if_pos (by rw [hz]), decide_eq_true hz]
          rfl
        · rw [if_neg (by simpa using hz), decide_eq_false hz, hrest]
    · rw [if_neg hstart]
      by_cases hz : compare name item.name = 0
      · have hfits : fits compare name item = true := by simp [fits, hstart, hz]
        rw [if_pos hz, hfits]
        rfl
      · have hfits : fits compare name item = false := by simp [fits, hstart, hz]
        rw [if_neg hz, hfits, hrest]

lemma internalIsOnCheckList_eq (h : Allocates allocate) (name : Str)
    (hnames : ∀ item ∈ checkList, item.name.length < limit) (env : ε) :
    (internalIsOnCheckList limit compare allocate name checkList env).1 =
      onCheckList compare checkList name := by
  unfold internalIsOnCheckList onCheckList
  split_ifs
  · rfl
  · exact findItem_eq h name hnames env

/-- Without numbers, the first character decides. -/
lemma internalIsFlag_eq (name : Str) (timeNumbers : Bool) :
    internalIsFlag name false timeNumbers = decide (isSwitch name) := by
  unfold internalIsFlag isSwitch
  rw [if_neg (by simp)]

/-- A flag is inserted, or begins to wait for its values. -/
lemma takeFlag_eq (h : Allocates allocate) (a : Str) (type : ParamType) (s : Parser ε) :
    ∃ env, takeFlag allocate a type s = .ok
      (if wantedValues type = 0 then
        insertPackage (flagPackage a type []) { insertLeftover s with env := env }
      else wantValues (flagPackage a type []) (wantedValues type)
        { insertLeftover s with env := env }) := by
  obtain ⟨env₁, h₁⟩ := h.eq (insertLeftover s).env packageSize
  obtain ⟨env₂, h₂⟩ := copyString_eq h a env₁
  refine ⟨env₂, ?_⟩
  unfold takeFlag
  simp only [h₁, h₂]
  cases type <;> rfl

lemma takePositional_eq (h : Allocates allocate) (a : Str) (s : Parser ε) :
    ∃ env, takePositional allocate a s = .ok (insertPackage (positionalPackage a s.count)
      { s with count := s.count + 1, env := env }) := by
  obtain ⟨env₁, h₁⟩ := h.eq s.env packageSize
  obtain ⟨env₂, h₂⟩ := copyString_eq h (stripEscape a) env₁
  refine ⟨env₂, ?_⟩
  unfold takePositional
  simp only [h₁, h₂]
  rfl

/-- The flag under work, with the values it has so far. -/
structure Waits (s : Parser ε) (name : Str) (type : ParamType) (parts : List Str) : Prop where
  package : s.currentItemPackage = some (flagPackage name type parts)
  size : s.valueSize = 2 * joinedSize parts

/-- The flag under work is the first node, or not inserted yet. -/
structure Front (s : Parser ε) (package : ParamPackage) (nodes : List ParamPackage) : Prop where
  inserted : s.getItemValue = 0 → s.checkPackage = package :: nodes
  waiting : s.getItemValue ≠ 0 → s.checkPackage = nodes

/-- The value grows by one part. -/
lemma takeValue_eq (h : Allocates allocate) (s : Parser ε) (name : Str) (type : ParamType)
    {parts : List Str} (hsize : s.valueSize = 2 * joinedSize parts)
    (hlimit : joinedSize (parts ++ [a]) ≤ limit) :
    ∃ s', takeValue limit allocate a (flagPackage name type parts) s = .ok s' ∧
      s'.getItemValue = s.getItemValue - 1 ∧ s'.count = s.count ∧
      Waits s' name type (parts ++ [a]) ∧
      Front s' (flagPackage name type (parts ++ [a])) s.checkPackage := by
  have hsnoc := joinedSize_snoc parts a
  have hhalf : (s.valueSize + strSize a + 2) / 2 = joinedSize (parts ++ [a]) := by
    rw [strSize, hsize]
    omega
  obtain ⟨env, henv⟩ := h.eq s.env (s.valueSize + strSize a + 2)
  have hvalue : (if s.valueSize = 0 then
      strCpyS limit ((joined parts).getD []) (joinedSize (parts ++ [a])) a
      else strCatS limit (strCatS limit ((joined parts).getD []) (joinedSize (parts ++ [a]))
        [CHAR_SPACE]) (joinedSize (parts ++ [a])) a) =
      List.intercalate [CHAR_SPACE] (parts ++ [a]) := by
    by_cases hparts : parts = []
    · subst hparts
      have hzero : s.valueSize = 0 := by rw [hsize]; rfl
      rw [if_pos hzero, strCpyS, if_neg (by rw [hsnoc] at hlimit ⊢; omega)]
      simp
    · have hlen := intercalate_length hparts
      have hzero : ¬ s.valueSize = 0 := by omega
      have hspace : strCatS limit (List.intercalate [CHAR_SPACE] parts)
          (joinedSize (parts ++ [a])) [CHAR_SPACE] =
          List.intercalate [CHAR_SPACE] parts ++ [CHAR_SPACE] := by
        rw [strCatS, if_neg]
        rw [List.length_singleton]
        omega
      rw [if_neg hzero, joined, if_neg hparts, Option.getD_some, hspace, strCatS, if_neg,
        intercalate_snoc hparts]
      rw [List.length_append, List.length_singleton]
      omega
  have hne : parts ++ [a] ≠ [] := by simp
  have hpackage : ({ flagPackage name type parts with
      value := some (List.intercalate [CHAR_SPACE] (parts ++ [a])) } : ParamPackage) =
      flagPackage name type (parts ++ [a]) := by
    rw [flagPackage, flagPackage, joined, joined, if_neg hne]
  have hgrown : s.valueSize + (strSize a + 2) = 2 * joinedSize (parts ++ [a]) := by
    rw [strSize, hsize]
    omega
  have hvalue' : ((flagPackage name type parts).value.getD []) = (joined parts).getD [] := rfl
  unfold takeValue
  simp only [henv, hhalf, hvalue', hvalue, hpackage, hgrown, Bool.not_true, Bool.false_eq_true,
    if_false]
  by_cases hlast : s.getItemValue - 1 = 0
  · rw [if_pos hlast]
    exact ⟨_, rfl, rfl, rfl, ⟨rfl, rfl⟩, fun _ => rfl, fun hw => absurd hlast hw⟩
  · rw [if_neg hlast]
    exact ⟨_, rfl, rfl, rfl, ⟨rfl, rfl⟩, fun hw => absurd hw hlast, fun _ => rfl⟩

lemma takeValue_ok (h : Allocates allocate) (a : Str) (package : ParamPackage) (s : Parser ε) :
    ∃ s', takeValue limit allocate a package s = .ok s' := by
  obtain ⟨env, henv⟩ := h.eq s.env (s.valueSize + strSize a + 2)
  unfold takeValue
  simp only [henv]
  exact ⟨_, rfl⟩

lemma insertLeftover_env (s : Parser ε) (env : ε) :
    insertLeftover { s with env := env } = { insertLeftover s with env := env } := by
  unfold insertLeftover
  split_ifs <;> rfl

/-- The package with the flag under work put in front, if that still waits for values. -/
def closeWith (s : Parser ε) (package : ParamPackage) : List ParamPackage :=
  (if s.getItemValue = 0 then [] else [package]) ++ s.checkPackage

lemma Waits.insertLeftover {name : Str} {type : ParamType} {parts : List Str}
    (h : s.getItemValue ≠ 0 → Waits s name type parts) :
    (insertLeftover s).checkPackage = closeWith s (flagPackage name type parts) := by
  unfold ParamModel.insertLeftover closeWith
  by_cases hw : s.getItemValue = 0
  · rw [if_neg (not_not.mpr hw), if_pos hw]
    rfl
  · rw [if_pos hw, if_neg hw, (h hw).package]
    rfl

lemma Front.closeWith {package package' : ParamPackage} {nodes : List ParamPackage}
    (h : Front s package nodes) (hsame : s.getItemValue = 0 → package' = package) :
    closeWith s package' = package' :: nodes := by
  unfold ParamParse.closeWith
  by_cases hw : s.getItemValue = 0
  · rw [if_pos hw, h.inserted hw, hsame hw]
    rfl
  · rw [if_neg hw, h.waiting hw]
    rfl

/-- The arguments one after the other. -/
def run (limit : ℕ) (compare : Str → Str → ℤ) (allocate : ε → ℕ → Bool × ε)
    (checkList : List ParamItem) (problemParam : Bool) (args : List Str) (s : Parser ε) :
    Except (Result ε) (Parser ε) :=
  (args.map some).foldlM (fun s argument =>
    parseArgument limit compare allocate checkList problemParam false argument s) s

lemma run_cons_ok {args : List Str} {s' : Parser ε}
    (hstep : parseArgument limit compare allocate checkList problemParam false (some a) s =
      .ok s') : run limit compare allocate checkList problemParam (a :: args) s =
      run limit compare allocate checkList problemParam args s' := by
  unfold run
  rw [List.map_cons, List.foldlM_cons, hstep]
  rfl

lemma run_cons_error {args : List Str} {r : Result ε}
    (hstep : parseArgument limit compare allocate checkList problemParam false (some a) s =
      .error r) : run limit compare allocate checkList problemParam (a :: args) s = .error r := by
  unfold run
  rw [List.map_cons, List.foldlM_cons, hstep]
  rfl

/-- With an argument and the list head allocated, the loop decides. -/
lemma internalCommandLineParse_run (h : Allocates allocate) (limit : ℕ)
    (compare : Str → Str → ℤ) (checkList : List ParamItem) (problemParam : Bool)
    {args : List Str} (hargc : args ≠ []) (env : ε) : ∃ env',
    (∀ s', run limit compare allocate checkList problemParam args ⟨[], none, 0, 0, 0, env'⟩ =
        .ok s' →
      internalCommandLineParse limit compare allocate checkList problemParam false
        (args.map some) env = ⟨EFI_SUCCESS, some (insertLeftover s').checkPackage, none, s'.env⟩) ∧
    ∀ r, run limit compare allocate checkList problemParam args ⟨[], none, 0, 0, 0, env'⟩ =
        .error r →
      internalCommandLineParse limit compare allocate checkList problemParam false
        (args.map some) env = r := by
  obtain ⟨env', henv⟩ := h.eq env listEntrySize
  have hlen : ¬ (args.map some).length < 1 := by
    rw [List.length_map]
    exact fun hlt => hargc (List.length_eq_zero_iff.mp (by omega))
  unfold run
  refine ⟨env', fun s' hrun => ?_, fun r hrun => ?_⟩
  · rw [internalCommandLineParse, if_neg hlen, henv]
    dsimp only
    rw [hrun]
    rfl
  · rw [internalCommandLineParse, if_neg hlen, henv]
    dsimp only
    rw [hrun]
    rfl

section Steps

variable (problemParam)

variable (h : Allocates allocate) (hnames : ∀ item ∈ checkList, item.name.length < limit)

include h hnames

/-- What is done with an argument depends on whether it is on the check list. -/
lemma parseArgument_eq (a : Str) (s : Parser ε) : ∃ env,
    parseArgument limit compare allocate checkList problemParam false (some a) s =
      match onCheckList compare checkList a with
      | some type => takeFlag allocate a type { s with env := env }
      | none =>
        match waitsFor false a { s with env := env } with
        | some package => takeValue limit allocate a package { s with env := env }
        | none =>
          if !internalIsFlag a false false then takePositional allocate a { s with env := env }
          else .error (rejectFlag allocate problemParam a { s with env := env }) := by
  refine ⟨(internalIsOnCheckList limit compare allocate a checkList s.env).2, ?_⟩
  rw [← internalIsOnCheckList_eq h a hnames s.env]
  rfl

/-- An argument on the check list. -/
lemma parseArgument_flag {type : ParamType} (ha : onCheckList compare checkList a = some type)
    (s : Parser ε) : ∃ s',
    parseArgument limit compare allocate checkList problemParam false (some a) s = .ok s' ∧
      s'.getItemValue = wantedValues type ∧ s'.count = s.count ∧
      (s'.getItemValue ≠ 0 → Waits s' a type []) ∧
      Front s' (flagPackage a type []) (insertLeftover s).checkPackage := by
  obtain ⟨env, hparse⟩ := parseArgument_eq problemParam h hnames a s
  obtain ⟨env', htake⟩ := takeFlag_eq h a type { s with env := env }
  rw [ha] at hparse
  have hcount : (insertLeftover s).count = s.count := by
    unfold insertLeftover
    split_ifs <;> rfl
  have hidle : (insertLeftover s).getItemValue = 0 := by
    unfold insertLeftover
    split_ifs with hw
    · rfl
    · exact not_not.mp hw
  rw [insertLeftover_env] at htake
  by_cases hw : wantedValues type = 0
  · rw [if_pos hw] at htake
    exact ⟨_, hparse.trans htake, hidle.trans hw.symm, hcount, fun hne => absurd hidle hne,
      fun _ => rfl, fun hne => absurd hidle hne⟩
  · rw [if_neg hw] at htake
    exact ⟨_, hparse.trans htake, rfl, hcount, fun _ => ⟨rfl, rfl⟩, fun hz => absurd hz hw,
      fun _ => rfl⟩

/-- An argument that the flag in front takes. -/
lemma parseArgument_value {name : Str} {type : ParamType} {parts : List Str}
    (ha : onCheckList compare checkList a = none) (hswitch : ¬ isSwitch a)
    (hwants : s.getItemValue ≠ 0) (hwaits : Waits s name type parts)
    (hlimit : joinedSize (parts ++ [a]) ≤ limit) : ∃ s',
    parseArgument limit compare allocate checkList problemParam false (some a) s = .ok s' ∧
      s'.getItemValue = s.getItemValue - 1 ∧ s'.count = s.count ∧
      Waits s' name type (parts ++ [a]) ∧
      Front s' (flagPackage name type (parts ++ [a])) s.checkPackage := by
  obtain ⟨env, hparse⟩ := parseArgument_eq problemParam h hnames a s
  obtain ⟨s', htake, hstate⟩ := takeValue_eq h { s with env := env } name type hwaits.size
    hlimit
  have hwaitsFor : waitsFor false a { s with env := env } = some (flagPackage name type parts) := by
    unfold waitsFor
    rw [if_pos hwants, hwaits.package, Option.filter_some, internalIsFlag_eq,
      decide_eq_false hswitch]
    rfl
  rw [ha, hwaitsFor] at hparse
  exact ⟨s', hparse.trans htake, hstate⟩

lemma parseArgument_positional (ha : onCheckList compare checkList a = none)
    (hswitch : ¬ isSwitch a) (hwants : s.getItemValue = 0) : ∃ s',
    parseArgument limit compare allocate checkList problemParam false (some a) s = .ok s' ∧
      s'.getItemValue = 0 ∧ s'.count = s.count + 1 ∧
      s'.checkPackage = positionalPackage a s.count :: s.checkPackage := by
  obtain ⟨env, hparse⟩ := parseArgument_eq problemParam h hnames a s
  obtain ⟨env', htake⟩ := takePositional_eq h a { s with env := env }
  have hwaitsFor : waitsFor false a { s with env := env } = none := by
    unfold waitsFor
    rw [if_neg (not_not.mpr hwants)]
  rw [ha, hwaitsFor, internalIsFlag_eq, decide_eq_false hswitch] at hparse
  exact ⟨_, hparse.trans htake, hwants, rfl, rfl⟩

/-- A switch that is not on the check list. -/
lemma parseArgument_switch (ha : onCheckList compare checkList a = none) (hswitch : isSwitch a)
    (s : Parser ε) : ∃ r,
    parseArgument limit compare allocate checkList problemParam false (some a) s = .error r ∧
      r.status = EFI_VOLUME_CORRUPTED ∧ r.checkPackage = none := by
  obtain ⟨env, hparse⟩ := parseArgument_eq problemParam h hnames a s
  have hwaitsFor : waitsFor false a { s with env := env } = none := by
    unfold waitsFor
    split_ifs
    · rw [Option.filter_eq_none_iff]
      intro package _
      rw [internalIsFlag_eq, decide_eq_true hswitch]
      simp
    · rfl
  rw [ha, hwaitsFor, internalIsFlag_eq, decide_eq_true hswitch] at hparse
  exact ⟨_, hparse, rfl, rfl⟩

/-- Any other argument is taken. -/
lemma parseArgument_ok (ha : isSwitch a → onCheckList compare checkList a ≠ none)
    (s : Parser ε) : ∃ s',
    parseArgument limit compare allocate checkList problemParam false (some a) s = .ok s' := by
  obtain ⟨env, hparse⟩ := parseArgument_eq problemParam h hnames a s
  rw [hparse]
  cases hentry : onCheckList compare checkList a with
  | some type =>
    obtain ⟨env', htake⟩ := takeFlag_eq h a type { s with env := env }
    exact ⟨_, htake⟩
  | none =>
    have hswitch : ¬ isSwitch a := fun hs => ha hs hentry
    cases waitsFor false a { s with env := env } with
    | some package => exact takeValue_ok h a package _
    | none =>
      obtain ⟨env', htake⟩ := takePositional_eq h a { s with env := env }
      dsimp only
      rw [internalIsFlag_eq, decide_eq_false hswitch]
      exact ⟨_, htake⟩

/-! ### The whole line -/

/-- A switch that is not on the check list ends the loop, whatever stands in front of it. -/
lemma run_error {args : List Str} (hbad : ∃ a ∈ args, isSwitch a ∧
    onCheckList compare checkList a = none) (s : Parser ε) : ∃ r,
    run limit compare allocate checkList problemParam args s = .error r ∧
      r.status = EFI_VOLUME_CORRUPTED ∧ r.checkPackage = none := by
  induction args generalizing s with
  | nil => simp at hbad
  | cons a args ih =>
    by_cases ha : isSwitch a ∧ onCheckList compare checkList a = none
    · obtain ⟨r, hstep, hr⟩ := parseArgument_switch problemParam h hnames ha.2 ha.1 s
      exact ⟨r, run_cons_error hstep, hr⟩
    · obtain ⟨s', hstep⟩ := parseArgument_ok problemParam h hnames
        (fun hs hn => ha ⟨hs, hn⟩) s
      rw [run_cons_ok hstep]
      refine ih ?_ s'
      obtain ⟨b, hb, hb'⟩ := hbad
      rcases List.mem_cons.mp hb with rfl | hb
      · exact absurd hb' ha
      · exact ⟨b, hb, hb'⟩

/-- The loop follows the reading of the line, with a flag in front that may wait for values. -/
lemma run_items {args : List Str}
    (hgood : ∀ a ∈ args, isSwitch a → onCheckList compare checkList a ≠ none) (s : Parser ε)
    (name : Str) (type : ParamType) (parts : List Str)
    (hwaits : s.getItemValue ≠ 0 → Waits s name type parts)
    (hfront : s.getItemValue ≠ 0 → joinedSize
      (parts ++ (itemsFrom (onCheckList compare checkList) args s.getItemValue).1) ≤ limit)
    (hsizes : ∀ item ∈ (itemsFrom (onCheckList compare checkList) args s.getItemValue).2,
      item.room ≤ limit) : ∃ s',
    run limit compare allocate checkList problemParam args s = .ok s' ∧
      (insertLeftover s').checkPackage =
        (packages s.count (itemsFrom (onCheckList compare checkList) args s.getItemValue).2).reverse
          ++ closeWith s (flagPackage name type
            (parts ++ (itemsFrom (onCheckList compare checkList) args s.getItemValue).1)) := by
  induction args generalizing s name type parts with
  | nil =>
    refine ⟨s, rfl, ?_⟩
    rw [Waits.insertLeftover hwaits]
    simp [itemsFrom, packages]
  | cons a args ih =>
    have hrest : ∀ b ∈ args, isSwitch b → onCheckList compare checkList b ≠ none :=
      fun b hb => hgood b (List.mem_cons_of_mem a hb)
    cases hentry : onCheckList compare checkList a with
    | some type' =>
      obtain ⟨s', hstep, hwanted, hcount, hwaits', hfront'⟩ :=
        parseArgument_flag problemParam h hnames hentry s
      rw [itemsFrom_some hentry] at hsizes ⊢
      obtain ⟨-, hlen, -⟩ := itemsFrom_reading (onCheckList compare checkList) args
        (wantedValues type')
      set g := itemsFrom (onCheckList compare checkList) args (wantedValues type')
      obtain ⟨s'', hrun, hfinal⟩ := ih hrest s' a type' [] hwaits'
        (fun _ => by rw [hwanted]; exact hsizes _ List.mem_cons_self)
        (by rw [hwanted]; exact fun item hi => hsizes item (List.mem_cons_of_mem _ hi))
      refine ⟨s'', (run_cons_ok hstep).trans hrun, ?_⟩
      have hnone (hz : s'.getItemValue = 0) : g.1 = [] := List.length_eq_zero_iff.mp (by omega)
      rw [hwanted, hcount, List.nil_append, hfront'.closeWith fun hz => by rw [hnone hz],
        Waits.insertLeftover hwaits] at hfinal
      rw [hfinal]
      simp [packages, g]
    | none =>
      have hswitch : ¬ isSwitch a := fun hs => hgood a List.mem_cons_self hs hentry
      rw [itemsFrom_none hentry] at hfront hsizes ⊢
      by_cases hw : s.getItemValue = 0
      · obtain ⟨s', hstep, hidle, hcount, hpackage⟩ :=
          parseArgument_positional problemParam h hnames hentry hswitch hw
        rw [if_pos hw] at hsizes ⊢
        obtain ⟨-, hlen, -⟩ := itemsFrom_reading (onCheckList compare checkList) args 0
        obtain ⟨s'', hrun, hfinal⟩ := ih hrest s' name type parts (fun hne => absurd hidle hne)
          (fun hne => absurd hidle hne)
          (by rw [hidle]; exact fun item hi => hsizes item (List.mem_cons_of_mem _ hi))
        refine ⟨s'', (run_cons_ok hstep).trans hrun, ?_⟩
        rw [hidle, hcount, closeWith, if_pos hidle, hpackage] at hfinal
        rw [hfinal, closeWith, if_pos hw]
        simp [packages]
      · rw [if_neg hw] at hfront hsizes ⊢
        obtain ⟨-, hlen, -⟩ := itemsFrom_reading (onCheckList compare checkList) args
          (s.getItemValue - 1)
        set g := itemsFrom (onCheckList compare checkList) args (s.getItemValue - 1)
        have hfits := hfront hw
        rw [← List.singleton_append, ← List.append_assoc] at hfits
        have hpart := hfits
        rw [joinedSize_append] at hpart
        obtain ⟨s', hstep, hwanted, hcount, hwaits', hfront'⟩ :=
          parseArgument_value problemParam h hnames hentry hswitch hw (hwaits hw)
            (by omega)
        obtain ⟨s'', hrun, hfinal⟩ := ih hrest s' name type (parts ++ [a]) (fun _ => hwaits')
          (fun _ => by rw [hwanted]; exact hfits) (by rw [hwanted]; exact hsizes)
        refine ⟨s'', (run_cons_ok hstep).trans hrun, ?_⟩
        have hnone (hz : s'.getItemValue = 0) : g.1 = [] := List.length_eq_zero_iff.mp (by omega)
        rw [hwanted, hcount, hfront'.closeWith fun hz => by rw [hnone hz, List.append_nil]]
          at hfinal
        rw [hfinal, closeWith, if_neg hw]
        simp [g]

/-- What a call leaves, as the reading of its arguments has it. -/
lemma internalCommandLineParse_eq {args : List Str} (hargc : args ≠ [])
    (hsizes : ∀ item ∈ items (onCheckList compare checkList) args, item.room ≤ limit) (env : ε) :
    let r := internalCommandLineParse limit compare allocate checkList problemParam false
      (args.map some) env
    ((∀ a ∈ args, isSwitch a → onCheckList compare checkList a ≠ none) ∧ r.status = EFI_SUCCESS ∧
      r.checkPackage = some (packages 0 (items (onCheckList compare checkList) args)).reverse) ∨
    (¬ (∀ a ∈ args, isSwitch a → onCheckList compare checkList a ≠ none) ∧
      r.status = EFI_VOLUME_CORRUPTED ∧ r.checkPackage = none) := by
  intro r
  obtain ⟨env', hok, herror⟩ := internalCommandLineParse_run h limit compare
    checkList problemParam hargc env
  by_cases hgood : ∀ a ∈ args, isSwitch a → onCheckList compare checkList a ≠ none
  · obtain ⟨s', hrun, hfinal⟩ := run_items problemParam h hnames hgood ⟨[], none, 0, 0, 0, env'⟩
      [] .flag [] (fun hne => absurd rfl hne) (fun hne => absurd rfl hne) hsizes
    have hr : r = _ := hok s' hrun
    rw [hr]
    refine Or.inl ⟨hgood, rfl, congrArg some (hfinal.trans ?_)⟩
    exact List.append_nil _
  · have hbad : ∃ a ∈ args, isSwitch a ∧ onCheckList compare checkList a = none := by
      simpa using hgood
    obtain ⟨r', hrun, hstatus, hpackage⟩ := run_error problemParam h hnames hbad
      ⟨[], none, 0, 0, 0, env'⟩
    have hr : r = r' := herror r' hrun
    rw [hr]
    exact Or.inr ⟨hgood, hstatus, hpackage⟩

end Steps

end Loop

/-! ### Conservation -/

/-- A package that holds each argument once. -/
structure Conserved (entry : Str → Option ParamType) (args : List Str) (l : List Item)
    (checkPackage : Option (List ParamPackage)) : Prop where
  /-- The nodes stand in the order opposite to that of the arguments. -/
  package : checkPackage = some (packages 0 l).reverse
  once : l.flatMap Item.arguments = args
  flag : ∀ name type parts, Item.flag name type parts ∈ l → entry name = some type ∧
    parts.length ≤ wantedValues type ∧ ∀ p ∈ parts, entry p = none ∧ ¬ isSwitch p
  positional : ∀ a, Item.positional a ∈ l → entry a = none ∧ ¬ isSwitch a
  positions : ∀ nodes ∈ checkPackage,
    (nodes.reverse.filter fun node => node.name.isNone).map ParamPackage.originalPosition =
      List.range (positionals l).length
  rawValue : ∀ i < UINTN_MAX,
    commandLineGetRawValue checkPackage i = (positionals l)[i]?.map stripEscape
  count : commandLineGetCount checkPackage = (positionals l).length

lemma conserved {entry : Str → Option ParamType} {args : List Str}
    (hgood : ∀ a ∈ args, isSwitch a → entry a ≠ none) :
    Conserved entry args (items entry args) (some (packages 0 (items entry args)).reverse) := by
  obtain ⟨hargs, hlen, -, hflag, hpos⟩ := itemsFrom_reading entry args 0
  rw [List.length_eq_zero_iff.mp (Nat.le_zero.mp hlen), List.nil_append] at hargs
  have hmem {item : Item} {a : Str} (hi : item ∈ items entry args) (ha : a ∈ item.arguments)
      (hnone : entry a = none) : entry a = none ∧ ¬ isSwitch a :=
    ⟨hnone, fun hs => hgood a (hargs ▸ List.mem_flatMap.mpr ⟨item, hi, ha⟩) hs hnone⟩
  refine ⟨rfl, hargs, fun name type parts hi => ?_, fun a hi => ?_, ?_,
    fun i hi => rawValue_packages _ hi, ?_⟩
  · obtain ⟨hentry, hle, hparts⟩ := hflag name type parts hi
    exact ⟨hentry, hle, fun p hp => hmem hi (List.mem_cons_of_mem name hp) (hparts p hp)⟩
  · exact hmem hi List.mem_cons_self (hpos a hi)
  · rintro nodes ⟨rfl⟩
    rw [List.reverse_reverse, positions_packages, List.range_eq_range']
  · exact (List.countP_reverse).trans (count_packages _ 0)

/-- **Parsing loses and duplicates no argument**: it fails only for a switch that is not on the
check list, and then leaves no package. -/
theorem internalCommandLineParse_conserves {ε : Type} (limit : ℕ)
    (stringNoCaseCompare : Str → Str → ℤ) (allocate : ε → ℕ → Bool × ε)
    (checkList : List ParamItem) (problemParam : Bool) (args : List Str) (env : ε)
    (h : Allocates allocate) (hargc : args ≠ [])
    (hnames : ∀ item ∈ checkList, item.name.length < limit)
    (hsizes : ∀ item ∈ items (onCheckList stringNoCaseCompare checkList) args,
      item.room ≤ limit) :
    let r := internalCommandLineParse limit stringNoCaseCompare allocate checkList problemParam
      false (args.map some) env
    (r.status = EFI_SUCCESS ↔
        ∀ a ∈ args, isSwitch a → onCheckList stringNoCaseCompare checkList a ≠ none) ∧
      (r.status = EFI_SUCCESS →
        Conserved (onCheckList stringNoCaseCompare checkList) args
          (items (onCheckList stringNoCaseCompare checkList) args) r.checkPackage) ∧
      (r.status ≠ EFI_SUCCESS → r.checkPackage = none) := by
  intro r
  have hne : EFI_VOLUME_CORRUPTED ≠ EFI_SUCCESS :=
    efiError_ne_success (efiError_maxBit 10)
  rcases internalCommandLineParse_eq problemParam h hnames hargc hsizes env with
    ⟨hgood, hstatus, hpackage⟩ | ⟨hbad, hstatus, hpackage⟩
  · refine ⟨⟨fun _ => hgood, fun _ => hstatus⟩, fun _ => ?_, fun hs => absurd hstatus hs⟩
    rw [hpackage]
    exact conserved hgood
  · have hfails : r.status ≠ EFI_SUCCESS := hstatus ▸ hne
    exact ⟨⟨fun hs => absurd hs hfails, fun hg => absurd hg hbad⟩, fun hs => absurd hs hfails,
      fun _ => hpackage⟩

/-- `-f x ^-y -?`, where `-f` takes a value. -/
def sampleArgs : List Str := [[0x2D, 0x66], [0x78], [0x5E, 0x2D, 0x79], [0x2D, 0x3F]]

def sampleCheckList : List ParamItem := [⟨[0x2D, 0x66], .value⟩]

def sampleCompare (first second : Str) : ℤ := if first = second then 0 else 1

theorem internalCommandLineParse_conserves_sample :
    (internalCommandLineParse 100 sampleCompare (fun (env : Unit) _ => (true, env))
        sampleCheckList true false (sampleArgs.map some) ()).checkPackage =
      some [⟨some [0x2D, 0x3F], .flag, none, UINTN_MAX⟩,
        ⟨none, .position, some [0x2D, 0x79], 0⟩,
        ⟨some [0x2D, 0x66], .value, some [0x78], UINTN_MAX⟩] := by
  obtain ⟨hstatus, hconserved, -⟩ := internalCommandLineParse_conserves 100 sampleCompare
    (fun (env : Unit) _ => (true, env)) sampleCheckList true sampleArgs () (fun _ _ => rfl)
    (by decide) (by decide) (by decide)
  exact (hconserved (hstatus.mpr (by decide))).package.trans (by decide)

end UefiToolkit.ParamParse
