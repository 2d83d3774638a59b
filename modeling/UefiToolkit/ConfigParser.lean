import Mathlib

/-!
Python's `ConfigParser.SafeConfigParser`, after a file was read: sections with options, whose
values are interpolated when they are read and checked when they are set. An exception is `none`.
-/

namespace UefiToolkit.ConfigParser

/-- A byte string. -/
abbrev Text := List UInt8

/-- The options of a section, the first one of a name counts. -/
abbrev Section := List (Text × Text)

structure Config where
  sections : Text → Option Section
  defaults : Section

/-- `%`. -/
def PERCENT : UInt8 := 0x25

/-- `str.lower`. -/
def lower (t : Text) : Text :=
  t.map fun c => if 0x41 ≤ c ∧ c ≤ 0x5A then c + 0x20 else c

/-! ### Interpolation -/

/-- A reference `(name)s` at the start, after the `%`, and what follows it. -/
def reference (t : Text) : Option (Text × Text) :=
  match t with
  | 0x28 :: t =>
    match t.takeWhile (· ≠ 0x29), t.dropWhile (· ≠ 0x29) with
    | c :: name, 0x29 :: 0x73 :: rest => some (c :: name, rest)
    | _, _ => none
  | _ => none

section Interpolation

variable (vars : Text → Option Text)

/-- One level of `_interpolate_some`; `deeper` is the next one. The fuel is at least the length. -/
def expand (deeper : Text → Option Text) : ℕ → Text → Option Text
  | _, [] => some []
  | 0, _ => none
  | n + 1, c :: t =>
    if c ≠ PERCENT then (expand deeper n t).map (c :: ·)
    else if t.head? = some PERCENT then (expand deeper n t.tail).map (PERCENT :: ·)
    else do
      let (name, rest) ← reference t
      let v ← vars (lower name)
      let v ← if PERCENT ∈ v then deeper v else some v
      (expand deeper n rest).map (v ++ ·)

/-- `_interpolate_some` with so many levels left. -/
def interpolateSome : ℕ → Text → Option Text
  | 0, _ => none
  | depth + 1, t => expand vars (interpolateSome depth) t.length t

def MAX_INTERPOLATION_DEPTH : ℕ := 10

def interpolate (t : Text) : Option Text := interpolateSome vars MAX_INTERPOLATION_DEPTH t

end Interpolation

section Lemmas

variable {vars deeper : Text → Option Text}

lemma expand_plain {t : Text} (h : PERCENT ∉ t) {n : ℕ} (hn : t.length ≤ n) :
    expand vars deeper n t = some t := by
  induction t generalizing n with
  | nil => simp only [expand]
  | cons c t ih =>
    obtain ⟨n, rfl⟩ : ∃ k, n = k + 1 := ⟨n - 1, by simp only [List.length_cons] at hn; omega⟩
    rw [List.mem_cons, not_or] at h
    rw [expand, if_pos (Ne.symm h.1), ih h.2 (by simpa using hn)]
    rfl

/-- A text without a percent sign stays as it is. -/
lemma interpolate_plain {t : Text} (h : PERCENT ∉ t) : interpolate vars t = some t :=
  expand_plain h le_rfl

lemma reference_eq {t name rest : Text} (h : reference t = some (name, rest)) :
    t = 0x28 :: name ++ [0x29, 0x73] ++ rest := by
  unfold reference at h
  split at h
  · rename_i t
    split at h
    · rename_i c n r hname hrest
      obtain ⟨rfl, rfl⟩ := Prod.mk.inj (Option.some.inj h)
      have happ := List.takeWhile_append_dropWhile (p := (· ≠ 0x29)) (l := t)
      rw [hname, hrest] at happ
      rw [← happ]
      simp only [List.cons_append, List.append_assoc, List.nil_append]
    · cases h
  · cases h

/-- A reference ends before two characters of which the first one does not belong to its end. -/
lemma reference_append {l name rest : Text} {a b : UInt8} (ha : a ≠ 0x29 ∧ a ≠ 0x73)
    (h : reference (l ++ [a, b]) = some (name, rest)) : ∃ l', rest = l' ++ [a, b] := by
  rcases List.append_eq_append_iff.mp (reference_eq h) with ⟨c, hX, hab⟩ | ⟨c, -, hrest⟩
  · rcases c with _ | ⟨x, _ | ⟨y, c⟩⟩
    · exact ⟨[], hab.symm⟩
    · -- the second one of the two would be what follows the reference
      have hsplit : (0x28 :: name ++ [0x29]) ++ [0x73] = l ++ [x] :=
        (List.append_assoc _ _ _).trans hX
      have hlast := (List.cons.inj (List.append_inj' hsplit rfl).2).1
      exact absurd ((List.cons.inj hab).1.trans hlast.symm) ha.2
    · have hrest : c = [] := by
        have hlen := congrArg List.length hab
        simp only [List.length_cons, List.length_append, List.length_nil] at hlen
        exact List.length_eq_zero_iff.mp (by omega)
      subst hrest
      have hlast := (List.cons.inj (List.append_inj' hX rfl).2).1
      exact absurd ((List.cons.inj hab).1.trans hlast.symm) ha.1
  · exact ⟨c, hrest⟩

/-- What is literal at the end stays there. -/
lemma expand_last {a b : UInt8} (ha : a ≠ 0x29 ∧ a ≠ 0x73) (hpa : a ≠ PERCENT)
    (hpb : b ≠ PERCENT) {n : ℕ} {l w : Text}
    (h : expand vars deeper n (l ++ [a, b]) = some w) : ∃ l', w = l' ++ [b] := by
  induction n generalizing l w with
  | zero =>
    rcases l with _ | ⟨c, l⟩ <;> simp [expand] at h
  | succ n ih =>
    rcases l with _ | ⟨c, l⟩
    · rw [List.nil_append, expand, if_pos hpa] at h
      rcases n with _ | n
      · simp [expand] at h
      · rw [expand, if_pos hpb] at h
        simp only [expand, Option.map_some, Option.some.injEq] at h
        exact ⟨[a], h.symm⟩
    · rw [List.cons_append, expand] at h
      split_ifs at h with hc hpair
      · obtain ⟨w', hw', rfl⟩ := Option.map_eq_some_iff.mp h
        obtain ⟨l', rfl⟩ := ih hw'
        exact ⟨c :: l', rfl⟩
      · rcases l with _ | ⟨d, l⟩
        · exact absurd (Option.some.inj hpair) hpa
        · obtain ⟨w', hw', rfl⟩ := Option.map_eq_some_iff.mp h
          obtain ⟨l', rfl⟩ := ih hw'
          exact ⟨PERCENT :: l', rfl⟩
      · simp only [Option.bind_eq_bind, Option.bind_eq_some_iff] at h
        obtain ⟨⟨name, rest⟩, href, v, -, hv⟩ := h
        obtain ⟨l', rfl⟩ := reference_append ha href
        obtain ⟨v', hrest⟩ : ∃ v',
            (expand vars deeper n (l' ++ [a, b])).map (v' ++ ·) = some w := by
          split_ifs at hv
          · obtain ⟨v', -, hv'⟩ := Option.bind_eq_some_iff.mp hv
            exact ⟨v', hv'⟩
          · exact ⟨v, hv⟩
        obtain ⟨w', hw', rfl⟩ := Option.map_eq_some_iff.mp hrest
        obtain ⟨l', rfl⟩ := ih hw'
        exact ⟨v' ++ l', (List.append_assoc ..).symm⟩

lemma interpolate_last {a b : UInt8} (ha : a ≠ 0x29 ∧ a ≠ 0x73) (hpa : a ≠ PERCENT)
    (hpb : b ≠ PERCENT) {l w : Text} (h : interpolate vars (l ++ [a, b]) = some w) :
    ∃ l', w = l' ++ [b] := expand_last ha hpa hpb h

end Lemmas

/-- `value.replace('%%', '')`. -/
def dropPairs : Text → Text
  | [] => []
  | [c] => [c]
  | c :: d :: t => if c = PERCENT ∧ d = PERCENT then dropPairs t else c :: dropPairs (d :: t)

/-- The references are taken out; the fuel is at least the length. -/
def dropReferences : ℕ → Text → Text
  | _, [] => []
  | 0, t => t
  | n + 1, c :: t =>
    match if c = PERCENT then reference t else none with
    | some (_, rest) => dropReferences n rest
    | none => c :: dropReferences n t

/-- No percent sign stands alone. -/
def settable (value : Text) : Bool :=
  decide (PERCENT ∉ dropReferences (dropPairs value).length (dropPairs value))

/-! ### The operations -/

namespace Config

variable (cfg : Config)

/-- `d[option]` of a section and the defaults. -/
def vars (s : Section) (option : Text) : Option Text :=
  (s.lookup option).or (cfg.defaults.lookup option)

def get (name option : Text) : Option Text := do
  let s ← cfg.sections name
  let value ← cfg.vars s option
  interpolate (cfg.vars s) value

def hasOption (name option : Text) : Bool :=
  match cfg.sections name with
  | none => false
  | some s => (cfg.vars s option).isSome

/-- `__name__`, which the reader puts into every section. -/
def nameOption : Text := [0x5F, 0x5F, 0x6E, 0x61, 0x6D, 0x65, 0x5F, 0x5F]

/-- The names of all options but `__name__`. -/
def options (name : Text) : Option (List Text) :=
  (cfg.sections name).map fun s => ((s ++ cfg.defaults).map Prod.fst).filter (· ≠ nameOption)

def putSection (name : Text) (s : Section) : Config :=
  { cfg with sections := Function.update cfg.sections name (some s) }

/-- A section of this name may not exist. -/
def addSection (name : Text) : Option Config :=
  if (cfg.sections name).isSome then none else some (cfg.putSection name [])

def set (name option value : Text) : Option Config :=
  if settable value then
    (cfg.sections name).map fun s => cfg.putSection name ((option, value) :: s)
  else none

section Lemmas

variable {cfg cfg' : Config} {name other option value : Text} {s : Section}

@[simp] lemma putSection_self : (cfg.putSection name s).sections name = some s := by
  simp [putSection]

lemma putSection_ne (h : other ≠ name) :
    (cfg.putSection name s).sections other = cfg.sections other := by
  simp [putSection, h]

@[simp] lemma putSection_putSection (s' : Section) :
    (cfg.putSection name s').putSection name s = cfg.putSection name s := by
  simp [putSection]

lemma putSection_of_eq (h : cfg.sections name = some s) : cfg.putSection name s = cfg := by
  unfold putSection
  rw [← h, Function.update_eq_self]

@[simp] lemma putSection_defaults : (cfg.putSection name s).defaults = cfg.defaults := rfl

/-- Another section does not see the change. -/
lemma putSection_get (h : other ≠ name) :
    (cfg.putSection name s).get other option = cfg.get other option := by
  have hvars : (cfg.putSection name s).vars = cfg.vars := rfl
  simp only [get, hvars, putSection_ne h]

/-- Setting puts the option before the other ones of the section. -/
lemma set_eq_some (h : cfg.set name option value = some cfg') :
    ∃ s, cfg.sections name = some s ∧ cfg' = cfg.putSection name ((option, value) :: s) := by
  unfold set at h
  split_ifs at h
  obtain ⟨s, hs, rfl⟩ := Option.map_eq_some_iff.mp h
  exact ⟨s, hs, rfl⟩

lemma addSection_eq_some (h : cfg.addSection name = some cfg') :
    cfg.sections name = none ∧ cfg' = cfg.putSection name [] := by
  unfold addSection at h
  split_ifs at h with hs
  exact ⟨Option.not_isSome_iff_eq_none.mp hs, (Option.some.inj h).symm⟩

/-- Every section stays as it is, and others may come. -/
structure Extends (cfg cfg' : Config) : Prop where
  sections : ∀ name s, cfg.sections name = some s → cfg'.sections name = some s
  defaults : cfg'.defaults = cfg.defaults

lemma Extends.refl (cfg : Config) : Extends cfg cfg := ⟨fun _ _ h => h, rfl⟩

lemma Extends.trans {cfg'' : Config} (h : Extends cfg cfg') (h' : Extends cfg' cfg'') :
    Extends cfg cfg'' :=
  ⟨fun name s hs => h'.sections name s (h.sections name s hs), h'.defaults.trans h.defaults⟩

lemma Extends.vars (h : Extends cfg cfg') : cfg'.vars s = cfg.vars s := by
  unfold Config.vars
  rw [h.defaults]

/-- What a section says is the same later on. -/
lemma Extends.get (h : Extends cfg cfg') (hs : cfg.sections name = some s) :
    cfg'.get name option = cfg.get name option := by
  simp only [Config.get, hs, h.sections name s hs, h.vars]

lemma Extends.hasOption (h : Extends cfg cfg') (hs : cfg.sections name = some s) :
    cfg'.hasOption name option = cfg.hasOption name option := by
  simp only [Config.hasOption, hs, h.sections name s hs, h.vars]

lemma Extends.options (h : Extends cfg cfg') (hs : cfg.sections name = some s) :
    cfg'.options name = cfg.options name := by
  simp only [Config.options, hs, h.sections name s hs, h.defaults]

lemma extends_putSection (h : cfg.sections name = none) : Extends cfg (cfg.putSection name s) := by
  refine ⟨fun other s' hs' => ?_, rfl⟩
  rwa [putSection_ne]
  rintro rfl
  rw [h] at hs'
  cases hs'

lemma mem_of_lookup {β : Type} {l : List (Text × β)} {v : β} (h : l.lookup option = some v) :
    option ∈ l.map Prod.fst := by
  obtain ⟨l, l', rfl, -⟩ := List.lookup_eq_some_iff.mp h
  simp

/-- An option that is read belongs to the options, `__name__` apart. -/
lemma mem_options (hs : cfg.sections name = some s) (ho : option ≠ nameOption)
    (h : (cfg.get name option).isSome) :
    ∃ os, cfg.options name = some os ∧ option ∈ os := by
  refine ⟨_, by rw [options, hs, Option.map_some], ?_⟩
  obtain ⟨v, hv⟩ := Option.isSome_iff_exists.mp h
  simp only [Config.get, hs, Option.bind_eq_bind, Option.bind_some, Option.bind_eq_some_iff] at hv
  obtain ⟨raw, hraw, -⟩ := hv
  refine List.mem_filter.mpr ⟨?_, by simpa using ho⟩
  rw [List.map_append, List.mem_append]
  rcases Option.or_eq_some_iff.mp hraw with h | ⟨-, h⟩
  · exact .inl (mem_of_lookup h)
  · exact .inr (mem_of_lookup h)

end Lemmas

end Config

end UefiToolkit.ConfigParser
