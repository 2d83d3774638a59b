import UefiToolkit.GptModel

/-!
The partitions of a configuration, and what the expansion of the slots makes of them: every
section of the file stays as it is, and each copy has the values of its partition, which are
interpolated once more when they are read.
-/

namespace UefiToolkit.GptSlots

open UefiToolkit.CapsuleModel UefiToolkit.ConfigParser UefiToolkit.GptModel
open UefiToolkit.ShellModel (ascii)

/-! ### What a configuration says -/

structure Partition where
  length : ℤ
  label : Text
  type : Uuid

section Meaning

variable (cfg : Config)

def partitionOf (p : Text) : Option Partition := do
  let length ← cfg.get (partitionSection p) (ascii "len")
  let length ← int length
  let label ← cfg.get (partitionSection p) (ascii "label")
  let guidType ← cfg.get (partitionSection p) (ascii "type")
  let guidType ← typeToGuid.lookup guidType
  pure ⟨length, label, guidType⟩

/-- `_a`, `_b`, … -/
def suffix (i : ℕ) : Text := [0x5F, UInt8.ofNat (0x61 + i)]

def Partition.copy (part : Partition) (i : ℕ) : Partition :=
  { part with label := part.label ++ suffix i }

def HasSlot (p : Text) : Prop :=
  cfg.hasOption base (ascii "nb_slot") = true ∧
    cfg.hasOption (partitionSection p) (ascii "has_slot") = true

instance (p : Text) : Decidable (HasSlot cfg p) := inferInstanceAs (Decidable (_ ∧ _))

def nbSlot : ℕ := ((getInt cfg base (ascii "nb_slot")).getD 0).toNat

/-- The names in the place of a partition. -/
def names (p : Text) : List Text :=
  if HasSlot cfg p then (List.range (nbSlot cfg)).map fun i => p ++ suffix i else [p]

/-- The partitions in the place of one. -/
def copies (p : Text) : Option (List Partition) :=
  if HasSlot cfg p then
    if nbSlot cfg = 0 then some []
    else (partitionOf cfg p).map fun part => (List.range (nbSlot cfg)).map part.copy
  else (partitionOf cfg p).map fun part => [part]

/-- The values of a copy, as they are set. -/
def copyVars (p label : Text) (i : ℕ) (option : Text) : Option Text :=
  if option = ascii "label" then some (label ++ suffix i)
  else if option ∈ (cfg.options (partitionSection p)).getD [] then
    cfg.get (partitionSection p) option
  else cfg.defaults.lookup option

end Meaning

/-! ### Copies of sections -/

section Copies

variable {cfg cfg' : Config} {a b p : Text}

lemma partitionSection_append_ne (p : Text) (i : ℕ) :
    partitionSection (p ++ suffix i) ≠ partitionSection p := by
  intro h
  have hlen := congrArg List.length h
  simp [partitionSection, suffix] at hlen

lemma slotSuffix_eq {i : ℕ} {s : Text} (h : slotSuffix (0x61 + i) = some s) :
    s = suffix i ∧ 0x61 + i < 256 := by
  unfold slotSuffix at h
  split_ifs at h with hi
  exact ⟨(Option.some.inj h).symm, hi⟩

/-- Setting the options of a section, one after the other. -/
lemma foldlM_copyOption {os : List Text} {s : Section} (hab : a ≠ b)
    (hb : cfg.sections b = some s) (h : os.foldlM (copyOption a b) cfg = some cfg') :
    ∃ s', cfg' = cfg.putSection b s' ∧
      (∀ o, s'.lookup o = if o ∈ os then cfg.get a o else s.lookup o) ∧
      ∀ o ∈ os, (cfg.get a o).isSome := by
  induction os generalizing cfg s with
  | nil =>
    cases h
    exact ⟨s, (Config.putSection_of_eq hb).symm, fun o => (by simp), fun o ho => (by simp at ho)⟩
  | cons o os ih =>
    rw [List.foldlM_cons, Option.bind_eq_bind, Option.bind_eq_some_iff] at h
    obtain ⟨cfg₁, hset, hrest⟩ := h
    obtain ⟨v, hv, hset⟩ := Option.bind_eq_some_iff.mp hset
    obtain ⟨s₁, hs₁, rfl⟩ := Config.set_eq_some hset
    obtain rfl : s₁ = s := Option.some.inj (hs₁.symm.trans hb)
    obtain ⟨s', hcfg', hlookup, hsome⟩ := ih Config.putSection_self hrest
    simp only [Config.putSection_get hab] at hlookup hsome
    refine ⟨s', hcfg'.trans (Config.putSection_putSection _), fun o' => ?_, ?_⟩
    · rw [hlookup o']
      by_cases ho : o' = o
      · subst ho
        simp [hv]
      · have hne : (o' == o) = false := by simpa using ho
        simp only [List.mem_cons, ho, false_or, List.lookup_cons, hne]
    · rintro o' (_ | ⟨_, ho'⟩)
      · rw [hv]
        rfl
      · exact hsome o' ho'

/-- A copied section is new, and has the values of the one it is copied from. -/
lemma copySection_eq_some (hab : a ≠ b) (h : copySection cfg a b = some cfg') :
    cfg.sections b = none ∧ ∃ s', cfg' = cfg.putSection b s' ∧
      ∃ os, cfg.options a = some os ∧ (∀ o ∈ os, (cfg.get a o).isSome) ∧
        ∀ o, s'.lookup o = if o ∈ os then cfg.get a o else none := by
  obtain ⟨cfg₁, hadd, h⟩ := Option.bind_eq_some_iff.mp h
  obtain ⟨os, hos, hfold⟩ := Option.bind_eq_some_iff.mp h
  obtain ⟨hnone, rfl⟩ := Config.addSection_eq_some hadd
  obtain ⟨s', hcfg', hlookup, hsome⟩ := foldlM_copyOption hab Config.putSection_self hfold
  simp only [Config.putSection_get hab] at hlookup hsome
  refine ⟨hnone, s', hcfg'.trans (Config.putSection_putSection _), os, ?_, hsome, fun o => ?_⟩
  · rw [← hos]
    simp only [Config.options, Config.putSection_ne hab, Config.putSection_defaults]
  · rw [hlookup o, List.lookup_nil]

/-- A section that a later configuration has for a copy. -/
def IsCopy (cfg cfg' : Config) (p : Text) (i : ℕ) : Prop :=
  0x61 + i < 256 ∧ ∃ label s, cfg.get (partitionSection p) (ascii "label") = some label ∧
    cfg'.sections (partitionSection (p ++ suffix i)) = some s ∧
    cfg'.vars s = copyVars cfg p label i

lemma IsCopy.mono {cfg'' : Config} {i : ℕ} (h : IsCopy cfg cfg' p i)
    (hext : Config.Extends cfg' cfg'') : IsCopy cfg cfg'' p i := by
  obtain ⟨hi, label, s, hlabel, hs, hvars⟩ := h
  exact ⟨hi, label, s, hlabel, hext.sections _ s hs, hext.vars.trans hvars⟩

lemma addSlot_eq_some {cfg₀ : Config} {src : Section} {l l' : List Text} {i : ℕ}
    (hs : cfg₀.sections (partitionSection p) = some src) (hext : Config.Extends cfg₀ cfg)
    (h : addSlot p (cfg, l) i = some (cfg', l')) :
    Config.Extends cfg cfg' ∧ l' = l ++ [p ++ suffix i] ∧ IsCopy cfg₀ cfg' p i := by
  obtain ⟨sfx, hsfx, h⟩ := Option.bind_eq_some_iff.mp h
  obtain ⟨rfl, hi⟩ := slotSuffix_eq hsfx
  obtain ⟨cfg₁, hcopy, h⟩ := Option.bind_eq_some_iff.mp h
  obtain ⟨label, hlabel, h⟩ := Option.bind_eq_some_iff.mp h
  obtain ⟨cfg₂, hset, h⟩ := Option.bind_eq_some_iff.mp h
  obtain ⟨rfl, rfl⟩ := Prod.mk.inj (Option.some.inj h)
  have hne := partitionSection_append_ne p i
  obtain ⟨hnone, s', rfl, os, hos, hsome, hlookup⟩ := copySection_eq_some hne.symm hcopy
  obtain ⟨s'', hs'', rfl⟩ := Config.set_eq_some hset
  obtain rfl : s' = s'' := Option.some.inj (Config.putSection_self.symm.trans hs'')
  rw [Config.putSection_get hne.symm, hext.get hs] at hlabel
  rw [Config.putSection_putSection]
  refine ⟨Config.extends_putSection hnone, rfl, hi, label, _, hlabel, Config.putSection_self, ?_⟩
  funext o
  have hos₀ : cfg₀.options (partitionSection p) = some os := (hext.options hs).symm.trans hos
  rw [Config.vars, copyVars, Config.putSection_defaults, hext.defaults, hos₀, Option.getD_some]
  by_cases ho : o = ascii "label"
  · subst ho
    simp
  · have hbeq : (o == ascii "label") = false := by simpa using ho
    rw [if_neg ho, List.lookup_cons, hbeq]
    simp only [hlookup o, hext.get hs]
    split_ifs with hmem
    · obtain ⟨v, hv⟩ := Option.isSome_iff_exists.mp (hsome o hmem)
      rw [hext.get hs] at hv
      rw [hv, Option.some_or]
    · exact Option.none_or

/-- All copies of a partition. -/
lemma addSlots_eq_some {cfg₀ : Config} {src : Section} {l l' : List Text} {n : ℕ}
    (hs : cfg₀.sections (partitionSection p) = some src) (hext : Config.Extends cfg₀ cfg)
    (h : (List.range n).foldlM (addSlot p) (cfg, l) = some (cfg', l')) :
    Config.Extends cfg cfg' ∧ l' = l ++ (List.range n).map (fun i => p ++ suffix i) ∧
      ∀ i < n, IsCopy cfg₀ cfg' p i := by
  induction n generalizing cfg' l' with
  | zero =>
    obtain ⟨rfl, rfl⟩ := Prod.mk.inj (Option.some.inj h)
    exact ⟨Config.Extends.refl cfg, by simp, fun i hi => absurd hi (Nat.not_lt_zero i)⟩
  | succ n ih =>
    rw [List.range_succ, List.foldlM_append, Option.bind_eq_bind, Option.bind_eq_some_iff] at h
    obtain ⟨⟨cfg₁, l₁⟩, hinit, hlast⟩ := h
    obtain ⟨hext₁, rfl, hcopies⟩ := ih hinit
    rw [List.foldlM_cons, Option.bind_eq_bind, Option.bind_eq_some_iff] at hlast
    obtain ⟨⟨cfg₂, l₂⟩, hadd, hend⟩ := hlast
    obtain ⟨rfl, rfl⟩ := Prod.mk.inj (Option.some.inj hend)
    obtain ⟨hext₂, rfl, hcopy⟩ := addSlot_eq_some hs (hext.trans hext₁) hadd
    refine ⟨hext₁.trans hext₂, ?_, fun i hi => ?_⟩
    · rw [List.range_succ, List.map_append, List.map_singleton, List.append_assoc]
    · rcases Nat.lt_succ_iff_lt_or_eq.mp hi with hi | rfl
      · exact (hcopies i hi).mono hext₂
      · exact hcopy

/-- A partition of the list is replaced by its copies, or stays. -/
lemma slotStep_eq_some {cfg₀ : Config} {src : Section} {l l' : List Text} {n : ℤ}
    (hn : cfg₀.hasOption base (ascii "nb_slot") = true ∧ n.toNat = nbSlot cfg₀)
    (hs : cfg₀.sections (partitionSection p) = some src) (hext : Config.Extends cfg₀ cfg)
    (h : slotStep n (cfg, l) p = some (cfg', l')) :
    Config.Extends cfg cfg' ∧ l' = l ++ names cfg₀ p ∧
      (HasSlot cfg₀ p → ∀ i < nbSlot cfg₀, IsCopy cfg₀ cfg' p i) := by
  unfold slotStep at h
  rw [hext.hasOption hs, hn.2] at h
  unfold names
  split_ifs at h with hslot
  · rw [if_pos ⟨hn.1, hslot⟩]
    obtain ⟨hext', hl', hcopies⟩ := addSlots_eq_some hs hext h
    exact ⟨hext', hl', fun _ => hcopies⟩
  · rw [if_neg fun hp => hslot hp.2]
    obtain ⟨rfl, rfl⟩ := Prod.mk.inj (Option.some.inj h)
    exact ⟨Config.Extends.refl cfg, rfl, fun hp => absurd hp.2 hslot⟩

lemma foldlM_slotStep {cfg₀ : Config} {listed l l' : List Text} {n : ℤ}
    (hn : cfg₀.hasOption base (ascii "nb_slot") = true ∧ n.toNat = nbSlot cfg₀)
    (hs : ∀ p ∈ listed, (cfg₀.sections (partitionSection p)).isSome)
    (hext : Config.Extends cfg₀ cfg)
    (h : listed.foldlM (slotStep n) (cfg, l) = some (cfg', l')) :
    Config.Extends cfg cfg' ∧ l' = l ++ listed.flatMap (names cfg₀) ∧
      ∀ p ∈ listed, HasSlot cfg₀ p → ∀ i < nbSlot cfg₀, IsCopy cfg₀ cfg' p i := by
  induction listed generalizing cfg l with
  | nil =>
    obtain ⟨rfl, rfl⟩ := Prod.mk.inj (Option.some.inj h)
    exact ⟨Config.Extends.refl cfg, by simp, fun p hp => by simp at hp⟩
  | cons p listed ih =>
    rw [List.foldlM_cons, Option.bind_eq_bind, Option.bind_eq_some_iff] at h
    obtain ⟨⟨cfg₁, l₁⟩, hstep, hrest⟩ := h
    obtain ⟨src, hsrc⟩ := Option.isSome_iff_exists.mp (hs p List.mem_cons_self)
    obtain ⟨hext₁, rfl, hcopy⟩ := slotStep_eq_some hn hsrc hext hstep
    obtain ⟨hext₂, rfl, hcopies⟩ :=
      ih (fun q hq => hs q (List.mem_cons_of_mem p hq)) (hext.trans hext₁) hrest
    refine ⟨hext₁.trans hext₂, by rw [List.flatMap_cons, List.append_assoc], ?_⟩
    rintro q (_ | ⟨_, hq⟩)
    · exact fun hslot i hi => (hcopy hslot i hi).mono hext₂
    · exact hcopies q hq

/-- **The expansion of the slots**, when each listed partition has a section in the file. -/
theorem preparseSlots_eq_some {listed part : List Text}
    (hs : ∀ p ∈ listed, (cfg.sections (partitionSection p)).isSome)
    (h : preparseSlots cfg listed = some (cfg', part)) :
    Config.Extends cfg cfg' ∧ part = listed.flatMap (names cfg) ∧
      ∀ p ∈ listed, HasSlot cfg p → ∀ i < nbSlot cfg, IsCopy cfg cfg' p i := by
  unfold preparseSlots at h
  split_ifs at h with hnb
  · obtain ⟨n, hn, hfold⟩ := Option.bind_eq_some_iff.mp h
    have hcount : n.toNat = nbSlot cfg := by rw [nbSlot, hn, Option.getD_some]
    exact foldlM_slotStep ⟨hnb, hcount⟩ hs (Config.Extends.refl cfg) hfold
  · obtain ⟨rfl, rfl⟩ := Prod.mk.inj (Option.some.inj h)
    refine ⟨Config.Extends.refl cfg, ?_, fun p _ hp => absurd hp.1 hnb⟩
    have hnames : names cfg = fun p => [p] := funext fun p => if_neg fun hp => hnb hp.1
    rw [hnames, List.flatMap_singleton']

end Copies

/-! ### What is read of a copy -/

section Reading

lemma mem_dropWhile {q : UInt8 → Bool} {c : UInt8} {t : Text} (hc : q c = false) (h : c ∈ t) :
    c ∈ t.dropWhile q := by
  rw [← List.takeWhile_append_dropWhile (p := q) (l := t), List.mem_append] at h
  rcases h with h | h
  · rw [List.mem_takeWhile_imp h] at hc
    cases hc
  · exact h

lemma mem_after_sign {t : Text} (h : PERCENT ∈ t) :
    PERCENT ∈ if t.head? = some 0x2B ∨ t.head? = some 0x2D then t.tail else t := by
  split_ifs with hsign
  · rcases t with _ | ⟨c, t⟩
    · simp at h
    · rcases List.mem_cons.mp h with hc | hc
      · rw [← hc, List.head?_cons] at hsign
        exact absurd hsign (by decide)
      · exact hc
  · exact h

/-- No number is written with a percent sign. -/
lemma int_plain {t : Text} {n : ℤ} (h : int t = some n) : PERCENT ∉ t := by
  intro hmem
  simp only [int, Option.ite_none_right_eq_some] at h
  have hsign := mem_after_sign (mem_dropWhile (by decide : isSpace PERCENT = false) hmem)
  have hend := mem_dropWhile (by decide : isDigit PERCENT = false)
    (mem_dropWhile (by decide : isSpace PERCENT = false) hsign)
  exact absurd (List.all_eq_true.mp h.1.2 _ hend) (by decide)

/-- Nor is a type. -/
lemma typeToGuid_plain {t : Text} {g : Uuid} (h : typeToGuid.lookup t = some g) : PERCENT ∉ t := by
  have hkeys : ∀ k ∈ typeToGuid.map Prod.fst, PERCENT ∉ k := by decide
  exact hkeys t (Config.mem_of_lookup h)

lemma partitionOf_eq_some {cfg : Config} {p : Text} {part : Partition}
    (h : partitionOf cfg p = some part) :
    (∃ t, cfg.get (partitionSection p) (ascii "len") = some t ∧ int t = some part.length) ∧
      cfg.get (partitionSection p) (ascii "label") = some part.label ∧
      ∃ t, cfg.get (partitionSection p) (ascii "type") = some t ∧
        typeToGuid.lookup t = some part.type := by
  obtain ⟨lenText, hlenText, h⟩ := Option.bind_eq_some_iff.mp h
  obtain ⟨length, hlength, h⟩ := Option.bind_eq_some_iff.mp h
  obtain ⟨label, hlabel, h⟩ := Option.bind_eq_some_iff.mp h
  obtain ⟨typeText, htypeText, h⟩ := Option.bind_eq_some_iff.mp h
  obtain ⟨type, htype, h⟩ := Option.bind_eq_some_iff.mp h
  cases h
  exact ⟨⟨lenText, hlenText, hlength⟩, hlabel, typeText, htypeText, htype⟩

/-- A partition that is read has a section. -/
lemma isSome_of_get {cfg : Config} {name option t : Text} (h : cfg.get name option = some t) :
    (cfg.sections name).isSome := by
  obtain ⟨s, hs, -⟩ := Option.bind_eq_some_iff.mp h
  rw [hs]
  rfl

section Copy

variable {cfg cfg' : Config} {p : Text} {i : ℕ}

lemma isCopy_get (h : IsCopy cfg cfg' p i) : ∃ label,
    cfg.get (partitionSection p) (ascii "label") = some label ∧
    ∀ o, cfg'.get (partitionSection (p ++ suffix i)) o =
      (copyVars cfg p label i o).bind (interpolate (copyVars cfg p label i)) := by
  obtain ⟨-, label, s, hlabel, hs, hvars⟩ := h
  refine ⟨label, hlabel, fun o => ?_⟩
  simp only [Config.get, hs, hvars, Option.bind_eq_bind, Option.bind_some]

/-- An option without a percent sign is copied as it is. -/
lemma copyVars_get {label o t : Text} (ho : o ≠ ascii "label") (hname : o ≠ Config.nameOption)
    (h : cfg.get (partitionSection p) o = some t) (ht : PERCENT ∉ t) :
    (copyVars cfg p label i o).bind (interpolate (copyVars cfg p label i)) = some t := by
  obtain ⟨s, hs⟩ := Option.isSome_iff_exists.mp (isSome_of_get h)
  obtain ⟨os, hos, hmem⟩ := Config.mem_options hs hname (by rw [h]; rfl)
  have hvar : copyVars cfg p label i o = some t := by
    rw [copyVars, if_neg ho, hos, Option.getD_some, if_pos hmem, h]
  rw [hvar, Option.bind_some, interpolate_plain ht]

/-- The label of a copy is interpolated once more, the rest is that of the partition. -/
lemma partitionOf_copy {part : Partition} (h : IsCopy cfg cfg' p i)
    (hpart : partitionOf cfg p = some part) : partitionOf cfg' (p ++ suffix i) =
      (interpolate (copyVars cfg p part.label i) (part.copy i).label).map fun label =>
        { part with label := label } := by
  obtain ⟨⟨lenText, hlen, hint⟩, hlabel, typeText, htype, hguid⟩ := partitionOf_eq_some hpart
  obtain ⟨label, hlabel', hget⟩ := isCopy_get h
  obtain rfl : part.label = label := Option.some.inj (hlabel.symm.trans hlabel')
  have hlabelVar : copyVars cfg p part.label i (ascii "label") = some (part.copy i).label :=
    if_pos rfl
  unfold partitionOf
  rw [hget, hget, hget, copyVars_get (by decide) (by decide) hlen (int_plain hint),
    copyVars_get (by decide) (by decide) htype (typeToGuid_plain hguid), hlabelVar]
  simp only [Option.bind_eq_bind, Option.bind_some, hint, hguid]
  cases interpolate (copyVars cfg p part.label i) (part.copy i).label with
  | none => rfl
  | some label => rfl

end Copy

end Reading

end UefiToolkit.GptSlots
