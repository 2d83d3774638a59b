import UefiToolkit.GptRecords

/-!
Which configurations are written as the partitions they list.

A label that is too long makes its record too wide, and zeros at the end of a label are taken for
padding. The values of a copy are set as they were interpolated, and are interpolated again.
-/

namespace UefiToolkit.GptTable

open UefiToolkit.CapsuleModel UefiToolkit.ConfigParser UefiToolkit.GptModel UefiToolkit.GptSlots
open UefiToolkit.GptRecords
open UefiToolkit.ShellModel (ascii)

/-! ### What is to be written -/

/-- What a line adds to the list. -/
def addedWords (l : Text) : List Text :=
  if (words l).take 2 = [ascii "partitions", ascii "+="] then (words l).drop 2 else []

/-- The base list and all lines with `+=`. -/
def listedPartitions (cfg : Config) (data : Text) : Option (List Text) :=
  (cfg.get base (ascii "partitions")).map fun t => words t ++ (lines data).flatMap addedWords

lemma addLine_eq (partitions : List Text) (l : Text) :
    addLine partitions l = partitions ++ addedWords l := by
  unfold addLine addedWords
  rcases words l with _ | ⟨a, _ | ⟨b, _ | ⟨c, t⟩⟩⟩
  · simp
  · simp
  · simp
  · by_cases h : a = ascii "partitions" ∧ b = ascii "+="
    · simp [h.1, h.2]
    · simp [h]

lemma preparsePartitions_eq (cfg : Config) (data : Text) :
    preparsePartitions cfg data = listedPartitions cfg data := by
  have hfold : ∀ (ls partitions : List Text),
      ls.foldl addLine partitions = partitions ++ ls.flatMap addedWords := by
    intro ls
    induction ls with
    | nil => simp
    | cons l ls ih =>
      intro partitions
      rw [List.foldl_cons, ih, addLine_eq, List.flatMap_cons, List.append_assoc]
  unfold preparsePartitions listedPartitions
  simp only [hfold]
  cases cfg.get base (ascii "partitions") with
  | none => rfl
  | some t => rfl

section Table

variable (cfg : Config)

/-- The file is that of the listed partitions, each of them replaced by its copies. -/
def Written (uuid4 : ℕ → Uuid) (data out : Text) : Prop :=
  ∃ listed, listedPartitions cfg data = some listed ∧ (∀ p ∈ listed, (copies cfg p).isSome) ∧
    Decodes uuid4 out ((listed.flatMap fun p => (copies cfg p).getD []).map entryOf)

/-- A listed partition has all its values. Its label fits, without a zero at its end; that of a
copy fits with the suffix, and stays as it is when it is interpolated again. -/
def Encodable (p : Text) : Prop :=
  if HasSlot cfg p then
    ∀ i < nbSlot cfg, ∃ part, partitionOf cfg p = some part ∧ (part.copy i).label.length ≤ 36 ∧
      interpolate (copyVars cfg p part.label i) (part.copy i).label = some (part.copy i).label
  else ∃ part, partitionOf cfg p = some part ∧ part.label.length ≤ 36 ∧
    part.label.getLast? ≠ some 0

instance (p : Text) : Decidable (Encodable cfg p) :=
  inferInstanceAs (Decidable (if HasSlot cfg p then
    ∀ i < nbSlot cfg, ∃ part ∈ partitionOf cfg p, (part.copy i).label.length ≤ 36 ∧
      interpolate (copyVars cfg p part.label i) (part.copy i).label = some (part.copy i).label
  else ∃ part ∈ partitionOf cfg p, part.label.length ≤ 36 ∧ part.label.getLast? ≠ some 0))

end Table

/-! ### One partition of the list -/

section Block

variable {cfg cfg' : Config} {p : Text}

lemma map_toNat_injective : Function.Injective (List.map UInt8.toNat) :=
  List.map_injective_iff.mpr fun _ _ => UInt8.toNat_inj.mp

lemma readEntry_eq_iff (part : Partition) :
    readEntry part = entryOf part ↔ part.label.getLast? ≠ some 0 := by
  rw [← trimZeros_eq_iff]
  exact ⟨fun h => (Entry.mk.inj h).2.1, fun h => by rw [readEntry, h]; rfl⟩

/-- The character of a suffix is neither a zero nor a percent sign. -/
lemma suffix_char {i : ℕ} (h : 0x61 + i < 256) :
    UInt8.ofNat (0x61 + i) ≠ 0 ∧ UInt8.ofNat (0x61 + i) ≠ PERCENT := by
  have hnat : (UInt8.ofNat (0x61 + i)).toNat = 0x61 + i := Nat.mod_eq_of_lt h
  constructor <;> intro h0
  · rw [h0, UInt8.toNat_zero] at hnat
    omega
  · have hpercent : PERCENT.toNat = 0x25 := rfl
    rw [h0] at hnat
    omega

/-- The label of a copy is read as it is to be exactly when interpolating it changes nothing. -/
lemma copy_read_iff {part : Partition} {i : ℕ} (h : IsCopy cfg cfg' p i)
    (hpart : partitionOf cfg p = some part) :
    (Narrow cfg' (p ++ suffix i) ∧
      readOf cfg' (p ++ suffix i) = some (entryOf (part.copy i))) ↔
    (part.copy i).label.length ≤ 36 ∧
      interpolate (copyVars cfg p part.label i) (part.copy i).label =
        some (part.copy i).label := by
  have hread := partitionOf_copy h hpart
  obtain ⟨hzero, hpercent⟩ := suffix_char h.1
  unfold Narrow readOf
  rw [hread]
  cases hw : interpolate (copyVars cfg p part.label i) (part.copy i).label with
  | none => simp
  | some w =>
    -- the suffix is still at the end, so that no zero is lost
    obtain ⟨l', rfl⟩ := interpolate_last (by decide) (by decide) hpercent hw
    have hentry := (readEntry_eq_iff { part with label := l' ++ [UInt8.ofNat (0x61 + i)] }).mpr
      (by rw [List.getLast?_concat]; exact fun h0 => hzero (Option.some.inj h0))
    simp only [Option.map_some, Option.some.injEq, forall_eq', hentry]
    constructor
    · rintro ⟨hlen, heq⟩
      have hlabel := map_toNat_injective (Entry.mk.inj heq).2.1
      exact ⟨hlabel ▸ hlen, hlabel⟩
    · rintro ⟨hlen, hlabel⟩
      rw [hlabel]
      exact ⟨hlen, rfl⟩

/-- The names that are written are as many as the partitions. -/
lemma copies_length (h : (copies cfg p).isSome) :
    ((copies cfg p).getD []).length = (names cfg p).length := by
  unfold copies names at *
  split_ifs at * with hslot hn
  · simp [hn]
  · obtain ⟨part, hpart⟩ := Option.isSome_iff_exists.mp (Option.isSome_map ▸ h)
    simp [hpart]
  · obtain ⟨part, hpart⟩ := Option.isSome_iff_exists.mp (Option.isSome_map ▸ h)
    simp [hpart]

/-- What is read in the place of a partition is right exactly when it is encodable. -/
lemma block_iff (hext : Config.Extends cfg cfg')
    (hcopy : HasSlot cfg p → ∀ i < nbSlot cfg, IsCopy cfg cfg' p i) :
    (copies cfg p).isSome ∧ (∀ q ∈ names cfg p, Narrow cfg' q) ∧
      (names cfg p).map (readOf cfg') =
        (((copies cfg p).getD []).map entryOf).map some ↔ Encodable cfg p := by
  unfold copies names Encodable
  split_ifs with hslot hn
  · simp [hn]
  · cases hpart : partitionOf cfg p with
    | none =>
      refine ⟨fun h => absurd h.1 (by simp), fun h => ?_⟩
      obtain ⟨part, hnone, -⟩ := h 0 (Nat.pos_of_ne_zero hn)
      cases hnone
    | some part =>
      have hread := fun i hi => copy_read_iff (hcopy hslot i hi) hpart
      simp only [Option.map_some, Option.isSome_some, Option.getD_some, true_and, List.map_map,
        List.forall_mem_map, List.map_inj_left, List.mem_range, Function.comp_apply,
        Option.some.injEq, exists_eq_left', ← forall_and]
      exact forall₂_congr hread
  · cases hpart : partitionOf cfg p with
    | none => simp
    | some part =>
      obtain ⟨s, hs⟩ := Option.isSome_iff_exists.mp
        (isSome_of_get (partitionOf_eq_some hpart).2.1)
      have hsame : partitionOf cfg' p = some part := by
        rw [← hpart]
        simp only [partitionOf, hext.get hs]
      simp [Narrow, readOf, hsame, readEntry_eq_iff]

end Block

/-! ### The table -/

lemma flatMap_eq_iff {α β : Type} {f g : α → List β} {l : List α}
    (h : ∀ a ∈ l, (f a).length = (g a).length) :
    l.flatMap f = l.flatMap g ↔ ∀ a ∈ l, f a = g a := by
  induction l with
  | nil => simp
  | cons a l ih =>
    rw [List.forall_mem_cons] at h
    rw [List.flatMap_cons, List.flatMap_cons, List.forall_mem_cons, ← ih h.2]
    exact ⟨fun heq => List.append_inj heq h.1, fun heq => by rw [heq.1, heq.2]⟩

section Table

variable {cfg : Config} {uuid4 : ℕ → Uuid} {data out : Text}

lemma isSome_of_hasOption {name option : Text} (h : cfg.hasOption name option = true) :
    (cfg.sections name).isSome := by
  unfold Config.hasOption at h
  split at h
  · cases h
  · rename_i hs
    rw [hs]
    rfl

lemma isSome_of_partitionOf {p : Text} {part : Partition} (h : partitionOf cfg p = some part) :
    (cfg.sections (partitionSection p)).isSome := isSome_of_get (partitionOf_eq_some h).2.1

lemma isSome_of_copies {p : Text} (h : (copies cfg p).isSome) :
    (cfg.sections (partitionSection p)).isSome := by
  unfold copies at h
  split_ifs at h with hslot
  · exact isSome_of_hasOption hslot.2
  · exact isSome_of_hasOption hslot.2
  · obtain ⟨part, hpart⟩ := Option.isSome_iff_exists.mp (Option.isSome_map ▸ h)
    exact isSome_of_partitionOf hpart

lemma Encodable.isSome {p : Text} (h : Encodable cfg p) :
    (cfg.sections (partitionSection p)).isSome := by
  unfold Encodable at h
  split_ifs at h with hslot
  · exact isSome_of_hasOption hslot.2
  · obtain ⟨part, hpart, -⟩ := h
    exact isSome_of_partitionOf hpart

/-- Partitions that have sections, block by block. -/
lemma table_iff {cfg' : Config} {listed part : List Text} {header body : Text}
    (hs : ∀ p ∈ listed, (cfg.sections (partitionSection p)).isSome)
    (hslots : preparseSlots cfg listed = some (cfg', part)) (hcount : part.length < 2 ^ 32)
    (hrecords : records cfg' uuid4 0 part = some body) (hheader : header.length = 8) :
    ((∀ p ∈ listed, (copies cfg p).isSome) ∧
      Decodes uuid4 (header ++ StructPack.leBytes 4 part.length ++ body)
        ((listed.flatMap fun p => (copies cfg p).getD []).map entryOf)) ↔
    ∀ p ∈ listed, Encodable cfg p := by
  obtain ⟨hext, rfl, hcopies⟩ := preparseSlots_eq_some hs hslots
  have hblocks := fun p hp => block_iff hext (hcopies p hp)
  have hlen : (∀ p ∈ listed, (copies cfg p).isSome) → ∀ p ∈ listed,
      ((names cfg p).map (readOf cfg')).length =
        ((((copies cfg p).getD []).map entryOf).map some).length := by
    intro hsome p hp
    simp only [List.length_map, copies_length (hsome p hp)]
  rw [decodes_iff hheader hcount hrecords]
  simp only [List.map_flatMap]
  constructor
  · rintro ⟨hsome, hnarrow, heq⟩ p hp
    rw [flatMap_eq_iff (hlen hsome)] at heq
    exact (hblocks p hp).mp ⟨hsome p hp,
      fun q hq => hnarrow q (List.mem_flatMap.mpr ⟨p, hp, hq⟩), heq p hp⟩
  · intro h
    have hb := fun p hp => (hblocks p hp).mpr (h p hp)
    refine ⟨fun p hp => (hb p hp).1, fun q hq => ?_, ?_⟩
    · obtain ⟨p, hp, hq⟩ := List.mem_flatMap.mp hq
      exact (hb p hp).2.1 q hq
    · rw [flatMap_eq_iff (hlen fun p hp => (hb p hp).1)]
      exact fun p hp => (hb p hp).2.2

/-- **A file that is written is the table of the listed partitions exactly when each of them is
encodable.** -/
theorem main_written_iff (h : main cfg uuid4 data = some out) :
    Written cfg uuid4 data out ↔
      ∃ listed, listedPartitions cfg data = some listed ∧ ∀ p ∈ listed, Encodable cfg p := by
  obtain ⟨listed, cfg', part, header, body, hlisted, hslots, hcount, hrecords, hheader, rfl⟩ :=
    main_eq_some h
  rw [preparsePartitions_eq] at hlisted
  constructor
  · rintro ⟨l, hl, hsome, hdecodes⟩
    obtain rfl : l = listed := Option.some.inj (hl.symm.trans hlisted)
    have hs := fun p hp => isSome_of_copies (hsome p hp)
    exact ⟨l, hl, (table_iff hs hslots hcount hrecords hheader).mp ⟨hsome, hdecodes⟩⟩
  · rintro ⟨l, hl, hencodable⟩
    obtain rfl : l = listed := Option.some.inj (hl.symm.trans hlisted)
    have hs := fun p hp => (hencodable p hp).isSome
    exact ⟨l, hl, (table_iff hs hslots hcount hrecords hheader).mpr hencodable⟩

end Table

/-! ### Two configurations -/

section Sample

def sampleUuid (_ : ℕ) : Uuid := ⟨List.replicate 16 0x5A, rfl⟩

def sampleSection (l : List (String × String)) : Section :=
  l.map fun o => (ascii o.1, ascii o.2)

def sampleConfig (l : List (String × List (String × String))) : Config :=
  ⟨fun name => (l.map fun s => (ascii s.1, sampleSection s.2)).lookup name, []⟩

/-- A partition with two slots, and one that is added to the list. -/
def slotConfig : Config := sampleConfig [
  ("base", [("partitions", "boot"), ("nb_slot", "2"), ("partitions +", "data")]),
  ("partition.boot", [("label", "boot"), ("len", "128"), ("type", "boot"), ("has_slot", "true")]),
  ("partition.data", [("label", "data"), ("len", "-1"), ("type", "linux")])]

/-- The lines of its file that are read once more. -/
def slotText : Text :=
  ascii "[base]\npartitions = boot\nnb_slot = 2\npartitions += data\n"

/-- A partition with a label of 35 characters, and one slot. -/
def longConfig : Config := sampleConfig [
  ("base", [("partitions", "p"), ("nb_slot", "1")]),
  ("partition.p", [("label", "abcdefghijklmnopqrstuvwxyzabcdefghi"), ("len", "8"),
    ("type", "misc"), ("has_slot", "true")])]

def longText : Text := ascii "[base]\npartitions = p\nnb_slot = 1\n"

/-- `boot_a`, `boot_b` and `data`. -/
theorem main_written_slots : ∃ out, main slotConfig sampleUuid slotText = some out ∧
    Written slotConfig sampleUuid slotText out := by
  have hsome : (main slotConfig sampleUuid slotText).isSome := by decide +kernel
  obtain ⟨out, h⟩ := Option.isSome_iff_exists.mp hsome
  have hlisted : listedPartitions slotConfig slotText = some [ascii "boot", ascii "data"] := by
    decide +kernel
  have hencodable : ∀ p ∈ [ascii "boot", ascii "data"], Encodable slotConfig p := by
    decide +kernel
  exact ⟨out, h, (main_written_iff h).mpr ⟨_, hlisted, hencodable⟩⟩

/-- With its suffix the label has 37 characters, and the record 110 bytes. -/
theorem main_long_label : ∃ out, main longConfig sampleUuid longText = some out ∧
    ¬ Written longConfig sampleUuid longText out := by
  have hsize : (main longConfig sampleUuid longText).map
      (fun out => (out.length, partitionCount out)) = some (122, 1) := by decide +kernel
  obtain ⟨out, h, hpair⟩ := Option.map_eq_some_iff.mp hsize
  obtain ⟨hlen, hcount⟩ := Prod.mk.inj hpair
  refine ⟨out, h, fun hwritten => ?_⟩
  obtain ⟨listed, -, -, hdecodes⟩ := hwritten
  have hlength := hdecodes.length
  omega

end Sample

end UefiToolkit.GptTable
