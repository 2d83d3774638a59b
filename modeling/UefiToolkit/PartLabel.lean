import UefiToolkit.PartOpen
import UefiToolkit.PartSave

/-!
The partition a command acts on.

The argument goes through two conversions, either of which may fail and leave what was there
before, and is then compared with the labels as the partition table holds them.
-/

namespace UefiToolkit.PartLabel

open UefiToolkit.Word UefiToolkit.Mem UefiToolkit.SparseModel UefiToolkit.PartModel
open UefiToolkit.PartOpen
open UefiToolkit.DiskModel (FileName unicode)
open UefiToolkit.PartErase (memoryPartitions labelled)

/-! ### Labels -/

/-- `PARTITION_NAME_MAX_LENGTH`. -/
def PARTITION_NAME_MAX_LENGTH : ℕ := 36

/-- A label of the partition table. -/
structure Label where
  string : List UInt16
  nonempty : string ≠ []
  fits : string.length ≤ PARTITION_NAME_MAX_LENGTH
  ascii : ∀ c ∈ string, 0 < c.toNat ∧ c.toNat < 128

/-- Partitions with labels that are all different. -/
structure Table where
  partitions : List (Label × Handle)
  distinct : (partitions.map fun p => p.1.string).Nodup

/-- The partition with a label. -/
def Table.lookup (t : Table) (string : List UInt16) : Option Handle :=
  (t.partitions.find? fun p => decide (p.1.string = string)).map (·.2)

/-- The memory from `PartitionName` on holds the label, with a terminator if there is room. -/
structure Label.Stored (l : Label) (cells : ℕ → UInt16) : Prop where
  begins : slice cells 0 l.string.length = l.string
  terminated : l.string.length < PARTITION_NAME_MAX_LENGTH → cells l.string.length = 0

/-- The list that stands for the table. -/
def Table.Listed (t : Table) (entries : List PartitionEntry) : Prop :=
  List.Forall₂ (fun p entry => p.1.Stored entry.partitionName ∧ entry.partitionHandle = p.2)
    t.partitions entries

lemma Label.zero_notMem (l : Label) : (0 : UInt16) ∉ l.string := fun h =>
  absurd (l.ascii 0 h).1 (Nat.lt_irrefl 0)

/-! ### Comparing -/

section Compare

variable {cells : ℕ → UInt16} {string found : List UInt16}

/-- A string goes on until the first zero. -/
lemma length_le_of_strEq (hfound : strEq cells found = true)
    (hcells : slice cells 0 string.length = string) (hzero : (0 : UInt16) ∉ string) :
    string.length ≤ found.length := by
  by_contra hlt
  have heq : slice cells 0 (found.length + 1) = found ++ [0] := of_decide_eq_true hfound
  have hbegin : string.take (found.length + 1) = found ++ [0] := by
    rw [← heq, ← slice_take cells 0 (show found.length + 1 ≤ string.length by omega), hcells]
  have hmem : (0 : UInt16) ∈ string.take (found.length + 1) := by
    rw [hbegin]
    exact List.mem_append_right _ (List.mem_singleton_self 0)
  exact hzero (List.mem_of_mem_take hmem)

/-- A terminated string is equal to itself only. -/
lemma strEq_terminated (hcells : slice cells 0 string.length = string)
    (hend : cells string.length = 0) (hzero : (0 : UInt16) ∉ string)
    (hfound : (0 : UInt16) ∉ found) : strEq cells found = true ↔ string = found := by
  have hself : strEq cells string = true := by
    refine decide_eq_true ?_
    rw [slice_succ, hcells, Nat.zero_add, hend]
  refine ⟨fun h => ?_, fun h => h ▸ hself⟩
  have heq : slice cells 0 (found.length + 1) = found ++ [0] := of_decide_eq_true h
  have hbegins : slice cells 0 found.length = found := by
    rw [slice_succ] at heq
    exact List.append_inj_left' heq rfl
  have hlen : string.length = found.length :=
    Nat.le_antisymm (length_le_of_strEq h hcells hzero) (length_le_of_strEq hself hbegins hfound)
  rw [← hcells, hlen, hbegins]

/-- A label that fills its cells is longer than any string it is compared with. -/
lemma Label.Stored.strEq_iff {l : Label} (h : l.Stored cells) (hfound : (0 : UInt16) ∉ found)
    (hlen : found.length < PARTITION_NAME_MAX_LENGTH) :
    strEq cells found = true ↔ l.string = found := by
  rcases l.fits.lt_or_eq with hlt | hfull
  · exact strEq_terminated h.begins (h.terminated hlt) l.zero_notMem hfound
  · refine ⟨fun heq => ?_, fun heq => ?_⟩
    · have hle := length_le_of_strEq heq h.begins l.zero_notMem
      omega
    · rw [← heq] at hlen
      omega

end Compare

/-! ### Looking for a name -/

/-- A label with zeros behind it. -/
def cellsOf (string : List UInt16) (i : ℕ) : UInt16 := string.getD i 0

lemma slice_cellsOf (string : List UInt16) : slice (cellsOf string) 0 string.length = string :=
  slice_eq_iff.mpr fun i hi => by
    rw [Nat.zero_add, cellsOf, List.getD_eq_getElem _ _ hi]

lemma cellsOf_length (string : List UInt16) : cellsOf string string.length = 0 :=
  List.getD_eq_default _ _ le_rfl

lemma stored_cellsOf (l : Label) : l.Stored (cellsOf l.string) :=
  ⟨slice_cellsOf _, fun _ => cellsOf_length _⟩

/-- The list with zeros behind the labels. -/
def Table.entries (t : Table) : List PartitionEntry :=
  t.partitions.map fun p => ⟨cellsOf p.1.string, p.2⟩

lemma Table.entries_listed (t : Table) : t.Listed t.entries := by
  unfold Table.Listed Table.entries
  rw [List.forall₂_map_right_iff]
  exact List.forall₂_same.mpr fun p _ => ⟨stored_cellsOf p.1, rfl⟩

/-- The first entry with the name has the handle that the first label has. -/
lemma find_entry {string : List UInt16} {ps : List (Label × Handle)} {entries : List PartitionEntry}
    (h : List.Forall₂ (fun p entry => (strEq entry.partitionName string = true ↔
      p.1.string = string) ∧ entry.partitionHandle = p.2) ps entries) :
    (entries.find? fun entry => strEq entry.partitionName string).map (·.partitionHandle) =
      (ps.find? fun p => decide (p.1.string = string)).map (·.2) := by
  induction h with
  | nil => rfl
  | @cons p entry ps entries hp hrest ih =>
    rw [List.find?_cons, List.find?_cons]
    by_cases heq : p.1.string = string
    · rw [hp.1.mpr heq, decide_eq_true heq]
      exact congrArg some hp.2
    · rw [decide_eq_false heq, Bool.eq_false_iff.mpr fun hs => heq (hp.1.mp hs)]
      exact ih

/-! ### Opening -/

section Open

variable {ε : Type}

/-- Opening the protocols of a partition, if there is one. -/
def openHandle (e : SparseModel.Services ε) : Option Handle → Status × Option Handle
  | none => (EFI_NOT_FOUND, none)
  | some h =>
    if efiError (e.openBlockIo h) then (e.openBlockIo h, none)
    else if efiError (e.openDiskIo h) then (e.openDiskIo h, none)
    else (EFI_SUCCESS, some h)

/-- What `PartitionNameUnicode` holds for a name. -/
def searched (e : SparseModel.Services ε) (name : List UInt8) : List UInt16 :=
  if name.length < 60 then name.map (·.toUInt16) else e.uninitName

lemma openPartition_eq (e : SparseModel.Services ε) (name : List UInt8) :
    openPartition e name = openHandle e
      ((e.partitions.find? fun entry => strEq entry.partitionName (searched e name)).map
        (·.partitionHandle)) := by
  unfold openPartition searched
  dsimp only
  rcases e.partitions.find? _ with _ | entry
  · rfl
  · rfl

/-- The program's services with this list, and a buffer that holds a string. -/
def relist (e : PartModel.Services ε) (entries : List PartitionEntry)
    (openBlockIo : Handle → Status) (before : List UInt16) : PartModel.Services ε :=
  { e with partitions := entries, openBlockIo := openBlockIo, uninitName := before }

variable (e : PartModel.Services ε) (openBlockIo : Handle → Status) (before : List UInt16)

/-- Where each entry has the name exactly if its label is that name, the label decides. -/
lemma openPartition_lookup {t : Table} {entries : List PartitionEntry} {name : List UInt8}
    (hlen : name.length < 60)
    (h : List.Forall₂ (fun p entry => (strEq entry.partitionName (name.map (·.toUInt16)) = true ↔
      p.1.string = name.map (·.toUInt16)) ∧ entry.partitionHandle = p.2) t.partitions entries) :
    openPartition (relist e entries openBlockIo before).toServices name =
      openHandle (relist e entries openBlockIo before).toServices
        (t.lookup (name.map (·.toUInt16))) := by
  rw [openPartition_eq, searched, if_pos hlen]
  exact congrArg _ (find_entry h)

lemma zero_notMem_toUInt16 {name : List UInt8} (hzero : (0 : UInt8) ∉ name) :
    (0 : UInt16) ∉ name.map (·.toUInt16) := by
  intro h
  obtain ⟨c, hc, hc0⟩ := List.mem_map.mp h
  have hnat : c.toNat = (0 : UInt8).toNat := by
    have hword := congrArg UInt16.toNat hc0
    simpa using hword
  exact hzero (UInt8.toNat_inj.mp hnat ▸ hc)

lemma openPartition_entries (t : Table) {name : List UInt8} (hlen : name.length < 60)
    (hzero : (0 : UInt8) ∉ name) :
    openPartition (relist e t.entries openBlockIo before).toServices name =
      openHandle (relist e t.entries openBlockIo before).toServices
        (t.lookup (name.map (·.toUInt16))) := by
  refine openPartition_lookup e openBlockIo before hlen ?_
  unfold Table.entries
  rw [List.forall₂_map_right_iff]
  exact List.forall₂_same.mpr fun p _ => ⟨strEq_terminated (slice_cellsOf _) (cellsOf_length _)
    p.1.zero_notMem (zero_notMem_toUInt16 hzero), rfl⟩

lemma openPartition_listed {t : Table} {entries : List PartitionEntry} (hl : t.Listed entries)
    {name : List UInt8} (hlen : name.length < PARTITION_NAME_MAX_LENGTH)
    (hzero : (0 : UInt8) ∉ name) :
    openPartition (relist e entries openBlockIo before).toServices name =
      openHandle (relist e entries openBlockIo before).toServices
        (t.lookup (name.map (·.toUInt16))) := by
  refine openPartition_lookup e openBlockIo before (hlen.trans (by decide)) ?_
  refine hl.imp fun p entry hp => ⟨hp.1.strEq_iff (zero_notMem_toUInt16 hzero) ?_, hp.2⟩
  rw [List.length_map]
  exact hlen

/-- The only partition there is, under a name of its own. -/
def soleEntry (h : Handle) : PartitionEntry := ⟨cellsOf (unicode "x"), h⟩

/-- A command on this partition. -/
def runOn (e : PartModel.Services ε) (m : Locals) (fuel : ℕ) (command : Command)
    (saveName : FileName) (h : Handle) (s : PartModel.St ε) : Option (Status × PartModel.St ε) :=
  runNamed { e with partitions := [soleEntry h] } m fuel command [120] saveName s

lemma openPartition_sole (e : PartModel.Services ε) (h : Handle) :
    openPartition { e with partitions := [soleEntry h] }.toServices [120] =
      openHandle e.toServices (some h) := by
  have hname : strEq (soleEntry h).partitionName (unicode "x") = true :=
    (strEq_terminated (slice_cellsOf _) (cellsOf_length _) (by decide) (by decide)).mpr rfl
  rw [openPartition_eq, searched, if_pos (by decide), List.find?_cons]
  rw [show ([120] : List UInt8).map (·.toUInt16) = unicode "x" by decide, hname]
  rfl

lemma sameDevices_sole (h : Handle) : SameDevices e { e with partitions := [soleEntry h] } :=
  ⟨rfl, rfl, rfl, rfl, rfl, rfl⟩

end Open

/-! ### Arguments -/

/-- The low bytes of an argument up to the first zero, as characters again. -/
def lowBytes (arg : List UInt16) : List UInt16 :=
  ((arg.map fun c => UInt8.ofNat c.toNat).takeWhile (· ≠ 0)).map (·.toUInt16)

/-- An ASCII character comes back from its low byte. -/
lemma lowByte_ascii {c : UInt16} (h : c.toNat < 128) :
    (UInt8.ofNat c.toNat).toNat = c.toNat := by
  rw [UInt8.toNat_ofNat', Nat.mod_eq_of_lt (by omega)]

/-- A label as bytes. -/
def Label.bytes (l : Label) : List UInt8 := l.string.map fun c => UInt8.ofNat c.toNat

lemma Label.zero_notMem_bytes (l : Label) : (0 : UInt8) ∉ l.bytes := by
  intro h
  obtain ⟨c, hc, hc0⟩ := List.mem_map.mp h
  have hnat := lowByte_ascii (l.ascii c hc).2
  rw [hc0] at hnat
  exact absurd hnat.symm (l.ascii c hc).1.ne'

lemma Label.bytes_toUInt16 (l : Label) : l.bytes.map (·.toUInt16) = l.string := by
  unfold Label.bytes
  rw [List.map_map]
  refine (List.map_congr_left fun c hc => ?_).trans (List.map_id _)
  refine UInt16.toNat_inj.mp ?_
  rw [Function.comp_apply, UInt8.toNat_toUInt16, lowByte_ascii (l.ascii c hc).2, id_eq]

lemma lowBytes_label (l : Label) : lowBytes l.string = l.string := by
  have hall : l.bytes.takeWhile (· ≠ 0) = l.bytes :=
    List.takeWhile_eq_self_iff.mpr fun c hc => decide_eq_true fun hc0 =>
      l.zero_notMem_bytes (hc0 ▸ hc)
  unfold lowBytes
  rw [show (l.string.map fun c => UInt8.ofNat c.toNat) = l.bytes from rfl, hall, l.bytes_toUInt16]

/-- What the program passes on for a short argument. -/
lemma unicodeStrToAsciiStrS_short {arg : List UInt16} (before : List UInt8)
    (hlen : arg.length < PARTITION_NAME_SIZE) :
    (0 : UInt8) ∉ unicodeStrToAsciiStrS arg before PARTITION_NAME_SIZE ∧
    (unicodeStrToAsciiStrS arg before PARTITION_NAME_SIZE).length < PARTITION_NAME_MAX_LENGTH ∧
    (unicodeStrToAsciiStrS arg before PARTITION_NAME_SIZE).map (·.toUInt16) = lowBytes arg := by
  unfold unicodeStrToAsciiStrS
  rw [if_pos hlen]
  refine ⟨fun h => ?_, ?_, rfl⟩
  · exact absurd (List.mem_takeWhile_imp h) (by decide)
  · refine lt_of_le_of_lt (List.takeWhile_prefix _).length_le ?_
    rw [List.length_map]
    exact hlen

/-- A long argument leaves what was there. -/
lemma unicodeStrToAsciiStrS_long {arg : List UInt16} (before : List UInt8)
    (hlen : ¬ arg.length < PARTITION_NAME_SIZE) :
    unicodeStrToAsciiStrS arg before PARTITION_NAME_SIZE = before := by
  unfold unicodeStrToAsciiStrS
  rw [if_neg hlen]

/-! ### Labels that are looked up -/

/-- No other partition has the label of the one that is found. -/
lemma Table.lookup_eq_some_iff {t : Table} {string : List UInt16} {h : Handle} :
    t.lookup string = some h ↔ ∃ p ∈ t.partitions, p.1.string = string ∧ p.2 = h := by
  unfold Table.lookup
  rw [Option.map_eq_some_iff]
  constructor
  · rintro ⟨p, hfind, rfl⟩
    have hstring := List.find?_some hfind
    exact ⟨p, List.mem_of_find?_eq_some hfind, of_decide_eq_true hstring, rfl⟩
  · rintro ⟨p, hp, rfl, rfl⟩
    have hsome : (t.partitions.find? fun q => decide (q.1.string = p.1.string)).isSome = true :=
      List.find?_isSome.mpr ⟨p, hp, decide_eq_true rfl⟩
    obtain ⟨q, hfind⟩ := Option.isSome_iff_exists.mp hsome
    have hstring := List.find?_some hfind
    have hq : q = p := List.inj_on_of_nodup_map t.distinct (List.mem_of_find?_eq_some hfind) hp
      (of_decide_eq_true hstring)
    exact ⟨p, hq ▸ hfind, rfl⟩

lemma Table.mem_of_lookup {t : Table} {string : List UInt16} (h : (t.lookup string).isSome = true) :
    ∃ p ∈ t.partitions, p.1.string = string := by
  obtain ⟨h', hlookup⟩ := Option.isSome_iff_exists.mp h
  obtain ⟨p, hp, hstring, -⟩ := Table.lookup_eq_some_iff.mp hlookup
  exact ⟨p, hp, hstring⟩

lemma Table.lookup_of_mem {t : Table} {p : Label × Handle} (hp : p ∈ t.partitions) :
    t.lookup p.1.string = some p.2 :=
  Table.lookup_eq_some_iff.mpr ⟨p, hp, rfl, rfl⟩

lemma Table.lookup_nil (t : Table) : t.lookup [] = none := by
  by_contra h
  obtain ⟨p, -, heq⟩ := Table.mem_of_lookup (Option.isSome_iff_ne_none.mpr h)
  exact p.1.nonempty heq

/-- The argument opens the partition whose label it is, whatever was in memory. -/
def Resolves (t : Table) (arg : List UInt16) : Prop :=
  t.partitions = [] ∨ (arg.length < PARTITION_NAME_SIZE ∧
    ∀ p ∈ t.partitions, p.1.string = lowBytes arg → p.1.string = arg)

lemma Resolves.lookup_lowBytes {t : Table} {arg : List UInt16}
    (h : ∀ p ∈ t.partitions, p.1.string = lowBytes arg → p.1.string = arg) :
    t.lookup (lowBytes arg) = t.lookup arg := by
  by_cases hlow : lowBytes arg = arg
  · rw [hlow]
  · have hnone : ∀ string, (string = arg ∨ string = lowBytes arg) → t.lookup string = none := by
      intro string hstring
      by_contra hsome
      obtain ⟨p, hp, heq⟩ := Table.mem_of_lookup (Option.isSome_iff_ne_none.mpr hsome)
      have harg : p.1.string = arg := hstring.elim heq.trans fun hl => h p hp (heq.trans hl)
      exact hlow (harg ▸ lowBytes_label p.1)
    rw [hnone _ (Or.inr rfl), hnone _ (Or.inl rfl)]

/-! ### Commands -/

section Commands

variable {ε : Type} {e : PartModel.Services ε} {m : Locals} {fuel : ℕ} {command : Command}
  {t : Table} {arg : List UInt16} {s : PartModel.St ε}

/-- The file name for `savepart`. -/
def saveName (arg : List UInt16) : FileName := unicodeSPrint 36 (arg ++ unicode ".bin")

/-- Whatever is in memory behind the labels and in the buffers, and whatever the partitions open
to: the command acts on the partition with this label as it would if there were no other, and
without one it reports that, and touches none. -/
def RightPartition (e : PartModel.Services ε) (m : Locals) (fuel : ℕ) (command : Command)
    (t : Table) (arg : List UInt16) (s : PartModel.St ε) : Prop :=
  ∀ (entries : List PartitionEntry) (openBlockIo : Handle → Status) (before : List UInt16)
    (before' : List UInt8), t.Listed entries → (0 : UInt16) ∉ before → (0 : UInt8) ∉ before' →
    (∀ h, t.lookup arg = some h →
      shellAppMain (relist e entries openBlockIo before) { m with partitionName := before' } fuel
          command arg s =
        runOn (relist e entries openBlockIo before) { m with partitionName := before' } fuel
          command (saveName arg) h s) ∧
    (t.lookup arg = none → ∃ s',
      shellAppMain (relist e entries openBlockIo before) { m with partitionName := before' } fuel
        command arg s = some (EFI_NOT_FOUND, s') ∧ Untouched s s')

/-- The status with a target whose protocols are all broken. -/
def broken (target : Option Handle) : Status :=
  if target.isSome then EFI_DEVICE_ERROR else EFI_NOT_FOUND

lemma broken_error (target : Option Handle) : efiError (broken target) = true := by
  unfold broken
  split_ifs
  · exact efiError_maxBit 7
  · exact efiError_maxBit 14

lemma broken_inj {target target' : Option Handle} (h : broken target = broken target') :
    target.isSome = target'.isSome := by
  have hne : EFI_DEVICE_ERROR ≠ EFI_NOT_FOUND := by decide
  unfold broken at h
  rcases target with _ | _ <;> rcases target' with _ | _
  · rfl
  · exact absurd h.symm hne
  · exact absurd h hne
  · rfl

lemma openHandle_broken {e : SparseModel.Services ε}
    (hopen : ∀ h, e.openBlockIo h = EFI_DEVICE_ERROR) (target : Option Handle) :
    openHandle e target = (broken target, none) := by
  rcases target with _ | h
  · rfl
  · unfold openHandle
    dsimp only
    rw [hopen, if_pos (show efiError EFI_DEVICE_ERROR = true from efiError_maxBit 7)]
    rfl

/-- A command that finds the right partition finds one exactly if there is one. -/
lemma RightPartition.isSome_eq (h : RightPartition e m fuel command t arg s)
    (hopens : Opens e m s command) {before name : List UInt8} (hzero : (0 : UInt8) ∉ before)
    (hname : unicodeStrToAsciiStrS arg before PARTITION_NAME_SIZE = name)
    (hlen : name.length < 60) (hname0 : (0 : UInt8) ∉ name) :
    (t.lookup (name.map (·.toUInt16))).isSome = (t.lookup arg).isSome := by
  obtain ⟨hsome, hnone⟩ := h t.entries (fun _ => EFI_DEVICE_ERROR) [] before t.entries_listed
    List.not_mem_nil hzero
  -- the command ends with the status that its name opens with
  obtain ⟨s₁, hrun, -⟩ := runNamed_none { m with partitionName := before } fuel
    (saveName arg) ((openPartition_entries e (fun _ => EFI_DEVICE_ERROR) [] t hlen
      hname0).trans (openHandle_broken (fun _ => rfl) _)) (broken_error _) hopens
  have happ : shellAppMain (relist e t.entries (fun _ => EFI_DEVICE_ERROR) [])
      { m with partitionName := before } fuel command arg s =
      some (broken (t.lookup (name.map (·.toUInt16))), s₁) := by
    rw [← hrun, ← hname]
    rfl
  refine broken_inj ?_
  rcases hlookup : t.lookup arg with _ | h'
  · obtain ⟨s₂, hrun₂, -⟩ := hnone hlookup
    exact congrArg Prod.fst (Option.some.inj (happ.symm.trans hrun₂))
  · obtain ⟨s₂, hrun₂, -⟩ := runNamed_none { m with partitionName := before } fuel
      (saveName arg)
      ((openPartition_sole (relist e t.entries (fun _ => EFI_DEVICE_ERROR) []) h').trans
        (openHandle_broken (fun _ => rfl) _)) (broken_error _) hopens
    exact congrArg Prod.fst (Option.some.inj
      (happ.symm.trans ((hsome h' hlookup).trans hrun₂)))

/-- An argument that is found for every memory resolves. -/
lemma RightPartition.resolves (h : RightPartition e m fuel command t arg s)
    (hopens : Opens e m s command) : Resolves t arg := by
  by_cases hlen : arg.length < PARTITION_NAME_SIZE
  · refine Or.inr ⟨hlen, fun p hp hlow => ?_⟩
    obtain ⟨hzero, hshort, htext⟩ := unicodeStrToAsciiStrS_short [] hlen
    have hfound := h.isSome_eq hopens List.not_mem_nil rfl (hshort.trans (by decide)) hzero
    rw [htext, ← hlow, Table.lookup_of_mem hp] at hfound
    obtain ⟨p', -, harg⟩ := Table.mem_of_lookup hfound.symm
    calc p.1.string = lowBytes arg := hlow
      _ = lowBytes p'.1.string := by rw [harg]
      _ = p'.1.string := lowBytes_label p'.1
      _ = arg := harg
  · refine Or.inl ?_
    -- with another label in the buffer another partition is found
    by_contra hne
    obtain ⟨p, hp⟩ := List.exists_mem_of_ne_nil _ hne
    have hempty := h.isSome_eq hopens List.not_mem_nil (unicodeStrToAsciiStrS_long [] hlen)
      (by decide) List.not_mem_nil
    have hbytes : p.1.bytes.length < 60 := by
      have hfits := p.1.fits
      unfold PARTITION_NAME_MAX_LENGTH at hfits
      rw [Label.bytes, List.length_map]
      omega
    have hlabel := h.isSome_eq hopens p.1.zero_notMem_bytes
      (unicodeStrToAsciiStrS_long p.1.bytes hlen) hbytes p.1.zero_notMem_bytes
    rw [p.1.bytes_toUInt16, Table.lookup_of_mem hp] at hlabel
    rw [List.map_nil, t.lookup_nil, ← hlabel] at hempty
    exact absurd hempty Bool.false_ne_true

/-- A name that resolves opens the partition with this label. -/
lemma Resolves.openPartition {entries : List PartitionEntry} (h : Resolves t arg)
    (hl : t.Listed entries) (openBlockIo : Handle → Status) (before : List UInt16)
    (before' : List UInt8) :
    openPartition (relist e entries openBlockIo before).toServices
        (unicodeStrToAsciiStrS arg before' PARTITION_NAME_SIZE) =
      openHandle (relist e entries openBlockIo before).toServices (t.lookup arg) := by
  rcases h with hnil | ⟨hlen, hlow⟩
  · have hentries : entries = [] := by
      unfold Table.Listed at hl
      rw [hnil] at hl
      exact List.forall₂_nil_left_iff.mp hl
    have hnone : t.lookup arg = none := by
      unfold Table.lookup
      rw [hnil]
      rfl
    rw [hnone, openPartition_eq, show (relist e entries openBlockIo before).partitions = [] from
      hentries]
    rfl
  · obtain ⟨hzero, hshort, htext⟩ := unicodeStrToAsciiStrS_short before' hlen
    rw [openPartition_listed e openBlockIo before hl hshort hzero, htext,
      Resolves.lookup_lowBytes hlow]

/-- **The right partition.** A command acts on the partition with the label that was typed, and
reports that there is none otherwise, exactly if the argument fits the buffer and its low bytes are
no label that it is not itself, or there are no partitions; where the command does not come to open
one, exactly if there is one or its file is not found. -/
theorem shellAppMain_label_iff (e : PartModel.Services ε) (m : Locals) (fuel : ℕ)
    (command : Command) (t : Table) (arg : List UInt16) (s : PartModel.St ε) :
    RightPartition e m fuel command t arg s ↔
      (Opens e m s command → Resolves t arg) ∧
      (¬ Opens e m s command → t.lookup arg = none → ∃ fileName, command = .flash fileName ∧
        (loadFile e m.fileHeap fileName s).1 = (EFI_NOT_FOUND, none)) := by
  constructor
  · refine fun h => ⟨h.resolves, fun hopens hnone => ?_⟩
    obtain ⟨s', hrun, -⟩ := (h t.entries e.openBlockIo [] [] t.entries_listed List.not_mem_nil
      List.not_mem_nil).2 hnone
    exact runNamed_idle (e := relist e t.entries e.openBlockIo [])
      (m := { m with partitionName := [] }) hopens hrun
  · rintro ⟨hresolves, hfile⟩ entries openBlockIo before before' hl - -
    by_cases hopens : Opens e m s command
    · have hopen := (hresolves hopens).openPartition (e := e) hl openBlockIo before before'
      refine ⟨fun h hsome => ?_, fun hnone => ?_⟩
      · refine runNamed_same (sameDevices_sole _ h) (Or.inl ?_)
        rw [SameOpen, hopen, hsome, openPartition_sole]
      · rw [hnone] at hopen
        exact runNamed_none { m with partitionName := before' } fuel (saveName arg) hopen
          (efiError_maxBit 14) hopens
    · refine ⟨fun h _ => runNamed_same (sameDevices_sole _ h) (Or.inr hopens), fun hnone => ?_⟩
      obtain ⟨fileName, rfl, hmissing⟩ := hfile hopens hnone
      refine ⟨(loadFile e m.fileHeap fileName s).2, ?_, rfl, rfl⟩
      exact runNamed_flash_failed (e := relist e entries openBlockIo before)
        (m := { m with partitionName := before' }) fuel (saveName arg) (Prod.ext hmissing rfl)

end Commands

/-! ### A long argument -/

/-- The partition `boot` alone. -/
def bootTable : Table where
  partitions := [(⟨[98, 111, 111, 116], by decide, by decide, by simp⟩, 1)]
  distinct := List.nodup_singleton _

/-- A partition of one byte, and `boot` left in the buffer from before. -/
def oneByte : PartModel.Services Unit :=
  { memoryPartitions bootTable.entries with media := fun _ => ⟨0, 0, 1⟩ }

def bootLeft : Locals := ⟨[98, 111, 111, 116], fun _ => 0, fun _ => 0⟩

/-- With an argument of 36 characters, which is no label, `boot` is erased. -/
theorem shellAppMain_long_argument :
    ((shellAppMain oneByte bootLeft 1 .erase (List.replicate 36 120)
      ⟨(), fun _ _ => 255, fun _ => none, []⟩).map fun r => (r.1, r.2.content 1 0)) =
      some (EFI_SUCCESS, 0) ∧
    bootTable.lookup (List.replicate 36 120) = none ∧
    ¬ RightPartition oneByte bootLeft 1 .erase bootTable (List.replicate 36 120)
      ⟨(), fun _ _ => 255, fun _ => none, []⟩ := by
  refine ⟨by decide, by decide, fun h => ?_⟩
  rcases h.resolves trivial with hnil | ⟨hlen, -⟩
  · exact absurd hnil (List.cons_ne_nil _ _)
  · exact absurd hlen (by decide)

end UefiToolkit.PartLabel
