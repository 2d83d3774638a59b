import UefiToolkit.PartErase

/-!
The file a partition is saved to.

Its name is formatted into a buffer whose size is given in bytes, where the formatter counts
characters of two bytes: what does not fit is dropped, and a file that is there is replaced.
-/

namespace UefiToolkit.PartSave

open UefiToolkit.Word UefiToolkit.Mem UefiToolkit.SparseModel UefiToolkit.PartModel
open UefiToolkit.DiskModel (FileName unicode saveFileToDisk)
open UefiToolkit.DiskRestore (Sound)
open UefiToolkit.PartErase (memoryPartitions labelled)

variable {ε : Type} {e : PartModel.Services ε} {m : Locals} {h h' : Handle}
  {a b : List UInt16} {f g : FileName}

/-! ### The name -/

/-- `<name>.bin`. -/
def binName (name : List UInt16) : FileName := name ++ unicode ".bin"

lemma binName_length (name : List UInt16) : (binName name).length = name.length + 4 :=
  List.length_append

lemma binName_inj : binName a = binName b ↔ a = b := List.append_left_inj _

/-- The first seventeen characters of the name are left. -/
lemma unicodeSPrint_eq (text : List UInt16) : unicodeSPrint 36 text = text.take 17 := rfl

lemma unicodeSPrint_binName_iff :
    unicodeSPrint 36 (binName a) = binName a ↔ a.length ≤ 13 := by
  rw [unicodeSPrint_eq, List.take_eq_self_iff, binName_length]
  omega

/-! ### Saving -/

/-- The files, the pool and the partition do what is asked of them. -/
structure Saves (e : PartModel.Services ε) (h : Handle) : Prop where
  files : Sound e.files 0
  reads : ∀ s mem, ∃ s', e.readDisk s h mem 0 (e.media h).partitionSize =
    (EFI_SUCCESS, slice mem 0 (e.media h).partitionSize, s')
  fits : (e.media h).partitionSize ≤ SIZE_2GB

/-- The name that was typed is one that `OpenPartition` finds. -/
def Accepted (e : PartModel.Services ε) (m : Locals) (name : List UInt16) (h : Handle) : Prop :=
  openPartition e.toServices
    (unicodeStrToAsciiStrS name m.partitionName PARTITION_NAME_SIZE) = (EFI_SUCCESS, some h)

instance (name : List UInt16) : Decidable (Accepted e m name h) :=
  inferInstanceAs (Decidable (_ = _))

/-- `savepart` with this name puts the content of the partition into that file, and leaves the
other files alone. -/
def SavedAs (e : PartModel.Services ε) (m : Locals) (name : List UInt16) (h : Handle)
    (file : FileName) : Prop :=
  ∀ (fuel : ℕ) (s : PartModel.St ε), ∃ s',
    shellAppMain e m fuel .savepart name s = some (EFI_SUCCESS, s') ∧
    s'.content = s.content ∧
    s'.files = Function.update s.files file
      (some (slice (s.content h) 0 (e.media h).partitionSize))

/-- A file is replaced, or made, and the partitions are left alone. -/
lemma onFiles_saveFileToDisk (hs : Sound e.files 0) (file : FileName) (data : List UInt8)
    (s : PartModel.St ε) :
    ∃ env, onFiles (saveFileToDisk e.files file data) s =
      (EFI_SUCCESS, { s with env := env, files := Function.update s.files file (some data) }) := by
  obtain ⟨env, hsave⟩ := hs.saveFileToDisk file data ⟨s.env, fun _ => 0, s.files, []⟩
  refine ⟨env, ?_⟩
  unfold onFiles
  rw [hsave]

lemma savePartitionData_saves (hs : Saves e h) {name : List UInt8}
    (hopen : openPartition e.toServices name = (EFI_SUCCESS, some h)) (file : FileName)
    (s : PartModel.St ε) :
    ∃ s', savePartitionData e name file s = (EFI_SUCCESS, s') ∧ s'.content = s.content ∧
      s'.files = Function.update s.files file
        (some (slice (s.content h) 0 (e.media h).partitionSize)) := by
  have halloc : (allocateZeroPool e (e.media h).partitionSize s).1 = true :=
    hs.files.allocates s.env _
  obtain ⟨env, hread⟩ := hs.reads (allocateZeroPool e (e.media h).partitionSize s).2.env
    (s.content h)
  have hdata : PartModel.readDisk e h 0 (e.media h).partitionSize
      (allocateZeroPool e (e.media h).partitionSize s).2 =
      (EFI_SUCCESS, slice (s.content h) 0 (e.media h).partitionSize,
        { s.note (.readDisk h 0 (e.media h).partitionSize) with env := env }) := by
    unfold PartModel.readDisk
    rw [show (allocateZeroPool e (e.media h).partitionSize s).2.content h = s.content h from rfl,
      hread]
    rfl
  obtain ⟨env', hsave⟩ := onFiles_saveFileToDisk hs.files file
    (slice (s.content h) 0 (e.media h).partitionSize)
    { s.note (.readDisk h 0 (e.media h).partitionSize) with env := env }
  unfold savePartitionData
  rw [hopen]
  dsimp only
  rw [if_neg (Nat.not_lt.mpr hs.fits), halloc, Bool.not_true, if_neg Bool.false_ne_true, hdata]
  dsimp only
  rw [if_neg not_efiError_success, slice_blit_slice, hsave]
  exact ⟨_, rfl, rfl, rfl⟩

/-- A partition is saved under what the formatter leaves of its file name. -/
lemma savedAs_take (hs : Saves e h) (ha : Accepted e m a h) :
    SavedAs e m a h ((binName a).take 17) := by
  intro fuel s
  obtain ⟨s', hrun, hrest⟩ := savePartitionData_saves hs ha ((binName a).take 17) s
  refine ⟨s', ?_, hrest⟩
  unfold shellAppMain runNamed
  dsimp only
  rw [show a ++ unicode ".bin" = binName a from rfl, unicodeSPrint_eq, hrun,
    if_neg not_efiError_success]

lemma SavedAs.unique [Nonempty ε] (hf : SavedAs e m a h f) (hg : SavedAs e m a h g) : f = g := by
  obtain ⟨env⟩ := ‹Nonempty ε›
  obtain ⟨s₁, hrun₁, -, hfiles₁⟩ := hf 0 ⟨env, fun _ _ => 0, fun _ => none, []⟩
  obtain ⟨s₂, hrun₂, -, hfiles₂⟩ := hg 0 ⟨env, fun _ _ => 0, fun _ => none, []⟩
  obtain rfl : s₁ = s₂ := congrArg Prod.snd (Option.some.inj (hrun₁.symm.trans hrun₂))
  by_contra hne
  have hin := congrFun hfiles₁ f
  rw [hfiles₂, Function.update_self, Function.update_of_ne hne] at hin
  exact Option.some_ne_none _ hin.symm

/-- **The file of a partition.** Two partitions are saved under their own names, and those with
different names to different files, exactly if neither name has more than thirteen characters. -/
theorem shellAppMain_savepart_iff [Nonempty ε] (e : PartModel.Services ε) (m : Locals)
    (a b : List UInt16) (h h' : Handle) (hs : Saves e h) (hs' : Saves e h')
    (ha : Accepted e m a h) (hb : Accepted e m b h') :
    (SavedAs e m a h (binName a) ∧ SavedAs e m b h' (binName b) ∧
      (a ≠ b → ∀ f g, SavedAs e m a h f → SavedAs e m b h' g → f ≠ g)) ↔
      a.length ≤ 13 ∧ b.length ≤ 13 := by
  constructor
  · rintro ⟨hfa, hfb, -⟩
    exact ⟨unicodeSPrint_binName_iff.mp ((savedAs_take hs ha).unique hfa),
      unicodeSPrint_binName_iff.mp ((savedAs_take hs' hb).unique hfb)⟩
  · rintro ⟨hna, hnb⟩
    have hfa : SavedAs e m a h (binName a) :=
      unicodeSPrint_binName_iff.mpr hna ▸ savedAs_take hs ha
    have hfb : SavedAs e m b h' (binName b) :=
      unicodeSPrint_binName_iff.mpr hnb ▸ savedAs_take hs' hb
    refine ⟨hfa, hfb, fun hne f g hf hg hfg => hne (binName_inj.mp ?_)⟩
    calc binName a = f := hfa.unique hf
      _ = g := hfg
      _ = binName b := hg.unique hfb

lemma memoryPartitions_saves (partitions : List PartitionEntry) (h : Handle) :
    Saves (memoryPartitions partitions) h where
  files := DiskRestore.memoryServices_sound 0
  reads _ _ := ⟨(), rfl⟩
  fits := show Media.partitionSize ⟨0, 7, 512⟩ ≤ SIZE_2GB by decide

/-- Nothing is in memory before the program stores anything. -/
def blank : Locals := ⟨[], fun _ => 0, fun _ => 0⟩

theorem shellAppMain_savepart_iff_boot :
    SavedAs (memoryPartitions [labelled "boot" 1, labelled "root" 2]) blank (unicode "boot") 1
      (unicode "boot.bin") ∧
    SavedAs (memoryPartitions [labelled "boot" 1, labelled "root" 2]) blank (unicode "root") 2
      (unicode "root.bin") := by
  have h := (shellAppMain_savepart_iff
    (memoryPartitions [labelled "boot" 1, labelled "root" 2]) blank (unicode "boot")
    (unicode "root") 1 2 (memoryPartitions_saves _ 1) (memoryPartitions_saves _ 2) (by decide)
    (by decide)).mpr (by decide)
  exact ⟨h.1, h.2.1⟩

/-- Two partitions whose names agree in seventeen characters. -/
def longNames : PartModel.Services Unit :=
  memoryPartitions [labelled "system_partition_a" 1, labelled "system_partition_b" 2]

/-- The copy of the one replaces that of the other. -/
theorem shellAppMain_savepart_same_file :
    Accepted longNames blank (unicode "system_partition_a") 1 ∧
    Accepted longNames blank (unicode "system_partition_b") 2 ∧
    SavedAs longNames blank (unicode "system_partition_a") 1 (unicode "system_partition_") ∧
    SavedAs longNames blank (unicode "system_partition_b") 2 (unicode "system_partition_") ∧
    ¬ SavedAs longNames blank (unicode "system_partition_a") 1
      (binName (unicode "system_partition_a")) := by
  have ha : Accepted longNames blank (unicode "system_partition_a") 1 := by decide
  have hb : Accepted longNames blank (unicode "system_partition_b") 2 := by decide
  have hsa := savedAs_take (memoryPartitions_saves _ 1) ha
  have hsb := savedAs_take (memoryPartitions_saves _ 2) hb
  exact ⟨ha, hb, hsa, hsb, fun h => absurd (hsa.unique h) (by decide)⟩

end UefiToolkit.PartSave
