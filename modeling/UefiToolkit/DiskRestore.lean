import UefiToolkit.DiskModel

/-!
Saving, erasing and restoring the partition table.

On a disk on which everything succeeds, each operation comes to one change of the content and of
the files; the restore then is a matter of which ranges were changed.
-/

namespace UefiToolkit.DiskRestore

open UefiToolkit.Word UefiToolkit.Mem UefiToolkit.DiskModel
open UefiToolkit.SparseModel (Media)

/-- A disk that has room for both tables and whose blocks have 64-bit byte addresses. -/
structure Disk extends Media where
  divides : blockSize ∣ entriesSize
  apart : 2 * (entriesSize / blockSize) + 2 ≤ lastBlock
  addressable : lastBlock * blockSize < 2 ^ 64

/-- The blocks of one array of entries. -/
def Disk.entryBlocks (d : Disk) : ℕ := entriesSize / d.blockSize

def Disk.bytes (d : Disk) : ℕ := (d.lastBlock + 1) * d.blockSize

/-- The bytes of blocks `0` to `1 + entryBlocks`. -/
def Disk.primaryLength (d : Disk) : ℕ := (2 + d.entryBlocks) * d.blockSize

/-- Where block `lastBlock - entryBlocks` begins. -/
def Disk.secondaryStart (d : Disk) : ℕ := (d.lastBlock - d.entryBlocks) * d.blockSize

def Disk.secondaryLength (d : Disk) : ℕ := (1 + d.entryBlocks) * d.blockSize

/-- The blocks of the primary table. -/
def Disk.InPrimary (d : Disk) (lba : ℕ) : Prop := lba ≤ 1 + d.entryBlocks

/-- The blocks of the secondary table. -/
def Disk.InSecondary (d : Disk) (lba : ℕ) : Prop :=
  d.lastBlock - d.entryBlocks ≤ lba ∧ lba ≤ d.lastBlock

def Disk.InTable (d : Disk) (lba : ℕ) : Prop := d.InPrimary lba ∨ d.InSecondary lba

/-- The disk, the pool and the files do what is asked of them. -/
structure Sound {ε : Type} (e : Services ε) (bytes : ℕ) : Prop where
  allocates : ∀ s n, (e.allocateZeroPool s n).1 = true
  reads : ∀ s mem off len, off + len ≤ bytes →
    ∃ s', e.readDisk s mem off len = (EFI_SUCCESS, slice mem off len, s')
  writes : ∀ s mem off data, off + data.length ≤ bytes →
    ∃ s', e.writeDisk s mem off data = (EFI_SUCCESS, blit mem off data, s')
  exists_iff : ∀ s files name, efiError (e.shellFileExists s files name) = true ↔
    files name = none
  deletes : ∀ s files name, ∃ s', e.shellDeleteFileByName s files name =
    (Function.update files name none, s')
  opens : ∀ s files name create, files name ≠ none →
    ∃ s', e.shellOpenFileByName s files name create = (EFI_SUCCESS, files, s')
  creates : ∀ s files name, files name = none →
    ∃ s', e.shellOpenFileByName s files name true =
      (EFI_SUCCESS, Function.update files name (some []), s')
  sizes : ∀ s files name content, files name = some content →
    e.shellGetFileSize s files name = (EFI_SUCCESS, content.length)
  readsFile : ∀ s files name content n, files name = some content →
    ∃ s', e.shellReadFile s files name n = (EFI_SUCCESS, content.take n, s')
  writesFile : ∀ s files name content data, files name = some content →
    ∃ s', e.shellWriteFile s files name data =
      (EFI_SUCCESS, Function.update files name (some (data ++ content.drop data.length)), s')

/-! ### The bounds -/

section Bounds

variable (d : Disk)

lemma Disk.entryBlocks_mul : d.entryBlocks * d.blockSize = entriesSize :=
  Nat.div_mul_cancel d.divides

lemma Disk.blockSize_pos : 0 < d.blockSize :=
  Nat.pos_of_dvd_of_pos d.divides (by decide)

lemma Disk.blockSize_le : d.blockSize ≤ entriesSize := Nat.le_of_dvd (by decide) d.divides

lemma Disk.primarySize_eq : primarySize d.toMedia = d.primaryLength := by
  have hle := d.blockSize_le
  have hn : entriesSize = 16384 := rfl
  rw [primarySize, u32_of_lt (by omega), u64_of_lt (by omega), Disk.primaryLength, Nat.add_mul,
    d.entryBlocks_mul]

lemma Disk.secondarySize_eq : secondarySize d.toMedia = d.secondaryLength := by
  have hle := d.blockSize_le
  have hn : entriesSize = 16384 := rfl
  rw [secondarySize, u64_of_lt (by omega), Disk.secondaryLength, Nat.add_mul, d.entryBlocks_mul,
    Nat.one_mul]

/-- The blocks of the two tables fit on the disk one behind the other. -/
lemma Disk.two_add_entryBlocks_le : 2 + d.entryBlocks ≤ d.lastBlock - d.entryBlocks := by
  have h := d.apart
  unfold Disk.entryBlocks
  omega

lemma Disk.secondaryOffset_eq : secondaryOffset d.toMedia = d.secondaryStart := by
  have hroom := d.two_add_entryBlocks_le
  have hlt := d.addressable
  have hlast : d.lastBlock < 2 ^ 64 :=
    lt_of_le_of_lt (Nat.le_mul_of_pos_right _ d.blockSize_pos) hlt
  have hoff : d.secondaryStart < 2 ^ 64 :=
    lt_of_le_of_lt (Nat.mul_le_mul_right _ (Nat.sub_le _ _)) hlt
  rw [secondaryOffset, show entriesSize / d.blockSize = d.entryBlocks from rfl,
    sub64_of_le hlast (by omega)]
  exact u64_of_lt hoff

/-- The secondary table ends where the disk does. -/
lemma Disk.secondary_end : d.secondaryStart + d.secondaryLength = d.bytes := by
  have hroom := d.two_add_entryBlocks_le
  rw [Disk.secondaryStart, Disk.secondaryLength, ← Nat.add_mul, Disk.bytes]
  congr 1
  omega

/-- The primary table ends before the secondary one begins. -/
lemma Disk.primary_le_secondary : d.primaryLength ≤ d.secondaryStart :=
  Nat.mul_le_mul_right _ d.two_add_entryBlocks_le

lemma Disk.inPrimary_iff (i : ℕ) : d.InPrimary (i / d.blockSize) ↔ i < d.primaryLength := by
  rw [Disk.primaryLength, ← Nat.div_lt_iff_lt_mul d.blockSize_pos, Disk.InPrimary]
  omega

lemma Disk.inSecondary_iff (i : ℕ) : d.InSecondary (i / d.blockSize) ↔
    d.secondaryStart ≤ i ∧ i < d.bytes := by
  rw [Disk.secondaryStart, ← Nat.le_div_iff_mul_le d.blockSize_pos, Disk.bytes,
    ← Nat.div_lt_iff_lt_mul d.blockSize_pos, Disk.InSecondary, Nat.lt_succ_iff]

end Bounds

/-! ### The operations when all goes well -/

section Operations

variable {ε : Type} {e : Services ε} {bytes : ℕ} (h : Sound e bytes)
include h

lemma Sound.allocateZeroPool (n : ℕ) (s : St ε) :
    ∃ env, allocateZeroPool e n s = (true, { s with env := env }) :=
  ⟨_, Prod.ext (h.allocates s.env n) rfl⟩

lemma Sound.readDisk {off len : ℕ} (hin : off + len ≤ bytes) (s : St ε) :
    ∃ env, readDisk e off len s =
      (EFI_SUCCESS, slice s.content off len, { s.note (.readDisk off len) with env := env }) := by
  obtain ⟨env, hr⟩ := h.reads s.env s.content off len hin
  exact ⟨env, by rw [DiskModel.readDisk, hr]⟩

lemma Sound.writeDisk {off : ℕ} (data : List UInt8) (hin : off + data.length ≤ bytes)
    (s : St ε) : ∃ env, writeDisk e off data s = (EFI_SUCCESS,
      { s.note (.writeDisk off data) with content := blit s.content off data, env := env }) := by
  obtain ⟨env, hw⟩ := h.writes s.env s.content off data hin
  exact ⟨env, by rw [DiskModel.writeDisk, hw]⟩

/-- Whether it was there or not, the file is not there any more. -/
lemma Sound.removeFile (name : FileName) (s : St ε) :
    ∃ env files, removeFile e name s = { s with env := env, files := files } ∧
      files name = none ∧ ∀ other, other ≠ name → files other = s.files other := by
  unfold DiskModel.removeFile
  by_cases hex : efiError (e.shellFileExists s.env s.files name) = true
  · exact ⟨s.env, s.files, if_pos hex, (h.exists_iff _ _ _).mp hex, fun _ _ => rfl⟩
  · obtain ⟨env, hd⟩ := h.deletes s.env s.files name
    refine ⟨env, Function.update s.files name none, ?_, by simp, fun _ ho => by simp [ho]⟩
    rw [if_neg hex, hd]

/-- A file is replaced, or made, with the bytes as its content. -/
lemma Sound.saveFileToDisk (name : FileName) (data : List UInt8) (s : St ε) :
    ∃ env, saveFileToDisk e name data s = (EFI_SUCCESS,
      { s with env := env, files := Function.update s.files name (some data) }) := by
  obtain ⟨env₁, files, hs, hnone, hother⟩ := h.removeFile name s
  obtain ⟨env₂, hcreate⟩ := h.creates env₁ files name hnone
  obtain ⟨env₃, hwrite⟩ := h.writesFile env₂ (Function.update files name (some [])) name [] data
    (by simp)
  have ho : shellOpenFileByName e name true { s with env := env₁, files := files } =
      (EFI_SUCCESS, { s with env := env₂, files := Function.update files name (some []) }) := by
    rw [shellOpenFileByName, hcreate]
  have hfiles : Function.update files name (some data) =
      Function.update s.files name (some data) := by
    funext other
    by_cases hn : other = name
    · subst hn; simp
    · rw [Function.update_of_ne hn, Function.update_of_ne hn, hother other hn]
  have hw : shellWriteFile e name data
      { s with env := env₂, files := Function.update files name (some []) } =
      (EFI_SUCCESS, { s with env := env₃, files := Function.update s.files name (some data) }) := by
    rw [shellWriteFile, hwrite, List.drop_nil, List.append_nil, Function.update_idem, hfiles]
  refine ⟨env₃, ?_⟩
  unfold DiskModel.saveFileToDisk
  rw [hs, ho]
  dsimp only
  rw [if_neg not_efiError_success, hw]
  rfl

/-- What is read from a file is its content, with the heap behind it. -/
lemma Sound.readFileFromDisk (heap : ℕ → UInt8) {name : FileName} {content : List UInt8}
    {s : St ε} (hf : s.files name = some content) :
    ∃ env buffer, readFileFromDisk e heap name s =
        (EFI_SUCCESS, some ⟨content.length, buffer⟩, { s with env := env }) ∧
      slice buffer 0 content.length = content := by
  obtain ⟨env₁, hopen⟩ := h.opens s.env s.files name false (by simp [hf])
  obtain ⟨env₂, ha⟩ := h.allocateZeroPool content.length { s with env := env₁ }
  obtain ⟨env₃, hread⟩ := h.readsFile env₂ s.files name content content.length hf
  have ho : shellOpenFileByName e name false s = (EFI_SUCCESS, { s with env := env₁ }) := by
    rw [shellOpenFileByName, hopen]
  have hsize : shellGetFileSize e name { s with env := env₁ } = (EFI_SUCCESS, content.length) :=
    h.sizes env₁ s.files name content hf
  have hr : shellReadFile e name content.length { s with env := env₂ } =
      (EFI_SUCCESS, content, { s with env := env₃ }) := by
    rw [shellReadFile, hread, List.take_length]
  refine ⟨env₃, blit (blit heap 0 (List.replicate content.length 0)) 0 content, ?_,
    slice_blit _ 0 content⟩
  unfold DiskModel.readFileFromDisk
  rw [ho]
  dsimp only
  rw [if_neg not_efiError_success, hsize]
  dsimp only
  rw [if_neg not_efiError_success, ha]
  dsimp only
  rw [Bool.not_true, if_neg Bool.false_ne_true, hr]
  rfl

lemma Sound.writeDataToDisk (heap : ℕ → UInt8) {name : FileName} {content : List UInt8}
    {s : St ε} (hf : s.files name = some content) (off : ℕ)
    (hin : off + content.length ≤ bytes) :
    ∃ s', writeDataToDisk e heap name off 0 s = (EFI_SUCCESS, s') ∧ s'.files = s.files ∧
      s'.content = blit s.content off content := by
  obtain ⟨env₁, buffer, hr, hb⟩ := h.readFileFromDisk heap hf
  obtain ⟨env₂, hw⟩ := h.writeDisk content hin { s with env := env₁ }
  unfold DiskModel.writeDataToDisk
  rw [hr]
  dsimp only
  rw [if_pos rfl, hb, hw]
  dsimp only
  rw [if_neg not_efiError_success]
  exact ⟨_, rfl, rfl, rfl⟩

/-- Zeros over `[off, off + size)`. -/
lemma Sound.eraseRange (off size : ℕ) (hin : off + size ≤ bytes) (s : St ε) :
    ∃ s', eraseRange e off size s = (EFI_SUCCESS, s') ∧ s'.files = s.files ∧
      s'.content = blit s.content off (List.replicate size 0) := by
  obtain ⟨env₁, ha⟩ := h.allocateZeroPool size s
  obtain ⟨env₂, hw⟩ := h.writeDisk (List.replicate size 0) (by simpa using hin)
    { s with env := env₁ }
  unfold DiskModel.eraseRange
  rw [ha]
  dsimp only
  rw [Bool.not_true, if_neg Bool.false_ne_true, hw]
  exact ⟨_, rfl, rfl, rfl⟩

/-- The bytes of `[off, off + size)` are read once and are the file then. -/
lemma Sound.saveRange (name : FileName) (off size : ℕ) (hin : off + size ≤ bytes) (s : St ε) :
    ∃ s', saveRange e name off size s = (EFI_SUCCESS, s') ∧ s'.content = s.content ∧
      s'.files = Function.update s.files name (some (slice s.content off size)) ∧
      s'.trace = s.trace ++ [.readDisk off size] := by
  obtain ⟨env₁, ha⟩ := h.allocateZeroPool size s
  obtain ⟨env₂, hr⟩ := h.readDisk hin { s with env := env₁ }
  obtain ⟨env₃, hs⟩ := h.saveFileToDisk name (slice s.content off size)
    { s with env := env₂, trace := s.trace ++ [.readDisk off size] }
  unfold DiskModel.saveRange
  rw [ha]
  dsimp only
  rw [Bool.not_true, if_neg Bool.false_ne_true, hr]
  dsimp only
  rw [if_neg not_efiError_success, slice_blit_slice]
  exact ⟨_, hs, rfl, rfl, rfl⟩

end Operations

/-! ### The tables -/

/-- The content with both tables zeroed. -/
def Disk.erased (d : Disk) (m : ℕ → UInt8) : ℕ → UInt8 :=
  blit (blit m 0 (List.replicate d.primaryLength 0)) d.secondaryStart
    (List.replicate d.secondaryLength 0)

/-- Outside the two tables nothing is erased, inside them everything. -/
lemma Disk.erased_apply (d : Disk) (m : ℕ → UInt8) (i : ℕ) :
    (d.InTable (i / d.blockSize) → d.erased m i = 0) ∧
      (¬ d.InTable (i / d.blockSize) → d.erased m i = m i) := by
  rw [Disk.InTable, d.inPrimary_iff, d.inSecondary_iff, ← d.secondary_end]
  unfold Disk.erased
  constructor
  · intro hi
    by_cases hsec : d.secondaryStart ≤ i ∧ i < d.secondaryStart + d.secondaryLength
    · obtain ⟨k, rfl⟩ := Nat.exists_eq_add_of_le hsec.1
      rw [blit_in _ _ (by rw [List.length_replicate]; omega), List.getElem_replicate]
    · have hpri : i < d.primaryLength := hi.resolve_right hsec
      have h0 := blit_in m 0 (l := List.replicate d.primaryLength 0) (k := i)
        (by rwa [List.length_replicate])
      rw [blit_out _ (by rw [List.length_replicate]; omega)]
      simpa using h0
  · intro hi
    rw [blit_out _ (by rw [List.length_replicate]; omega),
      blit_out _ (by rw [List.length_replicate]; omega)]

/-- Both ranges written back restore the content. -/
lemma Disk.restored (d : Disk) (m : ℕ → UInt8) :
    blit (blit (d.erased m) 0 (slice m 0 d.primaryLength)) d.secondaryStart
      (slice m d.secondaryStart d.secondaryLength) = m := by
  refine Confined.blit_slice fun i hi => ?_
  unfold Disk.erased
  by_cases hp : i < d.primaryLength
  · have := blit_in (blit (blit m 0 (List.replicate d.primaryLength 0)) d.secondaryStart
      (List.replicate d.secondaryLength 0)) 0 (l := slice m 0 d.primaryLength) (k := i)
      (by rwa [slice_length])
    simpa using this
  · rw [blit_out _ (by rw [slice_length]; omega),
      blit_out _ (by rw [List.length_replicate]; omega),
      blit_out _ (by rw [List.length_replicate]; omega)]

lemma primarySave_ne_secondarySave :
    unicode "PrimarySave.bin" ≠ unicode "SecondarySave.bin" := fun h =>
  absurd (congrArg List.length h) (by simp [unicode])

section Tables

variable {ε : Type} {e : Services ε} {d : Disk} (h : Sound e d.bytes)
include h

lemma Sound.eraseGptTable (s : St ε) :
    ∃ s', eraseGptTable e (some d.toMedia) s = (EFI_SUCCESS, s') ∧ s'.files = s.files ∧
      s'.content = d.erased s.content := by
  have hend := d.secondary_end
  have hle := d.primary_le_secondary
  obtain ⟨s₁, h₁, hf₁, hc₁⟩ := h.eraseRange 0 d.primaryLength (by omega) s
  obtain ⟨s₂, h₂, hf₂, hc₂⟩ := h.eraseRange d.secondaryStart d.secondaryLength
    (by omega) s₁
  refine ⟨s₂.note .flushBlocks, ?_, hf₂.trans hf₁, by rw [Disk.erased, ← hc₁]; exact hc₂⟩
  unfold DiskModel.eraseGptTable
  dsimp only
  rw [d.primarySize_eq, d.secondarySize_eq, d.secondaryOffset_eq, h₁]
  dsimp only
  rw [if_neg not_efiError_success, h₂]
  rfl

lemma Sound.saveGptTable (s : St ε) :
    ∃ s', saveGptTable e (some d.toMedia) s = (EFI_SUCCESS, s') ∧ s'.content = s.content ∧
      s'.trace = s.trace ++ [.readDisk 0 d.primaryLength,
        .readDisk d.secondaryStart d.secondaryLength, .flushBlocks] ∧
      s'.files (unicode "PrimarySave.bin") = some (slice s.content 0 d.primaryLength) ∧
      s'.files (unicode "SecondarySave.bin") =
        some (slice s.content d.secondaryStart d.secondaryLength) := by
  have hend := d.secondary_end
  have hle := d.primary_le_secondary
  obtain ⟨s₁, h₁, hc₁, hf₁, ht₁⟩ := h.saveRange (unicode "PrimarySave.bin") 0
    d.primaryLength (by omega) s
  obtain ⟨s₂, h₂, hc₂, hf₂, ht₂⟩ := h.saveRange (unicode "SecondarySave.bin")
    d.secondaryStart d.secondaryLength (by omega) s₁
  refine ⟨s₂.note .flushBlocks, ?_, hc₂.trans hc₁, ?_, ?_, ?_⟩
  · unfold DiskModel.saveGptTable
    dsimp only
    rw [d.primarySize_eq, d.secondarySize_eq, d.secondaryOffset_eq, h₁]
    dsimp only
    rw [if_neg not_efiError_success, h₂]
    rfl
  · rw [St.note, ht₂, ht₁, List.append_assoc, List.append_assoc]
    rfl
  · rw [St.note, hf₂, Function.update_of_ne primarySave_ne_secondarySave, hf₁,
      Function.update_self]
  · rw [St.note, hf₂, Function.update_self, hc₁]

end Tables

/-- **The partition table saved, erased and restored.** Erasing zeroes exactly the blocks of the
two tables; saving reads exactly these and leaves the disk as it is; and the two saved files,
written back after an erasure, restore the disk. -/
theorem gptTable_restores (d : Disk) {ε : Type} (e : Services ε) (h : Sound e d.bytes)
    (s : St ε) :
    (∃ s', eraseGptTable e (some d.toMedia) s = (EFI_SUCCESS, s') ∧ s'.files = s.files ∧
      ∀ i, (d.InTable (i / d.blockSize) → s'.content i = 0) ∧
        (¬ d.InTable (i / d.blockSize) → s'.content i = s.content i)) ∧
    (∃ s', saveGptTable e (some d.toMedia) s = (EFI_SUCCESS, s') ∧ s'.content = s.content ∧
      s'.trace = s.trace ++ [.readDisk 0 d.primaryLength,
        .readDisk d.secondaryStart d.secondaryLength, .flushBlocks] ∧
      d.primaryLength ≤ d.bytes ∧ d.secondaryStart + d.secondaryLength = d.bytes) ∧
    ∀ heap heap' : ℕ → UInt8, ∃ s₁ s₂ s₃ s₄,
      saveGptTable e (some d.toMedia) s = (EFI_SUCCESS, s₁) ∧
      eraseGptTable e (some d.toMedia) s₁ = (EFI_SUCCESS, s₂) ∧
      writeDataToDisk e heap (unicode "PrimarySave.bin") 0 0 s₂ = (EFI_SUCCESS, s₃) ∧
      writeDataToDisk e heap' (unicode "SecondarySave.bin") d.secondaryStart 0 s₃ =
        (EFI_SUCCESS, s₄) ∧
      s₄.content = s.content := by
  have hend := d.secondary_end
  have hle := d.primary_le_secondary
  refine ⟨?_, ?_, fun heap heap' => ?_⟩
  · obtain ⟨s', he, hf, hc⟩ := h.eraseGptTable s
    exact ⟨s', he, hf, fun i => hc ▸ d.erased_apply s.content i⟩
  · obtain ⟨s', hs, hc, ht, -⟩ := h.saveGptTable s
    exact ⟨s', hs, hc, ht, by omega, hend⟩
  · obtain ⟨s₁, h₁, hc₁, -, hp, hq⟩ := h.saveGptTable s
    obtain ⟨s₂, h₂, hf₂, hc₂⟩ := h.eraseGptTable s₁
    rw [← hf₂] at hp hq
    obtain ⟨s₃, h₃, hf₃, hc₃⟩ := h.writeDataToDisk heap hp 0
      (by rw [slice_length]; omega)
    rw [← hf₃] at hq
    obtain ⟨s₄, h₄, -, hc₄⟩ := h.writeDataToDisk heap' hq d.secondaryStart
      (by rw [slice_length, hend])
    refine ⟨s₁, s₂, s₃, s₄, h₁, h₂, h₃, h₄, ?_⟩
    rw [hc₄, hc₃, hc₂, hc₁, d.restored]

/-- A disk and files kept in memory. -/
def memoryServices : Services Unit where
  allocateZeroPool _ _ := (true, ())
  readDisk _ mem off len := (EFI_SUCCESS, slice mem off len, ())
  writeDisk _ mem off data := (EFI_SUCCESS, blit mem off data, ())
  shellFileExists _ files name := if files name = none then EFI_NOT_FOUND else EFI_SUCCESS
  shellDeleteFileByName _ files name := (Function.update files name none, ())
  shellOpenFileByName _ files name create :=
    match files name, create with
    | some _, _ => (EFI_SUCCESS, files, ())
    | none, true => (EFI_SUCCESS, Function.update files name (some []), ())
    | none, false => (EFI_NOT_FOUND, files, ())
  shellGetFileSize _ files name := (EFI_SUCCESS, ((files name).getD []).length)
  shellReadFile _ files name n := (EFI_SUCCESS, ((files name).getD []).take n, ())
  shellWriteFile _ files name data := (EFI_SUCCESS,
    Function.update files name (some (data ++ ((files name).getD []).drop data.length)), ())

lemma memoryServices_sound (bytes : ℕ) : Sound memoryServices bytes where
  allocates _ _ := rfl
  reads _ _ _ _ _ := ⟨(), rfl⟩
  writes _ _ _ _ _ := ⟨(), rfl⟩
  exists_iff _ files name := by
    simp only [memoryServices]
    split_ifs with h
    · exact ⟨fun _ => h, fun _ => by decide⟩
    · exact ⟨fun h' => absurd h' (by decide), fun h' => absurd h' h⟩
  deletes _ _ _ := ⟨(), rfl⟩
  opens _ files name create h := by
    obtain ⟨content, hc⟩ := Option.ne_none_iff_exists'.mp h
    exact ⟨(), by simp [memoryServices, hc]⟩
  creates _ files name h := ⟨(), by simp [memoryServices, h]⟩
  sizes _ files name content h := by simp [memoryServices, h]
  readsFile _ files name content n h := ⟨(), by simp [memoryServices, h]⟩
  writesFile _ files name content data h := ⟨(), by simp [memoryServices, h]⟩

/-- The smallest disk with blocks of 512 bytes. -/
def smallDisk : Disk where
  mediaId := 0
  lastBlock := 66
  blockSize := 512
  divides := by decide
  apart := by decide
  addressable := by decide

theorem gptTable_restores_small : Sound memoryServices smallDisk.bytes ∧
    ∃ s₁ s₂ s₃ s₄,
      saveGptTable memoryServices (some smallDisk.toMedia)
        ⟨(), fun i => UInt8.ofNat i, fun _ => none, []⟩ = (EFI_SUCCESS, s₁) ∧
      eraseGptTable memoryServices (some smallDisk.toMedia) s₁ = (EFI_SUCCESS, s₂) ∧
      writeDataToDisk memoryServices (fun _ => 0xAF) (unicode "PrimarySave.bin") 0 0 s₂ =
        (EFI_SUCCESS, s₃) ∧
      writeDataToDisk memoryServices (fun _ => 0xAF) (unicode "SecondarySave.bin")
        smallDisk.secondaryStart 0 s₃ = (EFI_SUCCESS, s₄) ∧
      s₄.content = fun i => UInt8.ofNat i :=
  ⟨memoryServices_sound _, (gptTable_restores smallDisk memoryServices (memoryServices_sound _)
    ⟨(), fun i => UInt8.ofNat i, fun _ => none, []⟩).2.2 (fun _ => 0xAF) fun _ => 0xAF⟩

end UefiToolkit.DiskRestore
