import UefiToolkit.SparseImage
import UefiToolkit.DiskModel

/-!
Which bytes of a loaded file are used when it is flashed to a partition or written to the disk.

A flash looks at the magic, at the file header behind it, and then at what the chunks take. The
size of the file stops none of this: what counts is where the walk over the chunks ends.
-/

namespace UefiToolkit.SparseBounds

open UefiToolkit.Word UefiToolkit.Mem UefiToolkit.SparseModel UefiToolkit.SparseImage
open UefiToolkit.DiskModel (Loaded readFileFromDisk writeDataToDisk)

/-- `sizeof (SPARSE_HEADER)`. -/
def sparseHeaderLen : ℕ := 28

/-- The file is taken for a sparse image. -/
def IsSparse (f : Loaded) : Prop := (sparseHeader f.buffer).magic = SPARSE_HEADER_MAGIC

/-- A flash with these events uses bytes of the loaded buffer only. -/
structure Inside (f : Loaded) (l : List Event) : Prop where
  magic : 4 ≤ f.bufferSize
  fileHeader : IsSparse f → sparseHeaderLen ≤ f.bufferSize
  chunkHeader : ∀ k off, .chunkHeader k off ∈ l → off + chunkHeaderLen ≤ f.bufferSize
  payload : ∀ k off len, .payload k off len ∈ l → 0 < len → off + len ≤ f.bufferSize
  plain : ¬ IsSparse f → ∀ h off data, .writeDisk h off data ∈ l →
    data <+: slice f.buffer 0 f.bufferSize

/-! ### Where the walk ends -/

/-- Where the bytes end that a walk over `n` chunks uses. -/
def walkEnd (img : ℕ → UInt8) : ℕ → ℕ
  | 0 => 0
  | n + 1 =>
    let pos := walkPos img (sparseHeader img).fileHeaderSize n
    pos + chunkHeaderLen + taken img pos

/-- The file is long enough for its magic, its header and the walk over its chunks. -/
def Complete (f : Loaded) : Prop :=
  4 ≤ f.bufferSize ∧ (IsSparse f → sparseHeaderLen ≤ f.bufferSize ∧
    ((sparseHeader f.buffer).majorVersion = 1 →
      walkEnd f.buffer (sparseHeader f.buffer).totalChunks ≤ f.bufferSize))

lemma taken_le_advance (img : ℕ → UInt8) (pos : ℕ) : taken img pos ≤ advance img pos := by
  unfold taken advance
  by_cases hraw : (chunkHeaderAt img pos).chunkType = CHUNK_TYPE_RAW
  · rw [if_pos hraw, if_pos hraw]
    exact Nat.mod_le _ _
  · rw [if_neg hraw, if_neg hraw]
    split_ifs <;> omega

lemma walkPos_le_add (img : ℕ → UInt8) (pos j d : ℕ) :
    walkPos img pos j ≤ walkPos img pos (j + d) := by
  induction d with
  | zero => exact le_rfl
  | succ d ih =>
    calc walkPos img pos j ≤ walkPos img pos (j + d) := ih
      _ ≤ walkPos img pos (j + d) + chunkHeaderLen + advance img (walkPos img pos (j + d)) := by
        omega
      _ = walkPos img pos (j + (d + 1)) := (walkPos_succ img pos (j + d)).symm

/-- What any chunk uses ends before the walk does. -/
lemma chunk_le_walkEnd (img : ℕ → UInt8) {n j : ℕ} (h : j < n) :
    walkPos img (sparseHeader img).fileHeaderSize j + chunkHeaderLen +
      taken img (walkPos img (sparseHeader img).fileHeaderSize j) ≤ walkEnd img n := by
  obtain ⟨d, rfl⟩ := Nat.exists_eq_add_of_lt h
  cases d with
  | zero => exact le_rfl
  | succ d =>
    have htake := taken_le_advance img (walkPos img (sparseHeader img).fileHeaderSize j)
    have hnext := walkPos_succ img (sparseHeader img).fileHeaderSize j
    have hmono := walkPos_le_add img (sparseHeader img).fileHeaderSize (j + 1) d
    have hend : walkPos img (sparseHeader img).fileHeaderSize (j + 1 + d) ≤
        walkEnd img (j + (d + 1) + 1) := by
      rw [walkEnd, show j + (d + 1) = j + 1 + d by omega]
      omega
    omega

/-! ### Flashing -/

lemma flashPartition_inside {f : Loaded} (hf : Complete f) {ε : Type} (e : Services ε)
    (heap : ℕ → UInt8) (name : List UInt8) (s : St ε) :
    ∃ l, (flashPartition e heap name f.bufferSize (some f.buffer) s).2.trace = s.trace ++ l ∧
      Inside f l := by
  obtain ⟨hmagic, hsparse⟩ := hf
  unfold flashPartition
  dsimp only
  split_ifs with hm hv
  · exact ⟨[], by simp, hmagic, fun h => (hsparse h).1, by simp, by simp, fun h => absurd hm h⟩
  · unfold flashSparseImage
    dsimp only
    split_ifs
    · exact ⟨[], by simp, hmagic, fun h => (hsparse h).1, by simp, by simp, fun h => absurd hm h⟩
    · obtain ⟨l, ht, hread, -⟩ := chunkLoop_events e name f.buffer
        (sparseHeader f.buffer).totalChunks 0 ⟨EFI_SUCCESS, (sparseHeader f.buffer).fileHeaderSize,
          0, heap, { s with env := (e.allocatePool s.env FILL_BUF_SIZE).2 }⟩
      dsimp only at hread
      have hend := (hsparse hm).2 (not_not.mp hv)
      refine ⟨l, ht, hmagic, fun h => (hsparse h).1, ?_, ?_, fun h => absurd hm h⟩
      · intro k off hk
        rcases hread _ hk with hd | ⟨j, hj, hev | hev⟩
        · exact hd.elim
        · injection hev with _ hoff
          have := chunk_le_walkEnd f.buffer hj
          omega
        · injection hev
      · intro k off len hk _
        rcases hread _ hk with hd | ⟨j, hj, hev | hev⟩
        · exact hd.elim
        · injection hev
        · injection hev with _ hoff hlen
          have := chunk_le_walkEnd f.buffer hj
          omega
  · obtain ⟨l, ht, hd, hdata⟩ :=
      writePartition_events e name 0 (slice f.buffer 0 f.bufferSize) s
    refine ⟨l, ht, hmagic, fun h => absurd h hm, fun k off hk => (hd _ hk).elim,
      fun k off len hk => (hd _ hk).elim, fun _ h off data hk => ?_⟩
    rw [hdata h off data hk]

/-- On a disk with room every chunk is read, the last one too. -/
lemma complete_of_inside {f : Loaded} {l : List Event}
    (ht : (flashPartition roomy (fun _ => 0) [] f.bufferSize (some f.buffer)
      ⟨(), fun _ _ => 0, []⟩).2.trace = l) (hin : Inside f l) : Complete f := by
  refine ⟨hin.magic, fun hm => ⟨hin.fileHeader hm, fun hv => ?_⟩⟩
  have hmagic : (sparseHeader f.buffer).magic = SPARSE_HEADER_MAGIC := hm
  unfold flashPartition at ht
  dsimp only at ht
  rw [if_pos hmagic, if_neg (not_not.mpr hv)] at ht
  cases hn : (sparseHeader f.buffer).totalChunks with
  | zero => exact Nat.zero_le _
  | succ n =>
    obtain ⟨l', ht', -, hread⟩ := chunkLoop_events roomy [] f.buffer
      (sparseHeader f.buffer).totalChunks 0
      ⟨EFI_SUCCESS, (sparseHeader f.buffer).fileHeaderSize, 0, fun _ => 0, ⟨(), fun _ _ => 0, []⟩⟩
    obtain rfl : l' = l := ht'.symm.trans ht
    dsimp only at hread
    have hlast := hread (by
      rw [chunkLoop_roomy _ _ _ rfl]
      exact not_efiError_success) n (by omega)
    have hhead := hin.chunkHeader _ _ hlast.1
    rw [walkEnd]
    by_cases h0 : 0 < taken f.buffer (walkPos f.buffer (sparseHeader f.buffer).fileHeaderSize n)
    · exact hin.payload _ _ _ (hlast.2 h0) h0
    · omega

/-! ### Writing -/

section Write

variable {ε : Type} (e : DiskModel.Services ε)

lemma readFileFromDisk_trace (heap : ℕ → UInt8) (fileName : DiskModel.FileName)
    (s : DiskModel.St ε) : (readFileFromDisk e heap fileName s).2.2.trace = s.trace := by
  unfold readFileFromDisk
  dsimp only
  split_ifs <;> rfl

/-- What is asked to be written is the buffer from its start on. -/
lemma writeDataToDisk_trace {f : Loaded} {heap : ℕ → UInt8} {fileName : DiskModel.FileName}
    {s : DiskModel.St ε} (h : (readFileFromDisk e heap fileName s).2.1 = some f)
    (offset size : ℕ) : ∃ l, (writeDataToDisk e heap fileName offset size s).2.trace =
      s.trace ++ .writeDisk offset (slice f.buffer 0 (if size = 0 then f.bufferSize else size)) ::
        l ∧ ∀ off data, .writeDisk off data ∉ l := by
  have htr := readFileFromDisk_trace e heap fileName s
  unfold writeDataToDisk
  split
  · next st s' hread => simp [hread] at h
  · next st f' s' hread =>
    rw [hread] at h htr
    obtain rfl : f' = f := Option.some.inj h
    dsimp only at htr ⊢
    generalize (if size = 0 then f'.bufferSize else size) = n
    unfold DiskModel.writeDisk DiskModel.St.note
    dsimp only
    split_ifs
    · exact ⟨[], by rw [htr], by simp⟩
    · exact ⟨[.flushBlocks], by rw [htr, List.append_assoc]; rfl, by simp⟩

end Write

/-- Services that load exactly `f`. -/
def loading (f : Loaded) : DiskModel.Services Unit where
  allocateZeroPool _ _ := (true, ())
  readDisk _ mem off len := (EFI_SUCCESS, slice mem off len, ())
  writeDisk _ mem off data := (EFI_SUCCESS, blit mem off data, ())
  shellFileExists _ _ _ := EFI_SUCCESS
  shellDeleteFileByName _ files _ := (files, ())
  shellOpenFileByName _ files _ _ := (EFI_SUCCESS, files, ())
  shellGetFileSize _ _ _ := (EFI_SUCCESS, f.bufferSize)
  shellReadFile _ _ _ _ := (EFI_SUCCESS, slice f.buffer 0 f.bufferSize, ())
  shellWriteFile _ files _ _ := (EFI_SUCCESS, files, ())

lemma readFileFromDisk_loading (f : Loaded) (fileName : DiskModel.FileName)
    (s : DiskModel.St Unit) :
    (readFileFromDisk (loading f) f.buffer fileName s).2.1 = some f := by
  have hbuf : blit (blit f.buffer 0 (List.replicate f.bufferSize 0)) 0
      (slice f.buffer 0 f.bufferSize) = f.buffer :=
    ((Confined.refl 0 (0 + f.bufferSize) f.buffer).blit (by simp)).blit_slice
  simp only [readFileFromDisk, loading, DiskModel.shellOpenFileByName, DiskModel.shellGetFileSize,
    DiskModel.allocateZeroPool, DiskModel.shellReadFile, efiError_success, hbuf, slice_length]
  rfl

/-- **Bytes of a loaded file.** Whatever the disk does, a flash of the file uses bytes of the
loaded buffer only, exactly if the buffer holds all that the walk over the chunks uses; so does a
write with an explicit size, exactly if the size is at most the buffer's. -/
theorem loaded_access_iff (f : Loaded) (size : ℕ) :
    ((∀ (ε : Type) (e : Services ε) (heap : ℕ → UInt8) (name : List UInt8) (s : St ε),
      ∃ l, (flashPartition e heap name f.bufferSize (some f.buffer) s).2.trace = s.trace ++ l ∧
        Inside f l) ↔ Complete f) ∧
    ((∀ (ε : Type) (e : DiskModel.Services ε) (heap : ℕ → UInt8) (fileName : DiskModel.FileName)
        (offset : ℕ) (s : DiskModel.St ε),
      (readFileFromDisk e heap fileName s).2.1 = some f →
      ∃ l, (writeDataToDisk e heap fileName offset size s).2.trace = s.trace ++ l ∧
        ∀ off data, .writeDisk off data ∈ l → data <+: slice f.buffer 0 f.bufferSize) ↔
      size ≤ f.bufferSize) := by
  refine ⟨⟨fun hall => ?_, fun hf ε e heap name s => flashPartition_inside hf e heap name s⟩,
    ⟨fun hall => ?_, fun hle ε e heap fileName offset s h => ?_⟩⟩
  · obtain ⟨l, ht, hin⟩ := hall Unit roomy (fun _ => 0) [] ⟨(), fun _ _ => 0, []⟩
    exact complete_of_inside ht hin
  · have hread := readFileFromDisk_loading f [] ⟨(), fun _ => 0, fun _ => none, []⟩
    obtain ⟨l, ht, hin⟩ := hall Unit (loading f) f.buffer [] 0
      ⟨(), fun _ => 0, fun _ => none, []⟩ hread
    obtain ⟨l', ht', -⟩ := writeDataToDisk_trace (loading f) hread 0 size
    have hl := List.append_cancel_left (ht.symm.trans ht')
    have hpre := (hin 0 _ (hl ▸ List.mem_cons_self)).length_le
    simp only [slice_length] at hpre
    split_ifs at hpre with h0
    · omega
    · exact hpre
  · obtain ⟨l, ht, hrest⟩ := writeDataToDisk_trace e h offset size
    refine ⟨_, ht, fun off data hmem => ?_⟩
    rcases List.mem_cons.mp hmem with heq | hmem
    · injection heq with _ hdata
      have hshort : (if size = 0 then f.bufferSize else size) ≤ f.bufferSize := by
        split_ifs <;> omega
      rw [hdata, ← slice_take _ _ hshort]
      exact List.take_prefix _ _
    · exact absurd hmem (hrest off data)

/-- The header of an image with four-byte blocks, and the header of a RAW chunk of one block
with nothing behind it; then what stands in the heap. -/
def cutImage (i : ℕ) : UInt8 :=
  ([0x3A, 0xFF, 0x26, 0xED, 1, 0, 0, 0, 28, 0, 12, 0, 4, 0, 0, 0, 1, 0, 0, 0, 1, 0, 0, 0,
    0, 0, 0, 0,
    0xC1, 0xCA, 0, 0, 1, 0, 0, 0, 16, 0, 0, 0] : List UInt8).getD i 0xAF

/-- Four bytes of the heap go to the disk. -/
theorem flashPartition_heap :
    flashPartition roomy (fun _ => 0) [] 40 (some cutImage) ⟨(), fun _ _ => 0, []⟩ =
      (EFI_SUCCESS, ⟨(), Function.update (fun _ _ => 0) 0 (blit (fun _ => 0) 0
          [0xAF, 0xAF, 0xAF, 0xAF]),
        [.chunkHeader 0 28, .payload 0 40 4, .writeDisk 0 0 [0xAF, 0xAF, 0xAF, 0xAF],
          .flushBlocks 0]⟩) ∧
    ¬ Inside ⟨40, cutImage⟩ [.chunkHeader 0 28, .payload 0 40 4,
      .writeDisk 0 0 [0xAF, 0xAF, 0xAF, 0xAF], .flushBlocks 0] := by
  refine ⟨rfl, fun h => ?_⟩
  exact absurd (h.payload 0 40 4 (by simp) (by decide)) (by decide)

end UefiToolkit.SparseBounds
