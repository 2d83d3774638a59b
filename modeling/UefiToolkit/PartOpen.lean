import UefiToolkit.PartModel
import UefiToolkit.SparseImage

/-!
The list of the partitions is looked at when a partition is opened, and nowhere else.

What a command does follows from what its name opens. A name that opens nothing ends a command
with the status of the attempt, if the command comes that far.
-/

namespace UefiToolkit.PartOpen

open UefiToolkit.Word UefiToolkit.Loop UefiToolkit.Mem UefiToolkit.SparseModel
open UefiToolkit.SparseImage UefiToolkit.PartModel
open UefiToolkit.DiskModel (FileName Loaded)

variable {ε : Type}

/-! ### The same disks under another list -/

/-- What stands behind the partitions is the same. -/
structure SameDevices (e e' : PartModel.Services ε) : Prop where
  media : e.media = e'.media
  allocatePool : e.allocatePool = e'.allocatePool
  writeDisk : e.writeDisk = e'.writeDisk
  files : e.files = e'.files
  readDisk : e.readDisk = e'.readDisk
  writeBlocks : e.writeBlocks = e'.writeBlocks

/-- The names open the same. -/
def SameOpen (e e' : PartModel.Services ε) (name name' : List UInt8) : Prop :=
  openPartition e.toServices name = openPartition e'.toServices name'

section Same

variable {e e' : PartModel.Services ε} {name name' : List UInt8} {img : ℕ → UInt8}

lemma writePartition_same (hd : SameDevices e e') (hopen : SameOpen e e' name name') (off : ℕ)
    (data : List UInt8) (s : SparseModel.St ε) :
    writePartition e.toServices name off data s =
      writePartition e'.toServices name' off data s := by
  unfold SameOpen at hopen
  unfold writePartition
  rw [hopen, hd.media, hd.writeDisk]

lemma fillPiece_same (hd : SameDevices e e') (hopen : SameOpen e e' name name') (k left : ℕ)
    (w : Walk ε) :
    fillPiece e.toServices name img k left w = fillPiece e'.toServices name' img k left w := by
  unfold fillPiece
  dsimp only
  rw [writePartition_same hd hopen]

lemma fillLoop_same (hd : SameDevices e e') (hopen : SameOpen e e' name name') (k left : ℕ)
    (w : Walk ε) :
    fillLoop e.toServices name img k left w = fillLoop e'.toServices name' img k left w := by
  induction left using Nat.strongRecOn generalizing w with
  | ind left ih =>
    rw [fillLoop, fillLoop, fillPiece_same hd hopen]
    split_ifs with hleft
    · dsimp only
      split_ifs
      · rfl
      · exact ih _ (Nat.sub_lt hleft (fillCount_pos hleft)) _
    · rfl

lemma flashChunk_same (hd : SameDevices e e') (hopen : SameOpen e e' name name') (k : ℕ)
    (w : Walk ε) :
    flashChunk e.toServices name img k w = flashChunk e'.toServices name' img k w := by
  unfold flashChunk
  dsimp only
  rw [writePartition_same hd hopen, fillLoop_same hd hopen]

lemma chunkLoop_same (hd : SameDevices e e') (hopen : SameOpen e e' name name') (n k : ℕ)
    (w : Walk ε) :
    chunkLoop e.toServices name img n k w = chunkLoop e'.toServices name' img n k w := by
  induction n generalizing k w with
  | zero => rfl
  | succ n ih =>
    rw [chunkLoop, chunkLoop, flashChunk_same hd hopen, ih]

end Same

/-! ### Writes -/

/-- The partition that an event of a flash is about. -/
def handle : SparseModel.Event → Option Handle
  | .writeDisk h _ _ => some h
  | .flushBlocks h => some h
  | _ => none

/-- No partition is written to on the way from one state to the other. -/
structure Idle (s s' : SparseModel.St ε) : Prop where
  content : s'.content = s.content
  handles : s'.trace.filterMap handle = s.trace.filterMap handle

lemma Idle.trans {s s' s'' : SparseModel.St ε} (h : Idle s s') (h' : Idle s' s'') : Idle s s'' :=
  ⟨h'.content.trans h.content, h'.handles.trans h.handles⟩

lemma idle_note {s : SparseModel.St ε} {x : SparseModel.Event} (hx : handle x = none) :
    Idle s (s.note x) :=
  ⟨rfl, by rw [SparseModel.St.note, List.filterMap_append]; simp [hx]⟩

/-! ### Chunks without data -/

section Chunks

variable {e : SparseModel.Services ε} {name : List UInt8} {img : ℕ → UInt8}

/-- Data of the chunk at `pos` is to be written. -/
def HoldsData (img : ℕ → UInt8) (pos : ℕ) : Prop :=
  (chunkHeaderAt img pos).chunkType = CHUNK_TYPE_RAW ∨
  ((chunkHeaderAt img pos).chunkType = CHUNK_TYPE_FILL ∧
    0 < (chunkHeaderAt img pos).chunkSize * (sparseHeader img).blockSize)

lemma fillLoop_zero (e : SparseModel.Services ε) (name : List UInt8) (k : ℕ) (w : Walk ε) :
    fillLoop e name img k 0 w = w := by
  rw [fillLoop, if_neg (Nat.lt_irrefl 0)]

/-- Over a chunk without data the walk goes on, whatever the name. -/
lemma flashChunk_idle {k : ℕ} {w : Walk ε} (h : ¬ HoldsData img w.image)
    (hst : efiError w.status = false) :
    ∃ w', (∀ (e : SparseModel.Services ε) (name : List UInt8), flashChunk e name img k w = w') ∧
      w'.status = w.status ∧ w'.image = w.image + chunkHeaderLen + advance img w.image ∧
      Idle w.s w'.s := by
  obtain ⟨hraw, hfill⟩ := not_or.mp h
  unfold advance
  rw [if_neg hraw]
  by_cases hf : (chunkHeaderAt img w.image).chunkType = CHUNK_TYPE_FILL
  · have hzero : (chunkHeaderAt img w.image).chunkSize * (sparseHeader img).blockSize = 0 := by
      by_contra hne
      exact hfill ⟨hf, Nat.pos_of_ne_zero hne⟩
    refine ⟨{ w with
        s := w.s.note (.chunkHeader k w.image)
        image := w.image + chunkHeaderLen + 4 },
      fun e name => ?_, rfl, by rw [if_pos hf], idle_note rfl⟩
    unfold flashChunk
    dsimp only
    rw [if_neg hraw, if_pos hf, hzero, fillLoop_zero]
    dsimp only
    rw [if_neg (ne_true_of_eq_false hst)]
  · refine ⟨{ w with
        s := w.s.note (.chunkHeader k w.image), image := w.image + chunkHeaderLen,
        offset := if (chunkHeaderAt img w.image).chunkType = CHUNK_TYPE_DONT_CARE then
          u64 (w.offset + (chunkHeaderAt img w.image).chunkSize * (sparseHeader img).blockSize)
        else w.offset }, fun e name => ?_, rfl, by rw [if_neg hf]; rfl, idle_note rfl⟩
    unfold flashChunk
    dsimp only
    rw [if_neg hraw, if_neg hf]
    split_ifs <;> rfl

lemma chunkLoop_idle {n k : ℕ} {w : Walk ε} (hst : efiError w.status = false)
    (h : ∀ j < n, ¬ HoldsData img (walkPos img w.image j)) :
    ∃ w', (∀ (e : SparseModel.Services ε) (name : List UInt8), chunkLoop e name img n k w = w') ∧
      w'.status = w.status := by
  induction n generalizing k w with
  | zero => exact ⟨w, fun _ _ => rfl, rfl⟩
  | succ n ih =>
    obtain ⟨w₁, hround, hst₁, himage, -⟩ := flashChunk_idle (k := k) (h 0 n.succ_pos) hst
    rw [← hst₁] at hst
    obtain ⟨w', hloop, hst'⟩ := ih (k := k + 1) hst fun j hj => by
      rw [himage]
      exact h (j + 1) (Nat.succ_lt_succ hj)
    refine ⟨w', fun e name => ?_, hst'.trans hst₁⟩
    rw [chunkLoop, hround, if_neg (ne_true_of_eq_false hst), hloop]

/-! ### A name that opens nothing -/

variable {status : Status}

lemma writePartition_none (hopen : openPartition e name = (status, none)) (off : ℕ)
    (data : List UInt8) (s : SparseModel.St ε) :
    writePartition e name off data s = (status, s) := by
  unfold writePartition
  rw [hopen]

lemma fillLoop_none (img : ℕ → UInt8) (hopen : openPartition e name = (status, none))
    (herr : efiError status = true) {k left : ℕ} (hleft : 0 < left) (w : Walk ε) :
    (fillLoop e name img k left w).status = status ∧
      Idle w.s (fillLoop e name img k left w).s := by
  have hpiece : fillPiece e name img k left w = { w with
      status := status
      fillBuf := setMem32 w.fillBuf (fillCount left) (slice img w.image 4)
      s := w.s.note (.payload k w.image 4) } := by
    unfold fillPiece
    dsimp only
    rw [writePartition_none hopen]
  rw [fillLoop, if_pos hleft, hpiece]
  dsimp only
  rw [if_pos herr]
  exact ⟨rfl, idle_note rfl⟩

lemma flashChunk_none (hopen : openPartition e name = (status, none))
    (herr : efiError status = true) {k : ℕ} {w : Walk ε} (h : HoldsData img w.image) :
    (flashChunk e name img k w).status = status ∧ Idle w.s (flashChunk e name img k w).s := by
  have hheader : Idle w.s (w.s.note (.chunkHeader k w.image)) := idle_note rfl
  unfold flashChunk
  dsimp only
  rcases h with hraw | ⟨hfill, hleft⟩
  · rw [if_pos hraw, writePartition_none hopen]
    dsimp only
    rw [if_pos herr]
    exact ⟨rfl, hheader.trans (idle_note rfl)⟩
  · have hraw : ¬ (chunkHeaderAt img w.image).chunkType = CHUNK_TYPE_RAW := by
      rw [hfill]; decide
    obtain ⟨hst, hidle⟩ := fillLoop_none img (k := k) hopen herr hleft
      { w with s := w.s.note (.chunkHeader k w.image), image := w.image + chunkHeaderLen }
    rw [if_neg hraw, if_pos hfill, hst, if_pos herr]
    exact ⟨hst, hheader.trans hidle⟩

/-- The first chunk with data ends the walk. -/
lemma chunkLoop_none (hopen : openPartition e name = (status, none))
    (herr : efiError status = true) {n k : ℕ} {w : Walk ε} (hst : efiError w.status = false)
    (h : ∃ j < n, HoldsData img (walkPos img w.image j)) :
    (chunkLoop e name img n k w).status = status ∧ Idle w.s (chunkLoop e name img n k w).s := by
  induction n generalizing k w with
  | zero =>
    obtain ⟨j, hj, -⟩ := h
    exact absurd hj (Nat.not_lt_zero j)
  | succ n ih =>
    by_cases hdata : HoldsData img w.image
    · obtain ⟨hround, hidle⟩ := flashChunk_none (k := k) hopen herr hdata
      rw [chunkLoop, hround, if_pos herr]
      exact ⟨hround, hidle⟩
    · obtain ⟨w₁, hround, hst₁, himage, hidle⟩ := flashChunk_idle (k := k) hdata hst
      rw [← hst₁] at hst
      -- the chunk with data is among those that are left
      have hrest : ∃ j < n, HoldsData img (walkPos img w₁.image j) := by
        obtain ⟨j, hj, hjd⟩ := h
        cases j with
        | zero => exact absurd hjd hdata
        | succ j => exact ⟨j, Nat.lt_of_succ_lt_succ hj, himage ▸ hjd⟩
      obtain ⟨hend, hidle'⟩ := ih (k := k + 1) hst hrest
      rw [chunkLoop, hround, if_neg (ne_true_of_eq_false hst)]
      exact ⟨hend, hidle.trans hidle'⟩

/-! ### Flashing -/

/-- A flash of this image comes to open the partition. -/
def FlashOpens (e : SparseModel.Services ε) (env : ε) (img : ℕ → UInt8) : Prop :=
  (sparseHeader img).magic = SPARSE_HEADER_MAGIC →
    (sparseHeader img).majorVersion = 1 ∧ (e.allocatePool env FILL_BUF_SIZE).1 = true ∧
    ∃ j < (sparseHeader img).totalChunks,
      HoldsData img (walkPos img (sparseHeader img).fileHeaderSize j)

variable {s : SparseModel.St ε} {heap : ℕ → UInt8} {bufferSize : ℕ}

/-- The walk of a flash before its first chunk. -/
def flashStart (e : SparseModel.Services ε) (heap : ℕ → UInt8) (img : ℕ → UInt8)
    (s : SparseModel.St ε) : Walk ε :=
  ⟨EFI_SUCCESS, (sparseHeader img).fileHeaderSize, 0, heap,
    { s with env := (e.allocatePool s.env FILL_BUF_SIZE).2 }⟩

def flashWalk (e : SparseModel.Services ε) (heap : ℕ → UInt8) (name : List UInt8)
    (img : ℕ → UInt8) (s : SparseModel.St ε) : Walk ε :=
  chunkLoop e name img (sparseHeader img).totalChunks 0 (flashStart e heap img s)

lemma flashSparseImage_walk (halloc : (e.allocatePool s.env FILL_BUF_SIZE).1 = true) :
    flashSparseImage e heap name img s =
      ((flashWalk e heap name img s).status, (flashWalk e heap name img s).s) := by
  unfold flashSparseImage
  dsimp only
  rw [halloc, Bool.not_true, if_neg Bool.false_ne_true]
  rfl

lemma flashSparseImage_full (halloc : (e.allocatePool s.env FILL_BUF_SIZE).1 = false) :
    flashSparseImage e heap name img s =
      (EFI_OUT_OF_RESOURCES, { s with env := (e.allocatePool s.env FILL_BUF_SIZE).2 }) := by
  unfold flashSparseImage
  dsimp only
  rw [halloc, Bool.not_false, if_pos rfl]

lemma flashPartition_none (heap : ℕ → UInt8) (bufferSize : ℕ)
    (hopen : openPartition e name = (status, none))
    (herr : efiError status = true) (h : FlashOpens e s.env img) :
    (flashPartition e heap name bufferSize (some img) s).1 = status ∧
      Idle s (flashPartition e heap name bufferSize (some img) s).2 := by
  unfold flashPartition
  dsimp only
  split_ifs with hmagic hversion
  · exact absurd (h hmagic).1 hversion
  · obtain ⟨-, halloc, hdata⟩ := h hmagic
    rw [flashSparseImage_walk halloc]
    have hwalk : (flashWalk e heap name img s).status = status ∧
        Idle (flashStart e heap img s).s (flashWalk e heap name img s).s :=
      chunkLoop_none hopen herr efiError_success hdata
    exact ⟨hwalk.1, hwalk.2.content, hwalk.2.handles⟩
  · rw [writePartition_none hopen]
    exact ⟨rfl, rfl, rfl⟩

/-- A flash that does not come to open the partition does not depend on the name, and does not
report that there is none. -/
lemma flashPartition_idle {e' : SparseModel.Services ε} (heap : ℕ → UInt8) (bufferSize : ℕ)
    (hpool : e.allocatePool = e'.allocatePool)
    (name name' : List UInt8) (h : ¬ FlashOpens e s.env img) :
    flashPartition e heap name bufferSize (some img) s =
        flashPartition e' heap name' bufferSize (some img) s ∧
      (flashPartition e heap name bufferSize (some img) s).1 ≠ EFI_NOT_FOUND := by
  unfold FlashOpens at h
  push Not at h
  obtain ⟨hmagic, hrest⟩ := h
  have hpool' : e'.allocatePool s.env FILL_BUF_SIZE = e.allocatePool s.env FILL_BUF_SIZE := by
    rw [hpool]
  unfold flashPartition
  dsimp only
  rw [if_pos hmagic, if_pos hmagic]
  split_ifs with hversion
  · exact ⟨rfl, show EFI_INVALID_PARAMETER ≠ EFI_NOT_FOUND by decide⟩
  · rcases halloc : (e.allocatePool s.env FILL_BUF_SIZE).1 with _ | _
    · rw [flashSparseImage_full halloc, flashSparseImage_full (hpool'.symm ▸ halloc), hpool']
      exact ⟨rfl, show EFI_OUT_OF_RESOURCES ≠ EFI_NOT_FOUND by decide⟩
    · rw [flashSparseImage_walk halloc, flashSparseImage_walk (hpool'.symm ▸ halloc)]
      obtain ⟨w', hloop, hst⟩ := chunkLoop_idle (k := 0) (w := flashStart e heap img s)
        efiError_success (hrest (not_not.mp hversion) halloc)
      have hstart : flashStart e' heap img s = flashStart e heap img s := by
        unfold flashStart
        rw [hpool']
      unfold flashWalk
      rw [hstart, hloop, hloop, hst]
      exact ⟨rfl, show EFI_SUCCESS ≠ EFI_NOT_FOUND by decide⟩

lemma flashPartition_same {e e' : PartModel.Services ε} {name name' : List UInt8}
    (hd : SameDevices e e') (hopen : SameOpen e e' name name') :
    flashPartition e.toServices heap name bufferSize (some img) s =
      flashPartition e'.toServices heap name' bufferSize (some img) s := by
  unfold flashPartition
  dsimp only
  rw [writePartition_same hd hopen]
  have hpool : e'.allocatePool s.env FILL_BUF_SIZE = e.allocatePool s.env FILL_BUF_SIZE := by
    rw [hd.allocatePool]
  rcases halloc : (e.allocatePool s.env FILL_BUF_SIZE).1 with _ | _
  · rw [flashSparseImage_full halloc, flashSparseImage_full (hpool.symm ▸ halloc), hpool]
  · rw [flashSparseImage_walk halloc, flashSparseImage_walk (hpool.symm ▸ halloc)]
    unfold flashWalk flashStart
    rw [hpool, chunkLoop_same hd hopen]

end Chunks

/-! ### Commands -/

section Commands

variable {e e' : PartModel.Services ε} {m : Locals} {fuel : ℕ} {command : Command}
  {name name' : List UInt8} {saveName : FileName} {s s' : PartModel.St ε} {status : Status}

/-- The partition that an event is about. -/
def Event.handle : PartModel.Event → Option Handle
  | .sparse x => PartOpen.handle x
  | .readDisk h _ _ => some h
  | .writeBlocks h _ _ _ => some h

/-- No partition is read or written on the way from one state to the other. -/
structure Untouched (s s' : PartModel.St ε) : Prop where
  content : s'.content = s.content
  handles : s'.trace.filterMap Event.handle = s.trace.filterMap Event.handle

/-- The command comes to open the partition. -/
def Opens (e : PartModel.Services ε) (m : Locals) (s : PartModel.St ε) : Command → Prop
  | .erase => True
  | .savepart => True
  | .flash fileName => ∃ loaded, (loadFile e m.fileHeap fileName s).1.2 = some loaded ∧
      FlashOpens e.toServices (loadFile e m.fileHeap fileName s).2.env loaded.buffer
  | .read _ bufferSize => (PartModel.allocatePool e bufferSize s).1 = true

lemma erasePartition_same (hd : SameDevices e e') (hopen : SameOpen e e' name name') :
    erasePartition e name fuel s = erasePartition e' name' fuel s := by
  unfold SameOpen at hopen
  have hstep : eraseStep e = eraseStep e' := by
    funext h x
    unfold eraseStep PartModel.writeBlocks
    rw [hd.writeBlocks, hd.media]
  unfold erasePartition PartModel.allocateZeroPool
  rw [hopen, hstep, hd.media, hd.files]

lemma savePartitionData_same (hd : SameDevices e e') (hopen : SameOpen e e' name name') :
    savePartitionData e name saveName s = savePartitionData e' name' saveName s := by
  unfold SameOpen at hopen
  unfold savePartitionData PartModel.allocateZeroPool PartModel.readDisk
  rw [hopen, hd.media, hd.files, hd.readDisk]

lemma readPartition_same (hd : SameDevices e e') (hopen : SameOpen e e' name name')
    (off n : ℕ) : readPartition e name off n s = readPartition e' name' off n s := by
  unfold SameOpen at hopen
  unfold readPartition PartModel.readDisk
  rw [hopen, hd.media, hd.readDisk]

lemma loadFile_same (hd : SameDevices e e') (heap : ℕ → UInt8) (fileName : FileName) :
    loadFile e heap fileName s = loadFile e' heap fileName s := by
  unfold loadFile
  rw [hd.files]

lemma runNamed_flash {fileName : FileName} {loaded : Loaded}
    (hload : loadFile e m.fileHeap fileName s = ((status, some loaded), s')) :
    runNamed e m fuel (.flash fileName) name saveName s = some (onPartitions
      (flashPartition e.toServices m.fillHeap name loaded.bufferSize (some loaded.buffer)) s') := by
  unfold runNamed
  dsimp only
  rw [hload]

lemma runNamed_flash_failed {fileName : FileName} (fuel : ℕ) (saveName : FileName)
    (hload : loadFile e m.fileHeap fileName s = ((status, none), s')) :
    runNamed e m fuel (.flash fileName) name saveName s = some (status, s') := by
  unfold runNamed
  dsimp only
  rw [hload]

/-- **The list and the command.** A command depends on the list of the partitions through what its
name opens, and not at all if it does not come that far. -/
theorem runNamed_same (hd : SameDevices e e')
    (h : SameOpen e e' name name' ∨ ¬ Opens e m s command) :
    runNamed e m fuel command name saveName s = runNamed e' m fuel command name' saveName s := by
  cases command with
  | erase =>
    have hopen := h.resolve_right (not_not.mpr trivial)
    simp only [runNamed, erasePartition_same hd hopen]
  | savepart =>
    have hopen := h.resolve_right (not_not.mpr trivial)
    simp only [runNamed, savePartitionData_same hd hopen]
  | flash fileName =>
    rcases hload : loadFile e m.fileHeap fileName s with ⟨⟨status, _ | loaded⟩, s'⟩
    · rw [runNamed_flash_failed _ _ hload,
        runNamed_flash_failed _ _ ((loadFile_same hd _ _).symm.trans hload)]
    · rw [runNamed_flash hload, runNamed_flash ((loadFile_same hd _ _).symm.trans hload)]
      unfold onPartitions
      rcases h with hopen | hnot
      · rw [flashPartition_same hd hopen]
      · have hidle : ¬ FlashOpens e.toServices s'.env loaded.buffer := fun hopens =>
          hnot ⟨loaded, by rw [hload], by rw [hload]; exact hopens⟩
        rw [(flashPartition_idle (s := ⟨s'.env, s'.content, []⟩) _ _ hd.allocatePool name name'
          hidle).1]
  | read off n =>
    have halloc : PartModel.allocatePool e n s = PartModel.allocatePool e' n s := by
      unfold PartModel.allocatePool
      rw [hd.allocatePool]
    unfold runNamed
    dsimp only
    rw [← halloc]
    rcases h with hopen | hnot
    · rw [readPartition_same hd hopen]
    · have hfull : (PartModel.allocatePool e n s).1 = false := Bool.eq_false_iff.mpr hnot
      rw [hfull, Bool.not_false, if_pos rfl, if_pos rfl]

lemma filterMap_handle_sparse (l : List SparseModel.Event) :
    (l.map Event.sparse).filterMap Event.handle = l.filterMap PartOpen.handle := by
  rw [List.filterMap_map]
  rfl

/-- What leaves the partitions alone does so when it is run on them. -/
lemma onPartitions_untouched {f : SparseModel.St ε → Status × SparseModel.St ε}
    (h : Idle ⟨s.env, s.content, []⟩ (f ⟨s.env, s.content, []⟩).2) :
    Untouched s (onPartitions f s).2 := by
  refine ⟨h.content, ?_⟩
  have hnone : (f ⟨s.env, s.content, []⟩).2.trace.filterMap PartOpen.handle = [] := h.handles
  unfold onPartitions
  dsimp only
  rw [List.filterMap_append, filterMap_handle_sparse, hnone, List.append_nil]

/-- A command whose name opens nothing ends with the status of the attempt. -/
lemma runNamed_none (m : Locals) (fuel : ℕ) (saveName : FileName)
    (hopen : openPartition e.toServices name = (status, none))
    (herr : efiError status = true) (h : Opens e m s command) :
    ∃ s', runNamed e m fuel command name saveName s = some (status, s') ∧ Untouched s s' := by
  cases command with
  | erase =>
    refine ⟨s, ?_, rfl, rfl⟩
    unfold runNamed erasePartition
    rw [hopen]
    dsimp only
    rw [Option.map_some, if_pos herr]
  | savepart =>
    refine ⟨s, ?_, rfl, rfl⟩
    unfold runNamed savePartitionData
    rw [hopen]
    dsimp only
    rw [if_pos herr]
  | flash fileName =>
    obtain ⟨loaded, hsome, hopens⟩ := h
    rcases hload : loadFile e m.fileHeap fileName s with ⟨⟨st, _⟩, s₁⟩
    rw [hload] at hsome hopens
    dsimp only at hsome hopens
    subst hsome
    obtain ⟨hst, hidle⟩ := flashPartition_none m.fillHeap loaded.bufferSize
      (s := ⟨s₁.env, s₁.content, []⟩) hopen herr hopens
    have hfiles : s₁.content = s.content ∧ s₁.trace = s.trace := by
      rw [show s₁ = (loadFile e m.fileHeap fileName s).2 by rw [hload]]
      exact ⟨rfl, rfl⟩
    have huntouched := onPartitions_untouched hidle
    refine ⟨_, (runNamed_flash hload).trans (congrArg some (Prod.ext hst rfl)),
      huntouched.content.trans hfiles.1, ?_⟩
    rw [← hfiles.2]
    exact huntouched.handles
  | read off n =>
    refine ⟨(PartModel.allocatePool e n s).2, ?_, rfl, rfl⟩
    unfold runNamed readPartition
    rw [hopen]
    dsimp only
    rw [h, Bool.not_true, if_neg Bool.false_ne_true, if_pos herr]

/-- A command that does not come to open the partition reports that there is none only for its
file. -/
lemma runNamed_idle (h : ¬ Opens e m s command)
    (hrun : runNamed e m fuel command name saveName s = some (EFI_NOT_FOUND, s')) :
    ∃ fileName, command = .flash fileName ∧
      (loadFile e m.fileHeap fileName s).1 = (EFI_NOT_FOUND, none) := by
  cases command with
  | erase => exact absurd trivial h
  | savepart => exact absurd trivial h
  | flash fileName =>
    refine ⟨fileName, rfl, ?_⟩
    rcases hload : loadFile e m.fileHeap fileName s with ⟨⟨status, _ | loaded⟩, s₁⟩
    · rw [runNamed_flash_failed _ _ hload] at hrun
      obtain rfl : status = EFI_NOT_FOUND := congrArg Prod.fst (Option.some.inj hrun)
      rfl
    · rw [runNamed_flash hload] at hrun
      have hidle : ¬ FlashOpens e.toServices s₁.env loaded.buffer := fun hopens =>
        h ⟨loaded, by rw [hload], by rw [hload]; exact hopens⟩
      have hne := (flashPartition_idle (s := ⟨s₁.env, s₁.content, []⟩) m.fillHeap
        loaded.bufferSize rfl name name hidle).2
      exact absurd (congrArg Prod.fst (Option.some.inj hrun)) hne
  | read off n =>
    have hfull : (PartModel.allocatePool e n s).1 = false := Bool.eq_false_iff.mpr h
    unfold runNamed at hrun
    dsimp only at hrun
    rw [hfull, Bool.not_false, if_pos rfl] at hrun
    exact absurd (congrArg Prod.fst (Option.some.inj hrun))
      (show EFI_OUT_OF_RESOURCES ≠ EFI_NOT_FOUND by decide)

end Commands

end UefiToolkit.PartOpen
