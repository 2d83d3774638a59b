import UefiToolkit.SparseModel

/-!
The commands of `PartEdit` on the disk as a whole: the partition table erased and saved, and
data saved to a file and written from one.

The files are those the shell sees, by name. A buffer that a file is read into is the memory from
its first byte on, so that what stands behind the file can be told.
-/

namespace UefiToolkit.DiskModel

open UefiToolkit.Word UefiToolkit.Mem UefiToolkit.SparseModel

abbrev FileName := List UInt16

abbrev Files := FileName → Option (List UInt8)

/-- A name as the source writes it. -/
def unicode (s : String) : FileName := s.toList.map fun c => UInt16.ofNat c.toNat

/-- The disk protocol, the pool and the shell's file functions, with the state behind them. -/
structure Services (ε : Type) where
  allocateZeroPool : ε → ℕ → Bool × ε
  readDisk : ε → (ℕ → UInt8) → ℕ → ℕ → Status × List UInt8 × ε
  writeDisk : ε → (ℕ → UInt8) → ℕ → List UInt8 → Status × (ℕ → UInt8) × ε
  shellFileExists : ε → Files → FileName → Status
  shellDeleteFileByName : ε → Files → FileName → Files × ε
  /-- The flag tells whether the file may be created. -/
  shellOpenFileByName : ε → Files → FileName → Bool → Status × Files × ε
  shellGetFileSize : ε → Files → FileName → Status × ℕ
  /-- At most so many bytes from the start of the file. -/
  shellReadFile : ε → Files → FileName → ℕ → Status × List UInt8 × ε
  /-- The bytes at the start of the file. -/
  shellWriteFile : ε → Files → FileName → List UInt8 → Status × Files × ε

inductive Event
  | readDisk (off len : ℕ)
  | writeDisk (off : ℕ) (data : List UInt8)
  | flushBlocks

structure St (ε : Type) where
  env : ε
  content : ℕ → UInt8
  files : Files
  trace : List Event

variable {ε : Type} (e : Services ε)

def St.note (s : St ε) (x : Event) : St ε := { s with trace := s.trace ++ [x] }

def allocateZeroPool (n : ℕ) (s : St ε) : Bool × St ε :=
  ((e.allocateZeroPool s.env n).1, { s with env := (e.allocateZeroPool s.env n).2 })

def readDisk (off len : ℕ) (s : St ε) : Status × List UInt8 × St ε :=
  let r := e.readDisk s.env s.content off len
  (r.1, r.2.1, { s.note (.readDisk off len) with env := r.2.2 })

def writeDisk (off : ℕ) (data : List UInt8) (s : St ε) : Status × St ε :=
  let r := e.writeDisk s.env s.content off data
  (r.1, { s.note (.writeDisk off data) with content := r.2.1, env := r.2.2 })

/-! ### Files -/

def shellOpenFileByName (fileName : FileName) (create : Bool) (s : St ε) : Status × St ε :=
  let r := e.shellOpenFileByName s.env s.files fileName create
  (r.1, { s with files := r.2.1, env := r.2.2 })

def shellGetFileSize (fileName : FileName) (s : St ε) : Status × ℕ :=
  e.shellGetFileSize s.env s.files fileName

def shellReadFile (fileName : FileName) (n : ℕ) (s : St ε) : Status × List UInt8 × St ε :=
  let r := e.shellReadFile s.env s.files fileName n
  (r.1, r.2.1, { s with env := r.2.2 })

def shellWriteFile (fileName : FileName) (data : List UInt8) (s : St ε) : Status × St ε :=
  let r := e.shellWriteFile s.env s.files fileName data
  (r.1, { s with files := r.2.1, env := r.2.2 })

/-- A file of that name is deleted, if there is one. -/
def removeFile (fileName : FileName) (s : St ε) : St ε :=
  if efiError (e.shellFileExists s.env s.files fileName) then s
  else
    let r := e.shellDeleteFileByName s.env s.files fileName
    { s with files := r.1, env := r.2 }

/-- What `ReadFileFromDisk` hands over: `BufferSize`, and the memory from `Buffer` on. -/
structure Loaded where
  bufferSize : ℕ
  buffer : ℕ → UInt8

/-- `heap` is what stands in the pool from the buffer on. -/
def readFileFromDisk (heap : ℕ → UInt8) (fileName : FileName) (s : St ε) :
    Status × Option Loaded × St ε :=
  let (status, s) := shellOpenFileByName e fileName false s
  if efiError status then (status, none, s)
  else
    let (status, fileSize) := shellGetFileSize e fileName s
    if efiError status then (status, none, s)
    else
      let (allocated, s) := allocateZeroPool e fileSize s
      if !allocated then (EFI_OUT_OF_RESOURCES, none, s)
      else
        let (status, data, s) := shellReadFile e fileName fileSize s
        if efiError status then (status, none, s)
        else
          let zeroed := blit heap 0 (List.replicate fileSize 0)
          (EFI_SUCCESS, some ⟨data.length, blit zeroed 0 data⟩, s)

def saveFileToDisk (fileName : FileName) (buffer : List UInt8) (s : St ε) : Status × St ε :=
  let (status, s) := shellOpenFileByName e fileName true (removeFile e fileName s)
  if efiError status then (status, s)
  else
    let (status, s) := shellWriteFile e fileName buffer s
    if efiError status then (status, s) else (EFI_SUCCESS, s)

/-! ### The partition table -/

def MAX_GPT_ENTRIES : ℕ := 128
def GPT_ENTRY_SIZE : ℕ := 128

/-- `MAX_GPT_ENTRIES * GPT_ENTRY_SIZE`. -/
def entriesSize : ℕ := MAX_GPT_ENTRIES * GPT_ENTRY_SIZE

/-- The size of the primary table: the protective block, the header and the entries. -/
def primarySize (m : Media) : ℕ := u64 (u32 (2 * m.blockSize) + entriesSize)

def secondarySize (m : Media) : ℕ := u64 (m.blockSize + entriesSize)

/-- `SecondaryPartitionEntryLBA * BlockSize`. -/
def secondaryOffset (m : Media) : ℕ :=
  u64 (sub64 m.lastBlock (entriesSize / m.blockSize) * m.blockSize)

/-- Zeros from a pool buffer, written at an offset. -/
def eraseRange (off size : ℕ) (s : St ε) : Status × St ε :=
  let (allocated, s) := allocateZeroPool e size s
  if !allocated then (EFI_OUT_OF_RESOURCES, s)
  else writeDisk e off (List.replicate size 0) s

def eraseGptTable (partData : Option Media) (s : St ε) : Status × St ε :=
  match partData with
  | none => (EFI_INVALID_PARAMETER, s)
  | some m =>
    let (status, s) := eraseRange e 0 (primarySize m) s
    if efiError status then (status, s)
    else
      let (status, s) := eraseRange e (secondaryOffset m) (secondarySize m) s
      if efiError status then (status, s) else (status, s.note .flushBlocks)

/-- Bytes of the disk, read into a zeroed pool buffer and saved to a file. -/
def saveRange (fileName : FileName) (off size : ℕ) (s : St ε) : Status × St ε :=
  let (allocated, s) := allocateZeroPool e size s
  if !allocated then (EFI_OUT_OF_RESOURCES, s)
  else
    let (status, data, s) := readDisk e off size s
    if efiError status then (status, s)
    else saveFileToDisk e fileName (slice (blit (fun _ => 0) 0 data) 0 size) s

def saveGptTable (partData : Option Media) (s : St ε) : Status × St ε :=
  match partData with
  | none => (EFI_INVALID_PARAMETER, s)
  | some m =>
    let (status, s) := saveRange e (unicode "PrimarySave.bin") 0 (primarySize m) s
    if efiError status then (status, s)
    else
      let (status, s) :=
        saveRange e (unicode "SecondarySave.bin") (secondaryOffset m) (secondarySize m) s
      if efiError status then (status, s) else (status, s.note .flushBlocks)

/-! ### Data -/

/-- A size of zero stands for the size of the file. -/
def writeDataToDisk (heap : ℕ → UInt8) (fileName : FileName) (offset size : ℕ) (s : St ε) :
    Status × St ε :=
  match readFileFromDisk e heap fileName s with
  | (status, none, s) => (status, s)
  | (_, some loaded, s) =>
    let tempSize := if size = 0 then loaded.bufferSize else size
    let (status, s) := writeDisk e offset (slice loaded.buffer 0 tempSize) s
    if efiError status then (status, s) else (EFI_SUCCESS, s.note .flushBlocks)

end UefiToolkit.DiskModel
