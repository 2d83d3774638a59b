import UefiToolkit.Loop
import UefiToolkit.SparseModel
import UefiToolkit.DiskModel

/-!
The commands of `PartEdit` on a partition that is given by its name: it is erased, saved to a
file, flashed from one, or read.

The name comes from the command line, as UTF-16, and is turned into ASCII and back before it is
looked for.
-/

namespace UefiToolkit.PartModel

open UefiToolkit.Word UefiToolkit.Loop UefiToolkit.Mem UefiToolkit.SparseModel
open UefiToolkit.DiskModel (Files FileName Loaded unicode readFileFromDisk saveFileToDisk)

/-- The protocols of the partitions, and with them the pool and the shell's files. -/
structure Services (ε : Type) extends SparseModel.Services ε where
  files : DiskModel.Services ε
  readDisk : ε → Handle → (ℕ → UInt8) → ℕ → ℕ → Status × List UInt8 × ε
  writeBlocks : ε → Handle → (ℕ → UInt8) → ℕ → List UInt8 → Status × (ℕ → UInt8) × ε

inductive Event
  | sparse (x : SparseModel.Event)
  | readDisk (h : Handle) (off len : ℕ)
  /-- A request to write blocks, and the status it came back with. -/
  | writeBlocks (h : Handle) (lba : ℕ) (data : List UInt8) (status : Status)

/-- The content of each partition by byte offset, and the files. -/
structure St (ε : Type) where
  env : ε
  content : Handle → ℕ → UInt8
  files : Files
  trace : List Event

variable {ε : Type} (e : Services ε)

def St.note (s : St ε) (x : Event) : St ε := { s with trace := s.trace ++ [x] }

/-- Run what writes to a partition. -/
def onPartitions (f : SparseModel.St ε → Status × SparseModel.St ε) (s : St ε) : Status × St ε :=
  let r := f ⟨s.env, s.content, []⟩
  (r.1, { s with env := r.2.env, content := r.2.content,
                 trace := s.trace ++ r.2.trace.map .sparse })

/-- Run what works on files. -/
def onFiles {α : Type} (f : DiskModel.St ε → α × DiskModel.St ε) (s : St ε) : α × St ε :=
  let r := f ⟨s.env, fun _ => 0, s.files, []⟩
  (r.1, { s with env := r.2.env, files := r.2.files })

/-- The status of `ReadFileFromDisk`, and what it hands over. -/
def loadFile (heap : ℕ → UInt8) (fileName : FileName) (s : St ε) :
    (Status × Option Loaded) × St ε :=
  onFiles (fun s =>
    let (status, loaded, s) := readFileFromDisk e.files heap fileName s
    ((status, loaded), s)) s

def allocatePool (n : ℕ) (s : St ε) : Bool × St ε :=
  ((e.allocatePool s.env n).1, { s with env := (e.allocatePool s.env n).2 })

def allocateZeroPool (n : ℕ) (s : St ε) : Bool × St ε :=
  ((e.files.allocateZeroPool s.env n).1, { s with env := (e.files.allocateZeroPool s.env n).2 })

def readDisk (h : Handle) (off len : ℕ) (s : St ε) : Status × List UInt8 × St ε :=
  let r := e.readDisk s.env h (s.content h) off len
  (r.1, r.2.1, { s.note (.readDisk h off len) with env := r.2.2 })

def writeBlocks (h : Handle) (lba : ℕ) (data : List UInt8) (s : St ε) : Status × St ε :=
  let r := e.writeBlocks s.env h (s.content h) lba data
  (r.1, { s.note (.writeBlocks h lba data r.1) with
    content := Function.update s.content h r.2.1, env := r.2.2 })

/-! ### Partitions -/

def readPartition (partitionName : List UInt8) (offset bufferSize : ℕ) (s : St ε) :
    Status × List UInt8 × St ε :=
  match openPartition e.toServices partitionName with
  | (status, none) => (status, [], s)
  | (_, some h) =>
    if (e.media h).partitionSize < bufferSize then (EFI_VOLUME_FULL, [], s)
    else
      let (status, data, s) := readDisk e h offset bufferSize s
      if efiError status then (status, [], s) else (EFI_SUCCESS, data, s)

def SIZE_2GB : ℕ := 0x80000000

def savePartitionData (partitionName : List UInt8) (fileName : FileName) (s : St ε) :
    Status × St ε :=
  match openPartition e.toServices partitionName with
  | (status, none) => (status, s)
  | (_, some h) =>
    let partitionSize := (e.media h).partitionSize
    if SIZE_2GB < partitionSize then (EFI_VOLUME_FULL, s)
    else
      let (allocated, s) := allocateZeroPool e partitionSize s
      if !allocated then (EFI_OUT_OF_RESOURCES, s)
      else
        let (status, data, s) := readDisk e h 0 partitionSize s
        if efiError status then (status, s)
        else
          let buffer := slice (blit (fun _ => 0) 0 data) 0 partitionSize
          let (status, s) := onFiles (saveFileToDisk e.files fileName buffer) s
          if efiError status then (status, s) else (EFI_SUCCESS, s)

/-- The variables of the loop of `ErasePartition`. -/
structure Erase (ε : Type) where
  partitionSize : ℕ
  offset : ℕ
  status : Status
  s : St ε

/-- Bytes remain and no write failed: a failed one returns. -/
def Erase.more (x : Erase ε) : Bool := decide (0 < x.partitionSize) && !efiError x.status

/-- One round: a piece of the zeroed fill buffer is written. -/
def eraseStep (h : Handle) (x : Erase ε) : Erase ε :=
  let count := fillCount x.partitionSize
  let (status, s) := writeBlocks e h x.offset (List.replicate count 0) x.s
  if efiError status then { x with status := status, s := s }
  else ⟨x.partitionSize - count, u64 (x.offset + count / (e.media h).blockSize), status, s⟩

def erasePartition (partitionName : List UInt8) (fuel : ℕ) (s : St ε) : Option (Status × St ε) :=
  match openPartition e.toServices partitionName with
  | (status, none) => some (status, s)
  | (_, some h) =>
    let (allocated, s) := allocateZeroPool e FILL_BUF_SIZE s
    if !allocated then some (EFI_OUT_OF_RESOURCES, s)
    else
      (whileFuel Erase.more (fun x => some (eraseStep e h x)) fuel
        ⟨(e.media h).partitionSize, 0, EFI_SUCCESS, s⟩).map fun x =>
          if efiError x.status then (x.status, x.s)
          else (EFI_SUCCESS, x.s.note (.sparse (.flushBlocks h)))

/-! ### Names -/

/-- A string that is too long leaves the destination alone. A character above `0xFF` trips an
assertion; where that is compiled out its low byte is stored. -/
def unicodeStrToAsciiStrS (source : List UInt16) (destination : List UInt8) (destMax : ℕ) :
    List UInt8 :=
  if source.length < destMax then (source.map fun c => UInt8.ofNat c.toNat).takeWhile (· ≠ 0)
  else destination

/-- What `UnicodeSPrint` leaves of a formatted text in a buffer of so many bytes: the characters
that fit before the terminator. -/
def unicodeSPrint (bufferSize : ℕ) (text : List UInt16) : List UInt16 :=
  text.take (bufferSize / 2 - 1)

/-- `ARRAY_SIZE (PartitionName)`. -/
def PARTITION_NAME_SIZE : ℕ := 36

/-! ### Commands -/

/-- The commands that are given a partition's name; the numbers are those of the other arguments. -/
inductive Command
  | erase
  | savepart
  | flash (fileName : FileName)
  | read (offset bufferSize : ℕ)

/-- What is in memory before the program stores anything: the string in `PartitionName`, the pool
where the file is loaded to, and the pool where the fill buffer is. -/
structure Locals where
  partitionName : List UInt8
  fileHeap : ℕ → UInt8
  fillHeap : ℕ → UInt8

/-- A command with the name as `OpenPartition` is given it, and the file name for `savepart`. -/
def runNamed (m : Locals) (fuel : ℕ) (command : Command) (partitionName : List UInt8)
    (saveName : FileName) (s : St ε) : Option (Status × St ε) :=
  match command with
  | .erase =>
    (erasePartition e partitionName fuel s).map fun r =>
      if efiError r.1 then (r.1, r.2) else (EFI_SUCCESS, r.2)
  | .savepart =>
    let (status, s) := savePartitionData e partitionName saveName s
    if efiError status then some (status, s) else some (EFI_SUCCESS, s)
  | .flash fileName =>
    match loadFile e m.fileHeap fileName s with
    | ((status, none), s) => some (status, s)
    | ((_, some loaded), s) => some (onPartitions
        (flashPartition e.toServices m.fillHeap partitionName loaded.bufferSize
          (some loaded.buffer)) s)
  | .read offset bufferSize =>
    let (allocated, s) := allocatePool e bufferSize s
    if !allocated then some (EFI_OUT_OF_RESOURCES, s)
    else
      let (status, _, s) := readPartition e partitionName offset bufferSize s
      if efiError status then some (status, s) else some (EFI_SUCCESS, s)

/-- The branches of `ShellAppMain` for these commands, with the name as it was typed. -/
def shellAppMain (m : Locals) (fuel : ℕ) (command : Command) (arg : List UInt16) (s : St ε) :
    Option (Status × St ε) :=
  let fileName := unicodeSPrint 36 (arg ++ unicode ".bin")
  let partitionName := unicodeStrToAsciiStrS arg m.partitionName PARTITION_NAME_SIZE
  runNamed e m fuel command partitionName fileName s

end UefiToolkit.PartModel
