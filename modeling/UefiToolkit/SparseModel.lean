import UefiToolkit.Word
import UefiToolkit.Bytes

/-!
Writing an image to a partition, as `PartEdit` does it: a partition found by name, written
as a whole or, for an Android sparse image, chunk by chunk.

The image is the memory from the loaded buffer on. Where it is read, the place is kept in a
trace, and so is every request to the disk.
-/

namespace UefiToolkit.SparseModel

open UefiToolkit.Word UefiToolkit.Mem UefiToolkit.Bytes

abbrev Handle := ℕ

/-- `EFI_BLOCK_IO_MEDIA`, as far as sizes go. -/
structure Media where
  mediaId : ℕ
  lastBlock : ℕ
  blockSize : ℕ

/-- `PARTITION_LIST`: the memory from `PartitionName` on, and the handle. -/
structure PartitionEntry where
  partitionName : ℕ → UInt16
  partitionHandle : Handle

/-- The protocols and services the program calls, with the state behind them. -/
structure Services (ε : Type) where
  /-- The partition list, in list order. -/
  partitions : List PartitionEntry
  /-- The string that a local name buffer holds before anything is stored in it. -/
  uninitName : List UInt16
  openBlockIo : Handle → Status
  openDiskIo : Handle → Status
  media : Handle → Media
  allocatePool : ε → ℕ → Bool × ε
  writeDisk : ε → Handle → (ℕ → UInt8) → ℕ → List UInt8 → Status × (ℕ → UInt8) × ε

inductive Event
  /-- The header of chunk `k` was read at image offset `off`. -/
  | chunkHeader (k off : ℕ)
  /-- The payload of chunk `k` was taken from image offset `off`. -/
  | payload (k off len : ℕ)
  | writeDisk (h : Handle) (off : ℕ) (data : List UInt8)
  | flushBlocks (h : Handle)

structure St (ε : Type) where
  env : ε
  content : Handle → ℕ → UInt8
  trace : List Event

def St.note {ε : Type} (s : St ε) (x : Event) : St ε := { s with trace := s.trace ++ [x] }

variable {ε : Type} (e : Services ε)

/-- `StrCmp (cells, string) == 0`. -/
def strEq (cells : ℕ → UInt16) (string : List UInt16) : Bool :=
  decide (slice cells 0 (string.length + 1) = string ++ [0])

def openPartition (partitionName : List UInt8) : Status × Option Handle :=
  -- `AsciiStrToUnicodeStrS` into sixty cells; too long a name leaves them alone
  let unicode := if partitionName.length < 60 then partitionName.map (·.toUInt16)
    else e.uninitName
  match e.partitions.find? fun entry => strEq entry.partitionName unicode with
  | none => (EFI_NOT_FOUND, none)
  | some entry =>
    let status := e.openBlockIo entry.partitionHandle
    if efiError status then (status, none)
    else
      let status := e.openDiskIo entry.partitionHandle
      if efiError status then (status, none) else (EFI_SUCCESS, some entry.partitionHandle)

/-- `(LastBlock + 1) * BlockSize`, in a `UINTN`. -/
def Media.partitionSize (m : Media) : ℕ := u64 (u64 (m.lastBlock + 1) * m.blockSize)

def writePartition (partitionName : List UInt8) (offset : ℕ) (data : List UInt8) (s : St ε) :
    Status × St ε :=
  match openPartition e partitionName with
  | (status, none) => (status, s)
  | (_, some h) =>
    if (e.media h).partitionSize < data.length then (EFI_VOLUME_FULL, s)
    else
      let r := e.writeDisk s.env h (s.content h) offset data
      let s := { s.note (.writeDisk h offset data) with
        content := Function.update s.content h r.2.1, env := r.2.2 }
      if efiError r.1 then (r.1, s) else (EFI_SUCCESS, s.note (.flushBlocks h))

def SPARSE_HEADER_MAGIC : ℕ := 0xED26FF3A
def CHUNK_TYPE_RAW : ℕ := 0xCAC1
def CHUNK_TYPE_FILL : ℕ := 0xCAC2
def CHUNK_TYPE_DONT_CARE : ℕ := 0xCAC3
def CHUNK_TYPE_CRC32 : ℕ := 0xCAC4
def FILL_BUF_SIZE : ℕ := 16 * 1024 * 1024

/-- `SPARSE_HEADER`. -/
structure SparseHeader where
  magic : ℕ
  majorVersion : ℕ
  minorVersion : ℕ
  fileHeaderSize : ℕ
  chunkHeaderSize : ℕ
  blockSize : ℕ
  totalBlocks : ℕ
  totalChunks : ℕ
  imageChecksum : ℕ

def sparseHeader (img : ℕ → UInt8) : SparseHeader where
  magic := word32 img 0
  majorVersion := word16 img 4
  minorVersion := word16 img 6
  fileHeaderSize := word16 img 8
  chunkHeaderSize := word16 img 10
  blockSize := word32 img 12
  totalBlocks := word32 img 16
  totalChunks := word32 img 20
  imageChecksum := word32 img 24

/-- `CHUNK_HEADER`. -/
structure ChunkHeader where
  chunkType : ℕ
  reserved1 : ℕ
  chunkSize : ℕ
  totalSize : ℕ

def chunkHeaderAt (img : ℕ → UInt8) (off : ℕ) : ChunkHeader where
  chunkType := word16 img off
  reserved1 := word16 img (off + 2)
  chunkSize := word32 img (off + 4)
  totalSize := word32 img (off + 8)

/-- `sizeof (CHUNK_HEADER)`. -/
def chunkHeaderLen : ℕ := 12

/-- `SetMem32 (buf, length, value)`, with the value as four bytes. -/
def setMem32 (buf : ℕ → UInt8) (length : ℕ) (value : List UInt8) : ℕ → UInt8 :=
  blit buf 0 (List.replicate (length / 4) value).flatten

/-- The variables of `FlashSparseImage`; `image` is the offset of the image pointer. -/
structure Walk (ε : Type) where
  status : Status
  image : ℕ
  offset : ℕ
  fillBuf : ℕ → UInt8
  s : St ε

/-- The length of the next piece of a fill. -/
def fillCount (left : ℕ) : ℕ := if FILL_BUF_SIZE < left then FILL_BUF_SIZE else left

lemma fillCount_pos {left : ℕ} (h : 0 < left) : 0 < fillCount left := by
  unfold fillCount FILL_BUF_SIZE; split_ifs <;> omega

lemma fillCount_le (left : ℕ) : fillCount left ≤ left := by
  unfold fillCount; split_ifs <;> omega

/-- The next piece of a fill: the buffer is filled up to `Count` and written. -/
def fillPiece (partitionName : List UInt8) (img : ℕ → UInt8) (k left : ℕ) (w : Walk ε) : Walk ε :=
  let count := fillCount left
  let fillBuf := setMem32 w.fillBuf count (slice img w.image 4)
  let (status, s) := writePartition e partitionName w.offset (slice fillBuf 0 count)
    (w.s.note (.payload k w.image 4))
  { w with status := status, fillBuf := fillBuf, s := s }

/-- `while (Left > 0)`: write a fill chunk in pieces. -/
def fillLoop (partitionName : List UInt8) (img : ℕ → UInt8) (k left : ℕ) (w : Walk ε) : Walk ε :=
  if 0 < left then
    let w := fillPiece e partitionName img k left w
    if efiError w.status then w
    else fillLoop partitionName img k (left - fillCount left)
      { w with offset := u64 (w.offset + fillCount left) }
  else w
termination_by left
decreasing_by exact Nat.sub_lt ‹_› (fillCount_pos ‹_›)

/-- One round of the chunk loop; a failed write returns at once. -/
def flashChunk (partitionName : List UInt8) (img : ℕ → UInt8) (k : ℕ) (w : Walk ε) : Walk ε :=
  let blockSize := (sparseHeader img).blockSize
  let header := chunkHeaderAt img w.image
  let w := { w with s := w.s.note (.chunkHeader k w.image), image := w.image + chunkHeaderLen }
  if header.chunkType = CHUNK_TYPE_RAW then
    -- the length passed on is a product of two `UINT32`
    let len := u32 (header.chunkSize * blockSize)
    let (status, s) := writePartition e partitionName w.offset (slice img w.image len)
      (w.s.note (.payload k w.image len))
    if efiError status then { w with status := status, s := s }
    else { w with status := status, s := s, image := w.image + header.chunkSize * blockSize,
                  offset := u64 (w.offset + header.chunkSize * blockSize) }
  else if header.chunkType = CHUNK_TYPE_FILL then
    let w := fillLoop e partitionName img k (header.chunkSize * blockSize) w
    if efiError w.status then w else { w with image := w.image + 4 }
  else if header.chunkType = CHUNK_TYPE_DONT_CARE then
    { w with offset := u64 (w.offset + header.chunkSize * blockSize) }
  else w

/-- The chunk loop from chunk `k` on, with `n` chunks left. -/
def chunkLoop (partitionName : List UInt8) (img : ℕ → UInt8) : ℕ → ℕ → Walk ε → Walk ε
  | 0, _, w => w
  | n + 1, k, w =>
    let w := flashChunk e partitionName img k w
    if efiError w.status then w else chunkLoop partitionName img n (k + 1) w

/-- `heap` is what the fill buffer holds when it is allocated. -/
def flashSparseImage (heap : ℕ → UInt8) (partitionName : List UInt8) (img : ℕ → UInt8)
    (s : St ε) : Status × St ε :=
  let (allocated, env) := e.allocatePool s.env FILL_BUF_SIZE
  let s := { s with env := env }
  if !allocated then (EFI_OUT_OF_RESOURCES, s)
  else
    let w := chunkLoop e partitionName img (sparseHeader img).totalChunks 0
      ⟨EFI_SUCCESS, (sparseHeader img).fileHeaderSize, 0, heap, s⟩
    (w.status, w.s)

def flashPartition (heap : ℕ → UInt8) (partitionName : List UInt8) (bufferSize : ℕ)
    (buffer : Option (ℕ → UInt8)) (s : St ε) : Status × St ε :=
  match buffer with
  | none => (EFI_INVALID_PARAMETER, s)
  | some img =>
    if (sparseHeader img).magic = SPARSE_HEADER_MAGIC then
      if (sparseHeader img).majorVersion ≠ 1 then (EFI_INVALID_PARAMETER, s)
      else flashSparseImage e heap partitionName img s
    else writePartition e partitionName 0 (slice img 0 bufferSize) s

end UefiToolkit.SparseModel
