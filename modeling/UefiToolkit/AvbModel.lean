import UefiToolkit.Word
import UefiToolkit.Bytes

/-!
The partition operations of `UefiAvb`: a partition found by name in the GUID partition table, its
size, reads from it and writes to it.

Offsets are signed 64-bit values, sizes unsigned ones; where the two meet the program computes
modulo `2 ^ 64`, and so does a signed negation.
-/

namespace UefiToolkit.AvbModel

open UefiToolkit.Word UefiToolkit.Mem UefiToolkit.Bytes

inductive AvbIOResult
  | ok
  | errorOom
  | errorIo
  | errorNoSuchPartition
  | errorRangeOutsidePartition
  | errorNoSuchValue
  | errorInvalidValueSize
  | errorInsufficientSpace
  deriving DecidableEq

/-- A value stored into an `int64_t`. -/
def i64 (x : ℤ) : ℤ := (x + 2 ^ 63) % 2 ^ 64 - 2 ^ 63

/-- A value stored into a `uint64_t`. -/
def toU64 (x : ℤ) : ℕ := (x % 2 ^ 64).toNat

/-! ### Finding a partition -/

/-- `GPTEntry`, as far as the operations use it. -/
structure GptEntry where
  firstLba : UInt64
  lastLba : UInt64

/-- `sizeof (GPTEntry)`. -/
def gptEntrySize : ℕ := 128

/-- The entry at address `a`. -/
def gptEntryAt (m : ℕ → UInt8) (a : ℕ) : GptEntry where
  firstLba := UInt64.ofNat (word64 m (a + 32))
  lastLba := UInt64.ofNat (word64 m (a + 40))

/-- The memory from the name of the entry at address `a` on. -/
def entryName (m : ℕ → UInt8) (a i : ℕ) : UInt16 := UInt16.ofNat (word16 m (a + 56 + 2 * i))

/-- `sizeof (GPTHeader)`. -/
def gptHeaderSize : ℕ := 512

def GPT_ENTRIES_LBA : ℕ := 2
def ENTRIES_PER_BLOCK : ℕ := 4
def MAX_GPT_ENTRIES : ℕ := 128

/-- `sizeof (all_gpt_entries)`. -/
def allGptEntriesSize : ℕ := MAX_GPT_ENTRIES * gptEntrySize

/-- `BlockSize * (MAX_GPT_ENTRIES / ENTRIES_PER_BLOCK)`, in a `UINT32`. -/
def entriesNumBytes (blockSize : UInt32) : ℕ :=
  u32 (blockSize.toNat * (MAX_GPT_ENTRIES / ENTRIES_PER_BLOCK))

/-- The character that begins at byte `i`, and how long it is. -/
def ucs2At (utf8 : ℕ → UInt8) (i : ℕ) : Option (UInt16 × ℕ) :=
  if utf8 i &&& 0xF8 = 0xF0 then none
  else if utf8 i &&& 0xF0 = 0xE0 then
    some (((utf8 i).toUInt16 <<< 12) ||| (((utf8 (i + 1)).toUInt16 <<< 6) &&& 0x0FC0) |||
      ((utf8 (i + 2)).toUInt16 &&& 0x003F), 3)
  else if utf8 i &&& 0xE0 = 0xC0 then
    some ((((utf8 i).toUInt16 <<< 6) &&& 0x07C0) ||| ((utf8 (i + 1)).toUInt16 &&& 0x003F), 2)
  else if utf8 i >>> 7 = 0 then some ((utf8 i).toUInt16 &&& 0x00FF, 1)
  else none

lemma ucs2At_pos {utf8 : ℕ → UInt8} {i n : ℕ} {c : UInt16} (h : ucs2At utf8 i = some (c, n)) :
    0 < n := by
  unfold ucs2At at h
  split_ifs at h <;> (injection h with h; injection h with _ h; omega)

/-- `uefi_avb_utf8_to_ucs2`, from byte `i` on; at least one character is taken. -/
def utf8ToUcs2 (utf8 : ℕ → UInt8) (numBytes capacity i : ℕ) (ucs2 : List UInt16) :
    Option (List UInt16) :=
  if capacity ≤ ucs2.length then some ucs2
  else
    match _ : ucs2At utf8 i with
    | none => none
    | some (c, n) =>
      if i + n < numBytes then utf8ToUcs2 utf8 numBytes capacity (i + n) (ucs2 ++ [c])
      else some (ucs2 ++ [c])
termination_by numBytes - i
decreasing_by
  have := ucs2At_pos ‹_›
  omega

/-- The name as it is searched for; the partition name is a C string. -/
def partitionNameUcs2 (partitionName : List UInt8) : Option (List UInt16) :=
  (utf8ToUcs2 (fun i => (partitionName ++ [0]).getD i 0) partitionName.length
    (2 * (partitionName.length + 1)) 0 []).map fun ucs2 =>
      ucs2.takeWhile fun c => decide (c ≠ 0)

/-- The two lengths are equal and so are the names. -/
def sameName (entryName : ℕ → UInt16) (name : List UInt16) : Bool :=
  decide (slice entryName 0 (name.length + 1) = name ++ [0])

/-- The first entry of that name, in the memory from `all_gpt_entries` on. -/
def searchEntries (entryCount : ℕ) (entries : ℕ → UInt8) (name : List UInt16) : Option GptEntry :=
  ((List.range entryCount).find? fun n => sameName (entryName entries (n * gptEntrySize)) name).map
    fun n => gptEntryAt entries (n * gptEntrySize)

/-- The disk protocols, with the state behind them. -/
structure Services (ε : Type) where
  readBlocks : ε → (ℕ → UInt8) → ℕ → ℕ → Status × List UInt8 × ε
  readDisk : ε → (ℕ → UInt8) → ℕ → ℕ → Status × List UInt8 × ε
  writeDisk : ε → (ℕ → UInt8) → ℕ → List UInt8 → Status × (ℕ → UInt8) × ε
  /-- What is on the stack from `all_gpt_entries` on. -/
  stack : ε → ℕ → UInt8

/-- What the disk was asked for; the reads of the partition table are not noted. -/
inductive Event
  | readDisk (off len : ℕ)
  | writeDisk (off : ℕ) (data : List UInt8)

structure St (ε : Type) where
  env : ε
  content : ℕ → UInt8
  trace : List Event
  /-- How many lookups there were. -/
  lookups : ℕ

/-- What is passed with every call: whether the allocation `i` of lookup `k` succeeds, and
`BlockSize`. -/
structure Ops where
  allocates : ℕ → ℕ → Bool
  blockSize : UInt32

section Lookup

variable {ε : Type} (e : Services ε) (o : Ops)

/-- Every call reads the table from the disk as it is then. Nothing comes back where something is
stored outside of what there is: entries behind the end of the array, or an entry through a pointer
that is null. -/
def findPartitionEntryByName (partitionName : List UInt8) (s : St ε) :
    Option (Option GptEntry × St ε) :=
  let allocates := o.allocates s.lookups
  let s := { s with lookups := s.lookups + 1 }
  if !allocates 0 then some (none, s)
  else
    -- the second allocation is not checked: the pointer to its result is
    let r := e.readBlocks s.env s.content 1 gptHeaderSize
    let s := { s with env := r.2.2 }
    if efiError r.1 then some (none, s)
    else
      let entryCount := word32 (fun i => r.2.1.getD i 0) 80
      if !allocates 2 then some (none, s)
      else
        match partitionNameUcs2 partitionName with
        | none => some (none, s)
        | some name =>
          let allGptEntries := e.stack s.env
          let r := e.readBlocks s.env s.content GPT_ENTRIES_LBA (entriesNumBytes o.blockSize)
          let s := { s with env := r.2.2 }
          if allGptEntriesSize < r.2.1.length then none
          else if efiError r.1 then some (none, s)
          else
            match searchEntries entryCount (blit allGptEntries 0 r.2.1) name with
            | none => some (none, s)
            | some entry => if allocates 1 then some (some entry, s) else none

end Lookup

/-! ### The operations -/

/-- `(last_lba - first_lba + 1) * BlockSize`. -/
def partitionSize (entry : GptEntry) (blockSize : UInt32) : ℕ :=
  mul64 (add64 (sub64 entry.lastLba.toNat entry.firstLba.toNat) 1) blockSize.toNat

/-- A negative offset counts from the end; none if it lies before the start. -/
def resolveOffset (partitionSize : ℕ) (offset : ℤ) : Option ℤ :=
  if offset < 0 then
    if i64 partitionSize < i64 (-offset) then none
    else some (i64 (partitionSize - i64 (-offset)))
  else some offset

/-- `(first_lba * BlockSize) + offset_from_partition`. -/
def diskOffset (entry : GptEntry) (blockSize : UInt32) (offset : ℤ) : ℕ :=
  toU64 (mul64 entry.firstLba.toNat blockSize.toNat + offset)

section Operations

variable {ε : Type} (e : Services ε) (o : Ops)

/-- What a read does with the entry it has found. -/
def readFromEntry (entry : GptEntry) (offset : ℤ) (numBytes : ℕ) (s : St ε) :
    (AvbIOResult × Option ℕ × List UInt8) × St ε :=
  let size := partitionSize entry o.blockSize
  match resolveOffset size offset with
  | none => ((.errorRangeOutsidePartition, none, []), s)
  | some offset =>
    let room := toU64 (size - offset)
    let outNumRead := if room < numBytes then room else numBytes
    let pos := diskOffset entry o.blockSize offset
    let r := e.readDisk s.env s.content pos outNumRead
    let s := { s with trace := s.trace ++ [.readDisk pos outNumRead], env := r.2.2 }
    if efiError r.1 then ((.errorIo, some 0, r.2.1), s) else ((.ok, some outNumRead, r.2.1), s)

/-- The result, `*out_num_read` if it is stored, and what was read. -/
def readFromPartition (partitionName : List UInt8) (offset : ℤ) (numBytes : ℕ) (s : St ε) :
    Option ((AvbIOResult × Option ℕ × List UInt8) × St ε) :=
  match findPartitionEntryByName e o partitionName s with
  | none => none
  | some (none, s) => some ((.errorNoSuchPartition, none, []), s)
  | some (some entry, s) => some (readFromEntry e o entry offset numBytes s)

/-- What a write does with the entry it has found. -/
def writeToEntry (entry : GptEntry) (offset : ℤ) (data : List UInt8) (s : St ε) :
    AvbIOResult × St ε :=
  let size :=
    mul64 (sub64 entry.lastLba.toNat entry.firstLba.toNat) o.blockSize.toNat
  match resolveOffset size offset with
  | none => (.errorRangeOutsidePartition, s)
  | some offset =>
    if toU64 (size - offset) < data.length then (.errorRangeOutsidePartition, s)
    else
      let pos := diskOffset entry o.blockSize offset
      let r := e.writeDisk s.env s.content pos data
      let s := { s with
        trace := s.trace ++ [.writeDisk pos data], content := r.2.1, env := r.2.2 }
      if efiError r.1 then (.errorIo, s) else (.ok, s)

def writeToPartition (partitionName : List UInt8) (offset : ℤ) (data : List UInt8) (s : St ε) :
    Option (AvbIOResult × St ε) :=
  match findPartitionEntryByName e o partitionName s with
  | none => none
  | some (none, s) => some (.errorNoSuchPartition, s)
  | some (some entry, s) => some (writeToEntry e o entry offset data s)

/-- The result, and `*out_size` if it is stored. -/
def getSizeOfPartition (partitionName : List UInt8) (s : St ε) :
    Option ((AvbIOResult × Option ℕ) × St ε) :=
  match findPartitionEntryByName e o partitionName s with
  | none => none
  | some (none, s) => some ((.errorNoSuchPartition, none), s)
  | some (some entry, s) => some ((.ok, some (partitionSize entry o.blockSize)), s)

end Operations

end UefiToolkit.AvbModel
