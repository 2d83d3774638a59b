import UefiToolkit.AvbModel

/-!
When the three partition operations agree on one partition.

A write takes the partition for one block shorter than a read and the size query do. Whether that
shows depends on where the request lies. And every operation looks the partition up anew, in the
table that is on the disk then.
-/

namespace UefiToolkit.AvbPartition

open UefiToolkit.Word UefiToolkit.Mem UefiToolkit.Bytes UefiToolkit.AvbModel

/-! ### The table on the disk -/

/-- The entry of that name on a disk, with `stack` in the memory where the entries are read to. -/
def tableEntry (blockSize : UInt32) (name : List UInt8) (content stack : ℕ → UInt8) :
    Option GptEntry :=
  (partitionNameUcs2 name).bind fun name =>
    searchEntries
      (word32 (fun i => (slice content (1 * blockSize.toNat) gptHeaderSize).getD i 0) 80)
      (blit stack 0 (slice content (GPT_ENTRIES_LBA * blockSize.toNat) (entriesNumBytes blockSize)))
      name

/-- A partition that is found by its name on a disk, if there is memory for a lookup at times. -/
structure Partition where
  ops : Ops
  name : List UInt8
  disk : ℕ → UInt8
  entry : GptEntry
  found : ∀ stack, tableEntry ops.blockSize name disk stack = some entry
  served : ∃ k, ops.allocates k 0 = true ∧ ops.allocates k 2 = true
  ordered : entry.firstLba ≤ entry.lastLba

namespace Partition

variable (p : Partition)

def blockSize : ℕ := p.ops.blockSize.toNat

def start : ℕ := p.entry.firstLba.toNat * p.blockSize

def stop : ℕ := (p.entry.lastLba.toNat + 1) * p.blockSize

def size : ℕ := (p.entry.lastLba.toNat - p.entry.firstLba.toNat + 1) * p.blockSize

/-- The offset from the start that an offset denotes. -/
def target (offset : ℤ) : ℤ := if offset < 0 then p.size + offset else offset

/-- A request inside the partition. -/
def Fits (offset : ℤ) (numBytes : ℕ) : Prop :=
  0 ≤ p.target offset ∧ p.target offset + numBytes ≤ p.size

end Partition

/-! ### Agreement on a request -/

section Devices

variable {ε : Type}

/-- The reads of the table fail, or give the bytes on the disk. -/
def ReadsTable (e : Services ε) (blockSize : UInt32) : Prop :=
  ∀ s mem lba len, (e.readBlocks s mem lba len).2.1.length ≤ len ∧
    (¬ efiError (e.readBlocks s mem lba len).1 = true →
      (e.readBlocks s mem lba len).2.1 = slice mem (lba * blockSize.toNat) len)

/-- There is memory for the lookup, the unchecked allocation aside, and the disk gives the table. -/
def LooksUp (e : Services ε) (o : Ops) (s : St ε) : Prop :=
  o.allocates s.lookups 0 = true ∧ o.allocates s.lookups 2 = true ∧
    ¬ efiError (e.readBlocks s.env s.content 1 gptHeaderSize).1 = true ∧
    ¬ efiError (e.readBlocks (e.readBlocks s.env s.content 1 gptHeaderSize).2.2 s.content
      GPT_ENTRIES_LBA (entriesNumBytes o.blockSize)).1 = true

/-- The bytes of the partition are kept by the disk. -/
structure Stores (e : Services ε) (p : Partition) : Prop where
  table : ReadsTable e p.ops.blockSize
  reads : ∀ s mem pos len, p.start ≤ pos → pos + len ≤ p.stop →
    ∃ s', e.readDisk s mem pos len = (EFI_SUCCESS, slice mem pos len, s')
  writes : ∀ s mem pos data, p.start ≤ pos → pos + data.length ≤ p.stop →
    ∃ s', e.writeDisk s mem pos data = (EFI_SUCCESS, blit mem pos data, s')

end Devices

/-- A read that begins in the partition is cut at its end; no other read leaves the partition. -/
structure ReadsInside (p : Partition) (offset : ℤ) (numBytes : ℕ) (l : List Event) : Prop where
  inside : ∀ pos len, .readDisk pos len ∈ l → p.start ≤ pos ∧ pos + len ≤ p.stop
  asked : 0 ≤ p.target offset → p.target offset ≤ p.size →
    l = [.readDisk (p.start + (p.target offset).toNat)
      (min numBytes (p.size - (p.target offset).toNat))]

/-- A write inside the partition is made where it belongs, any other one is refused. -/
structure WritesInside (p : Partition) (offset : ℤ) (data : List UInt8) (result : AvbIOResult)
    (l : List Event) : Prop where
  asked : p.Fits offset data.length → l = [.writeDisk (p.start + (p.target offset).toNat) data]
  refused : ¬ p.Fits offset data.length → l = [] ∧ result = .errorRangeOutsidePartition

/-- The operations agree on requests with this offset and length: each of them returns, and it
answers for the partition whenever the lookup has what it asks for. After a write that was accepted
the partition has the size it had, and is read where it was written. -/
structure Agrees (p : Partition) (offset : ℤ) (numBytes : ℕ) : Prop where
  size : ∀ (ε : Type) (e : Services ε) (s : St ε), ReadsTable e p.ops.blockSize →
    s.content = p.disk → ∃ r s', getSizeOfPartition e p.ops p.name s = some (r, s') ∧
      (LooksUp e p.ops s → r = (.ok, some p.size)) ∧
      (¬ LooksUp e p.ops s → r = (.errorNoSuchPartition, none))
  read : ∀ (ε : Type) (e : Services ε) (s : St ε), ReadsTable e p.ops.blockSize →
    s.content = p.disk → ∃ r s' l,
      readFromPartition e p.ops p.name offset numBytes s = some (r, s') ∧
      s'.trace = s.trace ++ l ∧
      (LooksUp e p.ops s → ReadsInside p offset numBytes l) ∧
      (¬ LooksUp e p.ops s → l = [] ∧ r.1 = .errorNoSuchPartition)
  write : ∀ (ε : Type) (e : Services ε) (s : St ε) (data : List UInt8),
    ReadsTable e p.ops.blockSize → s.content = p.disk → data.length = numBytes → ∃ r s' l,
      writeToPartition e p.ops p.name offset data s = some (r, s') ∧
      s'.trace = s.trace ++ l ∧
      (LooksUp e p.ops s → WritesInside p offset data r l) ∧
      (¬ LooksUp e p.ops s → l = [] ∧ r = .errorNoSuchPartition)
  roundTrip : ∀ (ε : Type) (e : Services ε), Stores e p →
    ∀ (s s₁ s₂ : St ε) (data : List UInt8), s.content = p.disk → data.length = numBytes →
      writeToPartition e p.ops p.name offset data s = some (.ok, s₁) →
      s₂.content = s₁.content → LooksUp e p.ops s₂ →
      (∃ s₃, getSizeOfPartition e p.ops p.name s₂ = some ((.ok, some p.size), s₃)) ∧
      ∃ s₃, readFromPartition e p.ops p.name offset numBytes s₂ =
          some ((.ok, some numBytes, data), s₃) ∧
        s₃.trace = s₂.trace ++ [.readDisk (p.start + (p.target offset).toNat) numBytes]

/-! ### The requests that are spared -/

/-- The reads whose offset and address fit: from the start up to the end, or from the end with an
offset whose sign can be changed (a partition of `2 ^ 63` bytes counts as a negative size). -/
structure ReadSpared (p : Partition) (offset : ℤ) : Prop where
  front : 0 ≤ offset → offset ≤ p.size ∧ p.start + offset < 2 ^ 64
  back : offset < 0 →
    (p.size < 2 ^ 63 ∧ offset ≠ -2 ^ 63 ∨ 2 ^ 63 ≤ p.size ∧ offset = -2 ^ 63) ∧
    (-offset ≤ p.size → p.start + p.size + offset < 2 ^ 64)

/-- The writes that the missing block does not touch. From the start: all before the last block,
all behind where a write takes the end to be, or across that place and the end. From the end: a
request that does not fit. -/
structure WriteSpared (p : Partition) (offset : ℤ) (numBytes : ℕ) : Prop where
  front : 0 ≤ offset →
    offset + numBytes ≤ p.size - p.blockSize ∨
      p.size - p.blockSize < offset ∧ offset + numBytes ≤ p.size ∨
      offset ≤ p.size - p.blockSize ∧ p.size < offset + numBytes ∨
      p.size - p.blockSize + 2 ^ 64 < offset + numBytes
  back : offset < 0 → p.size < -offset ∨ -offset < numBytes

/-- Where the program takes the partition of an entry to begin, and its size. -/
def place (entry : GptEntry) (blockSize : UInt32) : ℕ × ℕ :=
  (mul64 entry.firstLba.toNat blockSize.toNat, partitionSize entry blockSize)

/-- Whatever is written by a request that fits, the table still has the partition in its place. -/
def KeepsTable (p : Partition) (offset : ℤ) (numBytes : ℕ) : Prop :=
  p.Fits offset numBytes → ∀ data stack, data.length = numBytes →
    ∃ entry, tableEntry p.ops.blockSize p.name
        (blit p.disk (p.start + (p.target offset).toNat) data) stack = some entry ∧
      place entry p.ops.blockSize = place p.entry p.ops.blockSize

/-- Behind the table a partition can be written to without moving it. -/
lemma keepsTable_of_behind {p : Partition}
    (hheader : 1 * p.ops.blockSize.toNat + gptHeaderSize ≤ p.start)
    (hentries : GPT_ENTRIES_LBA * p.ops.blockSize.toNat + entriesNumBytes p.ops.blockSize ≤ p.start)
    (offset : ℤ) (numBytes : ℕ) : KeepsTable p offset numBytes := by
  intro _ data stack _
  refine ⟨p.entry, ?_, rfl⟩
  rw [← p.found stack]
  unfold tableEntry
  rw [slice_blit_out _ (Or.inl (by omega)), slice_blit_out _ (Or.inl (by omega))]

/-- What it takes for no lookup to store outside of what there is: the allocation that is not
checked never fails alone, and the blocks of the entries fit into the array. -/
structure Safe (p : Partition) : Prop where
  pool : ∀ k, p.ops.allocates k 0 = true → p.ops.allocates k 2 = true →
    p.ops.allocates k 1 = true
  entries : entriesNumBytes p.ops.blockSize ≤ allGptEntriesSize

structure Spared (p : Partition) (offset : ℤ) (numBytes : ℕ) : Prop where
  safe : Safe p
  size : p.size < 2 ^ 64
  read : ReadSpared p offset
  write : WriteSpared p offset numBytes
  table : KeepsTable p offset numBytes

/-! ### Sizes and requests as the program computes them -/

namespace Partition

variable (p : Partition)

lemma first_le_last : p.entry.firstLba.toNat ≤ p.entry.lastLba.toNat :=
  UInt64.le_iff_toNat_le.mp p.ordered

lemma stop_eq : p.stop = p.start + p.size := by
  have hle := p.first_le_last
  rw [stop, start, size, ← Nat.add_mul]
  congr 1
  omega

lemma blockSize_le_size : p.blockSize ≤ p.size := Nat.le_mul_of_pos_left _ (Nat.succ_pos _)

lemma size_eq_zero (h : p.blockSize = 0) : p.size = 0 := by rw [size, h, Nat.mul_zero]

lemma partitionSize_eq : partitionSize p.entry p.ops.blockSize = p.size % 2 ^ 64 := by
  rw [partitionSize, sub64_of_le p.entry.lastLba.toNat_lt p.first_le_last, mul64, add64, u64, u64,
    Nat.mod_mul_mod]
  rfl

/-- The size a write works with. -/
lemma writeSize_eq (h : p.size < 2 ^ 64) :
    mul64 (sub64 p.entry.lastLba.toNat p.entry.firstLba.toNat) p.ops.blockSize.toNat =
      p.size - p.blockSize := by
  have hsize : p.size = (p.entry.lastLba.toNat - p.entry.firstLba.toNat) * p.blockSize +
      p.blockSize := by rw [size, Nat.add_mul, Nat.one_mul]
  rw [sub64_of_le p.entry.lastLba.toNat_lt p.first_le_last, mul64]
  change u64 (_ * p.blockSize) = _
  rw [u64_of_lt (by omega)]
  omega

lemma diskOffset_eq (offset : ℤ) : diskOffset p.entry p.ops.blockSize offset =
    toU64 ((p.start % 2 ^ 64 : ℕ) + offset) := rfl

lemma place_eq : place p.entry p.ops.blockSize = (p.start % 2 ^ 64, p.size % 2 ^ 64) := by
  rw [place, p.partitionSize_eq]
  rfl

/-- Where a write asks the disk to write. -/
def writeRequest (offset : ℤ) (numBytes : ℕ) : Option ℕ :=
  (resolveOffset (p.size - p.blockSize) offset).bind fun o =>
    if toU64 ((p.size - p.blockSize : ℕ) - o) < numBytes then none
    else some (toU64 ((p.start % 2 ^ 64 : ℕ) + o))

end Partition

/-- What a read asks of the disk, for a partition in such a place. -/
def readRequest (place : ℕ × ℕ) (offset : ℤ) (numBytes : ℕ) : Option (ℕ × ℕ) :=
  (resolveOffset place.2 offset).map fun o =>
    (toU64 (place.1 + o), min numBytes (toU64 (place.2 - o)))

def Partition.readRequest (p : Partition) (offset : ℤ) (numBytes : ℕ) : Option (ℕ × ℕ) :=
  AvbPartition.readRequest (p.start % 2 ^ 64, p.size % 2 ^ 64) offset numBytes

section Requests

variable {ε : Type} (e : Services ε) (p : Partition) {offset : ℤ} {numBytes : ℕ}

lemma readFromEntry_none {entry : GptEntry} {o : Ops}
    (h : readRequest (place entry o.blockSize) offset numBytes = none) (s : St ε) :
    readFromEntry e o entry offset numBytes s = ((.errorRangeOutsidePartition, none, []), s) := by
  have hres : resolveOffset (partitionSize entry o.blockSize) offset = none := by
    simpa [readRequest, place] using h
  unfold readFromEntry
  dsimp only
  rw [hres]

lemma readFromEntry_some {entry : GptEntry} {o : Ops} {pos len : ℕ}
    (h : readRequest (place entry o.blockSize) offset numBytes = some (pos, len)) (s : St ε) :
    readFromEntry e o entry offset numBytes s =
      (if efiError (e.readDisk s.env s.content pos len).1 then
          (.errorIo, some 0, (e.readDisk s.env s.content pos len).2.1)
        else (.ok, some len, (e.readDisk s.env s.content pos len).2.1),
        { s with trace := s.trace ++ [.readDisk pos len]
                 env := (e.readDisk s.env s.content pos len).2.2 }) := by
  obtain ⟨x, hres, heq⟩ := Option.map_eq_some_iff.mp h
  injection heq with hpos hlen
  have hmin : (if toU64 ((partitionSize entry o.blockSize : ℕ) - x) < numBytes
      then toU64 ((partitionSize entry o.blockSize : ℕ) - x) else numBytes) = len := by
    rw [← hlen]
    dsimp only [place]
    split_ifs <;> omega
  have hpos : diskOffset entry o.blockSize x = pos := hpos
  dsimp only [place] at hres
  unfold readFromEntry
  dsimp only
  rw [hres]
  dsimp only
  rw [hmin, hpos]
  split_ifs <;> rfl

lemma readFromEntry_trace (entry : GptEntry) (o : Ops) (offset : ℤ) (numBytes : ℕ) (s : St ε) :
    (readFromEntry e o entry offset numBytes s).2.trace = s.trace ++
      (readRequest (place entry o.blockSize) offset numBytes).toList.map
        fun r => .readDisk r.1 r.2 := by
  rcases h : readRequest (place entry o.blockSize) offset numBytes with _ | ⟨pos, len⟩
  · rw [readFromEntry_none e h]
    simp
  · rw [readFromEntry_some e h]
    rfl

lemma writeToEntry_none (hsize : p.size < 2 ^ 64) {data : List UInt8}
    (h : p.writeRequest offset data.length = none) (s : St ε) :
    writeToEntry e p.ops p.entry offset data s = (.errorRangeOutsidePartition, s) := by
  unfold writeToEntry
  dsimp only
  rw [p.writeSize_eq hsize]
  unfold Partition.writeRequest at h
  cases hres : resolveOffset (p.size - p.blockSize) offset with
  | none => rfl
  | some o =>
    rw [hres, Option.bind_some] at h
    dsimp only
    split_ifs at h ⊢ with hroom
    rfl

lemma writeToEntry_some (hsize : p.size < 2 ^ 64) {data : List UInt8} {pos : ℕ}
    (h : p.writeRequest offset data.length = some pos) (s : St ε) :
    writeToEntry e p.ops p.entry offset data s =
      (if efiError (e.writeDisk s.env s.content pos data).1 then .errorIo else .ok,
        { s with trace := s.trace ++ [.writeDisk pos data]
                 content := (e.writeDisk s.env s.content pos data).2.1
                 env := (e.writeDisk s.env s.content pos data).2.2 }) := by
  unfold writeToEntry
  dsimp only
  rw [p.writeSize_eq hsize]
  unfold Partition.writeRequest at h
  cases hres : resolveOffset (p.size - p.blockSize) offset with
  | none => rw [hres] at h; cases h
  | some o =>
    rw [hres, Option.bind_some] at h
    split_ifs at h with hroom
    injection h with hpos
    dsimp only
    rw [if_neg hroom, p.diskOffset_eq, hpos]
    split_ifs <;> rfl

lemma writeToEntry_trace (offset : ℤ) (hsize : p.size < 2 ^ 64) (data : List UInt8) (s : St ε) :
    (writeToEntry e p.ops p.entry offset data s).2.trace = s.trace ++
        (p.writeRequest offset data.length).toList.map (fun pos => .writeDisk pos data) ∧
      (p.writeRequest offset data.length = none →
        (writeToEntry e p.ops p.entry offset data s).1 = .errorRangeOutsidePartition) := by
  cases h : p.writeRequest offset data.length with
  | none =>
    rw [writeToEntry_none e p hsize h]
    exact ⟨by simp, fun _ => rfl⟩
  | some pos =>
    rw [writeToEntry_some e p hsize h]
    exact ⟨rfl, fun hno => by cases hno⟩

end Requests

/-! ### Which requests are spared -/

lemma i64_of_range {x : ℤ} (hlo : -2 ^ 63 ≤ x) (hhi : x < 2 ^ 63) : i64 x = x := by
  unfold i64
  omega

lemma resolveOffset_front {n : ℕ} {offset : ℤ} (h : 0 ≤ offset) :
    resolveOffset n offset = some offset := by rw [resolveOffset, if_neg (by omega)]

lemma resolveOffset_back {n : ℕ} {offset : ℤ} (h : offset < 0) :
    resolveOffset n offset =
      if i64 n < i64 (-offset) then none else some (i64 (n - i64 (-offset))) := by
  rw [resolveOffset, if_pos h]

/-- An offset from the end whose sign can be changed. -/
lemma resolveOffset_small {n : ℕ} {offset : ℤ} (hn : n < 2 ^ 63) (h : offset < 0)
    (hlo : -2 ^ 63 < offset) :
    resolveOffset n offset = if n < -offset then none else some (n + offset) := by
  have hi : i64 n = n := i64_of_range (by omega) (by omega)
  have hneg : i64 (-offset) = -offset := i64_of_range (by omega) (by omega)
  rw [resolveOffset_back h, hi, hneg]
  split_ifs with hout
  · rfl
  · rw [sub_neg_eq_add, i64_of_range (by omega) (by omega)]

/-- The offset whose sign cannot be changed is never refused. -/
lemma resolveOffset_min {n : ℕ} (hn : n < 2 ^ 64) :
    resolveOffset n (-2 ^ 63) = some ((n : ℤ) - 2 ^ 63) := by
  have hneg : i64 (-(-2 ^ 63)) = -2 ^ 63 := by unfold i64; omega
  have hout : ¬ i64 n < -2 ^ 63 := by unfold i64; omega
  have hsum : i64 (n - -2 ^ 63) = (n : ℤ) - 2 ^ 63 := by unfold i64; omega
  rw [resolveOffset_back (by norm_num), hneg, if_neg hout, hsum]

section Arithmetic

variable {p : Partition} {offset : ℤ} {numBytes : ℕ}

/-- The request of a read is one inside the partition, and the one that is meant. -/
def GoodRead (p : Partition) (offset : ℤ) (numBytes : ℕ) : Prop :=
  (∀ pos len, p.readRequest offset numBytes = some (pos, len) →
    p.start ≤ pos ∧ pos + len ≤ p.start + p.size) ∧
  (0 ≤ p.target offset → p.target offset ≤ p.size → p.readRequest offset numBytes =
    some (p.start + (p.target offset).toNat, min numBytes (p.size - (p.target offset).toNat)))

/-- The request of a write is the one that is meant, if it fits, and none otherwise. -/
def GoodWrite (p : Partition) (offset : ℤ) (numBytes : ℕ) : Prop :=
  (p.Fits offset numBytes →
    p.writeRequest offset numBytes = some (p.start + (p.target offset).toNat)) ∧
  (¬ p.Fits offset numBytes → p.writeRequest offset numBytes = none)

lemma goodRead_iff (hsize : p.size < 2 ^ 64) (hlo : -2 ^ 63 ≤ offset) (hhi : offset < 2 ^ 63)
    (hn : numBytes < 2 ^ 64) : GoodRead p offset numBytes ↔ ReadSpared p offset := by
  unfold GoodRead Partition.readRequest readRequest
  dsimp only
  rw [Nat.mod_eq_of_lt hsize]
  rcases lt_or_ge offset 0 with hneg | hpos
  · rw [Partition.target, if_pos hneg, resolveOffset_back hneg]
    have hiff : ReadSpared p offset ↔
        (p.size < 2 ^ 63 ∧ offset ≠ -2 ^ 63 ∨ 2 ^ 63 ≤ p.size ∧ offset = -2 ^ 63) ∧
        (-offset ≤ p.size → p.start + p.size + offset < 2 ^ 64) :=
      ⟨fun h => h.back hneg, fun h => ⟨fun h0 => absurd h0 (by omega), fun _ => h⟩⟩
    rw [hiff]
    unfold i64 toU64
    split_ifs with hout
    · -- refused: the offset lies before the start
      simp only [Option.map_none, reduceCtorEq]
      constructor
      · rintro ⟨-, h⟩
        have hbefore : ¬ 0 ≤ (p.size : ℤ) + offset := fun h0 => h h0 (by omega)
        omega
      · exact fun h => ⟨by simp, fun h0 _ => by omega⟩
    · simp only [Option.map_some, Option.some.injEq, Prod.mk.injEq]
      constructor
      · rintro ⟨hinside, hasked⟩
        have hin := hinside _ _ ⟨rfl, rfl⟩
        by_cases h0 : 0 ≤ (p.size : ℤ) + offset
        · have hreq := hasked h0 (by omega)
          omega
        · omega
      · intro h
        refine ⟨?_, by omega⟩
        rintro pos len ⟨rfl, rfl⟩
        omega
  · rw [Partition.target, if_neg (by omega), resolveOffset_front hpos]
    have hiff : ReadSpared p offset ↔ offset ≤ p.size ∧ p.start + offset < 2 ^ 64 :=
      ⟨fun h => h.front hpos, fun h => ⟨fun _ => h, fun h0 => absurd h0 (by omega)⟩⟩
    rw [hiff]
    simp only [Option.map_some, Option.some.injEq, Prod.mk.injEq]
    unfold toU64
    constructor
    · rintro ⟨hinside, hasked⟩
      have hin := hinside _ _ ⟨rfl, rfl⟩
      omega
    · intro h
      refine ⟨?_, by omega⟩
      rintro pos len ⟨rfl, rfl⟩
      omega

/-- From the end, a write is refused when it does not fit, and goes a block too low otherwise. -/
lemma writeRequest_back (numBytes : ℕ) (hsize : p.size < 2 ^ 64) (hlo : -2 ^ 63 ≤ offset)
    (hneg : offset < 0)
    (hread : ReadSpared p offset) :
    (p.size < -offset ∨ -offset < numBytes → p.writeRequest offset numBytes = none) ∧
    (-offset ≤ p.size → p.writeRequest offset numBytes ≠
      some (p.start + (p.size + offset).toNat)) := by
  have hblock := p.blockSize_le_size
  have hzero := p.size_eq_zero
  obtain ⟨hcase, haddr⟩ := hread.back hneg
  unfold Partition.writeRequest toU64
  rcases hcase with ⟨hsmall, hne⟩ | ⟨hbig, rfl⟩
  · rw [resolveOffset_small (by omega) hneg (by omega)]
    split_ifs with hout
    · exact ⟨fun _ => rfl, fun _ => by simp⟩
    · rw [Option.bind_some]
      split_ifs with hroom
      · exact ⟨fun _ => rfl, fun _ => by simp⟩
      · refine ⟨fun h => absurd h (by omega), fun h heq => ?_⟩
        injection heq with heq
        omega
  · rw [resolveOffset_min (by omega), Option.bind_some]
    split_ifs with hroom
    · exact ⟨fun _ => rfl, fun _ => by simp⟩
    · refine ⟨fun h => absurd h (by omega), fun h heq => ?_⟩
      injection heq with heq
      omega

/-- From the start, a write has the room up to its own end, modulo `2 ^ 64`. -/
lemma writeRequest_front (hsize : p.size < 2 ^ 64) (hpos : 0 ≤ offset) (hhi : offset < 2 ^ 63)
    (hn : numBytes < 2 ^ 64) (hread : ReadSpared p offset) :
    (p.writeRequest offset numBytes = none ∨
      p.writeRequest offset numBytes = some (p.start + offset.toNat)) ∧
    (p.writeRequest offset numBytes = none ↔
      offset ≤ p.size - p.blockSize ∧ p.size - p.blockSize < offset + numBytes ∨
        p.size - p.blockSize + 2 ^ 64 < offset + numBytes) := by
  have hblock := p.blockSize_le_size
  obtain ⟨hle, haddr⟩ := hread.front hpos
  have hpos' : toU64 ((p.start % 2 ^ 64 : ℕ) + offset) = p.start + offset.toNat := by
    unfold toU64; omega
  unfold Partition.writeRequest
  rw [resolveOffset_front hpos, Option.bind_some, hpos']
  unfold toU64
  split_ifs with hroom
  · exact ⟨Or.inl rfl, fun _ => by omega, fun _ => rfl⟩
  · exact ⟨Or.inr rfl, fun h => (by cases h), fun h => by omega⟩

/-- For an offset that a read takes right, a write goes right just for the spared requests. -/
lemma goodWrite_iff (hsize : p.size < 2 ^ 64) (hlo : -2 ^ 63 ≤ offset) (hhi : offset < 2 ^ 63)
    (hn : numBytes < 2 ^ 64) (hread : ReadSpared p offset) :
    GoodWrite p offset numBytes ↔ WriteSpared p offset numBytes := by
  have hblock := p.blockSize_le_size
  unfold GoodWrite Partition.Fits
  rcases lt_or_ge offset 0 with hneg | hpos
  · obtain ⟨hnone, hlow⟩ := writeRequest_back numBytes hsize hlo hneg hread
    rw [Partition.target, if_pos hneg]
    constructor
    · rintro ⟨hasked, -⟩
      refine ⟨fun h0 => absurd h0 (by omega), fun _ => ?_⟩
      by_contra hno
      exact hlow (by omega) (hasked ⟨by omega, by omega⟩)
    · intro h
      have hback := h.back hneg
      exact ⟨fun hfit => absurd hback (by omega), fun _ => hnone hback⟩
  · obtain ⟨hcases, hiff⟩ := writeRequest_front hsize hpos hhi hn hread
    have hle := (hread.front hpos).1
    rw [Partition.target, if_neg (by omega)]
    constructor
    · rintro ⟨hasked, hrefused⟩
      refine ⟨fun _ => ?_, fun h0 => absurd h0 (by omega)⟩
      by_cases hfit : offset + numBytes ≤ p.size
      · have hsome := hasked ⟨hpos, hfit⟩
        have hnot := mt hiff.mpr (by rw [hsome]; simp)
        omega
      · have hnone := hiff.mp (hrefused fun h => hfit h.2)
        omega
    · intro h
      have hfront := h.front hpos
      refine ⟨fun hfit => hcases.resolve_left fun hnone => ?_, fun hno => hiff.mpr ?_⟩
      · have := hiff.mp hnone
        omega
      · omega

end Arithmetic

/-! ### The lookup -/

section Lookup

variable {ε : Type} {e : Services ε} {o : Ops} {name : List UInt8} {s : St ε}

/-- What a lookup leaves as it was. -/
def Same (s s' : St ε) : Prop := s'.content = s.content ∧ s'.trace = s.trace

/-- A lookup that lacks something finds nothing. -/
lemma find_refused (name : List UInt8) (he : ReadsTable e o.blockSize)
    (hroom : entriesNumBytes o.blockSize ≤ allGptEntriesSize) (h : ¬ LooksUp e o s) :
    ∃ s', Same s s' ∧ findPartitionEntryByName e o name s = some (none, s') := by
  unfold findPartitionEntryByName
  dsimp only
  by_cases h0 : o.allocates s.lookups 0 = true
  swap
  · refine ⟨{ s with lookups := s.lookups + 1 }, ⟨rfl, rfl⟩, ?_⟩
    simp [h0]
  obtain ⟨env, henv⟩ : ∃ env, env = (e.readBlocks s.env s.content 1 gptHeaderSize).2.2 := ⟨_, rfl⟩
  rw [← henv]
  by_cases hstop : efiError (e.readBlocks s.env s.content 1 gptHeaderSize).1 = true ∨
      ¬ o.allocates s.lookups 2 = true ∨ partitionNameUcs2 name = none
  · refine ⟨{ s with env := env, lookups := s.lookups + 1 }, ⟨rfl, rfl⟩, ?_⟩
    rcases hstop with hheader | h2 | hname
    · simp [h0, hheader]
    · simp [h0, h2]
    · simp [h0, hname]
  · push Not at hstop
    obtain ⟨hheader, h2, hname⟩ := hstop
    obtain ⟨ucs2, hucs2⟩ := Option.ne_none_iff_exists'.mp hname
    have hentries : efiError (e.readBlocks env s.content GPT_ENTRIES_LBA
        (entriesNumBytes o.blockSize)).1 = true := by
      by_contra hnot
      exact h ⟨h0, h2, hheader, henv ▸ hnot⟩
    have hlen := (he env s.content GPT_ENTRIES_LBA (entriesNumBytes o.blockSize)).1
    have hfit : ¬ allGptEntriesSize < (e.readBlocks env s.content GPT_ENTRIES_LBA
        (entriesNumBytes o.blockSize)).2.1.length := by omega
    refine ⟨{ s with
      env := (e.readBlocks env s.content GPT_ENTRIES_LBA (entriesNumBytes o.blockSize)).2.2
      lookups := s.lookups + 1 }, ⟨rfl, rfl⟩, ?_⟩
    simp [h0, h2, hheader, hucs2, hentries, hfit]

/-- What is on the stack when a lookup reads the entries. -/
def stackAt (e : Services ε) (s : St ε) : ℕ → UInt8 :=
  e.stack (e.readBlocks s.env s.content 1 gptHeaderSize).2.2

/-- How a lookup ends with what the table has: an entry is stored in what was allocated for it. -/
def stored (o : Ops) (s s' : St ε) : Option GptEntry → Option (Option GptEntry × St ε)
  | none => some (none, s')
  | some entry => if o.allocates s.lookups 1 then some (some entry, s') else none

/-- A lookup that has what it asks for goes by the table. -/
lemma find_looksUp (he : ReadsTable e o.blockSize) (h : LooksUp e o s)
    (hname : (partitionNameUcs2 name).isSome) :
    ∃ s', Same s s' ∧ findPartitionEntryByName e o name s =
      if allGptEntriesSize < entriesNumBytes o.blockSize then none
      else stored o s s' (tableEntry o.blockSize name s.content (stackAt e s)) := by
  obtain ⟨h0, h2, hheader, hentries⟩ := h
  obtain ⟨ucs2, hucs2⟩ := Option.isSome_iff_exists.mp hname
  have hbytes := (he s.env s.content 1 gptHeaderSize).2 hheader
  have hblocks := (he (e.readBlocks s.env s.content 1 gptHeaderSize).2.2 s.content
    GPT_ENTRIES_LBA (entriesNumBytes o.blockSize)).2 hentries
  unfold findPartitionEntryByName tableEntry stackAt
  dsimp only
  obtain ⟨env, henv⟩ : ∃ env, env = (e.readBlocks s.env s.content 1 gptHeaderSize).2.2 := ⟨_, rfl⟩
  rw [← henv] at hblocks hentries ⊢
  refine ⟨{ s with
    env := (e.readBlocks env s.content GPT_ENTRIES_LBA (entriesNumBytes o.blockSize)).2.2
    lookups := s.lookups + 1 }, ⟨rfl, rfl⟩, ?_⟩
  rw [hucs2, Option.bind_some, hblocks, hbytes, slice_length]
  simp only [h0, h2, hheader, hentries, Bool.not_true, Bool.false_eq_true, if_false]
  refine if_congr Iff.rfl rfl ?_
  cases searchEntries _ _ ucs2 <;> rfl

end Lookup

/-! ### The operations -/

section Operations

variable {ε : Type} {e : Services ε} {p : Partition} {offset : ℤ} {numBytes : ℕ} {s : St ε}

lemma Partition.named (p : Partition) : (partitionNameUcs2 p.name).isSome := by
  have h := p.found fun _ => 0
  unfold tableEntry at h
  cases hname : partitionNameUcs2 p.name with
  | none =>
    rw [hname] at h
    cases h
  | some ucs2 => rfl

lemma find_found (hsafe : Safe p) (he : ReadsTable e p.ops.blockSize) (hs : s.content = p.disk)
    (h : LooksUp e p.ops s) :
    ∃ s', Same s s' ∧ findPartitionEntryByName e p.ops p.name s = some (some p.entry, s') := by
  obtain ⟨s', hsame, hfind⟩ := find_looksUp he h p.named
  rw [if_neg (not_lt.mpr hsafe.entries), hs, p.found, stored,
    if_pos (hsafe.pool _ h.1 h.2.1)] at hfind
  exact ⟨s', hsame, hfind⟩

/-- A lookup on the disk of the partition finds the entry, or nothing. -/
lemma find_cases (hsafe : Safe p) (he : ReadsTable e p.ops.blockSize) (hs : s.content = p.disk) :
    ∃ s', Same s s' ∧
      (LooksUp e p.ops s ∧
          findPartitionEntryByName e p.ops p.name s = some (some p.entry, s') ∨
        ¬ LooksUp e p.ops s ∧ findPartitionEntryByName e p.ops p.name s = some (none, s')) := by
  by_cases h : LooksUp e p.ops s
  · obtain ⟨s', hsame, hfind⟩ := find_found hsafe he hs h
    exact ⟨s', hsame, Or.inl ⟨h, hfind⟩⟩
  · obtain ⟨s', hsame, hfind⟩ := find_refused p.name he hsafe.entries h
    exact ⟨s', hsame, Or.inr ⟨h, hfind⟩⟩

lemma readsInside_iff (numBytes : ℕ) :
    ReadsInside p offset numBytes
      ((p.readRequest offset numBytes).toList.map fun r => .readDisk r.1 r.2) ↔
        GoodRead p offset numBytes := by
  unfold GoodRead
  rw [← p.stop_eq]
  rcases p.readRequest offset numBytes with _ | ⟨pos, len⟩
  · exact ⟨fun h => ⟨by simp, fun h0 h1 => absurd (h.asked h0 h1) (by simp)⟩,
      fun h => ⟨by simp, fun h0 h1 => absurd (h.2 h0 h1) (by simp)⟩⟩
  · constructor
    · intro h
      refine ⟨fun pos' len' heq => ?_, fun h0 h1 => by simpa using h.asked h0 h1⟩
      exact h.inside pos' len' (by simpa [eq_comm] using heq)
    · intro h
      refine ⟨fun pos' len' hmem => h.1 pos' len' ?_, fun h0 h1 => by simpa using h.2 h0 h1⟩
      simpa [eq_comm] using hmem

lemma writesInside_iff (data : List UInt8) {result : AvbIOResult}
    (hres : p.writeRequest offset data.length = none → result = .errorRangeOutsidePartition) :
    WritesInside p offset data result
      ((p.writeRequest offset data.length).toList.map fun pos => .writeDisk pos data) ↔
        GoodWrite p offset data.length := by
  unfold GoodWrite
  cases h : p.writeRequest offset data.length with
  | none =>
    exact ⟨fun hw => ⟨fun hfit => absurd (hw.asked hfit) (by simp), fun _ => rfl⟩,
      fun hw => ⟨fun hfit => absurd (hw.1 hfit) (by simp), fun _ => ⟨rfl, hres h⟩⟩⟩
  | some pos =>
    exact ⟨fun hw => ⟨fun hfit => by simpa using hw.asked hfit,
        fun hno => absurd (hw.refused hno).1 (by simp)⟩,
      fun hw => ⟨fun hfit => by simpa using hw.1 hfit, fun hno => absurd (hw.2 hno) (by simp)⟩⟩

lemma place_size (hsize : p.size < 2 ^ 64) : partitionSize p.entry p.ops.blockSize = p.size := by
  rw [p.partitionSize_eq, Nat.mod_eq_of_lt hsize]

/-- What was written where it belongs is read back from there. -/
lemma read_after_write (hsize : p.size < 2 ^ 64) (he : Stores e p) (hsafe : Safe p)
    (hr : GoodRead p offset numBytes) (hw : GoodWrite p offset numBytes)
    (hkeeps : KeepsTable p offset numBytes) {data : List UInt8} (hlen : data.length = numBytes)
    {s₁ s₂ : St ε} (hs : s.content = p.disk)
    (hok : writeToPartition e p.ops p.name offset data s = some (.ok, s₁))
    (hs₂ : s₂.content = s₁.content) (hlooks : LooksUp e p.ops s₂) :
    (∃ s₃, getSizeOfPartition e p.ops p.name s₂ = some ((.ok, some p.size), s₃)) ∧
      ∃ s₃, readFromPartition e p.ops p.name offset numBytes s₂ =
          some ((.ok, some numBytes, data), s₃) ∧
        s₃.trace = s₂.trace ++ [.readDisk (p.start + (p.target offset).toNat) numBytes] := by
  obtain ⟨s', hsame, ⟨-, hfind⟩ | ⟨-, hfind⟩⟩ := find_cases hsafe he.table hs
  swap
  · simp [writeToPartition, hfind] at hok
  have hwrite : writeToEntry e p.ops p.entry offset data s' = (.ok, s₁) := by
    rw [writeToPartition, hfind] at hok
    exact Option.some.inj hok
  have hfit : p.Fits offset numBytes := by
    by_contra hno
    rw [writeToEntry_none e p hsize (hlen.symm ▸ hw.2 hno)] at hwrite
    cases hwrite
  have hlo : p.start ≤ p.start + (p.target offset).toNat := Nat.le_add_right _ _
  have hhi : p.start + (p.target offset).toNat + numBytes ≤ p.stop := by
    have hin := hfit.1
    have hend := hfit.2
    rw [p.stop_eq]
    omega
  have hcontent : s₁.content = blit p.disk (p.start + (p.target offset).toNat) data := by
    obtain ⟨env, hdisk⟩ := he.writes s'.env s'.content _ data hlo (hlen.symm ▸ hhi)
    rw [writeToEntry_some e p hsize (hlen.symm ▸ hw.1 hfit), hdisk] at hwrite
    rw [← (Prod.mk.inj hwrite).2, ← hs, ← hsame.1]
  obtain ⟨entry, htable, hplace⟩ := hkeeps hfit data (stackAt e s₂) hlen
  obtain ⟨s₃, hsame₂, hfind₂⟩ := find_looksUp he.table hlooks p.named
  rw [if_neg (not_lt.mpr hsafe.entries), hs₂, hcontent, htable, stored,
    if_pos (hsafe.pool _ hlooks.1 hlooks.2.1)] at hfind₂
  have hsizes : partitionSize entry p.ops.blockSize = p.size :=
    (congrArg Prod.snd hplace).trans (place_size hsize)
  refine ⟨⟨s₃, by simp [getSizeOfPartition, hfind₂, hsizes]⟩, ?_⟩
  have hreq : readRequest (place entry p.ops.blockSize) offset numBytes =
      some (p.start + (p.target offset).toNat, numBytes) := by
    have hasked := hr.2 hfit.1 (by have := hfit.2; omega)
    rw [min_eq_left (by have := hfit.1; have := hfit.2; omega)] at hasked
    rw [hplace, p.place_eq]
    exact hasked
  obtain ⟨env, hdisk⟩ := he.reads s₃.env s₃.content _ numBytes hlo hhi
  have hdata : slice s₃.content (p.start + (p.target offset).toNat) numBytes = data := by
    rw [hsame₂.1, hs₂, hcontent, ← hlen, slice_blit]
  rw [readFromPartition, hfind₂]
  dsimp only
  rw [readFromEntry_some e hreq, hdisk, hdata]
  refine ⟨_, by rw [if_neg not_efiError_success], ?_⟩
  dsimp only
  rw [hsame₂.2]

end Operations

/-- A disk that keeps what is written; its state is what is on the stack. -/
def memoryDisk (blockSize : UInt32) : Services (ℕ → UInt8) where
  readBlocks s mem lba len := (EFI_SUCCESS, slice mem (lba * blockSize.toNat) len, s)
  readDisk s mem pos len := (EFI_SUCCESS, slice mem pos len, s)
  writeDisk s mem pos data := (EFI_SUCCESS, blit mem pos data, s)
  stack s := s

lemma memoryDisk_readsTable (blockSize : UInt32) : ReadsTable (memoryDisk blockSize) blockSize :=
  fun _ _ _ _ => ⟨(slice_length ..).le, fun _ => rfl⟩

lemma memoryDisk_stores (p : Partition) : Stores (memoryDisk p.ops.blockSize) p :=
  ⟨memoryDisk_readsTable _, fun s _ _ _ _ _ => ⟨s, rfl⟩, fun s _ _ _ _ _ => ⟨s, rfl⟩⟩

lemma memoryDisk_looksUp {o : Ops} {s : St (ℕ → UInt8)} (h0 : o.allocates s.lookups 0 = true)
    (h2 : o.allocates s.lookups 2 = true) : LooksUp (memoryDisk o.blockSize) o s :=
  ⟨h0, h2, not_efiError_success, not_efiError_success⟩

section Necessity

variable {p : Partition} {offset : ℤ} {numBytes : ℕ}

/-- A call on the disk of the partition, as lookup `k`. -/
def callAt (p : Partition) (stack : ℕ → UInt8) (k : ℕ) : St (ℕ → UInt8) := ⟨stack, p.disk, [], k⟩

lemma Agrees.safe (h : Agrees p offset numBytes) : Safe p := by
  have hfind : ∀ k, p.ops.allocates k 0 = true → p.ops.allocates k 2 = true →
      findPartitionEntryByName (memoryDisk p.ops.blockSize) p.ops p.name
        (callAt p (fun _ => 0) k) ≠ none := by
    intro k h0 h2 hnone
    obtain ⟨r, s', hsize, -⟩ := h.size _ _ (callAt p (fun _ => 0) k)
      (memoryDisk_readsTable p.ops.blockSize) rfl
    rw [getSizeOfPartition, hnone] at hsize
    cases hsize
  have hlooks : ∀ k, p.ops.allocates k 0 = true → p.ops.allocates k 2 = true → ∃ s',
      findPartitionEntryByName (memoryDisk p.ops.blockSize) p.ops p.name
        (callAt p (fun _ => 0) k) =
      if allGptEntriesSize < entriesNumBytes p.ops.blockSize then none
      else if p.ops.allocates k 1 then some (some p.entry, s') else none := by
    intro k h0 h2
    obtain ⟨s', -, hrun⟩ := find_looksUp (s := callAt p (fun _ => 0) k)
      (memoryDisk_readsTable p.ops.blockSize) (memoryDisk_looksUp h0 h2) p.named
    refine ⟨s', hrun.trans ?_⟩
    rw [callAt, p.found]
    rfl
  refine ⟨fun k h0 h2 => ?_, ?_⟩
  · by_contra hno
    obtain ⟨s', hrun⟩ := hlooks k h0 h2
    rw [if_neg hno, ite_self] at hrun
    exact hfind k h0 h2 hrun
  · by_contra hno
    obtain ⟨k, h0, h2⟩ := p.served
    obtain ⟨s', hrun⟩ := hlooks k h0 h2
    rw [if_pos (not_le.mp hno)] at hrun
    exact hfind k h0 h2 hrun

/-- A call that finds the partition. -/
lemma Agrees.finds (h : Agrees p offset numBytes) : ∃ s s', s.content = p.disk ∧
    LooksUp (memoryDisk p.ops.blockSize) p.ops s ∧ Same s s' ∧
      findPartitionEntryByName (memoryDisk p.ops.blockSize) p.ops p.name s =
        some (some p.entry, s') := by
  obtain ⟨k, h0, h2⟩ := p.served
  have hlooks : LooksUp (memoryDisk p.ops.blockSize) p.ops (callAt p (fun _ => 0) k) :=
    memoryDisk_looksUp h0 h2
  obtain ⟨s', hsame, hfind⟩ := find_found h.safe (memoryDisk_readsTable _) rfl hlooks
  exact ⟨_, s', rfl, hlooks, hsame, hfind⟩

lemma Agrees.size_lt (h : Agrees p offset numBytes) : p.size < 2 ^ 64 := by
  obtain ⟨s, s₁, hs, hlooks, -, hfind⟩ := h.finds
  obtain ⟨r, s', hrun, hr, -⟩ := h.size _ _ s (memoryDisk_readsTable p.ops.blockSize) hs
  have hr := hr hlooks
  rw [getSizeOfPartition, hfind] at hrun
  obtain ⟨hrun, -⟩ := Prod.mk.inj (Option.some.inj hrun)
  rw [hr, p.partitionSize_eq] at hrun
  have hsize := Option.some.inj (Prod.mk.inj hrun).2
  rw [← hsize]
  exact Nat.mod_lt _ (by decide)

lemma Agrees.goodRead (h : Agrees p offset numBytes) : GoodRead p offset numBytes := by
  obtain ⟨s, s₁, hs, hlooks, hsame, hfind⟩ := h.finds
  obtain ⟨r, s', l, hrun, htrace, hl, -⟩ :=
    h.read _ _ s (memoryDisk_readsTable p.ops.blockSize) hs
  rw [readFromPartition, hfind] at hrun
  have hlog := readFromEntry_trace (memoryDisk p.ops.blockSize) p.entry p.ops offset numBytes s₁
  rw [show readFromEntry _ _ _ _ _ _ = (r, s') from Option.some.inj hrun, htrace, p.place_eq,
    hsame.2] at hlog
  have hl := hl hlooks
  rw [List.append_cancel_left hlog] at hl
  exact (readsInside_iff numBytes).mp hl

lemma Agrees.goodWrite (h : Agrees p offset numBytes) : GoodWrite p offset numBytes := by
  have hlen : (List.replicate numBytes (0 : UInt8)).length = numBytes := List.length_replicate
  obtain ⟨s, s₁, hs, hlooks, hsame, hfind⟩ := h.finds
  obtain ⟨r, s', l, hrun, htrace, hl, -⟩ :=
    h.write _ _ s _ (memoryDisk_readsTable p.ops.blockSize) hs hlen
  rw [writeToPartition, hfind] at hrun
  have hw := writeToEntry_trace (memoryDisk p.ops.blockSize) p offset h.size_lt
    (List.replicate numBytes 0) s₁
  have hrun := Option.some.inj hrun
  rw [hrun, hsame.2] at hw
  have hl := hl hlooks
  rw [htrace] at hw
  rw [List.append_cancel_left hw.1] at hl
  have hwrite := (writesInside_iff _ hw.2).mp hl
  rwa [hlen] at hwrite

/-- Two places of one size with the same answer to where a request is read. -/
lemma start_of_readRequest {a a' size pos len len' : ℕ}
    (h : readRequest (a, size) offset numBytes = some (pos, len))
    (h' : readRequest (a', size) offset numBytes = some (pos, len'))
    (ha : a < 2 ^ 64) (ha' : a' < 2 ^ 64) : a = a' := by
  obtain ⟨x, hx, heq⟩ := Option.map_eq_some_iff.mp h
  obtain ⟨x', hx', heq'⟩ := Option.map_eq_some_iff.mp h'
  obtain rfl : x = x' := Option.some.inj (hx.symm.trans hx')
  injection heq with hpos
  injection heq' with hpos'
  dsimp only at hpos hpos'
  unfold toU64 at hpos hpos'
  omega

/-- An entry of the size of the partition whose reads go where those of the partition go has its
place. -/
lemma place_of_readRequest {entry : GptEntry} {len : ℕ} (hsize : p.size < 2 ^ 64)
    (hread : GoodRead p offset numBytes) (hfit : p.Fits offset numBytes)
    (hsizes : partitionSize entry p.ops.blockSize = p.size)
    (hreq : readRequest (place entry p.ops.blockSize) offset numBytes =
      some (p.start + (p.target offset).toNat, len)) :
    place entry p.ops.blockSize = place p.entry p.ops.blockSize := by
  have hasked := hread.2 hfit.1 (by have := hfit.2; omega)
  rw [Partition.readRequest, Nat.mod_eq_of_lt hsize] at hasked
  rw [place, hsizes] at hreq
  rw [p.place_eq, Nat.mod_eq_of_lt hsize, place, hsizes]
  exact congrArg (·, p.size) (start_of_readRequest hreq hasked (Nat.mod_lt _ (by decide))
    (Nat.mod_lt _ (by decide)))

/-- A write that fits is accepted by the disk in memory. -/
lemma Agrees.accepted (h : Agrees p offset numBytes) (hfit : p.Fits offset numBytes)
    {data : List UInt8} (hlen : data.length = numBytes) {s : St (ℕ → UInt8)}
    (hs : s.content = p.disk) (hlooks : LooksUp (memoryDisk p.ops.blockSize) p.ops s) :
    ∃ s₁, writeToPartition (memoryDisk p.ops.blockSize) p.ops p.name offset data s =
        some (.ok, s₁) ∧
      s₁.content = blit p.disk (p.start + (p.target offset).toNat) data := by
  obtain ⟨s', hsame, hfind⟩ := find_found h.safe (memoryDisk_readsTable _) hs hlooks
  have hwrite := writeToEntry_some (memoryDisk p.ops.blockSize) p h.size_lt
    (hlen.symm ▸ h.goodWrite.1 hfit) s'
  refine ⟨{ s' with
    trace := s'.trace ++ [.writeDisk (p.start + (p.target offset).toNat) data]
    content := blit s'.content (p.start + (p.target offset).toNat) data }, ?_, ?_⟩
  · rw [writeToPartition, hfind]
    exact congrArg some (hwrite.trans (congrArg (·, _) (if_neg not_efiError_success)))
  · dsimp only
    rw [hsame.1, hs]

/-- What is in the table after a write has the place of the partition: the same size, and the same
answer to where the request is read. -/
lemma Agrees.keepsTable (h : Agrees p offset numBytes) : KeepsTable p offset numBytes := by
  intro hfit data stack hlen
  obtain ⟨k, h0, h2⟩ := p.served
  have hlooks : ∀ content, LooksUp (memoryDisk p.ops.blockSize) p.ops ⟨stack, content, [], k⟩ :=
    fun _ => memoryDisk_looksUp h0 h2
  -- the write, and the two calls after it
  obtain ⟨s₁, hok, hcontent⟩ := h.accepted hfit hlen rfl (hlooks p.disk)
  obtain ⟨⟨s₃, hquery⟩, s₄, hread, htrace⟩ := h.roundTrip _ _ (memoryDisk_stores p) _ s₁
    ⟨stack, s₁.content, [], k⟩ data rfl hlen hok rfl (hlooks _)
  obtain ⟨s₂, hsame₂, hfind₂⟩ := find_looksUp (memoryDisk_readsTable _) (hlooks s₁.content) p.named
  have hstack : stackAt (memoryDisk p.ops.blockSize) ⟨stack, s₁.content, [], k⟩ = stack := rfl
  rw [if_neg (not_lt.mpr h.safe.entries), hstack] at hfind₂
  dsimp only at hfind₂
  rw [hcontent] at hfind₂ hquery hread htrace
  cases htable : tableEntry p.ops.blockSize p.name
    (blit p.disk (p.start + (p.target offset).toNat) data) stack with
  | none =>
    rw [htable, stored] at hfind₂
    rw [getSizeOfPartition, hfind₂] at hquery
    cases hquery
  | some entry =>
    rw [htable, stored, if_pos (h.safe.pool k h0 h2)] at hfind₂
    rw [getSizeOfPartition, hfind₂] at hquery
    rw [readFromPartition, hfind₂] at hread
    have hsizes : partitionSize entry p.ops.blockSize = p.size :=
      Option.some.inj (congrArg (fun r => r.1.2) (Option.some.inj hquery))
    have hlog := readFromEntry_trace (memoryDisk p.ops.blockSize) entry p.ops offset numBytes s₂
    rw [show readFromEntry _ _ _ _ _ _ = _ from Option.some.inj hread, htrace, hsame₂.2] at hlog
    have hasked := List.append_cancel_left hlog
    rcases hreq : readRequest (place entry p.ops.blockSize) offset numBytes with _ | ⟨pos, len⟩
    · rw [hreq] at hasked
      cases hasked
    · rw [hreq] at hasked
      injection hasked with hasked
      injection hasked with hpos
      obtain rfl : p.start + (p.target offset).toNat = pos := hpos
      exact ⟨entry, rfl, place_of_readRequest h.size_lt h.goodRead hfit hsizes hreq⟩

end Necessity

/-- **Agreement of the partition operations.** On any disk, for any offset and length, the size
query, the read and the write agree on the partition exactly for the requests that the block
missing in a write does not touch, and whose writes leave the partition where it is in the table,
if no lookup stores outside of what there is. -/
theorem partition_agrees_iff (p : Partition) (offset : Int64) (numBytes : UInt64) :
    Agrees p offset.toInt numBytes.toNat ↔ Spared p offset.toInt numBytes.toNat := by
  have hlo : -2 ^ 63 ≤ offset.toInt := offset.le_toInt
  have hhi : offset.toInt < 2 ^ 63 := offset.toInt_lt
  have hn : numBytes.toNat < 2 ^ 64 := numBytes.toNat_lt
  constructor
  · intro h
    have hread := (goodRead_iff h.size_lt hlo hhi hn).mp h.goodRead
    exact ⟨h.safe, h.size_lt, hread, (goodWrite_iff h.size_lt hlo hhi hn hread).mp h.goodWrite,
      h.keepsTable⟩
  · intro h
    have hread := (goodRead_iff h.size hlo hhi hn).mpr h.read
    have hwrite := (goodWrite_iff h.size hlo hhi hn h.read).mpr h.write
    refine ⟨fun ε e s he hs => ?_, fun ε e s he hs => ?_, fun ε e s data he hs hlen => ?_, ?_⟩
    · obtain ⟨s', -, ⟨hlooks, hfind⟩ | ⟨hlooks, hfind⟩⟩ := find_cases h.safe he hs
      · refine ⟨_, s', by rw [getSizeOfPartition, hfind], fun _ => ?_, fun hno => absurd hlooks hno⟩
        rw [place_size h.size]
      · exact ⟨_, s', by rw [getSizeOfPartition, hfind], fun hyes => absurd hyes hlooks,
          fun _ => rfl⟩
    · obtain ⟨s', hsame, ⟨hlooks, hfind⟩ | ⟨hlooks, hfind⟩⟩ := find_cases h.safe he hs
      · have htrace := readFromEntry_trace e p.entry p.ops offset.toInt numBytes.toNat s'
        rw [p.place_eq, hsame.2] at htrace
        exact ⟨_, _, _, by rw [readFromPartition, hfind], htrace,
          fun _ => (readsInside_iff _).mpr hread, fun hno => absurd hlooks hno⟩
      · exact ⟨_, s', [], by rw [readFromPartition, hfind], by rw [hsame.2, List.append_nil],
          fun hyes => absurd hyes hlooks, fun _ => ⟨rfl, rfl⟩⟩
    · obtain ⟨s', hsame, ⟨hlooks, hfind⟩ | ⟨hlooks, hfind⟩⟩ := find_cases h.safe he hs
      · have hw := writeToEntry_trace e p offset.toInt h.size data s'
        rw [hsame.2] at hw
        exact ⟨_, _, _, by rw [writeToPartition, hfind], hw.1,
          fun _ => (writesInside_iff data hw.2).mpr (hlen.symm ▸ hwrite),
          fun hno => absurd hlooks hno⟩
      · exact ⟨_, s', [], by rw [writeToPartition, hfind], by rw [hsame.2, List.append_nil],
          fun hyes => absurd hyes hlooks, fun _ => ⟨rfl, rfl⟩⟩
    · intro ε e he s s₁ s₂ data hs hlen hok hs₂ hlooks
      exact read_after_write h.size he h.safe hread hwrite h.table hlen hs hok hs₂ hlooks

/-- A table with one entry: two blocks of 512 bytes from block 34 on, by the name `a`. -/
def footerDisk (i : ℕ) : UInt8 :=
  if i = 592 then 1 else if i = 1056 then 34 else if i = 1064 then 35 else if i = 1080 then 0x61
  else 0

lemma footerDisk_found (stack : ℕ → UInt8) :
    tableEntry 512 [0x61] footerDisk stack = some ⟨34, 35⟩ := by
  have hname : partitionNameUcs2 [0x61] = some [0x61] := by
    unfold partitionNameUcs2
    rw [utf8ToUcs2]
    rfl
  have hheader : ∀ i, i < 512 → (slice footerDisk 512 512).getD i 0 = footerDisk (512 + i) :=
    fun i hi => by
      rw [List.getD_eq_getElem _ _ (by rw [slice_length]; exact hi), slice_getElem]
  have hentries : ∀ i, i < 16384 →
      blit stack 0 (slice footerDisk 1024 16384) i = footerDisk (1024 + i) := fun i hi => by
    have hin := blit_in stack 0 (l := slice footerDisk 1024 16384) (k := i)
      (by rw [slice_length]; exact hi)
    rwa [Nat.zero_add, slice_getElem] at hin
  unfold tableEntry
  rw [hname, Option.bind_some]
  have hcount : word32
      (fun i => (slice footerDisk (1 * (512 : UInt32).toNat) gptHeaderSize).getD i 0) 80 = 1 := by
    unfold word32 gptHeaderSize
    simp only [UInt32.reduceToNat, Nat.one_mul]
    rw [hheader _ (by norm_num), hheader _ (by norm_num), hheader _ (by norm_num),
      hheader _ (by norm_num)]
    rfl
  have hbytes : entriesNumBytes 512 = 16384 := by decide
  rw [hcount, hbytes]
  simp only [UInt32.reduceToNat, GPT_ENTRIES_LBA, Nat.reduceMul]
  generalize blit stack 0 (slice footerDisk 1024 16384) = m at hentries
  have hbyte : ∀ i, i < 64 → m i = footerDisk (1024 + i) := fun i hi => hentries i (by omega)
  have hfirst : word64 m 32 = 34 := (word64_congr (b := 1056) fun i hi => by
    rw [hbyte _ (by omega), ← Nat.add_assoc]).trans (by decide)
  have hlast : word64 m 40 = 35 := (word64_congr (b := 1064) fun i hi => by
    rw [hbyte _ (by omega), ← Nat.add_assoc]).trans (by decide)
  have hchar : word16 m 56 = 0x61 := by
    rw [word16, hbyte _ (by omega), hbyte _ (by omega)]
    rfl
  have hend : word16 m 58 = 0 := by
    rw [word16, hbyte _ (by omega), hbyte _ (by omega)]
    rfl
  have hsame : sameName (entryName m 0) [0x61] = true := by
    simp [sameName, slice, entryName, List.range_succ, hchar, hend]
  simp [searchEntries, List.range_one, hsame, gptEntryAt, hfirst, hlast]

/-- Every allocation succeeds. -/
def footerPartition : Partition where
  ops := ⟨fun _ _ => true, 512⟩
  name := [0x61]
  disk := footerDisk
  entry := ⟨34, 35⟩
  found := footerDisk_found
  served := ⟨0, rfl, rfl⟩
  ordered := by decide

/-- Its first four bytes are spared. -/
example : Spared footerPartition 0 4 where
  safe := ⟨fun _ _ _ => rfl, by decide⟩
  size := by decide
  read := ⟨fun _ => by decide, fun h => absurd h (by decide)⟩
  write := ⟨fun _ => Or.inl (by decide), fun h => absurd h (by decide)⟩
  table := keepsTable_of_behind (by decide) (by decide) 0 4

/-- The last four bytes are read at 18428, and written at 17916. -/
theorem footer_write_misplaced :
    (readFromPartition (memoryDisk 512) footerPartition.ops footerPartition.name (-4) 4
        (callAt footerPartition (fun _ => 0) 0)).map (fun r => r.2.trace) =
        some [.readDisk 18428 4] ∧
      (writeToPartition (memoryDisk 512) footerPartition.ops footerPartition.name (-4) [1, 2, 3, 4]
        (callAt footerPartition (fun _ => 0) 0)).map (fun r => r.2.trace) =
        some [.writeDisk 17916 [1, 2, 3, 4]] ∧
      ¬ Agrees footerPartition (-4) 4 := by
  have hread : readRequest (17408 % 2 ^ 64, 1024 % 2 ^ 64) (-4) 4 = some (18428, 4) := by decide
  have hwrite : footerPartition.writeRequest (-4) 4 = some 17916 := by decide
  have hsize : footerPartition.size = 1024 := by decide
  have hstart : footerPartition.start = 17408 := by decide
  have hsafe : Safe footerPartition := ⟨fun _ _ _ => rfl, by decide⟩
  have hlooks : LooksUp (memoryDisk 512) footerPartition.ops
      (callAt footerPartition (fun _ => 0) 0) := memoryDisk_looksUp rfl rfl
  obtain ⟨s', hsame, hfind⟩ := find_found hsafe (memoryDisk_readsTable 512) rfl hlooks
  have hwrote := (writeToEntry_trace (memoryDisk 512) footerPartition (-4)
    (by rw [hsize]; norm_num) [1, 2, 3, 4] s').1
  have hgot := readFromEntry_trace (memoryDisk 512) footerPartition.entry footerPartition.ops (-4) 4
    s'
  rw [footerPartition.place_eq, hsame.2, hsize, hstart] at hgot
  rw [show ([1, 2, 3, 4] : List UInt8).length = 4 from rfl, hwrite, hsame.2] at hwrote
  refine ⟨?_, ?_, fun h => ?_⟩
  · rw [readFromPartition, hfind]
    exact congrArg some (hgot.trans (by rw [hread]; rfl))
  · rw [writeToPartition, hfind]
    exact congrArg some hwrote
  · have hgood := h.goodWrite.1
    have htarget : footerPartition.target (-4) = 1020 := by
      rw [Partition.target, hsize]
      norm_num
    rw [Partition.Fits, htarget, hsize, hstart, hwrite] at hgood
    exact absurd (hgood (by norm_num)) (by decide)

end UefiToolkit.AvbPartition
