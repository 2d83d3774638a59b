import UefiToolkit.CapsuleModel
import UefiToolkit.ConfigParser
import UefiToolkit.ShellModel

/-!
`gpt_ini2bin.py`: the partitions of a configuration file as a table of records of fixed width.

The configuration is what the parser has read from the file, and the text of the file is read
once more. An exception is `none`.
-/

namespace UefiToolkit.GptModel

open UefiToolkit.StructPack UefiToolkit.CapsuleModel UefiToolkit.ConfigParser
open UefiToolkit.ShellModel (ascii)

/-! ### Texts and numbers -/

/-- `str.isspace` of a byte. -/
def isSpace (c : UInt8) : Bool := decide (c = 0x20 ∨ (0x09 ≤ c ∧ c ≤ 0x0D))

def isDigit (c : UInt8) : Bool := decide (0x30 ≤ c ∧ c ≤ 0x39)

/-- `str.split ()`. -/
def words (t : Text) : List Text := (t.splitOnP isSpace).filter (· ≠ [])

/-- `data.split ('\n')`. -/
def lines (t : Text) : List Text := t.splitOnP (· = 0x0A)

/-- `int`, of a byte string: spaces around it and after the sign are skipped. -/
def int (t : Text) : Option ℤ :=
  let t := t.dropWhile isSpace
  let sign : ℤ := if t.head? = some 0x2D then -1 else 1
  let t := if t.head? = some 0x2B ∨ t.head? = some 0x2D then t.tail else t
  let t := t.dropWhile isSpace
  let digits := t.takeWhile isDigit
  if digits ≠ [] ∧ (t.dropWhile isDigit).all isSpace then
    some (sign * (digits.foldl (fun n c => 10 * n + (c.toNat - 0x30)) 0 : ℕ))
  else none

/-- `struct.pack ('<I', n)`. -/
def packUint (n : ℤ) : Option Text :=
  if 0 ≤ n ∧ n < 2 ^ 32 then some (leBytes 4 n.toNat) else none

/-- `struct.pack ('<i', n)`. -/
def packInt (n : ℤ) : Option Text :=
  if -2 ^ 31 ≤ n ∧ n < 2 ^ 31 then some (leBytes 4 (n % 2 ^ 32).toNat) else none

/-- `encode ('utf-16le')` of a byte string, which has to be ASCII. -/
def encodeUtf16 (t : Text) : Option Text :=
  if ∀ c ∈ t, c < 128 then some (t.flatMap fun c => [c, 0]) else none

/-! ### The table of types -/

def typeToGuid : List (Text × Uuid) := [
  (ascii "fat", ⟨[0xeb, 0xd0, 0xa0, 0xa2, 0xb9, 0xe5, 0x44, 0x33, 0x87, 0xc0, 0x68, 0xb6, 0xb7,
    0x26, 0x99, 0xc7], rfl⟩),
  (ascii "esp", ⟨[0xc1, 0x2a, 0x73, 0x28, 0xf8, 0x1f, 0x11, 0xd2, 0xba, 0x4b, 0x00, 0xa0, 0xc9,
    0x3e, 0xc9, 0x3b], rfl⟩),
  (ascii "linux", ⟨[0x0f, 0xc6, 0x3d, 0xaf, 0x84, 0x83, 0x47, 0x72, 0x8e, 0x79, 0x3d, 0x69, 0xd8,
    0x47, 0x7d, 0xe4], rfl⟩),
  (ascii "linux-swap", ⟨[0x06, 0x57, 0xfd, 0x6d, 0xa4, 0xab, 0x43, 0xc4, 0x84, 0xe5, 0x09, 0x33,
    0xc8, 0x4b, 0x4f, 0x4f], rfl⟩),
  (ascii "boot", ⟨[0x49, 0xa4, 0xd1, 0x7f, 0x93, 0xa3, 0x45, 0xc1, 0xa0, 0xde, 0xf5, 0x0b, 0x2e,
    0xbe, 0x25, 0x99], rfl⟩),
  (ascii "recovery", ⟨[0x41, 0x77, 0xc7, 0x22, 0x9e, 0x92, 0x4a, 0xab, 0x86, 0x44, 0x43, 0x50,
    0x2b, 0xfd, 0x55, 0x06], rfl⟩),
  (ascii "misc", ⟨[0xef, 0x32, 0xa3, 0x3b, 0xa4, 0x09, 0x48, 0x6c, 0x91, 0x41, 0x9f, 0xfb, 0x71,
    0x1f, 0x62, 0x66], rfl⟩),
  (ascii "metadata", ⟨[0x20, 0xac, 0x26, 0xbe, 0x20, 0xb7, 0x11, 0xe3, 0x84, 0xc5, 0x6c, 0xfd,
    0xb9, 0x47, 0x11, 0xe9], rfl⟩),
  (ascii "tertiary", ⟨[0x76, 0x79, 0x41, 0xd0, 0x20, 0x85, 0x11, 0xe3, 0xad, 0x3b, 0x6c, 0xfd,
    0xb9, 0x47, 0x11, 0xe9], rfl⟩),
  (ascii "vbmeta", ⟨[0xb5, 0x98, 0x85, 0x8a, 0x5f, 0xe3, 0x41, 0x8e, 0xb8, 0xc4, 0x82, 0x4b,
    0x41, 0xf4, 0xad, 0xfc], rfl⟩),
  (ascii "encrypt", ⟨[0xe9, 0x9d, 0x84, 0xd7, 0x2c, 0x1b, 0x44, 0xcf, 0x8c, 0x58, 0xef, 0xfa,
    0xe2, 0xdc, 0x25, 0x58], rfl⟩),
  (ascii "factory", ⟨[0x9f, 0xda, 0xa6, 0xef, 0x4b, 0x3f, 0x40, 0xd2, 0xba, 0x8d, 0xbf, 0xf1,
    0x6b, 0xfb, 0x88, 0x7b], rfl⟩)]

/-! ### The list of partitions -/

def base : Text := ascii "base"

/-- `"partition." + p`. -/
def partitionSection (p : Text) : Text := ascii "partition." ++ p

section Partitions

variable (cfg : Config)

/-- `getint`. -/
def getInt (name option : Text) : Option ℤ := (cfg.get name option).bind int

def copyOption (a b : Text) (cfg : Config) (option : Text) : Option Config := do
  let value ← cfg.get a option
  cfg.set b option value

def copySection (a b : Text) : Option Config := do
  let cfg ← cfg.addSection b
  let options ← cfg.options a
  options.foldlM (copyOption a b) cfg

/-- `"_%c" % i`. -/
def slotSuffix (i : ℕ) : Option Text := if i < 256 then some [0x5F, UInt8.ofNat i] else none

/-- One copy of a partition: its section, and its place in the list. -/
def addSlot (p : Text) (s : Config × List Text) (i : ℕ) : Option (Config × List Text) := do
  let suffix ← slotSuffix (0x61 + i)
  let newPart := p ++ suffix
  let newSection := partitionSection newPart
  let cfg ← copySection s.1 (partitionSection p) newSection
  let label ← cfg.get (partitionSection p) (ascii "label")
  let cfg ← cfg.set newSection (ascii "label") (label ++ suffix)
  pure (cfg, s.2 ++ [newPart])

/-- One partition of the list; the range of a negative number is empty. -/
def slotStep (nbSlot : ℤ) (s : Config × List Text) (p : Text) : Option (Config × List Text) :=
  if s.1.hasOption (partitionSection p) (ascii "has_slot") then
    (List.range nbSlot.toNat).foldlM (addSlot p) s
  else some (s.1, s.2 ++ [p])

def preparseSlots (partitions : List Text) : Option (Config × List Text) :=
  if cfg.hasOption base (ascii "nb_slot") then do
    let nbSlot ← getInt cfg base (ascii "nb_slot")
    partitions.foldlM (slotStep nbSlot) (cfg, [])
  else some (cfg, partitions)

/-- A line adds what follows `partitions +=`. -/
def addLine (partitions : List Text) (l : Text) : List Text :=
  if 2 < (words l).length ∧ (words l)[0]? = some (ascii "partitions") ∧
      (words l)[1]? = some (ascii "+=") then
    partitions ++ (words l).drop 2
  else partitions

def preparsePartitions (data : Text) : Option (List Text) := do
  let partitions ← cfg.get base (ascii "partitions")
  pure ((lines data).foldl addLine (words partitions))

end Partitions

/-! ### The file -/

/-- A text that is too long stays as it is. -/
def zeroPad (s : Text) (size : ℕ) : Text := s ++ List.replicate (size - s.length) 0

section File

variable (cfg : Config) (uuid4 : ℕ → Uuid)

/-- The record of one partition. -/
def record (p : Text) (guid : Uuid) : Option Text := do
  let length ← cfg.get (partitionSection p) (ascii "len")
  let lengthBytes ← (int length).bind packInt
  let label ← cfg.get (partitionSection p) (ascii "label")
  let label ← encodeUtf16 label
  let guidType ← cfg.get (partitionSection p) (ascii "type")
  let guidType ← typeToGuid.lookup guidType
  pure (lengthBytes ++ zeroPad label (36 * 2) ++ guidType.bytesLe ++ guid.bytesLe)

/-- The records one after the other, each with the next random GUID. -/
def records : ℕ → List Text → Option Text
  | _, [] => some []
  | k, p :: part => do
    let r ← record cfg p (uuid4 k)
    let rest ← records (k + 1) part
    pure (r ++ rest)

/-- 0 if there is none. -/
def startLba : Option ℤ :=
  if cfg.hasOption base (ascii "start_lba") then getInt cfg base (ascii "start_lba") else some 0

/-- What is written to the output file. -/
def main (data : Text) : Option Text := do
  let part ← preparsePartitions cfg data
  let (cfg, part) ← preparseSlots cfg part
  let startLba ← startLba cfg
  let magic ← packUint 0x6a8b0da1
  let startLba ← packUint startLba
  let npart ← packUint part.length
  let body ← records cfg uuid4 0 part
  pure (magic ++ startLba ++ npart ++ body)

end File

end UefiToolkit.GptModel
