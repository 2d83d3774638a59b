import UefiToolkit.GptSlots

/-!
The records of the output file, as they are read: 108 bytes each, with a length, a label of 36
characters and two GUIDs.
-/

namespace UefiToolkit.GptRecords

open UefiToolkit.StructPack UefiToolkit.CapsuleModel UefiToolkit.ConfigParser UefiToolkit.GptModel
open UefiToolkit.GptSlots
open UefiToolkit.ShellModel (ascii)

/-! ### Reading a file -/

/-- A partition of the table; the label is in code units. -/
structure Entry where
  length : ℤ
  label : List ℕ
  type : List UInt8
  deriving DecidableEq

structure Record where
  entry : Entry
  guid : List UInt8
  deriving DecidableEq

/-- Little-endian code units of 16 bits. -/
def codeUnits : Text → List ℕ
  | a :: b :: t => (a.toNat + 256 * b.toNat) :: codeUnits t
  | _ => []

/-- A label without the zeros it is padded with. -/
def trimZeros (l : List ℕ) : List ℕ := l.rdropWhile (· = 0)

/-- A 32-bit value with a sign. -/
def signed (n : ℕ) : ℤ := if n < 2 ^ 31 then n else n - 2 ^ 32

def decodeRecord (b : Text) : Record :=
  ⟨⟨signed (leValue (b.take 4)), trimZeros (codeUnits ((b.drop 4).take 72)),
    (b.drop 76).take 16⟩, (b.drop 92).take 16⟩

def decodeRecords : ℕ → Text → List Record
  | 0, _ => []
  | n + 1, b => decodeRecord (b.take 108) :: decodeRecords n (b.drop 108)

/-- The number in the header. -/
def partitionCount (out : Text) : ℕ := leValue ((out.drop 8).take 4)

/-- Entries with the random GUIDs from the `k`-th one on. -/
def numbered (uuid4 : ℕ → Uuid) : ℕ → List Entry → List Record
  | _, [] => []
  | k, e :: es => ⟨e, (uuid4 k).bytesLe⟩ :: numbered uuid4 (k + 1) es

/-- A file has the length its header says, and its records are these. -/
structure Decodes (uuid4 : ℕ → Uuid) (out : Text) (es : List Entry) : Prop where
  length : out.length = 12 + 108 * partitionCount out
  records : decodeRecords (partitionCount out) (out.drop 12) = numbered uuid4 0 es

/-- What is to be read for a partition. -/
def entryOf (part : Partition) : Entry :=
  ⟨part.length, part.label.map UInt8.toNat, part.type.bytesLe⟩

/-- What is read for it: zeros at the end of a label are lost. -/
def readEntry (part : Partition) : Entry :=
  { entryOf part with label := trimZeros (part.label.map UInt8.toNat) }

/-! ### One record -/

lemma numbered_injective {uuid4 : ℕ → Uuid} {k : ℕ} {es es' : List Entry}
    (h : numbered uuid4 k es = numbered uuid4 k es') : es = es' := by
  induction es generalizing k es' with
  | nil =>
    cases es' with
    | nil => rfl
    | cons e' es' => cases h
  | cons e es ih =>
    cases es' with
    | nil => cases h
    | cons e' es' =>
      obtain ⟨hhead, htail⟩ := List.cons.inj h
      rw [(Record.mk.inj hhead).1, ih htail]

lemma trimZeros_append (l : List ℕ) (k : ℕ) :
    trimZeros (l ++ List.replicate k 0) = trimZeros l := by
  induction k with
  | zero => rw [List.replicate_zero, List.append_nil]
  | succ k ih =>
    rw [List.replicate_succ', ← List.append_assoc, trimZeros, List.rdropWhile_concat_pos _ _ _ rfl]
    exact ih

/-- A label stays as it is exactly when there is no zero at its end. -/
lemma trimZeros_eq_iff (t : Text) :
    trimZeros (t.map UInt8.toNat) = t.map UInt8.toNat ↔ t.getLast? ≠ some 0 := by
  rcases List.eq_nil_or_concat t with rfl | ⟨l, c, rfl⟩
  · simp [trimZeros]
  · rw [List.concat_eq_append, List.map_append, List.map_singleton, trimZeros,
      List.rdropWhile_eq_self_iff, List.getLast?_concat]
    simp [← UInt8.toNat_inj]

lemma codeUnits_pad (t : Text) (k : ℕ) :
    codeUnits (t.flatMap (fun c => [c, 0]) ++ List.replicate (2 * k) 0) =
      t.map UInt8.toNat ++ List.replicate k 0 := by
  induction t with
  | nil =>
    induction k with
    | zero => rfl
    | succ k ih =>
      exact congrArg (0 :: ·) ih
  | cons c t ih => exact congrArg (c.toNat :: ·) ih

lemma signed_mod {n : ℤ} (h : -2 ^ 31 ≤ n ∧ n < 2 ^ 31) : signed (n % 2 ^ 32).toNat = n := by
  unfold signed
  split_ifs <;> omega

section Width

variable {cfg : Config} {p b : Text} {guid : Uuid}

/-- The record of a partition, whatever the length of its label. -/
def encodeRecord (part : Partition) (guid : Uuid) : Text :=
  leBytes 4 (part.length % 2 ^ 32).toNat ++
    zeroPad (part.label.flatMap fun c => [c, 0]) (36 * 2) ++ part.type.bytesLe ++ guid.bytesLe

lemma record_eq_some (h : record cfg p guid = some b) : ∃ part,
    partitionOf cfg p = some part ∧ (-2 ^ 31 ≤ part.length ∧ part.length < 2 ^ 31) ∧
      b = encodeRecord part guid := by
  obtain ⟨lenText, hlenText, h⟩ := Option.bind_eq_some_iff.mp h
  obtain ⟨lengthBytes, hlength, h⟩ := Option.bind_eq_some_iff.mp h
  obtain ⟨length, hint, hpack⟩ := Option.bind_eq_some_iff.mp hlength
  obtain ⟨label, hlabel, h⟩ := Option.bind_eq_some_iff.mp h
  obtain ⟨encoded, hencoded, h⟩ := Option.bind_eq_some_iff.mp h
  obtain ⟨typeText, htypeText, h⟩ := Option.bind_eq_some_iff.mp h
  obtain ⟨type, htype, h⟩ := Option.bind_eq_some_iff.mp h
  obtain ⟨hrange, hbytes⟩ := Option.ite_none_right_eq_some.mp hpack
  obtain ⟨-, hunits⟩ := Option.ite_none_right_eq_some.mp hencoded
  obtain rfl := Option.some.inj hbytes
  obtain rfl := Option.some.inj hunits
  refine ⟨⟨length, label, type⟩, ?_, hrange, (Option.some.inj h).symm⟩
  simp only [partitionOf, hlenText, hint, hlabel, htypeText, htype, Option.bind_eq_bind,
    Option.bind_some]
  rfl

lemma flatMap_length (t : Text) : (t.flatMap fun c => [c, 0]).length = 2 * t.length := by
  induction t with
  | nil => rfl
  | cons c t ih =>
    rw [List.flatMap_cons, List.length_append, ih, List.length_cons]
    simp only [List.length_cons, List.length_nil]
    omega

/-- A record is 108 bytes wide, or as much wider as the label is too long. -/
lemma encodeRecord_length (part : Partition) (guid : Uuid) :
    (encodeRecord part guid).length = 108 + 2 * (part.label.length - 36) := by
  simp only [encodeRecord, zeroPad, List.length_append, leBytes_length, flatMap_length,
    List.length_replicate, Uuid.bytesLe_length]
  omega

lemma decodeRecord_append {a l t g : Text} (ha : a.length = 4) (hl : l.length = 72)
    (ht : t.length = 16) (hg : g.length = 16) : decodeRecord (a ++ l ++ t ++ g) =
      ⟨⟨signed (leValue a), trimZeros (codeUnits l), t⟩, g⟩ := by
  have hal : (a ++ l).length = 76 := by rw [List.length_append, ha, hl]
  have halt : (a ++ l ++ t).length = 92 := by rw [List.length_append, hal, ht]
  unfold decodeRecord
  rw [List.drop_left' halt, List.take_of_length_le hg.le, List.append_assoc (a ++ l),
    List.drop_left' hal, List.take_left' ht, List.append_assoc a, List.drop_left' ha,
    List.take_left' ha, List.take_left' hl]

lemma decodeRecord_encodeRecord {part : Partition} (guid : Uuid)
    (hlength : -2 ^ 31 ≤ part.length ∧ part.length < 2 ^ 31) (hlabel : part.label.length ≤ 36) :
    decodeRecord (encodeRecord part guid) = ⟨readEntry part, guid.bytesLe⟩ := by
  have hnat : (part.length % 2 ^ 32).toNat < 256 ^ 4 := by omega
  have hpad : zeroPad (part.label.flatMap fun c => [c, 0]) (36 * 2) =
      (part.label.flatMap fun c => [c, 0]) ++ List.replicate (2 * (36 - part.label.length)) 0 := by
    rw [zeroPad, flatMap_length]
    congr 2
    omega
  have hwidth : (zeroPad (part.label.flatMap fun c => [c, 0]) (36 * 2)).length = 72 := by
    rw [hpad, List.length_append, flatMap_length, List.length_replicate]
    omega
  rw [encodeRecord, decodeRecord_append (leBytes_length 4 _) hwidth part.type.bytesLe_length
    guid.bytesLe_length, leValue_leBytes hnat, signed_mod hlength, hpad, codeUnits_pad,
    trimZeros_append]
  rfl

end Width

/-! ### All of them -/

section All

variable {cfg : Config} {uuid4 : ℕ → Uuid}

/-- A label that fits into its field. -/
def Narrow (cfg : Config) (p : Text) : Prop :=
  ∀ part, partitionOf cfg p = some part → part.label.length ≤ 36

/-- What is read for the partition of a name. -/
def readOf (cfg : Config) (p : Text) : Option Entry := (partitionOf cfg p).map readEntry

/-- No record is too narrow, and a wide one makes the whole too long. -/
lemma records_length {k : ℕ} {part : List Text} {body : Text}
    (h : records cfg uuid4 k part = some body) : 108 * part.length ≤ body.length ∧
      (body.length = 108 * part.length ↔ ∀ p ∈ part, Narrow cfg p) := by
  induction part generalizing k body with
  | nil =>
    cases h
    exact ⟨le_rfl, fun _ p hp => absurd hp List.not_mem_nil, fun _ => rfl⟩
  | cons p part ih =>
    obtain ⟨r, hr, h⟩ := Option.bind_eq_some_iff.mp h
    obtain ⟨rest, hrest, h⟩ := Option.bind_eq_some_iff.mp h
    cases h
    obtain ⟨hle, hiff⟩ := ih hrest
    obtain ⟨q, hq, -, rfl⟩ := record_eq_some hr
    have hnarrow : Narrow cfg p ↔ q.label.length ≤ 36 :=
      ⟨fun hn => hn q hq, fun hlen q' hq' => by cases hq.symm.trans hq'; exact hlen⟩
    rw [List.forall_mem_cons, hnarrow, ← hiff]
    simp only [List.length_append, encodeRecord_length, List.length_cons]
    omega

/-- Records of the right width are read one by one. -/
lemma records_decode {k : ℕ} {part : List Text} {body : Text}
    (h : records cfg uuid4 k part = some body) (hn : ∀ p ∈ part, Narrow cfg p) : ∃ es,
      part.map (readOf cfg) = es.map some ∧
        decodeRecords part.length body = numbered uuid4 k es := by
  induction part generalizing k body with
  | nil => exact ⟨[], rfl, rfl⟩
  | cons p part ih =>
    obtain ⟨r, hr, h⟩ := Option.bind_eq_some_iff.mp h
    obtain ⟨rest, hrest, h⟩ := Option.bind_eq_some_iff.mp h
    cases h
    obtain ⟨es, hes, hdecode⟩ := ih hrest fun q hq => hn q (List.mem_cons_of_mem p hq)
    obtain ⟨q, hq, hlength, rfl⟩ := record_eq_some hr
    have hlabel := hn p List.mem_cons_self q hq
    have hwidth : (encodeRecord q (uuid4 k)).length = 108 := by
      rw [encodeRecord_length]
      omega
    refine ⟨readEntry q :: es, ?_, ?_⟩
    · rw [List.map_cons, List.map_cons, hes, readOf, hq]
      rfl
    · rw [List.length_cons, decodeRecords, List.take_left' hwidth, List.drop_left' hwidth, hdecode,
        decodeRecord_encodeRecord _ hlength hlabel]
      rfl

lemma packUint_length {n : ℤ} {b : Text} (h : packUint n = some b) : b.length = 4 := by
  unfold packUint at h
  split_ifs at h
  rw [← Option.some.inj h, leBytes_length]

lemma main_eq_some {cfg : Config} {data out : Text} (h : main cfg uuid4 data = some out) :
    ∃ listed cfg' part header body, preparsePartitions cfg data = some listed ∧
      preparseSlots cfg listed = some (cfg', part) ∧ part.length < 2 ^ 32 ∧
      records cfg' uuid4 0 part = some body ∧ header.length = 8 ∧
      out = header ++ leBytes 4 part.length ++ body := by
  obtain ⟨listed, hlisted, h⟩ := Option.bind_eq_some_iff.mp h
  obtain ⟨⟨cfg', part⟩, hpart, h⟩ := Option.bind_eq_some_iff.mp h
  obtain ⟨lba, -, h⟩ := Option.bind_eq_some_iff.mp h
  obtain ⟨magic, hmagic, h⟩ := Option.bind_eq_some_iff.mp h
  obtain ⟨lbaBytes, hlba, h⟩ := Option.bind_eq_some_iff.mp h
  obtain ⟨npart, hnpart, h⟩ := Option.bind_eq_some_iff.mp h
  obtain ⟨body, hbody, h⟩ := Option.bind_eq_some_iff.mp h
  obtain ⟨hcount, hbytes⟩ := Option.ite_none_right_eq_some.mp hnpart
  obtain rfl := Option.some.inj hbytes
  refine ⟨listed, cfg', part, magic ++ lbaBytes, body, hlisted, hpart, by omega, hbody, ?_,
    (Option.some.inj h).symm⟩
  rw [List.length_append, packUint_length hmagic, packUint_length hlba]

/-- **A file is read as these entries exactly when no label is too wide and each record is one
of them.** -/
theorem decodes_iff {part : List Text} {header body : Text} {es : List Entry}
    (hheader : header.length = 8) (hcount : part.length < 2 ^ 32)
    (h : records cfg uuid4 0 part = some body) :
    Decodes uuid4 (header ++ leBytes 4 part.length ++ body) es ↔
      (∀ p ∈ part, Narrow cfg p) ∧ part.map (readOf cfg) = es.map some := by
  have hprefix : (header ++ leBytes 4 part.length).length = 12 := by
    rw [List.length_append, hheader, leBytes_length]
  have hpartCount : partitionCount (header ++ leBytes 4 part.length ++ body) = part.length := by
    rw [partitionCount, List.append_assoc, List.drop_left' hheader,
      List.take_left' (leBytes_length 4 _), leValue_leBytes (by omega)]
  constructor
  · rintro ⟨hlen, hrec⟩
    rw [hpartCount, List.length_append, hprefix] at hlen
    have hn := (records_length h).2.mp (by omega)
    obtain ⟨es', hes', hdecode⟩ := records_decode h hn
    rw [hpartCount, List.drop_left' hprefix, hdecode] at hrec
    exact ⟨hn, numbered_injective hrec ▸ hes'⟩
  · rintro ⟨hn, hes⟩
    obtain ⟨es', hes', hdecode⟩ := records_decode h hn
    obtain rfl : es = es' :=
      List.map_injective_iff.mpr (Option.some_injective _) (hes.symm.trans hes')
    refine ⟨?_, ?_⟩
    · rw [hpartCount, List.length_append, hprefix, (records_length h).2.mpr hn]
    · rw [hpartCount, List.drop_left' hprefix, hdecode]

end All

end UefiToolkit.GptRecords
