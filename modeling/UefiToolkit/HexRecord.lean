import UefiToolkit.HexModel

/-!
Intel HEX records, and what the program reads of one.

A record line is a colon and the hex digits of the byte count, the address, the type, the data
and a checksum that makes all the bytes sum to zero. A text is cut into lines at each CR, LF or
CR LF.
-/

namespace UefiToolkit.HexRecord

open UefiToolkit.Word UefiToolkit.Mem UefiToolkit.HexModel

/-! ### The format -/

def hexValue (c : UInt8) : Option ℕ :=
  if 0x30 ≤ c ∧ c ≤ 0x39 then some (c.toNat - 0x30)
  else if 0x41 ≤ c ∧ c ≤ 0x46 then some (c.toNat - 0x41 + 10)
  else if 0x61 ≤ c ∧ c ≤ 0x66 then some (c.toNat - 0x61 + 10)
  else none

/-- The bytes of a string of hex digits, in either case. -/
def hexBytes : List UInt8 → Option (List UInt8)
  | [] => some []
  | [_] => none
  | c :: d :: cs =>
    match hexValue c, hexValue d, hexBytes cs with
    | some hi, some lo, some bs => some (UInt8.ofNat (16 * hi + lo) :: bs)
    | _, _, _ => none

structure Rec where
  type : UInt8
  addr : ℕ
  data : List UInt8
  deriving DecidableEq

/-- The bytes of a record that the line spells: count, address, type, data, checksum. -/
def Rec.bytes (r : Rec) (checksum : UInt8) : List UInt8 :=
  UInt8.ofNat r.data.length :: UInt8.ofNat (r.addr / 2 ^ 8) :: UInt8.ofNat r.addr :: r.type ::
    (r.data ++ [checksum])

/-- The record of a line: start code, digits, length and checksum are in order. -/
def parseRecord : List UInt8 → Option Rec
  | [] => none
  | c :: ds =>
    if c = INTEL_HEX_START_CODE then
      match hexBytes ds with
      | some (n :: hi :: lo :: t :: rest) =>
        if rest.length = n.toNat + 1 ∧
            ((n :: hi :: lo :: t :: rest).map UInt8.toNat).sum % 2 ^ 8 = 0 then
          some ⟨t, 2 ^ 8 * hi.toNat + lo.toNat, rest.take n.toNat⟩
        else none
      | _ => none
    else none

/-- The lines of a text. -/
def textLines : List UInt8 → List (List UInt8)
  | [] => []
  | 0x0D :: 0x0A :: cs => [] :: textLines cs
  | c :: cs =>
    if isBreak c then [] :: textLines cs
    else
      match textLines cs with
      | [] => [[c]]
      | l :: ls => (c :: l) :: ls

/-! ### What the program reads -/

/-- One digit, checked for every character. -/
lemma hexValue_table : ∀ n < 256, ∀ v ∈ hexValue (UInt8.ofNat n), v < 16 ∧
    (intelHexCharToHex (UInt8.ofNat n)).toNat = v ∧ isBreak (UInt8.ofNat n) = false := by
  decide +kernel

lemma hexValue_spec {c : UInt8} {v : ℕ} (h : hexValue c = some v) :
    v < 16 ∧ (intelHexCharToHex c).toNat = v ∧ isBreak c = false := by
  have hc := hexValue_table c.toNat c.toNat_lt v
  rw [UInt8.ofNat_toNat] at hc
  exact hc h

lemma intelHexGetByte_eq {m : ℕ → UInt8} {p hi lo : ℕ} (hhi : hexValue (m p) = some hi)
    (hlo : hexValue (m (p + 1)) = some lo) : intelHexGetByte m p = UInt8.ofNat (16 * hi + lo) := by
  obtain ⟨h1, h2, -⟩ := hexValue_spec hhi
  obtain ⟨h3, h4, -⟩ := hexValue_spec hlo
  apply UInt8.toNat_inj.mp
  unfold intelHexGetByte
  rw [UInt8.toNat_or, UInt8.toNat_shiftLeft, h2, h4, UInt8.toNat_ofNat']
  have hshift : hi <<< (4 % 8) % 2 ^ 8 = 2 ^ 4 * hi := by
    have h16 : (2 : ℕ) ^ (4 % 8) = 16 := by decide
    rw [Nat.shiftLeft_eq, h16]
    omega
  have hor := Nat.two_pow_add_eq_or_of_lt (i := 4) (b := lo) (by omega) hi
  change hi <<< (4 % 8) % 2 ^ 8 ||| lo = _
  rw [hshift, ← hor]
  omega

lemma intelHexGetWord_eq (m : ℕ → UInt8) (p : ℕ) : intelHexGetWord m p =
    2 ^ 8 * (intelHexGetByte m p).toNat + (intelHexGetByte m (p + 2)).toNat := by
  have h1 := (intelHexGetByte m p).toNat_lt
  have h2 := (intelHexGetByte m (p + 2)).toNat_lt
  unfold intelHexGetWord
  rw [Nat.shiftLeft_eq, Nat.mul_comm _ (2 ^ 8), ← Nat.two_pow_add_eq_or_of_lt h2, u16_of_lt]
  omega

/-- The bytes that `n` pairs of characters from `p` on are read as. -/
def bytesAt (m : ℕ → UInt8) (p n : ℕ) : List UInt8 :=
  (List.range n).map fun i => intelHexGetByte m (p + 2 * i)

lemma bytesAt_succ (m : ℕ → UInt8) (p n : ℕ) :
    bytesAt m p (n + 1) = intelHexGetByte m p :: bytesAt m (p + 2) n := by
  unfold bytesAt
  rw [List.range_succ_eq_map, List.map_cons, List.map_map]
  congr 1
  exact List.map_congr_left fun i _ => by
    simp only [Function.comp]
    congr 1
    omega

/-- Hex digits have no line break among them, are twice as many as the bytes, and are read as
the bytes they spell. -/
lemma hexBytes_spec {cs bs : List UInt8} (h : hexBytes cs = some bs) :
    cs.length = 2 * bs.length ∧ (∀ c ∈ cs, isBreak c = false) ∧
      ∀ (m : ℕ → UInt8) (p : ℕ), slice m p cs.length = cs → bytesAt m p bs.length = bs := by
  induction cs using hexBytes.induct generalizing bs with
  | case1 =>
    injection h with h
    subst h
    exact ⟨rfl, by simp, fun _ _ _ => rfl⟩
  | case2 => simp [hexBytes] at h
  | case3 c d cs hi lo bs' hrest hlo hhi ih =>
    rw [hexBytes, hhi, hlo, hrest] at h
    injection h with h
    subst h
    obtain ⟨hlen, hbreak, hread⟩ := ih hrest
    refine ⟨by simp only [List.length_cons]; omega, ?_, ?_⟩
    · intro x hx
      rcases List.mem_cons.mp hx with rfl | hx
      · exact (hexValue_spec hhi).2.2
      rcases List.mem_cons.mp hx with rfl | hx
      · exact (hexValue_spec hlo).2.2
      · exact hbreak x hx
    · intro m p hm
      have hcell := slice_eq_iff.mp hm
      have h0 : m p = c := hcell 0 (by simp)
      have h1 : m (p + 1) = d := hcell 1 (by simp)
      have htail : slice m (p + 2) cs.length = cs :=
        slice_eq_iff.mpr fun i hi => by
          have := hcell (i + 2) (by simp; omega)
          rw [Nat.add_assoc, Nat.add_comm 2 i]
          simpa using this
      rw [List.length_cons, bytesAt_succ, hread m (p + 2) htail,
        intelHexGetByte_eq (h0 ▸ hhi) (h1 ▸ hlo)]
  | case4 c d cs hnot ih =>
    rw [hexBytes] at h
    split at h
    · rename_i hi lo bs' hhi hlo hrest
      exact absurd hrest (hnot hi lo bs' hhi hlo)
    · cases h

lemma bytesAt_length (m : ℕ → UInt8) (p n : ℕ) : (bytesAt m p n).length = n := by simp [bytesAt]

lemma bytesAt_append (m : ℕ → UInt8) (p n k : ℕ) :
    bytesAt m p (n + k) = bytesAt m p n ++ bytesAt m (p + 2 * n) k := by
  unfold bytesAt
  rw [List.range_add, List.map_append, List.map_map]
  congr 1
  exact List.map_congr_left fun i _ => by
    simp only [Function.comp]
    congr 1
    omega

/-- What a record line is made of. -/
lemma parseRecord_spec {cs : List UInt8} {r : Rec} (h : parseRecord cs = some r) :
    ∃ ds checksum, cs = INTEL_HEX_START_CODE :: ds ∧ hexBytes ds = some (r.bytes checksum) ∧
      r.data.length < 2 ^ 8 ∧ r.addr < 2 ^ 16 := by
  unfold parseRecord at h
  split at h
  · cases h
  · rename_i c ds
    split_ifs at h with hc
    split at h
    · rename_i n hi lo t rest hbytes
      split_ifs at h with hok
      obtain ⟨hlen, -⟩ := hok
      injection h with h
      subst h
      have hn := n.toNat_lt
      have hhi := hi.toNat_lt
      have hlo := lo.toNat_lt
      have hdata : (rest.take n.toNat).length = n.toNat := by rw [List.length_take]; omega
      obtain ⟨checksum, hck⟩ : ∃ c, rest.drop n.toNat = [c] :=
        List.length_eq_one_iff.mp (by rw [List.length_drop]; omega)
      refine ⟨ds, checksum, by rw [hc], ?_, by rw [hdata]; exact hn, by dsimp only; omega⟩
      rw [hbytes, Rec.bytes, hdata, UInt8.ofNat_toNat, ← hck, List.take_append_drop]
      have haddr : (2 ^ 8 * hi.toNat + lo.toNat) / 2 ^ 8 = hi.toNat := by omega
      have hofNat : UInt8.ofNat (2 ^ 8 * hi.toNat + lo.toNat) = lo :=
        UInt8.toNat_inj.mp (by rw [UInt8.toNat_ofNat']; omega)
      dsimp only
      rw [haddr, UInt8.ofNat_toNat, hofNat]
    · cases h

/-- The record of a line is read from the line buffer field by field. -/
structure Reads (m : ℕ → UInt8) (r : Rec) : Prop where
  count : (intelHexGetByte m 1).toNat = r.data.length
  addr : intelHexGetWord m 3 = r.addr
  type : intelHexGetByte m 7 = r.type
  data : bytesAt m 9 r.data.length = r.data

lemma reads_of_parseRecord {cs : List UInt8} {r : Rec} (h : parseRecord cs = some r)
    {m : ℕ → UInt8} (hm : slice m 0 cs.length = cs) : Reads m r := by
  obtain ⟨ds, checksum, rfl, hds, hn, ha⟩ := parseRecord_spec h
  obtain ⟨-, -, hread⟩ := hexBytes_spec hds
  have hcell := slice_eq_iff.mp hm
  have hm1 : slice m 1 ds.length = ds := slice_eq_iff.mpr fun i hi => by
    rw [show 1 + i = 0 + (i + 1) by omega, hcell (i + 1) (by rw [List.length_cons]; omega)]
    rfl
  have hall := hread m 1 hm1
  have hlen : (r.bytes checksum).length = r.data.length + 1 + 1 + 1 + 1 + 1 := by
    simp [Rec.bytes]
  rw [hlen] at hall
  simp only [Rec.bytes, bytesAt_succ m 1, bytesAt_succ m (1 + 2), bytesAt_succ m (1 + 2 + 2),
    bytesAt_succ m (1 + 2 + 2 + 2), List.cons.injEq] at hall
  obtain ⟨hcount, hhi, hlo, htype, hrest⟩ := hall
  rw [bytesAt_append] at hrest
  refine ⟨?_, ?_, htype, (List.append_inj hrest (bytesAt_length _ _ _)).1⟩
  · rw [hcount, UInt8.toNat_ofNat']
    omega
  · change intelHexGetByte m 3 = _ at hhi
    change intelHexGetByte m 5 = _ at hlo
    rw [intelHexGetWord_eq, hhi, hlo, UInt8.toNat_ofNat', UInt8.toNat_ofNat']
    omega

lemma parseRecord_length {cs : List UInt8} {r : Rec} (h : parseRecord cs = some r) :
    cs.length = 11 + 2 * r.data.length := by
  obtain ⟨ds, checksum, rfl, hds, -, -⟩ := parseRecord_spec h
  have hlen := (hexBytes_spec hds).1
  simp only [Rec.bytes, List.length_cons, List.length_append, List.length_nil] at hlen ⊢
  omega

lemma parseRecord_break {cs : List UInt8} {r : Rec} (h : parseRecord cs = some r) :
    ∀ c ∈ cs, isBreak c = false := by
  obtain ⟨ds, checksum, rfl, hds, -, -⟩ := parseRecord_spec h
  intro c hc
  rcases List.mem_cons.mp hc with rfl | hc
  · decide
  · exact (hexBytes_spec hds).2.1 c hc

end UefiToolkit.HexRecord
