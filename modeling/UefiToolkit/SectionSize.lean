import UefiToolkit.Word
import UefiToolkit.Mem
import UefiToolkit.StructPack

/-!
The payload of a RAW section of a firmware file, as `RawDataInit` measures it.

Only the address of the payload is known, and the header is looked for in front of it. It has one
of two forms, of four bytes or of eight.
-/

namespace UefiToolkit.SectionSize

open UefiToolkit.Word UefiToolkit.Mem UefiToolkit.StructPack

def EFI_SECTION_RAW : UInt8 := 0x19

/-- `EFI_COMMON_SECTION_HEADER` and `EFI_COMMON_SECTION_HEADER2`. -/
inductive Header
  | common
  | common2
  deriving DecidableEq

/-- `sizeof` of a header. -/
def Header.size : Header → ℕ
  | .common => 4
  | .common2 => 8

variable (mem : ℕ → UInt8)

/-- `SectionData->Type`. -/
def typeAt (sectionData : ℕ) : UInt8 := mem (sectionData + 3)

/-- `SECTION_SIZE`, the three bytes of `Size`. -/
def SECTION_SIZE (sectionData : ℕ) : ℕ := leValue (slice mem sectionData 3)

/-- `IS_SECTION2`. -/
def IS_SECTION2 (sectionData : ℕ) : Bool := SECTION_SIZE mem sectionData = 0x00FFFFFF

/-- `SECTION2_SIZE`, the `ExtendedSize` behind the short header. -/
def SECTION2_SIZE (sectionData : ℕ) : ℕ := leValue (slice mem (sectionData + 4) 4)

/-- The form that the header in front of `data` seems to have. -/
def headerForm (sectionType : UInt8) (data : ℕ) : Header :=
  if typeAt mem (data - Header.common.size) ≠ sectionType then .common2 else .common

/-- The size of the payload at `data`; none where the assertion on the type fails. -/
def getSectionSize (sectionType : UInt8) (data : ℕ) : Option ℕ :=
  let sectionHeaderSize := (headerForm mem sectionType data).size
  let sectionData := data - sectionHeaderSize
  if typeAt mem sectionData = sectionType then
    let sectionSize :=
      if IS_SECTION2 mem sectionData then SECTION2_SIZE mem sectionData
      else SECTION_SIZE mem sectionData
    some (sub64 sectionSize sectionHeaderSize)
  else none

/-! ### Sections -/

/-- The bytes of a header of a RAW section of `total` bytes. -/
def Header.bytes (total : ℕ) : Header → List UInt8
  | .common => leBytes 3 total ++ [EFI_SECTION_RAW]
  | .common2 => [0xFF, 0xFF, 0xFF] ++ [EFI_SECTION_RAW] ++ leBytes 4 total

/-- A RAW section of `total` bytes at address `start`, with whatever bytes around its header. -/
structure RawSection (start total : ℕ) (form : Header) : Prop where
  total_lt : total < 2 ^ 32
  room : form.size ≤ total
  fits : form = .common → total < 0x00FFFFFF
  header : slice mem start form.size = form.bytes total

variable {mem} {start total : ℕ} {form : Header}

/-- The short header says what it is. -/
lemma RawSection.common_fields (h : RawSection mem start total .common) :
    SECTION_SIZE mem start = total ∧ typeAt mem start = EFI_SECTION_RAW := by
  have hfits := h.fits rfl
  have hheader : slice mem start 3 ++ slice mem (start + 3) 1 =
      leBytes 3 total ++ [EFI_SECTION_RAW] := (slice_add mem start 3 1).symm.trans h.header
  obtain ⟨hsize, htype⟩ := List.append_inj hheader (by simp)
  constructor
  · rw [SECTION_SIZE, hsize, leValue_leBytes (by omega)]
  · exact List.head_eq_of_cons_eq htype

/-- The long header, and what stands where the short one would. -/
lemma RawSection.common2_fields (h : RawSection mem start total .common2) :
    SECTION_SIZE mem start = 0x00FFFFFF ∧ typeAt mem start = EFI_SECTION_RAW ∧
      SECTION2_SIZE mem start = total ∧ SECTION_SIZE mem (start + 4) = total % 2 ^ 24 ∧
      typeAt mem (start + 4) = UInt8.ofNat (total / 2 ^ 24) := by
  have hlt := h.total_lt
  have hheader : slice mem start 3 ++ slice mem (start + 3) 1 ++ slice mem (start + 4) 4 =
      [0xFF, 0xFF, 0xFF] ++ [EFI_SECTION_RAW] ++ leBytes 4 total := by
    rw [← slice_add, ← slice_add]
    exact h.header
  obtain ⟨hfront, hextended⟩ := List.append_inj hheader (by simp)
  obtain ⟨hsize, htype⟩ := List.append_inj hfront (by simp)
  have hback : slice mem (start + 4) 3 ++ slice mem (start + 4 + 3) 1 =
      leBytes 3 total ++ [UInt8.ofNat (total / 256 / 256 / 256)] :=
    (slice_add mem (start + 4) 3 1).symm.trans hextended
  obtain ⟨hlow, htop⟩ := List.append_inj hback (by simp)
  refine ⟨?_, List.head_eq_of_cons_eq htype, ?_, ?_, ?_⟩
  · rw [SECTION_SIZE, hsize]
    rfl
  · rw [SECTION2_SIZE, hextended, leValue_leBytes (by omega)]
  · rw [SECTION_SIZE, hlow, leValue_leBytes_mod]
    rfl
  · rw [Nat.div_div_eq_div_mul, Nat.div_div_eq_div_mul] at htop
    exact List.head_eq_of_cons_eq htop

/-- The size by the header that seems to be there. -/
lemma getSectionSize_eq (hform : headerForm mem EFI_SECTION_RAW (start + form.size) = form)
    (htype : typeAt mem start = EFI_SECTION_RAW) :
    getSectionSize mem EFI_SECTION_RAW (start + form.size) =
      some (sub64 (if IS_SECTION2 mem start then SECTION2_SIZE mem start
        else SECTION_SIZE mem start) form.size) := by
  rw [getSectionSize, hform, Nat.add_sub_cancel]
  exact if_pos htype

lemma getSectionSize_common (h : RawSection mem start total .common) :
    getSectionSize mem EFI_SECTION_RAW (start + Header.common.size) =
      some (total - Header.common.size) := by
  obtain ⟨hsize, htype⟩ := h.common_fields
  have hfits := h.fits rfl
  have hform : headerForm mem EFI_SECTION_RAW (start + Header.common.size) = .common := by
    rw [headerForm, Nat.add_sub_cancel, if_neg (not_not_intro htype)]
  have hshort : IS_SECTION2 mem start = false := decide_eq_false (by omega)
  rw [getSectionSize_eq hform htype, hshort, hsize, if_neg Bool.false_ne_true,
    sub64_of_le (by omega) h.room]

/-- A long header is found if the byte in front of the payload does not look like a type. -/
lemma getSectionSize_common2 (h : RawSection mem start total .common2)
    (htop : total / 2 ^ 24 ≠ 0x19) :
    getSectionSize mem EFI_SECTION_RAW (start + Header.common2.size) =
      some (total - Header.common2.size) := by
  obtain ⟨hsize, htype, htotal, -, hbyte⟩ := h.common2_fields
  have hlt := h.total_lt
  have hne : typeAt mem (start + 4) ≠ EFI_SECTION_RAW := by
    rw [hbyte]
    intro heq
    have := congrArg UInt8.toNat heq
    rw [UInt8.toNat_ofNat', Nat.mod_eq_of_lt (by omega)] at this
    exact htop this
  have hform : headerForm mem EFI_SECTION_RAW (start + Header.common2.size) = .common2 :=
    if_pos hne
  have hlong : IS_SECTION2 mem start = true := decide_eq_true hsize
  rw [getSectionSize_eq hform htype, hlong, htotal, if_pos rfl, sub64_of_le (by omega) h.room]

/-- Otherwise the end of the long header is taken for a short one. -/
lemma getSectionSize_misread (h : RawSection mem start total .common2)
    (htop : total / 2 ^ 24 = 0x19) :
    getSectionSize mem EFI_SECTION_RAW (start + Header.common2.size) =
      some (sub64 (if total % 2 ^ 24 = 0x00FFFFFF then leValue (slice mem (start + 8) 4)
        else total % 2 ^ 24) Header.common.size) := by
  obtain ⟨-, -, -, hlow, hbyte⟩ := h.common2_fields
  have htype : typeAt mem (start + 4) = EFI_SECTION_RAW := by
    rw [hbyte, htop]
    rfl
  have hform : headerForm mem EFI_SECTION_RAW (start + 4 + Header.common.size) = .common :=
    if_neg (not_not_intro htype)
  have hlen := getSectionSize_eq hform htype
  rw [IS_SECTION2, hlow] at hlen
  simp only [decide_eq_true_eq] at hlen
  exact hlen

/-- **The payload of a RAW section** is measured right, unless the top byte of an extended size
looks like the type. -/
theorem getSectionSize_iff (h : RawSection mem start total form) :
    getSectionSize mem EFI_SECTION_RAW (start + form.size) = some (total - form.size) ↔
      form = .common ∨ total / 2 ^ 24 ≠ 0x19 ∨
        total % 2 ^ 24 = 0x00FFFFFF ∧ leValue (slice mem (start + 8) 4) = total - 4 := by
  cases form with
  | common => exact iff_of_true (getSectionSize_common h) (Or.inl rfl)
  | common2 =>
    by_cases htop : total / 2 ^ 24 = 0x19
    · -- the low part of the size is too small by the type, unless all of it is set
      have hextended : leValue (slice mem (start + 8) 4) < 2 ^ 32 :=
        (leValue_lt _).trans_eq (by rw [slice_length]; rfl)
      rw [getSectionSize_misread h htop]
      simp only [Header.size, Option.some.injEq, sub64, u64, reduceCtorEq, htop, ne_eq,
        not_true_eq_false, false_or]
      split_ifs with hfull
      · omega
      · omega
    · exact iff_of_true (getSectionSize_common2 h htop) (Or.inr (Or.inl htop))

/-- The bytes of a header and zeros around them. -/
def sectionAt (start total : ℕ) (form : Header) : ℕ → UInt8 :=
  blit (fun _ => 0) start (form.bytes total)

theorem getSectionSize_iff_long :
    getSectionSize (sectionAt 0x1000 0x100 .common2) EFI_SECTION_RAW
        (0x1000 + Header.common2.size) = some (0x100 - Header.common2.size) ↔
      Header.common2 = .common ∨ 0x100 / 2 ^ 24 ≠ 0x19 ∨ 0x100 % 2 ^ 24 = 0x00FFFFFF ∧
        leValue (slice (sectionAt 0x1000 0x100 .common2) (0x1000 + 8) 4) = 0x100 - 4 :=
  @getSectionSize_iff _ _ _ .common2
    ⟨by decide, by decide, by decide, slice_blit _ 0x1000 (Header.common2.bytes 0x100)⟩

/-- A section of 0x19000010 bytes is taken for one of 16. -/
theorem getSectionSize_type_byte :
    RawSection (sectionAt 0x1000 0x19000010 .common2) 0x1000 0x19000010 .common2 ∧
      getSectionSize (sectionAt 0x1000 0x19000010 .common2) EFI_SECTION_RAW
        (0x1000 + Header.common2.size) = some 12 ∧
      12 ≠ 0x19000010 - Header.common2.size := by
  refine ⟨⟨by decide, by decide, by decide, ?_⟩, by decide, by decide⟩
  exact slice_blit _ 0x1000 (Header.common2.bytes 0x19000010)

end UefiToolkit.SectionSize
