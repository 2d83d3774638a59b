import UefiToolkit.BootModel

/-!
The steps of `uefi_avb_boot_kernel` one by one: when each of them stays inside of the image and
the buffers, and what it gives then.
-/

namespace UefiToolkit.BootSteps

open UefiToolkit.Word UefiToolkit.Mem UefiToolkit.StructPack UefiToolkit.Faults
open UefiToolkit.BootModel

/-! ### The fields of the header -/

/-- What a read of a field gives when it is inside. -/
def field (data : List UInt8) (offset : ℕ) : ℕ := leValue ((data.drop offset).take 4)

section Fields

variable (data : List UInt8)

def kernelField : ℕ := field data 8
def ramdiskField : ℕ := field data 16
def secondField : ℕ := field data 24
def pageField : ℕ := field data 36

/-- `initramfs_size`. -/
def initramfsSize : ℕ := u32 (ramdiskField data + secondField data)

/-- The pages of an area of `n` bytes. -/
def areaSize (n : ℕ) : ℕ := (n + pageField data - 1) / pageField data * pageField data

def ramdiskOffset : ℕ := pageField data + areaSize data (kernelField data)

def secondOffset : ℕ := ramdiskOffset data + areaSize data (ramdiskField data)

/-- `cmdline_first_len`, when there is an end. -/
def firstLen : ℕ := (data.drop cmdlineOffset).findIdx (· = 0)

end Fields

/-- The bytes from an offset on. -/
def area (data : List UInt8) (offset n : ℕ) : List UInt8 := (data.drop offset).take n

/-- The bytes of an area are all there. -/
def Inside (data : List UInt8) (offset n : ℕ) : Prop := n = 0 ∨ offset + n ≤ data.length

instance (data : List UInt8) (offset n : ℕ) : Decidable (Inside data offset n) :=
  inferInstanceAs (Decidable (n = 0 ∨ offset + n ≤ data.length))

lemma area_length {data : List UInt8} {offset n : ℕ} (h : Inside data offset n) :
    (area data offset n).length = n := by
  rw [area, List.length_take, List.length_drop]
  rcases h with rfl | h <;> omega

lemma field_lt (data : List UInt8) (offset : ℕ) : field data offset < 2 ^ 32 := by
  have hlen : ((data.drop offset).take 4).length ≤ 4 := by simp
  calc field data offset < 256 ^ ((data.drop offset).take 4).length := leValue_lt _
    _ ≤ 256 ^ 4 := Nat.pow_le_pow_right (by norm_num) hlen
    _ = 2 ^ 32 := by norm_num

/-! ### Reads and writes -/

section Access

variable (data : List UInt8) (b : Buffer) (offset n : ℕ) (bytes : List UInt8)

lemma readField_eq :
    readField data offset = need (offset + 4 ≤ data.length) (field data offset) := rfl

lemma readData_eq :
    readData data offset n = need (Inside data offset n) (area data offset n) := rfl

lemma write_eq : b.write offset bytes = need (bytes = [] ∨ offset + bytes.length ≤ b.size)
    { b with cells := blit b.cells offset bytes } := rfl

/-- A buffer with a text at its start. -/
def filled (b : Buffer) (l : List UInt8) : Buffer := { b with cells := blit b.cells 0 l }

/-- A write after the text makes it longer. -/
lemma write_filled (b : Buffer) {offset : ℕ} {l more : List UInt8} (ho : offset = l.length)
    (h : offset + more.length ≤ b.size) :
    (filled b l).write offset more = .ok (filled b (l ++ more)) := by
  subst ho
  rw [write_eq, need_of (.inr h)]
  have happ := blit_append b.cells 0 l more
  rw [Nat.zero_add] at happ
  exact congrArg (fun c => Except.ok { b with cells := c }) happ

lemma write_start (b : Buffer) {l : List UInt8} (h : l.length ≤ b.size) :
    b.write 0 l = .ok (filled b l) := need_of (.inr (by omega)) _

lemma read_eq : b.read offset n = need (n = 0 ∨ offset + n ≤ b.size) (slice b.cells offset n) := rfl

end Access

section Allocation

variable {fw : Firmware} {use : Use} {maxAddress size : ℕ} {α : Type}

/-- What is allocated for `n` bytes. -/
def pagesSize (n : ℕ) : ℕ := sizeToPages n * EFI_PAGE_SIZE

lemma le_pagesSize (n : ℕ) : n ≤ pagesSize n := by
  unfold pagesSize sizeToPages EFI_PAGE_SIZE
  split_ifs <;> omega

/-- Unless it is nothing, it is at least a page. -/
lemma page_le_pagesSize {n : ℕ} (h : 0 < n) : 4096 ≤ pagesSize n := by
  unfold pagesSize sizeToPages EFI_PAGE_SIZE
  split_ifs <;> omega

/-- The pages are given. -/
def Granted (fw : Firmware) (use : Use) (maxAddress size : ℕ) : Prop :=
  ∃ address, fw.allocatePages use maxAddress (sizeToPages size) = some address

/-- A new buffer. -/
def fresh (fw : Firmware) (use : Use) (address size : ℕ) : Buffer :=
  ⟨address, pagesSize size, fw.contents use⟩

@[simp] lemma fresh_size (address : ℕ) :
    (fresh fw use address size).size = pagesSize size := rfl

@[simp] lemma safe_allocate_bind {f : Buffer → Boot α} :
    Safe (allocate fw use maxAddress size >>= f) ↔
      ∀ address, fw.allocatePages use maxAddress (sizeToPages size) = some address →
        Safe (f (fresh fw use address size)) := by
  unfold allocate
  cases fw.allocatePages use maxAddress (sizeToPages size) with
  | none => exact ⟨fun _ _ h => (by cases h), fun _ => safe_fail _⟩
  | some address => exact ⟨fun h a ha => by cases ha; exact h, fun h => h address rfl⟩

@[simp] lemma allocate_bind_ok_iff {f : Buffer → Boot α} {a : α} :
    (allocate fw use maxAddress size >>= f) = .ok a ↔
      ∃ address, fw.allocatePages use maxAddress (sizeToPages size) = some address ∧
        f (fresh fw use address size) = .ok a := by
  unfold allocate
  cases fw.allocatePages use maxAddress (sizeToPages size) with
  | none => exact ⟨fun h => (by cases h), fun ⟨_, h, _⟩ => (by cases h)⟩
  | some address => exact ⟨fun h => ⟨address, rfl, h⟩, fun ⟨a, ha, h⟩ => by cases ha; exact h⟩

lemma allocate_bind_congr {f g : Buffer → Boot α} (h : ∀ b, b.size = pagesSize size → f b = g b) :
    (allocate fw use maxAddress size >>= f) = (allocate fw use maxAddress size >>= g) := by
  unfold allocate
  cases fw.allocatePages use maxAddress (sizeToPages size) with
  | none => rfl
  | some address => exact h _ rfl

end Allocation

/-! ### The checks -/

section Image

variable (fw : Firmware) (data : List UInt8)

def HasMagic : Prop := BOOT_MAGIC = area data 0 8

/-- The only check of the sizes. -/
def SizesFit : Prop :=
  kernelField data + ramdiskField data + secondField data ≤ data.length

lemma roundUp_eq (value size : ℕ) :
    roundUp value size = need (size ≠ 0) ((value + size - 1) / size * size) := rfl

/-- Three 32-bit sizes do not wrap around. -/
lemma avbSafeAddTo_of_lt {m n : ℕ} (h : m + n < 2 ^ 64) : avbSafeAddTo m n = some (m + n) := by
  unfold avbSafeAddTo add64
  rw [u64_of_lt h, if_neg (by omega)]

lemma fields_lt :
    kernelField data < 2 ^ 32 ∧ ramdiskField data < 2 ^ 32 ∧ secondField data < 2 ^ 32 :=
  ⟨field_lt data 8, field_lt data 16, field_lt data 24⟩

lemma kernel_add_ramdisk :
    avbSafeAddTo (field data 8) (field data 16) = some (kernelField data + ramdiskField data) := by
  obtain ⟨hk, hr, -⟩ := fields_lt data
  exact avbSafeAddTo_of_lt (by unfold kernelField ramdiskField at *; omega)

lemma total_add_second :
    avbSafeAddTo (kernelField data + ramdiskField data) (field data 24) =
      some (kernelField data + ramdiskField data + secondField data) := by
  obtain ⟨hk, hr, hs⟩ := fields_lt data
  exact avbSafeAddTo_of_lt (by unfold secondField at *; omega)

lemma safe_checkImage :
    Safe (checkImage data) ↔ 8 ≤ data.length ∧ (HasMagic data → 28 ≤ data.length) := by
  unfold checkImage kernelSize ramdiskSize secondSize
  simp only [readData_eq, readField_eq, safe_need_bind, safe_check_bind, kernel_add_ramdisk,
    total_add_second, safe_check, and_true]
  constructor
  · rintro ⟨h8, h⟩
    exact ⟨by rcases h8 with h8 | h8 <;> omega, fun hm => (h hm).2.2⟩
  · rintro ⟨h8, h⟩
    exact ⟨.inr (by omega), fun hm => ⟨by have := h hm; omega, by have := h hm; omega, h hm⟩⟩

lemma checkImage_ok_iff :
    checkImage data = .ok () ↔ HasMagic data ∧ 28 ≤ data.length ∧ SizesFit data := by
  unfold checkImage kernelSize ramdiskSize secondSize
  simp only [readData_eq, readField_eq, need_bind_ok_iff, check_bind_ok_iff, check_ok_iff,
    kernel_add_ramdisk, total_add_second]
  constructor
  · rintro ⟨-, hm, -, -, h28, hfit⟩
    exact ⟨hm, h28, hfit⟩
  · rintro ⟨hm, h28, hfit⟩
    exact ⟨.inr (by omega), hm, by omega, by omega, h28, hfit⟩

/-! ### The kernel -/

/-- An area goes into new pages that are as large. -/
lemma area_fits {data : List UInt8} {offset n m : ℕ} (h : Inside data offset n)
    (hn : n ≤ pagesSize m) :
    area data offset n = [] ∨ 0 + (area data offset n).length ≤ pagesSize m :=
  .inr (by rw [area_length h]; omega)

def KernelInRange : Prop := 40 ≤ data.length ∧ Inside data (pageField data) (kernelField data)

def kernelBuffer (address : ℕ) : Buffer :=
  filled (fresh fw .kernel address (kernelField data))
    (area data (pageField data) (kernelField data))

lemma kernelBuffer_size (address : ℕ) :
    (kernelBuffer fw data address).size = pagesSize (kernelField data) := rfl

lemma kernelBuffer_cells (address : ℕ) : (kernelBuffer fw data address).cells =
    blit (fw.contents .kernel) 0 (area data (pageField data) (kernelField data)) := rfl

lemma safe_loadKernel (h : 28 ≤ data.length) : Safe (loadKernel fw data) ↔
    (Granted fw .kernel 0x3fffffff (kernelField data) → KernelInRange data) := by
  unfold loadKernel kernelSize pageSize
  simp only [readField_eq, readData_eq, write_eq, safe_need_bind, safe_allocate_bind, safe_need]
  constructor
  · rintro ⟨-, hs⟩ ⟨address, ha⟩
    exact ⟨(hs address ha).1, (hs address ha).2.1⟩
  · intro hs
    refine ⟨by omega, fun address ha => ?_⟩
    obtain ⟨h40, hin⟩ := hs ⟨address, ha⟩
    exact ⟨h40, hin, area_fits hin (le_pagesSize _)⟩

lemma loadKernel_ok_iff {b : Buffer} :
    loadKernel fw data = .ok b ↔ KernelInRange data ∧
      ∃ address, fw.allocatePages .kernel 0x3fffffff (sizeToPages (kernelField data)) =
        some address ∧ kernelBuffer fw data address = b := by
  unfold loadKernel kernelSize pageSize
  simp only [readField_eq, readData_eq, write_eq, need_bind_ok_iff, allocate_bind_ok_iff,
    need_ok_iff]
  constructor
  · rintro ⟨-, address, ha, h40, hin, -, hb⟩
    exact ⟨⟨h40, hin⟩, address, ha, hb⟩
  · rintro ⟨⟨h40, hin⟩, address, ha, hb⟩
    exact ⟨by omega, address, ha, h40, hin, area_fits hin (le_pagesSize _), hb⟩

/-! ### The two ramdisks -/

/-- Both areas are in the image, and fit into the pages of the sum at 32 bits. -/
structure InitramfsInRange : Prop where
  header : 40 ≤ data.length
  divisor : pageField data ≠ 0
  ramdisk : Inside data (ramdiskOffset data) (ramdiskField data)
  ramdiskFits : ramdiskField data ≤ pagesSize (initramfsSize data)
  second : Inside data (secondOffset data) (secondField data)
  secondFits : secondField data ≤ pagesSize (initramfsSize data)

/-- Both ramdisks are copied to the start. -/
def initramfsBuffer (address : ℕ) : Buffer :=
  filled (filled (fresh fw .initramfs address (initramfsSize data))
      (area data (ramdiskOffset data) (ramdiskField data)))
    (area data (secondOffset data) (secondField data))

lemma initramfsBuffer_cells (address : ℕ) : (initramfsBuffer fw data address).cells = blit
    (blit (fw.contents .initramfs) 0 (area data (ramdiskOffset data) (ramdiskField data))) 0
    (area data (secondOffset data) (secondField data)) := rfl

/-- An area that was written has its length within the pages. -/
lemma le_of_fits {offset n m : ℕ} (h : Inside data offset n)
    (hb : area data offset n = [] ∨ 0 + (area data offset n).length ≤ m) : n ≤ m := by
  have hlen := area_length h
  rcases hb with hb | hb
  · rw [hb] at hlen
    exact hlen ▸ Nat.zero_le m
  · omega

lemma safe_loadInitramfs (h : 28 ≤ data.length) : Safe (loadInitramfs fw data) ↔
    (0 < initramfsSize data → Granted fw .initramfs 0x3fffffff (initramfsSize data) →
      InitramfsInRange data) := by
  unfold loadInitramfs kernelSize ramdiskSize secondSize pageSize
  simp only [readField_eq, readData_eq, write_eq, roundUp_eq, safe_need_bind]
  split_ifs with hpos
  · simp only [safe_allocate_bind, safe_need_bind, safe_pure, and_true]
    constructor
    · rintro ⟨-, -, hs⟩ - ⟨address, ha⟩
      obtain ⟨h40, -, hdiv, hram, hramFits, -, hsec, hsecFits⟩ := hs address ha
      exact ⟨h40, hdiv, hram, le_of_fits data hram hramFits, hsec, le_of_fits data hsec hsecFits⟩
    · intro hs
      refine ⟨by omega, by omega, fun address ha => ?_⟩
      obtain ⟨h40, hdiv, hram, hramFits, hsec, hsecFits⟩ := hs hpos ⟨address, ha⟩
      exact ⟨h40, by omega, hdiv, hram, area_fits hram hramFits, hdiv, hsec,
        area_fits hsec hsecFits⟩
  · exact ⟨fun _ hp => absurd hp hpos, fun _ => ⟨by omega, by omega, safe_pure _⟩⟩

lemma loadInitramfs_ok_iff {r : ℕ × Option Buffer} (h : 28 ≤ data.length) :
    loadInitramfs fw data = .ok r ↔
      (0 < initramfsSize data ∧ InitramfsInRange data ∧
        ∃ address, fw.allocatePages .initramfs 0x3fffffff (sizeToPages (initramfsSize data)) =
          some address ∧ (initramfsSize data, some (initramfsBuffer fw data address)) = r) ∨
      (initramfsSize data = 0 ∧ (0, none) = r) := by
  unfold loadInitramfs kernelSize ramdiskSize secondSize pageSize
  simp only [readField_eq, readData_eq, write_eq, roundUp_eq, need_bind_ok_iff]
  split_ifs with hpos
  · simp only [allocate_bind_ok_iff, need_bind_ok_iff]
    constructor
    · rintro ⟨-, -, address, ha, h40, -, hdiv, hram, hramFits, -, hsec, hsecFits, hr⟩
      exact .inl ⟨hpos, ⟨h40, hdiv, hram, le_of_fits data hram hramFits, hsec,
        le_of_fits data hsec hsecFits⟩, address, ha, Except.ok.inj hr⟩
    · rintro (⟨-, ⟨h40, hdiv, hram, hramFits, hsec, hsecFits⟩, address, ha, hr⟩ | ⟨h0, -⟩)
      · exact ⟨by omega, by omega, address, ha, h40, by omega, hdiv, hram,
          area_fits hram hramFits, hdiv, hsec, area_fits hsec hsecFits, congrArg Except.ok hr⟩
      · exact absurd h0 hpos.ne'
  · have h0 : initramfsSize data = 0 := Nat.eq_zero_of_not_pos hpos
    constructor
    · rintro ⟨-, -, hr⟩
      refine .inr ⟨h0, ?_⟩
      rw [← Except.ok.inj hr]
      exact Prod.ext h0.symm rfl
    · rintro (⟨hp, -⟩ | ⟨-, rfl⟩)
      · exact absurd hp hpos
      · exact ⟨by omega, by omega, congrArg Except.ok (Prod.ext h0 rfl)⟩

/-! ### The command line -/

/-- The command line in the header ends somewhere in the image. -/
def CmdlineEnds : Prop := firstLen data < (data.drop cmdlineOffset).length

instance : Decidable (CmdlineEnds data) :=
  inferInstanceAs (Decidable (firstLen data < (data.drop cmdlineOffset).length))

lemma avbStrlen_eq :
    avbStrlen data cmdlineOffset = need (CmdlineEnds data) (firstLen data) := rfl

lemma firstLen_inside (h : CmdlineEnds data) : Inside data cmdlineOffset (firstLen data) := by
  unfold CmdlineEnds at h
  rw [List.length_drop] at h
  exact .inr (by omega)

/-- A space and the text, unless it is empty. -/
def extraText : List UInt8 → List UInt8
  | [] => []
  | b :: l => 0x20 :: b :: l

section Cmdline

variable (slotCmdline : List UInt8) (cmdlineExtra : Option (List UInt8))

/-- All of the command line. -/
def cmdlineText : List UInt8 :=
  area data cmdlineOffset (firstLen data) ++ [0x20] ++ slotCmdline ++
    extraText (cmdlineExtra.getD []) ++ [0]

/-- `cmdline_utf8_len`. -/
def cmdlineLen : ℕ :=
  firstLen data + 1 + slotCmdline.length + 1 + (extraText (cmdlineExtra.getD [])).length

def cmdlineBuffer (address : ℕ) : Buffer :=
  filled (fresh fw .cmdline address (cmdlineLen data slotCmdline cmdlineExtra))
    (cmdlineText data slotCmdline cmdlineExtra)

lemma cmdlineText_length (h : CmdlineEnds data) :
    (cmdlineText data slotCmdline cmdlineExtra).length =
      cmdlineLen data slotCmdline cmdlineExtra := by
  unfold cmdlineText cmdlineLen
  simp only [List.length_append, List.length_singleton, area_length (firstLen_inside data h)]
  omega

/-- The parts are written one after the other, and fill what was computed. -/
lemma buildCmdline_eq (h : CmdlineEnds data) : buildCmdline fw data slotCmdline cmdlineExtra =
    (allocate fw .cmdline 0xA0000 (cmdlineLen data slotCmdline cmdlineExtra) >>= fun b =>
      .ok (filled b (cmdlineText data slotCmdline cmdlineExtra))) := by
  have hinside := firstLen_inside data h
  have hfirst := area_length hinside
  have hpages := le_pagesSize (cmdlineLen data slotCmdline cmdlineExtra)
  unfold buildCmdline
  rw [avbStrlen_eq, need_of h, ok_bind]
  unfold cmdlineText cmdlineLen at *
  cases hextra : cmdlineExtra.getD [] with
  | nil =>
    rw [hextra] at hpages
    simp only [List.length_nil, lt_irrefl, if_false, extraText, List.append_nil] at *
    refine allocate_bind_congr fun b hb => ?_
    rw [readData_eq, need_of hinside, ok_bind, write_start b (by omega), ok_bind,
      write_filled b hfirst.symm (by simp only [List.length_singleton]; omega), ok_bind,
      write_filled b (by simp [hfirst]) (by omega), ok_bind, pure_bind]
    rw [write_filled b (by simp [hfirst]; omega) (by simp only [List.length_singleton]; omega),
      ok_bind]
    exact need_of trivial _
  | cons c l =>
    rw [hextra] at hpages
    simp only [List.length_cons, Nat.zero_lt_succ, if_true, extraText] at *
    refine allocate_bind_congr fun b hb => ?_
    rw [readData_eq, need_of hinside, ok_bind, write_start b (by omega), ok_bind,
      write_filled b hfirst.symm (by simp only [List.length_singleton]; omega), ok_bind,
      write_filled b (by simp [hfirst]) (by omega), ok_bind]
    rw [write_filled b (by simp [hfirst]; omega) (by simp only [List.length_singleton]; omega),
      ok_bind, write_filled b (by simp [hfirst]; omega) (by simp only [List.length_cons]; omega),
      ok_bind]
    rw [write_filled b (by simp [hfirst]; omega) (by simp only [List.length_singleton]; omega),
      ok_bind]
    refine (need_of (by omega) _).trans ?_
    simp only [List.append_assoc, List.cons_append, List.nil_append]

lemma safe_buildCmdline :
    Safe (buildCmdline fw data slotCmdline cmdlineExtra) ↔ CmdlineEnds data := by
  by_cases h : CmdlineEnds data
  · rw [buildCmdline_eq fw data _ _ h, safe_allocate_bind]
    exact ⟨fun _ => h, fun _ _ _ => safe_ok _⟩
  · unfold buildCmdline
    rw [avbStrlen_eq, safe_need_bind]
    exact ⟨fun hs => hs.1, fun he => absurd he h⟩

lemma buildCmdline_ok_iff {b : Buffer} :
    buildCmdline fw data slotCmdline cmdlineExtra = .ok b ↔ CmdlineEnds data ∧
      ∃ address, fw.allocatePages .cmdline 0xA0000
          (sizeToPages (cmdlineLen data slotCmdline cmdlineExtra)) = some address ∧
        cmdlineBuffer fw data slotCmdline cmdlineExtra address = b := by
  by_cases h : CmdlineEnds data
  · rw [buildCmdline_eq fw data _ _ h, allocate_bind_ok_iff]
    simp only [Except.ok.injEq, h, true_and, cmdlineBuffer]
  · unfold buildCmdline
    rw [avbStrlen_eq, need_bind_ok_iff]
    exact ⟨fun hs => absurd hs.1 h, fun he => absurd he.1 h⟩

end Cmdline

end Image

/-! ### The handover -/

/-- The header of the kernel is read when there is at least one page. -/
lemma safe_checkKernel {kernel : Buffer} {n : ℕ} (h : kernel.size = pagesSize n) :
    Safe (checkKernel kernel) ↔ 0 < n := by
  unfold checkKernel
  simp only [read_eq, safe_need_bind, safe_check_bind, safe_check, and_true, h]
  constructor
  · rintro ⟨hsig, -⟩
    refine Nat.pos_of_ne_zero ?_
    rintro rfl
    have hnone : pagesSize 0 = 0 := rfl
    omega
  · intro hn
    have hpage := page_le_pagesSize hn
    exact ⟨by omega, fun _ => ⟨by omega, fun _ => ⟨by omega, fun _ => by omega⟩⟩⟩

/-- The setup buffer has room for everything. -/
lemma safe_fillSetup (fw : Firmware) {kernel : Buffer} (cmdline : Buffer)
    (initramfs : ℕ × Option Buffer) (h : 4096 ≤ kernel.size) :
    Safe (fillSetup fw kernel cmdline initramfs) := by
  have hsetup : pagesSize 0x4000 = 0x4000 := rfl
  unfold fillSetup
  simp only [read_eq, write_eq, safe_need_bind, safe_allocate_bind, fresh_size, safe_need,
    List.length_replicate, slice_length, List.length_singleton, leBytes_length, hsetup]
  intro address _
  unfold setupHeaderSize
  omega

/-- It is filled whenever there are pages for it. -/
lemma fillSetup_ok_iff (fw : Firmware) {kernel : Buffer} (cmdline : Buffer)
    (initramfs : ℕ × Option Buffer) (h : 4096 ≤ kernel.size) :
    (∃ setup, fillSetup fw kernel cmdline initramfs = .ok setup) ↔
      Granted fw .setup 0x3fffffff 0x4000 := by
  have hsetup : pagesSize 0x4000 = 0x4000 := rfl
  unfold fillSetup
  simp only [read_eq, write_eq, need_bind_ok_iff, allocate_bind_ok_iff, fresh_size, need_ok_iff,
    List.length_replicate, slice_length, List.length_singleton, leBytes_length, hsetup]
  constructor
  · rintro ⟨_, address, ha, -⟩
    exact ⟨address, ha⟩
  · rintro ⟨address, ha⟩
    unfold setupHeaderSize
    refine ⟨_, address, ha, ?_, ?_, ?_, ?_, ?_, ?_, ?_, ?_, ?_, rfl⟩ <;> omega

end UefiToolkit.BootSteps
