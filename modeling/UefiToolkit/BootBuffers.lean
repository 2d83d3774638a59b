import UefiToolkit.BootSteps

/-!
What the kernel finds in the buffers when it is started from a well-formed image.

The two ramdisks are to stand one after the other, and both are copied to the start.
-/

namespace UefiToolkit.BootBuffers

open UefiToolkit.Mem UefiToolkit.Faults UefiToolkit.BootModel UefiToolkit.BootSteps

/-! ### What is to be in the buffers -/

section Image

variable (data : List UInt8)

/-- `sizeof (boot_img_hdr)`. -/
def headerSize : ℕ := 1632

/-- An image of version 0: each area starts with a page after the previous one. -/
structure WellFormed : Prop where
  magic : HasMagic data
  header : headerSize ≤ data.length
  page : 0 < pageField data
  kernel : Inside data (pageField data) (kernelField data)
  ramdisk : Inside data (ramdiskOffset data) (ramdiskField data)
  second : Inside data (secondOffset data) (secondField data)
  cmdline : 0 ∈ area data cmdlineOffset BOOT_ARGS_SIZE

def kernelBytes : List UInt8 := area data (pageField data) (kernelField data)
def ramdiskBytes : List UInt8 := area data (ramdiskOffset data) (ramdiskField data)
def secondBytes : List UInt8 := area data (secondOffset data) (secondField data)

/-- A buffer starts with a text. -/
def Holds (b : Buffer) (text : List UInt8) : Prop :=
  text.length ≤ b.size ∧ slice b.cells 0 text.length = text

/-- The kernel, the two ramdisks one after the other, and the command line. -/
structure BuffersRight (slotCmdline : List UInt8) (cmdlineExtra : Option (List UInt8))
    (handover : Handover) : Prop where
  kernel : (kernelBytes data).length = kernelField data ∧
    Holds handover.kernel (kernelBytes data)
  initramfsSize : handover.initramfsSize = ramdiskField data + secondField data
  initramfs : 0 < ramdiskField data + secondField data →
    ∃ b, handover.initramfs = some b ∧ Holds b (ramdiskBytes data ++ secondBytes data)
  cmdline : (cmdlineText data slotCmdline cmdlineExtra).length =
      cmdlineLen data slotCmdline cmdlineExtra ∧
    Holds handover.cmdline (cmdlineText data slotCmdline cmdlineExtra)

end Image

/-! ### A boot that gets to the jump -/

section Jump

variable (fw : Firmware) (data slotCmdline : List UInt8) (cmdlineExtra : Option (List UInt8))

def oneImage : SlotData := ⟨[⟨bootName, data⟩], slotCmdline⟩

/-- All that has to go well, and what is handed over then. -/
lemma uefiAvbBootKernel_ok_iff {handover : Handover} :
    uefiAvbBootKernel fw (oneImage data slotCmdline) cmdlineExtra = .ok handover ↔
      (HasMagic data ∧ 28 ≤ data.length ∧ SizesFit data) ∧
      (KernelInRange data ∧ ∃ kernelAddress,
        fw.allocatePages .kernel 0x3fffffff (sizeToPages (kernelField data)) =
          some kernelAddress ∧
      ∃ initramfs, loadInitramfs fw data = .ok initramfs ∧
      CmdlineEnds data ∧ ∃ cmdlineAddress, fw.allocatePages .cmdline 0xA0000
          (sizeToPages (cmdlineLen data slotCmdline cmdlineExtra)) = some cmdlineAddress ∧
      checkKernel (kernelBuffer fw data kernelAddress) = .ok () ∧
      ∃ setup, fillSetup fw (kernelBuffer fw data kernelAddress)
          (cmdlineBuffer fw data slotCmdline cmdlineExtra cmdlineAddress) initramfs = .ok setup ∧
        ⟨kernelBuffer fw data kernelAddress, initramfs.1, initramfs.2,
          cmdlineBuffer fw data slotCmdline cmdlineExtra cmdlineAddress, setup⟩ = handover) := by
  unfold uefiAvbBootKernel oneImage
  simp only [check_bind_ok_iff, true_and]
  simp only [bind_ok_iff, loadKernel_ok_iff, buildCmdline_ok_iff]
  constructor
  · rintro ⟨⟨⟩, hc, _, ⟨hk, ka, hka, rfl⟩, ini, hi, _, ⟨he, ca, hca, rfl⟩, ⟨⟩, hck, setup, hs, hr⟩
    exact ⟨(checkImage_ok_iff data).mp hc, hk, ka, hka, ini, hi, he, ca, hca, hck, setup, hs,
      Except.ok.inj hr⟩
  · rintro ⟨hc, hk, ka, hka, ini, hi, he, ca, hca, hck, setup, hs, hr⟩
    exact ⟨(), (checkImage_ok_iff data).mpr hc, _, ⟨hk, ka, hka, rfl⟩, ini, hi, _,
      ⟨he, ca, hca, rfl⟩, (), hck, setup, hs, congrArg Except.ok hr⟩

end Jump

/-! ### What was written is found -/

lemma holds_filled {b : Buffer} {l : List UInt8} (h : l.length ≤ b.size) :
    Holds (filled b l) l := ⟨h, slice_blit _ 0 l⟩

section Written

variable (fw : Firmware) {data slotCmdline : List UInt8} {cmdlineExtra : Option (List UInt8)}

lemma kernelBuffer_holds (h : Inside data (pageField data) (kernelField data)) (address : ℕ) :
    Holds (kernelBuffer fw data address) (kernelBytes data) := by
  refine holds_filled ?_
  rw [area_length h]
  exact le_pagesSize _

lemma cmdlineBuffer_holds (h : CmdlineEnds data) (address : ℕ) :
    Holds (cmdlineBuffer fw data slotCmdline cmdlineExtra address)
      (cmdlineText data slotCmdline cmdlineExtra) := by
  refine holds_filled ?_
  rw [cmdlineText_length data slotCmdline cmdlineExtra h]
  exact le_pagesSize _

/-- With at most one of the two, the start is the right place. -/
lemma initramfsBuffer_holds (hr : Inside data (ramdiskOffset data) (ramdiskField data))
    (hs : Inside data (secondOffset data) (secondField data))
    (h : ramdiskField data = 0 ∨ secondField data = 0)
    (hsize : ramdiskField data + secondField data ≤ pagesSize (initramfsSize data))
    (address : ℕ) :
    Holds (initramfsBuffer fw data address) (ramdiskBytes data ++ secondBytes data) := by
  have hrlen : (ramdiskBytes data).length = ramdiskField data := area_length hr
  have hslen : (secondBytes data).length = secondField data := area_length hs
  refine ⟨?_, ?_⟩
  · rw [List.length_append, hrlen, hslen]
    exact hsize
  · rw [initramfsBuffer_cells]
    change slice (blit (blit _ 0 (ramdiskBytes data)) 0 (secondBytes data)) 0 _ = _
    rcases h with h | h
    · have hnil : ramdiskBytes data = [] := List.eq_nil_of_length_eq_zero (hrlen.trans h)
      rw [hnil, blit_nil, List.nil_append]
      exact slice_blit _ 0 _
    · have hnil : secondBytes data = [] := List.eq_nil_of_length_eq_zero (hslen.trans h)
      rw [hnil, blit_nil, List.append_nil]
      exact slice_blit _ 0 _

/-- With both of them nothing is written to where the last byte is to be. -/
lemma initramfsBuffer_last (hr : Inside data (ramdiskOffset data) (ramdiskField data))
    (hs : Inside data (secondOffset data) (secondField data))
    (hrpos : 0 < ramdiskField data) (hspos : 0 < secondField data) (address : ℕ) :
    (initramfsBuffer fw data address).cells (ramdiskField data + secondField data - 1) =
      fw.contents .initramfs (ramdiskField data + secondField data - 1) := by
  have hrlen := area_length hr
  have hslen := area_length hs
  rw [initramfsBuffer_cells, blit_out _ (by omega), blit_out _ (by omega)]

/-- In a handover everything but the two ramdisks is right. -/
lemma right_iff (hw : WellFormed data) {handover : Handover}
    (h : uefiAvbBootKernel fw (oneImage data slotCmdline) cmdlineExtra = .ok handover) :
    BuffersRight data slotCmdline cmdlineExtra handover ↔
      handover.initramfsSize = ramdiskField data + secondField data ∧
      (0 < ramdiskField data + secondField data →
        ∃ b, handover.initramfs = some b ∧ Holds b (ramdiskBytes data ++ secondBytes data)) := by
  obtain ⟨-, -, ka, -, ini, -, he, ca, -, -, setup, -, rfl⟩ :=
    (uefiAvbBootKernel_ok_iff fw data slotCmdline cmdlineExtra).mp h
  exact ⟨fun hright => ⟨hright.initramfsSize, hright.initramfs⟩, fun hini =>
    ⟨⟨area_length hw.kernel, kernelBuffer_holds fw hw.kernel ka⟩, hini.1, hini.2,
      cmdlineText_length data slotCmdline cmdlineExtra he, cmdlineBuffer_holds fw he ca⟩⟩

/-- With at most one of the two ramdisks everything is right. -/
lemma right_of_one (hw : WellFormed data) {handover : Handover}
    (h : uefiAvbBootKernel fw (oneImage data slotCmdline) cmdlineExtra = .ok handover)
    (hone : ramdiskField data = 0 ∨ secondField data = 0) :
    BuffersRight data slotCmdline cmdlineExtra handover := by
  refine (right_iff fw hw h).mpr ?_
  have hsize : initramfsSize data = ramdiskField data + secondField data := by
    obtain ⟨-, hr, hs⟩ := fields_lt data
    exact Word.u32_of_lt (by omega)
  obtain ⟨⟨-, h28, -⟩, -, ka, -, ini, hi, -, ca, -, -, setup, -, rfl⟩ :=
    (uefiAvbBootKernel_ok_iff fw data slotCmdline cmdlineExtra).mp h
  rcases (loadInitramfs_ok_iff fw data h28).mp hi with ⟨-, -, address, -, rfl⟩ | ⟨h0, rfl⟩
  · exact ⟨hsize, fun _ => ⟨_, rfl, initramfsBuffer_holds fw hw.ramdisk hw.second hone
      (hsize ▸ le_pagesSize _) address⟩⟩
  · exact ⟨h0.symm.trans hsize, fun hpos => by omega⟩

end Written

/-! ### Both ramdisks -/

section Both

variable (fw : Firmware) {data slotCmdline : List UInt8} {cmdlineExtra : Option (List UInt8)}

/-- The same firmware with other contents of the pages for the ramdisks. -/
def withInitramfs (cells : ℕ → UInt8) : Firmware :=
  { fw with contents := fun use => if use = .initramfs then cells else fw.contents use }

/-- The boot does not depend on what these pages hold before. -/
lemma ok_withInitramfs {handover : Handover} (cells : ℕ → UInt8)
    (h : uefiAvbBootKernel fw (oneImage data slotCmdline) cmdlineExtra = .ok handover) :
    ∃ handover', uefiAvbBootKernel (withInitramfs fw cells) (oneImage data slotCmdline)
      cmdlineExtra = .ok handover' := by
  obtain ⟨hc, hk, ka, hka, ini, hi, he, ca, hca, hck, setup, hs, -⟩ :=
    (uefiAvbBootKernel_ok_iff fw data slotCmdline cmdlineExtra).mp h
  have hini : ∃ ini', loadInitramfs (withInitramfs fw cells) data = .ok ini' := by
    rcases (loadInitramfs_ok_iff fw data hc.2.1).mp hi with ⟨hpos, hin, ia, hia, -⟩ | ⟨h0, -⟩
    · exact ⟨_, (loadInitramfs_ok_iff (withInitramfs fw cells) data hc.2.1).mpr
        (.inl ⟨hpos, hin, ia, hia, rfl⟩)⟩
    · exact ⟨_, (loadInitramfs_ok_iff (withInitramfs fw cells) data hc.2.1).mpr
        (.inr ⟨h0, rfl⟩)⟩
  obtain ⟨ini', hi'⟩ := hini
  have hpage : 4096 ≤ (kernelBuffer fw data ka).size := by
    have hsafe : Safe (checkKernel (kernelBuffer fw data ka)) := hck ▸ safe_ok ()
    exact page_le_pagesSize ((safe_checkKernel (kernelBuffer_size fw data ka)).mp hsafe)
  have hgranted := (fillSetup_ok_iff fw _ _ hpage).mp ⟨setup, hs⟩
  obtain ⟨setup', hs'⟩ := (fillSetup_ok_iff (withInitramfs fw cells)
    (cmdlineBuffer fw data slotCmdline cmdlineExtra ca) ini' hpage).mpr hgranted
  exact ⟨_, (uefiAvbBootKernel_ok_iff (withInitramfs fw cells) data slotCmdline cmdlineExtra).mpr
    ⟨hc, hk, ka, hka, ini', hi', he, ca, hca, hck, setup', hs', rfl⟩⟩

/-- With both of them the end of the second one is nowhere written, so that it is not there for
some contents of the pages. -/
lemma exists_wrong (hw : WellFormed data) {handover : Handover}
    (h : uefiAvbBootKernel fw (oneImage data slotCmdline) cmdlineExtra = .ok handover)
    (hrpos : 0 < ramdiskField data) (hspos : 0 < secondField data) :
    ∃ cells handover', uefiAvbBootKernel (withInitramfs fw cells) (oneImage data slotCmdline)
        cmdlineExtra = .ok handover' ∧
      ¬ BuffersRight data slotCmdline cmdlineExtra handover' := by
  have hrlen : (ramdiskBytes data).length = ramdiskField data := area_length hw.ramdisk
  have hslen : (secondBytes data).length = secondField data := area_length hw.second
  have hlen : (ramdiskBytes data ++ secondBytes data).length =
      ramdiskField data + secondField data := by rw [List.length_append, hrlen, hslen]
  have hlast : ramdiskField data + secondField data - 1 <
      (ramdiskBytes data ++ secondBytes data).length := by omega
  -- any other byte than the last one of the two
  let cells : ℕ → UInt8 := fun _ => (ramdiskBytes data ++ secondBytes data)[
    ramdiskField data + secondField data - 1] + 1
  obtain ⟨handover', h'⟩ := ok_withInitramfs fw cells h
  refine ⟨cells, handover', h', fun hright => ?_⟩
  obtain ⟨b, hb, -, hslice⟩ := hright.initramfs (by omega)
  obtain ⟨⟨-, h28, -⟩, -, ka, -, ini, hi, -, ca, -, -, setup, -, rfl⟩ :=
    (uefiAvbBootKernel_ok_iff _ data slotCmdline cmdlineExtra).mp h'
  rcases (loadInitramfs_ok_iff _ data h28).mp hi with ⟨-, -, address, -, rfl⟩ | ⟨-, rfl⟩
  · cases hb
    have hcell := slice_eq_iff.mp hslice _ hlast
    rw [Nat.zero_add, initramfsBuffer_last _ hw.ramdisk hw.second hrpos hspos] at hcell
    exact (by simp : ∀ x : UInt8, x + 1 ≠ x) _ hcell
  · cases hb

end Both

/-! ### The buffers of a boot -/

section Buffers

variable (allocatePages : Use → ℕ → ℕ → Option ℕ) (data slotCmdline : List UInt8)
  (cmdlineExtra : Option (List UInt8))

/-- Some run gets to the jump: the checks pass and there are pages. -/
def Boots : Prop := ∃ contents handover,
  uefiAvbBootKernel ⟨allocatePages, contents⟩ (oneImage data slotCmdline) cmdlineExtra =
    .ok handover

/-- **Whatever the pages held before, the buffers of every boot of a well-formed image are right
exactly when there are not both a ramdisk and a second stage.** -/
theorem uefiAvbBootKernel_right_iff (hw : WellFormed data)
    (hboots : Boots allocatePages data slotCmdline cmdlineExtra) :
    (∀ contents handover,
      uefiAvbBootKernel ⟨allocatePages, contents⟩ (oneImage data slotCmdline) cmdlineExtra =
        .ok handover → BuffersRight data slotCmdline cmdlineExtra handover) ↔
    ramdiskField data = 0 ∨ secondField data = 0 := by
  constructor
  · intro hall
    by_contra hboth
    obtain ⟨hr, hs⟩ := not_or.mp hboth
    obtain ⟨contents, handover, h⟩ := hboots
    obtain ⟨cells, handover', h', hwrong⟩ :=
      exists_wrong _ hw h (Nat.pos_of_ne_zero hr) (Nat.pos_of_ne_zero hs)
    exact hwrong (hall _ handover' h')
  · intro hone contents handover h
    exact right_of_one _ hw h hone

end Buffers

/-! ### Two images -/

section Sample

/-- The setup header of a kernel that is accepted. -/
def sampleKernel : List UInt8 :=
  List.replicate 510 0 ++ [0x55, 0xAA, 0, 0, 0x48, 0x64, 0x72, 0x53, 0x0B, 0x02] ++
    List.replicate 44 0 ++ [1] ++ List.replicate 51 0

def sampleHeader (second : UInt8) : List UInt8 :=
  BOOT_MAGIC ++ [0x68, 2, 0, 0] ++ List.replicate 4 0 ++ [1, 0, 0, 0] ++ List.replicate 4 0 ++
    [second, 0, 0, 0] ++ List.replicate 8 0 ++ [0, 8, 0, 0] ++ List.replicate 2008 0

/-- An image with pages of 2048 bytes: a kernel, a ramdisk of 1 byte, and a second stage of at
most 1 byte. -/
def sampleImage (second : UInt8) : List UInt8 :=
  sampleHeader second ++ (sampleKernel ++ (List.replicate 1432 0 ++
    ([0xAA] ++ (List.replicate 2047 0 ++ [0xBB]))))

/-- Pages for everything. -/
def samplePages : Use → ℕ → ℕ → Option ℕ := fun _ _ _ => some 0x100000

/-- All of them were 0 before. -/
def sampleFirmware : Firmware := ⟨samplePages, fun _ _ => 0⟩

variable (second : UInt8)

lemma sampleHeader_length : (sampleHeader second).length = 2048 := by
  simp only [sampleHeader, BOOT_MAGIC, List.length_append, List.length_replicate,
    List.length_cons, List.length_nil]

lemma sampleKernel_length : sampleKernel.length = 616 := by
  simp only [sampleKernel, List.length_append, List.length_replicate, List.length_cons,
    List.length_nil]

lemma sampleImage_length : (sampleImage second).length = 6145 := by
  simp only [sampleImage, List.length_append, sampleHeader_length, sampleKernel_length,
    List.length_replicate, List.length_cons, List.length_nil]

lemma sampleImage_fields :
    kernelField (sampleImage second) = 616 ∧ ramdiskField (sampleImage second) = 1 ∧
      secondField (sampleImage second) = second.toNat ∧ pageField (sampleImage second) = 2048 :=
  ⟨rfl, rfl, rfl, rfl⟩

lemma sampleImage_offsets :
    ramdiskOffset (sampleImage second) = 4096 ∧ secondOffset (sampleImage second) = 6144 := by
  obtain ⟨hk, hr, -, hp⟩ := sampleImage_fields second
  have hro : ramdiskOffset (sampleImage second) = 4096 := by
    rw [ramdiskOffset, areaSize, hk, hp]
  refine ⟨hro, ?_⟩
  rw [secondOffset, hro, areaSize, hr, hp]

lemma sampleImage_kernel : area (sampleImage second) 2048 616 = sampleKernel := by
  rw [area, sampleImage, List.drop_left' (sampleHeader_length second),
    List.take_left' sampleKernel_length]

lemma sampleImage_second : area (sampleImage second) 6144 1 = [0xBB] := by
  have happ : sampleImage second = (sampleHeader second ++ (sampleKernel ++
      (List.replicate 1432 0 ++ ([0xAA] ++ List.replicate 2047 0)))) ++ [0xBB] := by
    simp only [sampleImage, List.append_assoc]
  rw [area, happ, List.drop_left']
  · rfl
  · simp only [List.length_append, sampleHeader_length, sampleKernel_length,
      List.length_replicate, List.length_cons, List.length_nil]

lemma sampleImage_checkKernel :
    checkKernel (kernelBuffer sampleFirmware (sampleImage second) 0x100000) = .ok () := by
  obtain ⟨hk, -, -, hp⟩ := sampleImage_fields second
  have hcells : (kernelBuffer sampleFirmware (sampleImage second) 0x100000).cells =
      blit (fun _ => 0) 0 sampleKernel := by
    rw [kernelBuffer_cells, hk, hp, sampleImage_kernel, sampleFirmware]
  have hsize : (kernelBuffer sampleFirmware (sampleImage second) 0x100000).size = 4096 := by
    rw [kernelBuffer_size, hk]
    decide
  unfold checkKernel
  simp only [read_eq, need_bind_ok_iff, check_bind_ok_iff, check_ok_iff, hcells, hsize]
  decide +kernel

variable {second}

lemma sampleImage_wellFormed (h : second.toNat ≤ 1) : WellFormed (sampleImage second) := by
  obtain ⟨hk, hr, hs, hp⟩ := sampleImage_fields second
  obtain ⟨hro, hso⟩ := sampleImage_offsets second
  have hlen := sampleImage_length second
  refine ⟨rfl, ?_, by omega, .inr (by omega), .inr (by omega), .inr (by omega), ?_⟩
  · rw [hlen]
    decide
  · exact List.mem_cons_self

lemma sampleImage_boots (h : second.toNat ≤ 1) : ∃ handover,
    uefiAvbBootKernel sampleFirmware (oneImage (sampleImage second) []) none = .ok handover := by
  obtain ⟨hk, hr, hs, hp⟩ := sampleImage_fields second
  have hlen := sampleImage_length second
  obtain ⟨hmagic, -, -, hkernel, hramdisk, hsecond, -⟩ := sampleImage_wellFormed h
  have hsize : initramfsSize (sampleImage second) = 1 + second.toNat := by
    rw [initramfsSize, hr, hs]
    exact Word.u32_of_lt (by omega)
  have hpages := le_pagesSize (1 + second.toNat)
  have h28 : 28 ≤ (sampleImage second).length := by omega
  have hin : InitramfsInRange (sampleImage second) := by
    refine ⟨by omega, by omega, hramdisk, ?_, hsecond, ?_⟩ <;> rw [hsize] <;> omega
  have hends : CmdlineEnds (sampleImage second) := by
    change 0 < _
    rw [List.length_drop, hlen]
    decide
  have hpage : 4096 ≤ (kernelBuffer sampleFirmware (sampleImage second) 0x100000).size := by
    rw [kernelBuffer_size, hk]
    decide
  have hinitramfs := (loadInitramfs_ok_iff sampleFirmware _ h28).mpr
    (.inl ⟨by omega, hin, 0x100000, rfl, rfl⟩)
  obtain ⟨setup, hsetup⟩ := (fillSetup_ok_iff sampleFirmware
    (cmdlineBuffer sampleFirmware (sampleImage second) [] none 0x100000)
    (initramfsSize (sampleImage second),
      some (initramfsBuffer sampleFirmware (sampleImage second) 0x100000)) hpage).mpr
    ⟨0x100000, rfl⟩
  have hfit : SizesFit (sampleImage second) := by
    unfold SizesFit
    omega
  exact ⟨_, (uefiAvbBootKernel_ok_iff sampleFirmware (sampleImage second) [] none).mpr
    ⟨⟨hmagic, h28, hfit⟩, ⟨by omega, hkernel⟩, 0x100000, rfl, _, hinitramfs, hends, 0x100000,
      rfl, sampleImage_checkKernel second, setup, hsetup, rfl⟩⟩

/-- A ramdisk alone is handed over as it is. -/
theorem uefiAvbBootKernel_right_ramdisk :
    Boots samplePages (sampleImage 0) [] none ∧
      ∀ contents handover,
        uefiAvbBootKernel ⟨samplePages, contents⟩ (oneImage (sampleImage 0) []) none =
          .ok handover → BuffersRight (sampleImage 0) [] none handover :=
  have hboots : Boots samplePages (sampleImage 0) [] none :=
    ⟨_, sampleImage_boots (by decide)⟩
  ⟨hboots, (uefiAvbBootKernel_right_iff samplePages (sampleImage 0) [] none
    (sampleImage_wellFormed (by decide)) hboots).mpr (.inr rfl)⟩

/-- With a second stage of 1 byte, that byte replaces the one of the ramdisk. -/
theorem uefiAvbBootKernel_second_over_ramdisk :
    WellFormed (sampleImage 1) ∧ ∃ handover,
      uefiAvbBootKernel sampleFirmware (oneImage (sampleImage 1) []) none = .ok handover ∧
        ¬ BuffersRight (sampleImage 1) [] none handover := by
  have hw : WellFormed (sampleImage 1) := sampleImage_wellFormed (by decide)
  obtain ⟨handover, h⟩ := @sampleImage_boots 1 (by decide)
  refine ⟨hw, handover, h, fun hright => ?_⟩
  obtain ⟨hk, hr, hs, hp⟩ := sampleImage_fields 1
  obtain ⟨hro, hso⟩ := sampleImage_offsets 1
  have hs' : secondField (sampleImage 1) = 1 := hs
  obtain ⟨b, hb, -, hslice⟩ := hright.initramfs (by omega)
  have hrlen : (ramdiskBytes (sampleImage 1)).length = 1 := (area_length hw.ramdisk).trans hr
  have hsecond : secondBytes (sampleImage 1) = [0xBB] := by
    rw [secondBytes, hso, hs', sampleImage_second]
  obtain ⟨⟨-, h28, -⟩, -, ka, -, ini, hi, -, ca, -, -, setup, -, rfl⟩ :=
    (uefiAvbBootKernel_ok_iff _ (sampleImage 1) [] none).mp h
  rcases (loadInitramfs_ok_iff _ _ h28).mp hi with ⟨-, -, address, -, rfl⟩ | ⟨-, rfl⟩
  · cases hb
    have hcell := slice_eq_iff.mp hslice 1 (by rw [List.length_append, hrlen, hsecond]; decide)
    have hlast := initramfsBuffer_last sampleFirmware hw.ramdisk hw.second (by omega) (by omega)
      address
    rw [hr, hs'] at hlast
    rw [Nat.zero_add, hlast, List.getElem_append_right (by omega)] at hcell
    simp only [hrlen, hsecond, Nat.sub_self, List.getElem_cons_zero] at hcell
    exact absurd hcell (by decide)
  · cases hb

end Sample

end UefiToolkit.BootBuffers
