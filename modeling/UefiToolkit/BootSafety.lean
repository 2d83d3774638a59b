import UefiToolkit.BootSteps

/-!
Which images are started from, or refused, without an access outside of the image or of the
buffers and without a division by zero.

The image is only checked for its magic and for the sum of its three sizes. Where the areas are,
the page size, the end of the command line and the size of the kernel are not looked at.
-/

namespace UefiToolkit.BootSafety

open UefiToolkit.Faults UefiToolkit.BootModel UefiToolkit.BootSteps

section Image

variable (fw : Firmware) (data slotCmdline : List UInt8) (cmdlineExtra : Option (List UInt8))

def KernelGranted : Prop := Granted fw .kernel 0x3fffffff (kernelField data)

def InitramfsGranted : Prop := Granted fw .initramfs 0x3fffffff (initramfsSize data)

def CmdlineGranted : Prop :=
  Granted fw .cmdline 0xA0000 (cmdlineLen data slotCmdline cmdlineExtra)

/-- What is used once there are pages for the kernel, as far as the steps before lead to it. -/
structure AreasInRange : Prop where
  kernel : KernelInRange data
  initramfs : 0 < initramfsSize data → InitramfsGranted fw data → InitramfsInRange data
  cmdline : (0 < initramfsSize data → InitramfsGranted fw data) → CmdlineEnds data
  setupHeader : (0 < initramfsSize data → InitramfsGranted fw data) →
    CmdlineGranted fw data slotCmdline cmdlineExtra → 0 < kernelField data

/-- The header is there, and after the two checks the areas are. -/
structure ImageInRange : Prop where
  magic : 8 ≤ data.length
  sizes : HasMagic data → 28 ≤ data.length
  areas : HasMagic data → SizesFit data → KernelGranted fw data →
    AreasInRange fw data slotCmdline cmdlineExtra

/-! ### The steps after the checks -/

/-- The command line and the handover, with a kernel in its pages. -/
lemma safe_tail {kernel : Buffer} (hkernel : kernel.size = pagesSize (kernelField data))
    (initramfs : ℕ × Option Buffer) :
    Safe (do
      let cmdline ← buildCmdline fw data slotCmdline cmdlineExtra
      checkKernel kernel
      let setup ← fillSetup fw kernel cmdline initramfs
      pure (Handover.mk kernel initramfs.1 initramfs.2 cmdline setup)) ↔
    CmdlineEnds data ∧
      (CmdlineGranted fw data slotCmdline cmdlineExtra → 0 < kernelField data) := by
  rw [safe_bind, safe_buildCmdline]
  refine and_congr_right fun hends => ⟨fun h hgranted => ?_, fun h cmdline hcmd => ?_⟩
  · obtain ⟨address, ha⟩ := hgranted
    have hs := h _ ((buildCmdline_ok_iff fw data _ _).mpr ⟨hends, address, ha, rfl⟩)
    exact (safe_checkKernel hkernel).mp (safe_bind.mp hs).1
  · obtain ⟨-, address, ha, -⟩ := (buildCmdline_ok_iff fw data _ _).mp hcmd
    have hpos := h ⟨address, ha⟩
    have hpage := page_le_pagesSize hpos
    refine safe_bind.mpr ⟨(safe_checkKernel hkernel).mpr hpos, fun _ _ => ?_⟩
    exact safe_bind.mpr ⟨safe_fillSetup fw cmdline initramfs (by omega), fun _ _ => safe_pure _⟩

/-- Everything after the pages of the kernel. -/
lemma safe_areas (h28 : 28 ≤ data.length) :
    Safe (do
      let kernel ← loadKernel fw data
      let initramfs ← loadInitramfs fw data
      let cmdline ← buildCmdline fw data slotCmdline cmdlineExtra
      checkKernel kernel
      let setup ← fillSetup fw kernel cmdline initramfs
      pure (Handover.mk kernel initramfs.1 initramfs.2 cmdline setup)) ↔
    (KernelGranted fw data → AreasInRange fw data slotCmdline cmdlineExtra) := by
  rw [safe_bind, safe_loadKernel fw data h28]
  constructor
  · rintro ⟨hkernel, hrest⟩ ⟨address, ha⟩
    have hin := hkernel ⟨address, ha⟩
    have hs := hrest _ ((loadKernel_ok_iff fw data).mpr ⟨hin, address, ha, rfl⟩)
    rw [safe_bind, safe_loadInitramfs fw data h28] at hs
    have htail : (0 < initramfsSize data → InitramfsGranted fw data) → CmdlineEnds data ∧
        (CmdlineGranted fw data slotCmdline cmdlineExtra → 0 < kernelField data) := by
      intro hgranted
      rcases Nat.eq_zero_or_pos (initramfsSize data) with h0 | hpos
      · exact (safe_tail fw data _ _ (kernelBuffer_size fw data address) _).mp
          (hs.2 _ ((loadInitramfs_ok_iff fw data h28).mpr (.inr ⟨h0, rfl⟩)))
      · obtain ⟨address', ha'⟩ := hgranted hpos
        exact (safe_tail fw data _ _ (kernelBuffer_size fw data address) _).mp
          (hs.2 _ ((loadInitramfs_ok_iff fw data h28).mpr
            (.inl ⟨hpos, hs.1 hpos ⟨address', ha'⟩, address', ha', rfl⟩)))
    exact ⟨hin, hs.1, fun hg => (htail hg).1, fun hg => (htail hg).2⟩
  · intro h
    refine ⟨fun hg => (h hg).kernel, fun kernel hk => ?_⟩
    obtain ⟨-, address, ha, rfl⟩ := (loadKernel_ok_iff fw data).mp hk
    obtain ⟨-, hini, hcmd, hsetup⟩ := h ⟨address, ha⟩
    refine safe_bind.mpr ⟨(safe_loadInitramfs fw data h28).mpr hini, fun initramfs hi => ?_⟩
    have hgranted : 0 < initramfsSize data → InitramfsGranted fw data := by
      intro hpos
      rcases (loadInitramfs_ok_iff fw data h28).mp hi with ⟨-, -, address', ha', -⟩ | ⟨h0, -⟩
      · exact ⟨address', ha'⟩
      · exact absurd h0 hpos.ne'
    exact (safe_tail fw data _ _ (kernelBuffer_size fw data address) initramfs).mpr
      ⟨hcmd hgranted, hsetup hgranted⟩

/-- The checks, and everything after them. -/
lemma safe_image :
    Safe (do
      checkImage data
      let kernel ← loadKernel fw data
      let initramfs ← loadInitramfs fw data
      let cmdline ← buildCmdline fw data slotCmdline cmdlineExtra
      checkKernel kernel
      let setup ← fillSetup fw kernel cmdline initramfs
      pure (Handover.mk kernel initramfs.1 initramfs.2 cmdline setup)) ↔
    ImageInRange fw data slotCmdline cmdlineExtra := by
  rw [safe_bind, safe_checkImage]
  constructor
  · rintro ⟨⟨h8, h28⟩, hrest⟩
    refine ⟨h8, h28, fun hm hfit => ?_⟩
    exact (safe_areas fw data _ _ (h28 hm)).mp
      (hrest () ((checkImage_ok_iff data).mpr ⟨hm, h28 hm, hfit⟩))
  · rintro ⟨h8, h28, hareas⟩
    refine ⟨⟨h8, h28⟩, fun _ hc => ?_⟩
    obtain ⟨hm, -, hfit⟩ := (checkImage_ok_iff data).mp hc
    exact (safe_areas fw data _ _ (h28 hm)).mpr (hareas hm hfit)

end Image

/-! ### Any slot -/

section Slot

variable (fw : Firmware) (slot : SlotData) (cmdlineExtra : Option (List UInt8))

/-- What is loaded for the boot partition is in range. -/
def SlotInRange : Prop :=
  ∀ boot, slot.loadedPartitions = [boot] → boot.partitionName = bootName →
    ImageInRange fw boot.data slot.cmdline cmdlineExtra

lemma safe_uefiAvbBootKernel :
    Safe (uefiAvbBootKernel fw slot cmdlineExtra) ↔ SlotInRange fw slot cmdlineExtra := by
  unfold uefiAvbBootKernel SlotInRange
  rcases slot.loadedPartitions with _ | ⟨boot, _ | ⟨other, rest⟩⟩
  · exact ⟨fun _ _ h => (by cases h), fun _ => safe_fail _⟩
  · simp only [safe_check_bind, safe_image]
    exact ⟨fun h b hb => (by cases hb; exact h), fun h => h boot rfl⟩
  · exact ⟨fun _ _ h => (by cases h), fun _ => safe_fail _⟩

/-- **A boot ends with an error, or gets to the jump with every access in range, exactly when the
areas, the end of the command line and the size of the kernel are what is nowhere checked.** -/
theorem uefiAvbBootKernel_inRange_iff :
    ((∃ e, uefiAvbBootKernel fw slot cmdlineExtra = fail e) ∨
      ∃ handover, uefiAvbBootKernel fw slot cmdlineExtra = .ok handover) ↔
    SlotInRange fw slot cmdlineExtra := by
  rw [← safe_uefiAvbBootKernel]
  rcases uefiAvbBootKernel fw slot cmdlineExtra with (_ | e) | handover
  · exact ⟨fun h => (by rcases h with ⟨_, h⟩ | ⟨_, h⟩ <;> cases h), fun h => absurd rfl h⟩
  · exact ⟨fun _ => safe_fail e, fun _ => .inl ⟨e, rfl⟩⟩
  · exact ⟨fun _ => safe_ok handover, fun _ => .inr ⟨handover, rfl⟩⟩

/-- A firmware with pages for everything. -/
def roomyFirmware : Firmware := ⟨fun _ _ _ => some 0x100000, fun _ _ => 0⟩

/-- The header of an image with a page size of 0: 8 bytes of a kernel, and 1 byte of a ramdisk. -/
def noPageImage : List UInt8 :=
  BOOT_MAGIC ++ [8, 0, 0, 0] ++ List.replicate 4 0 ++ [1, 0, 0, 0] ++ List.replicate 44 0

/-- The size of the kernel is rounded up to whole pages of 0 bytes: a division by zero. -/
theorem uefiAvbBootKernel_divides_by_zero :
    ¬ ((∃ e, uefiAvbBootKernel roomyFirmware ⟨[⟨bootName, noPageImage⟩], []⟩ none = fail e) ∨
      ∃ handover,
        uefiAvbBootKernel roomyFirmware ⟨[⟨bootName, noPageImage⟩], []⟩ none = .ok handover) := by
  have hrun : uefiAvbBootKernel roomyFirmware ⟨[⟨bootName, noPageImage⟩], []⟩ none = fault := rfl
  rw [hrun]
  rintro (⟨_, h⟩ | ⟨_, h⟩) <;> cases h

end Slot

end UefiToolkit.BootSafety
