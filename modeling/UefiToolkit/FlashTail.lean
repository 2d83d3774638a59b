import UefiToolkit.FlashBlocks

/-!
Updates of any length.

The blocks are counted by dividing the length, so that what is left behind the last whole block
is neither compared nor written.
-/

namespace UefiToolkit.FlashTail

open UefiToolkit.Word UefiToolkit.Loop UefiToolkit.Mem UefiToolkit.FlashModel
open UefiToolkit.FlashWrite UefiToolkit.FlashBlocks

variable {δ : Type} {c : Config} {p : Platform δ}

/-! ### Devices that work -/

/-- Memory is there, no cycle fails, and what is programmed within a sector can be read. -/
structure Works (p : Platform δ) : Prop where
  alloc : AllocOk p
  status : ∀ d f q, (p.execute d f q).1 = EFI_SUCCESS
  programs : ∀ d f q, q.opcodeIndex = SPI_OPCODE_WRITE_INDEX →
    q.address % BLOCK_SIZE + q.data.length ≤ BLOCK_SIZE →
    slice (p.execute d f q).2.1 q.address q.data.length = q.data

lemma verify_works (hw : Works p) {buffer : ℕ → UInt8} {k start : ℕ} {f : ℕ → UInt8}
    (hb : BlockEq buffer k start f) (d : δ) :
    (verify p buffer k start d f).status = EFI_SUCCESS := by
  unfold verify
  dsimp only
  rw [hw.alloc d BLOCK_SIZE, if_neg (by decide), if_pos hb]

lemma settle_works (hw : Works p) (buffer : ℕ → UInt8) {k : ℕ} (start : ℕ)
    (hk : BLOCK_SIZE * k < 2 ^ 32) (d : δ) (f : ℕ → UInt8) :
    (settle p buffer k start d f).status = EFI_SUCCESS := by
  have hask : ∀ (q : SpiCycle) (d : δ) (f : ℕ → UInt8), ¬ efiError (ask p q d f).status = true :=
    fun q d f he => efiError_ne_success he (hw.status d f q)
  have hprogram : ∀ (d : δ) (f : ℕ → UInt8),
      BlockEq buffer k start (ask p (programCycle buffer k start) d f).flash := by
    intro d f
    have haddr : (programCycle buffer k start).address = BLOCK_SIZE * k := u32_of_lt hk
    have hdata : (programCycle buffer k start).data.length = BLOCK_SIZE := by
      simp only [programCycle, slice_length]
    have hfit : (programCycle buffer k start).address % BLOCK_SIZE +
        (programCycle buffer k start).data.length ≤ BLOCK_SIZE := by
      rw [haddr, hdata, Nat.mul_mod_right, Nat.zero_add]
    have hread := hw.programs d f (programCycle buffer k start) rfl hfit
    have hflash : (ask p (programCycle buffer k start) d f).flash =
        (p.execute d f (programCycle buffer k start)).2.1 := rfl
    have hbytes : (programCycle buffer k start).data = slice buffer start BLOCK_SIZE := by
      simp only [programCycle]
    rw [haddr, hdata, hbytes, ← hflash] at hread
    unfold BlockEq
    exact hread
  unfold settle program
  dsimp only
  rw [if_neg (hask _ _ _), if_neg (hask _ _ _)]
  split_ifs
  · rfl
  · exact verify_works hw (hprogram _ _) _

/-- On a device that works the update succeeds. -/
lemma settleAll_works (hw : Works p) (buffer : ℕ → UInt8) {n k : ℕ} (start : ℕ)
    (hk : BLOCK_SIZE * (k + n) ≤ 2 ^ 32) (d : δ) (f : ℕ → UInt8) :
    (settleAll p buffer n k start d f).status = EFI_SUCCESS := by
  induction n generalizing k start d f with
  | zero => rfl
  | succ n ih =>
    have hB : BLOCK_SIZE = 4096 := rfl
    have hmul : BLOCK_SIZE * (k + (n + 1)) = BLOCK_SIZE * k + BLOCK_SIZE * n + BLOCK_SIZE := by
      ring
    have hmul' : BLOCK_SIZE * (k + 1 + n) = BLOCK_SIZE * (k + (n + 1)) := by ring
    have hst := settle_works hw buffer start (by omega : BLOCK_SIZE * k < 2 ^ 32) d f
    rw [settleAll, hst, if_neg not_efiError_success]
    exact ih (start + BLOCK_SIZE) (by omega) _ _

lemma goodDevice_works : Works goodDevice := by
  refine ⟨fun _ _ => rfl, fun _ _ _ => rfl, fun _ f q hq hlen => slice_eq_iff.mpr fun i hi => ?_⟩
  have hB : BLOCK_SIZE = 4096 := rfl
  have hsector : (q.address + i) / BLOCK_SIZE = SpiCycle.sector q := by
    have hdiv : SpiCycle.sector q = q.address / BLOCK_SIZE := rfl
    rw [hdiv]
    rw [hB] at hlen ⊢
    omega
  have hne : ¬ q.opcodeIndex = SPI_OPCODE_ERASE_INDEX := by
    rw [hq]
    decide
  simp only [goodDevice, if_neg hne, if_pos hsector]
  exact blit_in f q.address hi

/-! ### The tail -/

/-- What is behind the last whole block is in flash already. -/
def TailEq (buffer : ℕ → UInt8) (k length : ℕ) (flash : ℕ → UInt8) : Prop :=
  slice flash (BLOCK_SIZE * k + BLOCK_SIZE * (length / BLOCK_SIZE)) (length % BLOCK_SIZE) =
    slice buffer (BLOCK_SIZE * (length / BLOCK_SIZE)) (length % BLOCK_SIZE)

lemma slice_whole (m : ℕ → UInt8) (a length : ℕ) : slice m a length =
    slice m a (BLOCK_SIZE * (length / BLOCK_SIZE)) ++
      slice m (a + BLOCK_SIZE * (length / BLOCK_SIZE)) (length % BLOCK_SIZE) := by
  rw [← slice_add, Nat.div_add_mod]

/-- After a successful update all of the buffer is in flash exactly if the tail was before. -/
lemma settleAll_whole_iff (hp : SectorOnly p) (buffer : ℕ → UInt8) {k length : ℕ}
    (hk : BLOCK_SIZE * k + length ≤ 2 ^ 32) (d : δ) (f : ℕ → UInt8)
    (hst : (settleAll p buffer (length / BLOCK_SIZE) k 0 d f).status = EFI_SUCCESS) :
    slice (settleAll p buffer (length / BLOCK_SIZE) k 0 d f).flash (BLOCK_SIZE * k) length =
        slice buffer 0 length ↔ TailEq buffer k length f := by
  have hle := blocks_le length
  obtain ⟨hconf, hblocks⟩ := settleAll_spec hp buffer (n := length / BLOCK_SIZE) (k := k) 0
    (by rw [Nat.mul_add]; omega) d f
  have hdone := (hblocks.resolve_right fun he => efiError_ne_success he hst).2
  have hhead := slice_of_blocks (a := 0) hdone
  have htail : slice (settleAll p buffer (length / BLOCK_SIZE) k 0 d f).flash
      (BLOCK_SIZE * k + BLOCK_SIZE * (length / BLOCK_SIZE)) (length % BLOCK_SIZE) =
      slice f (BLOCK_SIZE * k + BLOCK_SIZE * (length / BLOCK_SIZE)) (length % BLOCK_SIZE) :=
    hconf.slice (Or.inr (by rw [Nat.mul_add]))
  rw [slice_whole _ (BLOCK_SIZE * k), slice_whole buffer, hhead, htail, List.append_cancel_left_eq,
    Nat.zero_add]
  rfl

/-! ### The update -/

/-- The run of an update ends, reports success only with all of the buffer in flash, and takes
nothing from behind the buffer's end: neither its status nor what the flash and the device, which
may note all it is asked for, are left with. -/
structure Programs (buffer : ℕ → UInt8) (k length : ℕ)
    (run : (ℕ → UInt8) → Option (Status × St δ)) : Prop where
  success : ∃ status s', run buffer = some (status, s') ∧
    (status = EFI_SUCCESS → slice s'.flash (BLOCK_SIZE * k) length = slice buffer 0 length)
  apart : ∀ other, slice other 0 length = slice buffer 0 length →
    ∃ status s₁ s₂, run buffer = some (status, s₁) ∧ run other = some (status, s₂) ∧
      s₂.flash = s₁.flash ∧ s₂.dev = s₁.dev

/-- Of the buffer only the blocks are looked at. -/
lemma settleAll_congr (p : Platform δ) {buffer other : ℕ → UInt8} {n k start : ℕ}
    (h : slice other start (BLOCK_SIZE * n) = slice buffer start (BLOCK_SIZE * n)) :
    settleAll p other n k start = settleAll p buffer n k start := by
  induction n generalizing k start with
  | zero => rfl
  | succ n ih =>
    have hsplit : BLOCK_SIZE * (n + 1) = BLOCK_SIZE + BLOCK_SIZE * n := by ring
    rw [hsplit, slice_add, slice_add] at h
    obtain ⟨hfirst, hrest⟩ := List.append_inj h (by rw [slice_length, slice_length])
    funext d f
    simp only [settleAll, settle_congr p k hfirst, ih hrest]

lemma performFlashWriteWithProgress_programs (hp : SectorOnly p) (buffer : ℕ → UInt8)
    {flashAddress length k : ℕ} {flashAddressType : AddressType}
    (h : Area c flashAddress flashAddressType length k) (present : Bool)
    (startPercentage endPercentage : ℕ) {fuel : ℕ} (hf : 0 < fuel) (s : St δ) :
    Programs buffer k length (fun b => performFlashWriteWithProgress c p b fuel flashAddress
      flashAddressType length present startPercentage endPercentage s) ↔
      ((settleAll p buffer (length / BLOCK_SIZE) k 0 s.dev s.flash).status = EFI_SUCCESS →
        TailEq buffer k length s.flash) := by
  have hk : BLOCK_SIZE * k + length ≤ 2 ^ 32 := h.inside.trans h.size_lt.le
  obtain ⟨s', hrun, hflash, hdev⟩ := performFlashWriteWithProgress_eq p buffer h present
    startPercentage endPercentage hf s
  constructor
  · intro hprog hst
    obtain ⟨status, s₁, hrun₁, hall⟩ := hprog.success
    rw [hrun] at hrun₁
    injection hrun₁ with hrun₁
    obtain ⟨rfl, rfl⟩ := Prod.mk.inj hrun₁
    rw [← settleAll_whole_iff hp buffer hk s.dev s.flash hst, ← hflash]
    exact hall hst
  · intro htail
    refine ⟨⟨_, s', hrun, fun hst => ?_⟩, fun other hother => ?_⟩
    · rw [hflash]
      exact (settleAll_whole_iff hp buffer hk s.dev s.flash hst).mpr (htail hst)
    · have hblocks : slice other 0 (BLOCK_SIZE * (length / BLOCK_SIZE)) =
          slice buffer 0 (BLOCK_SIZE * (length / BLOCK_SIZE)) := by
        rw [← slice_take other 0 (blocks_le length), hother, slice_take _ _ (blocks_le length)]
      obtain ⟨s₂, hrun₂, hflash₂, hdev₂⟩ := performFlashWriteWithProgress_eq p other h present
        startPercentage endPercentage hf s
      rw [settleAll_congr p hblocks] at hrun₂ hflash₂ hdev₂
      exact ⟨_, s', s₂, hrun, hrun₂, hflash₂.trans hflash.symm, hdev₂.trans hdev.symm⟩

/-- **Updates of any length.** Whatever the device does within the sectors it is asked for, an
update reports success only with all of the buffer in flash exactly if what is left of the buffer
behind its last whole block is in flash before. -/
theorem performFlashWrite_tail_iff (c : Config) (buffer flash : ℕ → UInt8)
    (flashAddress length k : ℕ) (flashAddressType : AddressType)
    (h : Area c flashAddress flashAddressType length k) :
    (∀ (δ : Type) (p : Platform δ), SectorOnly p → ∀ (fuel : ℕ) (s : St δ), 0 < fuel →
      s.flash = flash →
      Programs buffer k length (fun b => performFlashWrite c p b fuel flashAddress
        flashAddressType length s) ∧
      ∀ (present : Bool) (startPercentage endPercentage : ℕ),
        Programs buffer k length (fun b => performFlashWriteWithProgress c p b fuel flashAddress
          flashAddressType length present startPercentage endPercentage s)) ↔
      TailEq buffer k length flash := by
  constructor
  · intro hall
    obtain ⟨hplain, -⟩ := hall Unit goodDevice goodDevice_sectorOnly 1 ⟨(), flash, 0, []⟩
      (by decide) rfl
    have hk : BLOCK_SIZE * k + length ≤ 2 ^ 32 := h.inside.trans h.size_lt.le
    have hle := blocks_le length
    refine (performFlashWriteWithProgress_programs goodDevice_sectorOnly buffer h false 0 0
      Nat.one_pos ⟨(), flash, 0, []⟩).mp hplain ?_
    exact settleAll_works goodDevice_works buffer 0 (by rw [Nat.mul_add]; omega) _ _
  · rintro htail δ p hp fuel s hf rfl
    have hprog := fun present sp ep => (performFlashWriteWithProgress_programs hp buffer h present
      sp ep hf s).mpr fun _ => htail
    exact ⟨hprog false 0 0, hprog⟩

/-- Three whole blocks. -/
theorem performFlashWrite_tail_iff_blocks :
    Programs (fun i => UInt8.ofNat i) 2 0x3000 (fun b => performFlashWrite ⟨0xFF000000, 0x1000000⟩
      goodDevice b 1 0x2000 .relative 0x3000 ⟨(), fun _ => 0, 4, []⟩) := by
  have harea : Area ⟨0xFF000000, 0x1000000⟩ 0x2000 .relative 0x3000 2 :=
    ⟨by decide, by decide, by decide, by decide⟩
  have htail : TailEq (fun i => UInt8.ofNat i) 2 0x3000 (fun _ => 0) := by
    have hmod : 0x3000 % BLOCK_SIZE = 0 := by decide
    unfold TailEq
    rw [hmod, slice_zero, slice_zero]
  exact ((performFlashWrite_tail_iff _ _ _ _ _ _ _ harea).mpr htail Unit goodDevice
    goodDevice_sectorOnly 1 ⟨(), fun _ => 0, 4, []⟩ (by decide) rfl).1

/-- Of 4097 bytes the last one is not written, and the update succeeds. -/
theorem performFlashWrite_odd_byte :
    ¬ Programs (fun _ => 1) 0 0x1001 (fun b => performFlashWrite ⟨0xFF000000, 0x1000000⟩
      goodDevice b 1 0 .relative 0x1001 ⟨(), fun _ => 0, 4, []⟩) := by
  intro hprog
  have harea : Area ⟨0xFF000000, 0x1000000⟩ 0 .relative 0x1001 0 :=
    ⟨by decide, by decide, by decide, by decide⟩
  have htail := (performFlashWriteWithProgress_programs goodDevice_sectorOnly _ harea false 0 0
    Nat.one_pos ⟨(), fun _ => 0, 4, []⟩).mp hprog
    (settleAll_works goodDevice_works _ 0 (by decide) _ _)
  have hmod : 0x1001 % BLOCK_SIZE = 1 := by decide
  unfold TailEq at htail
  rw [hmod] at htail
  have hcell := slice_inj htail (i := 0) (by decide)
  exact absurd hcell (by decide)

end UefiToolkit.FlashTail
