import UefiToolkit.FlashTail

/-!
The `FlashTool` application: a file of the size of the flash is written over all of it.

The status of the update goes to the console; the application reports success in any case.
-/

namespace UefiToolkit.FlashTool

open UefiToolkit.Word UefiToolkit.Loop UefiToolkit.Mem UefiToolkit.FlashModel
open UefiToolkit.FlashWrite UefiToolkit.FlashBlocks UefiToolkit.FlashTail

variable {δ : Type}

/-! ### The application -/

/-- What the shell and the pool answer about the source file. -/
structure Source where
  opened : Status
  sized : Status × ℕ
  allocated : Bool
  /-- The memory from the allocated address on. -/
  heap : ℕ → UInt8
  /-- The bytes that were read. -/
  read : Status × List UInt8

/-- The memory from `Buffer` on, once the file was read into it. -/
def Source.buffer (src : Source) : ℕ → UInt8 :=
  blit (blit src.heap 0 (List.replicate src.sized.2 0)) 0 src.read.2

def shellAppMain (c : Config) (p : Platform δ) (src : Source) (fuel : ℕ) (s : St δ) :
    Option (Status × St δ) :=
  if efiError src.opened then some (src.opened, s)
  else if efiError src.sized.1 then some (src.sized.1, s)
  else if !src.allocated then some (EFI_OUT_OF_RESOURCES, s)
  else if efiError src.read.1 then some (src.read.1, s)
  -- `SourceFileSize` is the number of bytes read by now
  else if src.read.2.length ≠ c.size then some (EFI_BAD_BUFFER_SIZE, s)
  else
    let startAddress := 0
    -- the status is printed, and lost
    (performFlashWrite c p src.buffer fuel startAddress .relative c.size s).map fun r =>
      (EFI_SUCCESS, r.2)

/-! ### What it is for -/

/-- The file is there, can be read, and has the size of the flash. -/
structure Source.Loads (src : Source) (c : Config) : Prop where
  opened : efiError src.opened = false
  sized : efiError src.sized.1 = false
  allocated : src.allocated = true
  read : efiError src.read.1 = false
  size : src.read.2.length = c.size

/-- None of `n` blocks from block `k` on fails to be erased, programmed or verified. -/
def Served (p : Platform δ) (buffer : ℕ → UInt8) :
    ℕ → ℕ → ℕ → δ → (ℕ → UInt8) → Prop
  | 0, _, _, _, _ => True
  | n + 1, k, start, d, f =>
    efiError (settle p buffer k start d f).status = false ∧
      Served p buffer n (k + 1) (start + BLOCK_SIZE) (settle p buffer k start d f).dev
        (settle p buffer k start d f).flash

/-- The tool reports success only with all of the file in flash, and an error if a block
failed. -/
def Honest (c : Config) (p : Platform δ) (src : Source) (s : St δ)
    (run : Option (Status × St δ)) : Prop :=
  ∃ status s', run = some (status, s') ∧
    (status = EFI_SUCCESS → slice s'.flash 0 c.size = src.read.2) ∧
    (src.Loads c → ¬ Served p src.buffer (c.size / BLOCK_SIZE) 0 0 s.dev s.flash →
      efiError status = true)

/-! ### What it does -/

lemma served_iff (p : Platform δ) (buffer : ℕ → UInt8) (n k start : ℕ) (d : δ)
    (f : ℕ → UInt8) : Served p buffer n k start d f ↔
      efiError (settleAll p buffer n k start d f).status = false := by
  induction n generalizing k start d f with
  | zero => exact iff_of_true trivial rfl
  | succ n ih =>
    rw [Served, settleAll]
    by_cases he : efiError (settle p buffer k start d f).status = true
    · rw [if_pos he, he]
      exact iff_of_false (fun h => Bool.noConfusion h.1) fun h => Bool.noConfusion h
    · rw [if_neg he, ih]
      exact and_iff_right (Bool.eq_false_iff.mpr he)

lemma Source.slice_buffer (src : Source) :
    slice src.buffer 0 src.read.2.length = src.read.2 := slice_blit _ _ _

/-- Without the file the flash is left alone, and an error reported. -/
lemma shellAppMain_not_loads {c : Config} {src : Source} (h : ¬ src.Loads c) (p : Platform δ)
    (fuel : ℕ) (s : St δ) :
    ∃ status, shellAppMain c p src fuel s = some (status, s) ∧ efiError status = true := by
  unfold shellAppMain
  by_cases hopened : efiError src.opened = true
  · exact ⟨_, if_pos hopened, hopened⟩
  rw [if_neg hopened]
  by_cases hsized : efiError src.sized.1 = true
  · exact ⟨_, if_pos hsized, hsized⟩
  rw [if_neg hsized]
  cases hallocated : src.allocated with
  | false => exact ⟨_, rfl, efiError_maxBit 9⟩
  | true =>
    rw [if_neg (by decide)]
    by_cases hread : efiError src.read.1 = true
    · exact ⟨_, if_pos hread, hread⟩
    rw [if_neg hread]
    have hsize : src.read.2.length ≠ c.size := fun hsize =>
      h ⟨by simpa using hopened, by simpa using hsized, hallocated, by simpa using hread, hsize⟩
    exact ⟨_, if_pos hsize, efiError_maxBit 4⟩

lemma shellAppMain_loads {c : Config} (hbase : c.base < 2 ^ 32) (hsize : c.size < 2 ^ 32)
    {src : Source} (h : src.Loads c) (p : Platform δ) {fuel : ℕ} (hf : 0 < fuel) (s : St δ) :
    ∃ s', shellAppMain c p src fuel s = some (EFI_SUCCESS, s') ∧
      Shows s' (settleAll p src.buffer (c.size / BLOCK_SIZE) 0 0 s.dev s.flash) := by
  have harea : Area c 0 .relative c.size 0 :=
    ⟨hbase, hsize, Nat.zero_add _, by rw [Nat.mul_zero, Nat.zero_add]⟩
  obtain ⟨s', hrun, hshows⟩ := performFlashWriteWithProgress_eq p src.buffer harea false 0 0 hf s
  refine ⟨s', ?_, hshows⟩
  unfold shellAppMain performFlashWrite
  rw [h.opened, h.sized, h.allocated, h.read, h.size]
  dsimp only
  rw [hrun]
  simp

/-- **The exit status.** For a file that can be loaded the tool is honest exactly if no block fails,
and what is left behind the last whole block is in flash before; for another it always is. -/
theorem shellAppMain_honest_iff (c : Config) (hbase : c.base < 2 ^ 32) (hsize : c.size < 2 ^ 32)
    (p : Platform δ) (hp : SectorOnly p) (src : Source) (fuel : ℕ) (hf : 0 < fuel) (s : St δ) :
    Honest c p src s (shellAppMain c p src fuel s) ↔
      (src.Loads c → Served p src.buffer (c.size / BLOCK_SIZE) 0 0 s.dev s.flash ∧
        TailEq src.buffer 0 c.size s.flash) := by
  by_cases hload : src.Loads c
  · obtain ⟨s', hrun, hflash, -⟩ := shellAppMain_loads hbase hsize hload p hf s
    have hwhole := settleAll_whole_iff hp src.buffer
      (show BLOCK_SIZE * 0 + c.size ≤ 2 ^ 32 by omega) s.dev s.flash
    have hfile : slice src.buffer 0 c.size = src.read.2 := by
      rw [← hload.size]
      exact src.slice_buffer
    rw [Nat.mul_zero, ← hflash, hfile] at hwhole
    have hsuccess : Served p src.buffer (c.size / BLOCK_SIZE) 0 0 s.dev s.flash →
        (settleAll p src.buffer (c.size / BLOCK_SIZE) 0 0 s.dev s.flash).status = EFI_SUCCESS := by
      intro hserved
      have hnot := (served_iff p src.buffer _ 0 0 s.dev s.flash).mp hserved
      obtain ⟨-, hcases⟩ := settleAll_spec hp src.buffer (n := c.size / BLOCK_SIZE) (k := 0) 0
        (by have := blocks_le c.size; rw [Nat.zero_add]; omega) s.dev s.flash
      rcases hcases with ⟨hst, -⟩ | he
      · exact hst
      · rw [hnot] at he
        cases he
    rw [hrun]
    constructor
    · rintro ⟨status, s₁, heq, hall, herr⟩ -
      injection heq with heq
      obtain ⟨rfl, rfl⟩ := Prod.mk.inj heq
      have hserved : Served p src.buffer (c.size / BLOCK_SIZE) 0 0 s.dev s.flash := by
        by_contra hnot
        exact not_efiError_success (herr hload hnot)
      exact ⟨hserved, (hwhole (hsuccess hserved)).mp (hall rfl)⟩
    · intro hcond
      obtain ⟨hserved, htail⟩ := hcond hload
      exact ⟨_, s', rfl, fun _ => (hwhole (hsuccess hserved)).mpr htail,
        fun _ hnot => absurd hserved hnot⟩
  · refine iff_of_true ?_ fun h => absurd h hload
    obtain ⟨status, hrun, herr⟩ := shellAppMain_not_loads hload p fuel s
    exact ⟨status, s, hrun, fun hst => absurd hst (efiError_ne_success herr),
      fun h => absurd h hload⟩

/-- A file of one block. -/
def oneBlock : Source :=
  ⟨EFI_SUCCESS, (EFI_SUCCESS, BLOCK_SIZE), true, fun _ => 7,
    (EFI_SUCCESS, List.replicate BLOCK_SIZE 0x41)⟩

lemma oneBlock_loads : oneBlock.Loads ⟨0xFFFFF000, BLOCK_SIZE⟩ :=
  ⟨rfl, rfl, rfl, rfl, List.length_replicate⟩

theorem shellAppMain_honest_iff_good : Honest ⟨0xFFFFF000, BLOCK_SIZE⟩ goodDevice oneBlock
    ⟨(), fun _ => 0, 4, []⟩
    (shellAppMain ⟨0xFFFFF000, BLOCK_SIZE⟩ goodDevice oneBlock 1 ⟨(), fun _ => 0, 4, []⟩) := by
  refine (shellAppMain_honest_iff ⟨0xFFFFF000, BLOCK_SIZE⟩ (by decide) (by decide) goodDevice
    goodDevice_sectorOnly oneBlock 1 (by decide) ⟨(), fun _ => 0, 4, []⟩).mpr fun _ => ⟨?_, ?_⟩
  · rw [served_iff, settleAll_works goodDevice_works _ 0 (by decide)]
    rfl
  · have hmod : BLOCK_SIZE % BLOCK_SIZE = 0 := by decide
    unfold TailEq
    dsimp only
    rw [hmod, slice_zero, slice_zero]

/-- A device on which every cycle fails. -/
def deadDevice : Platform Unit where
  execute _ f _ := (EFI_DEVICE_ERROR, f, ())
  allocatePool _ _ := (true, ())

lemma deadDevice_settle (buffer : ℕ → UInt8) (k start : ℕ) (d : Unit) (f : ℕ → UInt8) :
    (settle deadDevice buffer k start d f).flash = f := by
  unfold settle program
  dsimp only
  split_ifs <;> rfl

lemma deadDevice_settleAll (buffer : ℕ → UInt8) (n k start : ℕ) (d : Unit) (f : ℕ → UInt8) :
    (settleAll deadDevice buffer n k start d f).flash = f := by
  induction n generalizing k start d with
  | zero => rfl
  | succ n ih =>
    have hsettle := deadDevice_settle buffer k start d f
    rw [settleAll]
    split_ifs
    · exact hsettle
    · rw [hsettle]
      exact ih (k + 1) (start + BLOCK_SIZE) _

/-- Nothing is erased or written, and the tool reports success. -/
theorem shellAppMain_dead_device : ¬ Honest ⟨0xFFFFF000, BLOCK_SIZE⟩ deadDevice oneBlock
    ⟨(), fun _ => 0, 4, []⟩
    (shellAppMain ⟨0xFFFFF000, BLOCK_SIZE⟩ deadDevice oneBlock 1 ⟨(), fun _ => 0, 4, []⟩) := by
  rintro ⟨status, s₁, heq, hall, -⟩
  obtain ⟨s', hrun, hflash, -⟩ := shellAppMain_loads (by decide) (by decide) oneBlock_loads
    deadDevice Nat.one_pos ⟨(), fun _ => 0, 4, []⟩
  rw [hrun] at heq
  injection heq with heq
  obtain ⟨rfl, rfl⟩ := Prod.mk.inj heq
  have hfile := hall rfl
  rw [hflash, deadDevice_settleAll] at hfile
  have hzero : (0 : UInt8) ∈ slice (fun _ => (0 : UInt8)) 0 BLOCK_SIZE :=
    List.mem_map.mpr ⟨0, List.mem_range.mpr (by decide), rfl⟩
  dsimp only at hfile
  rw [hfile] at hzero
  exact absurd (List.eq_of_mem_replicate hzero) (by decide)

end UefiToolkit.FlashTool
