import UefiToolkit.FlashWrite

/-!
A flash update as a function of the device and the flash alone, block by block.

For one block the device is asked to erase and to program it, unless it holds the data already;
the comparison needs memory, and counts as a failure without.
-/

namespace UefiToolkit.FlashBlocks

open UefiToolkit.Word UefiToolkit.Loop UefiToolkit.Mem UefiToolkit.FlashModel
open UefiToolkit.FlashWrite

variable {δ : Type} {c : Config} {p : Platform δ}

/-- A status, and what has become of the device and the flash. -/
structure Result (δ : Type) where
  status : Status
  flash : ℕ → UInt8
  dev : δ

/-- Hold block `k` against the buffer from `start` on. -/
def verify (p : Platform δ) (buffer : ℕ → UInt8) (k start : ℕ) (d : δ) (f : ℕ → UInt8) :
    Result δ :=
  let a := p.allocatePool d BLOCK_SIZE
  ⟨if !a.1 then EFI_OUT_OF_RESOURCES
    else if BlockEq buffer k start f then EFI_SUCCESS else EFI_VOLUME_CORRUPTED, f, a.2⟩

/-- Ask the device for one cycle. -/
def ask (p : Platform δ) (q : SpiCycle) (d : δ) (f : ℕ → UInt8) : Result δ :=
  let r := p.execute d f q
  ⟨r.1, r.2.1, r.2.2⟩

/-- Program block `k` with the buffer from `start` on, and read it back. -/
def program (p : Platform δ) (buffer : ℕ → UInt8) (k start : ℕ) (d : δ) (f : ℕ → UInt8) :
    Result δ :=
  let w := ask p (programCycle buffer k start) d f
  if efiError w.status then w else verify p buffer k start w.dev w.flash

/-- Bring block `k` to hold the buffer from `start` on. -/
def settle (p : Platform δ) (buffer : ℕ → UInt8) (k start : ℕ) (d : δ) (f : ℕ → UInt8) :
    Result δ :=
  let v := verify p buffer k start d f
  if !efiError v.status then ⟨EFI_SUCCESS, v.flash, v.dev⟩
  else
    let e := ask p (eraseCycle k) v.dev v.flash
    if efiError e.status then e else program p buffer k start e.dev e.flash

/-- Bring `n` blocks from block `k` on to hold the buffer, as far as the device lets one. -/
def settleAll (p : Platform δ) (buffer : ℕ → UInt8) :
    ℕ → ℕ → ℕ → δ → (ℕ → UInt8) → Result δ
  | 0, _, _, d, f => ⟨EFI_SUCCESS, f, d⟩
  | n + 1, k, start, d, f =>
    let r := settle p buffer k start d f
    if efiError r.status then r
    else settleAll p buffer n (k + 1) (start + BLOCK_SIZE) r.dev r.flash

/-! ### Blocks -/

lemma verify_cases (p : Platform δ) (buffer : ℕ → UInt8) (k start : ℕ) (d : δ) (f : ℕ → UInt8) :
    ((verify p buffer k start d f).status = EFI_SUCCESS ∧ BlockEq buffer k start f) ∨
      efiError (verify p buffer k start d f).status = true := by
  unfold verify
  dsimp only
  split_ifs with ha hb
  · exact Or.inr (efiError_maxBit 9)
  · exact Or.inl ⟨rfl, hb⟩
  · exact Or.inr (efiError_maxBit 10)

lemma program_cases (p : Platform δ) (buffer : ℕ → UInt8) (k start : ℕ) (d : δ)
    (f : ℕ → UInt8) :
    ((program p buffer k start d f).status = EFI_SUCCESS ∧
      BlockEq buffer k start (program p buffer k start d f).flash) ∨
      efiError (program p buffer k start d f).status = true := by
  unfold program
  dsimp only
  split_ifs with hw
  · exact Or.inr hw
  · exact verify_cases p buffer k start _ _

/-- A block holds the data, or there is an error. -/
lemma settle_cases (p : Platform δ) (buffer : ℕ → UInt8) (k start : ℕ) (d : δ)
    (f : ℕ → UInt8) :
    ((settle p buffer k start d f).status = EFI_SUCCESS ∧
      BlockEq buffer k start (settle p buffer k start d f).flash) ∨
      efiError (settle p buffer k start d f).status = true := by
  unfold settle
  dsimp only
  by_cases hv : (!efiError (verify p buffer k start d f).status) = true
  · rw [if_pos hv]
    refine Or.inl ⟨rfl, ((verify_cases p buffer k start d f).resolve_right ?_).2⟩
    simpa using hv
  · rw [if_neg hv]
    split_ifs with he
    · exact Or.inr he
    · exact program_cases p buffer k start _ _

lemma settle_confined (hp : SectorOnly p) (buffer : ℕ → UInt8) {k : ℕ} (start : ℕ)
    (hk : BLOCK_SIZE * k < 2 ^ 32) (d : δ) (f : ℕ → UInt8) :
    Confined (BLOCK_SIZE * k) (BLOCK_SIZE * (k + 1)) f (settle p buffer k start d f).flash := by
  have hask : ∀ (q : SpiCycle) (d : δ) (f : ℕ → UInt8), SpiCycle.sector q = k →
      Confined (BLOCK_SIZE * k) (BLOCK_SIZE * (k + 1)) f (ask p q d f).flash := by
    rintro q d f rfl
    exact hp d f q
  unfold settle program
  dsimp only
  split_ifs
  · exact Confined.refl _ _ _
  · exact hask (eraseCycle k) _ _ (sector_block hk)
  · exact (hask (eraseCycle k) _ _ (sector_block hk)).trans
      (hask (programCycle buffer k start) _ _ (sector_block hk))
  · exact (hask (eraseCycle k) _ _ (sector_block hk)).trans
      (hask (programCycle buffer k start) _ _ (sector_block hk))

lemma verify_congr (p : Platform δ) {buffer other : ℕ → UInt8} (k : ℕ) {start : ℕ}
    (h : slice other start BLOCK_SIZE = slice buffer start BLOCK_SIZE) (d : δ) (f : ℕ → UInt8) :
    verify p other k start d f = verify p buffer k start d f := by
  have hiff : BlockEq other k start f ↔ BlockEq buffer k start f := by
    unfold BlockEq
    rw [h]
  unfold verify
  by_cases hb : BlockEq buffer k start f
  · simp only [hb, hiff.mpr hb]
  · simp only [hb, mt hiff.mp hb]

/-- Of the buffer only the block's part is looked at. -/
lemma settle_congr (p : Platform δ) {buffer other : ℕ → UInt8} (k : ℕ) {start : ℕ}
    (h : slice other start BLOCK_SIZE = slice buffer start BLOCK_SIZE) :
    settle p other k start = settle p buffer k start := by
  funext d f
  have hcycle : programCycle other k start = programCycle buffer k start := by
    simp only [programCycle, h]
  simp only [settle, program, hcycle, verify_congr p k h]

/-- The blocks that were reached hold the data, and nothing but the blocks has changed. -/
lemma settleAll_spec (hp : SectorOnly p) (buffer : ℕ → UInt8) {n k : ℕ} (start : ℕ)
    (hk : BLOCK_SIZE * (k + n) ≤ 2 ^ 32) (d : δ) (f : ℕ → UInt8) :
    Confined (BLOCK_SIZE * k) (BLOCK_SIZE * (k + n)) f (settleAll p buffer n k start d f).flash ∧
      ((settleAll p buffer n k start d f).status = EFI_SUCCESS ∧ (∀ i < n, BlockEq buffer (k + i)
        (start + BLOCK_SIZE * i) (settleAll p buffer n k start d f).flash) ∨
      efiError (settleAll p buffer n k start d f).status = true) := by
  induction n generalizing k start d f with
  | zero => exact ⟨Confined.refl _ _ _, Or.inl ⟨rfl, by simp⟩⟩
  | succ n ih =>
    have hB : BLOCK_SIZE = 4096 := rfl
    have hmul : BLOCK_SIZE * (k + (n + 1)) = BLOCK_SIZE * k + BLOCK_SIZE * n + BLOCK_SIZE := by
      ring
    have hmul' : BLOCK_SIZE * (k + 1 + n) = BLOCK_SIZE * (k + (n + 1)) := by ring
    have hfirst := settle_confined hp buffer (k := k) start (by omega) d f
    have hcases := settle_cases p buffer k start d f
    rw [settleAll]
    by_cases he : efiError (settle p buffer k start d f).status = true
    · rw [if_pos he]
      exact ⟨hfirst.mono le_rfl (Nat.mul_le_mul_left _ (by omega)), Or.inr he⟩
    rw [if_neg he]
    obtain ⟨hconf, hrest⟩ := ih (k := k + 1) (start + BLOCK_SIZE) (by omega)
      (settle p buffer k start d f).dev (settle p buffer k start d f).flash
    refine ⟨(hfirst.mono le_rfl (Nat.mul_le_mul_left _ (by omega))).trans
      (hconf.mono (Nat.mul_le_mul_left _ (by omega)) (Nat.mul_le_mul_left _ (by omega))), ?_⟩
    refine hrest.imp_left fun ⟨hst, hblocks⟩ => ⟨hst, fun i hi => ?_⟩
    cases i with
    | zero => exact (hcases.resolve_right he).2.of_confined hconf (by omega)
    | succ i =>
      have hb := hblocks i (by omega)
      have hk' : k + 1 + i = k + (i + 1) := by omega
      have hs' : start + BLOCK_SIZE + BLOCK_SIZE * i = start + BLOCK_SIZE * (i + 1) := by ring
      rw [hk', hs'] at hb
      exact hb

/-! ### The program does it -/

/-- A state shows a result. -/
def Shows (s : St δ) (r : Result δ) : Prop := s.flash = r.flash ∧ s.dev = r.dev

lemma internalCompareBlock_eq (p : Platform δ) (buffer : ℕ → UInt8) {address k : ℕ} (start : ℕ)
    (haddr : address - c.base = BLOCK_SIZE * k) (s : St δ) :
    ∃ s', internalCompareBlock c p buffer address start s =
        ((verify p buffer k start s.dev s.flash).status, s') ∧
      Shows s' (verify p buffer k start s.dev s.flash) := by
  refine ⟨(allocatePool p s BLOCK_SIZE).2, ?_, rfl, rfl⟩
  simp only [internalCompareBlock, allocatePool, spiFlashRead, verify, haddr, BlockEq]
  cases (p.allocatePool s.dev BLOCK_SIZE).1 with
  | false => rfl
  | true =>
    by_cases h : slice s.flash (BLOCK_SIZE * k) BLOCK_SIZE = slice buffer start BLOCK_SIZE
    · simp [h]
    · simp [h]

lemma shows_execute (p : Platform δ) (q : SpiCycle) (s : St δ) :
    (execute p s q).1 = (ask p q s.dev s.flash).status ∧
      Shows (execute p s q).2 (ask p q s.dev s.flash) := ⟨rfl, rfl, rfl⟩

lemma internalWriteBlock_eq (p : Platform δ) (buffer : ℕ → UInt8) (start : ℕ)
    {address fuel k : ℕ} (hoff : address - c.base = BLOCK_SIZE * k)
    (hsub : sub64 address c.base = BLOCK_SIZE * k) (hf : 0 < fuel) (s : St δ) :
    ∃ s', internalWriteBlock c p buffer fuel address start BLOCK_SIZE s =
        some ((program p buffer k start s.dev s.flash).status, s') ∧
      Shows s' (program p buffer k start s.dev s.flash) := by
  obtain ⟨n, hw⟩ := spiFlashWrite_eq p buffer start hsub hf s
  obtain ⟨hst, hflash, hdev⟩ := shows_execute p (programCycle buffer k start) s
  rw [internalWriteBlock, hw, Option.bind_some, hst, program]
  dsimp only
  by_cases he : efiError (ask p (programCycle buffer k start) s.dev s.flash).status = true
  · rw [if_pos he, if_pos he]
    exact ⟨_, rfl, hflash, hdev⟩
  · rw [if_neg he, if_neg he, ← hflash, ← hdev]
    obtain ⟨s', hc, hs'⟩ := internalCompareBlock_eq (c := c) p buffer start hoff
      (execute p s (programCycle buffer k start)).2
    exact ⟨s', by rw [hc], hs'⟩

lemma updateBlock_eq (p : Platform δ) (buffer : ℕ → UInt8) (start length : ℕ)
    {address fuel k : ℕ} (haddr : address = c.base + BLOCK_SIZE * k) (h64 : address < 2 ^ 64)
    (hlen : BLOCK_SIZE ≤ length) (hf : 0 < fuel) (s : St δ) :
    ∃ s', updateBlock c p buffer fuel address start length EFI_SUCCESS s =
        some ((settle p buffer k start s.dev s.flash).status, s') ∧
      Shows s' (settle p buffer k start s.dev s.flash) := by
  obtain ⟨hoff, hsub⟩ := block_offset haddr h64
  have hblock := fullBlock_length hlen
  obtain ⟨s₁, hc, hflash, hdev⟩ := internalCompareBlock_eq (c := c) p buffer start hoff s
  unfold updateBlock settle
  rw [hc]
  dsimp only
  by_cases hv : (!efiError (verify p buffer k start s.dev s.flash).status) = true
  · rw [if_pos hv, if_pos hv]
    exact ⟨s₁, rfl, hflash, hdev⟩
  rw [if_neg hv, if_neg hv, internalEraseBlock_eq p hsub hf, Option.bind_some, ← hflash, ← hdev]
  obtain ⟨hst, hflash₁, hdev₁⟩ := shows_execute p (eraseCycle k) s₁
  rw [hst]
  by_cases he : efiError (ask p (eraseCycle k) s₁.dev s₁.flash).status = true
  · rw [if_pos he, if_pos he]
    exact ⟨_, rfl, hflash₁, hdev₁⟩
  · rw [if_neg he, if_neg he, hblock, ← hflash₁, ← hdev₁]
    exact internalWriteBlock_eq p buffer start hoff hsub hf _

lemma progress_shows {s : St δ} {r : Result δ} (h : Shows s r) (present : Bool) (percent : ℕ) :
    Shows (progress s present percent) r := by
  cases present <;> exact h

/-- The loop leaves the flash and the device as the blocks do, and is left early exactly for an
error. -/
lemma blockLoop_eq (p : Platform δ) (buffer : ℕ → UInt8) {fuel : ℕ} (hf : 0 < fuel)
    (present : Bool) (sp ep count oldTpl start : ℕ) {n k address length : ℕ}
    (haddr : address = c.base + BLOCK_SIZE * k) (hend : address + BLOCK_SIZE * n < 2 ^ 64)
    (hlen : BLOCK_SIZE * n ≤ length) (s : St δ) :
    ∃ s', blockLoop c p buffer fuel present sp ep count oldTpl n address start length EFI_SUCCESS
        s = some ((settleAll p buffer n k start s.dev s.flash).status, s',
          efiError (settleAll p buffer n k start s.dev s.flash).status) ∧
      Shows s' (settleAll p buffer n k start s.dev s.flash) := by
  induction n generalizing k start address length s with
  | zero => exact ⟨s, rfl, rfl, rfl⟩
  | succ n ih =>
    have hB : BLOCK_SIZE = 4096 := rfl
    rw [Nat.mul_add_one] at hlen hend
    obtain ⟨s₀, hs₀⟩ : ∃ s₀, s₀ = progress s present
      (percentage sp ep count (count - (n + 1))) := ⟨_, rfl⟩
    obtain ⟨hflash₀, hdev₀⟩ := progress_shows (r := ⟨EFI_SUCCESS, s.flash, s.dev⟩) ⟨rfl, rfl⟩
      present (percentage sp ep count (count - (n + 1)))
    rw [← hs₀] at hflash₀ hdev₀
    obtain ⟨s₁, hu, hflash₁, hdev₁⟩ := updateBlock_eq p buffer start length haddr (by omega)
      (by omega) hf s₀
    rw [blockLoop, settleAll]
    dsimp only
    rw [← hs₀, hu, Option.bind_some, hflash₀, hdev₀]
    rw [hflash₀, hdev₀] at hflash₁ hdev₁
    dsimp only at hflash₁ hdev₁ ⊢
    by_cases he : efiError (settle p buffer k start s.dev s.flash).status = true
    · rw [if_pos he, if_pos he, he]
      exact ⟨_, rfl, hflash₁, hdev₁⟩
    · rw [if_neg he, if_neg he, ← hflash₁, ← hdev₁]
      have hadd : u64 (address + BLOCK_SIZE) = address + BLOCK_SIZE := u64_of_lt (by omega)
      have hnext : u64 (address + BLOCK_SIZE) = c.base + BLOCK_SIZE * (k + 1) := by
        rw [hadd, haddr]; ring
      rw [(settle_cases p buffer k start s.dev s.flash).resolve_right he |>.1]
      exact ih _ hnext (by rw [hadd]; omega) (by split_ifs <;> omega) s₁

/-- A request for any number of bytes of the flash area, from block `k` of it on. -/
structure Area (c : Config) (flashAddress : ℕ) (flashAddressType : AddressType)
    (length k : ℕ) : Prop where
  base_lt : c.base < 2 ^ 32
  size_lt : c.size < 2 ^ 32
  address : target c flashAddress flashAddressType = c.base + BLOCK_SIZE * k
  inside : BLOCK_SIZE * k + length ≤ c.size

lemma blocks_le (length : ℕ) : BLOCK_SIZE * (length / BLOCK_SIZE) ≤ length :=
  Nat.mul_div_le length BLOCK_SIZE

lemma Area.start {flashAddress length k : ℕ} {flashAddressType : AddressType}
    (h : Area c flashAddress flashAddressType length k) :
    (if flashAddressType = .relative then u64 (flashAddress + c.base) else flashAddress) =
      c.base + BLOCK_SIZE * k := by
  have hbase := h.base_lt
  have hsize := h.size_lt
  have hinside := h.inside
  have haddr := h.address
  unfold target at haddr
  split_ifs at haddr ⊢ with ht
  · rw [u64_of_lt (by omega), haddr]
  · exact haddr

/-- **The update is that of its whole blocks**, with the status they end with. -/
theorem performFlashWriteWithProgress_eq (p : Platform δ) (buffer : ℕ → UInt8)
    {flashAddress length k : ℕ} {flashAddressType : AddressType}
    (h : Area c flashAddress flashAddressType length k) (present : Bool)
    (startPercentage endPercentage : ℕ) {fuel : ℕ} (hf : 0 < fuel) (s : St δ) :
    ∃ s', performFlashWriteWithProgress c p buffer fuel flashAddress flashAddressType length present
        startPercentage endPercentage s =
        some ((settleAll p buffer (length / BLOCK_SIZE) k 0 s.dev s.flash).status, s') ∧
      Shows s' (settleAll p buffer (length / BLOCK_SIZE) k 0 s.dev s.flash) := by
  have hbase := h.base_lt
  have hsize := h.size_lt
  have hinside := h.inside
  have hle := blocks_le length
  obtain ⟨s₁, hloop, hshows⟩ := blockLoop_eq p buffer hf present startPercentage endPercentage
    (length / BLOCK_SIZE) s.tpl 0 (k := k) rfl
    (show c.base + BLOCK_SIZE * k + BLOCK_SIZE * (length / BLOCK_SIZE) < 2 ^ 64 by omega) hle
    (raiseTpl s TPL_NOTIFY).2
  have hraise : raiseTpl s TPL_NOTIFY = (s.tpl, (raiseTpl s TPL_NOTIFY).2) := rfl
  have hstart : (raiseTpl s TPL_NOTIFY).2.dev = s.dev ∧ (raiseTpl s TPL_NOTIFY).2.flash = s.flash :=
    ⟨rfl, rfl⟩
  rw [hstart.1, hstart.2] at hloop hshows
  unfold performFlashWriteWithProgress
  rw [h.start, hraise]
  dsimp only
  rw [hloop, Option.map_some]
  refine ⟨_, rfl, progress_shows ?_ _ _⟩
  dsimp only
  split_ifs
  · exact hshows
  · exact hshows

end UefiToolkit.FlashBlocks
