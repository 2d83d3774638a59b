import UefiToolkit.ToolBounds
import UefiToolkit.StructPack
import UefiToolkit.Mem

/-!
Writes and reads of `UefiTool` through `-WMM` and `-RMM`, on a memory and a space of IO ports
that have nothing to do with each other.
-/

namespace UefiToolkit.ToolAccess

open UefiToolkit.Word UefiToolkit.Mem UefiToolkit.StructPack UefiToolkit.ToolModel
  UefiToolkit.ToolBounds

inductive Space
  | mem | io
  deriving DecidableEq

abbrev Spaces := Space → ℕ → UInt8

/-- The space, the address and the number of bytes that an action reads. -/
def readRange : Action → Option (Space × ℕ × ℕ)
  | .ioRead bytes address => some (.io, address, bytes)
  | .mmioRead bytes address => some (.mem, address, bytes)
  | .saveFile _ size address => some (.mem, address, size)
  | .startupThisAp _ action => readRange action
  | _ => none

def perform (s : Spaces) : Action → Spaces
  | .ioWrite bytes address value =>
    Function.update s .io (blit (s .io) address (leBytes bytes value))
  | .mmioWrite bytes address value =>
    Function.update s .mem (blit (s .mem) address (leBytes bytes value))
  | .startupThisAp _ action => perform s action
  | _ => s

def performAll (s : Spaces) (actions : List Action) : Spaces := actions.foldl perform s

/-- `Data`, as the routine reads it. -/
def data (s : Spaces) (action : Action) : Option ℕ :=
  (readRange action).map fun r => leValue (slice (s r.1) r.2.1 r.2.2)

/-- The value in `Read Mem [0x%X] = 0x%X`: a `%X` without an `l` prints an `int`. -/
def memoryReport (s : Spaces) (opcode : ℕ) (c : Context) : Option ℕ :=
  ((memoryAccess opcode c).findSome? (data s)).map u32

/-- The space that `-MEM` or `-IO` has chosen. -/
def chosen (c : Context) : Space := if c.mmAccessType = 0 then .mem else .io

/-! ### The routine -/

section Routine

variable {p : Platform} {m : Processors} {opcode : ℕ} {c : Context} {s : Spaces}

/-- With one of the two bits the routine does nothing else. -/
lemma uefiToolRoutine_memory (h : opcode &&& (OPCODE_RMM_BIT ||| OPCODE_WMM_BIT) ≠ 0) :
    uefiToolRoutine p m opcode c = memoryAccess opcode c := by
  have hne : ∀ o, o &&& (OPCODE_RMM_BIT ||| OPCODE_WMM_BIT) = 0 → opcode ≠ o := by
    rintro o ho rfl
    exact h ho
  unfold uefiToolRoutine
  rw [if_neg (hne OPCODE_RDMSR_BIT (by decide)), if_neg (hne OPCODE_WRMSR_BIT (by decide)),
    if_neg (hne OPCODE_CPUID_BIT (by decide)), if_neg (hne OPCODE_SGDT_BIT (by decide)),
    if_neg (hne OPCODE_CR_BIT (by decide)), if_neg (hne (OPCODE_RDMSR_BIT ||| _) (by decide)),
    if_neg (hne (OPCODE_RDMSR_BIT ||| _) (by decide)),
    if_neg (hne (OPCODE_CPUID_BIT ||| _) (by decide)),
    if_neg (hne OPCODE_DUMPMEM_BIT (by decide)),
    if_neg fun h => hne OPCODE_DUMPMEM_BIT (by decide) h.1,
    if_neg (hne OPCODE_UCODE_BIT (by decide)), if_neg (hne OPCODE_READ_MEM_TEST_BIT (by decide)),
    if_neg (hne OPCODE_WRITE_MEM_TEST_BIT (by decide))]
  simp

lemma and_or_ne_zero {a b : ℕ} (h : opcode &&& a ≠ 0 ∨ opcode &&& b ≠ 0) :
    opcode &&& (a ||| b) ≠ 0 := by
  rw [Nat.and_or_distrib_left]
  intro hzero
  obtain ⟨ha, hb⟩ := Nat.or_eq_zero_iff.mp hzero
  exact h.elim (fun h => h ha) fun h => h hb

/-- A write goes to the chosen space. -/
lemma performAll_write (hbit : opcode &&& OPCODE_WMM_BIT ≠ 0)
    (hread : opcode &&& OPCODE_RMM_BIT = 0) (hwidth : c.mmWidth ∈ [1, 2, 4, 8]) :
    performAll s (uefiToolRoutine p m opcode c) = Function.update s (chosen c)
      (blit (s (chosen c)) c.mmAddress
        (leBytes c.mmWidth (c.mmValue % 2 ^ (8 * c.mmWidth)))) := by
  have hany := and_or_ne_zero (a := OPCODE_RMM_BIT) (Or.inr hbit)
  rw [uefiToolRoutine_memory hany]
  unfold memoryAccess chosen
  dsimp only
  rw [if_neg hany, if_neg (not_not.mpr hwidth)]
  by_cases ht : c.mmAccessType = 0
  · rw [if_neg (not_not.mpr ht), if_neg (not_not.mpr hread), if_pos ht]
    rfl
  · rw [if_pos ht, if_neg (not_not.mpr hread), if_neg ht]
    rfl

/-- A read is one of the chosen space, but for eight bytes of memory. -/
lemma uefiToolRoutine_read (hbit : opcode &&& OPCODE_RMM_BIT ≠ 0)
    (hwidth : c.mmWidth ∈ [1, 2, 4, 8]) :
    ∃ a, memoryAccess opcode c = [a] ∧ uefiToolRoutine p m opcode c = [a] ∧
      readRange a = some (if c.mmWidth = 8 then .io else chosen c, c.mmAddress, c.mmWidth) := by
  have hany := and_or_ne_zero (b := OPCODE_WMM_BIT) (Or.inl hbit)
  rw [uefiToolRoutine_memory hany]
  unfold memoryAccess chosen
  dsimp only
  rw [if_neg hany, if_neg (not_not.mpr hwidth)]
  by_cases ht : c.mmAccessType = 0
  · rw [if_neg (not_not.mpr ht), if_pos hbit, if_pos ht]
    by_cases h8 : c.mmWidth = 8
    · rw [if_pos h8, h8]
      exact ⟨_, rfl, rfl, rfl⟩
    · rw [if_neg h8, if_neg h8]
      exact ⟨_, rfl, rfl, rfl⟩
  · rw [if_pos ht, if_pos hbit, if_neg ht, ite_self]
    exact ⟨_, rfl, rfl, rfl⟩

end Routine

/-! ### Read after write -/

/-- The write of a value changes so many bytes at the address of the space, and a read of them
keeps to the space and reports the value, cut to its width. -/
structure ReadAfterWrite (s s' : Spaces) (space : Space) (address width value : ℕ)
    (reads : List Action) (report : Option ℕ) : Prop where
  other : ∀ x, x ≠ space → s' x = s x
  confined : Confined address (address + width) (s space) (s' space)
  within : ∀ a ∈ reads, ∀ r, readRange a = some r → r.1 = space
  reported : report = some (value % 2 ^ (8 * width))

lemma slice_leBytes (m : ℕ → UInt8) (a width value : ℕ) :
    leValue (slice (blit m a (leBytes width (value % 2 ^ (8 * width)))) a width) =
      value % 2 ^ (8 * width) := by
  have hlt : value % 2 ^ (8 * width) < 256 ^ width := by
    rw [show (256 : ℕ) = 2 ^ 8 from rfl, ← pow_mul]
    exact Nat.mod_lt _ (by positivity)
  have hback := slice_blit m a (leBytes width (value % 2 ^ (8 * width)))
  rw [leBytes_length] at hback
  rw [hback, leValue_leBytes hlt]

/-- What is read back, where the read keeps to the space. -/
lemma memoryReport_write {opcode : ℕ} {c : Context} {a : Action} (s : Spaces) (space : Space)
    (value : ℕ) (hone : memoryAccess opcode c = [a])
    (hrange : readRange a = some (space, c.mmAddress, c.mmWidth)) :
    memoryReport (Function.update s space (blit (s space) c.mmAddress
        (leBytes c.mmWidth (value % 2 ^ (8 * c.mmWidth))))) opcode c =
      some (u32 (value % 2 ^ (8 * c.mmWidth))) := by
  unfold memoryReport
  rw [hone, List.findSome?_singleton, data, hrange]
  simp only [Option.map_some, Function.update_self, slice_leBytes]

/-- **A value is read back** after it was written, in its own space, exactly when it is not one of
eight bytes in memory, where the ports are read, and when its eight bytes at a port leave the
upper four zero, which are not printed. -/
theorem uefiToolRoutine_readAfterWrite_iff (p p' : Platform) (m m' : Processors) (s : Spaces)
    (opcode opcode' : ℕ) (c c' : Context) (hwrite : opcode &&& OPCODE_WMM_BIT ≠ 0)
    (hnot : opcode &&& OPCODE_RMM_BIT = 0) (hread : opcode' &&& OPCODE_RMM_BIT ≠ 0)
    (hwidth : c.mmWidth ∈ [1, 2, 4, 8]) (hsame : c'.mmWidth = c.mmWidth)
    (haddress : c'.mmAddress = c.mmAddress) (htype : c'.mmAccessType = c.mmAccessType) :
    let s' := performAll s (uefiToolRoutine p m opcode c)
    ReadAfterWrite s s' (chosen c) c.mmAddress c.mmWidth c.mmValue
        (uefiToolRoutine p' m' opcode' c') (memoryReport s' opcode' c') ↔
      (chosen c = .mem → c.mmWidth ≠ 8) ∧ (c.mmWidth = 8 → c.mmValue % 2 ^ 64 < 2 ^ 32) := by
  intro s'
  have hs' : s' = _ := performAll_write hwrite hnot hwidth
  obtain ⟨a, hone, hroutine, hrange⟩ :=
    uefiToolRoutine_read (p := p') (m := m') hread (hsame ▸ hwidth)
  have hchosen : chosen c' = chosen c := by rw [chosen, chosen, htype]
  have hreport : (if c'.mmWidth = 8 then Space.io else chosen c') = chosen c →
      memoryReport s' opcode' c' = some (u32 (c.mmValue % 2 ^ (8 * c.mmWidth))) := fun hspace => by
    rw [hspace] at hrange
    rw [hs', ← haddress, ← hsame]
    exact memoryReport_write s (chosen c) c.mmValue hone hrange
  rw [hchosen, hsame] at hreport hrange
  constructor
  · rintro ⟨-, -, hwithin, hreported⟩
    have hspace := hwithin a (by rw [hroutine]; exact List.mem_singleton_self a) _ hrange
    dsimp only at hspace
    refine ⟨fun hmem h8 => ?_, fun h8 => ?_⟩
    · rw [if_pos h8, hmem] at hspace
      cases hspace
    · rw [hreport hspace, Option.some.injEq, h8] at hreported
      rw [← hreported]
      exact Nat.mod_lt _ (by norm_num)
  · rintro ⟨hmem, h32⟩
    have hspace : (if c.mmWidth = 8 then Space.io else chosen c) = chosen c := by
      by_cases h8 : c.mmWidth = 8
      · rw [if_pos h8]
        cases hc : chosen c with
        | mem => exact absurd h8 (hmem hc)
        | io => rfl
      · rw [if_neg h8]
    have hsmall : c.mmValue % 2 ^ (8 * c.mmWidth) < 2 ^ 32 := by
      simp only [List.mem_cons, List.not_mem_nil, or_false] at hwidth
      rcases hwidth with h | h | h | h
      · rw [h]; omega
      · rw [h]; omega
      · rw [h]; omega
      · rw [h]; exact h32 h
    refine ⟨fun x hx => ?_, ?_, fun x hx r hr => ?_, ?_⟩
    · rw [hs', Function.update_of_ne hx]
    · rw [hs', Function.update_self]
      exact (Confined.refl _ _ _).blit ⟨le_rfl, by rw [leBytes_length]⟩
    · rw [hroutine, List.mem_singleton] at hx
      rw [hx, hrange, Option.some.injEq] at hr
      rw [← hr]
      exact hspace
    · rw [hreport hspace, u32_of_lt hsmall]

/-! ### Three accesses -/

def sampleSpaces : Spaces := fun _ _ => 0

/-- `-WMM 1000 5 -W w`, and then `-RMM 1000 -W w`, with `-IO` or without. -/
def sampleAccess (width type : ℕ) : Context :=
  { mmAddress := 0x1000, mmValue := 5, mmWidth := width, mmAccessType := type }

/-- Eight bytes of memory are written, and a port is read. -/
theorem readAfterWrite_eight_bytes :
    ¬ ReadAfterWrite sampleSpaces
      (performAll sampleSpaces
        (uefiToolRoutine samplePlatform ⟨2, 0⟩ OPCODE_WMM_BIT (sampleAccess 8 0)))
      .mem 0x1000 8 5 (uefiToolRoutine samplePlatform ⟨2, 0⟩ OPCODE_RMM_BIT (sampleAccess 8 0))
      (memoryReport
        (performAll sampleSpaces
          (uefiToolRoutine samplePlatform ⟨2, 0⟩ OPCODE_WMM_BIT (sampleAccess 8 0)))
        OPCODE_RMM_BIT (sampleAccess 8 0)) := by
  intro h
  refine absurd (h.within (.ioRead 8 0x1000) ?_ _ rfl) (by decide)
  rw [uefiToolRoutine_memory (by decide)]
  exact List.mem_singleton_self _

/-- Four bytes of memory, and eight at a port, come back. -/
theorem readAfterWrite_sample :
    ReadAfterWrite sampleSpaces
        (performAll sampleSpaces
          (uefiToolRoutine samplePlatform ⟨2, 0⟩ OPCODE_WMM_BIT (sampleAccess 4 0)))
        .mem 0x1000 4 5 (uefiToolRoutine samplePlatform ⟨2, 0⟩ OPCODE_RMM_BIT (sampleAccess 4 0))
        (memoryReport
          (performAll sampleSpaces
            (uefiToolRoutine samplePlatform ⟨2, 0⟩ OPCODE_WMM_BIT (sampleAccess 4 0)))
          OPCODE_RMM_BIT (sampleAccess 4 0)) ∧
      ReadAfterWrite sampleSpaces
        (performAll sampleSpaces
          (uefiToolRoutine samplePlatform ⟨2, 0⟩ OPCODE_WMM_BIT (sampleAccess 8 1)))
        .io 0x1000 8 5 (uefiToolRoutine samplePlatform ⟨2, 0⟩ OPCODE_RMM_BIT (sampleAccess 8 1))
        (memoryReport
          (performAll sampleSpaces
            (uefiToolRoutine samplePlatform ⟨2, 0⟩ OPCODE_WMM_BIT (sampleAccess 8 1)))
          OPCODE_RMM_BIT (sampleAccess 8 1)) := by
  constructor
  · exact (uefiToolRoutine_readAfterWrite_iff samplePlatform samplePlatform ⟨2, 0⟩ ⟨2, 0⟩
      sampleSpaces OPCODE_WMM_BIT OPCODE_RMM_BIT (sampleAccess 4 0) (sampleAccess 4 0) (by decide)
      (by decide) (by decide) (by decide) rfl rfl rfl).mpr (by decide)
  · exact (uefiToolRoutine_readAfterWrite_iff samplePlatform samplePlatform ⟨2, 0⟩ ⟨2, 0⟩
      sampleSpaces OPCODE_WMM_BIT OPCODE_RMM_BIT (sampleAccess 8 1) (sampleAccess 8 1) (by decide)
      (by decide) (by decide) (by decide) rfl rfl rfl).mpr (by decide)

end UefiToolkit.ToolAccess
