import UefiToolkit.LastWrite
import UefiToolkit.ToolLoop

/-!
What the option loop of `UefiTool` makes of complete options.

The words are cut into options with their operands; the state at the end is the fold of the
stores, and each field is the operand of the last option that sets it.
-/

namespace UefiToolkit.ToolOptions

open UefiToolkit.Word UefiToolkit.DiskModel UefiToolkit.LastWrite UefiToolkit.ToolModel
  UefiToolkit.ToolBounds UefiToolkit.ToolLoop

/-! ### Groups -/

/-- An option word, in any letter case, with all its operands. -/
structure Group where
  arm : Arm
  word : Str
  operands : List Str
  spelled : strUpr word = arm.name
  complete : operands.length = arm.operands

def Group.words (g : Group) : List Str := g.word :: g.operands

/-- The `k`-th operand, from 1 on. -/
def Group.operand (g : Group) (k : ℕ) : Str := g.words.getD k []

/-- The words behind the name of the program. -/
def words (groups : List Group) : List Str := groups.flatMap Group.words

def commandLine (program : Str) (groups : List Group) (i : ℕ) : Str :=
  (program :: words groups).getD i []

/-- The operand that the group has for a field which these options set with these operands. -/
def setBy (setters : List (Arm × ℕ)) (g : Group) : Option Str :=
  (setters.lookup g.arm).map g.operand

def lastOperand (setters : List (Arm × ℕ)) (groups : List Group) : Option Str :=
  lastSet (setBy setters) groups

attribute [ext] Context

/-- What `-MEM` and `-IO` stand for. -/
def accessType (g : Group) : Option ℕ :=
  if g.arm = .mem then some 0 else if g.arm = .io then some 1 else none

def msrIndexSetters : List (Arm × ℕ) := [(.rdmsr, 1), (.wrmsr, 1)]
def msrValueSetters : List (Arm × ℕ) := [(.wrmsr, 2)]
def cpuIdIndexSetters : List (Arm × ℕ) := [(.cpuid, 1)]
def cpuIdSubIndexSetters : List (Arm × ℕ) := [(.cpuid, 2)]
def processorIndexSetters : List (Arm × ℕ) := [(.processor, 1)]
def mmAddressSetters : List (Arm × ℕ) := [(.rmm, 1), (.wmm, 1), (.readTest, 1), (.writeTest, 1)]
def mmValueSetters : List (Arm × ℕ) := [(.wmm, 2), (.writeTest, 2)]
def mmWidthSetters : List (Arm × ℕ) := [(.width, 1)]
def dumpMemAddressSetters : List (Arm × ℕ) := [(.dumpmem, 1)]
def dumpMemSizeSetters : List (Arm × ℕ) := [(.dumpmem, 2)]
def dumpMemFileSetters : List (Arm × ℕ) := [(.dumpmem, 3)]

section Groups

variable (hex : Str → ℕ)

/-- The number that the last operand is, where there is one. -/
def lastNumber (setters : List (Arm × ℕ)) (groups : List Group) (initial : ℕ) : ℕ :=
  ((lastOperand setters groups).map hex).getD initial

/-- Each field holds the operand of the last group that sets it, or its initial value. -/
def lastContext (groups : List Group) : Context where
  msrIndex := lastNumber hex msrIndexSetters groups 0
  msrValue := lastNumber hex msrValueSetters groups 0
  cpuIdIndex := lastNumber hex cpuIdIndexSetters groups 0
  cpuIdSubIndex := lastNumber hex cpuIdSubIndexSetters groups 0
  processorIndex := lastNumber hex processorIndexSetters groups 0
  mmAddress := lastNumber hex mmAddressSetters groups 0
  mmValue := lastNumber hex mmValueSetters groups 0
  mmWidth := lastNumber hex mmWidthSetters groups 4
  mmAccessType := (lastSet accessType groups).getD 0
  dumpMemAddress := lastNumber hex dumpMemAddressSetters groups 0
  dumpMemSize := lastNumber hex dumpMemSizeSetters groups 0
  dumpMemFile := (lastOperand dumpMemFileSetters groups).getD []

/-- The bits of all the groups. -/
def groupBits (groups : List Group) : ℕ :=
  groups.foldl (fun opcode g => opcode ||| g.arm.opcode) 0

/-- The stores of the groups, one after the other. -/
def stores (groups : List Group) (c : Context) : Context :=
  groups.foldl (fun c g => g.arm.store hex g.operand c) c

variable {hex} {groups : List Group} {c : Context}

/-! ### The fields after the stores -/

lemma stores_field {β : Type} (get : Context → β) (setters : List (Arm × ℕ)) (f : Str → β)
    (h : ∀ (c : Context) (arg : ℕ → Str) (arm : Arm), get (arm.store hex arg c) =
      ((setters.lookup arm).map fun k => f (arg k)).getD (get c)) :
    get (stores hex groups c) = ((lastOperand setters groups).map f).getD (get c) := by
  rw [lastOperand, ← lastSet_map]
  refine foldl_lastSet get _ _ (fun c g => ?_) c groups
  rw [h, setBy, Option.map_map]
  rfl

lemma stores_accessType :
    (stores hex groups c).mmAccessType = (lastSet accessType groups).getD c.mmAccessType := by
  refine foldl_lastSet Context.mmAccessType _ accessType (fun c g => ?_) c groups
  obtain ⟨arm, word, operands, -, -⟩ := g
  cases arm <;> rfl

/-- The fields after the stores: three are cut to 32 bits, and the file to four characters. -/
lemma stores_start : stores hex groups { mmWidth := 4 } =
    { lastContext hex groups with
      msrIndex := lastNumber (fun w => u32 (hex w)) msrIndexSetters groups 0
      cpuIdIndex := lastNumber (fun w => u32 (hex w)) cpuIdIndexSetters groups 0
      cpuIdSubIndex := lastNumber (fun w => u32 (hex w)) cpuIdSubIndexSetters groups 0
      dumpMemFile := ((lastOperand dumpMemFileSetters groups).map fun w => w.take 4).getD [] } := by
  apply Context.ext
  · exact stores_field Context.msrIndex _ (fun w => u32 (hex w)) fun _ _ arm => by cases arm <;> rfl
  · exact stores_field Context.msrValue _ hex fun _ _ arm => by cases arm <;> rfl
  · exact stores_field Context.cpuIdIndex _ (fun w => u32 (hex w)) fun _ _ arm => by
      cases arm <;> rfl
  · exact stores_field Context.cpuIdSubIndex _ (fun w => u32 (hex w)) fun _ _ arm => by
      cases arm <;> rfl
  · exact stores_field Context.processorIndex _ hex fun _ _ arm => by cases arm <;> rfl
  · exact stores_field Context.mmAddress _ hex fun _ _ arm => by cases arm <;> rfl
  · exact stores_field Context.mmValue _ hex fun _ _ arm => by cases arm <;> rfl
  · exact stores_field Context.mmWidth _ hex fun _ _ arm => by cases arm <;> rfl
  · exact stores_accessType
  · exact stores_field Context.dumpMemAddress _ hex fun _ _ arm => by cases arm <;> rfl
  · exact stores_field Context.dumpMemSize _ hex fun _ _ arm => by cases arm <;> rfl
  · exact stores_field Context.dumpMemFile _ (fun w => w.take 4) fun _ _ arm => by cases arm <;> rfl

end Groups

/-! ### The loop -/

section Loop

variable {hex : Str → ℕ} {argc : ℕ} {s : State} {g : Group} {groups : List Group}

/-- An arm looks at its operands only. -/
lemma store_congr {arg arg' : ℕ → Str} {arm : Arm} {c : Context}
    (h : ∀ k, 1 ≤ k → k ≤ arm.operands → arg k = arg' k) :
    arm.store hex arg c = arm.store hex arg' c := by
  have h₁ : 1 ≤ arm.operands → arg 1 = arg' 1 := h 1 le_rfl
  have h₂ : 2 ≤ arm.operands → arg 2 = arg' 2 := h 2 (by norm_num)
  have h₃ : 3 ≤ arm.operands → arg 3 = arg' 3 := h 3 (by norm_num)
  clear h
  cases arm <;> simp_all [Arm.store, Arm.operands]

lemma Group.words_length (g : Group) : g.words.length = g.arm.operands + 1 := by
  rw [Group.words, List.length_cons, g.complete]

lemma lookAhead_le_operands (arm : Arm) : arm.lookAhead ≤ arm.operands := by
  cases arm <;> decide

variable (hex) in
/-- One round takes one group. -/
lemma optionStep_group (hargc : argc ≤ 255) (hlast : s.index + g.arm.operands < argc)
    (hargs : ∀ k ≤ g.arm.operands, s.argv (s.index + k) = g.words.getD k []) :
    (optionStep hex argc s).index = s.index + g.words.length ∧
      (optionStep hex argc s).opcode = s.opcode ||| g.arm.opcode ∧
      (optionStep hex argc s).context = g.arm.store hex g.operand s.context ∧
      ∀ i, s.index < i → (optionStep hex argc s).argv i = s.argv i := by
  have hword : strUpr (s.argv s.index) = g.arm.name := by
    rw [← g.spelled]
    exact congrArg strUpr (hargs 0 (Nat.zero_le _))
  have hlook := lookAhead_le_operands g.arm
  have hwrap : u8 (s.index + (g.arm.operands + 1)) = s.index + (g.arm.operands + 1) :=
    Nat.mod_eq_of_lt (by omega)
  have hstore : g.arm.store hex (fun i => Function.update s.argv s.index
      (strUpr (s.argv s.index)) (s.index + i)) s.context = g.arm.store hex g.operand s.context :=
    store_congr fun k hk hle => by
      rw [Function.update_of_ne (by omega), hargs k hle]
      rfl
  rw [optionStep_option (selected_of_name (by omega) hword), g.words_length, hwrap, hstore]
  exact ⟨rfl, rfl, rfl, fun i hi => Function.update_of_ne (by omega) _ _⟩

variable (hex) in
/-- As many rounds as groups take them all. -/
lemma optionLoop_groups (hargc : argc ≤ 255) (groups : List Group) (s : State)
    (hend : s.index + (words groups).length = argc)
    (hargs : ∀ k < (words groups).length, s.argv (s.index + k) = (words groups).getD k []) :
    (optionLoop hex argc groups.length s).index = argc ∧
      (optionLoop hex argc groups.length s).opcode =
        groups.foldl (fun opcode g => opcode ||| g.arm.opcode) s.opcode ∧
      (optionLoop hex argc groups.length s).context = stores hex groups s.context := by
  induction groups generalizing s with
  | nil => exact ⟨hend, rfl, rfl⟩
  | cons g rest ih =>
    have hsplit : words (g :: rest) = g.words ++ words rest := List.flatMap_cons
    have hlen := g.words_length
    rw [hsplit, List.length_append] at hend hargs
    obtain ⟨hindex, hopcode, hcontext, hargv⟩ :=
      optionStep_group hex hargc (by omega : s.index + g.arm.operands < argc) fun k hk => by
        rw [hargs k (by omega), List.getD_append _ _ _ _ (by omega)]
    rw [List.length_cons, optionLoop_next (by omega), List.foldl_cons, stores, List.foldl_cons,
      ← hopcode, ← hcontext]
    refine ih _ (by omega) fun k hk => ?_
    rw [hindex, hargv _ (by omega), Nat.add_assoc, hargs _ (by omega),
      List.getD_append_right _ _ _ _ (Nat.le_add_right _ k), Nat.add_sub_cancel_left]

/-- After its end the loop stays as it is. -/
lemma optionLoop_stable {rounds : ℕ} (h : atEnd argc (optionLoop hex argc rounds s) = true)
    (more : ℕ) : optionLoop hex argc (rounds + more) s = optionLoop hex argc rounds s := by
  induction more with
  | zero => rfl
  | succ more ih => rw [← Nat.add_assoc, optionLoop_succ, ih, if_pos h]

/-- Only the options of the loop lead into it. -/
lemma enterLoop_groups {p : Platform} {program : Str} {m : Processors} {s₀ : State}
    (h : enterLoop p ((words groups).length + 1) (commandLine program groups) = .ok (m, s₀)) :
    s₀ = ⟨1, 0, { mmWidth := 4 }, commandLine program groups, []⟩ := by
  have h₁ : (words groups).length + 1 ≠ 1 := fun h₁ => by
    rw [h₁] at h
    cases h
  have h₂ : (words groups).length + 1 ≠ 2 := fun h₂ => by
    obtain _ | ⟨g, rest⟩ := groups
    · cases h₂
    have hword : commandLine program (g :: rest) 1 = g.word := rfl
    rw [h₂] at h
    cases ho : onlyArgument (strUpr (commandLine program (g :: rest) 1)) with
    | error status => simp [enterLoop, ho] at h
    | ok opcode =>
      rw [hword, g.spelled] at ho
      exact (onlyArgument_ok ho).1 g.arm rfl
  cases hp : getProcessorsCpuLocation p with
  | error status =>
    rw [enterLoop_error h₁ h₂ hp] at h
    cases h
  | ok m' =>
    rw [enterLoop_ok _ h₁ h₂ hp] at h
    cases h
    rfl

lemma getD_map_eq_iff {β : Type} (f f' : Str → β) {o : Option Str} {b : β} :
    (o.map f).getD b = (o.map f').getD b ↔ ∀ w, o = some w → f w = f' w := by
  cases o with
  | none => simp
  | some w => simp

/-- The fields are right when nothing is cut. -/
lemma stores_eq_iff : stores hex groups { mmWidth := 4 } = lastContext hex groups ↔
    (∀ w, lastOperand dumpMemFileSetters groups = some w → w.length ≤ 4) ∧
      ∀ setters ∈ [msrIndexSetters, cpuIdIndexSetters, cpuIdSubIndexSetters],
        ∀ w, lastOperand setters groups = some w → hex w < 2 ^ 32 := by
  have hcut : ∀ setters, lastNumber (fun w => u32 (hex w)) setters groups 0 =
      lastNumber hex setters groups 0 ↔
        ∀ w, lastOperand setters groups = some w → hex w < 2 ^ 32 := fun setters => by
    rw [lastNumber, lastNumber, getD_map_eq_iff]
    refine forall₂_congr fun w _ => ⟨fun h => ?_, u32_of_lt⟩
    rw [← h]
    exact Nat.mod_lt _ (by norm_num)
  have hfile : ((lastOperand dumpMemFileSetters groups).map fun w => w.take 4).getD [] =
      (lastOperand dumpMemFileSetters groups).getD [] ↔
        ∀ w, lastOperand dumpMemFileSetters groups = some w → w.length ≤ 4 := by
    simp only [← List.take_eq_self_iff]
    have hid : lastOperand dumpMemFileSetters groups =
        (lastOperand dumpMemFileSetters groups).map fun w => w := Option.map_id'.symm
    rw [← getD_map_eq_iff (fun w => w.take 4) (fun w => w) (b := []), ← hid]
  rw [stores_start, Context.ext_iff, ← hfile]
  simp only [List.forall_mem_cons, List.not_mem_nil, false_imp_iff, implies_true, and_true,
    true_and, ← hcut]
  constructor
  · rintro ⟨h₁, h₃, h₄, h₁₂⟩
    exact ⟨h₁₂, h₁, h₃, h₄⟩
  · rintro ⟨h₁₂, h₁, h₃, h₄⟩
    exact ⟨h₁, h₃, h₄, h₁₂⟩

/-- The loop ends with the operands of the last groups in the fields, and with the bits of all. -/
def LastHeld (hex : Str → ℕ) (groups : List Group) (s₀ : State) : Prop :=
  ∃ rounds, let s := optionLoop hex ((words groups).length + 1) rounds s₀
    atEnd ((words groups).length + 1) s = true ∧ s.context = lastContext hex groups ∧
      s.opcode = groupBits groups

lemma lastHeld_iff {program : Str} (hwords : (words groups).length ≤ 100) :
    LastHeld hex groups ⟨1, 0, { mmWidth := 4 }, commandLine program groups, []⟩ ↔
      stores hex groups { mmWidth := 4 } = lastContext hex groups := by
  obtain ⟨hindex, hopcode, hcontext⟩ := optionLoop_groups hex
    (by omega : (words groups).length + 1 ≤ 255) groups
    ⟨1, 0, { mmWidth := 4 }, commandLine program groups, []⟩ (Nat.add_comm _ _) fun k _ => by
      change (program :: words groups).getD (1 + k) [] = (words groups).getD k []
      rw [Nat.add_comm, List.getD_cons_succ]
  have hend := atEnd_iff.mpr hindex.ge
  constructor
  · rintro ⟨rounds, hstop, heq, -⟩
    rw [← hcontext, ← optionLoop_stable hend rounds, Nat.add_comm groups.length rounds,
      optionLoop_stable hstop]
    exact heq
  · intro heq
    exact ⟨groups.length, hend, hcontext.trans heq, hopcode⟩

/-- **Complete options leave in each field the operand of the last that sets it**, and in `Opcode`
the bits of all, exactly when the name of the last `DUMPMEM` has four characters at most and the
last operands of the three fields of 32 bits fit in them. -/
theorem optionLoop_lastHeld_iff (hex : Str → ℕ) (p : Platform) (program : Str)
    (groups : List Group) (m : Processors) (s₀ : State) (hwords : (words groups).length ≤ 100)
    (henter : enterLoop p ((words groups).length + 1) (commandLine program groups) =
      .ok (m, s₀)) :
    LastHeld hex groups s₀ ↔
      (∀ w, lastOperand dumpMemFileSetters groups = some w → w.length ≤ 4) ∧
        ∀ setters ∈ [msrIndexSetters, cpuIdIndexSetters, cpuIdSubIndexSetters],
          ∀ w, lastOperand setters groups = some w → hex w < 2 ^ 32 := by
  obtain rfl := enterLoop_groups henter
  rw [lastHeld_iff hwords, stores_eq_iff]

end Loop

/-! ### Two command lines -/

def sampleDump (file : String) : List Group :=
  [⟨.dumpmem, unicode "DumpMem", [unicode "1", unicode "2", unicode file], rfl, rfl⟩]

/-- Of the name of the file, four characters are kept. -/
theorem optionLoop_long_file :
    ¬ LastHeld sampleHex (sampleDump "dump.bin")
      ⟨1, 0, { mmWidth := 4 }, commandLine (unicode "UefiTool") (sampleDump "dump.bin"), []⟩ := by
  rw [lastHeld_iff (by decide)]
  intro h
  exact absurd (congrArg Context.dumpMemFile h) (by decide)

/-- The last of two names is the one that counts. -/
theorem optionLoop_short_file :
    LastHeld sampleHex (sampleDump "dump.bin" ++ sampleDump "d.bi")
      ⟨1, 0, { mmWidth := 4 },
        commandLine (unicode "UefiTool") (sampleDump "dump.bin" ++ sampleDump "d.bi"), []⟩ :=
  (optionLoop_lastHeld_iff sampleHex samplePlatform (unicode "UefiTool")
    (sampleDump "dump.bin" ++ sampleDump "d.bi") ⟨2, 0⟩ _ (by decide) rfl).mpr
    ⟨fun w hw => by
      obtain rfl : unicode "d.bi" = w := Option.some.inj hw
      decide,
    fun setters hs w hw => by
      simp only [List.mem_cons, List.not_mem_nil, or_false] at hs
      rcases hs with rfl | rfl | rfl <;> cases hw⟩

end UefiToolkit.ToolOptions
