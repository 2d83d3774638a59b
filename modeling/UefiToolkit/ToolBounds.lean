import UefiToolkit.ToolModel

/-!
What `UefiTool` reads of its arguments and of the table of processors.

An option position is reached, and the options before it are taken, as the arguments say: this
is stated apart from the loop, and the loop is shown to go from one position to the next.
-/

namespace UefiToolkit.ToolBounds

open UefiToolkit.Word UefiToolkit.DiskModel UefiToolkit.ToolModel

/-! ### The arms -/

lemma Arm.name_injective {a b : Arm} (h : a.name = b.name) : a = b := by
  cases a <;> cases b <;> first | rfl | exact absurd h (by decide)

lemma toUpper_toUpper (a : UInt16) : toUpper (toUpper a) = toUpper a := by
  unfold toUpper
  split_ifs with h h'
  · exfalso
    obtain ⟨h₁, h₂⟩ := h
    obtain ⟨h₃, h₄⟩ := h'
    rw [UInt16.le_iff_toNat_le] at h₁ h₂ h₃ h₄
    have hsub : (a - 0x20).toNat = a.toNat - 0x20 :=
      UInt16.toNat_sub_of_le _ _ (UInt16.le_iff_toNat_le.mpr (by simp at h₁ ⊢; omega))
    rw [hsub] at h₃
    simp at h₁ h₂ h₃
    omega
  · rfl
  · rfl

lemma strUpr_strUpr (s : Str) : strUpr (strUpr s) = strUpr s := by
  unfold strUpr
  rw [List.map_map]
  exact List.map_congr_left fun a _ => toUpper_toUpper a

section Selected

variable {argc i : ℕ} {word : Str} {arm : Arm}

lemma selected_some (h : selected argc i word = some arm) :
    i + arm.lookAhead < argc ∧ word = arm.name := by
  have := List.find?_some h
  simpa using this

lemma selected_of_name (hg : i + arm.lookAhead < argc) (hw : word = arm.name) :
    selected argc i word = some arm := by
  have hmem : arm ∈ Arm.all := by cases arm <;> decide
  cases hs : selected argc i word with
  | some arm' =>
    have hname := (selected_some hs).2
    rw [Arm.name_injective (hname.symm.trans hw)]
  | none =>
    have hall := List.find?_eq_none.mp hs arm hmem
    simp [hg, hw] at hall

/-- `-WMM` or `-WT` with one argument behind it, or `-W` with none: the guard of the arm looks
one argument less ahead than the arm reads. -/
def Short (argc : ℕ) (word : Str) (i : ℕ) : Prop :=
  (word = unicode "-WMM" ∨ word = unicode "-WT") ∧ i + 2 = argc ∨
    word = unicode "-W" ∧ i + 1 = argc

lemma short_name : Short argc arm.name i ↔
    (arm = .wmm ∨ arm = .writeTest) ∧ i + 2 = argc ∨ arm = .width ∧ i + 1 = argc := by
  have hname : ∀ b : Arm, arm.name = b.name ↔ arm = b := fun b =>
    ⟨Arm.name_injective, congrArg Arm.name⟩
  unfold Short
  rw [show unicode "-WMM" = Arm.wmm.name from rfl, show unicode "-WT" = Arm.writeTest.name from rfl,
    show unicode "-W" = Arm.width.name from rfl, hname, hname, hname]

/-- An arm that is taken reads past the end exactly when its option is short. -/
lemma selected_short (h : selected argc i word = some arm) :
    argc ≤ i + arm.operands ↔ Short argc word i := by
  obtain ⟨hg, rfl⟩ := selected_some h
  rw [short_name]
  cases arm <;> simp [Arm.lookAhead, Arm.operands] at hg ⊢ <;> omega

lemma short_selected (h : Short argc word i) : ∃ arm, selected argc i word = some arm := by
  rcases h with ⟨hw | hw, hi⟩ | ⟨hw, hi⟩
  · exact ⟨.wmm, selected_of_name (by simp only [Arm.lookAhead]; omega) hw⟩
  · exact ⟨.writeTest, selected_of_name (by simp only [Arm.lookAhead]; omega) hw⟩
  · exact ⟨.width, selected_of_name (by simp only [Arm.lookAhead]; omega) hw⟩

end Selected

/-! ### The positions of the options -/

/-- An option is looked up at the position, after these options with their positions. An option
takes its operands along; any other word is passed over. Positions are kept in eight bits. -/
inductive Reached (argc : ℕ) (argv : ℕ → Str) : List (Arm × ℕ) → ℕ → Prop
  | start : Reached argc argv [] 1
  | option {taken : List (Arm × ℕ)} {i : ℕ} {arm : Arm} (before : Reached argc argv taken i)
      (found : selected argc i (strUpr (argv i)) = some arm) :
      Reached argc argv (taken ++ [(arm, i)]) (u8 (i + (arm.operands + 1)))
  | word {taken : List (Arm × ℕ)} {i : ℕ} (before : Reached argc argv taken i) (inside : i < argc)
      (none : selected argc i (strUpr (argv i)) = none) :
      Reached argc argv taken (u8 (i + 1))

/-- The bits of `Opcode` that the options set. -/
def opcodes (taken : List (Arm × ℕ)) : ℕ := taken.foldl (fun opcode x => opcode ||| x.1.opcode) 0

/-- The position of the last `-P`. -/
def lastProcessor (taken : List (Arm × ℕ)) : Option ℕ :=
  (taken.filter fun x => x.1 = .processor).getLast?.map Prod.snd

section Reached

variable {argc i : ℕ} {argv : ℕ → Str} {taken : List (Arm × ℕ)} {arm : Arm}

lemma Reached.le_255 (h : Reached argc argv taken i) : i ≤ 255 := by
  cases h with
  | start => omega
  | option => exact Nat.le_of_lt_succ (Nat.mod_lt _ (by norm_num))
  | word => exact Nat.le_of_lt_succ (Nat.mod_lt _ (by norm_num))

lemma opcodes_snoc : opcodes (taken ++ [(arm, i)]) = opcodes taken ||| arm.opcode := by
  unfold opcodes
  rw [List.foldl_append]
  rfl

lemma lastProcessor_snoc :
    lastProcessor (taken ++ [(arm, i)]) =
      if arm = .processor then some i else lastProcessor taken := by
  unfold lastProcessor
  rw [List.filter_append]
  by_cases h : arm = .processor
  · rw [if_pos h, List.filter_cons_of_pos (by simpa using h)]
    simp
  · rw [if_neg h, List.filter_cons_of_neg (by simpa using h)]
    simp

/-- The bit of `-P` is set by no other option. -/
lemma lastProcessor_of_testBit (h : (opcodes taken).testBit 4 = true) :
    ∃ i, lastProcessor taken = some i := by
  induction taken using List.reverseRecOn with
  | nil => exact absurd h (by decide)
  | append_singleton taken x ih =>
    obtain ⟨arm, i⟩ := x
    rw [opcodes_snoc, Nat.testBit_or, Bool.or_eq_true] at h
    rw [lastProcessor_snoc]
    by_cases hp : arm = .processor
    · exact ⟨i, if_pos hp⟩
    · rw [if_neg hp]
      refine ih (h.resolve_right ?_)
      cases arm <;> first | exact absurd rfl hp | decide

end Reached

/-! ### The loop -/

section Loop

variable {hex : Str → ℕ} {argc o : ℕ} {argv : ℕ → Str} {taken : List (Arm × ℕ)} {s s₀ : State}
  {arm : Arm}

lemma atEnd_iff : atEnd argc s = true ↔ argc ≤ s.index := by
  unfold atEnd
  simp only [decide_eq_true_eq]
  omega

lemma words_update (h : ∀ i, strUpr (s.argv i) = strUpr (argv i)) (j : ℕ) :
    strUpr (Function.update s.argv s.index (strUpr (s.argv s.index)) j) = strUpr (argv j) := by
  by_cases hj : j = s.index
  · rw [hj, Function.update_self, strUpr_strUpr, h]
  · rw [Function.update_of_ne hj, h]

/-- One round, at an option or at another word. -/
lemma optionStep_option (hsel : selected argc s.index (strUpr (s.argv s.index)) = some arm) :
    optionStep hex argc s =
      { index := u8 (s.index + (arm.operands + 1))
        opcode := s.opcode ||| arm.opcode
        context := arm.store hex (fun i => Function.update s.argv s.index
          (strUpr (s.argv s.index)) (s.index + i)) s.context
        argv := Function.update s.argv s.index (strUpr (s.argv s.index))
        reads := s.reads ++ (List.range (arm.operands + 1)).map (s.index + ·) } := by
  unfold optionStep
  dsimp only
  rw [hsel]

lemma optionStep_word (hsel : selected argc s.index (strUpr (s.argv s.index)) = none) :
    optionStep hex argc s =
      { s with
        index := u8 (s.index + 1)
        argv := Function.update s.argv s.index (strUpr (s.argv s.index))
        reads := s.reads ++ [s.index] } := by
  unfold optionStep
  dsimp only
  rw [hsel]

/-- No option that is reached is short. -/
def Full (argc : ℕ) (argv : ℕ → Str) : Prop :=
  ∀ taken i, Reached argc argv taken i → ¬ Short argc (strUpr (argv i)) i

/-- As long as no position wraps around, the words from the position on are those of the caller,
and the processor is the operand of the last `-P`. -/
structure Straight (hex : Str → ℕ) (argc : ℕ) (argv : ℕ → Str) (taken : List (Arm × ℕ))
    (s : State) : Prop where
  rest : ∀ i, s.index ≤ i → s.argv i = argv i
  processor : ∀ i, lastProcessor taken = some i → s.context.processorIndex = hex (argv (i + 1))

lemma store_processorIndex {arg : ℕ → Str} {c : Context} (h : arm ≠ .processor) :
    (arm.store hex arg c).processorIndex = c.processorIndex := by
  cases arm <;> first | rfl | exact absurd rfl h

lemma Straight.step_option (h : Straight hex argc argv taken s) (hargc : argc ≤ 255)
    (hsel : selected argc s.index (strUpr (s.argv s.index)) = some arm)
    (hshort : ¬ Short argc (strUpr (s.argv s.index)) s.index) :
    Straight hex argc argv (taken ++ [(arm, s.index)]) (optionStep hex argc s) := by
  rw [← selected_short hsel] at hshort
  have hindex : u8 (s.index + (arm.operands + 1)) = s.index + (arm.operands + 1) :=
    Nat.mod_eq_of_lt (by omega)
  have hrest : ∀ i, s.index < i →
      Function.update s.argv s.index (strUpr (s.argv s.index)) i = argv i := fun i hi => by
    rw [Function.update_of_ne (by omega), h.rest i (by omega)]
  rw [optionStep_option hsel, hindex]
  refine ⟨fun i hi => hrest i (by dsimp only at hi; omega), fun i hi => ?_⟩
  rw [lastProcessor_snoc] at hi
  by_cases hp : arm = .processor
  · rw [if_pos hp, Option.some.injEq] at hi
    subst hp hi
    exact congrArg hex (hrest _ (Nat.lt_succ_self _))
  · rw [if_neg hp] at hi
    rw [store_processorIndex hp]
    exact h.processor i hi

lemma Straight.step_word (h : Straight hex argc argv taken s) (hargc : argc ≤ 255)
    (hin : s.index < argc) (hsel : selected argc s.index (strUpr (s.argv s.index)) = none) :
    Straight hex argc argv taken (optionStep hex argc s) := by
  have hindex : u8 (s.index + 1) = s.index + 1 := Nat.mod_eq_of_lt (by omega)
  rw [optionStep_word hsel, hindex]
  refine ⟨fun i hi => ?_, h.processor⟩
  dsimp only at hi ⊢
  rw [Function.update_of_ne (by omega), h.rest i (by omega)]

/-- The state of the loop after the options `taken`, which started with the bits `o`. -/
structure Tracks (hex : Str → ℕ) (argc : ℕ) (argv : ℕ → Str) (o : ℕ) (taken : List (Arm × ℕ))
    (s : State) : Prop where
  reached : Reached argc argv taken s.index
  words : ∀ i, strUpr (s.argv i) = strUpr (argv i)
  opcode : s.opcode = o ||| opcodes taken
  straight : Full argc argv → argc ≤ 255 → Straight hex argc argv taken s

lemma Tracks.step_option (h : Tracks hex argc argv o taken s)
    (hsel : selected argc s.index (strUpr (s.argv s.index)) = some arm) :
    Tracks hex argc argv o (taken ++ [(arm, s.index)]) (optionStep hex argc s) ∧
      (optionStep hex argc s).index = u8 (s.index + (arm.operands + 1)) := by
  have hsel' := hsel
  rw [h.words] at hsel'
  rw [optionStep_option hsel]
  refine ⟨⟨h.reached.option hsel', words_update h.words, ?_, fun hfull hargc => ?_⟩, rfl⟩
  · rw [h.opcode, opcodes_snoc, Nat.lor_assoc]
  · rw [← optionStep_option hsel]
    refine (h.straight hfull hargc).step_option hargc hsel ?_
    rw [h.words]
    exact hfull taken s.index h.reached

lemma Tracks.step_word (h : Tracks hex argc argv o taken s) (hin : s.index < argc)
    (hsel : selected argc s.index (strUpr (s.argv s.index)) = none) :
    Tracks hex argc argv o taken (optionStep hex argc s) ∧
      (optionStep hex argc s).index = u8 (s.index + 1) := by
  have hsel' := hsel
  rw [h.words] at hsel'
  rw [optionStep_word hsel]
  refine ⟨⟨h.reached.word hin hsel', words_update h.words, h.opcode, fun hfull hargc => ?_⟩, rfl⟩
  rw [← optionStep_word hsel]
  exact (h.straight hfull hargc).step_word hargc hin hsel

lemma optionLoop_succ (rounds : ℕ) (s : State) :
    optionLoop hex argc (rounds + 1) s =
      if atEnd argc (optionLoop hex argc rounds s) then optionLoop hex argc rounds s
      else optionStep hex argc (optionLoop hex argc rounds s) := by
  induction rounds generalizing s with
  | zero => rfl
  | succ rounds ih =>
    have hfirst : ∀ n, optionLoop hex argc (n + 1) s =
        if atEnd argc s then s else optionLoop hex argc n (optionStep hex argc s) := fun n => rfl
    rw [hfirst (rounds + 1), hfirst rounds]
    by_cases h : atEnd argc s = true
    · rw [if_pos h, if_pos h, if_pos h]
    · rw [if_neg h, if_neg h]
      exact ih (optionStep hex argc s)

/-- What every round keeps, every state of the loop has. -/
lemma optionLoop_inv {I : State → Prop} (h₀ : I s₀)
    (step : ∀ s, I s → s.index < argc → I (optionStep hex argc s)) (rounds : ℕ) :
    I (optionLoop hex argc rounds s₀) := by
  induction rounds with
  | zero => exact h₀
  | succ rounds ih =>
    rw [optionLoop_succ]
    by_cases h : atEnd argc (optionLoop hex argc rounds s₀) = true
    · rwa [if_pos h]
    · rw [if_neg h]
      rw [atEnd_iff] at h
      exact step _ ih (by omega)

/-- Each position that is reached, the loop comes to. -/
lemma Reached.loop (h₀ : Tracks hex argc argv o [] s₀) (hstart : s₀.index = 1) {i : ℕ}
    (h : Reached argc argv taken i) :
    ∃ rounds, Tracks hex argc argv o taken (optionLoop hex argc rounds s₀) ∧
      (optionLoop hex argc rounds s₀).index = i := by
  induction h with
  | start => exact ⟨0, h₀, hstart⟩
  | option before found ih =>
    obtain ⟨rounds, htr, rfl⟩ := ih
    have hend : ¬ atEnd argc (optionLoop hex argc rounds s₀) = true := by
      rw [atEnd_iff]
      have := (selected_some found).1
      omega
    refine ⟨rounds + 1, ?_⟩
    rw [optionLoop_succ, if_neg hend]
    rw [← htr.words] at found
    exact htr.step_option found
  | word before inside none ih =>
    obtain ⟨rounds, htr, rfl⟩ := ih
    have hend : ¬ atEnd argc (optionLoop hex argc rounds s₀) = true := by
      rw [atEnd_iff]
      omega
    refine ⟨rounds + 1, ?_⟩
    rw [optionLoop_succ, if_neg hend]
    rw [← htr.words] at none
    exact htr.step_word inside none

/-- One round reads the arguments there are. -/
lemma optionStep_inside (hin : s.index < argc)
    (hshort : ¬ Short argc (strUpr (s.argv s.index)) s.index) :
    ∀ i ∈ (optionStep hex argc s).reads, i ∈ s.reads ∨ i < argc := by
  intro i hi
  rcases hsel : selected argc s.index (strUpr (s.argv s.index)) with _ | arm
  · rw [optionStep_word hsel] at hi
    rcases List.mem_append.mp hi with hi | hi
    · exact Or.inl hi
    · rw [List.mem_singleton.mp hi]
      exact Or.inr hin
  · rw [optionStep_option hsel] at hi
    rcases List.mem_append.mp hi with hi | hi
    · exact Or.inl hi
    · obtain ⟨k, hk, rfl⟩ := List.mem_map.mp hi
      rw [List.mem_range] at hk
      rw [← selected_short hsel] at hshort
      exact Or.inr (by omega)

/-- At a short option it reads the element behind the last argument. -/
lemma optionStep_short (hshort : Short argc (strUpr (s.argv s.index)) s.index) :
    argc ∈ (optionStep hex argc s).reads := by
  obtain ⟨arm, hsel⟩ := short_selected hshort
  have hlast := (selected_short hsel).mpr hshort
  have hin := (selected_some hsel).1
  rw [optionStep_option hsel]
  refine List.mem_append_right _ (List.mem_map.mpr ⟨argc - s.index, ?_, by omega⟩)
  exact List.mem_range.mpr (by omega)

/-- With no short option the loop reads the arguments it has. -/
lemma optionLoop_reads (hfull : Full argc argv) (h₀ : Tracks hex argc argv o [] s₀)
    (hreads : ∀ i ∈ s₀.reads, i < argc) (rounds : ℕ) :
    (∃ taken, Tracks hex argc argv o taken (optionLoop hex argc rounds s₀)) ∧
      ∀ i ∈ (optionLoop hex argc rounds s₀).reads, i < argc := by
  refine optionLoop_inv (I := fun s => (∃ taken, Tracks hex argc argv o taken s) ∧
    ∀ i ∈ s.reads, i < argc) ⟨⟨[], h₀⟩, hreads⟩ ?_ rounds
  rintro s ⟨⟨taken, htr⟩, hr⟩ hin
  refine ⟨?_, fun i hi => ?_⟩
  · rcases hsel : selected argc s.index (strUpr (s.argv s.index)) with _ | arm
    · exact ⟨_, (htr.step_word hin hsel).1⟩
    · exact ⟨_, (htr.step_option hsel).1⟩
  · have hshort : ¬ Short argc (strUpr (s.argv s.index)) s.index := by
      rw [htr.words]
      exact hfull taken s.index htr.reached
    rcases optionStep_inside hin hshort i hi with hi | hi
    · exact hr i hi
    · exact hi

end Loop

/-! ### The routine -/

section Routine

variable {p : Platform} {m : Processors} {opcode i index : ℕ} {c : Context} {a action : Action}

/-- The processor that an action is about. -/
def processorOf : Action → Option ℕ
  | .startupThisAp processor _ => some processor
  | .location processor => some processor
  | _ => none

lemma mem_onProcessor (haction : processorOf action = none) (ha : a ∈ onProcessor m index action)
    (hi : processorOf a = some i) : i = index := by
  unfold onProcessor at ha
  simp only [List.mem_cons, List.not_mem_nil, or_false] at ha
  rcases ha with rfl | rfl
  · split_ifs at hi with h
    · rw [haction] at hi
      cases hi
    · exact (Option.some.inj hi).symm
  · exact (Option.some.inj hi).symm

lemma mem_onEachProcessor (haction : processorOf action = none)
    (ha : a ∈ onEachProcessor m action) (hi : processorOf a = some i) : i < m.processorNum := by
  unfold onEachProcessor at ha
  obtain ⟨index, hindex, ha⟩ := List.mem_flatMap.mp ha
  rw [mem_onProcessor haction ha hi]
  exact List.mem_range.mp hindex

lemma mem_memoryAccess (ha : a ∈ memoryAccess opcode c) : processorOf a = none := by
  unfold memoryAccess at ha
  dsimp only at ha
  split_ifs at ha <;> simp at ha <;> rw [ha] <;> rfl

/-- The routine keeps to the processors there are, but for the one that `-P` names. -/
lemma uefiToolRoutine_processors (ha : a ∈ uefiToolRoutine p m opcode c)
    (hi : processorOf a = some i) :
    i < m.processorNum ∨
      (opcode = OPCODE_RDMSR_BIT ||| OPCODE_PROCESSOR_INDEX_BIT ∧ i = c.processorIndex) := by
  have hone : ∀ {action}, processorOf action = none → a = action → False := fun h h' => by
    rw [h', h] at hi
    cases hi
  simp only [uefiToolRoutine, List.mem_append, List.mem_ite_nil_right, List.mem_ite_nil_left,
    List.mem_singleton] at ha
  rcases ha with (((((((((⟨-, h⟩ | ⟨-, h⟩) | ⟨-, h⟩) | ⟨-, h⟩) | ⟨-, h⟩) | ⟨ho, h⟩) | ⟨-, h⟩) |
    ⟨-, h⟩) | h) | ⟨-, h⟩) | ⟨-, (⟨-, h⟩ | ⟨-, h⟩) | ⟨-, h⟩⟩
  · exact (hone rfl h).elim
  · exact (hone rfl h).elim
  · exact (hone rfl h).elim
  · exact (hone rfl h).elim
  · exact (hone rfl h).elim
  · exact Or.inr ⟨ho, mem_onProcessor rfl h hi⟩
  · exact Or.inl (mem_onEachProcessor rfl h hi)
  · exact Or.inl (mem_onEachProcessor rfl h hi)
  · rw [mem_memoryAccess h] at hi
    cases hi
  · exact (hone rfl h).elim
  · exact Or.inl (mem_onEachProcessor rfl h hi)
  · exact Or.inl (mem_onEachProcessor rfl h hi)
  · exact Or.inl (mem_onEachProcessor rfl h hi)

lemma uefiToolRoutine_location (ho : opcode = OPCODE_RDMSR_BIT ||| OPCODE_PROCESSOR_INDEX_BIT) :
    .location c.processorIndex ∈ uefiToolRoutine p m opcode c := by
  simp [uefiToolRoutine, onProcessor, ho]

end Routine

/-! ### The tool -/

/-- The processors could be told, so that the option loop is entered. -/
structure Ready (p : Platform) : Prop where
  located : efiError p.locateProtocol = false
  counted : efiError p.getNumberOfProcessors.1 = false
  allocated : efiError (p.allocatePool p.getNumberOfProcessors.2) = false
  informed : ∀ i < p.getNumberOfProcessors.2, efiError (p.getProcessorInfo i) = false
  known : efiError p.whoAmI.1 = false

lemma getProcessorsCpuLocation_ok {p : Platform} {m : Processors} :
    getProcessorsCpuLocation p = .ok m ↔
      Ready p ∧ m = ⟨p.getNumberOfProcessors.2, p.whoAmI.2⟩ := by
  unfold getProcessorsCpuLocation
  dsimp only
  by_cases h₁ : efiError p.locateProtocol = true
  · rw [if_pos h₁]
    exact ⟨fun h => (by cases h), fun h => by rw [h.1.located] at h₁; cases h₁⟩
  by_cases h₂ : efiError p.getNumberOfProcessors.1 = true
  · rw [if_neg h₁, if_pos h₂]
    exact ⟨fun h => (by cases h), fun h => by rw [h.1.counted] at h₂; cases h₂⟩
  by_cases h₃ : efiError (p.allocatePool p.getNumberOfProcessors.2) = true
  · rw [if_neg h₁, if_neg h₂, if_pos h₃]
    exact ⟨fun h => (by cases h), fun h => by rw [h.1.allocated] at h₃; cases h₃⟩
  rw [if_neg h₁, if_neg h₂, if_neg h₃]
  cases hfind : (List.range p.getNumberOfProcessors.2).find?
      (fun index => efiError (p.getProcessorInfo index)) with
  | some index =>
    refine ⟨fun h => (by cases h), fun h => ?_⟩
    have herr := List.find?_some hfind
    rw [h.1.informed index (List.mem_range.mp (List.mem_of_find?_eq_some hfind))] at herr
    cases herr
  | none =>
    dsimp only
    by_cases h₅ : efiError p.whoAmI.1 = true
    · rw [if_pos h₅]
      exact ⟨fun h => (by cases h), fun h => by rw [h.1.known] at h₅; cases h₅⟩
    · rw [if_neg h₅, Except.ok.injEq]
      rw [Bool.not_eq_true] at h₁ h₂ h₃ h₅
      refine ⟨fun h => ⟨⟨h₁, h₂, h₃, fun i hi => ?_, h₅⟩, h.symm⟩, fun h => h.2.symm⟩
      simpa using List.find?_eq_none.mp hfind i (List.mem_range.mpr hi)

section Tool

variable (strHexToUintn : Str → ℕ) (p : Platform) (argc : ℕ) (argv : ℕ → Str)

/-- The tool reads the arguments and the table of processors inside their bounds, however long the
option loop runs. An option whose operands are missing is passed over like any other word. -/
structure Checked : Prop where
  arguments : ∀ rounds, ∀ i ∈ (shellAppMain strHexToUintn p argc argv rounds).reads, i < argc
  processors : ∀ rounds, ∀ a ∈ (shellAppMain strHexToUintn p argc argv rounds).actions, ∀ i,
    processorOf a = some i → i < p.getNumberOfProcessors.2
  skipped : ∀ m s₀, enterLoop p argc argv = .ok (m, s₀) → ∀ rounds,
    let s := optionLoop strHexToUintn argc rounds s₀
    s.index < argc → ∀ arm : Arm, strUpr (s.argv s.index) = arm.name →
      argc ≤ s.index + arm.operands →
        (optionStep strHexToUintn argc s).index = u8 (s.index + 1) ∧
          (optionStep strHexToUintn argc s).opcode = s.opcode ∧
          (optionStep strHexToUintn argc s).context = s.context

variable {strHexToUintn p argc argv}

lemma shellAppMain_error {status : Status} {reads : List ℕ}
    (h : enterLoop p argc argv = .error (status, reads)) (rounds : ℕ) :
    shellAppMain strHexToUintn p argc argv rounds = ⟨some status, reads, []⟩ := by
  unfold shellAppMain
  rw [h]

lemma shellAppMain_ok {m : Processors} {s₀ : State} (h : enterLoop p argc argv = .ok (m, s₀))
    (rounds : ℕ) :
    (shellAppMain strHexToUintn p argc argv rounds).reads =
        (optionLoop strHexToUintn argc rounds s₀).reads ∧
      (shellAppMain strHexToUintn p argc argv rounds).actions =
        if argc ≤ (optionLoop strHexToUintn argc rounds s₀).index then
          uefiToolRoutine p m (optionLoop strHexToUintn argc rounds s₀).opcode
            (optionLoop strHexToUintn argc rounds s₀).context
        else [] := by
  unfold shellAppMain
  rw [h]
  dsimp only
  by_cases hend : atEnd argc (optionLoop strHexToUintn argc rounds s₀) = true
  · rw [if_pos hend, if_pos (atEnd_iff.mp hend)]
    exact ⟨rfl, rfl⟩
  · rw [if_neg hend, if_neg fun hle => hend (atEnd_iff.mpr hle)]
    exact ⟨rfl, rfl⟩

lemma checked_of_error {status : Status} {reads : List ℕ}
    (h : enterLoop p argc argv = .error (status, reads)) (hreads : ∀ i ∈ reads, i < argc) :
    Checked strHexToUintn p argc argv := by
  refine ⟨fun rounds i hi => ?_, fun rounds a ha => ?_, fun m s₀ hok => ?_⟩
  · rw [shellAppMain_error h] at hi
    exact hreads i hi
  · rw [shellAppMain_error h] at ha
    cases ha
  · rw [h] at hok
    cases hok

/-- The processor that the routine is to read an MSR on is there. -/
def Known (strHexToUintn : Str → ℕ) (num argc : ℕ) (argv : ℕ → Str) (o : ℕ) : Prop :=
  ∀ taken i j, Reached argc argv taken i → argc ≤ i →
    o ||| opcodes taken = OPCODE_RDMSR_BIT ||| OPCODE_PROCESSOR_INDEX_BIT →
    lastProcessor taken = some j → strHexToUintn (argv (j + 1)) < num

/-- The loop keeps to its bounds when no option is short and the processor is known. -/
lemma checked_of_loop {m : Processors} {s₀ : State} {o : ℕ} {argv' : ℕ → Str}
    (h : enterLoop p argc argv = .ok (m, s₀)) (hm : m.processorNum = p.getNumberOfProcessors.2)
    (h₀ : Tracks strHexToUintn argc argv' o [] s₀) (hreads : ∀ i ∈ s₀.reads, i < argc)
    (ho : o.testBit 4 = false) (hfull : Full argc argv')
    (hknown : Known strHexToUintn p.getNumberOfProcessors.2 argc argv' o) :
    Checked strHexToUintn p argc argv := by
  refine ⟨fun rounds i hi => ?_, fun rounds a ha i hi => ?_, fun m' s' hok rounds => ?_⟩
  · rw [(shellAppMain_ok h rounds).1] at hi
    exact (optionLoop_reads hfull h₀ hreads rounds).2 i hi
  · obtain ⟨⟨taken, htr⟩, -⟩ := optionLoop_reads hfull h₀ hreads rounds
    rw [(shellAppMain_ok h rounds).2] at ha
    by_cases hend : argc ≤ (optionLoop strHexToUintn argc rounds s₀).index
    swap
    · rw [if_neg hend] at ha
      cases ha
    rw [if_pos hend] at ha
    rcases uefiToolRoutine_processors ha hi with hlt | ⟨hop, rfl⟩
    · rwa [← hm]
    · rw [htr.opcode] at hop
      -- the bit of `-P` is there, so that the option was taken
      have hbit := congrArg (fun n => n.testBit 4) hop
      simp only [Nat.testBit_or, ho, Bool.false_or] at hbit
      obtain ⟨j, hj⟩ := lastProcessor_of_testBit (hbit.trans (by decide))
      have hle := htr.reached.le_255
      rw [(htr.straight hfull (by omega)).processor j hj]
      exact hknown taken _ j htr.reached hend hop hj
  · rw [h] at hok
    cases hok
    obtain ⟨⟨taken, htr⟩, -⟩ := optionLoop_reads hfull h₀ hreads rounds
    intro s hin arm hname hmissing
    rcases hsel : selected argc s.index (strUpr (s.argv s.index)) with _ | arm'
    · rw [optionStep_word hsel]
      exact ⟨rfl, rfl, rfl⟩
    · obtain rfl : arm' = arm := Arm.name_injective ((selected_some hsel).2.symm.trans hname)
      have hshort := (selected_short hsel).mp hmissing
      rw [htr.words] at hshort
      exact absurd hshort (hfull taken s.index htr.reached)

/-- With at most one argument no option is taken. -/
lemma reached_small (hargc : argc ≤ 2)
    (hsel : argc = 2 → selected argc 1 (strUpr (argv 1)) = none) {taken : List (Arm × ℕ)} {i : ℕ}
    (h : Reached argc argv taken i) : taken = [] ∧ (i = 1 ∨ i = 2) := by
  induction h with
  | start => exact ⟨rfl, Or.inl rfl⟩
  | option before found ih =>
    obtain ⟨-, rfl | rfl⟩ := ih
    · have := (selected_some found).1
      rw [hsel (by omega)] at found
      cases found
    · have := (selected_some found).1
      omega
  | word before inside none ih =>
    obtain ⟨rfl, rfl | rfl⟩ := ih
    · exact ⟨rfl, Or.inr rfl⟩
    · omega

lemma small_full (argv : ℕ → Str) (hargc : argc ≤ 2)
    (hsel : argc = 2 → selected argc 1 (strUpr (argv 1)) = none) :
    Full argc argv ∧ ∀ o num, o ≠ OPCODE_RDMSR_BIT ||| OPCODE_PROCESSOR_INDEX_BIT →
      Known strHexToUintn num argc argv o := by
  refine ⟨fun taken i h hshort => ?_, fun o num ho taken i j h _ hop hj => ?_⟩
  · obtain ⟨arm, harm⟩ := short_selected hshort
    have hg := (selected_some harm).1
    obtain ⟨-, rfl | rfl⟩ := reached_small hargc hsel h
    · rw [hsel (by omega)] at harm
      cases harm
    · omega
  · obtain ⟨rfl, -⟩ := reached_small hargc hsel h
    rw [show o ||| opcodes [] = o from Nat.or_zero o] at hop
    exact absurd hop ho

lemma onlyArgument_ok {word : Str} {o : ℕ} (h : onlyArgument word = .ok o) :
    (∀ arm : Arm, word ≠ arm.name) ∧
      (o = OPCODE_SGDT_BIT ∨ o = OPCODE_CR_BIT ∨ o = OPCODE_UCODE_BIT) := by
  constructor
  · rintro arm rfl
    have hbad : onlyArgument arm.name = .error EFI_INVALID_PARAMETER := by cases arm <;> rfl
    rw [hbad] at h
    cases h
  · unfold onlyArgument at h
    split_ifs at h <;> cases h
    · exact Or.inl rfl
    · exact Or.inr (Or.inl rfl)
    · exact Or.inr (Or.inr rfl)

lemma enterLoop_error {status : Status} (h₁ : argc ≠ 1) (h₂ : argc ≠ 2)
    (hp : getProcessorsCpuLocation p = .error status) :
    enterLoop p argc argv = .error (status, []) := by
  simp only [enterLoop, if_neg h₁, if_neg h₂, hp]

lemma enterLoop_ok {m : Processors} (argv : ℕ → Str) (h₁ : argc ≠ 1) (h₂ : argc ≠ 2)
    (hp : getProcessorsCpuLocation p = .ok m) :
    enterLoop p argc argv = .ok (m, ⟨1, 0, { mmWidth := 4 }, argv, []⟩) := by
  simp only [enterLoop, if_neg h₁, if_neg h₂, hp]

lemma tracks_start (o : ℕ) (c : Context) (reads : List ℕ) :
    Tracks strHexToUintn argc argv o [] ⟨1, o, c, argv, reads⟩ :=
  ⟨.start, fun _ => rfl, (Nat.or_zero o).symm,
    fun _ _ => ⟨fun _ _ => rfl, fun i hi => by cases hi⟩⟩

/-- An only argument that is no flag is refused, and no flag is an option of the loop. -/
lemma checked_of_le_two (hargc : argc ≤ 2) : Checked strHexToUintn p argc argv := by
  by_cases h₁ : argc = 1
  · subst h₁
    have henter : enterLoop p 1 argv = .error (EFI_INVALID_PARAMETER, []) := rfl
    exact checked_of_error henter (by simp)
  by_cases h₂ : argc = 2
  swap
  · cases hp : getProcessorsCpuLocation p with
    | error status => exact checked_of_error (enterLoop_error h₁ h₂ hp) (by simp)
    | ok m =>
      obtain ⟨hfull, hknown⟩ := small_full argv hargc fun h => absurd h h₂
      exact checked_of_loop (enterLoop_ok argv h₁ h₂ hp)
        (by rw [(getProcessorsCpuLocation_ok.mp hp).2]) (tracks_start 0 _ []) (by simp) (by decide)
        hfull (hknown 0 _ (by decide))
  subst h₂
  cases ho : onlyArgument (strUpr (argv 1)) with
  | error status =>
    have henter : enterLoop p 2 argv = .error (status, [1]) := by simp [enterLoop, ho]
    exact checked_of_error henter (by simp)
  | ok opcode =>
    cases hp : getProcessorsCpuLocation p with
    | error status =>
      have henter : enterLoop p 2 argv = .error (status, [1]) := by simp [enterLoop, ho, hp]
      exact checked_of_error henter (by simp)
    | ok m =>
      have henter : enterLoop p 2 argv = .ok (m, ⟨1, opcode, { mmWidth := 4 },
          Function.update argv 1 (strUpr (argv 1)), [1]⟩) := by simp [enterLoop, ho, hp]
      obtain ⟨hnames, hflag⟩ := onlyArgument_ok ho
      have hsel : selected 2 1 (strUpr (Function.update argv 1 (strUpr (argv 1)) 1)) = none := by
        rw [Function.update_self, strUpr_strUpr]
        cases hsel : selected 2 1 (strUpr (argv 1)) with
        | none => rfl
        | some arm => exact absurd (selected_some hsel).2 (hnames arm)
      obtain ⟨hfull, hknown⟩ := small_full _ hargc fun _ => hsel
      refine checked_of_loop henter (by rw [(getProcessorsCpuLocation_ok.mp hp).2])
        (tracks_start opcode _ [1]) (by simp) ?_ hfull (hknown opcode _ ?_)
      · rcases hflag with rfl | rfl | rfl <;> decide
      · rcases hflag with rfl | rfl | rfl <;> decide

/-- **The option loop and the routine check what they read** exactly when no option that the loop
comes to is short, and a processor that is asked for by its number is there. A tool with one
argument or none reads neither past the arguments nor past the processors. -/
theorem shellAppMain_checked_iff (strHexToUintn : Str → ℕ) (p : Platform) (argc : ℕ)
    (argv : ℕ → Str) :
    Checked strHexToUintn p argc argv ↔ (2 < argc → Ready p →
      (∀ taken i, Reached argc argv taken i → ¬ Short argc (strUpr (argv i)) i) ∧
      ∀ taken i j, Reached argc argv taken i → argc ≤ i →
        opcodes taken = OPCODE_RDMSR_BIT ||| OPCODE_PROCESSOR_INDEX_BIT →
        lastProcessor taken = some j →
          strHexToUintn (argv (j + 1)) < p.getNumberOfProcessors.2) := by
  by_cases hargc : argc ≤ 2
  · exact ⟨fun _ h => absurd h (by omega), fun _ => checked_of_le_two hargc⟩
  have h₁ : argc ≠ 1 := by omega
  have h₂ : argc ≠ 2 := by omega
  have hzero : ∀ taken, 0 ||| opcodes taken = opcodes taken := fun taken => Nat.zero_or _
  constructor
  · intro hc _ hready
    have henter := enterLoop_ok argv h₁ h₂ (getProcessorsCpuLocation_ok.mpr ⟨hready, rfl⟩)
    have h₀ : Tracks strHexToUintn argc argv 0 [] ⟨1, 0, { mmWidth := 4 }, argv, []⟩ :=
      tracks_start 0 _ []
    have hfull : Full argc argv := by
      intro taken i hreach hshort
      obtain ⟨rounds, htr, rfl⟩ := hreach.loop h₀ rfl
      obtain ⟨arm, harm⟩ := short_selected hshort
      have hin := (selected_some harm).1
      rw [← htr.words] at hshort
      -- the next round reads the element behind the last argument
      have hread := hc.arguments (rounds + 1) argc
      rw [(shellAppMain_ok henter _).1, optionLoop_succ,
        if_neg (by rw [atEnd_iff]; omega)] at hread
      exact absurd (hread (optionStep_short hshort)) (lt_irrefl argc)
    refine ⟨hfull, fun taken i j hreach hend hop hj => ?_⟩
    have hle := hreach.le_255
    obtain ⟨rounds, htr, rfl⟩ := hreach.loop h₀ rfl
    rw [← (htr.straight hfull (by omega)).processor j hj]
    refine hc.processors rounds (.location _) ?_ _ rfl
    rw [(shellAppMain_ok henter rounds).2, if_pos hend]
    refine uefiToolRoutine_location ?_
    rw [htr.opcode, hzero, hop]
  · intro h
    cases hp : getProcessorsCpuLocation p with
    | error status => exact checked_of_error (enterLoop_error h₁ h₂ hp) (by simp)
    | ok m =>
      obtain ⟨hready, hm⟩ := getProcessorsCpuLocation_ok.mp hp
      obtain ⟨hfull, hknown⟩ := h (by omega) hready
      refine checked_of_loop (enterLoop_ok argv h₁ h₂ hp) (by rw [hm]) (tracks_start 0 _ [])
        (by simp) (by decide) hfull ?_
      intro taken i j hreach hend hop hj
      rw [hzero] at hop
      exact hknown taken i j hreach hend hop hj

end Tool

/-! ### Two command lines -/

/-- Two processors. -/
def samplePlatform : Platform where
  locateProtocol := 0
  getNumberOfProcessors := (0, 2)
  allocatePool _ := 0
  getProcessorInfo _ := 0
  whoAmI := (0, 0)
  saveFileToDisk _ _ _ := 0

/-- One hexadecimal digit. -/
def sampleHex : Str → ℕ
  | [c] => c.toNat - 0x30
  | _ => 0

def sampleArgv (words : List String) (i : ℕ) : Str := (words.map unicode).getD i []

/-- `-W` as the last argument is followed by a read of `Argv[Argc]`, and a third processor is
looked up in a table of two. -/
theorem shellAppMain_checked_last_option :
    ¬ Checked sampleHex samplePlatform 3 (sampleArgv ["UefiTool", "-A", "-W"]) ∧
      ¬ Checked sampleHex samplePlatform 5
        (sampleArgv ["UefiTool", "RDMSR", "1", "-P", "2"]) := by
  refine ⟨fun h => ?_, fun h => ?_⟩
  · exact absurd (h.arguments 2 3 (by decide)) (by decide)
  · refine absurd (h.processors 2 (.location 2) ?_ 2 rfl) (by decide)
    exact uefiToolRoutine_location (by decide)

end UefiToolkit.ToolBounds
