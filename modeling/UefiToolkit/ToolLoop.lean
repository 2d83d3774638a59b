import UefiToolkit.ToolBounds

/-!
How long the option loop of `UefiTool` runs, and the words it looks up.

The positions go up from round to round as long as they fit in eight bits. No position is as
large as 256, and from 255 arguments on an option can lead back to the name of the program.
-/

namespace UefiToolkit.ToolLoop

open UefiToolkit.Word UefiToolkit.DiskModel UefiToolkit.ToolModel UefiToolkit.ToolBounds

section Loop

variable (hex : Str → ℕ) (argc : ℕ)

/-- The positions where an option word is looked up, in at most so many rounds. -/
def positions : ℕ → State → List ℕ
  | 0, _ => []
  | rounds + 1, s =>
    if atEnd argc s then [] else s.index :: positions rounds (optionStep hex argc s)

/-- The loop ends after a round for each argument at most; it looks up only arguments, and none
of them twice. -/
structure Once (s₀ : State) : Prop where
  ends : atEnd argc (optionLoop hex argc (argc - 1) s₀) = true
  inside : ∀ rounds, ∀ i ∈ positions hex argc rounds s₀, 1 ≤ i ∧ i < argc
  once : ∀ rounds, (positions hex argc rounds s₀).Nodup

variable {hex argc} {s s₀ : State} {argv : ℕ → Str} {taken : List (Arm × ℕ)} {o : ℕ}

lemma positions_succ (h : s.index < argc) (rounds : ℕ) :
    positions hex argc (rounds + 1) s =
      s.index :: positions hex argc rounds (optionStep hex argc s) := by
  have hend : ¬ atEnd argc s = true := by
    rw [atEnd_iff]
    omega
  rw [positions, if_neg hend]

lemma optionLoop_next (h : s.index < argc) (rounds : ℕ) :
    optionLoop hex argc (rounds + 1) s = optionLoop hex argc rounds (optionStep hex argc s) := by
  have hend : ¬ atEnd argc s = true := by
    rw [atEnd_iff]
    omega
  rw [optionLoop, if_neg hend]

/-- Where the loop has come to, a word is looked up next. -/
lemma mem_positions (rounds : ℕ) (s : State)
    (h : (optionLoop hex argc rounds s).index < argc) :
    (optionLoop hex argc rounds s).index ∈ positions hex argc (rounds + 1) s := by
  induction rounds generalizing s with
  | zero =>
    have hs : s.index < argc := h
    rw [positions_succ hs]
    exact List.mem_cons_self
  | succ rounds ih =>
    by_cases hs : s.index < argc
    · rw [optionLoop_next hs] at h ⊢
      rw [positions_succ hs]
      exact List.mem_cons_of_mem _ (ih _ h)
    · rw [optionLoop, if_pos (atEnd_iff.mpr (by omega))] at h
      omega

lemma optionStep_le_255 : (optionStep hex argc s).index ≤ 255 := by
  rcases hsel : selected argc s.index (strUpr (s.argv s.index)) with _ | arm
  · rw [optionStep_word hsel]
    exact Nat.le_of_lt_succ (Nat.mod_lt _ (by norm_num))
  · rw [optionStep_option hsel]
    exact Nat.le_of_lt_succ (Nat.mod_lt _ (by norm_num))

/-! ### Without a wrap-around -/

/-- So few arguments that no position wraps around, or one more and no short option. -/
def Fitting (argc : ℕ) (argv : ℕ → Str) : Prop := argc ≤ 255 ∧ (argc = 255 → Full argc argv)

lemma operands_le_lookAhead (arm : Arm) : arm.operands ≤ arm.lookAhead + 1 := by
  cases arm <;> decide

/-- A round goes to a later position, and keeps track of the options. -/
lemma optionStep_later (hfit : Fitting argc argv) (h : Tracks hex argc argv o taken s)
    (hin : s.index < argc) :
    s.index < (optionStep hex argc s).index ∧
      ∃ taken', Tracks hex argc argv o taken' (optionStep hex argc s) := by
  obtain ⟨hle, hfull⟩ := hfit
  rcases hsel : selected argc s.index (strUpr (s.argv s.index)) with _ | arm
  · obtain ⟨htr, hindex⟩ := h.step_word hin hsel
    refine ⟨?_, taken, htr⟩
    have hwrap : u8 (s.index + 1) = s.index + 1 := Nat.mod_eq_of_lt (by omega)
    rw [hindex, hwrap]
    omega
  · obtain ⟨htr, hindex⟩ := h.step_option hsel
    refine ⟨?_, _, htr⟩
    have hlook := (selected_some hsel).1
    have hoperands := operands_le_lookAhead arm
    have hsmall : s.index + arm.operands < 255 := by
      by_cases h255 : argc = 255
      · have hshort := hfull h255 taken s.index h.reached
        rw [← h.words, ← selected_short hsel] at hshort
        omega
      · omega
    have hwrap : u8 (s.index + (arm.operands + 1)) = s.index + (arm.operands + 1) :=
      Nat.mod_eq_of_lt (by omega)
    rw [hindex, hwrap]
    omega

/-- From any position on, the loop ends within the arguments that are left. -/
lemma optionLoop_ends (hfit : Fitting argc argv) (rounds : ℕ) (s : State) (taken : List (Arm × ℕ))
    (h : Tracks hex argc argv o taken s) (hleft : argc ≤ s.index + rounds) :
    atEnd argc (optionLoop hex argc rounds s) = true := by
  induction rounds generalizing s taken with
  | zero => exact atEnd_iff.mpr hleft
  | succ rounds ih =>
    by_cases hin : s.index < argc
    · obtain ⟨hlater, taken', htr⟩ := optionStep_later hfit h hin
      rw [optionLoop_next hin]
      exact ih _ taken' htr (by omega)
    · have hend := atEnd_iff.mpr (by omega : argc ≤ s.index)
      rwa [optionLoop, if_pos hend]

/-- The positions go up. -/
lemma positions_pairwise (hfit : Fitting argc argv) (rounds : ℕ) (s : State)
    (taken : List (Arm × ℕ)) (h : Tracks hex argc argv o taken s) :
    (∀ i ∈ positions hex argc rounds s, s.index ≤ i ∧ i < argc) ∧
      (positions hex argc rounds s).Pairwise (· < ·) := by
  induction rounds generalizing s taken with
  | zero => exact ⟨by simp [positions], List.Pairwise.nil⟩
  | succ rounds ih =>
    by_cases hin : s.index < argc
    · obtain ⟨hlater, taken', htr⟩ := optionStep_later hfit h hin
      obtain ⟨hrange, hpairwise⟩ := ih _ taken' htr
      rw [positions_succ hin]
      refine ⟨fun i hi => ?_, List.pairwise_cons.mpr ⟨fun i hi => ?_, hpairwise⟩⟩
      · rcases List.mem_cons.mp hi with rfl | hi
        · exact ⟨le_rfl, hin⟩
        · have := hrange i hi
          omega
      · have := hrange i hi
        omega
    · rw [positions, if_pos (atEnd_iff.mpr (by omega))]
      exact ⟨by simp, List.Pairwise.nil⟩

/-! ### With one -/

/-- A short option among 255 arguments is followed by the name of the program. -/
lemma optionStep_short_wraps (hargc : argc = 255)
    (hshort : Short argc (strUpr (s.argv s.index)) s.index) :
    (optionStep hex argc s).index = 0 := by
  obtain ⟨arm, hsel⟩ := short_selected hshort
  obtain ⟨hlook, hname⟩ := selected_some hsel
  have hlast := (selected_short hsel).mpr hshort
  have hoperands := operands_le_lookAhead arm
  have hwrap : s.index + (arm.operands + 1) = 2 ^ 8 := by omega
  rw [optionStep_option hsel]
  dsimp only
  rw [hwrap]
  rfl

/-- **The option loop ends, each word looked up at most once**, exactly when there are at most
255 arguments, and among 255 no `-WMM`, `-WT` or `-W` is reached whose last operand is missing.
From 256 arguments on it does not end at all. -/
theorem optionLoop_once_iff (hex : Str → ℕ) (argc : ℕ) (argv : ℕ → Str) (o : ℕ) (c : Context)
    (reads : List ℕ) (hargc : 2 ≤ argc) :
    Once hex argc ⟨1, o, c, argv, reads⟩ ↔ argc ≤ 255 ∧ (argc = 255 →
      ∀ taken i, Reached argc argv taken i → ¬ Short argc (strUpr (argv i)) i) := by
  have h₀ : Tracks hex argc argv o [] ⟨1, o, c, argv, reads⟩ := tracks_start o c reads
  constructor
  · rintro ⟨hends, hinside, -⟩
    have hle : ∀ rounds, (optionLoop hex argc rounds ⟨1, o, c, argv, reads⟩).index ≤ 255 :=
      optionLoop_inv (I := fun s => s.index ≤ 255) (by norm_num) fun s _ _ => optionStep_le_255
    have h255 : argc ≤ 255 := (atEnd_iff.mp hends).trans (hle _)
    refine ⟨h255, fun heq taken i hreach hshort => ?_⟩
    obtain ⟨rounds, htr, hindex⟩ := hreach.loop h₀ rfl
    rw [← hindex, ← htr.words] at hshort
    obtain ⟨arm, hsel⟩ := short_selected hshort
    have hin := (selected_some hsel).1
    -- the round after the short option is at position 0
    have hzero : (optionLoop hex argc (rounds + 1) ⟨1, o, c, argv, reads⟩).index = 0 := by
      rw [optionLoop_succ, if_neg (by rw [atEnd_iff]; omega)]
      exact optionStep_short_wraps heq hshort
    have hmem := mem_positions (rounds + 1) ⟨1, o, c, argv, reads⟩ (by rw [hzero]; omega)
    rw [hzero] at hmem
    have := hinside _ 0 hmem
    omega
  · intro hfit
    refine ⟨optionLoop_ends hfit _ _ [] h₀ (by dsimp only; omega), fun rounds i hi => ?_,
      fun rounds => ?_⟩
    · exact (positions_pairwise hfit rounds _ [] h₀).1 i hi
    · exact (positions_pairwise hfit rounds _ [] h₀).2.imp fun h => ne_of_lt h

end Loop

/-! ### Two command lines -/

/-- Any 256 arguments keep the loop running. -/
theorem optionLoop_256 :
    ¬ Once sampleHex 256 ⟨1, 0, { mmWidth := 4 }, fun _ => unicode "-A", []⟩ := by
  intro h
  have hle : ∀ rounds, (optionLoop sampleHex 256 rounds
      ⟨1, 0, { mmWidth := 4 }, fun _ => unicode "-A", []⟩).index ≤ 255 :=
    optionLoop_inv (I := fun s => s.index ≤ 255) (by norm_num) fun s _ _ => optionStep_le_255
  have hend := atEnd_iff.mp h.ends
  have := hle (256 - 1)
  omega

theorem optionLoop_once_sample :
    Once sampleHex 5 ⟨1, 0, { mmWidth := 4 },
      sampleArgv ["UefiTool", "WRMSR", "1", "2", "-A"], []⟩ :=
  (optionLoop_once_iff sampleHex 5 (sampleArgv ["UefiTool", "WRMSR", "1", "2", "-A"]) 0
    { mmWidth := 4 } [] (by decide)).mpr ⟨by decide, fun h => absurd h (by decide)⟩

end UefiToolkit.ToolLoop
