import Mathlib

/-!
Loops and runs that may fail.

A loop whose bound is not in sight is run with a budget of rounds and answers `none` when
the budget does not suffice, so that "the loop ends" is a statement one can prove. A run
feeds a list of inputs to a step, one after the other.
-/

namespace UefiToolkit.Loop

variable {σ τ ι : Type*}

/-- `while (cond) body`, at most `fuel` rounds. -/
def whileFuel (cond : σ → Bool) (body : σ → Option σ) : ℕ → σ → Option σ
  | 0, s => if cond s then none else some s
  | fuel + 1, s => if cond s then (body s).bind (whileFuel cond body fuel) else some s

variable {cond : σ → Bool} {body : σ → Option σ}

lemma whileFuel_done {s : σ} (h : cond s = false) (fuel : ℕ) :
    whileFuel cond body fuel s = some s := by
  cases fuel <;> simp [whileFuel, h]

lemma whileFuel_step {s s' : σ} (h : cond s = true) (hb : body s = some s') (fuel : ℕ) :
    whileFuel cond body (fuel + 1) s = whileFuel cond body fuel s' := by
  simp [whileFuel, h, hb]

/-- A loop of one round. -/
lemma whileFuel_once {s s' : σ} (h : cond s = true) (hb : body s = some s')
    (h' : cond s' = false) {fuel : ℕ} (hf : 0 < fuel) :
    whileFuel cond body fuel s = some s' := by
  obtain ⟨n, rfl⟩ : ∃ n, fuel = n + 1 := ⟨fuel - 1, by omega⟩
  rw [whileFuel_step h hb, whileFuel_done h']

/-- **The loop rule**: an invariant, and a measure every round makes smaller. -/
theorem whileFuel_spec (cond : σ → Bool) (body : σ → Option σ) {I : σ → Prop} {μ : σ → ℕ}
    (step : ∀ s, I s → cond s = true → ∃ s', body s = some s' ∧ I s' ∧ μ s' < μ s)
    (fuel : ℕ) (s : σ) (hI : I s) (hfuel : μ s ≤ fuel) :
    ∃ s', whileFuel cond body fuel s = some s' ∧ I s' ∧ cond s' = false := by
  induction fuel generalizing s with
  | zero =>
    rcases hc : cond s with _ | _
    · exact ⟨s, whileFuel_done hc 0, hI, hc⟩
    · obtain ⟨s', -, -, hlt⟩ := step s hI hc
      omega
  | succ fuel ih =>
    rcases hc : cond s with _ | _
    · exact ⟨s, whileFuel_done hc _, hI, hc⟩
    · obtain ⟨s', hb, hI', hlt⟩ := step s hI hc
      obtain ⟨t, ht, hIt, hct⟩ := ih s' hI' (by omega)
      exact ⟨t, by rw [whileFuel_step hc hb, ht], hIt, hct⟩

/-- What every round keeps holds when the loop ends, if it does. -/
lemma whileFuel_inv {I : σ → Prop} (step : ∀ s s', I s → cond s = true → body s = some s' → I s')
    {fuel : ℕ} {s s' : σ} (h : whileFuel cond body fuel s = some s') (hI : I s) : I s' := by
  induction fuel generalizing s with
  | zero =>
    rcases hc : cond s with _ | _
    · rw [whileFuel_done hc] at h
      exact Option.some.inj h ▸ hI
    · simp [whileFuel, hc] at h
  | succ fuel ih =>
    rcases hc : cond s with _ | _
    · rw [whileFuel_done hc] at h
      exact Option.some.inj h ▸ hI
    · rw [whileFuel, if_pos hc, Option.bind_eq_some_iff] at h
      obtain ⟨t, hb, ht⟩ := h
      exact ih ht (step s t hI hc hb)

/-- A loop ends where its condition fails. -/
lemma whileFuel_exit {fuel : ℕ} {s s' : σ} (h : whileFuel cond body fuel s = some s') :
    cond s' = false := by
  induction fuel generalizing s with
  | zero =>
    rcases hc : cond s with _ | _
    · rw [whileFuel_done hc] at h
      exact Option.some.inj h ▸ hc
    · simp [whileFuel, hc] at h
  | succ fuel ih =>
    rcases hc : cond s with _ | _
    · rw [whileFuel_done hc] at h
      exact Option.some.inj h ▸ hc
    · rw [whileFuel, if_pos hc, Option.bind_eq_some_iff] at h
      obtain ⟨t, -, ht⟩ := h
      exact ih ht

/-- A loop that keeps its condition ends under no bound. -/
lemma whileFuel_never {I : σ → Prop}
    (step : ∀ s, I s → cond s = true ∧ ∃ s', body s = some s' ∧ I s') (fuel : ℕ) {s : σ}
    (hI : I s) : whileFuel cond body fuel s = none := by
  induction fuel generalizing s with
  | zero => rw [whileFuel, if_pos (step s hI).1]
  | succ fuel ih =>
    obtain ⟨hc, s', hb, hI'⟩ := step s hI
    rw [whileFuel_step hc hb]
    exact ih hI'

/-! ### Runs -/

/-- The state after a list of inputs. -/
def run (step : σ → ι → Option σ) : σ → List ι → Option σ
  | s, [] => some s
  | s, i :: is => (step s i).bind fun s' => run step s' is

variable {step : σ → ι → Option σ}

@[simp] lemma run_nil (s : σ) : run step s [] = some s := rfl

lemma run_cons {s s' : σ} {i : ι} (h : step s i = some s') (is : List ι) :
    run step s (i :: is) = run step s' is := by
  simp [run, h]

/-- **Simulation**: a step that follows an abstract step follows it over every run. -/
theorem run_sim (step : σ → ι → Option σ) (spec : τ → ι → τ) {R : σ → τ → Prop} (ok : ι → Prop)
    (h : ∀ s t i, R s t → ok i → ∃ s', step s i = some s' ∧ R s' (spec t i))
    {s : σ} {t : τ} (hR : R s t) (is : List ι) (hok : ∀ i ∈ is, ok i) :
    ∃ s', run step s is = some s' ∧ R s' (is.foldl spec t) := by
  induction is generalizing s t with
  | nil => exact ⟨s, rfl, hR⟩
  | cons i is ih =>
    obtain ⟨s', hs, hR'⟩ := h s t i hR (hok i (by simp))
    obtain ⟨s'', hs', hR''⟩ := ih hR' fun j hj => hok j (by simp [hj])
    exact ⟨s'', by rw [run_cons hs, hs'], hR''⟩

/-- **The run rule**: what every step keeps holds at the end of a run. -/
theorem run_inv (step : σ → ι → Option σ) {I : σ → Prop}
    (h : ∀ s s' i, I s → step s i = some s' → I s') {s s' : σ} {is : List ι} (hI : I s)
    (hrun : run step s is = some s') : I s' := by
  induction is generalizing s with
  | nil => exact Option.some.inj hrun ▸ hI
  | cons i is ih =>
    rw [run, Option.bind_eq_some_iff] at hrun
    obtain ⟨t, ht, hrest⟩ := hrun
    exact ih (h s t i hI ht) hrest

/-- A run takes only inputs that some step takes. -/
lemma run_forall (step : σ → ι → Option σ) {ok : ι → Prop}
    (h : ∀ s s' i, step s i = some s' → ok i) {s s' : σ} {is : List ι}
    (hrun : run step s is = some s') : ∀ i ∈ is, ok i := by
  induction is generalizing s with
  | nil => simp
  | cons i is ih =>
    rw [run, Option.bind_eq_some_iff] at hrun
    obtain ⟨t, ht, hrest⟩ := hrun
    intro j hj
    rcases List.mem_cons.mp hj with rfl | hj
    · exact h s t j ht
    · exact ih hrest j hj

end UefiToolkit.Loop
