import Mathlib

/-!
Computations on a state that an error may end; what they had made of the state by then stays.

A judgement says what holds of the value and the state when a computation comes to its end, and
what holds of the error and the state when it does not. A computation mirrors another one if it does
the same on states that carry more.
-/

namespace UefiToolkit.Effect

variable {σ τ ε α β ι : Type}

/-- A value or an error, and a state either way. -/
def Eff (σ ε α : Type) := σ → Except ε α × σ

instance : Monad (Eff σ ε) where
  pure a := fun s => (.ok a, s)
  bind x f := fun s =>
    match x s with
    | (.ok a, s') => f a s'
    | (.error e, s') => (.error e, s')

def fail (e : ε) : Eff σ ε α := fun s => (.error e, s)

def get : Eff σ ε σ := fun s => (.ok s, s)

def modify (f : σ → σ) : Eff σ ε Unit := fun s => (.ok (), f s)

/-- An operation that answers and goes to another state. -/
def act (f : σ → α × σ) : Eff σ ε α := fun s => (.ok (f s).1, (f s).2)

/-- One computation for each element of a list. -/
def each (l : List ι) (body : ι → Eff σ ε Unit) : Eff σ ε Unit :=
  match l with
  | [] => pure ()
  | i :: l => body i >>= fun _ => each l body

/-! ### Running -/

@[simp] lemma run_pure (a : α) (s : σ) : (pure a : Eff σ ε α) s = (.ok a, s) := rfl

@[simp] lemma run_fail (e : ε) (s : σ) : (fail e : Eff σ ε α) s = (.error e, s) := rfl

@[simp] lemma run_get (s : σ) : (get : Eff σ ε σ) s = (.ok s, s) := rfl

@[simp] lemma run_modify (f : σ → σ) (s : σ) : (modify f : Eff σ ε Unit) s = (.ok (), f s) := rfl

@[simp] lemma run_act (f : σ → α × σ) (s : σ) :
    (act f : Eff σ ε α) s = (.ok (f s).1, (f s).2) := rfl

lemma run_bind_ok {x : Eff σ ε α} {f : α → Eff σ ε β} {s s' : σ} {a : α} (h : x s = (.ok a, s')) :
    (x >>= f) s = f a s' := by
  show (match x s with
    | (.ok a, s') => f a s'
    | (.error e, s') => (.error e, s')) = _
  rw [h]

lemma run_bind_error {x : Eff σ ε α} {f : α → Eff σ ε β} {s s' : σ} {e : ε}
    (h : x s = (.error e, s')) : (x >>= f) s = (.error e, s') := by
  show (match x s with
    | (.ok a, s') => f a s'
    | (.error e, s') => (.error e, s')) = _
  rw [h]

/-! ### Judgements -/

/-- From a state with `P` the computation ends with `Q`, or in an error with `E`. -/
structure Holds (P : σ → Prop) (x : Eff σ ε α) (Q : α → σ → Prop) (E : ε → σ → Prop) : Prop where
  ok : ∀ {s a s'}, P s → x s = (.ok a, s') → Q a s'
  error : ∀ {s e s'}, P s → x s = (.error e, s') → E e s'

variable {P P' : σ → Prop} {Q Q' : α → σ → Prop} {E E' : ε → σ → Prop}

lemma Holds.pure {a : α} (h : ∀ s, P s → Q a s) : Holds P (Pure.pure a) Q E where
  ok hP hrun := by cases hrun; exact h _ hP
  error _ hrun := by cases hrun

lemma Holds.fail {e : ε} (h : ∀ s, P s → E e s) : Holds P (fail e) Q E where
  ok _ hrun := by cases hrun
  error hP hrun := by cases hrun; exact h _ hP

lemma Holds.modify {Q : Unit → σ → Prop} {f : σ → σ} (h : ∀ s, P s → Q () (f s)) :
    Holds P (modify f) Q E where
  ok hP hrun := by cases hrun; exact h _ hP
  error _ hrun := by cases hrun

lemma Holds.act {f : σ → α × σ} (h : ∀ s, P s → Q (f s).1 (f s).2) : Holds P (act f) Q E where
  ok hP hrun := by cases hrun; exact h _ hP
  error _ hrun := by cases hrun

/-- **The rule of composition.** -/
theorem Holds.bind {R : β → σ → Prop} {x : Eff σ ε α} {f : α → Eff σ ε β} (hx : Holds P x Q E)
    (hf : ∀ a, Holds (Q a) (f a) R E) : Holds P (x >>= f) R E where
  ok {s b s'} hP hrun := by
    rcases hx' : x s with ⟨e | a, t⟩
    · rw [run_bind_error hx'] at hrun
      cases hrun
    · rw [run_bind_ok hx'] at hrun
      exact (hf a).ok (hx.ok hP hx') hrun
  error {s e s'} hP hrun := by
    rcases hx' : x s with ⟨e' | a, t⟩
    · rw [run_bind_error hx'] at hrun
      cases hrun
      exact hx.error hP hx'
    · rw [run_bind_ok hx'] at hrun
      exact (hf a).error (hx.ok hP hx') hrun

/-- What follows may look at the state. -/
theorem Holds.bind_get {f : σ → Eff σ ε α} (hf : ∀ t, P t → Holds (fun s => s = t) (f t) Q E) :
    Holds P (get >>= f) Q E where
  ok hP hrun := (hf _ hP).ok rfl hrun
  error hP hrun := (hf _ hP).error rfl hrun

lemma Holds.imp {x : Eff σ ε α} (h : Holds P x Q E) (hP : ∀ s, P' s → P s)
    (hQ : ∀ a s, Q a s → Q' a s) (hE : ∀ e s, E e s → E' e s) : Holds P' x Q' E' where
  ok hp hrun := hQ _ _ (h.ok (hP _ hp) hrun)
  error hp hrun := hE _ _ (h.error (hP _ hp) hrun)

lemma Holds.pre {x : Eff σ ε α} (h : Holds P x Q E) (hP : ∀ s, P' s → P s) : Holds P' x Q E :=
  h.imp hP (fun _ _ hq => hq) fun _ _ he => he

lemma Holds.ite {p : Prop} [Decidable p] {x y : Eff σ ε α} (hx : p → Holds P x Q E)
    (hy : ¬p → Holds P y Q E) : Holds P (if p then x else y) Q E := by
  split_ifs with h
  · exact hx h
  · exact hy h

/-- **The rule for lists**: an invariant of every round, over what is done so far. -/
theorem Holds.each {I : List ι → σ → Prop} {body : ι → Eff σ ε Unit} {l : List ι}
    (done : List ι) (h : ∀ done i, i ∈ l → Holds (I done) (body i) (fun _ => I (done ++ [i])) E) :
    Holds (I done) (each l body) (fun _ => I (done ++ l)) E := by
  induction l generalizing done with
  | nil => exact Holds.pure fun s hs => by simpa using hs
  | cons i l ih =>
    refine Holds.bind (h done i (List.mem_cons_self ..)) fun _ => ?_
    have hrest := ih (done ++ [i]) fun done j hj => h done j (List.mem_cons_of_mem _ hj)
    rwa [List.append_assoc] at hrest

/-! ### States that carry more -/

/-- `x` does what `y` does, on states that carry more. -/
def Mirrors (p : τ → σ) (x : Eff τ ε α) (y : Eff σ ε α) : Prop :=
  ∀ t, y (p t) = ((x t).1, p (x t).2)

variable {p : τ → σ}

lemma Mirrors.pure {a : α} : Mirrors p (Pure.pure a : Eff τ ε α) (Pure.pure a) := fun _ => rfl

lemma Mirrors.fail {e : ε} : Mirrors p (fail e : Eff τ ε α) (fail e) := fun _ => rfl

lemma Mirrors.modify {f : τ → τ} {g : σ → σ} (h : ∀ t, g (p t) = p (f t)) :
    Mirrors p (modify f : Eff τ ε Unit) (modify g) := fun t => by
  rw [run_modify, run_modify, h]

lemma Mirrors.act {f : τ → α × τ} {g : σ → α × σ} (h : ∀ t, g (p t) = ((f t).1, p (f t).2)) :
    Mirrors p (act f : Eff τ ε α) (act g) := fun t => by
  rw [run_act, run_act, h]

/-- **The rule of composition.** -/
theorem Mirrors.bind {x : Eff τ ε α} {y : Eff σ ε α} {f : α → Eff τ ε β} {g : α → Eff σ ε β}
    (hx : Mirrors p x y) (hf : ∀ a, Mirrors p (f a) (g a)) : Mirrors p (x >>= f) (y >>= g) := by
  intro t
  have ht := hx t
  rcases hr : x t with ⟨e | a, t'⟩
  · rw [hr] at ht
    rw [run_bind_error ht, run_bind_error hr]
  · rw [hr] at ht
    rw [run_bind_ok ht, run_bind_ok hr]
    exact hf a t'

/-- What follows looks at no more than both states have. -/
lemma Mirrors.bind_get {f : τ → Eff τ ε α} {g : σ → Eff σ ε α}
    (h : ∀ t, Mirrors p (f t) (g (p t))) : Mirrors p (get >>= f) (get >>= g) := fun t => h t t

lemma Mirrors.ite {q : Prop} [Decidable q] {x x' : Eff τ ε α} {y y' : Eff σ ε α}
    (hx : q → Mirrors p x y) (hy : ¬q → Mirrors p x' y') :
    Mirrors p (if q then x else x') (if q then y else y') := by
  split_ifs with h
  · exact hx h
  · exact hy h

lemma Mirrors.each {f : ι → Eff τ ε Unit} {g : ι → Eff σ ε Unit} {l : List ι}
    (h : ∀ i, Mirrors p (f i) (g i)) : Mirrors p (each l f) (each l g) := by
  induction l with
  | nil => exact .pure
  | cons i l ih => exact .bind (h i) fun _ => ih

end UefiToolkit.Effect
