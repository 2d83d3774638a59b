import Mathlib

/-!
Requests carried out one after the other until one of them fails.

A request is answered, and changes the state. What is due next may depend on how much the requests
before it covered.
-/

namespace UefiToolkit.Requests

variable {σ ι ε : Type*}

/-- The state behind some requests. -/
def after (exec : σ → ι → ε × σ) (s : σ) (l : List ι) : σ := l.foldl (fun s q => (exec s q).2) s

/-- The answers to some requests. -/
def answers (exec : σ → ι → ε × σ) : σ → List ι → List ε
  | _, [] => []
  | s, q :: l => (exec s q).1 :: answers exec (exec s q).2 l

/-- How much some requests cover. -/
def total (size : ι → ℕ) (l : List ι) : ℕ := (l.map size).sum

/-- Each request is the one that is due when those before it cover so much. -/
def Due (size : ι → ℕ) (due : ℕ → ι → Prop) : ℕ → List ι → Prop
  | _, [] => True
  | covered, q :: l => due covered q ∧ Due size due (covered + size q) l

variable {exec : σ → ι → ε × σ} {size : ι → ℕ} {due due' : ℕ → ι → Prop} {l : List ι}

lemma after_append (exec : σ → ι → ε × σ) (s : σ) (l l' : List ι) :
    after exec s (l ++ l') = after exec (after exec s l) l' := List.foldl_append

lemma answers_append (exec : σ → ι → ε × σ) (s : σ) (l l' : List ι) :
    answers exec s (l ++ l') = answers exec s l ++ answers exec (after exec s l) l' := by
  induction l generalizing s with
  | nil => rfl
  | cons q l ih =>
    show _ :: answers exec (exec s q).2 (l ++ l') = _
    rw [ih]
    rfl

@[simp] lemma total_nil (size : ι → ℕ) : total size [] = 0 := rfl

@[simp] lemma total_cons (size : ι → ℕ) (q : ι) (l : List ι) :
    total size (q :: l) = size q + total size l := by simp [total]

lemma total_append (size : ι → ℕ) (l l' : List ι) :
    total size (l ++ l') = total size l + total size l' := by simp [total]

lemma due_append (covered : ℕ) (l l' : List ι) :
    Due size due covered (l ++ l') ↔
      Due size due covered l ∧ Due size due (covered + total size l) l' := by
  induction l generalizing covered with
  | nil => simp [Due]
  | cons q l ih => rw [List.cons_append, Due, Due, ih, total_cons, Nat.add_assoc, and_assoc]

lemma Due.snoc {q : ι} (h : Due size due 0 l) (hq : due (total size l) q) :
    Due size due 0 (l ++ [q]) :=
  (due_append 0 l [q]).mpr ⟨h, by rw [Nat.zero_add]; exact ⟨hq, trivial⟩⟩

lemma Due.imp {covered : ℕ} (himp : ∀ n q, due n q → due' n q) (h : Due size due covered l) :
    Due size due' covered l := by
  induction l generalizing covered with
  | nil => trivial
  | cons q l ih => exact ⟨himp covered q h.1, ih h.2⟩

lemma Due.forall {covered : ℕ} {P : ι → Prop} (himp : ∀ n q, due n q → P q)
    (h : Due size due covered l) : ∀ q ∈ l, P q := by
  induction l generalizing covered with
  | nil => simp
  | cons q l ih =>
    intro r hr
    rcases List.mem_cons.mp hr with rfl | hr
    · exact himp covered r h.1
    · exact ih h.2 r hr

/-! ### Until one fails -/

/-- The requests in `good` went well, and `failed` is the one behind them that did not, if there
is one; nothing else happened. -/
structure Carried (exec : σ → ι → ε × σ) (isError : ε → Bool) (s : σ) (good : List ι)
    (failed : Option ι) (answer : ε) (s' : σ) : Prop where
  went : ∀ answer ∈ answers exec s good, isError answer = false
  broke : ∀ q ∈ failed, answers exec (after exec s good) [q] = [answer]
  error_iff : isError answer = true ↔ failed.isSome = true
  state : s' = after exec s (good ++ failed.toList)

variable {isError : ε → Bool} {s s' : σ} {good : List ι} {answer : ε} {q : ι}

lemma Carried.refl (s : σ) (h : isError answer = false) :
    Carried exec isError s [] none answer s :=
  ⟨by simp [answers], by simp, by simp [h], rfl⟩

/-- A request that fails is the last one. -/
lemma Carried.fail (h : Carried exec isError s good none answer s')
    (herr : isError (exec s' q).1 = true) :
    Carried exec isError s good (some q) (exec s' q).1 (exec s' q).2 := by
  have hstate := h.state
  rw [Option.toList_none, List.append_nil] at hstate
  refine ⟨h.went, ?_, iff_of_true herr rfl, ?_⟩
  · rintro r ⟨⟩
    rw [hstate]
    rfl
  · rw [Option.toList_some, after_append, ← hstate]
    rfl

/-- A request that goes well is behind the others. -/
lemma Carried.succeed (h : Carried exec isError s good none answer s')
    (hok : isError (exec s' q).1 = false) :
    Carried exec isError s (good ++ [q]) none (exec s' q).1 (exec s' q).2 := by
  have hstate := h.state
  rw [Option.toList_none, List.append_nil] at hstate
  refine ⟨?_, by simp, by simp [hok], ?_⟩
  · intro answer ha
    rw [answers_append, ← hstate, List.mem_append] at ha
    rcases ha with ha | ha
    · exact h.went answer ha
    · rw [List.mem_singleton.mp ha]
      exact hok
  · rw [Option.toList_none, List.append_nil, after_append, ← hstate]
    rfl

end UefiToolkit.Requests
