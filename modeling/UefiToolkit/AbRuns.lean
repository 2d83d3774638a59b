import UefiToolkit.AbFlow

/-!
The life of a device with two slots: it is started and its slots are marked, in any order, while
anything but the reads of the metadata may fail.
-/

namespace UefiToolkit.AbRuns

open UefiToolkit.AvbModel UefiToolkit.AvbTypes UefiToolkit.Requests UefiToolkit.AbModel
open UefiToolkit.AbCalls UefiToolkit.AbPolicy UefiToolkit.AbFlow

variable {σ : Type}

/-- A start with its verification, or a mark; each finds something on its stack. -/
inductive Request (σ : Type)
  | start (verify : SlotVerify σ) (allow : Bool) (stack : AvbABData × AvbABData)
  | active (n : Fin 2) (stack : AvbABData × AvbABData)
  | unbootable (n : Fin 2) (stack : AvbABData × AvbABData)
  | successful (n : Fin 2) (stack : AvbABData × AvbABData)

inductive Answer
  | started (r : Option (AvbABFlowResult × Option AvbSlotVerifyData))
  | marked (r : AvbIOResult)

def perform (ops : AvbOps σ) (env : σ) : Request σ → Answer × σ
  | .start verify allow stack =>
    let (r, env) := avbAbFlow ops verify allow stack env
    (.started r, env)
  | .active n stack =>
    let (r, env) := avbAbMarkSlotActive ops n stack env
    (.marked r, env)
  | .unbootable n stack =>
    let (r, env) := avbAbMarkSlotUnbootable ops n stack env
    (.marked r, env)
  | .successful n stack =>
    let (r, env) := avbAbMarkSlotSuccessful ops n stack env
    (.marked r, env)

/-- The requests with what each was answered. -/
def outcomes (ops : AvbOps σ) (env : σ) (l : List (Request σ)) : List (Request σ × Answer) :=
  l.zip (answers (perform ops) env l)

/-- A request with its answer, and the calls if it is a start. -/
structure Event (σ : Type) where
  request : Request σ
  answer : Answer
  calls : List (Call σ)

def event (ops : AvbOps σ) (env : σ) (q : Request σ) : Event σ where
  request := q
  answer := (perform ops env q).1
  calls :=
    match q with
    | .start verify allow stack => calls ops verify allow stack env
    | _ => []

/-- What happens as the requests are made one after the other. -/
def history (ops : AvbOps σ) (env : σ) : List (Request σ) → List (Event σ)
  | [] => []
  | q :: l => event ops env q :: history ops (perform ops env q).2 l

/-- The slot `n` was booted. -/
def booted (n : Fin 2) : Request σ × Answer → Bool
  | (.start _ _ _, .started (some (_, some data))) => decide (data.abSuffix = slotSuffixes n)
  | _ => false

/-- The slot `n` was made active. -/
def activated (n : Fin 2) : Request σ × Answer → Bool
  | (.active k _, .marked .ok) => decide (k = n)
  | _ => false

/-- A verification leaves the metadata alone, and gives the data of the slot it was asked for. -/
def Sound (content : σ → List UInt8) : Request σ → Prop
  | .start verify _ _ => Reads content verify ∧
      ∀ n env data, (verify n env).1.2 = some data → data.abSuffix = slotSuffixes n
  | _ => True

/-- A call of a start verifies the slot `n` and drops it. -/
def Drops (n : Fin 2) (e : Event σ) : Prop :=
  match e.request with
  | .start verify allow _ => Rejected verify allow e.calls n
  | _ => False

/-- What a request did to the slots. -/
def moveOf : Request σ × Answer → Move
  | (.start _ _ _, .started (some (_, some data))) =>
    .boot (slotOfSuffix data.abSuffix)
  | (.active n _, .marked .ok) => .active n
  | (.unbootable n _, .marked .ok) => .unbootable n
  | (.successful n _, .marked .ok) => .successful n
  | _ => .idle

lemma slotOfSuffix_slotSuffixes (n : Fin 2) : slotOfSuffix (slotSuffixes n) = n := by
  fin_cases n <;> rfl

lemma moveOf_started {verify : SlotVerify σ} {allow : Bool} {stack : AvbABData × AvbABData}
    {ret : AvbABFlowResult} {data : AvbSlotVerifyData} {n : Fin 2}
    (h : data.abSuffix = slotSuffixes n) :
    moveOf (.start verify allow stack, .started (some (ret, some data))) = .boot n := by
  rw [moveOf, h, slotOfSuffix_slotSuffixes]

/-- What a mark did tells which one it was. -/
lemma moveOf_marked {q : Request σ} {a : Answer} {n : Fin 2} :
    (moveOf (q, a) = .active n → a = .marked .ok ∧ ∃ stack, q = .active n stack) ∧
      (moveOf (q, a) = .unbootable n → ∃ stack, q = .unbootable n stack) ∧
      (moveOf (q, a) = .successful n → ∃ stack, q = .successful n stack) := by
  unfold moveOf
  split
  all_goals simp_all

section Device

variable {ops : AvbOps σ} {content : σ → List UInt8} (dev : MiscStore ops content)

include dev

lemma mark_step {good : Fin 2 → Prop} {q : Request σ} {m : Move} (change : Slots → Slots)
    (hq : ∀ r, moveOf (q, .marked r) = if r = .ok then m else .idle)
    (hm : ∀ slots, Step good slots m (change (normalizeSlots slots)))
    (stack : AvbABData × AvbABData) (env : σ) :
    Step good (stored content env) (moveOf (q, .marked (markSlot ops change stack env).1))
      (stored content (markSlot ops change stack env).2) := by
  rw [hq, mark_spec dev]
  split_ifs
  · exact hm _
  · exact .fail

/-- **Each request** makes the move that its answer tells of. -/
lemma perform_step {q : Request σ} (hq : Sound content q) (env : σ) :
    Step (fun n => ¬ Drops n (event ops env q)) (stored content env)
      (moveOf (q, (perform ops env q).1)) (stored content (perform ops env q).2) := by
  cases q with
  | start verify allow stack =>
    obtain ⟨hreads, hsuffix⟩ := hq
    have hflow := flow_spec dev allow hreads stack env
    show Step _ _ (moveOf (_, .started (avbAbFlow ops verify allow stack env).1))
      (stored content (avbAbFlow ops verify allow stack env).2)
    rcases hf : avbAbFlow ops verify allow stack env with ⟨r, env'⟩
    rw [hf] at hflow
    cases hflow with
    | @boots ret data _ n step verified result =>
      obtain ⟨env'', v, -, hv, -⟩ := verified
      rw [moveOf_started (hsuffix n env'' data (by rw [hv]))]
      exact step
    | @stops r' _ step cause =>
      rcases r' with _ | r'
      · exact step
      · exact step
  | active n stack =>
    exact mark_step dev (makeActive n) (fun r => by cases r <;> rfl) (fun _ => .active n) stack env
  | unbootable n stack =>
    exact mark_step dev (makeUnbootable n) (fun r => by cases r <;> rfl) (fun _ => .unbootable n)
      stack env
  | successful n stack =>
    exact mark_step dev (makeSuccessful n) (fun r => by cases r <;> rfl) (fun _ => .successful n)
      stack env

omit dev in
lemma outcomes_cons (q : Request σ) (l : List (Request σ)) (env : σ) :
    outcomes ops env (q :: l) =
      (q, (perform ops env q).1) :: outcomes ops (perform ops env q).2 l := rfl

/-- **A device refines the two slots**: its requests are a run of their moves. -/
lemma perform_run {l : List (Request σ)} (hl : ∀ q ∈ l, Sound content q) (env : σ) :
    Run (fun n => ∀ e ∈ history ops env l, ¬ Drops n e) (stored content env)
      ((outcomes ops env l).map moveOf) (stored content (after (perform ops) env l)) := by
  have hrun : ∀ (good : Fin 2 → Prop) env,
      (∀ n, good n → ∀ e ∈ history ops env l, ¬ Drops n e) →
      Run good (stored content env) ((outcomes ops env l).map moveOf)
        (stored content (after (perform ops) env l)) := by
    intro good
    induction l with
    | nil => exact fun _ _ => .nil
    | cons q l ih =>
      intro env hgood
      rw [outcomes_cons, List.map_cons]
      refine .cons ((perform_step dev (hl q List.mem_cons_self) env).mono
        fun n hn => hgood n hn _ List.mem_cons_self) ?_
      exact ih (fun q hq => hl q (List.mem_cons_of_mem _ hq)) _
        fun n hn e he => hgood n hn e (List.mem_cons_of_mem _ he)
  exact hrun _ env fun n hn => hn

/-! ### How often a slot is booted -/

omit dev in
lemma booted_le (n : Fin 2) (l : List (Request σ × Answer)) :
    l.countP (booted n) ≤ (l.map moveOf).count (.boot n) := by
  rw [List.count, List.countP_map]
  refine List.countP_mono_left fun x _ hx => ?_
  obtain ⟨q, a⟩ := x
  rcases q with ⟨verify, allow, stack⟩ | _ | _ | _
  · rcases a with (_ | ⟨ret, _ | data⟩) | _
    · cases hx
    · cases hx
    · simp only [booted, decide_eq_true_eq] at hx
      simp [moveOf_started hx]
    · cases hx
  all_goals cases hx

omit dev in
lemma active_le (n : Fin 2) (l : List (Request σ × Answer)) :
    (l.map moveOf).count (.active n) ≤ l.countP (activated n) := by
  rw [List.count, List.countP_map]
  refine List.countP_mono_left fun x _ hx => ?_
  simp only [Function.comp_apply, beq_iff_eq] at hx
  obtain ⟨ha, stack, hq⟩ := moveOf_marked.1 hx
  rw [← Prod.mk.eta (p := x), ha, hq]
  simp [activated]

omit dev in
lemma fst_mem_outcomes {l : List (Request σ)} {env : σ} {x : Request σ × Answer}
    (h : x ∈ outcomes ops env l) : x.1 ∈ l := (List.of_mem_zip h).1

/-- **A slot that never boots successfully is given up**: whatever is asked of a device and
whatever fails, it is booted no more often than it had tries left, and seven times more each time
it is made active. -/
theorem boots_bounded {l : List (Request σ)} (hl : ∀ q ∈ l, Sound content q) {env : σ} {n : Fin 2}
    (hn : ¬ Proven (stored content env n)) (hs : ∀ stack, .successful n stack ∉ l) :
    (outcomes ops env l).countP (booted n) +
        triesLeft (stored content (after (perform ops) env l) n) ≤
      triesLeft (stored content env n) + 7 * (outcomes ops env l).countP (activated n) := by
  have hrun := perform_run dev hl env
  have hmoves : .successful n ∉ (outcomes ops env l).map moveOf := by
    intro hmem
    obtain ⟨x, hx, hmove⟩ := List.mem_map.mp hmem
    obtain ⟨stack, hq⟩ := moveOf_marked.2.2 hmove
    exact hs stack (hq ▸ fst_mem_outcomes hx)
  have hle := hrun.boots_le hn hmoves
  have hboots := booted_le n (outcomes ops env l)
  have hactive := active_le n (outcomes ops env l)
  omega

/-! ### A slot to fall back to -/

/-- From a slot that has booted successfully and that no call drops, a start boots something, or one
of its calls fails. -/
lemma start_boots {verify : SlotVerify σ} {allow : Bool} (hr : Reads content verify)
    {stack : AvbABData × AvbABData} {env : σ} {n : Fin 2} (hn : Proven (stored content env n))
    (hk : ¬ Rejected verify allow (calls ops verify allow stack env) n) :
    (∃ ret data, (ret = .ok ∨ ret = .okWithVerificationError) ∧
        (avbAbFlow ops verify allow stack env).1 = some (ret, some data)) ∨
      Failed ops verify allow (calls ops verify allow stack env) ∧
        ∀ data, (avbAbFlow ops verify allow stack env).1 ≠ some (.errorNoBootableSlots, data) := by
  have hflow := flow_spec dev allow hr stack env
  rcases hf : avbAbFlow ops verify allow stack env with ⟨r, env'⟩
  rw [hf] at hflow
  cases hflow with
  | boots k step verified result => exact Or.inl ⟨_, _, result, rfl⟩
  | @stops r _ step cause =>
    rcases cause with ⟨hfailed, hne⟩ | ⟨dropped, bad, hnone⟩
    · refine Or.inr ⟨hfailed, fun data hdata => hne ?_⟩
      obtain ⟨ret, rfl, hret⟩ := Option.map_eq_some_iff.mp hdata
      rw [(Prod.mk.inj hret).1]
    · have hd : dropped n = false := by
        by_contra hd
        exact hk (bad n (by simpa using hd))
      exact absurd hnone (hn.chosen hd)

/-- **A device with a slot to fall back to starts**: once a slot has booted successfully and until
it is made active or unbootable, as long as no start verifies it and drops it, no start finds that
there is no slot; in one that boots nothing a call has failed. -/
theorem starts {l : List (Request σ)} (hl : ∀ q ∈ l, Sound content q) {env : σ} {n : Fin 2}
    (hk : ∀ e ∈ history ops env l, ¬ Drops n e) (hn : Proven (stored content env n))
    (ha : ∀ stack, .active n stack ∉ l) (hu : ∀ stack, .unbootable n stack ∉ l) :
    Proven (stored content (after (perform ops) env l) n) ∧
      ∀ verify allow stack r calls,
        ⟨.start verify allow stack, .started r, calls⟩ ∈ history ops env l →
        (∃ ret data, (ret = .ok ∨ ret = .okWithVerificationError) ∧ r = some (ret, some data)) ∨
          Failed ops verify allow calls ∧ ∀ data, r ≠ some (.errorNoBootableSlots, data) := by
  induction l generalizing env with
  | nil => exact ⟨hn, fun _ _ _ _ _ h => by cases h⟩
  | cons q l ih =>
    have hq := hl q List.mem_cons_self
    have hkeeps : ¬ Drops n (event ops env q) := hk _ List.mem_cons_self
    have hactive : moveOf (q, (perform ops env q).1) ≠ .active n := fun h =>
      let ⟨_, stack, hq⟩ := moveOf_marked.1 h
      ha stack (hq ▸ List.mem_cons_self)
    have hunbootable : moveOf (q, (perform ops env q).1) ≠ .unbootable n := fun h =>
      let ⟨stack, hq⟩ := moveOf_marked.2.1 h
      hu stack (hq ▸ List.mem_cons_self)
    have hstep := (perform_step dev hq env).proven hkeeps hn hactive hunbootable
    obtain ⟨hend, hrest⟩ := ih (fun q h => hl q (List.mem_cons_of_mem _ h))
      (fun e h => hk e (List.mem_cons_of_mem _ h)) hstep
      (fun stack h => ha stack (List.mem_cons_of_mem _ h))
      (fun stack h => hu stack (List.mem_cons_of_mem _ h))
    refine ⟨hend, fun verify allow stack r calls h => ?_⟩
    rcases List.mem_cons.mp h with h | h
    · obtain ⟨rfl, hr, rfl⟩ := Event.mk.inj h
      rw [Answer.started.inj hr]
      exact start_boots dev hq.1 hn hkeeps
    · exact hrest verify allow stack r calls h

/-! ### A slot that was made active -/

/-- **A slot that was made active is booted next**: from whatever a device with proper priorities
has come to, the start behind the mark boots it and leaves it six tries, unless a call of that
start verifies the slot and drops it or fails. -/
theorem active_boots {l : List (Request σ)} (hl : ∀ q ∈ l, Sound content q) {env env' : σ}
    (hc : Capped (stored content env)) {n : Fin 2} {stack stack' : AvbABData × AvbABData}
    (hactive : perform ops (after (perform ops) env l) (.active n stack) = (.marked .ok, env'))
    {verify : SlotVerify σ} {allow : Bool} (hv : Sound content (.start verify allow stack'))
    (hgood : ¬ Rejected verify allow (calls ops verify allow stack' env') n)
    (ht : ¬ Failed ops verify allow (calls ops verify allow stack' env')) :
    ∃ ret data env'', perform ops env' (.start verify allow stack') =
        (.started (some (ret, some data)), env'') ∧ data.abSuffix = slotSuffixes n ∧
      (stored content env'' n).triesRemaining = 6 ∧
      (stored content env'' n).successfulBoot = 0 := by
  have hcapped := (perform_run dev hl env).capped hc
  set slots := stored content (after (perform ops) env l) with hslots
  have hmark : stored content env' = makeActive n (normalizeSlots slots) := by
    have hspec := mark_spec dev (makeActive n) stack (after (perform ops) env l)
    rcases hm : markSlot ops (makeActive n) stack (after (perform ops) env l) with ⟨r, env₁⟩
    have hperform : perform ops (after (perform ops) env l) (.active n stack) =
        (.marked r, env₁) := by
      show (Answer.marked (markSlot ops (makeActive n) stack _).1,
        (markSlot ops (makeActive n) stack _).2) = _
      rw [hm]
    rw [hperform] at hactive
    cases hactive
    rw [hm, if_pos rfl] at hspec
    exact hspec
  have hnone : ∀ dropped : Fin 2 → Bool, (∀ k, dropped k = true →
      Rejected verify allow (calls ops verify allow stack' env') k) → dropped n = false := by
    intro dropped bad
    by_contra hd
    exact hgood (bad n (by simpa using hd))
  have hflow := flow_spec dev allow hv.1 stack' env'
  rw [hmark] at hflow
  rcases hf : avbAbFlow ops verify allow stack' env' with ⟨r', env''⟩
  rw [hf] at hflow
  cases hflow with
  | @boots ret data _ k step verified result =>
    refine ⟨ret, data, env'', by rw [perform, hf], ?_⟩
    obtain ⟨env₁, v, -, hverify, -⟩ := verified
    have hsuffix := hv.2 k env₁ data (by rw [hverify])
    generalize stored content env'' = after at step ⊢
    cases step with
    | boot dropped bad chosen =>
      have hkept := hnone dropped fun k hk => not_not.mp (bad k hk)
      rw [makeActive_chosen hcapped hkept] at chosen
      cases chosen
      refine ⟨hsuffix, ?_⟩
      rw [Function.update_self, dropSlots_false hkept, normalizeSlots, makeActive_self]
      simp [slotNormalize, useTry, AVB_AB_MAX_PRIORITY, AVB_AB_MAX_TRIES_REMAINING]
  | stops step cause =>
    rcases cause with h | ⟨dropped, bad, h⟩
    · exact absurd h.1 ht
    · rw [makeActive_chosen hcapped (hnone dropped bad)] at h
      cases h

end Device

/-! ### The plainest device -/

lemma plainVerify_sound (allow : Bool) (stack : AvbABData × AvbABData) :
    Sound Prod.fst (.start plainVerify allow stack) := by
  refine ⟨fun _ _ => rfl, fun n env data h => ?_⟩
  cases h
  fin_cases n <;> rfl

lemma plain_kept (allow : Bool) (l : List (Call (List UInt8 × (ℕ → UInt64)))) (n : Fin 2) :
    ¬ Rejected plainVerify allow l n := by
  rintro ⟨env, -, h⟩
  cases h

lemma plain_failed (allow : Bool) (l : List (Call (List UInt8 × (ℕ → UInt64)))) :
    ¬ Failed plainOps plainVerify allow l := by
  rintro ⟨_ | _ | _ | _, -, h⟩
  · exact h rfl
  · exact h rfl
  · exact h rfl
  · cases h.2 rfl

/-- Nothing keeps the plainest device from marking a slot. -/
lemma plain_mark (change : Slots → Slots) (stack : AvbABData × AvbABData)
    (env : List UInt8 × (ℕ → UInt64)) : (markSlot plainOps change stack env).1 = .ok := by
  have hload := load_spec plainOps_store stack.1 stack.2 env
  unfold markSlot
  rcases hr : loadMetadata plainOps stack.1 stack.2 env with ⟨r, abData, abDataOrig, env'⟩
  rw [hr] at hload
  cases hload with
  | ok headed slots same =>
    simp only [ne_eq, not_true_eq_false, if_false, saveMetadataIfChanged]
    split_ifs
    · rfl
    · rfl
  | fail error cause slots same =>
    obtain ⟨env₁, hw, -⟩ := cause
    exact absurd rfl hw

/-- The device is started, a slot is made active, and it is started again. -/
def plainLife (n : Fin 2) : List (Request (List UInt8 × (ℕ → UInt64))) :=
  [.start plainVerify false (avbAbDataInit, avbAbDataInit),
    .active n (avbAbDataInit, avbAbDataInit),
    .start plainVerify true (avbAbDataInit, avbAbDataInit)]

lemma plainLife_sound (n : Fin 2) : ∀ q ∈ plainLife n, Sound Prod.fst q := by
  simp only [plainLife, List.mem_cons, List.not_mem_nil, or_false]
  rintro q (rfl | rfl | rfl)
  · exact plainVerify_sound _ _
  · trivial
  · exact plainVerify_sound _ _

lemma plainLife_keeps (n k : Fin 2) (env : List UInt8 × (ℕ → UInt64)) :
    ∀ e ∈ history plainOps env (plainLife k), ¬ Drops n e := by
  simp only [plainLife, history, List.mem_cons, List.not_mem_nil, or_false]
  rintro e (rfl | rfl | rfl)
  · exact plain_kept _ _ _
  · exact id
  · exact plain_kept _ _ _

theorem boots_bounded_plain : (outcomes plainOps plainEnv (plainLife 1)).countP (booted 0) +
      triesLeft (stored Prod.fst (after (perform plainOps) plainEnv (plainLife 1)) 0) ≤
    triesLeft (stored Prod.fst plainEnv 0) +
      7 * (outcomes plainOps plainEnv (plainLife 1)).countP (activated 0) :=
  boots_bounded plainOps_store (plainLife_sound 1) (fun h => h rfl)
    (fun stack => by simp [plainLife])

/-- The first slot has booted successfully. -/
def provenData : AvbABData := { avbAbDataInit with slots := ![⟨15, 0, 1, 0⟩, ⟨14, 7, 0, 0⟩] }

def provenEnv : List UInt8 × (ℕ → UInt64) :=
  ((avbAbDataUpdateCrcAndByteswap provenData).bytes, fun _ => 0)

lemma stored_proven : stored Prod.fst provenEnv = provenData.slots :=
  metadata_update ⟨rfl, by decide⟩

theorem starts_plain :
    Proven (stored Prod.fst (after (perform plainOps) provenEnv (plainLife 1)) 0) ∧
      ∀ verify allow stack r calls,
        ⟨.start verify allow stack, .started r, calls⟩ ∈
          history plainOps provenEnv (plainLife 1) →
        (∃ ret data, (ret = .ok ∨ ret = .okWithVerificationError) ∧ r = some (ret, some data)) ∨
          Failed plainOps verify allow calls ∧ ∀ data, r ≠ some (.errorNoBootableSlots, data) :=
  starts plainOps_store (plainLife_sound 1) (plainLife_keeps 0 1 provenEnv)
    (by rw [stored_proven]; intro h; cases h) (fun stack => by simp [plainLife])
    (fun stack => by simp [plainLife])

lemma plain_capped : Capped (stored Prod.fst plainEnv) := by
  have h : stored Prod.fst plainEnv = avbAbDataInit.slots := by
    rw [stored, metadata_none]
    rfl
  rw [h]
  intro n
  fin_cases n
  · exact (by decide : (15 : UInt8) ≤ 15)
  · exact (by decide : (14 : UInt8) ≤ 15)

/-- The plainest device behind a mark. -/
def plainMarked (n : Fin 2) : List UInt8 × (ℕ → UInt64) :=
  (perform plainOps plainEnv (.active n (avbAbDataInit, avbAbDataInit))).2

lemma perform_plainMarked : perform plainOps plainEnv (.active 1 (avbAbDataInit, avbAbDataInit)) =
    (.marked .ok, plainMarked 1) := by
  refine Prod.ext ?_ rfl
  show Answer.marked (markSlot plainOps (makeActive 1) (avbAbDataInit, avbAbDataInit)
    plainEnv).1 = _
  rw [plain_mark]

theorem active_boots_plain : ∃ ret data env'',
    perform plainOps (plainMarked 1) (.start plainVerify false (avbAbDataInit, avbAbDataInit)) =
        (.started (some (ret, some data)), env'') ∧ data.abSuffix = slotSuffixes 1 ∧
      (stored Prod.fst env'' 1).triesRemaining = 6 ∧
      (stored Prod.fst env'' 1).successfulBoot = 0 :=
  active_boots plainOps_store (l := []) (fun _ h => by cases h) plain_capped perform_plainMarked
    (plainVerify_sound false _) (plain_kept _ _ _) (plain_failed _ _)

end UefiToolkit.AbRuns
