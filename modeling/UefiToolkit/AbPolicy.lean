import UefiToolkit.AbModel

/-!
The two slots of a device, whatever they are stored in: what a start of the device and what
marking a slot may make of them.

A slot is good when verification never drops it. A slot that has never booted successfully is
booted at most as often as it has tries, and one that has done so is there to fall back to.
-/

namespace UefiToolkit.AbPolicy

open UefiToolkit.AbModel

/-- The slots that verification drops are unbootable. -/
def dropSlots (dropped : Fin 2 → Bool) (slots : Slots) : Slots := fun n =>
  if dropped n then slotSetUnbootable (slots n) else slots n

/-- A start that boots a slot, or nothing; or a slot is marked. -/
inductive Move
  | boot (n : Fin 2)
  | idle
  | active (n : Fin 2)
  | unbootable (n : Fin 2)
  | successful (n : Fin 2)
  deriving DecidableEq

/-- What a move may make of the stored slots. What fails may leave them as they were. -/
inductive Step (good : Fin 2 → Prop) : Slots → Move → Slots → Prop
  | boot {slots : Slots} {n : Fin 2} (dropped : Fin 2 → Bool)
      (bad : ∀ k, dropped k = true → ¬ good k)
      (chosen : slotIndexToBoot (dropSlots dropped (normalizeSlots slots)) = some n) :
      Step good slots (.boot n)
        (Function.update (dropSlots dropped (normalizeSlots slots)) n
          (useTry (dropSlots dropped (normalizeSlots slots) n)))
  | stop {slots : Slots} (dropped : Fin 2 → Bool) (bad : ∀ k, dropped k = true → ¬ good k) :
      Step good slots .idle (dropSlots dropped (normalizeSlots slots))
  | fail {slots : Slots} : Step good slots .idle slots
  | active {slots : Slots} (n : Fin 2) :
      Step good slots (.active n) (makeActive n (normalizeSlots slots))
  | unbootable {slots : Slots} (n : Fin 2) :
      Step good slots (.unbootable n) (makeUnbootable n (normalizeSlots slots))
  | successful {slots : Slots} (n : Fin 2) :
      Step good slots (.successful n) (makeSuccessful n (normalizeSlots slots))

inductive Run (good : Fin 2 → Prop) : Slots → List Move → Slots → Prop
  | nil {slots : Slots} : Run good slots [] slots
  | cons {slots slots' slots'' : Slots} {m : Move} {l : List Move} (step : Step good slots m slots')
      (rest : Run good slots' l slots'') : Run good slots (m :: l) slots''

/-! ### One slot -/

@[simp] lemma unbootable_tries (slot : AvbABSlotData) :
    (slotSetUnbootable slot).triesRemaining = 0 := rfl

@[simp] lemma unbootable_successful (slot : AvbABSlotData) :
    (slotSetUnbootable slot).successfulBoot = 0 := rfl

@[simp] lemma unbootable_bootable (slot : AvbABSlotData) :
    slotIsBootable (slotSetUnbootable slot) = false := rfl

@[simp] lemma normalize_unbootable (slot : AvbABSlotData) :
    slotNormalize (slotSetUnbootable slot) = slotSetUnbootable slot := rfl

/-- A normalized slot is unbootable, or has either tries or a successful boot. -/
lemma normalize_cases (slot : AvbABSlotData) :
    slotNormalize slot = slotSetUnbootable slot ∨
      slotNormalize slot = slot ∧ 0 < slot.priority ∧
        (0 < slot.triesRemaining ∧ slot.successfulBoot = 0 ∨
          slot.triesRemaining = 0 ∧ slot.successfulBoot ≠ 0) := by
  unfold slotNormalize
  by_cases hp : 0 < slot.priority
  · rw [if_pos hp]
    by_cases ht : slot.triesRemaining = 0 <;> by_cases hs : slot.successfulBoot = 0
    · left
      simp [ht, hs]
    · right
      simp [ht, hs, hp]
    · right
      simp [hs, hp, ht, UInt8.pos_iff_ne_zero]
    · left
      simp [ht, hs, UInt8.pos_iff_ne_zero]
  · left
    rw [if_neg hp]

lemma normalize_normalize (slot : AvbABSlotData) :
    slotNormalize (slotNormalize slot) = slotNormalize slot := by
  rcases normalize_cases slot with h | ⟨h, -⟩
  · rw [h, normalize_unbootable]
  · rw [h, h]

/-- Normalizing does not look at how high a priority is. -/
lemma normalize_priority {slot : AvbABSlotData} {p : UInt8} (h : slotNormalize slot = slot)
    (hpos : 0 < slot.priority) (hp : 0 < p) :
    slotNormalize { slot with priority := p } = { slot with priority := p } := by
  unfold slotNormalize at h ⊢
  rw [if_pos hpos] at h
  rw [if_pos hp]
  by_cases h1 : slot.triesRemaining = 0 ∧ slot.successfulBoot = 0
  · have hzero := congrArg AvbABSlotData.priority h
    simp [h1, slotSetUnbootable] at hzero
    rw [← hzero] at hpos
    exact absurd hpos (by decide)
  · by_cases h2 : 0 < slot.triesRemaining ∧ slot.successfulBoot ≠ 0
    · have hzero := congrArg AvbABSlotData.priority h
      simp only [if_neg h1, if_pos h2] at hzero
      rw [← hzero] at hpos
      exact absurd hpos (UInt8.lt_irrefl 0)
    · simp only [if_neg h1, if_neg h2]

/-- The tries a slot has. -/
def triesLeft (slot : AvbABSlotData) : ℕ := (slotNormalize slot).triesRemaining.toNat

/-- The slot has booted successfully. -/
def Proven (slot : AvbABSlotData) : Prop := (slotNormalize slot).successfulBoot ≠ 0

lemma triesLeft_normalize (slot : AvbABSlotData) :
    triesLeft (slotNormalize slot) = triesLeft slot := by
  rw [triesLeft, normalize_normalize, triesLeft]

lemma proven_normalize (slot : AvbABSlotData) : Proven (slotNormalize slot) ↔ Proven slot := by
  rw [Proven, normalize_normalize, Proven]

/-- A slot with a successful boot can be booted. -/
lemma Proven.bootable {slot : AvbABSlotData} (h : Proven slot) :
    slotIsBootable (slotNormalize slot) = true := by
  rcases normalize_cases slot with hn | ⟨hn, hp, -⟩
  · rw [Proven, hn] at h
    exact absurd rfl h
  · rw [Proven, hn] at h
    rw [hn]
    simp [slotIsBootable, hp, h]

/-- Using a try of a slot that never booted successfully leaves one try less. -/
lemma useTry_spec {slot : AvbABSlotData} (hb : slotIsBootable (slotNormalize slot) = true)
    (hs : ¬ Proven slot) :
    triesLeft (useTry (slotNormalize slot)) + 1 = triesLeft slot ∧
      ¬ Proven (useTry (slotNormalize slot)) := by
  rw [Proven, not_not] at hs
  rcases normalize_cases slot with hn | ⟨hn, hp, ⟨ht, hzero⟩ | ⟨-, hne⟩⟩
  · rw [hn] at hb
    cases hb
  · have htry : useTry slot = { slot with triesRemaining := slot.triesRemaining - 1 } := by
      rw [useTry, if_pos ⟨hzero, ht⟩]
    have hone : (1 : UInt8) ≤ slot.triesRemaining :=
      UInt8.le_iff_toNat_le.mpr (UInt8.lt_iff_toNat_lt.mp ht)
    have hsub : (slot.triesRemaining - 1).toNat = slot.triesRemaining.toNat - 1 := by
      rw [UInt8.toNat_sub_of_le _ _ hone]
      rfl
    have hone' := UInt8.le_iff_toNat_le.mp hone
    rw [triesLeft, triesLeft, Proven, hn, htry]
    by_cases hlast : slot.triesRemaining - 1 = 0
    · have hnorm : slotNormalize { slot with triesRemaining := slot.triesRemaining - 1 } =
          slotSetUnbootable slot := by simp [slotNormalize, hp, hlast, hzero, slotSetUnbootable]
      have hnat := congrArg UInt8.toNat hlast
      rw [hsub] at hnat
      rw [hnorm]
      simp only [unbootable_tries, unbootable_successful, ne_eq, not_true_eq_false,
        not_false_eq_true, and_true]
      simp only [UInt8.toNat_zero, UInt8.toNat_one] at hnat hone' ⊢
      omega
    · have hnorm : slotNormalize { slot with triesRemaining := slot.triesRemaining - 1 } =
          { slot with triesRemaining := slot.triesRemaining - 1 } := by
        simp [slotNormalize, hp, hlast, hzero]
      rw [hnorm]
      simp only [hsub, hzero, ne_eq, not_true_eq_false, not_false_eq_true, and_true]
      simp only [UInt8.toNat_one] at hone'
      omega
  · rw [hn] at hs
    exact absurd hs hne

/-! ### Both slots -/

lemma other_ne (n : Fin 2) : 1 - n ≠ n := by fin_cases n <;> decide

lemma eq_other {n k : Fin 2} (h : k ≠ n) : k = 1 - n := by
  fin_cases n <;> fin_cases k <;> first | rfl | exact absurd rfl h

lemma dropSlots_true {dropped : Fin 2 → Bool} {n : Fin 2} (h : dropped n = true) (slots : Slots) :
    dropSlots dropped slots n = slotSetUnbootable (slots n) := if_pos h

lemma dropSlots_false {dropped : Fin 2 → Bool} {n : Fin 2} (h : dropped n = false)
    (slots : Slots) : dropSlots dropped slots n = slots n := if_neg (by simp [h])

/-- What is chosen can be booted, and nothing that can be booted comes before it. -/
lemma slotIndexToBoot_spec {slots : Slots} {n : Fin 2} (h : slotIndexToBoot slots = some n) :
    slotIsBootable (slots n) = true ∧
      (slotIsBootable (slots (1 - n)) = true → (slots (1 - n)).priority ≤ (slots n).priority) := by
  unfold slotIndexToBoot at h
  split_ifs at h with hboth hlt h0 h1 <;> cases h
  · simp only [Bool.and_eq_true] at hboth
    exact ⟨hboth.2, fun _ => UInt8.le_of_lt hlt⟩
  · simp only [Bool.and_eq_true] at hboth
    exact ⟨hboth.1, fun _ => UInt8.not_lt.mp hlt⟩
  · exact ⟨h0, fun h => absurd (by simp [h0]; exact h) hboth⟩
  · exact ⟨h1, fun h => absurd h h0⟩

/-- A slot that can be booted and comes first is chosen. -/
lemma slotIndexToBoot_of_lt {slots : Slots} {n : Fin 2} (hn : slotIsBootable (slots n) = true)
    (hlt : slotIsBootable (slots (1 - n)) = true → (slots (1 - n)).priority < (slots n).priority) :
    slotIndexToBoot slots = some n := by
  unfold slotIndexToBoot
  fin_cases n
  · rcases h1 : slotIsBootable (slots 1) with _ | _
    · simp_all
    · have hle := UInt8.le_of_lt (hlt h1)
      simp_all
  · rcases h0 : slotIsBootable (slots 0) with _ | _
    · simp_all
    · have hlt' := hlt h0
      simp_all

lemma slotIndexToBoot_ne_none {slots : Slots} {n : Fin 2} (h : slotIsBootable (slots n) = true) :
    slotIndexToBoot slots ≠ none := by
  unfold slotIndexToBoot
  fin_cases n <;> split_ifs <;> simp_all

lemma makeActive_self (n : Fin 2) (slots : Slots) :
    makeActive n slots n = { slots n with
      priority := AVB_AB_MAX_PRIORITY, triesRemaining := AVB_AB_MAX_TRIES_REMAINING,
      successfulBoot := 0 } := by
  have hne : n ≠ 1 - n := (other_ne n).symm
  unfold makeActive
  split_ifs
  · rw [Function.update_of_ne hne, Function.update_self]
  · rw [Function.update_self]

lemma makeActive_other (n : Fin 2) (slots : Slots) :
    makeActive n slots (1 - n) =
      if (slots (1 - n)).priority = AVB_AB_MAX_PRIORITY then
        { slots (1 - n) with priority := AVB_AB_MAX_PRIORITY - 1 }
      else slots (1 - n) := by
  unfold makeActive
  simp only [Function.update_of_ne (other_ne n)]
  split_ifs
  · rw [Function.update_self]
  · rw [Function.update_of_ne (other_ne n)]

/-- Making the other slot active changes nothing but the priority of a slot. -/
lemma makeActive_keeps (n : Fin 2) (slots : Slots) :
    triesLeft (makeActive n (normalizeSlots slots) (1 - n)) = triesLeft (slots (1 - n)) ∧
      (Proven (makeActive n (normalizeSlots slots) (1 - n)) ↔ Proven (slots (1 - n))) := by
  rw [makeActive_other]
  split_ifs with h
  · have hnorm := normalize_normalize (slots (1 - n))
    have hpos : 0 < (slotNormalize (slots (1 - n))).priority := by
      rw [show (slotNormalize (slots (1 - n))).priority = AVB_AB_MAX_PRIORITY from h]
      decide
    have hsame := normalize_priority (p := AVB_AB_MAX_PRIORITY - 1) hnorm hpos (by decide)
    exact ⟨by rw [triesLeft]; exact congrArg (fun s => s.triesRemaining.toNat) hsame,
      by rw [Proven]; exact iff_of_eq (congrArg (fun s => s.successfulBoot ≠ 0) hsame)⟩
  · exact ⟨triesLeft_normalize _, proven_normalize _⟩

lemma dropSlots_keeps (dropped : Fin 2 → Bool) (slots : Slots) (n : Fin 2) :
    triesLeft (dropSlots dropped (normalizeSlots slots) n) ≤ triesLeft (slots n) ∧
      (Proven (dropSlots dropped (normalizeSlots slots) n) → Proven (slots n)) := by
  rcases hd : dropped n with _ | _
  · rw [dropSlots_false hd, normalizeSlots, triesLeft_normalize, proven_normalize]
    exact ⟨le_rfl, id⟩
  · rw [dropSlots_true hd]
    exact ⟨Nat.zero_le _, fun h => absurd rfl h⟩

/-- Moves change the tries of a slot that has not booted successfully: a boot of it takes one,
making it active gives it all. -/
lemma Step.tries {good : Fin 2 → Prop} {slots slots' : Slots} {m : Move} {n : Fin 2}
    (h : Step good slots m slots') (hn : ¬ Proven (slots n)) (hm : m ≠ .successful n) :
    ¬ Proven (slots' n) ∧
      (if m = .boot n then 1 else 0) + triesLeft (slots' n) ≤
        triesLeft (slots n) + if m = .active n then 7 else 0 := by
  cases h with
  | boot dropped bad chosen =>
    rename_i k
    obtain ⟨hle, hproven⟩ := dropSlots_keeps dropped slots n
    obtain rfl | hne := eq_or_ne n k
    · obtain ⟨hboot, -⟩ := slotIndexToBoot_spec chosen
      have hd : dropped n = false := by
        by_contra hd
        rw [dropSlots_true (by simpa using hd)] at hboot
        cases hboot
      rw [dropSlots_false hd] at hboot
      obtain ⟨htries, hproven'⟩ := useTry_spec hboot hn
      rw [Function.update_self, dropSlots_false hd]
      exact ⟨hproven', by simp only [normalizeSlots, if_true]; simp; omega⟩
    · rw [Function.update_of_ne hne]
      exact ⟨fun h => hn (hproven h), by simpa [Ne.symm hne] using hle⟩
  | stop dropped bad =>
    obtain ⟨hle, hproven⟩ := dropSlots_keeps dropped slots n
    exact ⟨fun h => hn (hproven h), by simpa using hle⟩
  | fail => exact ⟨hn, by simp⟩
  | active k =>
    obtain rfl | hne := eq_or_ne n k
    · have hnorm : slotNormalize (makeActive n (normalizeSlots slots) n) =
          makeActive n (normalizeSlots slots) n := by rw [makeActive_self]; rfl
      rw [triesLeft, Proven, hnorm, makeActive_self]
      exact ⟨fun h => h rfl, by simp [AVB_AB_MAX_TRIES_REMAINING]⟩
    · obtain rfl := eq_other hne
      obtain ⟨htries, hproven⟩ := makeActive_keeps k slots
      exact ⟨fun h => hn (hproven.mp h), by simp [htries]⟩
  | unbootable k =>
    obtain rfl | hne := eq_or_ne n k
    · rw [makeUnbootable, Function.update_self]
      exact ⟨fun h => h rfl, by simp [triesLeft]⟩
    · rw [makeUnbootable, Function.update_of_ne hne, normalizeSlots, triesLeft_normalize,
        proven_normalize]
      exact ⟨hn, by simp⟩
  | successful k =>
    have hne : n ≠ k := fun h => hm (by rw [h])
    have hsame : makeSuccessful k (normalizeSlots slots) n = slotNormalize (slots n) := by
      unfold makeSuccessful
      split_ifs
      · rw [Function.update_of_ne hne, normalizeSlots]
      · rfl
    rw [hsame, triesLeft_normalize, proven_normalize]
    exact ⟨hn, by simp⟩

/-- A good slot that has booted successfully stays so, until it is made active or unbootable. -/
lemma Step.proven {good : Fin 2 → Prop} {slots slots' : Slots} {m : Move} {n : Fin 2}
    (h : Step good slots m slots') (hgood : good n) (hn : Proven (slots n)) (ha : m ≠ .active n)
    (hu : m ≠ .unbootable n) : Proven (slots' n) := by
  have hdrop : ∀ dropped : Fin 2 → Bool, (∀ k, dropped k = true → ¬ good k) →
      dropSlots dropped (normalizeSlots slots) n = slotNormalize (slots n) := fun dropped bad =>
    dropSlots_false (by
      by_contra hd
      exact bad n (by simpa using hd) hgood) _
  cases h with
  | boot dropped bad chosen =>
    rename_i k
    obtain rfl | hne := eq_or_ne n k
    · have hone : useTry (slotNormalize (slots n)) = slotNormalize (slots n) :=
        if_neg fun h => hn h.1
      rw [Function.update_self, hdrop dropped bad, hone, proven_normalize]
      exact hn
    · rw [Function.update_of_ne hne, hdrop dropped bad, proven_normalize]
      exact hn
  | stop dropped bad =>
    rw [hdrop dropped bad, proven_normalize]
    exact hn
  | fail => exact hn
  | active k =>
    have hne : n ≠ k := fun h => ha (by rw [h])
    obtain rfl := eq_other hne
    exact (makeActive_keeps k slots).2.mpr hn
  | unbootable k =>
    have hne : n ≠ k := fun h => hu (by rw [h])
    rw [makeUnbootable, Function.update_of_ne hne, normalizeSlots, proven_normalize]
    exact hn
  | successful k =>
    unfold makeSuccessful
    split_ifs with hb
    · obtain rfl | hne := eq_or_ne n k
      · rw [Function.update_self, Proven]
        rcases normalize_cases (slots n) with h | ⟨h, hp, -⟩
        · rw [normalizeSlots, h] at hb
          cases hb
        · rw [normalizeSlots, h]
          simp [slotNormalize, hp]
      · rw [Function.update_of_ne hne, normalizeSlots, proven_normalize]
        exact hn
    · rw [normalizeSlots, proven_normalize]
      exact hn

/-- No slot comes before one that was just made active. -/
def Capped (slots : Slots) : Prop := ∀ n, (slots n).priority ≤ AVB_AB_MAX_PRIORITY

lemma normalize_le (slot : AvbABSlotData) : (slotNormalize slot).priority ≤ slot.priority := by
  rcases normalize_cases slot with h | ⟨h, -⟩
  · rw [h]
    exact UInt8.zero_le
  · rw [h]
    exact UInt8.le_refl _

lemma Capped.normalize {slots : Slots} (h : Capped slots) : Capped (normalizeSlots slots) :=
  fun n => UInt8.le_trans (normalize_le _) (h n)

lemma Capped.update {slots : Slots} (h : Capped slots) {n : Fin 2} {slot : AvbABSlotData}
    (hs : slot.priority ≤ AVB_AB_MAX_PRIORITY) : Capped (Function.update slots n slot) := by
  intro k
  obtain rfl | hne := eq_or_ne k n
  · rw [Function.update_self]
    exact hs
  · rw [Function.update_of_ne hne]
    exact h k

lemma Capped.drop {slots : Slots} (h : Capped slots) (dropped : Fin 2 → Bool) :
    Capped (dropSlots dropped slots) := by
  intro n
  rcases hd : dropped n with _ | _
  · rw [dropSlots_false hd]
    exact h n
  · rw [dropSlots_true hd]
    exact UInt8.zero_le

/-- Moves keep the priorities below the one of an active slot. -/
lemma Step.capped {good : Fin 2 → Prop} {slots slots' : Slots} {m : Move}
    (h : Step good slots m slots') (hc : Capped slots) : Capped slots' := by
  cases h with
  | boot dropped bad chosen =>
    refine (hc.normalize.drop dropped).update ?_
    unfold useTry
    split_ifs
    · exact hc.normalize.drop dropped _
    · exact hc.normalize.drop dropped _
  | stop dropped bad => exact hc.normalize.drop dropped
  | fail => exact hc
  | active n =>
    intro k
    obtain rfl | hne := eq_or_ne k n
    · rw [makeActive_self]
      exact UInt8.le_refl _
    · rw [eq_other hne, makeActive_other]
      split_ifs
      · exact (by decide : AVB_AB_MAX_PRIORITY - 1 ≤ AVB_AB_MAX_PRIORITY)
      · exact hc.normalize _
  | unbootable n => exact hc.normalize.update UInt8.zero_le
  | successful n =>
    unfold makeSuccessful
    split_ifs
    · exact hc.normalize.update (hc.normalize n)
    · exact hc.normalize

lemma Step.mono {good good' : Fin 2 → Prop} {slots slots' : Slots} {m : Move}
    (h : Step good slots m slots') (hgood : ∀ n, good' n → good n) : Step good' slots m slots' := by
  cases h with
  | boot dropped bad chosen => exact .boot dropped (fun k hk h => bad k hk (hgood k h)) chosen
  | stop dropped bad => exact .stop dropped fun k hk h => bad k hk (hgood k h)
  | fail => exact .fail
  | active n => exact .active n
  | unbootable n => exact .unbootable n
  | successful n => exact .successful n

/-- A slot that was made active is the one to boot, unless it is dropped. -/
lemma makeActive_chosen {slots : Slots} {n : Fin 2} {dropped : Fin 2 → Bool} (hc : Capped slots)
    (hd : dropped n = false) :
    slotIndexToBoot (dropSlots dropped (normalizeSlots (makeActive n (normalizeSlots slots)))) =
      some n := by
  have hself : slotNormalize (makeActive n (normalizeSlots slots) n) =
      makeActive n (normalizeSlots slots) n := by
    rw [makeActive_self]
    rfl
  have hn : dropSlots dropped (normalizeSlots (makeActive n (normalizeSlots slots))) n =
      makeActive n (normalizeSlots slots) n := by rw [dropSlots_false hd, normalizeSlots, hself]
  have hother : (makeActive n (normalizeSlots slots) (1 - n)).priority < AVB_AB_MAX_PRIORITY := by
    rw [makeActive_other]
    split_ifs with h
    · exact (by decide : AVB_AB_MAX_PRIORITY - 1 < AVB_AB_MAX_PRIORITY)
    · exact UInt8.lt_of_le_of_ne (hc.normalize (1 - n)) h
  refine slotIndexToBoot_of_lt ?_ fun _ => ?_
  · rw [hn, makeActive_self]
    rfl
  · rw [hn, makeActive_self]
    rcases h : dropped (1 - n) with _ | _
    · rw [dropSlots_false h]
      exact UInt8.lt_of_le_of_lt (normalize_le _) hother
    · rw [dropSlots_true h]
      exact (by decide : (0 : UInt8) < AVB_AB_MAX_PRIORITY)

/-! ### Runs -/

variable {good : Fin 2 → Prop} {slots slots' : Slots} {l : List Move} {n : Fin 2}

/-- **Boots are counted**: however starts and marks follow on each other, a slot that is not
marked successful is booted no more often than it had tries, and seven times more each time it is
made active. -/
theorem Run.boots_le (h : Run good slots l slots') (hn : ¬ Proven (slots n))
    (hl : .successful n ∉ l) :
    l.count (.boot n) + triesLeft (slots' n) ≤
      triesLeft (slots n) + 7 * l.count (.active n) := by
  induction h with
  | nil => simp
  | @cons slots slots' slots'' m l step rest ih =>
    simp only [List.mem_cons, not_or] at hl
    obtain ⟨hn', hle⟩ := step.tries hn (Ne.symm hl.1)
    have hrest := ih hn' hl.2
    rw [List.count_cons, List.count_cons]
    simp only [beq_iff_eq]
    split_ifs at hle ⊢ <;> omega

lemma Run.capped (h : Run good slots l slots') (hc : Capped slots) : Capped slots' := by
  induction h with
  | nil => exact hc
  | cons step rest ih => exact ih (step.capped hc)

/-- While there is a good slot that has booted successfully, a start finds a slot. -/
lemma Proven.chosen {dropped : Fin 2 → Bool} (hn : Proven (slots n))
    (hd : dropped n = false) : slotIndexToBoot (dropSlots dropped (normalizeSlots slots)) ≠ none :=
  slotIndexToBoot_ne_none (by rw [dropSlots_false hd]; exact hn.bootable)

end UefiToolkit.AbPolicy
