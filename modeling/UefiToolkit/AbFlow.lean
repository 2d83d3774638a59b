import UefiToolkit.AbCalls
import UefiToolkit.AbCodec
import UefiToolkit.AbPolicy
import UefiToolkit.Requests

/-!
What `avb_ab_flow` and the operations that mark a slot do to the metadata in `misc`: they make the
moves of the two slots, whatever fails on the way but a read of the metadata.

What is said of a flow is said of the calls that it makes.
-/

namespace UefiToolkit.AbFlow

open UefiToolkit.AvbModel UefiToolkit.AvbTypes UefiToolkit.Effect UefiToolkit.AbModel
open UefiToolkit.AbCalls UefiToolkit.AbCodec UefiToolkit.AbPolicy

variable {σ : Type}

/-- The metadata that a buffer stands for. -/
def metadata (b : List UInt8) : AvbABData :=
  (avbAbDataVerifyAndByteswap (ofBytes b)).getD avbAbDataInit

/-- The metadata can be read, and a write that fails leaves them as they were. -/
structure MiscStore (ops : AvbOps σ) (content : σ → List UInt8) : Prop where
  read : ∀ env, ∃ env',
    ops.readFromPartition miscName AB_METADATA_MISC_PARTITION_OFFSET AVB_AB_DATA_SIZE env =
      (.ok, some AVB_AB_DATA_SIZE, content env, env') ∧ content env' = content env
  write : ∀ env b, b.length = AVB_AB_DATA_SIZE →
    content (ops.writeToPartition miscName AB_METADATA_MISC_PARTITION_OFFSET b env).2 =
      if (ops.writeToPartition miscName AB_METADATA_MISC_PARTITION_OFFSET b env).1 = .ok then b
      else content env
  readRollback : ∀ n env, content (ops.readRollbackIndex n env).2 = content env
  writeRollback : ∀ n v env, content (ops.writeRollbackIndex n v env).2 = content env

/-- A verification that leaves the metadata alone. -/
def Reads (content : σ → List UInt8) (verify : SlotVerify σ) : Prop :=
  ∀ n env, content (verify n env).2 = content env

/-- Such a failure says nothing about the slots. -/
def Fault (ops : AvbOps σ) (verify : SlotVerify σ) (allow : Bool) (l : List (Call σ))
    (e : Option AvbABFlowResult) : Prop :=
  Failed ops verify allow l ∧ e ≠ some .errorNoBootableSlots

/-- A record that a read can give. -/
def Headed (d : AvbABData) : Prop :=
  d.magic = AVB_AB_MAGIC ∧ d.versionMajor ≤ AVB_AB_MAJOR_VERSION

lemma headed_init : Headed avbAbDataInit := ⟨rfl, by decide⟩

lemma headed_metadata (b : List UInt8) : Headed (metadata b) := by
  unfold metadata
  rcases h : avbAbDataVerifyAndByteswap (ofBytes b) with _ | d
  · exact headed_init
  · obtain ⟨hd, -⟩ := verify_eq_some_iff.mp h
    exact ⟨hd.magic, hd.version⟩

/-- What was written stands for the slots of the record. -/
lemma metadata_update {d : AvbABData} (h : Headed d) :
    (metadata (avbAbDataUpdateCrcAndByteswap d).bytes).slots = d.slots := by
  rw [metadata, verify_update h.1 h.2]
  rfl

lemma metadata_none {b : List UInt8} (h : avbAbDataVerifyAndByteswap (ofBytes b) = none) :
    metadata b = avbAbDataInit := by rw [metadata, h, Option.getD_none]

lemma metadata_some {b : List UInt8} {d : AvbABData}
    (h : avbAbDataVerifyAndByteswap (ofBytes b) = some d) : metadata b = d := by
  rw [metadata, h, Option.getD_some]

section Device

variable {ops : AvbOps σ} {content : σ → List UInt8} (dev : MiscStore ops content)

/-- The slots as they are stored. -/
def stored (content : σ → List UInt8) (env : σ) : Slots := (metadata (content env)).slots

lemma stored_congr {env env' : σ} (h : content env' = content env) :
    stored content env' = stored content env := congrArg (fun b => (metadata b).slots) h

include dev

/-! ### Loading and saving -/

lemma write_spec {d : AvbABData} (hd : Headed d) (env : σ) :
    stored content (avbAbDataWrite ops d env).2 =
      if (avbAbDataWrite ops d env).1 = .ok then d.slots else stored content env := by
  have hw := dev.write env (avbAbDataUpdateCrcAndByteswap d).bytes (bytes_length _)
  rcases hr : ops.writeToPartition miscName AB_METADATA_MISC_PARTITION_OFFSET
    (avbAbDataUpdateCrcAndByteswap d).bytes env with ⟨r, env'⟩
  rw [hr] at hw
  cases r <;> simp only [avbAbDataWrite, hr, reduceCtorEq, if_true, if_false] at hw ⊢
  case ok =>
    rw [stored, hw]
    exact metadata_update hd
  all_goals exact stored_congr hw

lemma save_spec {d orig : AvbABData} (hd : Headed d) {env : σ}
    (horig : orig.slots = stored content env) :
    stored content (saveMetadataIfChanged ops d orig env).2 =
      if (saveMetadataIfChanged ops d orig env).1 = .ok then d.slots else stored content env := by
  unfold saveMetadataIfChanged
  split_ifs with hne hok hok
  · rw [write_spec dev hd, if_pos hok]
  · rw [write_spec dev hd, if_neg hok]
  · rw [not_not.mp hne, horig]
  · exact absurd rfl hok

/-- A load gives what is stored, with normal slots, or fails to store a new record. -/
inductive Loaded (ops : AvbOps σ) (content : σ → List UInt8) (orig : AvbABData) (env : σ) :
    AvbIOResult × AvbABData × AvbABData × σ → Prop
  | ok {d : AvbABData} {env' : σ} (headed : Headed d) (slots : d.slots = stored content env)
      (same : stored content env' = stored content env) :
      Loaded ops content orig env (.ok, { d with slots := normalizeSlots d.slots }, d, env')
  | fail {r : AvbIOResult} {env' : σ} (error : r ≠ .ok)
      (cause : ∃ env₁, (avbAbDataWrite ops avbAbDataInit env₁).1 ≠ .ok ∧
        env' = (avbAbDataWrite ops avbAbDataInit env₁).2)
      (slots : avbAbDataInit.slots = stored content env)
      (same : stored content env' = stored content env) :
      Loaded ops content orig env (r, avbAbDataInit, orig, env')

lemma load_spec (a orig : AvbABData) (env : σ) :
    Loaded ops content orig env (loadMetadata ops a orig env) := by
  obtain ⟨env', hread, hsame⟩ := dev.read env
  have hstored : stored content env' = stored content env := stored_congr hsame
  unfold loadMetadata
  rcases hv : avbAbDataVerifyAndByteswap (ofBytes (content env)) with _ | d
  · have hread' : avbAbDataRead ops a env = ((avbAbDataWrite ops avbAbDataInit env').1,
        avbAbDataInit, (avbAbDataWrite ops avbAbDataInit env').2) := by
      unfold avbAbDataRead
      rw [hread]
      simp only [hv]
      rfl
    rw [hread']
    have hinit : avbAbDataInit.slots = stored content env := by rw [stored, metadata_none hv]
    have hw := write_spec dev headed_init env'
    by_cases hok : (avbAbDataWrite ops avbAbDataInit env').1 = .ok
    · rw [if_pos hok] at hw
      simp only [hok, ne_eq, not_true_eq_false, if_false]
      exact .ok headed_init hinit (hw.trans hinit)
    · rw [if_neg hok] at hw
      simp only [ne_eq, hok, not_false_eq_true, if_true]
      exact .fail hok ⟨env', hok, rfl⟩ hinit (hw.trans hstored)
  · have hread' : avbAbDataRead ops a env = (.ok, d, env') := by
      unfold avbAbDataRead
      rw [hread]
      simp only [hv]
      rfl
    rw [hread']
    have hd : d = metadata (content env) := (metadata_some hv).symm
    simp only [ne_eq, not_true_eq_false, if_false]
    exact .ok (hd ▸ headed_metadata _) (by rw [hd, stored]) hstored

/-- **Marking**: the slots change as they should, or stay as they were if it fails. -/
lemma mark_spec (change : Slots → Slots) (stack : AvbABData × AvbABData) (env : σ) :
    stored content (markSlot ops change stack env).2 =
      if (markSlot ops change stack env).1 = .ok then change (normalizeSlots (stored content env))
      else stored content env := by
  have hload := load_spec dev stack.1 stack.2 env
  unfold markSlot
  rcases hr : loadMetadata ops stack.1 stack.2 env with ⟨r, abData, abDataOrig, env'⟩
  rw [hr] at hload
  cases hload with
  | ok headed slots same =>
    simp only [ne_eq, not_true_eq_false, if_false]
    rw [save_spec dev (d := { abDataOrig with slots := change (normalizeSlots abDataOrig.slots) })
      headed (slots.trans same.symm), slots, same]
  | fail error _ slots same =>
    simp only [ne_eq, error, not_false_eq_true, if_true, if_false]
    exact same

/-! ### On a device that keeps a record -/

variable {verify : SlotVerify σ} {allow : Bool}

lemma MiscStore.recorded : MiscStore (recorded ops) (content ∘ Logged.env) where
  read t := by
    obtain ⟨env', hread, hsame⟩ := dev.read t.env
    refine ⟨⟨env', t.calls⟩, ?_, hsame⟩
    rw [recorded_read, hread]
    rfl
  write t b hb := dev.write t.env b hb
  readRollback n t := dev.readRollback n t.env
  writeRollback n v t := dev.writeRollback n v t.env

omit dev in
lemma write_calls (d : AvbABData) (t : Logged σ) :
    t.calls ⊆ (avbAbDataWrite (recorded ops) d t).2.calls ∧
      ((avbAbDataWrite (recorded ops) d t).1 ≠ .ok →
        Failed ops verify allow (avbAbDataWrite (recorded ops) d t).2.calls) := by
  set b := (avbAbDataUpdateCrcAndByteswap d).bytes with hb
  set c : Call σ := .write miscName AB_METADATA_MISC_PARTITION_OFFSET b t.env with hc
  have hfails : (ops.writeToPartition miscName AB_METADATA_MISC_PARTITION_OFFSET b t.env).1 ≠ .ok →
      c.Fails ops verify allow := fun h => h
  have hrec := recorded_write ops miscName AB_METADATA_MISC_PARTITION_OFFSET b t
  rcases hw : ops.writeToPartition miscName AB_METADATA_MISC_PARTITION_OFFSET b t.env with ⟨r, env⟩
  rw [hw] at hrec hfails
  have hmem : c ∈ t.calls ++ [c] := List.mem_append_right _ (List.mem_singleton_self c)
  cases r <;> simp only [avbAbDataWrite, ← hb, hrec, Logged.note]
  case ok => exact ⟨List.subset_append_left _ _, fun h => absurd rfl h⟩
  all_goals exact ⟨List.subset_append_left _ _, fun _ => ⟨c, hmem, hfails (by simp)⟩⟩

omit dev in
lemma save_calls (d orig : AvbABData) (t : Logged σ) :
    t.calls ⊆ (saveMetadataIfChanged (recorded ops) d orig t).2.calls ∧
      ((saveMetadataIfChanged (recorded ops) d orig t).1 ≠ .ok →
        Failed ops verify allow (saveMetadataIfChanged (recorded ops) d orig t).2.calls) := by
  unfold saveMetadataIfChanged
  split_ifs
  · exact write_calls d t
  · exact ⟨List.Subset.refl _, fun h => absurd rfl h⟩

/-! ### Choosing a slot -/

omit dev in
/-- In the course of `avb_ab_flow` the slots are the stored ones without those that were dropped. -/
structure Base (content : σ → List UInt8) (verify : SlotVerify σ) (allow : Bool) (slots : Slots)
    (s : Flow (Logged σ)) : Prop where
  headed : Headed s.abData
  orig : s.abDataOrig.slots = slots
  same : stored content s.env.env = slots
  kept : ∃ dropped : Fin 2 → Bool,
    (∀ k, dropped k = true → Rejected verify allow s.env.calls k) ∧
      s.abData.slots = dropSlots dropped (normalizeSlots slots)

omit dev in
/-- The slots before `done` that can be booted were accepted. -/
def Verified (verify : SlotVerify σ) (allow : Bool) (done : ℕ) (s : Flow (Logged σ)) : Prop :=
  ∀ k : Fin 2, k.val < done → slotIsBootable (s.abData.slots k) = true →
    Accepted verify allow s.env.calls k (s.slotData k) (s.sawAndAllowedVerificationError = false)

variable {slots : Slots}

omit dev

lemma Base.env {s : Flow (Logged σ)} (h : Base content verify allow slots s) {t : Logged σ}
    (he : content t.env = content s.env.env) (hc : s.env.calls ⊆ t.calls) :
    Base content verify allow slots { s with env := t } :=
  let ⟨dropped, bad, hkept⟩ := h.kept
  ⟨h.headed, h.orig, (stored_congr he).trans h.same,
    dropped, fun k hk => (bad k hk).mono hc, hkept⟩

lemma Base.drop {s : Flow (Logged σ)} (h : Base content verify allow slots s) {n : Fin 2}
    (hn : Rejected verify allow s.env.calls n) : Base content verify allow slots
      { s with abData := { s.abData with slots := makeUnbootable n s.abData.slots } } := by
  obtain ⟨headed, orig, same, dropped, bad, hkept⟩ := h
  refine ⟨headed, orig, same, Function.update dropped n true, fun k hk => ?_, funext fun k => ?_⟩
  · obtain rfl | hne := eq_or_ne k n
    · exact hn
    · rw [Function.update_of_ne hne] at hk
      exact bad k hk
  · show makeUnbootable n s.abData.slots k = _
    obtain rfl | hne := eq_or_ne k n
    · rw [makeUnbootable, Function.update_self, dropSlots_true (Function.update_self ..), hkept]
      unfold dropSlots
      split_ifs <;> rfl
    · rw [makeUnbootable, Function.update_of_ne hne, hkept, dropSlots, dropSlots,
        Function.update_of_ne hne]

/-- One slot more is verified. -/
lemma Verified.succ {s s' : Flow (Logged σ)} {n : Fin 2} (h : Verified verify allow n.val s)
    (hcalls : s.env.calls ⊆ s'.env.calls)
    (hslots : ∀ k, k ≠ n → s'.abData.slots k = s.abData.slots k ∧ s'.slotData k = s.slotData k)
    (hsaw : s'.sawAndAllowedVerificationError = false → s.sawAndAllowedVerificationError = false)
    (hn : slotIsBootable (s'.abData.slots n) = true → Accepted verify allow s'.env.calls n
      (s'.slotData n) (s'.sawAndAllowedVerificationError = false)) :
    Verified verify allow (n.val + 1) s' := by
  intro k hk hb
  obtain rfl | hne := eq_or_ne k n
  · exact hn hb
  · obtain ⟨hs, hd⟩ := hslots k hne
    rw [hs] at hb
    rw [hd]
    have hlt : k.val < n.val := by
      have : k.val ≠ n.val := fun h => hne (Fin.ext h)
      omega
    exact (h k hlt hb).mono hcalls hsaw

/-- The flow behind a call that verified the slot `n`: the answer is known, and `n` is still to be
dealt with. -/
structure Asked (content : σ → List UInt8) (verify : SlotVerify σ) (allow : Bool) (slots : Slots)
    (n : Fin 2) (v : AvbSlotVerifyResult) (s : Flow (Logged σ)) : Prop where
  answer : ∃ env, .verify n env ∈ s.env.calls ∧ (verify n env).1 = (v, s.slotData n)
  base : Base content verify allow slots s
  verified : Verified verify allow n.val s

lemma setSlotUnbootable_holds {n : Fin 2} {v : AvbSlotVerifyResult} (hv : rejects allow v = true)
    {E : Option AvbABFlowResult → Flow (Logged σ) → Prop} :
    Holds (Asked content verify allow slots n v) (setSlotUnbootable n)
      (fun _ s => Base content verify allow slots s ∧ Verified verify allow (n.val + 1) s) E := by
  refine Holds.modify fun s hs => ?_
  obtain ⟨env, hmem, hanswer⟩ := hs.answer
  have hbad : Rejected verify allow s.env.calls n := ⟨env, hmem, by rw [hanswer]; exact hv⟩
  refine ⟨hs.base.drop hbad, hs.verified.succ (List.Subset.refl _) (fun k hk => ⟨?_, rfl⟩) id
    fun hboot => ?_⟩
  · exact Function.update_of_ne hk _ _
  · simp only [makeUnbootable, Function.update_self, unbootable_bootable] at hboot
    cases hboot

/-- A call that says nothing about the slot has failed. -/
lemma Asked.failed {n : Fin 2} {v : AvbSlotVerifyResult} {s : Flow (Logged σ)}
    (h : Asked content verify allow slots n v s) (hr : rejects allow v = false)
    (ha : accepts allow v = false) : Failed ops verify allow s.env.calls := by
  obtain ⟨env, hmem, hanswer⟩ := h.answer
  refine ⟨_, hmem, ?_, fun hacc => ?_⟩
  · rw [hanswer]
    exact hr
  · rw [hanswer, ha] at hacc
    cases hacc

/-- **Verifying a slot** drops it, lets it be booted, or leaves with an error. -/
lemma validateSlot_holds (hr : Reads content verify) (n : Fin 2) :
    Holds (fun s => Base content verify allow slots s ∧ Verified verify allow n.val s)
      (validateSlot (recordVerify verify) allow n)
      (fun _ s => Base content verify allow slots s ∧ Verified verify allow (n.val + 1) s)
      (fun e s => Fault ops verify allow s.env.calls e ∧ Base content verify allow slots s) := by
  refine Holds.bind_get fun t ht => ?_
  obtain ⟨hbase, hverified⟩ := ht
  refine Holds.ite (fun hboot => ?_) fun hboot => ?_
  · refine Holds.bind (Q := fun r s =>
      (∃ env, .verify n env ∈ s.env.calls ∧ (verify n env).1 = r) ∧
        Base content verify allow slots s ∧ Verified verify allow n.val s)
      (Holds.act fun s hs => ?_) fun r => ?_
    · subst hs
      have hcalls := Logged.note_calls s.env (.verify n s.env.env) (verify n s.env.env)
      exact ⟨⟨_, Logged.mem_note _ _ _, rfl⟩, hbase.env (hr n _) hcalls,
        fun k hk hb => (hverified k hk hb).mono hcalls id⟩
    obtain ⟨v, data⟩ := r
    refine Holds.bind (Q := fun _ => Asked content verify allow slots n v)
      (Holds.modify fun s hs => ?_) fun _ => ?_
    · obtain ⟨⟨env, hmem, hv⟩, hb, hver⟩ := hs
      refine ⟨⟨env, hmem, by simp only [hv, Function.update_self]⟩,
        ⟨hb.headed, hb.orig, hb.same, hb.kept⟩, fun k hk hbk => ?_⟩
      have hne : k ≠ n := fun h => by rw [h] at hk; omega
      simp only [Function.update_of_ne hne]
      exact hver k hk hbk
    cases v with
    | ok =>
      refine Holds.pure fun s hs => ?_
      obtain ⟨env, hmem, hv⟩ := hs.answer
      exact ⟨hs.base, hs.verified.succ (List.Subset.refl _) (fun k _ => ⟨rfl, rfl⟩) id
        fun _ => ⟨env, .ok, hmem, hv, rfl, fun _ => rfl⟩⟩
    | errorOom | errorIo | errorInvalidArgument =>
      exact Holds.fail fun s hs => ⟨⟨hs.failed rfl rfl, by simp⟩, hs.base⟩
    | errorInvalidMetadata | errorUnsupportedVersion => exact setSlotUnbootable_holds rfl
    | errorVerification | errorRollbackIndex | errorPublicKeyRejected =>
      refine Holds.ite (fun ha => ?_) fun ha =>
        setSlotUnbootable_holds (by simpa [rejects] using ha)
      refine Holds.modify fun s hs => ?_
      obtain ⟨⟨env, hmem, hv⟩, hb, hver⟩ := hs
      exact ⟨⟨hb.headed, hb.orig, hb.same, hb.kept⟩,
        hver.succ (List.Subset.refl _) (fun k _ => ⟨rfl, rfl⟩) (fun h => by cases h) fun _ =>
          ⟨env, _, hmem, hv, ha, fun h => by cases h⟩⟩
  · refine Holds.pure fun s hs => ?_
    subst hs
    exact ⟨hbase, hverified.succ (List.Subset.refl _) (fun k _ => ⟨rfl, rfl⟩) id
      fun hb => absurd hb hboot⟩

lemma checkIo_holds {P : Flow (Logged σ) → Prop} {r : AvbIOResult} :
    Holds (fun s => P s ∧ (r ≠ .ok → Failed ops verify allow s.env.calls)) (checkIo r) (fun _ => P)
      (fun e s => Fault ops verify allow s.env.calls e ∧ P s) := by
  cases r with
  | ok => exact Holds.pure fun s hs => hs.1
  | _ => exact Holds.fail fun s hs => ⟨⟨hs.2 (by simp), by simp⟩, hs.1⟩

include dev in
/-- The rollback indexes are kept apart from the metadata. -/
lemma updateRollbackIndex_holds (n : ℕ) {P : Flow (Logged σ) → Prop}
    (henv : ∀ s t, P s → content t.env = content s.env.env → s.env.calls ⊆ t.calls →
      P { s with env := t }) :
    Holds P (updateRollbackIndex (recorded ops) n) (fun _ => P)
      (fun e s => Fault ops verify allow s.env.calls e ∧ P s) := by
  refine Holds.bind_get fun t ht => ?_
  refine Holds.pre (Holds.ite (P := P) (fun _ => ?_) fun _ => Holds.pure fun s hs => hs)
    fun s hs => hs ▸ ht
  refine Holds.bind (Q := fun (r : AvbIOResult × UInt64) s =>
      P s ∧ (r.1 ≠ .ok → Failed ops verify allow s.env.calls))
    (Holds.act fun s hs => ⟨henv s _ hs (dev.readRollback n _) (Logged.note_calls _ _ _),
      fun h => ⟨.readRollback n s.env.env, Logged.mem_note _ _ _, h⟩⟩) fun ⟨r, current⟩ => ?_
  refine Holds.bind checkIo_holds fun _ => ?_
  refine Holds.ite (fun _ => ?_) fun _ => Holds.pure fun s hs => hs
  exact Holds.bind (Q := fun (r : AvbIOResult) s =>
      P s ∧ (r ≠ .ok → Failed ops verify allow s.env.calls))
    (Holds.act fun s hs => ⟨henv s _ hs (dev.writeRollback n _ _) (Logged.note_calls _ _ _),
      fun h => ⟨.writeRollback n _ s.env.env, Logged.mem_note _ _ _, h⟩⟩) fun r => checkIo_holds

/-- The slot `n` was chosen, and `data` are its data. -/
structure Chosen (content : σ → List UInt8) (verify : SlotVerify σ) (allow : Bool) (slots : Slots)
    (r : AvbABFlowResult × AvbSlotVerifyData) (n : Fin 2) (s : Flow (Logged σ)) : Prop where
  headed : Headed s.abData
  orig : s.abDataOrig.slots = slots
  same : stored content s.env.env = slots
  used : ∃ dropped : Fin 2 → Bool,
    (∀ k, dropped k = true → Rejected verify allow s.env.calls k) ∧
      slotIndexToBoot (dropSlots dropped (normalizeSlots slots)) = some n ∧
      s.abData.slots = Function.update (dropSlots dropped (normalizeSlots slots)) n
        (useTry (dropSlots dropped (normalizeSlots slots) n))
  verified : Accepted verify allow s.env.calls n (some r.2) (r.1 = .ok)
  result : r.1 = .ok ∨ r.1 = .okWithVerificationError

/-- What a load that failed leaves. -/
structure Unloaded (content : σ → List UInt8) (slots : Slots) (s : Flow (Logged σ)) : Prop where
  headed : Headed s.abData
  init : s.abData.slots = slots
  same : stored content s.env.env = slots

/-- Why the flow leaves before its end, and what it leaves then. -/
inductive Stopped (ops : AvbOps σ) (content : σ → List UInt8) (verify : SlotVerify σ)
    (allow : Bool) (slots : Slots) (e : Option AvbABFlowResult) (s : Flow (Logged σ)) : Prop
  | trouble (cause : Fault ops verify allow s.env.calls e)
      (h : Base content verify allow slots s ∨ Unloaded content slots s)
  | noSlots (h : Base content verify allow slots s)
      (none : slotIndexToBoot s.abData.slots = none)

include dev in
/-- **The flow up to its end** chooses a slot, or fails with what it was at. -/
lemma flowBody_holds (allow : Bool) (hr : Reads content verify) (a orig : AvbABData)
    (t : Logged σ) :
    Holds (fun s => s = ⟨t, a, orig, fun _ => none, false⟩)
      (flowBody (recorded ops) (recordVerify verify) allow)
      (fun r s => ∃ n, Chosen content verify allow (stored content t.env) r n s)
      (Stopped ops content verify allow (stored content t.env)) := by
  set slots := stored content t.env with hslots
  unfold flowBody
  -- the load
  refine Holds.bind (Q := fun r s => if r = .ok then
      Base content verify allow slots s ∧ Verified verify allow 0 s
    else Failed ops verify allow s.env.calls ∧ Unloaded content slots s) (Holds.act ?_) fun r => ?_
  · rintro s rfl
    have hload := load_spec dev.recorded a orig t
    rcases hl : loadMetadata (recorded ops) a orig t with ⟨r, abData, abDataOrig, t'⟩
    rw [hl] at hload
    cases hload with
    | ok headed hs same =>
      simp only [if_true]
      refine ⟨⟨headed, hs, same, fun _ => false, fun _ h => (by cases h), ?_⟩, fun k hk => ?_⟩
      · simp only [hs]
        rfl
      · omega
    | fail error cause hs same =>
      obtain ⟨t₁, hw, rfl⟩ := cause
      simp only [error, if_false]
      exact ⟨(write_calls avbAbDataInit t₁).2 hw, headed_init, hs, same⟩
  refine Holds.bind (Q := fun _ s => Base content verify allow slots s ∧
    Verified verify allow 0 s) ?_ fun _ => ?_
  · cases r with
    | ok => exact Holds.pure fun s hs => hs
    | _ => exact Holds.fail fun s hs => .trouble ⟨hs.1, by simp⟩ (Or.inr hs.2)
  -- the two slots
  have hvalidate : ∀ n : Fin 2, Holds
      (fun s => Base content verify allow slots s ∧ Verified verify allow n.val s)
      (validateSlot (recordVerify verify) allow n)
      (fun _ s => Base content verify allow slots s ∧ Verified verify allow (n.val + 1) s)
      (Stopped ops content verify allow slots) := fun n =>
    (validateSlot_holds hr n).imp (fun _ h => h) (fun _ _ h => h) fun _ _ h =>
      .trouble h.1 (Or.inl h.2)
  refine Holds.bind (hvalidate 0) fun _ => ?_
  refine Holds.bind (hvalidate 1) fun _ => ?_
  refine Holds.bind_get fun t ⟨hbase, hverified⟩ => ?_
  rcases hi : slotIndexToBoot t.abData.slots with _ | i
  · exact Holds.fail fun s hs => by subst hs; exact .noSlots hbase hi
  -- the rollback indexes leave all but the device as it was
  set I : Flow (Logged σ) → Prop := fun s => content s.env.env = content t.env.env ∧
    t.env.calls ⊆ s.env.calls ∧ s = { t with env := s.env } with hI
  have hround : ∀ n, Holds I (updateRollbackIndex (recorded ops) n) (fun _ => I)
      (Stopped ops content verify allow slots) := fun n =>
    (updateRollbackIndex_holds dev n fun s env hs he hc =>
        ⟨he.trans hs.1, List.Subset.trans hs.2.1 hc, by rw [hs.2.2]⟩).imp
      (fun _ h => h) (fun _ _ h => h) fun _ s h => by
        obtain ⟨cause, he, hc, hs⟩ := h
        rw [hs] at cause ⊢
        exact .trouble cause (Or.inl (hbase.env he hc))
  refine Holds.bind (Q := fun _ => I) ((Holds.each (I := fun _ => I) []
    fun _ n _ => hround n).pre fun s hs => hs ▸ ⟨rfl, List.Subset.refl _, rfl⟩) fun _ => ?_
  obtain ⟨hboot, -⟩ := slotIndexToBoot_spec hi
  have haccepted := hverified i (by omega) hboot
  rcases hd : t.slotData i with _ | data
  · refine Holds.fail fun s ⟨he, hc, hs⟩ => ?_
    obtain ⟨env', v, hmem, hv, ha, -⟩ := haccepted
    have hfails : (Call.verify i env').Fails ops verify allow := by
      refine ⟨?_, fun _ => ?_⟩
      · rw [hv]
        exact rejects_of_accepts ha
      · rw [hv]
        exact hd
    rw [hs]
    exact .trouble ⟨⟨_, hc hmem, hfails⟩, by simp⟩ (Or.inl (hbase.env he hc))
  · refine Holds.bind (Q := fun _ s => content s.env.env = content t.env.env ∧
      t.env.calls ⊆ s.env.calls ∧ s = { t with env := s.env, abData := { t.abData with
        slots := Function.update t.abData.slots i (useTry (t.abData.slots i)) } })
      (Holds.modify fun s ⟨he, hc, hs⟩ => ⟨he, hc, by rw [hs]⟩) fun _ => ?_
    refine Holds.pure fun s ⟨he, hc, hs⟩ => ⟨i, ?_⟩
    obtain ⟨headed, horig, same, dropped, bad, hkept⟩ := hbase
    have hsame : stored content s.env.env = slots := (stored_congr he).trans same
    have hused : Accepted verify allow t.env.calls i (some data)
      (t.sawAndAllowedVerificationError = false) := hd ▸ haccepted
    rw [hs]
    refine ⟨headed, horig, hsame,
      ⟨dropped, fun k hk => (bad k hk).mono hc, hkept ▸ hi, by rw [hkept]⟩,
      hused.mono hc fun h => ?_, ?_⟩
    · by_contra hsaw
      simp only [Bool.not_eq_false] at hsaw
      simp [hsaw] at h
    · split_ifs
      · exact Or.inr rfl
      · exact Or.inl rfl

/-! ### The whole flow -/

/-- A flow with these calls boots a slot that was accepted, or makes no more of the slots than a
failure may. -/
inductive Flowed (ops : AvbOps σ) (content : σ → List UInt8) (verify : SlotVerify σ)
    (allow : Bool) (slots : Slots) (l : List (Call σ)) :
    Option (AvbABFlowResult × Option AvbSlotVerifyData) × σ → Prop
  | boots {ret : AvbABFlowResult} {data : AvbSlotVerifyData} {env' : σ} (n : Fin 2)
      (step : Step (fun k => ¬ Rejected verify allow l k) slots (.boot n) (stored content env'))
      (verified : Accepted verify allow l n (some data) (ret = .ok))
      (result : ret = .ok ∨ ret = .okWithVerificationError) :
      Flowed ops content verify allow slots l (some (ret, some data), env')
  | stops {r : Option AvbABFlowResult} {env' : σ}
      (step : Step (fun k => ¬ Rejected verify allow l k) slots .idle (stored content env'))
      (cause : Fault ops verify allow l r ∨ ∃ dropped : Fin 2 → Bool,
        (∀ k, dropped k = true → Rejected verify allow l k) ∧
          slotIndexToBoot (dropSlots dropped (normalizeSlots slots)) = none) :
      Flowed ops content verify allow slots l (r.map fun ret => (ret, none), env')

include dev in
/-- From `out` on, what is saved is what the flow has made of the slots. -/
lemma finish_spec (verify : SlotVerify σ) (allow : Bool) {s : Flow (Logged σ)}
    (ret : AvbABFlowResult) (data : Option AvbSlotVerifyData) (headed : Headed s.abData)
    (horig : s.abDataOrig.slots = stored content s.env.env ∨
      s.abData.slots = stored content s.env.env) :
    ∃ t : Logged σ, s.env.calls ⊆ t.calls ∧ ((stored content t.env = s.abData.slots ∧
        avbAbFlow.finish (recorded ops) s ret data = (some (ret, data), t)) ∨
      ∃ ret', Fault ops verify allow t.calls (some ret') ∧
        stored content t.env = stored content s.env.env ∧
        avbAbFlow.finish (recorded ops) s ret data = (some (ret', none), t)) := by
  have hsave : stored content (saveMetadataIfChanged (recorded ops) s.abData s.abDataOrig
        s.env).2.env =
      if (saveMetadataIfChanged (recorded ops) s.abData s.abDataOrig s.env).1 = .ok then
        s.abData.slots
      else stored content s.env.env := by
    rcases horig with horig | hsame
    · exact save_spec dev.recorded headed horig
    · unfold saveMetadataIfChanged
      split_ifs with hne hok hok
      · exact (write_spec dev.recorded headed s.env).trans (if_pos hok)
      · exact (write_spec dev.recorded headed s.env).trans (if_neg hok)
      · exact hsame.symm
      · exact absurd rfl hok
  obtain ⟨hcalls, hfail⟩ : _ ∧ (_ → Failed ops verify allow _) :=
    save_calls s.abData s.abDataOrig s.env
  unfold avbAbFlow.finish
  rcases hs : saveMetadataIfChanged (recorded ops) s.abData s.abDataOrig s.env with ⟨r, t⟩
  rw [hs] at hsave hcalls hfail
  refine ⟨t, hcalls, ?_⟩
  cases r with
  | ok => exact Or.inl ⟨by simpa using hsave, rfl⟩
  | errorOom => exact Or.inr ⟨.errorOom, ⟨hfail (by simp), by simp⟩, by simpa using hsave, rfl⟩
  | _ => exact Or.inr ⟨.errorIo, ⟨hfail (by simp), by simp⟩, by simpa using hsave, rfl⟩

include dev in
/-- The same on a device that keeps a record, whatever was recorded before. -/
lemma flow_recorded (allow : Bool) (hr : Reads content verify) (stack : AvbABData × AvbABData)
    (t : Logged σ) {r : Option (AvbABFlowResult × Option AvbSlotVerifyData)} {t' : Logged σ}
    (h : avbAbFlow (recorded ops) (recordVerify verify) allow stack t = (r, t')) :
    Flowed ops content verify allow (stored content t.env) t'.calls (r, t'.env) := by
  have hbody := flowBody_holds dev allow hr stack.1 stack.2 t
  unfold avbAbFlow at h
  rcases hb : flowBody (recorded ops) (recordVerify verify) allow
    ⟨t, stack.1, stack.2, fun _ => none, false⟩ with ⟨e | ⟨ret, data⟩, s⟩
  · rw [hb] at h
    have hstop := hbody.error rfl hb
    have herr : Base content verify allow (stored content t.env) s ∨
        Unloaded content (stored content t.env) s := by
      rcases hstop with ⟨-, h⟩ | ⟨h, -⟩
      · exact h
      · exact Or.inl h
    have hcause : ∀ l, s.env.calls ⊆ l → Fault ops verify allow l e ∨ ∃ dropped : Fin 2 → Bool,
        (∀ k, dropped k = true → Rejected verify allow l k) ∧
          slotIndexToBoot (dropSlots dropped (normalizeSlots (stored content t.env))) = none := by
      intro l hl
      rcases hstop with ⟨h, -⟩ | ⟨h, hnone⟩
      · exact Or.inl ⟨h.1.mono hl, h.2⟩
      · obtain ⟨dropped, bad, hkept⟩ := h.kept
        exact Or.inr ⟨dropped, fun k hk => (bad k hk).mono hl, hkept ▸ hnone⟩
    have hsame : stored content s.env.env = stored content t.env :=
      herr.elim Base.same Unloaded.same
    rcases e with _ | ret
    · cases h
      exact Flowed.stops (r := none) (hsame ▸ Step.fail) (hcause _ (List.Subset.refl _))
    · change avbAbFlow.finish (recorded ops) s ret none = _ at h
      obtain ⟨t'', hcalls, ⟨hst, hf⟩ | ⟨ret', ht, hst, hf⟩⟩ := finish_spec dev verify allow ret
        none (herr.elim Base.headed Unloaded.headed)
        (herr.elim (fun h => Or.inl (h.orig.trans hsame.symm))
          fun h => Or.inr (h.init.trans hsame.symm))
      · rw [hf] at h
        cases h
        refine Flowed.stops (r := some ret) ?_ (hcause _ hcalls)
        rw [hst]
        rcases herr with h | h
        · obtain ⟨dropped, bad, hkept⟩ := h.kept
          exact hkept ▸ Step.stop dropped fun k hk => not_not.mpr ((bad k hk).mono hcalls)
        · exact h.init ▸ Step.fail
      · rw [hf] at h
        cases h
        exact Flowed.stops (r := some ret') (by rw [hst, hsame]; exact Step.fail) (Or.inl ht)
  · rw [hb] at h
    change avbAbFlow.finish (recorded ops) s ret (some data) = _ at h
    obtain ⟨n, headed, horig, hsame, ⟨dropped, bad, hchosen, hused⟩, hv, hres⟩ := hbody.ok rfl hb
    obtain ⟨t'', hcalls, ⟨hst, hf⟩ | ⟨ret', ht, hst, hf⟩⟩ := finish_spec dev verify allow ret
      (some data) headed (Or.inl (horig.trans hsame.symm))
    · rw [hf] at h
      cases h
      refine Flowed.boots n ?_ (hv.mono hcalls id) hres
      rw [hst, hused]
      exact Step.boot dropped (fun k hk => not_not.mpr ((bad k hk).mono hcalls)) hchosen
    · rw [hf] at h
      cases h
      exact Flowed.stops (r := some ret') (by rw [hst, hsame]; exact Step.fail) (Or.inl ht)

include dev in
/-- **The flow** makes one of the moves, and boots nothing only for a reason. -/
lemma flow_spec (allow : Bool) (hr : Reads content verify) (stack : AvbABData × AvbABData)
    (env : σ) :
    Flowed ops content verify allow (stored content env) (calls ops verify allow stack env)
      (avbAbFlow ops verify allow stack env) := by
  rw [avbAbFlow_recorded ops verify allow stack ⟨env, []⟩]
  exact flow_recorded dev allow hr stack ⟨env, []⟩ rfl

include dev in
/-- **What is booted**: a slot that a call of the verification accepted, before which no slot comes
that no call of it dropped. Its data are what that call gave, and one try of it is used up; slots
that were dropped are stored as unbootable. -/
theorem flow_boots (hr : Reads content verify) {stack : AvbABData × AvbABData} {env : σ}
    {ret : AvbABFlowResult} {data : AvbSlotVerifyData}
    (h : (avbAbFlow ops verify allow stack env).1 = some (ret, some data)) :
    ∃ (n : Fin 2) (left : Slots),
      (∃ dropped : Fin 2 → Bool,
        (∀ k, dropped k = true → Rejected verify allow (calls ops verify allow stack env) k) ∧
          left = dropSlots dropped (normalizeSlots (stored content env))) ∧
      slotIsBootable (left n) = true ∧
      (slotIsBootable (left (1 - n)) = true → (left (1 - n)).priority ≤ (left n).priority) ∧
      stored content (avbAbFlow ops verify allow stack env).2 =
        Function.update left n (useTry (left n)) ∧
      Accepted verify allow (calls ops verify allow stack env) n (some data) (ret = .ok) := by
  have hspec := flow_spec dev allow hr stack env
  rcases hf : avbAbFlow ops verify allow stack env with ⟨r, env'⟩
  rw [hf] at hspec h
  cases hspec with
  | @boots ret' data' _ n step verified result =>
    cases h
    generalize stored content env' = after at step ⊢
    cases step with
    | boot dropped bad chosen =>
      obtain ⟨hboot, hfirst⟩ := slotIndexToBoot_spec chosen
      exact ⟨n, _, ⟨dropped, fun k hk => not_not.mp (bad k hk), rfl⟩, hboot, hfirst, rfl, verified⟩
  | @stops r' _ step cause =>
    rcases r' with _ | r' <;> cases h

end Device

/-! ### The plainest device -/

/-- A device that keeps the 32 bytes and the rollback indexes, and never fails. -/
def plainOps : AvbOps (List UInt8 × (ℕ → UInt64)) where
  readFromPartition _ _ _ env := (.ok, some AVB_AB_DATA_SIZE, env.1, env)
  writeToPartition _ _ b env := (.ok, b, env.2)
  readRollbackIndex n env := ((.ok, env.2 n), env)
  writeRollbackIndex n v env := (.ok, env.1, Function.update env.2 n v)

lemma plainOps_store : MiscStore plainOps Prod.fst where
  read env := ⟨env, rfl, rfl⟩
  write _ _ _ := rfl
  readRollback _ _ := rfl
  writeRollback _ _ _ := rfl

/-- Data without rollback indexes. -/
def plainData (suffix : List UInt8) : AvbSlotVerifyData := ⟨suffix, fun _ => 0⟩

/-- Every slot is fine. -/
def plainVerify : SlotVerify (List UInt8 × (ℕ → UInt64)) := fun n env =>
  ((.ok, some (plainData (slotSuffixes n))), env)

/-- A device without metadata. -/
def plainEnv : List UInt8 × (ℕ → UInt64) := ([], fun _ => 0)

theorem flow_boots_new : ∃ (n : Fin 2) (left : Slots),
    (∃ dropped : Fin 2 → Bool,
      (∀ k, dropped k = true → Rejected plainVerify false
        (calls plainOps plainVerify false (avbAbDataInit, avbAbDataInit) plainEnv) k) ∧
        left = dropSlots dropped (normalizeSlots (stored Prod.fst plainEnv))) ∧
    slotIsBootable (left n) = true ∧
    (slotIsBootable (left (1 - n)) = true → (left (1 - n)).priority ≤ (left n).priority) ∧
    stored Prod.fst (avbAbFlow plainOps plainVerify false
        (avbAbDataInit, avbAbDataInit) plainEnv).2 = Function.update left n (useTry (left n)) ∧
    Accepted plainVerify false
      (calls plainOps plainVerify false (avbAbDataInit, avbAbDataInit) plainEnv) n
      (some (plainData [0x5F, 0x61])) (AvbABFlowResult.ok = .ok) :=
  flow_boots plainOps_store (fun _ _ => rfl) rfl

end UefiToolkit.AbFlow
