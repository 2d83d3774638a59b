import UefiToolkit.AbModel

/-!
The calls that `avb_ab_flow` makes, with the state of the device that each was made in.

They are told by a device that keeps a record of them; the record changes nothing of what the flow
does.
-/

namespace UefiToolkit.AbCalls

open UefiToolkit.AvbModel UefiToolkit.AvbTypes UefiToolkit.Effect UefiToolkit.AbModel

variable {σ : Type}

/-- A call that is recorded, and the state it was made in. -/
inductive Call (σ : Type)
  | write (name : List UInt8) (offset : ℤ) (b : List UInt8) (env : σ)
  | readRollback (n : ℕ) (env : σ)
  | writeRollback (n : ℕ) (v : UInt64) (env : σ)
  | verify (n : Fin 2) (env : σ)

/-- A device with the calls so far. -/
structure Logged (σ : Type) where
  env : σ
  calls : List (Call σ)

/-- What a call answers, with the call noted. -/
def Logged.note {α : Type} (t : Logged σ) (c : Call σ) (r : α × σ) : α × Logged σ :=
  (r.1, ⟨r.2, t.calls ++ [c]⟩)

/-- The operations, recorded but for the reads of a partition. -/
def recorded (ops : AvbOps σ) : AvbOps (Logged σ) where
  readFromPartition name offset n t :=
    let (ioRet, numRead, b, env) := ops.readFromPartition name offset n t.env
    (ioRet, numRead, b, ⟨env, t.calls⟩)
  writeToPartition name offset b t :=
    t.note (.write name offset b t.env) (ops.writeToPartition name offset b t.env)
  readRollbackIndex n t := t.note (.readRollback n t.env) (ops.readRollbackIndex n t.env)
  writeRollbackIndex n v t := t.note (.writeRollback n v t.env) (ops.writeRollbackIndex n v t.env)

def recordVerify (verify : SlotVerify σ) : SlotVerify (Logged σ) := fun n t =>
  t.note (.verify n t.env) (verify n t.env)

/-- The calls of a flow, in their order. -/
def calls (ops : AvbOps σ) (verify : SlotVerify σ) (allow : Bool) (stack : AvbABData × AvbABData)
    (env : σ) : List (Call σ) :=
  (avbAbFlow (recorded ops) (recordVerify verify) allow stack ⟨env, []⟩).2.calls

/-! ### What calls come to -/

/-- The verification drops the slot. -/
def rejects (allow : Bool) : AvbSlotVerifyResult → Bool
  | .errorInvalidMetadata | .errorUnsupportedVersion => true
  | .errorVerification | .errorRollbackIndex | .errorPublicKeyRejected => !allow
  | _ => false

/-- The verification lets the slot be booted. -/
def accepts (allow : Bool) : AvbSlotVerifyResult → Bool
  | .ok => true
  | .errorVerification | .errorRollbackIndex | .errorPublicKeyRejected => allow
  | _ => false

lemma rejects_of_accepts {allow : Bool} {v : AvbSlotVerifyResult} (h : accepts allow v = true) :
    rejects allow v = false := by
  cases v <;> simp_all [accepts, rejects]

/-- A write or an access to a rollback index fails, or a verification says nothing about the slot
or accepts it without giving its data. -/
def Call.Fails (ops : AvbOps σ) (verify : SlotVerify σ) (allow : Bool) : Call σ → Prop
  | .write name offset b env => (ops.writeToPartition name offset b env).1 ≠ .ok
  | .readRollback n env => (ops.readRollbackIndex n env).1.1 ≠ .ok
  | .writeRollback n v env => (ops.writeRollbackIndex n v env).1 ≠ .ok
  | .verify n env => rejects allow (verify n env).1.1 = false ∧
      (accepts allow (verify n env).1.1 = true → (verify n env).1.2 = none)

/-- One of the calls fails. -/
def Failed (ops : AvbOps σ) (verify : SlotVerify σ) (allow : Bool) (l : List (Call σ)) : Prop :=
  ∃ c ∈ l, c.Fails ops verify allow

/-- One of the calls verifies the slot and drops it. -/
def Rejected (verify : SlotVerify σ) (allow : Bool) (l : List (Call σ)) (n : Fin 2) : Prop :=
  ∃ env, .verify n env ∈ l ∧ rejects allow (verify n env).1.1 = true

/-- One of the calls verifies the slot, lets it be booted, and gives these data; with a clean
result where that is asked for. -/
def Accepted (verify : SlotVerify σ) (allow : Bool) (l : List (Call σ)) (n : Fin 2)
    (data : Option AvbSlotVerifyData) (clean : Prop) : Prop :=
  ∃ env v, .verify n env ∈ l ∧ (verify n env).1 = (v, data) ∧ accepts allow v = true ∧
    (clean → v = .ok)

section Calls

variable {ops : AvbOps σ} {verify : SlotVerify σ} {allow : Bool} {l l' : List (Call σ)}

lemma Failed.mono (h : Failed ops verify allow l) (hl : l ⊆ l') : Failed ops verify allow l' :=
  let ⟨c, hc, hf⟩ := h
  ⟨c, hl hc, hf⟩

lemma Rejected.mono {n : Fin 2} (h : Rejected verify allow l n) (hl : l ⊆ l') :
    Rejected verify allow l' n :=
  let ⟨env, hc, hr⟩ := h
  ⟨env, hl hc, hr⟩

lemma Accepted.mono {n : Fin 2} {data : Option AvbSlotVerifyData} {clean clean' : Prop}
    (h : Accepted verify allow l n data clean) (hl : l ⊆ l') (hc : clean' → clean) :
    Accepted verify allow l' n data clean' :=
  let ⟨env, v, hm, hv, ha, hok⟩ := h
  ⟨env, v, hl hm, hv, ha, fun h => hok (hc h)⟩

lemma Logged.note_calls {α : Type} (t : Logged σ) (c : Call σ) (r : α × σ) :
    t.calls ⊆ (t.note c r).2.calls := List.subset_append_left _ _

lemma Logged.mem_note {α : Type} (t : Logged σ) (c : Call σ) (r : α × σ) :
    c ∈ (t.note c r).2.calls := List.mem_append_right _ (List.mem_singleton_self c)

end Calls

/-! ### The record changes nothing -/

section Recorded

variable (ops : AvbOps σ)

lemma recorded_write (name : List UInt8) (offset : ℤ) (b : List UInt8) (t : Logged σ) :
    (recorded ops).writeToPartition name offset b t =
      t.note (.write name offset b t.env) (ops.writeToPartition name offset b t.env) := rfl

lemma recorded_read (name : List UInt8) (offset : ℤ) (n : ℕ) (t : Logged σ) :
    (recorded ops).readFromPartition name offset n t =
      ((ops.readFromPartition name offset n t.env).1,
        (ops.readFromPartition name offset n t.env).2.1,
        (ops.readFromPartition name offset n t.env).2.2.1,
        ⟨(ops.readFromPartition name offset n t.env).2.2.2, t.calls⟩) := rfl

lemma avbAbDataWrite_recorded (data : AvbABData) (t : Logged σ) :
    avbAbDataWrite ops data t.env =
      ((avbAbDataWrite (recorded ops) data t).1, (avbAbDataWrite (recorded ops) data t).2.env) := by
  rcases hw : ops.writeToPartition miscName AB_METADATA_MISC_PARTITION_OFFSET
    (avbAbDataUpdateCrcAndByteswap data).bytes t.env with ⟨r, env⟩
  have hrec := recorded_write ops miscName AB_METADATA_MISC_PARTITION_OFFSET
    (avbAbDataUpdateCrcAndByteswap data).bytes t
  rw [hw] at hrec
  cases r <;> simp only [avbAbDataWrite, hw, hrec, Logged.note]

lemma avbAbDataRead_recorded (data : AvbABData) (t : Logged σ) :
    avbAbDataRead ops data t.env =
      ((avbAbDataRead (recorded ops) data t).1, (avbAbDataRead (recorded ops) data t).2.1,
        (avbAbDataRead (recorded ops) data t).2.2.env) := by
  rcases hr : ops.readFromPartition miscName AB_METADATA_MISC_PARTITION_OFFSET AVB_AB_DATA_SIZE
    t.env with ⟨r, numRead, b, env⟩
  have hrec := recorded_read ops miscName AB_METADATA_MISC_PARTITION_OFFSET AVB_AB_DATA_SIZE t
  rw [hr] at hrec
  unfold avbAbDataRead
  rw [hr, hrec]
  cases r
  case ok =>
    by_cases hn : numRead = some AVB_AB_DATA_SIZE
    · rcases hv : avbAbDataVerifyAndByteswap (ofBytes b) with _ | d
      · simp only [hn, hv, avbAbDataWrite_recorded ops avbAbDataInit ⟨env, t.calls⟩, ne_eq,
          not_true_eq_false, if_false]
      · simp only [hn, hv, ne_eq, not_true_eq_false, if_false]
    · simp only [ne_eq, hn, not_false_eq_true, if_true]
  all_goals rfl

lemma loadMetadata_recorded (a orig : AvbABData) (t : Logged σ) :
    loadMetadata ops a orig t.env =
      ((loadMetadata (recorded ops) a orig t).1, (loadMetadata (recorded ops) a orig t).2.1,
        (loadMetadata (recorded ops) a orig t).2.2.1,
        (loadMetadata (recorded ops) a orig t).2.2.2.env) := by
  unfold loadMetadata
  rw [avbAbDataRead_recorded]
  simp only
  split_ifs <;> rfl

lemma saveMetadataIfChanged_recorded (d orig : AvbABData) (t : Logged σ) :
    saveMetadataIfChanged ops d orig t.env =
      ((saveMetadataIfChanged (recorded ops) d orig t).1,
        (saveMetadataIfChanged (recorded ops) d orig t).2.env) := by
  unfold saveMetadataIfChanged
  split_ifs
  · exact avbAbDataWrite_recorded ops d t
  · rfl

/-- The variables of the flow, without the record. -/
def unlogged (s : Flow (Logged σ)) : Flow σ :=
  ⟨s.env.env, s.abData, s.abDataOrig, s.slotData, s.sawAndAllowedVerificationError⟩

lemma unlogged_abData (s : Flow (Logged σ)) : (unlogged s).abData = s.abData := rfl

lemma unlogged_slotData (s : Flow (Logged σ)) : (unlogged s).slotData = s.slotData := rfl

variable (verify : SlotVerify σ) (allow : Bool)

lemma checkIo_recorded (r : AvbIOResult) :
    Mirrors unlogged (checkIo r) (checkIo r : FlowM σ Unit) := by
  cases r
  case ok => exact .pure
  all_goals exact .fail

lemma validateSlot_recorded (n : Fin 2) :
    Mirrors unlogged (validateSlot (recordVerify verify) allow n)
      (validateSlot verify allow n) := by
  have hdrop : Mirrors unlogged (setSlotUnbootable n) (setSlotUnbootable n : FlowM σ Unit) :=
    .modify fun _ => rfl
  refine .bind_get fun t => .ite (fun _ => ?_) fun _ => .pure
  refine .bind (.act fun _ => rfl) fun r => ?_
  refine .bind (.modify fun _ => rfl) fun _ => ?_
  rcases r.1
  case ok => exact .pure
  case errorInvalidMetadata | errorUnsupportedVersion => exact hdrop
  case errorVerification | errorRollbackIndex | errorPublicKeyRejected =>
    exact .ite (fun _ => .modify fun _ => rfl) fun _ => hdrop
  all_goals exact .fail

lemma updateRollbackIndex_recorded (n : ℕ) :
    Mirrors unlogged (updateRollbackIndex (recorded ops) n) (updateRollbackIndex ops n) := by
  refine .bind_get fun t => .ite (fun _ => ?_) fun _ => .pure
  refine .bind (.act fun _ => rfl) fun r => ?_
  refine .bind (checkIo_recorded r.1) fun _ => .ite (fun _ => ?_) fun _ => .pure
  exact .bind (.act fun _ => rfl) fun r => checkIo_recorded r

lemma flowBody_recorded :
    Mirrors unlogged (flowBody (recorded ops) (recordVerify verify) allow)
      (flowBody ops verify allow) := by
  refine .bind (.act fun s => ?_) fun r => ?_
  · simp only [unlogged, loadMetadata_recorded]
  refine .bind (checkIo_recorded r) fun _ => ?_
  refine .bind (validateSlot_recorded verify allow 0) fun _ => ?_
  refine .bind (validateSlot_recorded verify allow 1) fun _ => ?_
  refine .bind_get fun t => ?_
  rw [unlogged_abData]
  rcases slotIndexToBoot t.abData.slots with _ | i
  · exact .fail
  refine .bind (.each (updateRollbackIndex_recorded ops)) fun _ => ?_
  rw [unlogged_slotData]
  rcases t.slotData i with _ | data
  · exact .fail
  · exact .bind (.modify fun _ => rfl) fun _ => .pure

/-- **The record changes nothing**: the flow gives the same and leaves the device the same. -/
theorem avbAbFlow_recorded (stack : AvbABData × AvbABData) (t : Logged σ) :
    avbAbFlow ops verify allow stack t.env =
      ((avbAbFlow (recorded ops) (recordVerify verify) allow stack t).1,
        (avbAbFlow (recorded ops) (recordVerify verify) allow stack t).2.env) := by
  have hfinish : ∀ (s : Flow (Logged σ)) ret data, avbAbFlow.finish ops (unlogged s) ret data =
      ((avbAbFlow.finish (recorded ops) s ret data).1,
        (avbAbFlow.finish (recorded ops) s ret data).2.env) := by
    intro s ret data
    unfold avbAbFlow.finish
    simp only [unlogged, saveMetadataIfChanged_recorded]
    rcases (saveMetadataIfChanged (recorded ops) s.abData s.abDataOrig s.env).1 <;> rfl
  have hbody := flowBody_recorded ops verify allow ⟨t, stack.1, stack.2, fun _ => none, false⟩
  unfold avbAbFlow
  rw [show (⟨t.env, stack.1, stack.2, fun _ => none, false⟩ : Flow σ) =
    unlogged ⟨t, stack.1, stack.2, fun _ => none, false⟩ from rfl, hbody]
  rcases flowBody (recorded ops) (recordVerify verify) allow
    ⟨t, stack.1, stack.2, fun _ => none, false⟩ with ⟨(_ | ret) | ⟨ret, data⟩, s⟩
  · rfl
  · exact hfinish s ret none
  · exact hfinish s ret (some data)

end Recorded

end UefiToolkit.AbCalls
