import UefiToolkit.Collate
import UefiToolkit.CommandModel

/-!
The command list over any run of registrations: strictly ascending by name, with one entry for
each name that was registered.
-/

namespace UefiToolkit.CommandRegistry

open UefiToolkit.Word UefiToolkit.Loop UefiToolkit.Collate UefiToolkit.ArgsModel
open UefiToolkit.ConsoleString UefiToolkit.CommandModel

/-! ### Nodes -/

lemma getNextNode_append {A B : List Node} {n : Node} (h : n ∉ A) :
    getNextNode (A ++ n :: B) n = B.head? := by
  rw [getNextNode, List.idxOf_append_of_notMem h, List.idxOf_cons_self,
    List.getElem?_append_right (by omega), List.head?_eq_getElem?,
    show A.length + 0 + 1 - A.length = 0 + 1 by omega, List.getElem?_cons_succ]

lemma map_swap_of_notMem {l : List Node} {p b : Node} (hp : p ∉ l) (hb : b ∉ l) :
    l.map (Equiv.swap p b) = l := by
  have hid : ∀ x ∈ l, Equiv.swap p b x = x := fun x hx =>
    Equiv.swap_apply_of_ne_of_ne (fun h => hp (h ▸ hx)) fun h => hb (h ▸ hx)
  calc l.map (Equiv.swap p b) = l.map id := List.map_congr_left hid
    _ = l := List.map_id l

/-- Two neighbours trade places. -/
lemma swapListEntries_append {A B : List Node} {p b : Node} (h : (A ++ p :: b :: B).Nodup) :
    swapListEntries (A ++ p :: b :: B) p b = (A ++ b :: p :: B, b) := by
  obtain ⟨-, hpb, hA⟩ := List.nodup_append.mp h
  obtain ⟨hp, hbB⟩ := List.nodup_cons.mp hpb
  obtain ⟨hb, -⟩ := List.nodup_cons.mp hbB
  have hpA : p ∉ A := fun hm => hA p hm p List.mem_cons_self rfl
  have hbA : b ∉ A := fun hm => hA b hm b (by simp) rfl
  rw [swapListEntries, List.map_append, List.map_cons, List.map_cons, Equiv.swap_apply_left,
    Equiv.swap_apply_right, map_swap_of_notMem hpA hbA,
    map_swap_of_notMem (fun hm => hp (List.mem_cons_of_mem b hm)) hb]

section Registry

variable {ε : Type} {e : Services ε}

/-! ### Moving a node to its place -/

section Place

variable (node : Node → Entry) {p : Node}

/-- The node at the front is compared with itself first, and left there. -/
lemma moveStep_self (h : TotalPreorder e.striColl) {A B : List Node} (hp : p ∉ A) :
    moveStep e node ⟨A ++ p :: B, p, some p, false⟩ =
      some ⟨A ++ p :: B, p, B.head?, false⟩ := by
  unfold moveStep
  dsimp only
  rw [h.refl, if_neg (lt_irrefl 0), if_neg (lt_irrefl 0), getNextNode_append hp]

/-- The loop puts the node before the first that is not smaller. -/
lemma move_spec (h : TotalPreorder e.striColl) (A B : List Node) (hd : (A ++ p :: B).Nodup)
    (hnew : ∀ b ∈ B, e.striColl (node p).commandString (node b).commandString ≠ 0) (fuel : ℕ)
    (hf : 2 * B.length < fuel) :
    ∃ w, whileFuel Move.more (moveStep e node) fuel ⟨A ++ p :: B, p, B.head?, false⟩ = some w ∧
      w.list = A ++ B.orderedInsert (Before e.striColl fun n => (node n).commandString) p := by
  induction B generalizing A fuel with
  | nil => exact ⟨_, whileFuel_done rfl fuel, rfl⟩
  | cons b B ih =>
    obtain ⟨fuel, rfl⟩ : ∃ k, fuel = k + 1 + 1 := ⟨fuel - 2, by simp at hf; omega⟩
    have hne := hnew b List.mem_cons_self
    rw [List.orderedInsert_cons]
    by_cases hpos : 0 < e.striColl (node p).commandString (node b).commandString
    · -- `b` goes before `p`, and the next round compares `p` with itself
      have hd' : ((A ++ [b]) ++ p :: B).Nodup := by
        refine (List.Perm.nodup_iff ?_).mp hd
        rw [List.append_assoc]
        exact (List.Perm.swap b p B).append_left A
      have hbefore : ¬ Before e.striColl (fun n => (node n).commandString) p b := not_le.mpr hpos
      have hpA : p ∉ A ++ [b] := fun hm =>
        (List.nodup_append.mp hd').2.2 p hm p List.mem_cons_self rfl
      have hswap : moveStep e node ⟨A ++ p :: b :: B, p, some b, false⟩ =
          some ⟨(A ++ [b]) ++ p :: B, p, some p, false⟩ := by
        have hbA : b ∉ A := fun hm => (List.nodup_append.mp hd).2.2 b hm b (by simp) rfl
        unfold moveStep
        dsimp only
        rw [if_pos hpos, swapListEntries_append hd]
        dsimp only
        rw [getNextNode_append hbA, List.append_assoc]
        rfl
      obtain ⟨w, hw, hlist⟩ := ih (A ++ [b]) hd' (fun x hx => hnew x (List.mem_cons_of_mem b hx))
        fuel (by simp at hf; omega)
      refine ⟨w, ?_, ?_⟩
      · rw [List.head?_cons, whileFuel_step rfl hswap,
          whileFuel_step rfl (moveStep_self node h hpA), hw]
      · rw [hlist, if_neg hbefore, List.append_assoc]
        rfl
    · have hneg : e.striColl (node p).commandString (node b).commandString < 0 := by omega
      have hbefore : Before e.striColl (fun n => (node n).commandString) p b := hneg.le
      have hleft : moveStep e node ⟨A ++ p :: b :: B, p, some b, false⟩ =
          some ⟨A ++ p :: b :: B, p, some b, true⟩ := by
        unfold moveStep
        dsimp only
        rw [if_neg hpos, if_pos hneg]
      refine ⟨⟨A ++ p :: b :: B, p, some b, true⟩, ?_, by rw [if_pos hbefore]⟩
      rw [List.head?_cons, whileFuel_step rfl hleft, whileFuel_done rfl]

end Place

/-! ### One registration -/

/-- The nodes are distinct ones that the pool handed out, in strictly ascending order. -/
structure Ok (e : Services ε) (s : St ε) : Prop where
  distinct : s.commandList.Nodup
  known : ∀ n ∈ s.commandList, n < s.fresh
  ascending : Ascending e.striColl Entry.commandString s.entries

/-- An entry with that name is on the list. -/
def Registered (e : Services ε) (name : Str) (s : St ε) : Prop :=
  ∃ x ∈ s.entries, e.striColl name x.commandString = 0

/-- The pool has room for the node and for the name. -/
def HasRoom (e : Services ε) (name : Str) (s : St ε) : Prop :=
  (allocatePool e entrySize s).1 = true ∧
    (allocatePool e (strSize name) (allocatePool e entrySize s).2).1 = true

/-- All but what the pool and the list of profiles are. -/
def SameList (s s' : St ε) : Prop :=
  s'.commandList = s.commandList ∧ s'.node = s.node ∧ s'.fresh = s.fresh ∧ s'.ran = s.ran

lemma SameList.entries {s s' : St ε} (h : SameList s s') : s'.entries = s.entries := by
  rw [St.entries, St.entries, h.1, h.2.1]

lemma SameList.ok {s s' : St ε} (h : SameList s s') (hs : Ok e s) : Ok e s' := by
  refine ⟨h.1 ▸ hs.distinct, ?_, h.entries ▸ hs.ascending⟩
  rw [h.1, h.2.2.1]
  exact hs.known

lemma allocatePool_same (n : ℕ) (s : St ε) : SameList s (allocatePool e n s).2 :=
  ⟨rfl, rfl, rfl, rfl⟩

lemma addProfile_same (limit : ℕ) (name : Str) (s : St ε) :
    SameList s (addProfile e limit name s) := by
  unfold addProfile
  split_ifs <;> exact ⟨rfl, rfl, rfl, rfl⟩

lemma isCommandOnList_iff (name : Str) (s : St ε) :
    shellCommandIsCommandOnList e name s = true ↔ Registered e name s := by
  unfold shellCommandIsCommandOnList shellCommandIsCommandOnInternalList findCommand Registered
    St.entries
  simp

/-- The new node goes to its place among the others. -/
lemma insert_spec (h : TotalPreorder e.striColl) {s : St ε} (hs : Ok e s) {x : Entry}
    (hnew : ¬ Registered e x.commandString s) (fuel : ℕ)
    (hf : 2 * s.commandList.length + 1 < fuel) :
    ∃ w, whileFuel Move.more (moveStep e (Function.update s.node s.fresh x)) fuel
        ⟨s.fresh :: s.commandList, s.fresh, some s.fresh, false⟩ = some w ∧
      w.list.Perm (s.fresh :: s.commandList) ∧
      w.list.map (Function.update s.node s.fresh x) =
        s.entries.orderedInsert (Before e.striColl Entry.commandString) x := by
  have hfresh : s.fresh ∉ s.commandList := fun hm => lt_irrefl _ (hs.known _ hm)
  have hother : ∀ n ∈ s.commandList, Function.update s.node s.fresh x n = s.node n :=
    fun n hn => Function.update_of_ne (hs.known n hn).ne x s.node
  have hne : ∀ b ∈ s.commandList, e.striColl
      (Function.update s.node s.fresh x s.fresh).commandString
      (Function.update s.node s.fresh x b).commandString ≠ 0 := by
    intro b hb heq
    rw [Function.update_self, hother b hb] at heq
    exact hnew ⟨s.node b, List.mem_map_of_mem hb, heq⟩
  obtain ⟨fuel, rfl⟩ : ∃ k, fuel = k + 1 := ⟨fuel - 1, by omega⟩
  obtain ⟨w, hw, hlist⟩ := move_spec (Function.update s.node s.fresh x) h []
    s.commandList (List.nodup_cons.mpr ⟨hfresh, hs.distinct⟩) hne fuel (by omega)
  rw [List.nil_append] at hw hlist
  refine ⟨w, ?_, ?_, ?_⟩
  · have hself := moveStep_self (Function.update s.node s.fresh x)
      (p := s.fresh) h (A := []) (B := s.commandList) (by simp)
    rw [List.nil_append] at hself
    rw [whileFuel_step rfl hself, hw]
  · rw [hlist]
    exact List.perm_orderedInsert _ _ _
  · have hentries : s.commandList.map (Function.update s.node s.fresh x) = s.entries :=
      List.map_congr_left hother
    have hx : x = Function.update s.node s.fresh x s.fresh :=
      (Function.update_self s.fresh x s.node).symm
    have hmap := List.map_orderedInsert
      (Before e.striColl fun n => (Function.update s.node s.fresh x n).commandString)
      (Before e.striColl Entry.commandString) (Function.update s.node s.fresh x) s.commandList
      s.fresh (fun _ _ => Iff.rfl) fun _ _ => Iff.rfl
    rwa [← hx, hentries, ← hlist] at hmap

/-- What a registration does. -/
lemma register_spec (h : TotalPreorder e.striColl) {s : St ε} (hs : Ok e s) (c : Call)
    (limit fuel : ℕ) (hf : 2 * s.commandList.length + 1 < fuel) :
    ∃ status s', consoleCommandRegisterCommandName e fuel limit c s = some (status, s') ∧
      Ok e s' ∧ s'.commandList.length ≤ s.commandList.length + 1 ∧
      (status = RETURN_ALREADY_STARTED ∧ Registered e c.commandString s ∧ s' = s ∨
        status = EFI_OUT_OF_RESOURCES ∧ ¬ Registered e c.commandString s ∧
          ¬ HasRoom e c.commandString s ∧ SameList s s' ∨
        status = EFI_SUCCESS ∧ ¬ Registered e c.commandString s ∧ HasRoom e c.commandString s ∧
          s'.ran = s.ran ∧
          s'.entries =
            s.entries.orderedInsert (Before e.striColl Entry.commandString) c.entry) := by
  unfold consoleCommandRegisterCommandName
  by_cases hreg : Registered e c.commandString s
  · rw [if_pos ((isCommandOnList_iff _ _).mpr hreg)]
    exact ⟨_, s, rfl, hs, Nat.le_succ _, Or.inl ⟨rfl, hreg, rfl⟩⟩
  rw [if_neg fun hon => hreg ((isCommandOnList_iff _ _).mp hon)]
  dsimp only
  have hsame₁ := allocatePool_same (e := e) entrySize s
  set s₁ := (allocatePool e entrySize s).2 with hs₁
  by_cases hnode : (allocatePool e entrySize s).1 = true
  swap
  · rw [if_pos (by simpa using hnode)]
    exact ⟨_, s₁, rfl, hsame₁.ok hs, by rw [hsame₁.1]; omega,
      Or.inr (Or.inl ⟨rfl, hreg, fun hroom => hnode hroom.1, hsame₁⟩)⟩
  rw [if_neg (by simpa using hnode)]
  have hsame₂ : SameList s (allocatePool e (strSize c.commandString) s₁).2 := hsame₁
  set s₂ := (allocatePool e (strSize c.commandString) s₁).2 with hs₂
  by_cases hname : (allocatePool e (strSize c.commandString) s₁).1 = true
  swap
  · rw [if_pos (by simpa using hname)]
    exact ⟨_, s₂, rfl, hsame₂.ok hs, by rw [hsame₂.1]; omega,
      Or.inr (Or.inl ⟨rfl, hreg, fun hroom => hname hroom.2, hsame₂⟩)⟩
  rw [if_neg (by simpa using hname)]
  have hsame₃ : SameList s (addProfile e limit c.profileName s₂) := by
    have := addProfile_same (e := e) limit c.profileName s₂
    exact ⟨this.1.trans hsame₂.1, this.2.1.trans hsame₂.2.1, this.2.2.1.trans hsame₂.2.2.1,
      this.2.2.2.trans hsame₂.2.2.2⟩
  set s₃ := addProfile e limit c.profileName s₂ with hs₃
  have hok₃ := hsame₃.ok hs
  have hnew : ¬ Registered e c.entry.commandString s₃ := by
    rw [Registered, hsame₃.entries]
    exact hreg
  obtain ⟨w, hw, hperm, hentries⟩ := insert_spec h hok₃ hnew fuel
    (by rw [hsame₃.1]; exact hf)
  have hlen : w.list.length = s.commandList.length + 1 := by
    rw [hperm.length_eq, List.length_cons, hsame₃.1]
  have hfresh : s₃.fresh ∉ s₃.commandList := fun hm => lt_irrefl _ (hok₃.known _ hm)
  dsimp only [newNode, insertHeadList, getFirstNode, List.head?_cons]
  rw [hw]
  refine ⟨_, _, rfl, ⟨?_, ?_, ?_⟩, hlen.le, Or.inr (Or.inr ⟨rfl, hreg, ⟨hnode, hname⟩, ?_, ?_⟩)⟩
  · exact hperm.nodup_iff.mpr (List.nodup_cons.mpr ⟨hfresh, hok₃.distinct⟩)
  · intro n hn
    rcases List.mem_cons.mp (hperm.mem_iff.mp hn) with rfl | hn
    · exact Nat.lt_succ_self _
    · exact Nat.lt_succ_of_lt (hok₃.known n hn)
  · have hne : ∀ y ∈ s₃.entries, e.striColl c.entry.commandString y.commandString ≠ 0 :=
      fun y hy heq => hnew ⟨y, hy, heq⟩
    have := hok₃.ascending.orderedInsert h hne
    rwa [← hentries] at this
  · exact hsame₃.2.2.2
  · rw [← hsame₃.entries]
    exact hentries

/-! ### Any run of registrations -/

/-- The entry of the first registration of that name that succeeded. -/
def firstSuccess (e : Services ε) (name : Str) (log : List (Call × Status)) : Option Entry :=
  (log.find? fun x => decide (x.2 = EFI_SUCCESS ∧
    e.striColl name x.1.commandString = 0)).map fun x => x.1.entry

/-- For each name the list has the entry it was first registered with, and no other one. -/
def Recorded (e : Services ε) (log : List (Call × Status)) (s : St ε) : Prop :=
  ∀ name, s.entries.filter (sameKey e.striColl Entry.commandString name) =
    (firstSuccess e name log).toList

lemma firstSuccess_append (name : Str) (log : List (Call × Status)) (c : Call)
    (status : Status) : firstSuccess e name (log ++ [(c, status)]) =
      (firstSuccess e name log).or
        (if status = EFI_SUCCESS ∧ e.striColl name c.commandString = 0 then some c.entry
          else none) := by
  unfold firstSuccess
  rw [List.find?_append, Option.map_or]
  congr 1
  by_cases h : status = EFI_SUCCESS ∧ e.striColl name c.commandString = 0
  · rw [if_pos h, List.find?_cons_of_pos (by simpa using h)]
    rfl
  · rw [if_neg h, List.find?_cons_of_neg (by simpa using h)]
    rfl

/-- A failed registration records nothing. -/
lemma Recorded.fail {log : List (Call × Status)} {s s' : St ε} (hr : Recorded e log s)
    (hs : s'.entries = s.entries) (c : Call) {status : Status} (hst : status ≠ EFI_SUCCESS) :
    Recorded e (log ++ [(c, status)]) s' := by
  intro name
  rw [firstSuccess_append, if_neg fun h => hst h.1, Option.or_none, hs]
  exact hr name

/-- A successful one records the entry under its name. -/
lemma Recorded.succeed (h : TotalPreorder e.striColl) {log : List (Call × Status)} {s s' : St ε}
    (hr : Recorded e log s) {c : Call} (hreg : ¬ Registered e c.commandString s)
    (hs : s'.entries =
      s.entries.orderedInsert (Before e.striColl Entry.commandString) c.entry) :
    Recorded e (log ++ [(c, EFI_SUCCESS)]) s' := by
  intro name
  have hnew : ∀ y ∈ s.entries, e.striColl c.entry.commandString y.commandString ≠ 0 :=
    fun y hy heq => hreg ⟨y, hy, heq⟩
  rw [hs, filter_orderedInsert h (hr name) hnew, firstSuccess_append, Call.entry_commandString]
  by_cases hk : e.striColl name c.commandString = 0
  · -- no entry was there for this name
    have hnone : firstSuccess e name log = none := by
      rw [← Option.toList_eq_nil_iff, ← hr name, List.filter_eq_nil_iff]
      intro y hy hsame
      exact hnew y hy (h.eq_trans (h.symm hk) (by simpa [sameKey] using hsame))
    rw [if_pos hk, if_pos ⟨rfl, hk⟩, hnone, Option.none_or]
  · rw [if_neg hk, if_neg fun h => hk h.2, Option.or_none]

/-- Every run of registrations ends, with the list in order and each name recorded. -/
lemma registerAll_spec (h : TotalPreorder e.striColl) (limit : ℕ) (calls : List Call)
    {log : List (Call × Status)} {s : St ε} (hs : Ok e s) (hr : Recorded e log s) (fuel : ℕ)
    (hf : 2 * (s.commandList.length + calls.length) < fuel) :
    ∃ log' s', registerAll e fuel limit log calls s = some (log', s') ∧
      log'.map Prod.fst = log.map Prod.fst ++ calls ∧ Ok e s' ∧ Recorded e log' s' ∧
      s'.commandList.length ≤ s.commandList.length + calls.length := by
  induction calls generalizing log s with
  | nil => exact ⟨log, s, rfl, by simp, hs, hr, le_rfl⟩
  | cons c calls ih =>
    rw [List.length_cons] at hf
    obtain ⟨status, s₁, hreg, hok₁, hlen₁, hcases⟩ := register_spec h hs c limit fuel
      (by omega)
    have hrec₁ : Recorded e (log ++ [(c, status)]) s₁ := by
      rcases hcases with ⟨rfl, -, rfl⟩ | ⟨rfl, -, -, hsame⟩ | ⟨rfl, hnot, -, -, hentries⟩
      · exact hr.fail rfl c (by decide)
      · exact hr.fail hsame.entries c (by decide)
      · exact hr.succeed h hnot hentries
    obtain ⟨log', s', hrun, hlog, hok, hrec, hlen⟩ := ih hok₁ hrec₁ (by omega)
    refine ⟨log', s', ?_, ?_, hok, hrec, ?_⟩
    · rw [registerAll, hreg]
      exact hrun
    · rw [hlog, List.map_append, List.append_assoc]
      rfl
    · rw [List.length_cons]
      omega

/-! ### Running a handler -/

/-- The handler of the one entry with that name is run. -/
lemma runCommandHandler_found (h : TotalPreorder e.striColl) {s : St ε} (hs : Ok e s) {name : Str}
    {x : Entry} (hx : x ∈ s.entries) (hname : e.striColl name x.commandString = 0) :
    consoleCommandRunCommandHandler e name s =
      (EFI_SUCCESS, some (e.commandHandler x.commandHandler s.env).1, some x.lastError,
        { s with env := (e.commandHandler x.commandHandler s.env).2
                 ran := s.ran ++ [x.commandHandler] }) := by
  have hfind := hs.ascending.find_same h hx hname
  rw [St.entries, List.find?_map, Option.map_eq_some_iff] at hfind
  obtain ⟨n, hn, rfl⟩ := hfind
  have hcommand : findCommand e name s = some n := hn
  rw [consoleCommandRunCommandHandler, hcommand]

lemma runCommandHandler_none {s : St ε} {name : Str} (hno : ¬ Registered e name s) :
    consoleCommandRunCommandHandler e name s = (EFI_NOT_FOUND, none, none, s) := by
  have hcommand : findCommand e name s = none := by
    refine List.find?_eq_none.mpr fun n hn heq => hno ⟨s.node n, List.mem_map_of_mem hn, ?_⟩
    simpa using heq
  rw [consoleCommandRunCommandHandler, hcommand]

end Registry

/-- **The command registry.** After any run of registrations, whatever the pool answers, the list
is strictly ascending and records for each name its first successful registration; a name that is
on it is refused, and so is one the pool has no room for, with the list as it was; and running a
name runs the handler it is bound to, or none. -/
theorem commandRegistry_run {ε : Type} (e : Services ε) (h : TotalPreorder e.striColl)
    (limit : ℕ) (env : ε) (calls : List Call) (fuel : ℕ) (hf : 2 * calls.length + 1 < fuel) :
    ∃ log s, registerAll e fuel limit [] calls (init env) = some (log, s) ∧
      log.map Prod.fst = calls ∧
      Ascending e.striColl Entry.commandString s.entries ∧
      Recorded e log s ∧
      (∀ c : Call, ∃ status s',
        consoleCommandRegisterCommandName e fuel limit c s = some (status, s') ∧
        (Registered e c.commandString s → status = RETURN_ALREADY_STARTED ∧ s' = s) ∧
        (¬ Registered e c.commandString s → ¬ HasRoom e c.commandString s →
          status = EFI_OUT_OF_RESOURCES ∧ s'.entries = s.entries) ∧
        (¬ Registered e c.commandString s → HasRoom e c.commandString s →
          status = EFI_SUCCESS)) ∧
      ∀ name : Str,
        (∀ x ∈ s.entries, e.striColl name x.commandString = 0 →
          consoleCommandRunCommandHandler e name s =
            (EFI_SUCCESS, some (e.commandHandler x.commandHandler s.env).1, some x.lastError,
              { s with env := (e.commandHandler x.commandHandler s.env).2
                       ran := s.ran ++ [x.commandHandler] })) ∧
        (¬ Registered e name s →
          consoleCommandRunCommandHandler e name s = (EFI_NOT_FOUND, none, none, s)) := by
  have hok : Ok e (init env) := ⟨List.nodup_nil, by simp [init], List.Pairwise.nil⟩
  have hrec : Recorded e [] (init env) := fun name => rfl
  obtain ⟨log, s, hrun, hlog, hs, hr, hlen⟩ := registerAll_spec h limit calls hok hrec
    fuel (by simp [init]; omega)
  rw [show (init env).commandList.length = 0 from rfl] at hlen
  refine ⟨log, s, hrun, hlog, hs.ascending, hr, fun c => ?_, fun name =>
    ⟨fun x hx hname => runCommandHandler_found h hs hx hname, runCommandHandler_none⟩⟩
  obtain ⟨status, s', hreg, -, -, hcases⟩ := register_spec h hs c limit fuel (by omega)
  refine ⟨status, s', hreg, ?_⟩
  rcases hcases with ⟨hst, hon, heq⟩ | ⟨hst, hoff, hno, hsame⟩ | ⟨hst, hoff, hroom, -⟩
  · exact ⟨fun _ => ⟨hst, heq⟩, fun hoff => absurd hon hoff, fun hoff => absurd hon hoff⟩
  · exact ⟨fun hon => absurd hon hoff, fun _ _ => ⟨hst, hsame.entries⟩,
      fun _ hroom => absurd hroom hno⟩
  · exact ⟨fun hon => absurd hon hoff, fun _ hno => absurd hroom hno, fun _ _ => hst⟩

/-- A letter in upper case. -/
def upper (c : UInt16) : ℕ :=
  if 0x61 ≤ c.toNat ∧ c.toNat ≤ 0x7A then c.toNat - 0x20 else c.toNat

/-- English collation, a pool that never runs out, handlers that answer their own address. -/
def englishServices : Services Unit where
  striColl := compareBy fun s : Str => s.map upper
  allocatePool _ _ := (true, ())
  commandHandler p _ := (p, ())

/-- The commands `mem`, `exit` and `MEM`. -/
def sampleCalls : List Call :=
  [⟨[0x6D, 0x65, 0x6D], 1, 9, 0, [0x44], true, 0, 0⟩,
    ⟨[0x65, 0x78, 0x69, 0x74], 2, 9, 0, [0x44], true, 0, 0⟩,
    ⟨[0x4D, 0x45, 0x4D], 3, 9, 0, [0x44], true, 0, 0⟩]

theorem commandRegistry_run_sample : TotalPreorder englishServices.striColl ∧
    ∃ log s, registerAll englishServices 8 1000000 [] sampleCalls (init ()) = some (log, s) ∧
      log.map Prod.fst = sampleCalls ∧
      Ascending englishServices.striColl Entry.commandString s.entries ∧
      Recorded englishServices log s := by
  have h : TotalPreorder englishServices.striColl := compareBy_totalPreorder _
  obtain ⟨log, s, hrun, hlog, hasc, hrec, -⟩ :=
    commandRegistry_run englishServices h 1000000 () sampleCalls 8 (by decide)
  exact ⟨h, log, s, hrun, hlog, hasc, hrec⟩

end UefiToolkit.CommandRegistry
