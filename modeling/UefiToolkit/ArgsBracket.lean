import UefiToolkit.ArgsParse
import UefiToolkit.ArgsPool

/-!
Saving and restoring the arguments of a command as a bracket.
-/

namespace UefiToolkit.ArgsBracket

open UefiToolkit.Word UefiToolkit.Allocator
open UefiToolkit.ArgsModel hiding fillLoop parseCommandLineToArgs
open UefiToolkit.ArgsParse UefiToolkit.ArgsPool
open UefiToolkit.DispatchModel (OperationType)

/-! ### The array and its strings -/

/-- The array at `argv` holds the pointers `strings`, and these the arguments of a parse. -/
structure Represents (pool : Pool Block) (argv : ℕ) (strings : List ℕ) (args : Args) : Prop where
  cells : pool.blocks argv =
    some (.array (strings.map some ++ List.replicate (args.count - strings.length) none))
  texts : strings.map pool.blocks = args.stores.map fun x => some (.string x.2)
  length : strings.length = args.argc

section Represents

variable {pool pool' p₀ : Pool Block} {argv : ℕ} {strings buffers : List ℕ} {args : Args}
  {room : ℕ → Bool} {entries : List (Option ℕ)}

lemma Represents.frame (h : Represents pool argv strings args)
    (hargv : pool'.blocks argv = pool.blocks argv)
    (hstrings : ∀ a ∈ strings, pool'.blocks a = pool.blocks a) :
    Represents pool' argv strings args :=
  ⟨by rw [hargv, h.cells], by rw [List.map_congr_left hstrings, h.texts], h.length⟩

lemma setEntry_eq (hcells : pool.blocks argv = some (.array entries)) (i x : ℕ) :
    setEntry pool argv i x = pool.write argv (.array (entries.set i (some x))) := by
  unfold setEntry
  rw [hcells]

/-- One more argument: its string is allocated and stored behind the others. -/
lemma Represents.store (h : Represents pool argv strings args)
    (howns : Owns p₀ pool (strings ++ argv :: buffers)) (hlt : args.argc < args.count)
    (hroom : room pool.attempts = true) (s : Str) :
    ∃ pool', pool.allocate room (.string s) = (some pool.next, pool') ∧
      Represents (setEntry pool' argv args.argc pool.next) argv (strings ++ [pool.next])
        { args with argc := args.argc + 1, stores := args.stores ++ [(args.argc, s)] } ∧
      Owns p₀ (setEntry pool' argv args.argc pool.next)
        ((strings ++ [pool.next]) ++ argv :: buffers) ∧
      (setEntry pool' argv args.argc pool.next).attempts = pool.attempts + 1 := by
  obtain ⟨pool', hpool', howns', hblocks, hatt⟩ := howns.allocate_some (b := .string s) hroom
  have hargv := (howns.mem_range (a := argv) (by simp)).2
  have hfresh : ∀ a ∈ strings, a < pool.next := fun a ha => (howns.mem_range (by simp [ha])).2
  have hall : ∀ a, a ≠ pool.next → pool'.blocks a = pool.blocks a := fun a ha => by
    rw [hblocks, Function.update_of_ne ha]
  have hself : pool'.blocks pool.next = some (.string s) := by
    rw [hblocks, Function.update_self]
  have hcells := h.cells
  rw [← hall argv (by omega)] at hcells
  refine ⟨pool', hpool', ?_⟩
  rw [setEntry_eq hcells]
  -- the entry behind the strings is the first free one
  have hset : (strings.map some ++ List.replicate (args.count - strings.length) none).set
      args.argc (some pool.next) =
      (strings ++ [pool.next]).map some ++
        List.replicate (args.count - (strings ++ [pool.next]).length) none := by
    obtain ⟨k, hk⟩ : ∃ k, args.count - strings.length = k + 1 :=
      ⟨args.count - strings.length - 1, by have := h.length; omega⟩
    rw [List.set_append_right _ _ (by simp [h.length]), hk, List.length_map, h.length,
      Nat.sub_self, List.replicate_succ, List.set_cons_zero, List.map_append, List.append_assoc]
    congr 3
    rw [List.length_append, List.length_singleton]
    omega
  have howns' : Owns p₀ pool' ((strings ++ [pool.next]) ++ argv :: buffers) := by
    refine howns'.perm ?_
    rw [List.append_assoc]
    exact List.perm_middle.symm
  have hne : ∀ a ∈ strings, a ≠ argv := fun a ha hargs => by
    have hnd := howns.nodup
    rw [List.nodup_append] at hnd
    exact hnd.2.2 a ha argv (by simp) hargs
  refine ⟨⟨?_, ?_, by simp [h.length]⟩, howns'.write (by simp), ?_⟩
  · rw [Pool.blocks_write_self (by rw [hcells]; simp), hset]
  · rw [List.map_append, List.map_append, ← h.texts]
    congr 1
    · refine List.map_congr_left fun a ha => ?_
      have hlt := hfresh a ha
      rw [Pool.blocks_write_of_ne (hne a ha), hall a (by omega)]
    · rw [List.map_singleton, List.map_singleton, Pool.blocks_write_of_ne (by omega), hself]
  · rw [Pool.write_log.2.1, hatt]

end Represents

/-! ### The parse on the pool -/

section Parse

variable {debugCode : Bool} {limit : ℕ} {room alloc : ℕ → Bool} {strip : Bool} {p₀ : Pool Block}
  {argv : ℕ} {buffers : List ℕ}

/-- The filling pass on the pool does what the filling pass does. As the counting pass took the
same steps before it, every store is inside the array. -/
lemma fillLoop_represents {size : ℕ} {s : Str} {cells : List UInt16} {strings : List ℕ}
    {args args' : Args} {pool : Pool Block} (howns : Owns p₀ pool (strings ++ argv :: buffers))
    (hrep : Represents pool argv strings args) (hst : args.status = EFI_SUCCESS)
    (hcount : (countLoop debugCode limit (some s) cells args.argc).1 = args.count)
    (halloc : ∀ n, alloc (args.argc + n) = room (pool.attempts + n))
    (hrun : ArgsModel.fillLoop debugCode limit alloc strip size (some s) args = args') :
    ∃ pool' strings',
      ArgsPool.fillLoop debugCode limit room strip size argv (some s) args.argc pool =
        (args'.status, args'.argc, pool') ∧
      Represents pool' argv strings' args' ∧
      Owns p₀ pool' (strings' ++ argv :: buffers) ∧
      (args'.status = EFI_SUCCESS → args'.argc = args'.count) := by
  induction hk : s.length using Nat.strongRecOn
    generalizing s cells strings args pool with
  | ind k ih =>
    rw [countLoop] at hcount
    rw [ArgsModel.fillLoop] at hrun
    rw [ArgsPool.fillLoop]
    by_cases hs : s = []
    · rw [if_pos hs] at hcount hrun ⊢
      subst hrun
      exact ⟨pool, strings, by rw [hst], hrep, howns, fun _ => hcount⟩
    rw [if_neg hs] at hcount hrun ⊢
    dsimp only at hcount hrun ⊢
    obtain ⟨hsame, hwalk⟩ := getNextParameter_congr debugCode limit s cells
      (List.replicate size CHAR_NULL) true strip
    rw [hsame, hwalk] at hcount
    by_cases herr : efiError (getNextParameter debugCode limit s (List.replicate size CHAR_NULL)
        strip).1 = true
    · rw [if_pos herr] at hcount hrun ⊢
      subst hrun
      exact ⟨pool, strings, rfl, ⟨hrep.cells, hrep.texts, hrep.length⟩, howns, fun _ => hcount⟩
    rw [if_neg herr] at hcount hrun ⊢
    obtain ⟨rest, hrest, hlt⟩ := getNextParameter_shorter herr
    rw [hrest] at hcount hrun ⊢
    have hhere : alloc args.argc = room pool.attempts := halloc 0
    rw [hhere] at hrun
    rcases hroom : room pool.attempts with _ | _
    · rw [hroom, if_pos (by rfl)] at hrun
      subst hrun
      obtain ⟨pool', hpool', howns', hblocks⟩ := howns.allocate_none (b := .string (strAt
        (getNextParameter debugCode limit s (List.replicate size CHAR_NULL) strip).2.2 0)) hroom
      rw [hpool']
      have hrep' : Represents pool' argv strings args :=
        hrep.frame (by rw [hblocks]) fun a _ => by rw [hblocks]
      exact ⟨pool', strings, rfl, ⟨hrep'.cells, hrep'.texts, hrep'.length⟩, howns',
        fun h => by cases h⟩
    · rw [hroom, if_neg (by simp)] at hrun
      -- this argument was counted, so that there is room for it in the array
      obtain ⟨toks, htoks, -⟩ := passes_agree debugCode limit true size rest
        (getNextParameter debugCode limit s cells true).2.2 (args.argc + 1) args
      obtain ⟨pool', hpool', hrep', howns', hatt⟩ := hrep.store howns (by omega) hroom
        (strAt (getNextParameter debugCode limit s (List.replicate size CHAR_NULL) strip).2.2 0)
      rw [hpool']
      exact ih rest.length (hk ▸ hlt) howns' hrep' hst hcount (fun n => by
        rw [hatt, Nat.add_assoc, Nat.add_assoc]
        exact halloc (1 + n)) hrun rfl

/-- The parse gets the two buffers it works in, or has no line to parse. -/
def Buffered (room : ℕ → Bool) (commandLine : Option Str) (pool : Pool Block) : Prop :=
  commandLine.getD [] = [] ∨ (room pool.attempts = true ∧ room (pool.attempts + 1) = true)

/-- What a parse leaves behind: no array, or an array whose strings are the arguments; these are
all the blocks that were allocated and not freed. -/
def Leaves (p₀ : Pool Block) (args : Args) (shellParameters : ShellParameters)
    (pool : Pool Block) : Prop :=
  shellParameters.argc = args.argc ∧
    ((shellParameters.argv = none ∧ Owns p₀ pool [] ∧
        (args.status = EFI_SUCCESS → args.argc = 0)) ∨
      ∃ argv strings, shellParameters.argv = some argv ∧ Represents pool argv strings args ∧
        Owns p₀ pool (strings ++ [argv]) ∧
        (args.status = EFI_SUCCESS → args.argc = args.count))

variable {commandLine : Option Str} {prior : ShellParameters} {pool : Pool Block}

/-- Without its buffers the parse fails and changes neither `Argv` nor `Argc`. -/
lemma parse_unbuffered (h : ¬ Buffered room commandLine pool)
    (halloc : ∀ n, alloc n = room (pool.attempts + n)) :
    ∃ pool', ArgsPool.parseCommandLineToArgs debugCode limit room strip commandLine prior pool =
        (EFI_OUT_OF_RESOURCES, prior, pool') ∧ Owns pool pool' [] ∧
      ArgsModel.parseCommandLineToArgs debugCode limit alloc commandLine strip prior.argc =
        ⟨EFI_OUT_OF_RESOURCES, prior.argc, 0, []⟩ := by
  unfold Buffered at h
  rw [not_or] at h
  obtain ⟨hline, hroom⟩ := h
  obtain ⟨line, rfl⟩ : ∃ line, commandLine = some line := by
    cases commandLine with
    | none => exact absurd rfl hline
    | some line => exact ⟨line, rfl⟩
  have hlen : ¬ line.length = 0 := fun h0 => hline (List.length_eq_zero_iff.mp h0)
  unfold ArgsPool.parseCommandLineToArgs ArgsModel.parseCommandLineToArgs
  dsimp only
  have hfirst : alloc 0 = room pool.attempts := halloc 0
  rw [if_neg hlen, if_neg hlen, hfirst, halloc 1]
  by_cases h0 : room pool.attempts = true
  swap
  · rw [Bool.not_eq_true] at h0
    obtain ⟨pool', hpool', howns, -⟩ := (Owns.refl pool).allocate_none (b := .string line) h0
    rw [hpool', h0]
    exact ⟨pool', rfl, howns, rfl⟩
  · have h1 : room (pool.attempts + 1) = false := by simpa [h0] using hroom
    obtain ⟨pool', hpool', howns, -, hatt⟩ :=
      (Owns.refl pool).allocate_some (b := .string line) h0
    obtain ⟨pool'', hpool'', howns', -⟩ := howns.allocate_none (b := .chars (List.replicate
      ((trimSpaces line).length + 1) CHAR_NULL)) (hatt ▸ h1)
    rw [hpool']
    dsimp only
    rw [hpool'', h0, h1]
    exact ⟨_, rfl, howns'.free, rfl⟩

/-- The two buffers are freed and the array with its strings is left. -/
lemma fillArgv_leaves {walker : Str} {newCommandLine tempParameter : ℕ}
    (howns : Owns p₀ pool [tempParameter, newCommandLine])
    (halloc : ∀ n, alloc n = room (pool.attempts + 1 + n)) {args : Args}
    (hargs : args = if !room pool.attempts then ⟨EFI_OUT_OF_RESOURCES, prior.argc, 0, []⟩ else
      ArgsModel.fillLoop debugCode limit alloc strip (walker.length + 1) (some walker)
        ⟨EFI_SUCCESS, 0, (countLoop debugCode limit (some walker)
          (List.replicate (walker.length + 1) CHAR_NULL) 0).1, []⟩) :
    ∃ params' pool', fillArgv debugCode limit room strip walker
        (countLoop debugCode limit (some walker)
          (List.replicate (walker.length + 1) CHAR_NULL) 0).1 (walker.length + 1)
        newCommandLine tempParameter prior pool = (args.status, params', pool') ∧
      Leaves p₀ args params' pool' := by
  unfold fillArgv
  set count := (countLoop debugCode limit (some walker)
    (List.replicate (walker.length + 1) CHAR_NULL) 0).1 with hcount
  dsimp only
  rcases hroom : room pool.attempts with _ | _
  · rw [hroom, if_pos (by rfl)] at hargs
    subst hargs
    obtain ⟨pool', hpool', howns', -⟩ := howns.allocate_none
      (b := .array (List.replicate count none)) hroom
    rw [hpool']
    exact ⟨_, _, rfl, rfl, Or.inl ⟨rfl, howns'.free.free, fun h => by cases h⟩⟩
  · rw [hroom, if_neg (by simp)] at hargs
    obtain ⟨pool', hpool', howns', hblocks, hatt⟩ := howns.allocate_some
      (b := .array (List.replicate count none)) hroom
    have hrep : Represents pool' pool.next [] ⟨EFI_SUCCESS, 0, count, []⟩ :=
      ⟨by rw [hblocks, Function.update_self]; simp, rfl, rfl⟩
    have howns₀ : Owns p₀ pool' ([] ++ pool.next :: [tempParameter, newCommandLine]) := howns'
    obtain ⟨pool'', strings, hfill, hrep', howns'', hend⟩ :=
      fillLoop_represents howns₀ hrep rfl hcount.symm
      (fun n => by rw [hatt, Nat.zero_add, halloc]) hargs.symm
    rw [hpool']
    dsimp only at hfill ⊢
    rw [hfill]
    have hfirst : Owns p₀ pool'' (tempParameter :: newCommandLine :: (strings ++ [pool.next])) := by
      refine howns''.perm ?_
      rw [show strings ++ pool.next :: [tempParameter, newCommandLine] =
        (strings ++ [pool.next]) ++ [tempParameter, newCommandLine] by simp]
      exact List.perm_append_comm
    have hnd := hfirst.nodup
    have hkeep : ∀ a ∈ strings ++ [pool.next], ((pool''.free (some tempParameter)).free
        (some newCommandLine)).blocks a = pool''.blocks a := by
      intro a ha
      simp only [List.nodup_cons, List.mem_cons, not_or] at hnd
      have ht : a ≠ tempParameter := fun h => hnd.1.2 (h ▸ ha)
      have hn : a ≠ newCommandLine := fun h => hnd.2.1 (h ▸ ha)
      rw [Pool.blocks_free_of_ne hn, Pool.blocks_free_of_ne ht]
    refine ⟨_, _, rfl, rfl, Or.inr ⟨pool.next, strings, rfl, ?_, hfirst.free.free, hend⟩⟩
    exact hrep'.frame (hkeep _ (by simp)) fun a ha => hkeep a (by simp [ha])

/-- With its buffers the parse on the pool leaves behind what the parse says. -/
lemma parse_leaves (h : Buffered room commandLine pool)
    (halloc : ∀ n, alloc n = room (pool.attempts + n)) {args : Args}
    (hargs : ArgsModel.parseCommandLineToArgs debugCode limit alloc commandLine strip prior.argc =
      args) :
    ∃ params' pool', ArgsPool.parseCommandLineToArgs debugCode limit room strip commandLine prior
        pool = (args.status, params', pool') ∧ Leaves pool args params' pool' := by
  unfold ArgsModel.parseCommandLineToArgs at hargs
  unfold ArgsPool.parseCommandLineToArgs
  cases commandLine with
  | none =>
    subst hargs
    exact ⟨_, _, rfl, rfl, Or.inl ⟨rfl, Owns.refl pool, fun _ => rfl⟩⟩
  | some line =>
    dsimp only at hargs ⊢
    by_cases hlen : line.length = 0
    · rw [if_pos hlen] at hargs ⊢
      subst hargs
      exact ⟨_, _, rfl, rfl, Or.inl ⟨rfl, Owns.refl pool, fun _ => rfl⟩⟩
    rw [if_neg hlen] at hargs ⊢
    have hne : line ≠ [] := fun h0 => hlen (by rw [h0]; rfl)
    obtain ⟨h0, h1⟩ := h.resolve_left hne
    obtain ⟨pool₁, hpool₁, howns₁, -, hatt₁⟩ :=
      (Owns.refl pool).allocate_some (b := .string line) h0
    obtain ⟨pool₂, hpool₂, howns₂, -, hatt₂⟩ := howns₁.allocate_some (b := .chars (List.replicate
      ((trimSpaces line).length + 1) CHAR_NULL)) (hatt₁ ▸ h1)
    have hfirst : alloc 0 = room pool.attempts := halloc 0
    rw [hfirst, h0, if_neg (by simp), halloc 1, h1, if_neg (by simp)] at hargs
    rw [hpool₁]
    dsimp only
    rw [hpool₂]
    have hatt : pool₂.attempts = pool.attempts + 2 := by rw [hatt₂, hatt₁]
    have hrest : ∀ n, alloc (n + 3) = room (pool₂.attempts + 1 + n) := fun n => by
      rw [halloc, hatt]
      congr 1
      omega
    exact fillArgv_leaves howns₂ hrest (by rw [← hargs, hatt, halloc 2])

end Parse

/-! ### The restore -/

section Restore

variable {p₀ pool : Pool Block} {argv : ℕ} {strings : List ℕ} {args : Args}
  {params old : ShellParameters}

/-- The strings of the array are freed, one after the other. -/
lemma freeEntries_owns (before : List (Option ℕ)) {after : List (Option ℕ)}
    (hcells : pool.blocks argv = some (.array (before ++ strings.map some ++ after)))
    (howns : Owns p₀ pool (strings ++ [argv])) :
    Owns p₀ (freeEntries argv before.length strings.length pool) [argv] := by
  induction strings generalizing before pool with
  | nil => exact howns
  | cons a strings ih =>
    have hentry : entry pool argv before.length = some a := by
      unfold entry
      rw [hcells]
      simp
    have hne : argv ≠ a := by
      have hnd := howns.nodup
      rw [List.cons_append, List.nodup_cons] at hnd
      exact fun h => hnd.1 (by simp [h])
    rw [List.length_cons, freeEntries, hentry]
    have hcells' : (pool.free (some a)).blocks argv =
        some (.array ((before ++ [some a]) ++ strings.map some ++ after)) := by
      rw [Pool.blocks_free_of_ne hne, hcells]
      simp
    have hrest := ih _ hcells' howns.free
    rwa [List.length_append, List.length_singleton] at hrest

/-- What the parse left is what the restore frees. -/
lemma restoreArgcArgv_settled (h : Leaves p₀ args params pool) :
    Settled p₀ (restoreArgcArgv params old pool).2 := by
  obtain ⟨argc, array⟩ := params
  obtain ⟨hargc, ⟨rfl, howns, -⟩ | ⟨argv, strings, rfl, hrep, howns, -⟩⟩ := h
  · exact howns.settled
  · have hcells := hrep.cells
    have hfreed := freeEntries_owns [] hcells howns
    have hlen : strings.length = argc := hrep.length.trans hargc.symm
    rw [hlen] at hfreed
    exact hfreed.free.settled

/-- An array that the protocol holds when the restore begins is gone after it. -/
lemma restoreArgcArgv_frees (h : params.argv = some argv) :
    (restoreArgcArgv params old pool).2.blocks argv = none := by
  unfold restoreArgcArgv
  rw [h]
  exact Pool.blocks_free_self

end Restore

/-! ### The bracket -/

/-- `Argv` holds exactly `Argc` live strings. -/
def Holds (params : ShellParameters) (pool : Pool Block) : Prop :=
  match params.argv with
  | none => params.argc = 0
  | some argv => ∃ entries, pool.blocks argv = some (.array entries) ∧
      entries.length = params.argc ∧
      ∀ e ∈ entries, ∃ a s, e = some a ∧ pool.blocks a = some (.string s)

lemma Leaves.holds {p₀ pool : Pool Block} {args : Args} {params : ShellParameters}
    (h : Leaves p₀ args params pool) (hst : args.status = EFI_SUCCESS) : Holds params pool := by
  obtain ⟨argc, array⟩ := params
  obtain ⟨hargc, ⟨rfl, -, hzero⟩ | ⟨argv, strings, rfl, hrep, -, hfull⟩⟩ := h
  · exact hargc.trans (hzero hst)
  · have hlen := hrep.length
    have hcells := hrep.cells
    rw [← hfull hst, hlen, Nat.sub_self, List.replicate_zero, List.append_nil] at hcells
    refine ⟨_, hcells, ?_, fun e he => ?_⟩
    · rw [List.length_map, hlen]
      exact hargc.symm
    · obtain ⟨a, ha, rfl⟩ := List.mem_map.mp he
      have hmem : pool.blocks a ∈ strings.map pool.blocks := List.mem_map_of_mem ha
      rw [hrep.texts, List.mem_map] at hmem
      obtain ⟨x, -, hx⟩ := hmem
      exact ⟨a, x.2, rfl, hx.symm⟩

section Bracket

variable (debugCode : Bool) (limit : ℕ) (room : ℕ → Bool) (newCommandLine : Option Str)
  (type : OperationType) (prior : ShellParameters) (pool : Pool Block)

/-- `UpdateArgcArgv` and then `RestoreArgcArgv` with what it handed back. -/
def updateRestore : ShellParameters × Pool Block :=
  let (_, old, params, pool) :=
    updateArgcArgv debugCode limit room newCommandLine type prior pool
  restoreArgcArgv params old pool

/-- The two calls are a bracket: `Argc`, `Argv` and all the blocks are as they were before, and
what was allocated in between was freed, each block once, and nothing else. When the first call
succeeds, the arguments are in place until the second. -/
structure Bracket : Prop where
  restored :
    (updateRestore debugCode limit room newCommandLine type prior pool).1 = prior
  settled :
    Settled pool (updateRestore debugCode limit room newCommandLine type prior pool).2
  held :
    (updateArgcArgv debugCode limit room newCommandLine type prior pool).1 = EFI_SUCCESS →
      Holds (updateArgcArgv debugCode limit room newCommandLine type prior pool).2.2.1
        (updateArgcArgv debugCode limit room newCommandLine type prior pool).2.2.2

variable {debugCode limit room newCommandLine prior pool}

lemma updateArgcArgv_eq {status : Status} {params : ShellParameters} {pool' : Pool Block}
    (h : ArgsPool.parseCommandLineToArgs debugCode limit room (decide (type ≠ .scriptFileName))
      newCommandLine prior pool = (status, params, pool')) :
    updateArgcArgv debugCode limit room newCommandLine type prior pool =
        (status, prior, params, pool') ∧
      updateRestore debugCode limit room newCommandLine type prior pool =
        restoreArgcArgv params prior pool' := by
  unfold updateRestore updateArgcArgv
  dsimp only
  rw [h]
  exact ⟨rfl, rfl⟩

/-- **The arguments in the pool** are those that the parse of the command line gives: for every
point at which an allocation may fail the status and the count are the same, and an array that is
complete holds the arguments in their order. -/
theorem updateArgcArgv_refines (line : Str) (entries : List (ℕ × Str)) :
    let r := updateArgcArgv debugCode limit room (some line) type prior pool
    let args := DispatchModel.updateArgcArgv debugCode limit (fun n => room (pool.attempts + n))
      ⟨prior.argc, entries⟩ line type
    r.1 = args.1 ∧ r.2.2.1.argc = args.2.argc ∧
      (r.1 = EFI_SUCCESS → ∀ argv, r.2.2.1.argv = some argv → ∃ strings : List ℕ,
        r.2.2.2.blocks argv = some (.array (strings.map some)) ∧
        strings.map r.2.2.2.blocks = args.2.argv.map fun x => some (.string x.2)) := by
  by_cases h : Buffered room (some line) pool
  · obtain ⟨params, pool', hrun, hargc, harray⟩ := parse_leaves h (fun n => rfl) rfl
    obtain ⟨hupdate, -⟩ := updateArgcArgv_eq type hrun
    dsimp only
    rw [hupdate]
    refine ⟨rfl, hargc, fun hst argv hargv => ?_⟩
    rcases harray with ⟨hnone, -⟩ | ⟨argv', strings, hargv', hrep, -, hfull⟩
    · exact absurd (hnone.symm.trans hargv) (Option.some_ne_none argv).symm
    · obtain rfl := Option.some.inj (hargv'.symm.trans hargv)
      refine ⟨strings, ?_, hrep.texts⟩
      have hcells := hrep.cells
      rwa [hrep.length, hfull hst, Nat.sub_self, List.replicate_zero, List.append_nil] at hcells
  · obtain ⟨pool', hrun, -, hargs⟩ := parse_unbuffered h fun n => rfl
    obtain ⟨hupdate, -⟩ := updateArgcArgv_eq type hrun
    have hsame : DispatchModel.updateArgcArgv debugCode limit
        (fun n => room (pool.attempts + n)) ⟨prior.argc, entries⟩ line type =
        (EFI_OUT_OF_RESOURCES, ⟨prior.argc, []⟩) := by
      unfold DispatchModel.updateArgcArgv
      dsimp only
      rw [hargs]
    dsimp only
    rw [hupdate, hsame]
    exact ⟨rfl, rfl, fun hst => by cases hst⟩

/-- **Saving and restoring the arguments is a bracket** exactly when there was no array before,
or the parse needs no buffer or gets both of them: otherwise the protocol still holds the saved
array, which the restore frees and then puts back. -/
theorem updateArgcArgv_bracket_iff (debugCode : Bool) (limit : ℕ) (room : ℕ → Bool)
    (newCommandLine : Option Str) (type : OperationType) (prior : ShellParameters)
    (pool : Pool Block) (hlive : ∀ argv, prior.argv = some argv → pool.blocks argv ≠ none) :
    Bracket debugCode limit room newCommandLine type prior pool ↔
      prior.argv = none ∨ newCommandLine.getD [] = [] ∨
        (room pool.attempts = true ∧ room (pool.attempts + 1) = true) := by
  by_cases h : Buffered room newCommandLine pool
  · refine ⟨fun _ => Or.inr h, fun _ => ?_⟩
    obtain ⟨params, pool', hrun, hleaves⟩ := parse_leaves h (fun n => rfl) rfl
    obtain ⟨hupdate, hboth⟩ := updateArgcArgv_eq type hrun
    refine ⟨?_, ?_, fun hst => ?_⟩
    · rw [hboth]
      rfl
    · rw [hboth]
      exact restoreArgcArgv_settled hleaves
    · rw [hupdate] at hst ⊢
      exact hleaves.holds hst
  · obtain ⟨pool', hrun, howns, -⟩ := parse_unbuffered h fun n => rfl
    obtain ⟨hupdate, hboth⟩ := updateArgcArgv_eq type hrun
    rcases hargv : prior.argv with _ | argv
    · refine ⟨fun _ => Or.inl rfl, fun _ => ⟨?_, ?_, fun hst => ?_⟩⟩
      · rw [hboth]
        rfl
      · rw [hboth]
        unfold restoreArgcArgv
        rw [hargv]
        exact howns.settled
      · rw [hupdate] at hst
        cases hst
    · refine ⟨fun hb => ?_, fun hor => absurd (hor.resolve_left (by simp)) h⟩
      -- the protocol kept the array, so that the restore frees it
      have hgone := congrFun hb.settled.blocks argv
      rw [hboth, restoreArgcArgv_frees hargv] at hgone
      exact absurd hgone.symm (hlive argv hargv)

end Bracket

/-! ### An example -/

/-- A protocol that holds one argument. -/
def samplePool : Pool Block where
  blocks a :=
    if a = 0 then some (.array [some 1])
    else if a = 1 then some (.string [0x61])
    else none
  next := 2
  attempts := 0
  allocated := []
  freed := []
  fresh a ha := by rw [if_neg (by omega), if_neg (by omega)]

theorem updateArgcArgv_bracket_sample :
    Bracket true 100 (fun _ => true) (some [0x62]) .internalCommand ⟨1, some 0⟩ samplePool :=
  (updateArgcArgv_bracket_iff true 100 (fun _ => true) (some [0x62]) .internalCommand ⟨1, some 0⟩
    samplePool (fun argv h => by cases h; simp [samplePool])).mpr (Or.inr (Or.inr ⟨rfl, rfl⟩))

/-- With no memory at all the array in use is freed and put back. -/
theorem updateArgcArgv_bracket_no_memory :
    ¬ Bracket true 100 (fun _ => false) (some [0x62]) .internalCommand ⟨1, some 0⟩ samplePool := by
  intro h
  have hgone := congrFun h.settled.blocks 0
  rw [show (updateRestore true 100 (fun _ => false) (some [0x62]) .internalCommand ⟨1, some 0⟩
    samplePool).2.blocks 0 = none from restoreArgcArgv_frees rfl] at hgone
  cases hgone

end UefiToolkit.ArgsBracket
