import UefiToolkit.TransportModel

/-!
The buffer of `TcpDataReceive` over any number of fragments: it is in one block, as large as
`AllocateLength` says, with all that was received, until the allocation of a larger one fails.
-/

namespace UefiToolkit.TransportBuffer

open UefiToolkit.Word UefiToolkit.Mem UefiToolkit.Allocator UefiToolkit.TransportModel

/-! ### The heap -/

/-- A copy keeps to a block that is there, and a block that is freed or saved is there, unless
there is none. -/
def Use.Valid : Use → Prop
  | .copy _ offset length block => ∃ b, block = some b ∧ offset + length ≤ b.size
  | .free p block => p = .null ∨ block ≠ none
  | .save p _ block => p = .null ∨ block ≠ none

section Heap

variable {room : ℕ → ℕ → Bool} {pool : Pool Block} {s : Transfer} {a b : ℕ} {x y : Block}

lemma allocateZeroPool_some {size : ℕ} (h : room pool.attempts size = true) :
    ∃ pool', allocateZeroPool room size pool = (.block pool.next, pool') ∧
      pool'.attempts = pool.attempts + 1 ∧
      pool'.blocks = Function.update pool.blocks pool.next (some ⟨size, fun _ => 0⟩) := by
  obtain ⟨pool', hp, -, hatt, hblocks, -, -⟩ :=
    @Pool.allocate_some Block pool (fun n => room n size) ⟨size, fun _ => 0⟩ h
  refine ⟨pool', ?_, hatt, hblocks⟩
  rw [allocateZeroPool, hp]
  rfl

lemma allocateZeroPool_none {size : ℕ} (h : room pool.attempts size = false) :
    ∃ pool', allocateZeroPool room size pool = (.null, pool') ∧ pool'.blocks = pool.blocks := by
  obtain ⟨pool', hp, -, -, hblocks, -, -⟩ :=
    @Pool.allocate_none Block pool (fun n => room n size) ⟨size, fun _ => 0⟩ h
  refine ⟨pool', ?_, hblocks⟩
  rw [allocateZeroPool, hp]
  rfl

lemma copyTo_block (offset : ℕ) (bytes : List UInt8) (h : s.pool.blocks a = some x) :
    copyTo (.block a) offset bytes s =
      { s with
        pool := s.pool.write a { x with cells := blit x.cells offset bytes }
        uses := s.uses ++ [.copy (.block a) offset bytes.length (some x)] } := by
  have hfind : find s.pool (.block a) = some x := h
  rw [copyTo, hfind]
  change { s with pool := (s.pool.blocks a).elim s.pool _, uses := _ } = _
  rw [h]
  rfl

lemma freePool_block (h : s.pool.blocks a = some x) :
    freePool (.block a) s =
      { s with
        pool := s.pool.free (some a)
        uses := s.uses ++ [.free (.block a) (some x)] } := by
  have hfind : find s.pool (.block a) = some x := h
  rw [freePool, hfind]
  rfl

lemma copyBlock_block (length : ℕ) (hx : s.pool.blocks a = some x) (hy : s.pool.blocks b = some y) :
    copyBlock (.block a) (.block b) length s =
      { s with
        pool := s.pool.write a { x with cells := blit x.cells 0 (slice y.cells 0 length) }
        uses := s.uses ++ [.copy (.block b) 0 length (some y)] ++
          [.copy (.block a) 0 length (some x)] } := by
  have hfind : find s.pool (.block b) = some y := hy
  have hcopy := copyTo_block (s := { s with
    uses := s.uses ++ [.copy (.block b) 0 length (some y)] }) 0 (slice y.cells 0 length) hx
  rw [slice_length] at hcopy
  rw [copyBlock, hfind]
  exact hcopy

/-- A fragment is appended to what is in the block. -/
lemma publish_block (bulk : List UInt8) (hx : s.pool.blocks a = some x)
    (hp : s.bufferTemp = .block a) :
    ∃ s', publish bulk s = s' ∧
      s'.pool.blocks a = some { x with cells := blit x.cells s.totalDataNumber bulk } ∧
      s'.pool.attempts = s.pool.attempts ∧ s'.dataBuffer = .block a ∧ s'.bufferTemp = .block a ∧
      s'.totalDataNumber = add64 s.totalDataNumber bulk.length ∧
      s'.allocateLength = s.allocateLength ∧ s'.buffer = .block a ∧
      s'.bufferSize = add64 s.totalDataNumber bulk.length ∧
      s'.uses = s.uses ++ [.copy (.block a) s.totalDataNumber bulk.length (some x)] := by
  refine ⟨_, rfl, ?_⟩
  unfold publish
  rw [hp, copyTo_block _ _ hx]
  refine ⟨?_, Pool.write_log.2.1, hp, hp, rfl, rfl, hp, rfl, rfl⟩
  exact Pool.blocks_write_self (by rw [hx]; simp)

/-- The first block. -/
lemma grow_first {length : ℕ} (hlength : add64 s.allocateLength SIZE_8MB = length)
    (hroom : room s.pool.attempts length = true) (hdata : s.dataBuffer = .null) :
    ∃ s', grow room s = .ok s' ∧ s'.pool.attempts = s.pool.attempts + 1 ∧
      s'.bufferTemp = .block s.pool.next ∧ s'.totalDataNumber = s.totalDataNumber ∧
      s'.allocateLength = length ∧ s'.uses = s.uses ∧
      s'.pool.blocks s.pool.next = some ⟨length, fun _ => 0⟩ := by
  obtain ⟨pool', hp, hatt, hblocks⟩ := allocateZeroPool_some hroom
  unfold grow
  dsimp only
  rw [hlength, hp, if_neg (by simp), if_pos hdata]
  exact ⟨_, rfl, hatt, rfl, rfl, rfl, rfl, by rw [hblocks, Function.update_self]⟩

/-- A further block takes over what is in the one before. -/
lemma grow_next {length : ℕ} (hlength : add64 s.allocateLength SIZE_8MB = length)
    (hroom : room s.pool.attempts length = true) (hdata : s.dataBuffer = .block a)
    (hx : s.pool.blocks a = some x) :
    ∃ s', grow room s = .ok s' ∧ s'.pool.attempts = s.pool.attempts + 1 ∧
      s'.bufferTemp = .block s.pool.next ∧ s'.totalDataNumber = s.totalDataNumber ∧
      s'.allocateLength = length ∧
      s'.uses = s.uses ++ [.copy (.block a) 0 s.totalDataNumber (some x)] ++
        [.copy (.block s.pool.next) 0 s.totalDataNumber (some ⟨length, fun _ => 0⟩)] ++
        [.free (.block a) (some x)] ∧
      s'.pool.blocks s.pool.next =
        some ⟨length, blit (fun _ => 0) 0 (slice x.cells 0 s.totalDataNumber)⟩ := by
  have hne : a ≠ s.pool.next := by
    rintro rfl
    rw [s.pool.fresh _ le_rfl] at hx
    cases hx
  obtain ⟨pool', hp, hatt, hblocks⟩ := allocateZeroPool_some hroom
  have hnew : pool'.blocks s.pool.next = some ⟨length, fun _ => 0⟩ := by
    rw [hblocks, Function.update_self]
  have hold : pool'.blocks a = some x := by rw [hblocks, Function.update_of_ne hne, hx]
  have hcopied : (pool'.write s.pool.next
      ⟨length, blit (fun _ => 0) 0 (slice x.cells 0 s.totalDataNumber)⟩).blocks a = some x := by
    rw [Pool.blocks_write_of_ne hne, hold]
  unfold grow
  dsimp only
  rw [hlength, hp, if_neg (by simp), if_neg (by simp [hdata]), hdata]
  dsimp only
  rw [copyBlock_block _ hnew hold, freePool_block hcopied]
  refine ⟨_, rfl, ?_, rfl, rfl, rfl, rfl, ?_⟩
  · exact Pool.write_log.2.1.trans hatt
  · rw [Pool.blocks_free_of_ne hne.symm]
    exact Pool.blocks_write_self (by rw [hnew]; simp)

/-- An allocation that fails frees the buffer that is published, if there is one. -/
lemma grow_none (hroom : room s.pool.attempts (add64 s.allocateLength SIZE_8MB) = false) :
    ∃ s', grow room s = .error s' ∧ s'.buffer = s.buffer ∧ s'.bufferSize = s.bufferSize ∧
      (s.dataBuffer = .null → s'.uses = s.uses) ∧
      ∀ a x, s.dataBuffer = .block a → s.pool.blocks a = some x →
        s'.pool.blocks a = none ∧ s'.uses = s.uses ++ [.free (.block a) (some x)] := by
  obtain ⟨pool', hp, hblocks⟩ := allocateZeroPool_none hroom
  unfold grow
  dsimp only
  rw [hp, if_pos rfl]
  by_cases hdata : s.dataBuffer = .null
  · rw [if_pos hdata]
    refine ⟨_, rfl, rfl, rfl, fun _ => rfl, fun a x ha => ?_⟩
    rw [hdata] at ha
    cases ha
  · rw [if_neg hdata]
    refine ⟨_, rfl, rfl, rfl, fun h => absurd h hdata, fun a x ha hx => ?_⟩
    rw [ha, freePool_block (show pool'.blocks a = some x by rw [hblocks, hx])]
    exact ⟨Pool.blocks_free_self, rfl⟩

end Heap

/-! ### The buffer -/

/-- The blocks that so many bytes need, one after the other. -/
def growths (total : ℕ) : ℕ := (total + (SIZE_8MB - 1)) / SIZE_8MB

/-- Nothing was received yet, or one block holds all of it. -/
inductive Held (done : List UInt8) (s : Transfer) : Prop
  | nothing (empty : done = []) (data : s.dataBuffer = .null) (buffer : s.buffer = .null)
  | block (a : ℕ) (x : Block) (some : done ≠ []) (data : s.dataBuffer = .block a)
      (temp : s.bufferTemp = .block a) (buffer : s.buffer = .block a)
      (live : s.pool.blocks a = .some x) (size : x.size = s.allocateLength)
      (content : slice x.cells 0 done.length = done)

/-- The state after the bytes `done`; the first block is asked for by the allocation `first`. -/
structure Holding (first : ℕ) (done : List UInt8) (s : Transfer) : Prop where
  attempts : s.pool.attempts = first + growths done.length
  length : s.allocateLength = growths done.length * SIZE_8MB
  small : s.allocateLength < 2 ^ 63
  total : s.totalDataNumber = done.length
  size : s.bufferSize = done.length
  valid : ∀ u ∈ s.uses, Use.Valid u
  held : Held done s

lemma forall_mem_snoc {α : Type} {P : α → Prop} {l : List α} {x : α} (h : ∀ u ∈ l, P u)
    (hx : P x) : ∀ u ∈ l ++ [x], P u := fun u hu => by
  rcases List.mem_append.mp hu with hu | hu
  · exact h u hu
  · exact List.mem_singleton.mp hu ▸ hx

lemma growths_lt {n : ℕ} (h : 0 < n) :
    (growths n - 1) * SIZE_8MB < n ∧ n ≤ growths n * SIZE_8MB := by
  unfold growths SIZE_8MB
  omega

/-- A fragment needs one more block at most. -/
lemma growths_add {n k : ℕ} (hk : k ≤ RX_FRAGMENT_SIZE) :
    growths (n + k) = growths n + if growths n * SIZE_8MB < n + k then 1 else 0 := by
  unfold growths SIZE_8MB
  unfold RX_FRAGMENT_SIZE at hk
  split_ifs <;> omega

section Buffer

variable {room : ℕ → ℕ → Bool} {first : ℕ} {done bulk : List UInt8} {s : Transfer} {a : ℕ}
  {x : Block}

lemma slice_blit_append {c : ℕ → UInt8} (h : slice c 0 done.length = done) :
    slice (blit c done.length bulk) 0 (done ++ bulk).length = done ++ bulk := by
  have hback := slice_blit c done.length bulk
  rw [List.length_append, slice_add, slice_blit_out _ (Or.inl (by omega)), h, Nat.zero_add, hback]

/-- A fragment that fits in the block of `BufferTemp` is held behind the others. -/
lemma publish_holding (hattempts : s.pool.attempts = first + growths (done ++ bulk).length)
    (hlength : s.allocateLength = growths (done ++ bulk).length * SIZE_8MB)
    (hsmall : s.allocateLength < 2 ^ 63) (htotal : s.totalDataNumber = done.length)
    (hvalid : ∀ u ∈ s.uses, Use.Valid u) (hne : done ++ bulk ≠ [])
    (htemp : s.bufferTemp = .block a) (hx : s.pool.blocks a = some x)
    (hsize : x.size = s.allocateLength) (hcontent : slice x.cells 0 done.length = done) :
    Holding first (done ++ bulk) (publish bulk s) := by
  obtain ⟨s', hs', hlive, hatt, hdata, htemp', htotal', hlength', hbuffer, hbsize, huses⟩ :=
    publish_block bulk hx htemp
  have hfits : (done ++ bulk).length ≤ s.allocateLength := by
    rw [hlength]
    exact (growths_lt (List.length_pos_of_ne_nil hne)).2
  have hnowrap : add64 s.totalDataNumber bulk.length = (done ++ bulk).length := by
    rw [htotal, List.length_append] at *
    exact u64_of_lt (by omega)
  rw [hs']
  refine ⟨hatt.trans hattempts, hlength'.trans hlength, hlength' ▸ hsmall, htotal'.trans hnowrap,
    hbsize.trans hnowrap, ?_, .block a _ hne hdata htemp' hbuffer hlive (hsize.trans hlength'.symm)
    ?_⟩
  · rw [huses]
    refine forall_mem_snoc hvalid ⟨x, rfl, ?_⟩
    rw [htotal, hsize]
    rwa [List.length_append] at hfits
  · dsimp only
    rw [htotal]
    exact slice_blit_append hcontent

/-- The length that the next block is asked for. -/
lemma Holding.next_length (h : Holding first done s) :
    add64 s.allocateLength SIZE_8MB = (growths done.length + 1) * SIZE_8MB := by
  have hsmall := h.small
  rw [Nat.add_one_mul, ← h.length]
  exact u64_of_lt (by unfold SIZE_8MB; omega)

lemma Holding.append_iff (h : Holding first done s) (hbulk : bulk.length ≤ RX_FRAGMENT_SIZE) :
    s.allocateLength < add64 s.totalDataNumber bulk.length ↔
      growths done.length * SIZE_8MB < (done ++ bulk).length := by
  have hsmall := h.small
  have hle : done.length ≤ s.allocateLength := by
    rw [h.length]
    unfold growths SIZE_8MB
    omega
  have hnowrap : add64 s.totalDataNumber bulk.length = done.length + bulk.length := by
    rw [h.total]
    exact u64_of_lt (by unfold RX_FRAGMENT_SIZE at hbulk; omega)
  rw [hnowrap, h.length, List.length_append]

/-- A fragment is appended, when the block that it may need is there. -/
lemma Holding.append_ok (h : Holding first done s)
    (hlimit : ∀ n size, room n size = true → size < 2 ^ 63)
    (hbulk : bulk.length ≤ RX_FRAGMENT_SIZE) (hne : done ++ bulk ≠ [])
    (hroom : growths (done ++ bulk).length = growths done.length + 1 →
      room (first + growths done.length) ((growths done.length + 1) * SIZE_8MB) = true) :
    ∃ s', append room bulk s = .ok s' ∧ Holding first (done ++ bulk) s' := by
  have hcount := growths_add (n := done.length) hbulk
  rw [← List.length_append] at hcount
  unfold append
  by_cases hgrow : growths done.length * SIZE_8MB < (done ++ bulk).length
  · rw [if_pos hgrow] at hcount
    rw [if_pos ((h.append_iff hbulk).mpr hgrow)]
    have hok := hroom hcount
    have hsmall := hlimit _ _ hok
    rw [← h.attempts] at hok
    rcases h.held with ⟨rfl, hdata, -⟩ | ⟨a, x, hsome, hdata, htemp, -, hx, hsize, hcontent⟩
    · obtain ⟨s', hs', hatt, htemp, htotal, hlength, huses, hlive⟩ :=
        grow_first h.next_length hok hdata
      rw [hs']
      refine ⟨_, rfl, publish_holding ?_ ?_ ?_ (htotal.trans h.total) ?_ hne htemp hlive
        hlength.symm rfl⟩
      · rw [hatt, h.attempts, hcount, Nat.add_assoc]
      · rw [hlength, hcount]
      · rw [hlength]
        exact hsmall
      · rw [huses]
        exact h.valid
    · obtain ⟨s', hs', hatt, htemp', htotal, hlength, huses, hlive⟩ :=
        grow_next h.next_length hok hdata hx
      have hle : s.totalDataNumber ≤ x.size := by
        rw [h.total, hsize, h.length]
        exact (growths_lt (List.length_pos_of_ne_nil hsome)).2
      rw [hs']
      refine ⟨_, rfl, publish_holding ?_ ?_ ?_ (htotal.trans h.total) ?_ hne htemp' hlive
        hlength.symm ?_⟩
      · rw [hatt, h.attempts, hcount, Nat.add_assoc]
      · rw [hlength, hcount]
      · rw [hlength]
        exact hsmall
      · rw [huses]
        refine forall_mem_snoc (forall_mem_snoc (forall_mem_snoc h.valid ⟨x, rfl, ?_⟩)
          ⟨_, rfl, ?_⟩) (Or.inr (by simp))
        · omega
        · dsimp only
          rw [hsize, h.length] at hle
          rw [Nat.add_one_mul]
          omega
      · dsimp only
        rw [h.total, slice_blit_slice, hcontent]
  · rw [if_neg hgrow] at hcount
    rw [if_neg fun hlt => hgrow ((h.append_iff hbulk).mp hlt)]
    rcases h.held with ⟨rfl, -, -⟩ | ⟨a, x, hsome, hdata, htemp, -, hx, hsize, hcontent⟩
    · -- the first fragment always needs a block
      exact absurd (List.length_pos_of_ne_nil hne) hgrow
    · exact ⟨_, rfl, publish_holding (by rw [h.attempts, hcount, Nat.add_zero])
        (by rw [h.length, hcount, Nat.add_zero]) h.small h.total h.valid hne htemp hx hsize
        hcontent⟩

lemma growths_mono {n k : ℕ} (h : n ≤ k) : growths n ≤ growths k :=
  Nat.div_le_div_right (Nat.add_le_add_right h _)

lemma lt_growths_iff {n k : ℕ} : k < growths n ↔ k * SIZE_8MB < n := by
  unfold growths SIZE_8MB
  omega

/-- **All fragments are appended** when the blocks that they need are there. -/
lemma receiveLoop_ok (ending : Ending) (hlimit : ∀ n size, room n size = true → size < 2 ^ 63)
    (fragments : List (List UInt8)) (done : List UInt8) (s : Transfer) (h : Holding first done s)
    (hlength : ∀ f ∈ fragments, f.length ≤ RX_FRAGMENT_SIZE)
    (hne : done = [] → fragments.head? ≠ some [])
    (hroom : ∀ k, growths done.length ≤ k → k < growths (done ++ fragments.flatten).length →
      room (first + k) ((k + 1) * SIZE_8MB) = true) :
    ∃ s', receiveLoop room ending fragments s = (ending.status, s') ∧
      Holding first (done ++ fragments.flatten) s' := by
  induction fragments generalizing done s with
  | nil => exact ⟨s, rfl, by rwa [List.flatten_nil, List.append_nil]⟩
  | cons bulk fragments ih =>
    have hbulk := hlength bulk List.mem_cons_self
    have hsome : done ++ bulk ≠ [] := fun hnil => by
      obtain ⟨hdone, rfl⟩ := List.append_eq_nil_iff.mp hnil
      exact hne hdone rfl
    rw [List.flatten_cons, ← List.append_assoc] at hroom ⊢
    have hmono : growths (done ++ bulk).length ≤
        growths (done ++ bulk ++ fragments.flatten).length :=
      growths_mono (List.prefix_append _ _).length_le
    obtain ⟨s', hs', h'⟩ := h.append_ok hlimit hbulk hsome fun hgrow =>
      hroom _ le_rfl (by omega)
    have hle : growths done.length ≤ growths (done ++ bulk).length :=
      growths_mono (by rw [List.length_append]; omega)
    obtain ⟨s'', hs'', h''⟩ := ih (done ++ bulk) s' h'
      (fun f hf => hlength f (List.mem_cons_of_mem _ hf)) (fun hnil => absurd hnil hsome)
      fun k hk hlt => hroom k (hle.trans hk) hlt
    refine ⟨s'', ?_, h''⟩
    rw [receiveLoop, hs']
    exact hs''

end Buffer

/-! ### The function -/

section Receive

variable {room : ℕ → ℕ → Bool} {pool : Pool Block}

/-- The variables before the loop. -/
lemma holding_start {pool' : Pool Block} :
    Holding pool'.attempts [] ⟨pool', .null, .undefined, 0, 0, .null, 0, []⟩ :=
  ⟨rfl, rfl, by norm_num, rfl, rfl, by simp, .nothing rfl rfl rfl⟩

lemma tcpDataReceive_start (h : room pool.attempts RX_FRAGMENT_SIZE = true)
    (fragments : List (List UInt8)) (ending : Ending) :
    ∃ s, tcpDataReceive room pool fragments ending = receiveLoop room ending fragments s ∧
      Holding (pool.attempts + 1) [] s ∧ s.bufferTemp = .undefined := by
  obtain ⟨pool', hp, hatt, -⟩ := allocateZeroPool_some h
  unfold tcpDataReceive
  dsimp only
  rw [hp, if_neg (by simp), ← hatt]
  exact ⟨_, rfl, holding_start, rfl⟩

/-- **The data is received whole**: the buffer holds the fragments one behind the other, and every
copy keeps to its block, as long as the allocations succeed; none succeeds that is larger than half
of the address space. -/
theorem tcpDataReceive_fragments (room : ℕ → ℕ → Bool) (pool : Pool Block)
    (fragments : List (List UInt8)) (ending : Ending)
    (hlimit : ∀ n size, room n size = true → size < 2 ^ 63)
    (hfragments : ∀ f ∈ fragments, 1 ≤ f.length ∧ f.length ≤ RX_FRAGMENT_SIZE)
    (hfirst : room pool.attempts RX_FRAGMENT_SIZE = true)
    (hroom : ∀ k, k * SIZE_8MB < fragments.flatten.length →
      room (pool.attempts + 1 + k) ((k + 1) * SIZE_8MB) = true) :
    let r := tcpDataReceive room pool fragments ending
    r.1 = ending.status ∧ r.2.bufferSize = fragments.flatten.length ∧
      (fragments ≠ [] → ∃ b, find r.2.pool r.2.buffer = some b ∧ b.size = r.2.allocateLength ∧
        slice b.cells 0 r.2.bufferSize = fragments.flatten) ∧
      ∀ p offset length block, .copy p offset length block ∈ r.2.uses →
        ∃ b, block = some b ∧ offset + length ≤ b.size := by
  intro r
  obtain ⟨s, hs, h, -⟩ := tcpDataReceive_start hfirst fragments ending
  obtain ⟨s', hs', h'⟩ := receiveLoop_ok ending hlimit fragments [] s h
    (fun f hf => (hfragments f hf).2) (fun _ hhead => by
      have := (hfragments [] (List.mem_of_mem_head? hhead)).1
      simp at this) fun k _ hlt => hroom k (lt_growths_iff.mp hlt)
  have hr : r = (ending.status, s') := hs.trans hs'
  rw [List.nil_append] at h'
  rw [hr]
  refine ⟨rfl, h'.size, fun hne => ?_, fun p offset length block hu => h'.valid _ hu⟩
  rcases h'.held with ⟨hnil, -, -⟩ | ⟨a, x, -, -, -, hbuffer, hx, hsize, hcontent⟩
  · obtain ⟨f, rest, rfl⟩ := List.exists_cons_of_ne_nil hne
    rw [List.flatten_cons] at hnil
    have := (hfragments f List.mem_cons_self).1
    rw [(List.append_eq_nil_iff.mp hnil).1] at this
    simp at this
  · dsimp only
    rw [hbuffer, h'.size]
    exact ⟨x, hx, hsize, hcontent⟩

/-- An empty pool with room for everything that is less than half of the address space. -/
def samplePool : Pool Block := ⟨fun _ => none, 0, 0, [], [], fun _ _ => rfl⟩

def sampleRoom (_ size : ℕ) : Bool := decide (size < 2 ^ 63)

/-- Full fragments, one more than eight megabytes hold. -/
def sampleFragments : List (List UInt8) := List.replicate 4097 (List.replicate 2048 7)

lemma sampleFragments_length : sampleFragments.flatten.length = SIZE_8MB + 2048 := by
  rw [sampleFragments, List.length_flatten, List.map_replicate, List.length_replicate,
    List.sum_replicate]
  rfl

lemma sampleFragments_received (f : List UInt8) (hf : f ∈ sampleFragments) :
    1 ≤ f.length ∧ f.length ≤ RX_FRAGMENT_SIZE := by
  rw [List.eq_of_mem_replicate hf, List.length_replicate]
  decide

/-- The first block does not hold them. -/
theorem tcpDataReceive_two_blocks :
    (tcpDataReceive sampleRoom samplePool sampleFragments
      (.receive EFI_DEVICE_ERROR)).2.bufferSize = SIZE_8MB + 2048 :=
  (tcpDataReceive_fragments sampleRoom samplePool sampleFragments (.receive EFI_DEVICE_ERROR)
    (fun _ _ h => of_decide_eq_true h) sampleFragments_received (by decide) fun k hk => by
      rw [sampleFragments_length] at hk
      have hlt : k * SIZE_8MB < 2 * SIZE_8MB := hk.trans (by decide)
      have hle : (k + 1) * SIZE_8MB ≤ 2 * SIZE_8MB :=
        Nat.mul_le_mul_right _ (Nat.lt_of_mul_lt_mul_right hlt)
      exact decide_eq_true (hle.trans_lt (by decide))).2.1.trans sampleFragments_length

end Receive

end UefiToolkit.TransportBuffer
