import UefiToolkit.TransportBuffer

/-!
Who owns the buffer of `TcpDataReceive` when it returns.

A further block that cannot be allocated leaves the caller with a buffer that was freed, and a
first fragment without bytes with a pointer that was never assigned.
-/

namespace UefiToolkit.TransportOwner

open UefiToolkit.Word UefiToolkit.Mem UefiToolkit.Allocator UefiToolkit.TransportModel
  UefiToolkit.TransportBuffer

variable {room : ℕ → ℕ → Bool} {pool : Pool Block} {first : ℕ} {done bulk : List UInt8}
  {s s' : Transfer} {ending : Ending}

/-! ### An allocation that fails -/

/-- Without a published buffer none is left, and one that was published is freed. -/
structure Failed (done : List UInt8) (s : Transfer) : Prop where
  none_left : done = [] → s.buffer = .null ∧ s.bufferSize = 0 ∧ ∀ u ∈ s.uses, Use.Valid u
  freed : done ≠ [] → s.buffer ≠ .null ∧ find s.pool s.buffer = none

lemma append_error (h : Holding first done s) (hbulk : bulk.length ≤ RX_FRAGMENT_SIZE)
    (hgrow : growths done.length < growths (done ++ bulk).length)
    (hroom : room (first + growths done.length) ((growths done.length + 1) * SIZE_8MB) = false) :
    ∃ s', append room bulk s = .error s' ∧ Failed done s' := by
  have hcount := growths_add (n := done.length) hbulk
  rw [← List.length_append] at hcount
  have hlt : growths done.length * SIZE_8MB < (done ++ bulk).length := by
    by_contra hnot
    rw [if_neg hnot] at hcount
    omega
  rw [← h.attempts, ← h.next_length] at hroom
  obtain ⟨s', hs', hbuffer, hsize, hnull, hblock⟩ := grow_none hroom
  refine ⟨s', by rw [append, if_pos ((h.append_iff hbulk).mpr hlt), hs']; rfl, fun hnil => ?_,
    fun hne => ?_⟩
  · rcases h.held with ⟨-, hdata, hnone⟩ | ⟨a, x, hsome, -⟩
    · refine ⟨hbuffer.trans hnone, hsize.trans ?_, ?_⟩
      · rw [h.size, hnil]
        rfl
      · rw [hnull hdata]
        exact h.valid
    · exact absurd hnil hsome
  · rcases h.held with ⟨hnil, -, -⟩ | ⟨a, x, -, hdata, -, hpublished, hx, -, -⟩
    · exact absurd hnil hne
    · rw [hbuffer, hpublished]
      exact ⟨by simp, (hblock a x hdata hx).1⟩

variable (ending) in
/-- The first block that cannot be allocated ends the loop. -/
lemma receiveLoop_fails (hlimit : ∀ n size, room n size = true → size < 2 ^ 63)
    (fragments : List (List UInt8)) (done : List UInt8) (s : Transfer) (h : Holding first done s)
    (hlength : ∀ f ∈ fragments, f.length ≤ RX_FRAGMENT_SIZE)
    (hne : done = [] → fragments.head? ≠ some []) (k : ℕ) (hk : growths done.length ≤ k)
    (hlt : k < growths (done ++ fragments.flatten).length)
    (hfail : room (first + k) ((k + 1) * SIZE_8MB) = false)
    (hbefore : ∀ j, growths done.length ≤ j → j < k →
      room (first + j) ((j + 1) * SIZE_8MB) = true) :
    ∃ s' done', receiveLoop room ending fragments s = (EFI_OUT_OF_RESOURCES, s') ∧
      Failed done' s' ∧ growths done'.length = k := by
  induction fragments generalizing done s with
  | nil =>
    rw [List.flatten_nil, List.append_nil] at hlt
    omega
  | cons bulk fragments ih =>
    have hbulk := hlength bulk List.mem_cons_self
    have hsome : done ++ bulk ≠ [] := fun hnil => by
      obtain ⟨hdone, rfl⟩ := List.append_eq_nil_iff.mp hnil
      exact hne hdone rfl
    rw [List.flatten_cons, ← List.append_assoc] at hlt
    have hstep := growths_add (n := done.length) hbulk
    rw [← List.length_append] at hstep
    by_cases hreach : growths (done ++ bulk).length ≤ k
    · have hle : growths done.length ≤ growths (done ++ bulk).length := by omega
      obtain ⟨s', hs', h'⟩ := h.append_ok hlimit hbulk hsome fun hgrow =>
        hbefore _ le_rfl (by omega)
      obtain ⟨s'', done', hs'', hfailed⟩ := ih (done ++ bulk) s' h'
        (fun f hf => hlength f (List.mem_cons_of_mem _ hf)) (fun hnil => absurd hnil hsome)
        hreach hlt fun j hj hjk => hbefore j (hle.trans hj) hjk
      refine ⟨s'', done', ?_, hfailed⟩
      rw [receiveLoop, hs']
      exact hs''
    · obtain rfl : k = growths done.length := by
        split_ifs at hstep <;> omega
      obtain ⟨s', hs', hfailed⟩ := append_error h hbulk (by omega) hfail
      refine ⟨s', done, ?_, hfailed, rfl⟩
      rw [receiveLoop, hs']

/-! ### A first fragment without bytes -/

/-- A pointer that was never assigned is published, or it was freed. -/
def Lost (s : Transfer) : Prop :=
  (s.dataBuffer = .undefined ∧ s.bufferTemp = .undefined ∧ s.buffer = .undefined) ∨
    .free .undefined none ∈ s.uses

lemma uses_publish : s.uses ⊆ (publish bulk s).uses := List.subset_append_left _ _

lemma uses_freePool (p : Ptr) : s.uses ⊆ (freePool p s).uses := List.subset_append_left _ _

lemma publish_lost (h : Lost s) : Lost (publish bulk s) := by
  rcases h with ⟨-, htemp, -⟩ | hfree
  · exact Or.inl ⟨htemp, htemp, htemp⟩
  · exact Or.inr (uses_publish hfree)

variable (room) in
/-- Growing frees what was published. -/
lemma grow_lost (h : Lost s) :
    (∃ s', grow room s = .ok s' ∧ .free .undefined none ∈ s'.uses) ∨
      ∃ s', grow room s = .error s' ∧ .free .undefined none ∈ s'.uses := by
  have hmem : ∀ (p : Ptr) (t : Transfer), (p = .undefined ∨ .free .undefined none ∈ t.uses) →
      .free .undefined none ∈ (freePool p t).uses := fun p t ht => by
    rcases ht with rfl | hfree
    · exact List.mem_append_right _ (List.mem_singleton_self _)
    · exact uses_freePool p hfree
  have hcase : s.dataBuffer = .undefined ∨ .free .undefined none ∈ s.uses :=
    h.imp_left fun h => h.1
  unfold grow
  dsimp only
  by_cases hnull : s.dataBuffer = .null
  · have hfree : .free .undefined none ∈ s.uses := hcase.resolve_left (by simp [hnull])
    rw [if_pos hnull, if_pos hnull]
    split_ifs
    · exact Or.inr ⟨_, rfl, hfree⟩
    · exact Or.inl ⟨_, rfl, hfree⟩
  · rw [if_neg hnull, if_neg hnull]
    split_ifs
    · exact Or.inr ⟨_, rfl, hmem _ _ hcase⟩
    · refine Or.inl ⟨_, rfl, hmem _ _ (hcase.imp_right fun hfree => ?_)⟩
      exact List.mem_append_left _ (List.mem_append_left _ hfree)

variable (room bulk) in
lemma append_lost (h : Lost s) :
    (∃ s', append room bulk s = .ok s' ∧ Lost s') ∨
      ∃ s', append room bulk s = .error s' ∧ Lost s' := by
  unfold append
  split_ifs
  · rcases grow_lost room h with ⟨s', hs', hfree⟩ | ⟨s', hs', hfree⟩
    · exact Or.inl ⟨_, by rw [hs']; rfl, publish_lost (Or.inr hfree)⟩
    · exact Or.inr ⟨s', by rw [hs']; rfl, Or.inr hfree⟩
  · exact Or.inl ⟨_, rfl, publish_lost h⟩

lemma receiveLoop_lost (fragments : List (List UInt8)) (s : Transfer) (h : Lost s) :
    Lost (receiveLoop room ending fragments s).2 := by
  induction fragments generalizing s with
  | nil => exact h
  | cons bulk fragments ih =>
    rw [receiveLoop]
    rcases append_lost room bulk h with ⟨s', hs', hlost⟩ | ⟨s', hs', hlost⟩
    · rw [hs']
      exact ih s' hlost
    · rw [hs']
      exact hlost

variable (room) in
/-- The first fragment publishes what no one has assigned. -/
lemma append_empty (h : Holding first [] s) (htemp : s.bufferTemp = .undefined) :
    ∃ s', append room [] s = .ok s' ∧ Lost s' := by
  have hgrow : ¬ s.allocateLength < add64 s.totalDataNumber ([] : List UInt8).length := by
    rw [h.append_iff (Nat.zero_le _)]
    exact Nat.lt_irrefl 0
  exact ⟨_, if_neg hgrow, Or.inl ⟨htemp, htemp, htemp⟩⟩

/-! ### The caller -/

/-- The caller is left with nothing or with a block that holds what was received first, and what is
freed and saved is there. -/
structure Sound (room : ℕ → ℕ → Bool) (pool : Pool Block) (fragments : List (List UInt8))
    (ending : Ending) : Prop where
  published : let s := (tcpDataReceive room pool fragments ending).2
    (s.buffer = .null ∧ s.bufferSize = 0) ∨
      ∃ b, find s.pool s.buffer = some b ∧ s.bufferSize ≤ b.size ∧
        slice b.cells 0 s.bufferSize <+: fragments.flatten
  used : ∀ d accept openProtocol s,
    connectionAccepted room d accept openProtocol pool fragments ending = some s →
      ∀ u ∈ s.uses, Use.Valid u

lemma saveFileToDisk_valid (d : Disk) (n : ℕ) {p : Ptr} (hvalid : ∀ u ∈ s.uses, Use.Valid u)
    (hp : p = .null ∨ find s.pool p ≠ none) : ∀ u ∈ (saveFileToDisk d n p s).uses, Use.Valid u := by
  unfold saveFileToDisk
  dsimp only
  split_ifs
  · exact forall_mem_snoc hvalid hp
  · exact forall_mem_snoc (forall_mem_snoc hvalid hp) hp
  · exact forall_mem_snoc hvalid hp

lemma uses_saveFileToDisk (d : Disk) (n : ℕ) (p : Ptr) :
    s.uses ⊆ (saveFileToDisk d n p s).uses := by
  unfold saveFileToDisk
  dsimp only
  split_ifs
  · exact List.subset_append_left _ _
  · exact List.Subset.trans (List.subset_append_left _ _) (List.subset_append_left _ _)
  · exact List.subset_append_left _ _

lemma connectionAccepted_some {d : Disk} {accept openProtocol : Status}
    {fragments : List (List UInt8)}
    (h : connectionAccepted room d accept openProtocol pool fragments ending = some s) :
    s = saveFileToDisk d (tcpDataReceive room pool fragments ending).2.bufferSize
      (tcpDataReceive room pool fragments ending).2.buffer
      (tcpDataReceive room pool fragments ending).2 := by
  unfold connectionAccepted at h
  split_ifs at h
  exact (Option.some.inj h).symm

lemma sound_of_null {fragments : List (List UInt8)}
    (hbuffer : (tcpDataReceive room pool fragments ending).2.buffer = .null)
    (hsize : (tcpDataReceive room pool fragments ending).2.bufferSize = 0)
    (hvalid : ∀ u ∈ (tcpDataReceive room pool fragments ending).2.uses, Use.Valid u) :
    Sound room pool fragments ending := by
  refine ⟨Or.inl ⟨hbuffer, hsize⟩, fun d accept openProtocol s hs => ?_⟩
  rw [connectionAccepted_some hs]
  exact saveFileToDisk_valid d _ hvalid (Or.inl hbuffer)

lemma sound_of_holding {fragments : List (List UInt8)} {status : Status}
    (hr : tcpDataReceive room pool fragments ending = (status, s))
    (h : Holding first fragments.flatten s) : Sound room pool fragments ending := by
  rcases h.held with ⟨hnil, -, hbuffer⟩ | ⟨a, x, hsome, -, -, hbuffer, hx, hsize, hcontent⟩
  · refine sound_of_null (by rw [hr]; exact hbuffer) ?_ (by rw [hr]; exact h.valid)
    rw [hr]
    exact h.size.trans (by rw [hnil]; rfl)
  · have hfind : find s.pool s.buffer = some x := by
      rw [hbuffer]
      exact hx
    have hle : s.bufferSize ≤ x.size := by
      rw [h.size, hsize, h.length]
      exact (growths_lt (List.length_pos_of_ne_nil hsome)).2
    refine ⟨?_, fun d accept openProtocol t ht => ?_⟩
    · rw [hr]
      refine Or.inr ⟨x, hfind, hle, ?_⟩
      dsimp only
      rw [h.size, hcontent]
    · rw [connectionAccepted_some ht, hr]
      exact saveFileToDisk_valid d _ h.valid (Or.inr (by simp [hfind]))

/-- A run that loses track of its buffer is not sound. -/
lemma not_sound_of_lost {fragments : List (List UInt8)}
    (h : Lost (tcpDataReceive room pool fragments ending).2) :
    ¬ Sound room pool fragments ending := by
  rintro ⟨hpublished, hused⟩
  rcases h with ⟨-, -, hbuffer⟩ | hfree
  · dsimp only at hpublished
    rw [hbuffer] at hpublished
    rcases hpublished with ⟨hnull, -⟩ | ⟨b, hb, -⟩
    · cases hnull
    · cases hb
  · have hvalid := hused ⟨0, 0⟩ 0 0 _ rfl _ (uses_saveFileToDisk _ _ _ hfree)
    rcases hvalid with hnull | hne
    · cases hnull
    · exact hne rfl

/-- A block behind the first that cannot be allocated leaves the caller with one that was freed. -/
lemma not_sound_of_growth {fragments : List (List UInt8)}
    (hlimit : ∀ n size, room n size = true → size < 2 ^ 63)
    (hfragments : ∀ f ∈ fragments, f.length ≤ RX_FRAGMENT_SIZE)
    (hstart : room pool.attempts RX_FRAGMENT_SIZE = true) (hempty : fragments.head? ≠ some [])
    {k : ℕ} (hk : k ≠ 0) (hlt : k < growths fragments.flatten.length)
    (hfail : room (pool.attempts + 1 + k) ((k + 1) * SIZE_8MB) = false)
    (hbefore : ∀ j, j < k → room (pool.attempts + 1 + j) ((j + 1) * SIZE_8MB) = true) :
    ¬ Sound room pool fragments ending := by
  obtain ⟨s, hs, h, -⟩ := tcpDataReceive_start hstart fragments ending
  obtain ⟨s', done', hr, hfailed, hgrowths⟩ := receiveLoop_fails ending hlimit fragments
    [] s h hfragments (fun _ => hempty) k (Nat.zero_le k) hlt hfail fun j _ hj => hbefore j hj
  have hdone : done' ≠ [] := fun hnil => hk (by rw [← hgrowths, hnil]; rfl)
  obtain ⟨hnotnull, hnone⟩ := hfailed.freed hdone
  rintro ⟨hpublished, -⟩
  rw [hs, hr] at hpublished
  rcases hpublished with ⟨hnull, -⟩ | ⟨b, hb, -⟩
  · exact hnotnull hnull
  · dsimp only at hb
    rw [hnone] at hb
    cases hb

/-- Without the first block nothing is published. -/
lemma sound_of_first {fragments : List (List UInt8)}
    (hlimit : ∀ n size, room n size = true → size < 2 ^ 63)
    (hfragments : ∀ f ∈ fragments, f.length ≤ RX_FRAGMENT_SIZE)
    (hstart : room pool.attempts RX_FRAGMENT_SIZE = true) (hempty : fragments.head? ≠ some [])
    (hany : 0 < growths fragments.flatten.length)
    (hfail : room (pool.attempts + 1) SIZE_8MB = false) :
    Sound room pool fragments ending := by
  obtain ⟨s, hs, h, -⟩ := tcpDataReceive_start hstart fragments ending
  obtain ⟨s', done', hr, hfailed, hgrowths⟩ := receiveLoop_fails ending hlimit fragments
    [] s h hfragments (fun _ => hempty) 0 (Nat.zero_le 0) hany
    (by rwa [Nat.zero_add, Nat.one_mul, Nat.add_zero]) fun j _ hj => absurd hj (Nat.not_lt_zero j)
  rw [← hs] at hr
  have hdone : done' = [] := by
    by_contra hne
    have hpos := List.length_pos_of_ne_nil hne
    have := (growths_lt hpos).2
    rw [hgrowths, Nat.zero_mul] at this
    omega
  obtain ⟨hnull, hsize, hvalid⟩ := hfailed.none_left hdone
  exact sound_of_null (by rw [hr]; exact hnull) (by rw [hr]; exact hsize) (by rw [hr]; exact hvalid)

/-- **The caller is left with a buffer of its own** exactly when every block behind the first can
be allocated, and the first fragment has a byte. -/
theorem connectionAccepted_sound_iff (room : ℕ → ℕ → Bool) (pool : Pool Block)
    (fragments : List (List UInt8)) (ending : Ending)
    (hlimit : ∀ n size, room n size = true → size < 2 ^ 63)
    (hfragments : ∀ f ∈ fragments, f.length ≤ RX_FRAGMENT_SIZE) :
    Sound room pool fragments ending ↔
      (room pool.attempts RX_FRAGMENT_SIZE = true → fragments.head? ≠ some [] ∧
        (room (pool.attempts + 1) SIZE_8MB = true → ∀ k, 1 ≤ k →
          k * SIZE_8MB < fragments.flatten.length →
            room (pool.attempts + 1 + k) ((k + 1) * SIZE_8MB) = true)) := by
  by_cases hstart : room pool.attempts RX_FRAGMENT_SIZE = true
  swap
  · obtain ⟨pool', hp, -⟩ := allocateZeroPool_none (Bool.eq_false_iff.mpr hstart)
    have hr : tcpDataReceive room pool fragments ending =
        (EFI_OUT_OF_RESOURCES, ⟨pool', .null, .undefined, 0, 0, .null, 0, []⟩) := by
      unfold tcpDataReceive
      dsimp only
      rw [hp, if_pos rfl]
    exact ⟨fun _ h => absurd h hstart, fun _ =>
      sound_of_null (by rw [hr]) (by rw [hr]) (by rw [hr]; simp)⟩
  obtain ⟨s, hs, h, htemp⟩ := tcpDataReceive_start hstart fragments ending
  by_cases hempty : fragments.head? = some []
  · obtain ⟨rest, rfl⟩ : ∃ rest, fragments = [] :: rest := by
      cases fragments with
      | nil => cases hempty
      | cons f rest => exact ⟨rest, by rw [Option.some.inj hempty]⟩
    obtain ⟨s', hs', hlost⟩ := append_empty room h htemp
    refine ⟨fun hsound => absurd hsound (not_sound_of_lost ?_), fun hcond =>
      absurd hempty (hcond hstart).1⟩
    rw [hs, receiveLoop, hs']
    exact receiveLoop_lost rest s' hlost
  constructor
  · intro hsound _
    refine ⟨hempty, fun hzero k hk hlt => ?_⟩
    -- the first block behind the first one that cannot be allocated
    by_contra hne
    have hex : ∃ k, k < growths fragments.flatten.length ∧
        room (pool.attempts + 1 + k) ((k + 1) * SIZE_8MB) = false :=
      ⟨k, lt_growths_iff.mpr hlt, Bool.eq_false_iff.mpr hne⟩
    obtain ⟨hn, hfail⟩ := Nat.find_spec hex
    have hpos : Nat.find hex ≠ 0 := fun h0 => by
      rw [h0, Nat.zero_add, Nat.one_mul, Nat.add_zero, hzero] at hfail
      cases hfail
    refine not_sound_of_growth hlimit hfragments hstart hempty hpos hn hfail (fun j hj => ?_) hsound
    by_contra hj'
    exact Nat.find_min hex hj ⟨hj.trans hn, Bool.eq_false_iff.mpr hj'⟩
  · intro hcond
    obtain ⟨-, hgrow⟩ := hcond hstart
    by_cases hzero : room (pool.attempts + 1) SIZE_8MB = false ∧
        0 < growths fragments.flatten.length
    · exact sound_of_first hlimit hfragments hstart hempty hzero.2 hzero.1
    · obtain ⟨s', hs', h'⟩ := receiveLoop_ok ending hlimit fragments [] s h hfragments
        (fun _ => hempty) fun k _ hlt => by
          rw [List.nil_append] at hlt
          have hroom : room (pool.attempts + 1) SIZE_8MB = true := by
            by_contra hfail
            exact hzero ⟨Bool.eq_false_iff.mpr hfail, by omega⟩
          rcases Nat.eq_zero_or_pos k with rfl | hk
          · rwa [Nat.zero_add, Nat.one_mul, Nat.add_zero]
          · exact hgrow hroom k hk (lt_growths_iff.mp hlt)
      exact sound_of_holding (hs.trans hs') h'

/-! ### Two runs -/

/-- Fragments of more than eight megabytes. -/
def sampleFragments : List (List UInt8) := List.replicate 4097 (List.replicate 2048 0xAA)

lemma sampleFragments_length : sampleFragments.flatten.length = 8390656 := by
  rw [sampleFragments, List.length_flatten, List.map_replicate, List.length_replicate,
    List.sum_replicate]
  rfl

/-- There is no room for a block of sixteen megabytes, and the one of eight was published. -/
theorem connectionAccepted_second_growth :
    ¬ Sound (fun _ size => decide (size ≤ SIZE_8MB)) samplePool sampleFragments
      (.receive EFI_DEVICE_ERROR) := by
  refine not_sound_of_growth (k := 1) (fun _ size h => ?_) (fun f hf => ?_) (by decide) ?_
    (by decide) ?_ (by decide) (fun j hj => ?_)
  · exact lt_of_le_of_lt (of_decide_eq_true h) (by decide)
  · rw [(List.mem_replicate.mp hf).2, List.length_replicate]
    exact le_rfl
  · intro h
    rw [sampleFragments, List.head?_replicate, if_neg (by decide), Option.some.injEq] at h
    have hlen := congrArg List.length h
    rw [List.length_replicate] at hlen
    exact absurd hlen (by decide)
  · rw [sampleFragments_length]
    decide
  · obtain rfl : j = 0 := by omega
    decide

theorem connectionAccepted_first_growth :
    Sound (fun _ size => decide (size ≤ RX_FRAGMENT_SIZE)) samplePool [[1, 2]]
      (.completion EFI_DEVICE_ERROR) :=
  (connectionAccepted_sound_iff (fun _ size => decide (size ≤ RX_FRAGMENT_SIZE)) samplePool [[1, 2]]
    (.completion EFI_DEVICE_ERROR)
    (fun _ _ h => lt_of_le_of_lt (of_decide_eq_true h) (by decide)) (by decide)).mpr
    fun _ => ⟨by decide, fun h => absurd h (by decide)⟩

end UefiToolkit.TransportOwner
