import UefiToolkit.DiskRestore
import UefiToolkit.PartModel

/-!
Erasing a partition.

The bytes that are left and the block that comes next are counted apart; they belong together as
long as the pieces are whole blocks.
-/

namespace UefiToolkit.PartErase

open UefiToolkit.Word UefiToolkit.Loop UefiToolkit.Mem UefiToolkit.SparseModel
open UefiToolkit.PartModel
open UefiToolkit.PartModel (Services St Event)

variable {ε : Type} {e : PartModel.Services ε} {h : Handle} {s : PartModel.St ε}

/-! ### What is asked of the disk -/

/-- A write of blocks succeeds and writes its request, or fails and writes nothing. -/
def AllOrNothing (e : PartModel.Services ε) : Prop :=
  ∀ (s : ε) (h : Handle) (f : ℕ → UInt8) (lba : ℕ) (data : List UInt8),
    (efiError (e.writeBlocks s h f lba data).1 = false ∧
      (e.writeBlocks s h f lba data).2.1 = blit f (lba * (e.media h).blockSize) data) ∨
    (efiError (e.writeBlocks s h f lba data).1 = true ∧ (e.writeBlocks s h f lba data).2.1 = f)

/-- The fill buffer holds whole blocks, and the bytes of the partition can be counted. -/
structure Geometry (m : Media) : Prop where
  divides : m.blockSize ∣ FILL_BUF_SIZE
  addressable : (m.lastBlock + 1) * m.blockSize < 2 ^ 64

lemma Geometry.pos {m : Media} (hm : Geometry m) : 0 < m.blockSize :=
  Nat.pos_of_dvd_of_pos hm.divides (by decide)

lemma Geometry.blocks_lt {m : Media} (hm : Geometry m) : m.lastBlock + 1 < 2 ^ 64 :=
  (Nat.le_mul_of_pos_right _ hm.pos).trans_lt hm.addressable

lemma Geometry.partitionSize_eq {m : Media} (hm : Geometry m) :
    m.partitionSize = (m.lastBlock + 1) * m.blockSize := by
  rw [Media.partitionSize, u64_of_lt hm.blocks_lt, u64_of_lt hm.addressable]

/-! ### Blocks that are zeroed -/

/-- A write that zeroes block `i` of the partition. -/
def Event.zeroes (blockSize : ℕ) (h : Handle) (i : ℕ) : PartModel.Event → Bool
  | .writeBlocks h' lba data status => decide (h' = h ∧ efiError status = false ∧ lba ≤ i ∧
      i < lba + data.length / blockSize ∧ ∀ b ∈ data, b = 0)
  | _ => false

/-- How often block `i` is zeroed. -/
def zeroings (blockSize : ℕ) (h : Handle) (i : ℕ) (l : List PartModel.Event) : ℕ :=
  l.countP (Event.zeroes blockSize h i)

lemma zeroings_append (blockSize : ℕ) (h : Handle) (i : ℕ) (l l' : List PartModel.Event) :
    zeroings blockSize h i (l ++ l') = zeroings blockSize h i l + zeroings blockSize h i l' :=
  List.countP_append

/-- A write of `n` zeroed blocks. -/
lemma zeroings_write {blockSize : ℕ} {status : Status} (hpos : 0 < blockSize)
    (hst : efiError status = false) (h : Handle) (i lba n : ℕ) :
    zeroings blockSize h i [.writeBlocks h lba (List.replicate (n * blockSize) 0) status] =
      if lba ≤ i ∧ i < lba + n then 1 else 0 := by
  have hn : n * blockSize / blockSize = n := Nat.mul_div_cancel n hpos
  have hzero : ∀ b ∈ List.replicate (n * blockSize) (0 : UInt8), b = 0 :=
    fun b => List.eq_of_mem_replicate
  have hcase : Event.zeroes blockSize h i
      (.writeBlocks h lba (List.replicate (n * blockSize) 0) status) =
      decide (lba ≤ i ∧ i < lba + n) := by
    unfold Event.zeroes
    dsimp only
    rw [List.length_replicate, hn]
    exact decide_eq_decide.mpr ⟨fun hx => ⟨hx.2.2.1, hx.2.2.2.1⟩,
      fun hx => ⟨rfl, hst, hx.1, hx.2, hzero⟩⟩
  unfold zeroings
  rw [List.countP_singleton, hcase]
  simp

/-- A write that fails zeroes nothing. -/
lemma zeroings_failed {blockSize : ℕ} {status : Status} (hst : efiError status = true)
    (h : Handle) (i lba : ℕ) (data : List UInt8) :
    zeroings blockSize h i [.writeBlocks h lba data status] = 0 := by
  unfold zeroings
  rw [List.countP_singleton]
  simp [Event.zeroes, hst]

/-- The first `k` blocks of the partition are zeroed, and all else is as before. -/
def zeroed (e : PartModel.Services ε) (h : Handle) (s : PartModel.St ε) (k : ℕ) :
    Handle → ℕ → UInt8 :=
  Function.update s.content h
    (blit (s.content h) 0 (List.replicate (k * (e.media h).blockSize) 0))

lemma zeroed_zero (e : PartModel.Services ε) (h : Handle) (s : PartModel.St ε) :
    zeroed e h s 0 = s.content := by
  unfold zeroed
  rw [Nat.zero_mul, List.replicate_zero, blit_nil, Function.update_eq_self]

lemma zeroed_next (e : PartModel.Services ε) (h : Handle) (s : PartModel.St ε) (k n : ℕ) :
    Function.update (zeroed e h s k) h (blit (zeroed e h s k h) (k * (e.media h).blockSize)
      (List.replicate (n * (e.media h).blockSize) 0)) = zeroed e h s (k + n) := by
  have hlen : k * (e.media h).blockSize =
      0 + (List.replicate (k * (e.media h).blockSize) (0 : UInt8)).length := by
    rw [List.length_replicate, Nat.zero_add]
  unfold zeroed
  rw [Function.update_self, Function.update_idem, Nat.add_mul, List.replicate_add,
    ← blit_append, ← hlen]

/-! ### The loop -/

/-- The events of writes that zeroed the first `k` blocks, each of them once, and no other. -/
structure Swept (blockSize : ℕ) (h : Handle) (k : ℕ) (l : List PartModel.Event) : Prop where
  once : ∀ i, zeroings blockSize h i l = if i < k then 1 else 0
  writes : ∀ x ∈ l, ∃ lba data status, x = .writeBlocks h lba data status ∧
    efiError status = false ∧ lba + data.length / blockSize ≤ k

lemma swept_nil (blockSize : ℕ) (h : Handle) : Swept blockSize h 0 [] :=
  ⟨fun i => by simp [zeroings], by simp⟩

lemma Swept.next {blockSize k : ℕ} {l : List PartModel.Event} {status : Status}
    (hs : Swept blockSize h k l) (hpos : 0 < blockSize) (hst : efiError status = false) (n : ℕ) :
    Swept blockSize h (k + n)
      (l ++ [.writeBlocks h k (List.replicate (n * blockSize) 0) status]) := by
  refine ⟨fun i => ?_, fun x hx => ?_⟩
  · rw [zeroings_append, hs.once, zeroings_write hpos hst]
    by_cases hi : i < k
    · rw [if_pos hi, if_neg (by omega), if_pos (by omega)]
    · rw [if_neg hi, Nat.zero_add]
      by_cases hi' : i < k + n
      · rw [if_pos ⟨by omega, hi'⟩, if_pos hi']
      · rw [if_neg (by omega), if_neg hi']
  · rcases List.mem_append.mp hx with hx | hx
    · obtain ⟨lba, data, status, rfl, hok, hle⟩ := hs.writes x hx
      exact ⟨lba, data, status, rfl, hok, by omega⟩
    · rw [List.mem_singleton] at hx
      refine ⟨k, _, status, hx, hst, ?_⟩
      rw [List.length_replicate, Nat.mul_div_cancel n hpos]

/-- After `k` blocks: the loop goes on with block `k`, or the write there has failed. -/
structure Reached (e : PartModel.Services ε) (h : Handle) (s : PartModel.St ε) (x : Erase ε)
    (k : ℕ) (l : List PartModel.Event) : Prop where
  le : k ≤ (e.media h).lastBlock + 1
  content : x.s.content = zeroed e h s k
  swept : Swept (e.media h).blockSize h k l
  ends : (efiError x.status = false ∧ x.offset = k ∧
      x.partitionSize = ((e.media h).lastBlock + 1 - k) * (e.media h).blockSize ∧
      x.s.trace = s.trace ++ l) ∨
    (efiError x.status = true ∧ k ≤ (e.media h).lastBlock ∧
      ∃ data, x.s.trace = s.trace ++ l ++ [.writeBlocks h k data x.status])

/-- The next piece is a number of whole blocks. -/
lemma fillCount_blocks {m : Media} (hm : Geometry m) {n : ℕ} (hn : 0 < n) :
    ∃ c, 0 < c ∧ c ≤ n ∧ fillCount (n * m.blockSize) = c * m.blockSize := by
  have hpos := hm.pos
  have hdvd : m.blockSize ∣ fillCount (n * m.blockSize) := by
    unfold fillCount
    split_ifs
    · exact hm.divides
    · exact Nat.dvd_mul_left _ _
  obtain ⟨c, hc⟩ := hdvd
  have hcount := fillCount_pos (Nat.mul_pos hn hpos)
  have hle := fillCount_le (n * m.blockSize)
  rw [hc, Nat.mul_comm] at hcount hle
  exact ⟨c, Nat.pos_of_mul_pos_right hcount, Nat.le_of_mul_le_mul_right hle hpos,
    hc.trans (Nat.mul_comm _ _)⟩

/-- A round whose write succeeds. -/
lemma eraseStep_ok {x : Erase ε} {data : List UInt8}
    (hdata : List.replicate (fillCount x.partitionSize) 0 = data)
    (hst : efiError (writeBlocks e h x.offset data x.s).1 = false) :
    eraseStep e h x = ⟨x.partitionSize - data.length,
      u64 (x.offset + data.length / (e.media h).blockSize),
      (writeBlocks e h x.offset data x.s).1, (writeBlocks e h x.offset data x.s).2⟩ := by
  subst hdata
  unfold eraseStep
  dsimp only
  rw [if_neg (ne_true_of_eq_false hst), List.length_replicate]

/-- A round whose write fails. -/
lemma eraseStep_failed {x : Erase ε} {data : List UInt8}
    (hdata : List.replicate (fillCount x.partitionSize) 0 = data)
    (hst : efiError (writeBlocks e h x.offset data x.s).1 = true) :
    eraseStep e h x = { x with status := (writeBlocks e h x.offset data x.s).1,
                               s := (writeBlocks e h x.offset data x.s).2 } := by
  subst hdata
  unfold eraseStep
  dsimp only
  rw [if_pos hst]

lemma eraseStep_reached (he : AllOrNothing e) (hm : Geometry (e.media h)) {x : Erase ε} {k : ℕ}
    {l : List PartModel.Event} (hx : Reached e h s x k l) (hmore : x.more = true) :
    (∃ k' l', Reached e h s (eraseStep e h x) k' l') ∧
      (efiError (eraseStep e h x).status = true ∨
        (eraseStep e h x).partitionSize < x.partitionSize) := by
  have hpos := hm.pos
  have hblocks := hm.blocks_lt
  have hok : 0 < x.partitionSize ∧ ¬ efiError x.status = true := by
    simpa [Erase.more] using hmore
  obtain ⟨-, hoffset, hleft, htrace⟩ := hx.ends.resolve_right fun herr => hok.2 herr.1
  have hn : 0 < (e.media h).lastBlock + 1 - k := by
    rw [hleft] at hok
    exact Nat.pos_of_mul_pos_right hok.1
  -- the next piece is `c` blocks, from block `k` on
  obtain ⟨c, hc, hcn, hcount⟩ := fillCount_blocks hm hn
  have hdata : List.replicate (fillCount x.partitionSize) (0 : UInt8) =
      List.replicate (c * (e.media h).blockSize) 0 := by
    rw [hleft, hcount]
  have hlength : (List.replicate (c * (e.media h).blockSize) (0 : UInt8)).length =
      c * (e.media h).blockSize := List.length_replicate
  rcases he x.s.env h (x.s.content h) x.offset (List.replicate (c * (e.media h).blockSize) 0) with
    ⟨hst, hcontent⟩ | ⟨hst, hcontent⟩
  · rw [eraseStep_ok hdata hst, hlength, Nat.mul_div_cancel c hpos]
    have hrest : x.partitionSize - c * (e.media h).blockSize =
        ((e.media h).lastBlock + 1 - (k + c)) * (e.media h).blockSize := by
      rw [hleft, ← Nat.sub_mul, Nat.sub_sub]
    have hnext : u64 (x.offset + c) = k + c := by
      rw [hoffset]
      exact u64_of_lt (by omega)
    refine ⟨⟨k + c, l ++ [.writeBlocks h k (List.replicate (c * (e.media h).blockSize) 0)
      (writeBlocks e h x.offset (List.replicate (c * (e.media h).blockSize) 0) x.s).1], by omega,
      ?_, hx.swept.next hpos hst c, Or.inl ⟨hst, hnext, hrest, ?_⟩⟩, Or.inr ?_⟩
    · rw [← zeroed_next, ← hx.content, ← hoffset, ← hcontent]
      rfl
    · rw [← List.append_assoc, ← htrace, ← hoffset]
      rfl
    · have hpiece := Nat.mul_pos hc hpos
      exact Nat.sub_lt hok.1 hpiece
  · rw [eraseStep_failed hdata hst]
    refine ⟨⟨k, l, hx.le, ?_, hx.swept, Or.inr ⟨hst, by omega,
      List.replicate (c * (e.media h).blockSize) 0, ?_⟩⟩, Or.inl hst⟩
    · rw [← hx.content]
      change Function.update x.s.content h (e.writeBlocks x.s.env h (x.s.content h) x.offset
        (List.replicate (c * (e.media h).blockSize) 0)).2.1 = _
      rw [hcontent, Function.update_eq_self]
    · rw [← htrace, ← hoffset]
      rfl

/-- The loop ends, with all of the partition zeroed or at a write that failed. -/
lemma eraseLoop_reached (he : AllOrNothing e) (hm : Geometry (e.media h)) {fuel : ℕ}
    (hfuel : (e.media h).partitionSize ≤ fuel) :
    ∃ x k l, whileFuel Erase.more (fun x => some (eraseStep e h x)) fuel
        ⟨(e.media h).partitionSize, 0, EFI_SUCCESS, s⟩ = some x ∧
      Reached e h s x k l ∧ x.more = false := by
  have hinit : Reached e h s ⟨(e.media h).partitionSize, 0, EFI_SUCCESS, s⟩ 0 [] :=
    ⟨Nat.zero_le _, (zeroed_zero e h s).symm, swept_nil _ _,
      Or.inl ⟨efiError_success, rfl, hm.partitionSize_eq, (List.append_nil _).symm⟩⟩
  obtain ⟨x, hrun, ⟨k, l, hx⟩, hdone⟩ := whileFuel_spec Erase.more
    (fun x => some (eraseStep e h x)) (I := fun x => ∃ k l, Reached e h s x k l)
    (μ := fun x => if efiError x.status then 0 else x.partitionSize)
    (fun x ⟨k, l, hx⟩ hmore => by
      obtain ⟨hnext, hless⟩ := eraseStep_reached he hm hx hmore
      have hok : 0 < x.partitionSize ∧ ¬ efiError x.status = true := by
        simpa [Erase.more] using hmore
      refine ⟨_, rfl, hnext, ?_⟩
      rw [if_neg hok.2]
      split_ifs with herr
      · exact hok.1
      · exact hless.resolve_left herr)
    fuel _ ⟨0, [], hinit⟩ hfuel
  exact ⟨x, k, l, hrun, hx, hdone⟩

/-! ### Erasing -/

/-- The events `l` of an erase of `h` that came back with `status` and left `s'`. -/
structure Erased (e : PartModel.Services ε) (h : Handle) (s : PartModel.St ε) (status : Status)
    (s' : PartModel.St ε) (l : List PartModel.Event) : Prop where
  trace : s'.trace = s.trace ++ l
  /-- Only blocks of the partition are written. -/
  inside : ∀ h' lba data st, .writeBlocks h' lba data st ∈ l → efiError st = false →
    h' = h ∧ lba + data.length / (e.media h).blockSize ≤ (e.media h).lastBlock + 1
  success : status = EFI_SUCCESS →
    (∀ i, zeroings (e.media h).blockSize h i l = if i ≤ (e.media h).lastBlock then 1 else 0) ∧
    s'.content = zeroed e h s ((e.media h).lastBlock + 1)
  /-- At a write that fails the erase ends, and what was written is what comes before. -/
  failed : ∀ h' lba data st, .writeBlocks h' lba data st ∈ l → efiError st = true →
    status = st ∧ (∀ i, zeroings (e.media h).blockSize h i l = if i < lba then 1 else 0) ∧
    s'.content = zeroed e h s lba
  /-- Without a write that fails it is the pool that has refused the fill buffer. -/
  error : status ≠ EFI_SUCCESS →
    (∃ h' lba data st, .writeBlocks h' lba data st ∈ l ∧ efiError st = true) ∨
    ((allocateZeroPool e FILL_BUF_SIZE s).1 = false ∧ status = EFI_OUT_OF_RESOURCES ∧ l = [] ∧
      s'.content = s.content)
  completes : (allocateZeroPool e FILL_BUF_SIZE s).1 = true →
    (∀ h' lba data st, .writeBlocks h' lba data st ∈ l → efiError st = false) →
    status = EFI_SUCCESS

/-- The writes of a sweep are those of the partition's first blocks. -/
lemma Swept.inside {blockSize k : ℕ} {l : List PartModel.Event} (hs : Swept blockSize h k l)
    {h' : Handle} {lba : ℕ} {data : List UInt8} {st : Status}
    (hx : PartModel.Event.writeBlocks h' lba data st ∈ l) :
    h' = h ∧ efiError st = false ∧ lba + data.length / blockSize ≤ k := by
  obtain ⟨lba', data', st', heq, hst, hle⟩ := hs.writes _ hx
  cases heq
  exact ⟨rfl, hst, hle⟩

/-- All of the partition is zeroed, and flushed. -/
lemma Swept.erased_all {l : List PartModel.Event} {s' : PartModel.St ε}
    (hs : Swept (e.media h).blockSize h ((e.media h).lastBlock + 1) l)
    (hcontent : s'.content = zeroed e h s ((e.media h).lastBlock + 1))
    (htrace : s'.trace = s.trace ++ l) :
    Erased e h s EFI_SUCCESS (s'.note (.sparse (.flushBlocks h)))
      (l ++ [.sparse (.flushBlocks h)]) := by
  have hmem {h' lba data st} (hx : PartModel.Event.writeBlocks h' lba data st ∈
      l ++ [.sparse (.flushBlocks h)]) : PartModel.Event.writeBlocks h' lba data st ∈ l := by
    simpa using hx
  constructor
  · rw [PartModel.St.note, htrace, List.append_assoc]
  · intro h' lba data st hx _
    exact ⟨(hs.inside (hmem hx)).1, (hs.inside (hmem hx)).2.2⟩
  · refine fun _ => ⟨fun i => ?_, hcontent⟩
    rw [zeroings_append, hs.once]
    simp [zeroings, Event.zeroes]
  · intro h' lba data st hx hst
    rw [(hs.inside (hmem hx)).2.1] at hst
    exact absurd hst Bool.false_ne_true
  · exact fun hne => absurd rfl hne
  · exact fun _ _ => rfl

/-- The write of block `k` fails. -/
lemma Swept.erased_failed {k : ℕ} {l : List PartModel.Event} {s' : PartModel.St ε}
    {data : List UInt8} {status : Status} (hs : Swept (e.media h).blockSize h k l)
    (hle : k ≤ (e.media h).lastBlock) (hcontent : s'.content = zeroed e h s k)
    (hst : efiError status = true)
    (htrace : s'.trace = s.trace ++ l ++ [.writeBlocks h k data status]) :
    Erased e h s status s' (l ++ [.writeBlocks h k data status]) := by
  have hmem {h' lba data' st} (hx : PartModel.Event.writeBlocks h' lba data' st ∈
      l ++ [.writeBlocks h k data status]) : PartModel.Event.writeBlocks h' lba data' st ∈ l ∨
        (h' = h ∧ lba = k ∧ data' = data ∧ st = status) := by
    simpa using hx
  have honce (i : ℕ) : zeroings (e.media h).blockSize h i
      (l ++ [.writeBlocks h k data status]) = if i < k then 1 else 0 := by
    rw [zeroings_append, hs.once, zeroings_failed hst, Nat.add_zero]
  constructor
  · rw [htrace, List.append_assoc]
  · intro h' lba data' st hx hok
    rcases hmem hx with hx | ⟨-, -, -, rfl⟩
    · obtain ⟨hh, -, hin⟩ := hs.inside hx
      exact ⟨hh, by omega⟩
    · exact absurd (hst.symm.trans hok) Bool.true_eq_false.mp
  · exact fun hsuccess => absurd hsuccess (efiError_ne_success hst)
  · intro h' lba data' st hx herr
    rcases hmem hx with hx | ⟨-, rfl, -, rfl⟩
    · exact absurd ((hs.inside hx).2.1.symm.trans herr) Bool.false_ne_true
    · exact ⟨rfl, honce, hcontent⟩
  · exact fun _ => Or.inl ⟨h, k, data, status, by simp, hst⟩
  · intro _ hall
    have hok := hall h k data status (by simp)
    exact absurd (hst.symm.trans hok) Bool.true_eq_false.mp

/-- Nothing is erased where the pool has no room for the fill buffer. -/
lemma erased_nothing {s' : PartModel.St ε}
    (hrefused : (allocateZeroPool e FILL_BUF_SIZE s).1 = false) (htrace : s'.trace = s.trace)
    (hcontent : s'.content = s.content) : Erased e h s EFI_OUT_OF_RESOURCES s' [] := by
  constructor
  · rw [htrace, List.append_nil]
  · exact fun _ _ _ _ hx => absurd hx List.not_mem_nil
  · exact fun hst => absurd hst (efiError_ne_success (efiError_maxBit 9))
  · exact fun _ _ _ _ hx => absurd hx List.not_mem_nil
  · exact fun _ => Or.inr ⟨hrefused, rfl, rfl, hcontent⟩
  · exact fun halloc => absurd (halloc.symm.trans hrefused) Bool.true_eq_false.mp

/-- **Erase.** A partition of blocks that the fill buffer holds a whole number of is erased in a
bounded number of rounds. If it succeeds all of its blocks have been zeroed once, and nothing else
has been written; where a write fails the erase ends with its status, the blocks before it zeroed
and the others as they were. With its buffer and without such a write it succeeds. -/
theorem erasePartition_erases (e : PartModel.Services ε) (he : AllOrNothing e) (h : Handle)
    (hm : Geometry (e.media h)) (name : List UInt8)
    (hopen : openPartition e.toServices name = (EFI_SUCCESS, some h)) (s : PartModel.St ε)
    (fuel : ℕ) (hfuel : (e.media h).partitionSize ≤ fuel) :
    ∃ status s' l, erasePartition e name fuel s = some (status, s') ∧
      Erased e h s status s' l := by
  unfold erasePartition
  rw [hopen]
  dsimp only
  split_ifs with halloc
  · have hrefused : (allocateZeroPool e FILL_BUF_SIZE s).1 = false := by simpa using halloc
    exact ⟨EFI_OUT_OF_RESOURCES, _, [], rfl, erased_nothing hrefused rfl rfl⟩
  · obtain ⟨x, k, l, hrun, hx, hdone⟩ := eraseLoop_reached
      (s := (allocateZeroPool e FILL_BUF_SIZE s).2) he hm hfuel
    rw [hrun, Option.map_some]
    rcases hx.ends with ⟨hst, -, hleft, htrace⟩ | ⟨hst, hk, data, htrace⟩
    · -- the condition of the loop fails because no bytes are left
      have hnone : x.partitionSize = 0 := by
        simpa [Erase.more, hst] using hdone
      have hall : k = (e.media h).lastBlock + 1 := by
        rcases Nat.mul_eq_zero.mp (hleft.symm.trans hnone) with hblocks | hsize
        · have hle := hx.le
          omega
        · exact absurd hsize hm.pos.ne'
      rw [if_neg (ne_true_of_eq_false hst)]
      subst hall
      exact ⟨EFI_SUCCESS, _, _, rfl, hx.swept.erased_all hx.content htrace⟩
    · rw [if_pos hst]
      exact ⟨x.status, x.s, _, rfl, hx.swept.erased_failed hk hx.content hst htrace⟩

/-- Partitions of eight blocks of 512 bytes, and files, that are kept in memory. -/
def memoryPartitions (partitions : List PartitionEntry) : PartModel.Services Unit where
  partitions := partitions
  uninitName := []
  openBlockIo _ := EFI_SUCCESS
  openDiskIo _ := EFI_SUCCESS
  media _ := ⟨0, 7, 512⟩
  allocatePool _ _ := (true, ())
  writeDisk _ _ mem off data := (EFI_SUCCESS, blit mem off data, ())
  files := DiskRestore.memoryServices
  readDisk _ _ mem off len := (EFI_SUCCESS, slice mem off len, ())
  writeBlocks _ _ mem lba data := (EFI_SUCCESS, blit mem (lba * 512) data, ())

/-- A partition with a label that is terminated. -/
def labelled (label : String) (h : Handle) : PartitionEntry :=
  ⟨fun i => (DiskModel.unicode label).getD i 0, h⟩

theorem erasePartition_erases_boot :
    ∃ status s' l, erasePartition (memoryPartitions [labelled "boot" 1]) [98, 111, 111, 116] 4096
        ⟨(), fun _ _ => 255, fun _ => none, []⟩ = some (status, s') ∧
      Erased (memoryPartitions [labelled "boot" 1]) 1 ⟨(), fun _ _ => 255, fun _ => none, []⟩
        status s' l :=
  erasePartition_erases (memoryPartitions [labelled "boot" 1])
    (fun _ _ _ _ _ => Or.inl ⟨efiError_success, rfl⟩) 1 ⟨⟨32768, rfl⟩, by decide⟩
    [98, 111, 111, 116] (by decide) ⟨(), fun _ _ => 255, fun _ => none, []⟩ 4096 (by decide)

end UefiToolkit.PartErase
