import UefiToolkit.SparseImage

/-!
Which accesses to a partition stay inside it.

A request is compared with the size of the partition without its offset. The writes of a sparse
image are the requests its chunks make, one after the other, up to the first that is refused.
-/

namespace UefiToolkit.PartitionBounds

open UefiToolkit.Word UefiToolkit.Mem UefiToolkit.SparseModel UefiToolkit.SparseImage

/-- The bytes of the partition. -/
def bytes (m : Media) : ℕ := (m.lastBlock + 1) * m.blockSize

/-- The size the program works with is the number of bytes, in a `UINTN`. -/
lemma partitionSize_eq (m : Media) : m.partitionSize = bytes m % 2 ^ 64 := by
  rw [Media.partitionSize, bytes, u64, u64, Nat.mod_mul_mod]

/-- Services that open the named partition, a medium `m` behind handle `handle`. -/
structure Opened (ε : Type) (m : Media) where
  services : Services ε
  name : List UInt8
  handle : Handle
  opens : openPartition services name = (EFI_SUCCESS, some handle)
  media : services.media handle = m

/-! ### Reading a partition -/

/-- What `ReadPartition` answers: the status, the request to `ReadDisk` if one was issued, and
what was read. -/
structure ReadOutcome where
  status : Status
  issued : Option (ℕ × ℕ)
  data : List UInt8

def readPartition {ε : Type} (e : Services ε) (readDisk : Handle → ℕ → ℕ → Status × List UInt8)
    (partitionName : List UInt8) (offset bufferSize : ℕ) : ReadOutcome :=
  match openPartition e partitionName with
  | (status, none) => ⟨status, none, []⟩
  | (_, some h) =>
    if (e.media h).partitionSize < bufferSize then ⟨EFI_VOLUME_FULL, none, []⟩
    else
      let r := readDisk h offset bufferSize
      ⟨if efiError r.1 then r.1 else EFI_SUCCESS, some (offset, bufferSize), r.2⟩

/-! ### One request -/

/-- The offset and the length of a write. -/
def writeRequest : Event → Option (ℕ × ℕ)
  | .writeDisk _ off data => some (off, data.length)
  | _ => none

/-- The writes among some events. -/
def writes (l : List Event) : List (ℕ × ℕ) := l.filterMap writeRequest

lemma writes_append (l l' : List Event) : writes (l ++ l') = writes l ++ writes l' :=
  List.filterMap_append

/-- The request ends inside the partition. -/
def Inside (m : Media) (r : ℕ × ℕ) : Prop := r.1 + r.2 ≤ bytes m

/-- What a request has to come to: nothing outside the partition is touched, and a request that
does not fit is refused. -/
def Contained (m : Media) (r : ℕ × ℕ) (status : Status) (issued : List (ℕ × ℕ)) : Prop :=
  (∀ x ∈ issued, Inside m x) ∧ (¬ Inside m r → status = EFI_VOLUME_FULL ∧ issued = [])

/-- The request passes the comparison the program makes. -/
def admitted (m : Media) (r : ℕ × ℕ) : Bool := r.2 ≤ bytes m % 2 ^ 64

section Request

variable {ε : Type} {m : Media} (d : Opened ε m)

lemma writePartition_refused {off : ℕ} {data : List UInt8} (s : St ε)
    (h : admitted m (off, data.length) = false) :
    writePartition d.services d.name off data s = (EFI_VOLUME_FULL, s) := by
  have hlt : (d.services.media d.handle).partitionSize < data.length := by
    rw [d.media, partitionSize_eq]
    simpa [admitted] using h
  unfold writePartition
  rw [d.opens]
  exact if_pos hlt

/-- An admitted request is issued; its status is the disk's. -/
lemma writePartition_issued {off : ℕ} {data : List UInt8} (s : St ε)
    (h : admitted m (off, data.length) = true) :
    (∃ l, (writePartition d.services d.name off data s).2.trace = s.trace ++ l ∧
      writes l = [(off, data.length)]) ∧
    (efiError (d.services.writeDisk s.env d.handle (s.content d.handle) off data).1 = false →
      (writePartition d.services d.name off data s).1 = EFI_SUCCESS) := by
  have hle : ¬ (d.services.media d.handle).partitionSize < data.length := by
    rw [d.media, partitionSize_eq, Nat.not_lt]
    simpa [admitted] using h
  unfold writePartition
  rw [d.opens]
  dsimp only
  rw [if_neg hle]
  constructor
  · split_ifs
    · exact ⟨_, rfl, rfl⟩
    · exact ⟨_, List.append_assoc _ _ _, rfl⟩
  · intro hok
    rw [if_neg (by simp [hok])]

end Request

/-! ### The requests of a sparse image -/

/-- The pieces of a fill. -/
def fillRequests (off left : ℕ) : List (ℕ × ℕ) :=
  if 0 < left then
    (off, fillCount left) :: fillRequests (u64 (off + fillCount left)) (left - fillCount left)
  else []
termination_by left
decreasing_by exact Nat.sub_lt ‹_› (fillCount_pos ‹_›)

/-- What the chunk with its header at `pos` asks to be written from disk offset `off` on. -/
def chunkRequests (img : ℕ → UInt8) (pos off : ℕ) : List (ℕ × ℕ) :=
  let len := (chunkHeaderAt img pos).chunkSize * (sparseHeader img).blockSize
  if (chunkHeaderAt img pos).chunkType = CHUNK_TYPE_RAW then [(off, u32 len)]
  else if (chunkHeaderAt img pos).chunkType = CHUNK_TYPE_FILL then fillRequests off len
  else []

/-- The disk offset behind the chunk with its header at `pos`. -/
def nextOffset (img : ℕ → UInt8) (pos off : ℕ) : ℕ :=
  let len := (chunkHeaderAt img pos).chunkSize * (sparseHeader img).blockSize
  if (chunkHeaderAt img pos).chunkType = CHUNK_TYPE_RAW ∨
      (chunkHeaderAt img pos).chunkType = CHUNK_TYPE_FILL ∨
      (chunkHeaderAt img pos).chunkType = CHUNK_TYPE_DONT_CARE then u64 (off + len)
  else off

/-- The requests of `n` chunks. -/
def requests (img : ℕ → UInt8) : ℕ → ℕ → ℕ → List (ℕ × ℕ)
  | 0, _, _ => []
  | n + 1, pos, off => chunkRequests img pos off ++
      requests img n (pos + chunkHeaderLen + advance img pos) (nextOffset img pos off)

/-- The requests of an image, as far as they are admitted. -/
def admittedRequests (m : Media) (img : ℕ → UInt8) : List (ℕ × ℕ) :=
  (requests img (sparseHeader img).totalChunks (sparseHeader img).fileHeaderSize 0).takeWhile
    (admitted m)

/-! ### What a walk writes -/

/-- Some requests were made and ended with a status: the writes are admitted requests in order,
and all of them if the disk is reliable. -/
structure Wrote (m : Media) (reliable : Prop) (rs : List (ℕ × ℕ)) (status : Status)
    (l : List Event) : Prop where
  sound : writes l <+: rs.takeWhile (admitted m)
  complete : ¬ efiError status = true → writes l = rs ∧ ∀ r ∈ rs, admitted m r = true
  full : reliable → writes l = rs.takeWhile (admitted m)
  stopped : reliable → efiError status = true → ∃ r ∈ rs, ¬ admitted m r = true

section Walk

variable {ε : Type} {m : Media} {reliable : Prop}

lemma takeWhile_append_of_stop {α : Type*} {q : α → Bool} {l l' : List α}
    (h : ∃ x ∈ l, ¬ q x = true) : (l ++ l').takeWhile q = l.takeWhile q := by
  rw [List.takeWhile_append, if_neg]
  intro hlen
  obtain ⟨x, hx, hq⟩ := h
  have heq : l.takeWhile q = l := (List.takeWhile_prefix q).eq_of_length hlen
  rw [← heq] at hx
  exact hq (List.mem_takeWhile_imp hx)

lemma Wrote.nil {status : Status} (hok : ¬ efiError status = true) :
    Wrote m reliable [] status [] :=
  ⟨List.prefix_rfl, fun _ => ⟨rfl, by simp⟩, fun _ => rfl, fun _ herr => absurd herr hok⟩

/-- Requests behind ones that came to an error are not made. -/
lemma Wrote.append_error {rs rs' : List (ℕ × ℕ)} {status : Status} {l : List Event}
    (h : Wrote m reliable rs status l) (herr : efiError status = true) :
    Wrote m reliable (rs ++ rs') status l where
  sound := by
    refine h.sound.trans ?_
    rw [List.takeWhile_append]
    split_ifs with hlen
    · rw [(List.takeWhile_prefix (admitted m)).eq_of_length hlen]
      exact List.prefix_append _ _
    · exact List.prefix_rfl
  complete hok := absurd herr hok
  full hrel := by rw [takeWhile_append_of_stop (h.stopped hrel herr), h.full hrel]
  stopped hrel _ := by
    obtain ⟨r, hr, hno⟩ := h.stopped hrel herr
    exact ⟨r, List.mem_append_left rs' hr, hno⟩

lemma Wrote.append {rs rs' : List (ℕ × ℕ)} {status status' : Status} {l l' : List Event}
    (h : Wrote m reliable rs status l) (hok : ¬ efiError status = true)
    (h' : Wrote m reliable rs' status' l') :
    Wrote m reliable (rs ++ rs') status' (l ++ l') := by
  obtain ⟨heq, hall⟩ := h.complete hok
  have htake : (rs ++ rs').takeWhile (admitted m) = rs ++ rs'.takeWhile (admitted m) :=
    List.takeWhile_append_of_pos hall
  refine ⟨?_, fun hok' => ?_, fun hrel => ?_, fun hrel herr => ?_⟩
  · rw [htake, writes_append, heq]
    exact (List.prefix_append_right_inj rs).mpr h'.sound
  · obtain ⟨heq', hall'⟩ := h'.complete hok'
    rw [writes_append, heq, heq']
    exact ⟨rfl, fun r hr => (List.mem_append.mp hr).elim (hall r) (hall' r)⟩
  · rw [htake, writes_append, heq, h'.full hrel]
  · obtain ⟨r, hr, hno⟩ := h'.stopped hrel herr
    exact ⟨r, List.mem_append_right rs hr, hno⟩

/-- Every write the disk is asked for succeeds. -/
def Reliable (d : Opened ε m) : Prop :=
  ∀ env mem off data, efiError (d.services.writeDisk env d.handle mem off data).1 = false

variable (d : Opened ε m)

lemma writePartition_wrote (off : ℕ) (data : List UInt8) (s : St ε) :
    ∃ l, (writePartition d.services d.name off data s).2.trace = s.trace ++ l ∧
      Wrote m (Reliable d) [(off, data.length)]
        (writePartition d.services d.name off data s).1 l := by
  by_cases h : admitted m (off, data.length) = true
  · obtain ⟨⟨l, ht, hl⟩, hstatus⟩ := writePartition_issued d s h
    have htake : [(off, data.length)].takeWhile (admitted m) = [(off, data.length)] := by
      rw [List.takeWhile_cons_of_pos h, List.takeWhile_nil]
    refine ⟨l, ht, ?_, fun _ => ⟨hl, by simpa using h⟩, fun _ => hl.trans htake.symm,
      fun hrel herr => ?_⟩
    · rw [hl, htake]
    · rw [hstatus (hrel _ _ _ _)] at herr
      cases herr
  · have h' : admitted m (off, data.length) = false := by simpa using h
    have htake : [(off, data.length)].takeWhile (admitted m) = [] :=
      List.takeWhile_cons_of_neg h
    rw [writePartition_refused d s h']
    refine ⟨[], by simp, ?_, fun hok => absurd rfl hok, fun _ => htake.symm,
      fun _ _ => ⟨_, List.mem_cons_self, h⟩⟩
    rw [htake]
    exact List.prefix_rfl

lemma fillLoop_wrote (img : ℕ → UInt8) (k left : ℕ) (w : Walk ε)
    (hok : ¬ efiError w.status = true) (hoff : w.offset < 2 ^ 64) :
    ∃ l, (fillLoop d.services d.name img k left w).s.trace = w.s.trace ++ l ∧
      Wrote m (Reliable d) (fillRequests w.offset left)
        (fillLoop d.services d.name img k left w).status l ∧
      (¬ efiError (fillLoop d.services d.name img k left w).status = true →
        (fillLoop d.services d.name img k left w).offset = u64 (w.offset + left)) := by
  induction left using Nat.strongRecOn generalizing w with
  | ind left ih =>
    rw [fillLoop, fillRequests]
    by_cases h : 0 < left
    · rw [if_pos h, if_pos h]
      have hle := fillCount_le left
      obtain ⟨l₁, ht₁, hw₁⟩ : ∃ l, (fillPiece d.services d.name img k left w).s.trace =
          w.s.trace ++ l ∧ Wrote m (Reliable d) [(w.offset, fillCount left)]
            (fillPiece d.services d.name img k left w).status l := by
        obtain ⟨l, ht, hw⟩ := writePartition_wrote d w.offset
          (slice (setMem32 w.fillBuf (fillCount left) (slice img w.image 4)) 0 (fillCount left))
          (w.s.note (.payload k w.image 4))
        rw [slice_length] at hw
        refine ⟨.payload k w.image 4 :: l, ?_, hw.sound, hw.complete, hw.full, hw.stopped⟩
        exact ht.trans (by simp [St.note])
      dsimp only
      split_ifs with herr
      · exact ⟨l₁, ht₁, hw₁.append_error herr, fun hok' => absurd herr hok'⟩
      · obtain ⟨l₂, ht₂, hw₂, ho₂⟩ := ih _ (Nat.sub_lt h (fillCount_pos h))
          { fillPiece d.services d.name img k left w with
            offset := u64 ((fillPiece d.services d.name img k left w).offset + fillCount left) }
          herr (Nat.mod_lt _ (by norm_num))
        refine ⟨l₁ ++ l₂, by rw [ht₂, ← List.append_assoc, ← ht₁], hw₁.append herr hw₂,
          fun hok' => ?_⟩
        rw [ho₂ hok']
        have hsame : (fillPiece d.services d.name img k left w).offset = w.offset := rfl
        simp only [hsame, u64]
        omega
    · rw [if_neg h, if_neg h]
      refine ⟨[], by simp, .nil hok, fun _ => ?_⟩
      rw [u64_of_lt (by omega)]
      omega

lemma flashChunk_wrote (img : ℕ → UInt8) (k : ℕ) (w : Walk ε) (hok : ¬ efiError w.status = true)
    (hoff : w.offset < 2 ^ 64) :
    ∃ l, (flashChunk d.services d.name img k w).s.trace = w.s.trace ++ l ∧
      Wrote m (Reliable d) (chunkRequests img w.image w.offset)
        (flashChunk d.services d.name img k w).status l ∧
      (¬ efiError (flashChunk d.services d.name img k w).status = true →
        (flashChunk d.services d.name img k w).offset = nextOffset img w.image w.offset) := by
  set len := (chunkHeaderAt img w.image).chunkSize * (sparseHeader img).blockSize with hlen
  unfold flashChunk chunkRequests nextOffset
  by_cases hraw : (chunkHeaderAt img w.image).chunkType = CHUNK_TYPE_RAW
  · simp only [hraw, if_true, true_or, ← hlen]
    obtain ⟨l, ht, hw⟩ := writePartition_wrote d w.offset
      (slice img (w.image + chunkHeaderLen) (u32 len))
      ((w.s.note (.chunkHeader k w.image)).note
        (.payload k (w.image + chunkHeaderLen) (u32 len)))
    rw [slice_length] at hw
    have hw' : Wrote m (Reliable d) [(w.offset, u32 len)] _
        (.chunkHeader k w.image :: .payload k (w.image + chunkHeaderLen) (u32 len) :: l) :=
      ⟨hw.sound, hw.complete, hw.full, hw.stopped⟩
    have ht' := ht.trans (show _ = w.s.trace ++
      .chunkHeader k w.image :: .payload k (w.image + chunkHeaderLen) (u32 len) :: l by
        simp [St.note])
    split_ifs with herr
    · exact ⟨_, ht', hw', fun hno => absurd herr hno⟩
    · exact ⟨_, ht', hw', fun _ => rfl⟩
  by_cases hfill : (chunkHeaderAt img w.image).chunkType = CHUNK_TYPE_FILL
  · simp only [hfill, fill_ne_raw, if_false, if_true, true_or, or_true, ← hlen]
    obtain ⟨l, ht, hw, ho⟩ := fillLoop_wrote d img k len
      { w with s := w.s.note (.chunkHeader k w.image), image := w.image + chunkHeaderLen }
      hok hoff
    have hw' : Wrote m (Reliable d) (fillRequests w.offset len) _ (.chunkHeader k w.image :: l) :=
      ⟨hw.sound, hw.complete, hw.full, hw.stopped⟩
    have ht' := ht.trans (show _ = w.s.trace ++ .chunkHeader k w.image :: l by simp [St.note])
    split_ifs with herr
    · exact ⟨_, ht', hw', fun hno => absurd herr hno⟩
    · exact ⟨_, ht', hw', fun _ => ho herr⟩
  · simp only [hraw, hfill, if_false, false_or, ← hlen]
    refine ⟨[.chunkHeader k w.image], ?_, ?_, fun _ => ?_⟩
    · split_ifs <;> rfl
    · have hnil : Wrote m (Reliable d) [] w.status [.chunkHeader k w.image] :=
        ⟨List.prefix_rfl, fun _ => ⟨rfl, by simp⟩, fun _ => rfl, fun _ herr => absurd herr hok⟩
      split_ifs <;> exact hnil
    · split_ifs <;> rfl

lemma nextOffset_lt (img : ℕ → UInt8) (pos : ℕ) {off : ℕ} (h : off < 2 ^ 64) :
    nextOffset img pos off < 2 ^ 64 := by
  unfold nextOffset
  dsimp only
  split_ifs
  · exact Nat.mod_lt _ (by norm_num)
  · exact h

/-- A walk over the chunks makes their requests. -/
lemma chunkLoop_wrote (img : ℕ → UInt8) (n k : ℕ) (w : Walk ε) (hok : ¬ efiError w.status = true)
    (hoff : w.offset < 2 ^ 64) :
    ∃ l, (chunkLoop d.services d.name img n k w).s.trace = w.s.trace ++ l ∧
      Wrote m (Reliable d) (requests img n w.image w.offset)
        (chunkLoop d.services d.name img n k w).status l := by
  induction n generalizing k w with
  | zero => exact ⟨[], by simp [chunkLoop], .nil hok⟩
  | succ n ih =>
    obtain ⟨l₁, ht₁, hw₁, ho₁⟩ := flashChunk_wrote d img k w hok hoff
    obtain ⟨-, -, -, -, himage⟩ := flashChunk_events d.services d.name img k w
    rw [chunkLoop, requests]
    split_ifs with herr
    · exact ⟨l₁, ht₁, hw₁.append_error herr⟩
    · have hlt := nextOffset_lt img w.image hoff
      rw [← ho₁ herr] at hlt
      obtain ⟨l₂, ht₂, hw₂⟩ := ih (k + 1) (flashChunk d.services d.name img k w) herr hlt
      rw [himage herr, ho₁ herr] at hw₂
      exact ⟨l₁ ++ l₂, by rw [ht₂, ht₁, List.append_assoc], hw₁.append herr hw₂⟩

end Walk

/-! ### When every access is inside -/

/-- The disk of `roomy` with another medium: every write succeeds. -/
def diskOf (m : Media) : Services Unit := { roomy with media := fun _ => m }

def openedDisk (m : Media) : Opened Unit m := ⟨diskOf m, [], 0, rfl, rfl⟩

/-- The request fits behind its offset, or it is longer than the partition altogether. -/
def Fits (m : Media) (r : ℕ × ℕ) : Prop := Inside m r ∨ bytes m % 2 ^ 64 < r.2

lemma fits_iff {m : Media} {r : ℕ × ℕ} : Fits m r ↔ (admitted m r = true → Inside m r) := by
  rw [Fits, admitted, decide_eq_true_eq]
  constructor
  · rintro (hin | hlong) hadm
    · exact hin
    · omega
  · intro h
    by_cases hlong : bytes m % 2 ^ 64 < r.2
    · exact Or.inr hlong
    · exact Or.inl (h (by omega))

/-- An access that is issued when it is admitted and refused when it is not. -/
lemma contained_iff {m : Media} {r : ℕ × ℕ} {status : Status} {issued : List (ℕ × ℕ)}
    (hadm : admitted m r = true → issued = [r])
    (href : admitted m r = false → status = EFI_VOLUME_FULL ∧ issued = []) :
    Contained m r status issued ↔ Fits m r := by
  rw [fits_iff]
  constructor
  · rintro ⟨hin, -⟩ h
    rw [hadm h] at hin
    exact hin r List.mem_cons_self
  · intro h
    cases ha : admitted m r with
    | true =>
      rw [hadm ha]
      exact ⟨fun x hx => List.mem_singleton.mp hx ▸ h ha, fun hout => absurd (h ha) hout⟩
    | false =>
      obtain ⟨hstatus, hnone⟩ := href ha
      rw [hnone]
      exact ⟨by simp, fun _ => ⟨hstatus, rfl⟩⟩

lemma writePartition_contained_iff {ε : Type} {m : Media} (d : Opened ε m) (off : ℕ)
    (data : List UInt8) (s : St ε) :
    (∃ l, (writePartition d.services d.name off data s).2.trace = s.trace ++ l ∧
      Contained m (off, data.length) (writePartition d.services d.name off data s).1 (writes l)) ↔
      Fits m (off, data.length) := by
  obtain ⟨l, ht, hl, href⟩ : ∃ l,
      (writePartition d.services d.name off data s).2.trace = s.trace ++ l ∧
      (admitted m (off, data.length) = true → writes l = [(off, data.length)]) ∧
      (admitted m (off, data.length) = false →
        (writePartition d.services d.name off data s).1 = EFI_VOLUME_FULL ∧ writes l = []) := by
    cases ha : admitted m (off, data.length) with
    | true =>
      obtain ⟨⟨l, ht, hl⟩, -⟩ := writePartition_issued d s ha
      exact ⟨l, ht, fun _ => hl, nofun⟩
    | false =>
      rw [writePartition_refused d s ha]
      exact ⟨[], by simp, nofun, fun _ => ⟨rfl, rfl⟩⟩
  rw [← contained_iff hl href]
  constructor
  · rintro ⟨l', ht', hc⟩
    rwa [List.append_cancel_left (ht.symm.trans ht')]
  · exact fun hc => ⟨l, ht, hc⟩

lemma readPartition_contained_iff {ε : Type} {m : Media} (d : Opened ε m)
    (readDisk : Handle → ℕ → ℕ → Status × List UInt8) (off len : ℕ) :
    Contained m (off, len) (readPartition d.services readDisk d.name off len).status
      (readPartition d.services readDisk d.name off len).issued.toList ↔ Fits m (off, len) := by
  have hsize : (d.services.media d.handle).partitionSize < len ↔
      admitted m (off, len) = false := by
    rw [d.media, partitionSize_eq]
    simp [admitted]
  refine contained_iff (fun ha => ?_) fun ha => ?_
  · unfold readPartition
    rw [d.opens]
    dsimp only
    rw [if_neg (by rw [hsize, ha]; simp)]
    rfl
  · unfold readPartition
    rw [d.opens]
    dsimp only
    rw [if_pos (hsize.mpr ha)]
    exact ⟨rfl, rfl⟩

/-- **Accesses to a partition.** A request stays inside the partition, or is refused, exactly if
it fits or is longer than the whole partition; the writes of a sparse image stay inside on every
disk exactly if its requests up to the first refused one do. -/
theorem partition_access_iff (m : Media) :
    (∀ (ε : Type) (d : Opened ε m) (off : ℕ) (data : List UInt8) (s : St ε),
      (∃ l, (writePartition d.services d.name off data s).2.trace = s.trace ++ l ∧
        Contained m (off, data.length) (writePartition d.services d.name off data s).1
          (writes l)) ↔ Fits m (off, data.length)) ∧
    (∀ (ε : Type) (d : Opened ε m) (readDisk : Handle → ℕ → ℕ → Status × List UInt8)
      (off len : ℕ),
      Contained m (off, len) (readPartition d.services readDisk d.name off len).status
        (readPartition d.services readDisk d.name off len).issued.toList ↔ Fits m (off, len)) ∧
    ∀ img : ℕ → UInt8,
      (∀ (ε : Type) (d : Opened ε m) (heap : ℕ → UInt8) (s : St ε),
        ∃ l, (flashSparseImage d.services heap d.name img s).2.trace = s.trace ++ l ∧
          ∀ x ∈ writes l, Inside m x) ↔ ∀ r ∈ admittedRequests m img, Inside m r := by
  refine ⟨fun ε d off data s => writePartition_contained_iff d off data s,
    fun ε d readDisk off len => readPartition_contained_iff d readDisk off len,
    fun img => ⟨fun hall => ?_, fun hfit ε d heap s => ?_⟩⟩
  · obtain ⟨l, ht, hin⟩ := hall Unit (openedDisk m) (fun _ => 0) ⟨(), fun _ _ => 0, []⟩
    obtain ⟨l', ht', hw⟩ := chunkLoop_wrote (openedDisk m) img (sparseHeader img).totalChunks 0
      ⟨EFI_SUCCESS, (sparseHeader img).fileHeaderSize, 0, fun _ => 0, ⟨(), fun _ _ => 0, []⟩⟩
      (by simp) (by norm_num)
    obtain rfl : l = l' := List.append_cancel_left (ht.symm.trans ht')
    -- on a disk where every write succeeds all admitted requests are made
    have hfull := hw.full fun _ _ _ _ => rfl
    rwa [hfull] at hin
  · unfold flashSparseImage
    dsimp only
    split_ifs
    · exact ⟨[], by simp, by simp [writes]⟩
    · obtain ⟨l, ht, hw⟩ := chunkLoop_wrote d img (sparseHeader img).totalChunks 0
        ⟨EFI_SUCCESS, (sparseHeader img).fileHeaderSize, 0, heap,
          { s with env := (d.services.allocatePool s.env FILL_BUF_SIZE).2 }⟩
        (by simp) (by norm_num)
      exact ⟨l, ht, fun x hx => hfit x (hw.sound.subset hx)⟩

/-- Four-byte blocks: a DONT_CARE chunk of 128 blocks, and a RAW chunk of one. -/
def driftImage (i : ℕ) : UInt8 :=
  ([0x3A, 0xFF, 0x26, 0xED, 1, 0, 0, 0, 28, 0, 12, 0, 4, 0, 0, 0, 129, 0, 0, 0, 2, 0, 0, 0,
    0, 0, 0, 0,
    0xC3, 0xCA, 0, 0, 128, 0, 0, 0, 12, 0, 0, 0,
    0xC1, 0xCA, 0, 0, 1, 0, 0, 0, 16, 0, 0, 0, 7, 8, 9, 10] : List UInt8).getD i 0

/-- In a partition of one block of 512 bytes the RAW chunk is written behind the last byte. -/
theorem flashSparseImage_outside :
    (flashSparseImage (diskOf ⟨0, 0, 512⟩) (fun _ => 0) [] driftImage
        ⟨(), fun _ _ => 0, []⟩).1 = EFI_SUCCESS ∧
      Event.writeDisk 0 512 [7, 8, 9, 10] ∈ (flashSparseImage (diskOf ⟨0, 0, 512⟩) (fun _ => 0) []
        driftImage ⟨(), fun _ _ => 0, []⟩).2.trace ∧
      bytes ⟨0, 0, 512⟩ = 512 ∧ ¬ Inside ⟨0, 0, 512⟩ (512, 4) := by
  have htrace : (flashSparseImage (diskOf ⟨0, 0, 512⟩) (fun _ => 0) [] driftImage
      ⟨(), fun _ _ => 0, []⟩).2.trace = [.chunkHeader 0 28, .chunkHeader 1 40, .payload 1 52 4,
        .writeDisk 0 512 [7, 8, 9, 10], .flushBlocks 0] := rfl
  refine ⟨rfl, ?_, rfl, by norm_num [Inside, bytes]⟩
  rw [htrace]
  simp

end UefiToolkit.PartitionBounds
