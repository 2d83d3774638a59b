import UefiToolkit.SparseFill

/-!
What a successful flash of a sparse image has written.

The status is that of the last write: a chunk of a type that is not known leaves it alone, a RAW
chunk is written with a length that has lost its upper bits, and a fill ends with what is in the
buffer.
-/

namespace UefiToolkit.SparseApplied

open UefiToolkit.Word UefiToolkit.Mem UefiToolkit.Bytes UefiToolkit.SparseModel
open UefiToolkit.SparseImage UefiToolkit.SparseFill

variable {ε : Type} {img : ℕ → UInt8}

/-! ### Chunks and what is written for them -/

/-- A type that the walk has a case for. -/
def Supported (type : ℕ) : Prop :=
  type = CHUNK_TYPE_RAW ∨ type = CHUNK_TYPE_FILL ∨ type = CHUNK_TYPE_DONT_CARE

/-- The place of the `j`-th chunk header that the walk over the image reads. -/
def chunkPlace (img : ℕ → UInt8) (j : ℕ) : ℕ := walkPos img (sparseHeader img).fileHeaderSize j

def chunkType (img : ℕ → UInt8) (j : ℕ) : ℕ := (chunkHeaderAt img (chunkPlace img j)).chunkType

/-- `ChunkSize * BlockSize` for the chunk `j`. -/
def chunkBytes (img : ℕ → UInt8) (j : ℕ) : ℕ :=
  (chunkHeaderAt img (chunkPlace img j)).chunkSize * (sparseHeader img).blockSize

/-- Where on the partition the chunk `j` belongs. -/
def chunkOffset (img : ℕ → UInt8) (j : ℕ) : ℕ := ∑ i ∈ Finset.range j, chunkBytes img i

/-- The value of the FILL chunk `j`, over and over. -/
def chunkValue (img : ℕ → UInt8) (j : ℕ) : ℕ → UInt8 :=
  repeated img (chunkPlace img j + chunkHeaderLen)

/-- The bytes that are to be written for the chunk `j`. -/
def chunkData (img : ℕ → UInt8) (j : ℕ) : List UInt8 :=
  if chunkType img j = CHUNK_TYPE_RAW then
    slice img (chunkPlace img j + chunkHeaderLen) (chunkBytes img j)
  else if chunkType img j = CHUNK_TYPE_FILL then slice (chunkValue img j) 0 (chunkBytes img j)
  else []

/-- The events of chunk `j`, if it is applied: the header is read, and all the bytes of the chunk
are written where they belong, to the partition and to nothing else. -/
structure ChunkApplied (img : ℕ → UInt8) (target : Option Handle) (j : ℕ) (l : List Event) :
    Prop where
  supported : Supported (chunkType img j)
  header : ∃ rest, l = .chunkHeader j (chunkPlace img j) :: rest ∧
    ∀ k' pos', .chunkHeader k' pos' ∉ rest
  data : Lays target (chunkOffset img j) (writes l) (chunkData img j)

/-- The events of a walk, chunk by chunk, if all of the chunks are applied. -/
def Applied (img : ℕ → UInt8) (target : Option Handle) (l : List Event) : Prop :=
  ∃ ls : List (List Event), l = ls.flatten ∧ ls.length = (sparseHeader img).totalChunks ∧
    ∀ (j : ℕ) (piece : List Event), ls[j]? = some piece → ChunkApplied img target j piece

/-! ### Images that are applied -/

/-- The cell `i` of the fill buffer at the `j`-th chunk; nothing where no chunk before has filled
it. -/
def staleByte (img : ℕ → UInt8) (i : ℕ) : ℕ → Option UInt8
  | 0 => none
  | j + 1 =>
    if chunkType img j = CHUNK_TYPE_FILL ∧ i < chunkBytes img j / 4 * 4 then
      some (chunkValue img j i)
    else staleByte img i j

/-- A fill that ends right: no piece has an offset that is wrapped, and behind its last whole word
the buffer holds the value already, from this chunk or from one before it. -/
structure FillWritable (img : ℕ → UInt8) (j : ℕ) : Prop where
  offset : 0 < chunkBytes img j →
    chunkOffset img j + (chunkBytes img j - 1) / FILL_BUF_SIZE * FILL_BUF_SIZE < 2 ^ 64
  rest : FILL_BUF_SIZE < chunkBytes img j ∨ ∀ i, chunkBytes img j / 4 * 4 ≤ i →
    i < chunkBytes img j → staleByte img i j = some (chunkValue img j i)

/-- Every chunk that the walk comes to is of a known type, the length of a RAW one fits in 32 bits
and its offset is not wrapped, and a FILL one ends right. -/
structure ChunkWritable (img : ℕ → UInt8) (j : ℕ) : Prop where
  supported : Supported (chunkType img j)
  raw : chunkType img j = CHUNK_TYPE_RAW →
    chunkBytes img j < 2 ^ 32 ∧ (0 < chunkBytes img j → chunkOffset img j < 2 ^ 64)
  fill : chunkType img j = CHUNK_TYPE_FILL → FillWritable img j

def Writable (img : ℕ → UInt8) : Prop :=
  ∀ j < (sparseHeader img).totalChunks, ChunkWritable img j

/-! ### What the walk writes -/

/-- The fill buffer at the `j`-th chunk, with what it was allocated with. -/
def bufferAt (img heap : ℕ → UInt8) (j : ℕ) : ℕ → UInt8 := fun i =>
  (staleByte img i j).getD (heap i)

/-- What it takes for the chunk `j` to be written right, with the fill buffer as it is then. -/
structure ChunkSuits (img heap : ℕ → UInt8) (j : ℕ) : Prop where
  raw : chunkType img j = CHUNK_TYPE_RAW →
    chunkBytes img j < 2 ^ 32 ∧ (0 < chunkBytes img j → chunkOffset img j < 2 ^ 64)
  fill : chunkType img j = CHUNK_TYPE_FILL →
    FillSuits (chunkOffset img j) (chunkBytes img j) (bufferAt img heap j) (chunkValue img j)

/-- The walk before the chunk `j`. -/
structure Ready (img heap : ℕ → UInt8) (j : ℕ) (w : Walk ε) : Prop where
  status : w.status = EFI_SUCCESS
  image : w.image = chunkPlace img j
  offset : w.offset = u64 (chunkOffset img j)
  fillBuf : ∀ i < FILL_BUF_SIZE, w.fillBuf i = bufferAt img heap j i

/-- The events of chunk `j` as the walk makes them. -/
structure ChunkWalked (img heap : ℕ → UInt8) (target : Option Handle) (j : ℕ) (l : List Event) :
    Prop where
  header : ∃ rest, l = .chunkHeader j (chunkPlace img j) :: rest ∧
    ∀ k' pos', .chunkHeader k' pos' ∉ rest
  data : Lays target (chunkOffset img j) (writes l) (chunkData img j) ↔ ChunkSuits img heap j

lemma chunkOffset_succ (img : ℕ → UInt8) (j : ℕ) :
    chunkOffset img (j + 1) = chunkOffset img j + chunkBytes img j := Finset.sum_range_succ _ _

lemma fillSuits_congr {off left : ℕ} {buf buf' value : ℕ → UInt8}
    (h : ∀ i < FILL_BUF_SIZE, buf i = buf' i) :
    FillSuits off left buf value ↔ FillSuits off left buf' value := by
  unfold FillSuits
  refine and_congr_right' ?_
  by_cases hmore : FILL_BUF_SIZE < left
  · exact iff_of_true (Or.inl hmore) (Or.inl hmore)
  · refine or_congr_right (forall_congr' fun i => imp_congr_right fun _ =>
      forall_congr' fun hi => ?_)
    rw [h i (by omega)]

lemma bufferAt_succ (img heap : ℕ → UInt8) (j i : ℕ) :
    bufferAt img heap (j + 1) i =
      if chunkType img j = CHUNK_TYPE_FILL ∧ i < chunkBytes img j / 4 * 4 then chunkValue img j i
      else bufferAt img heap j i := by
  unfold bufferAt
  rw [staleByte]
  split_ifs <;> rfl

/-- What a chunk leaves behind for the next one, and what was written for it. -/
structure Wrote (img heap : ℕ → UInt8) (target : Option Handle) (j : ℕ) (w w' : Walk ε) :
    Prop where
  status : w'.status = EFI_SUCCESS
  offset : w'.offset = u64 (chunkOffset img (j + 1))
  fillBuf : ∀ i < FILL_BUF_SIZE, w'.fillBuf i = bufferAt img heap (j + 1) i
  writes : ∃ xs, writes w'.s.trace = writes w.s.trace ++ xs ∧
    (Lays target (chunkOffset img j) xs (chunkData img j) ↔ ChunkSuits img heap j)

lemma Ready.type {w : Walk ε} {heap : ℕ → UInt8} {j : ℕ} (hw : Ready img heap j w) :
    (chunkHeaderAt img w.image).chunkType = chunkType img j := by rw [hw.image, chunkType]

lemma Ready.bytes {w : Walk ε} {heap : ℕ → UInt8} {j : ℕ} (hw : Ready img heap j w) :
    (chunkHeaderAt img w.image).chunkSize * (sparseHeader img).blockSize = chunkBytes img j := by
  rw [hw.image, chunkBytes]

lemma u64_offset {w : Walk ε} {heap : ℕ → UInt8} {j : ℕ} (hw : Ready img heap j w) :
    u64 (w.offset + chunkBytes img j) = u64 (chunkOffset img (j + 1)) := by
  rw [hw.offset, chunkOffset_succ]
  exact Nat.mod_add_mod _ _ _

/-- A RAW chunk. -/
lemma lays_raw {target : Option Handle} {h : Handle} {heap : ℕ → UInt8} {j : ℕ}
    (htarget : target = some h) (hraw : chunkType img j = CHUNK_TYPE_RAW) :
    Lays target (chunkOffset img j) [⟨h, u64 (chunkOffset img j),
        slice img (chunkPlace img j + chunkHeaderLen) (u32 (chunkBytes img j))⟩]
        (chunkData img j) ↔ ChunkSuits img heap j := by
  rw [lays_singleton htarget, chunkData, if_pos hraw]
  dsimp only
  constructor
  · rintro ⟨hoff, hdata⟩
    have hlen := congrArg List.length hdata
    rw [slice_length, slice_length] at hlen
    refine ⟨fun _ => ⟨hlen ▸ Nat.mod_lt _ (by decide), fun hpos => ?_⟩, fun hfill => ?_⟩
    · have hne : slice img (chunkPlace img j + chunkHeaderLen) (u32 (chunkBytes img j)) ≠ [] := by
        rw [← List.length_pos_iff, slice_length, hlen]
        exact hpos
      exact hoff hne ▸ Nat.mod_lt _ (by decide)
    · exact absurd (hfill.symm.trans hraw) fill_ne_raw
  · intro hs
    obtain ⟨hlt, hoff⟩ := hs.raw hraw
    rw [u32_of_lt hlt]
    refine ⟨fun hne => u64_of_lt (hoff ?_), rfl⟩
    rwa [← List.length_pos_iff, slice_length] at hne

lemma flashChunk_raw (e : Services ε) (name : List UInt8) {heap : ℕ → UInt8} {j : ℕ}
    {w : Walk ε} (hw : Ready img heap j w) (hraw : chunkType img j = CHUNK_TYPE_RAW) :
    efiError (flashChunk e name img j w).status = true ∨
      Wrote img heap (openPartition e name).2 j w (flashChunk e name img j w) := by
  unfold flashChunk
  dsimp only
  rw [if_pos (hw.type.trans hraw), hw.bytes]
  rcases writePartition_writes e name w.offset (slice img (w.image + chunkHeaderLen)
    (u32 (chunkBytes img j))) ((w.s.note (.chunkHeader j w.image)).note (.payload j
      (w.image + chunkHeaderLen) (u32 (chunkBytes img j)))) with herr | ⟨hst, h, htarget, hwrites⟩
  · rw [if_pos herr]
    exact Or.inl herr
  · rw [if_neg (hst ▸ not_efiError_success)]
    rw [writes_note _ rfl, writes_note _ rfl] at hwrites
    refine Or.inr ⟨hst, u64_offset hw, fun i hi => ?_, _, hwrites, ?_⟩
    · rw [bufferAt_succ, if_neg fun hfill => fill_ne_raw (hfill.1.symm.trans hraw)]
      exact hw.fillBuf i hi
    · rw [hw.image, hw.offset]
      exact lays_raw htarget hraw

lemma flashChunk_fill (e : Services ε) (name : List UInt8) {heap : ℕ → UInt8} {j : ℕ}
    {w : Walk ε} (hw : Ready img heap j w) (hfill : chunkType img j = CHUNK_TYPE_FILL) :
    efiError (flashChunk e name img j w).status = true ∨
      Wrote img heap (openPartition e name).2 j w (flashChunk e name img j w) := by
  have htype := hw.type.trans hfill
  have hnotraw : ¬ chunkType img j = CHUNK_TYPE_RAW := fun hraw =>
    fill_ne_raw (hfill.symm.trans hraw)
  unfold flashChunk
  dsimp only
  rw [if_neg (htype ▸ fill_ne_raw), if_pos htype, hw.bytes]
  rcases fillLoop_filled img e name j (chunkOffset img j) (chunkBytes img j)
    (w := { w with s := w.s.note (.chunkHeader j w.image), image := w.image + chunkHeaderLen })
    hw.status hw.offset with herr | hdone
  · rw [if_pos herr]
    exact Or.inl herr
  · rw [if_neg (hdone.status ▸ not_efiError_success)]
    obtain ⟨xs, hwrites, hlays⟩ := hdone.writes
    dsimp only at hwrites hlays
    rw [writes_note _ rfl] at hwrites
    rw [hw.image] at hlays
    refine Or.inr ⟨hdone.status, ?_, fun i hi => ?_, xs, hwrites, ?_⟩
    · rw [chunkOffset_succ]
      exact hdone.offset
    · rw [bufferAt_succ]
      dsimp only
      rw [hdone.fillBuf i hi]
      dsimp only
      rw [hw.image, hw.fillBuf i hi]
      simp [hfill, chunkValue]
    · rw [chunkData, if_neg hnotraw, if_pos hfill]
      refine hlays.trans ((fillSuits_congr hw.fillBuf).trans ⟨fun hs => ?_, fun hs => ?_⟩)
      · exact ⟨fun hraw => absurd hraw hnotraw, fun _ => hs⟩
      · exact hs.fill hfill

lemma flashChunk_dontCare (e : Services ε) (name : List UInt8) {heap : ℕ → UInt8} {j : ℕ}
    {w : Walk ε} (hw : Ready img heap j w) (hdont : chunkType img j = CHUNK_TYPE_DONT_CARE) :
    Wrote img heap (openPartition e name).2 j w (flashChunk e name img j w) := by
  have htype := hw.type.trans hdont
  have hnotraw : ¬ chunkType img j = CHUNK_TYPE_RAW := fun hraw =>
    dontCare_ne_raw (hdont.symm.trans hraw)
  have hnotfill : ¬ chunkType img j = CHUNK_TYPE_FILL := fun hfill =>
    dontCare_ne_fill (hdont.symm.trans hfill)
  unfold flashChunk
  dsimp only
  rw [if_neg (htype ▸ dontCare_ne_raw), if_neg (htype ▸ dontCare_ne_fill), if_pos htype, hw.bytes]
  refine ⟨hw.status, u64_offset hw, fun i hi => ?_, [], ?_, ?_⟩
  · rw [bufferAt_succ, if_neg fun hfill => hnotfill hfill.1]
    exact hw.fillBuf i hi
  · rw [writes_note _ rfl, List.append_nil]
  · rw [chunkData, if_neg hnotraw, if_neg hnotfill]
    exact iff_of_true rfl ⟨fun hraw => absurd hraw hnotraw, fun hfill => absurd hfill hnotfill⟩

/-- A chunk of a known type fails, or is walked over. -/
lemma flashChunk_walked (e : Services ε) (name : List UInt8) {heap : ℕ → UInt8} {j : ℕ}
    {w : Walk ε} (hw : Ready img heap j w) (hsupported : Supported (chunkType img j)) :
    ∃ l, (flashChunk e name img j w).s.trace = w.s.trace ++ l ∧
      (efiError (flashChunk e name img j w).status = true ∨
        Ready img heap (j + 1) (flashChunk e name img j w) ∧
        ChunkWalked img heap (openPartition e name).2 j l) := by
  have hwrote : efiError (flashChunk e name img j w).status = true ∨
      Wrote img heap (openPartition e name).2 j w (flashChunk e name img j w) := by
    rcases hsupported with hraw | hfill | hdont
    · exact flashChunk_raw e name hw hraw
    · exact flashChunk_fill e name hw hfill
    · exact Or.inr (flashChunk_dontCare e name hw hdont)
  obtain ⟨l, ht, hp, -, himage⟩ := flashChunk_events e name img j w
  refine ⟨.chunkHeader j w.image :: l, ht, hwrote.imp_right fun hdone => ⟨⟨hdone.status, ?_,
    hdone.offset, hdone.fillBuf⟩, ⟨⟨l, by rw [hw.image], fun k' pos' hmem => ?_⟩, ?_⟩⟩⟩
  · rw [himage (hdone.status ▸ not_efiError_success), hw.image]
    exact (walkPos_succ _ _ _).symm
  · rcases hp _ hmem with hd | heq
    · exact hd
    · injection heq
  · obtain ⟨xs, hxs, hlays⟩ := hdone.writes
    rw [ht, writes_append] at hxs
    rwa [List.append_cancel_left hxs]

/-- The events of a walk over known types come chunk by chunk. -/
lemma chunkLoop_walked (e : Services ε) (name : List UInt8) {heap : ℕ → UInt8} {n j : ℕ}
    {w : Walk ε} (hw : Ready img heap j w)
    (hsupported : ∀ i < n, Supported (chunkType img (j + i))) :
    ∃ ls : List (List Event), (chunkLoop e name img n j w).s.trace = w.s.trace ++ ls.flatten ∧
      (efiError (chunkLoop e name img n j w).status = true ∨ ls.length = n ∧
        ∀ (i : ℕ) (piece : List Event), ls[i]? = some piece →
          ChunkWalked img heap (openPartition e name).2 (j + i) piece) := by
  induction n generalizing j w with
  | zero => exact ⟨[], by simp [chunkLoop], Or.inr ⟨rfl, by simp⟩⟩
  | succ n ih =>
    obtain ⟨l, ht, hcases⟩ := flashChunk_walked e name hw (hsupported 0 (Nat.succ_pos n))
    rw [chunkLoop]
    rcases hcases with herr | ⟨hready, hchunk⟩
    · rw [if_pos herr]
      exact ⟨[l], by simpa using ht, Or.inl herr⟩
    · rw [if_neg (hready.status ▸ not_efiError_success)]
      obtain ⟨ls, hts, hall⟩ := ih hready fun i hi => by
        have hnext := hsupported (i + 1) (by omega)
        rwa [show j + (i + 1) = j + 1 + i by omega] at hnext
      refine ⟨l :: ls, by rw [hts, ht, List.flatten_cons, List.append_assoc], ?_⟩
      refine hall.imp_right fun hrest => ⟨by rw [List.length_cons, hrest.1], ?_⟩
      intro i piece hi
      cases i with
      | zero =>
        obtain rfl : l = piece := Option.some.inj hi
        exact hchunk
      | succ i =>
        have hpiece := hrest.2 i piece hi
        rwa [show j + 1 + i = j + (i + 1) by omega] at hpiece

/-! ### The cut into chunks -/

def Event.isHeader : Event → Bool
  | .chunkHeader _ _ => true
  | _ => false

/-- The events of one chunk. -/
def Headed (l : List Event) : Prop :=
  ∃ k pos rest, l = .chunkHeader k pos :: rest ∧ ∀ k' pos', .chunkHeader k' pos' ∉ rest

/-- Events can be cut into chunks in one way only: before each header. -/
lemma splitBy_headed {ls : List (List Event)} (h : ∀ l ∈ ls, Headed l) :
    ls.flatten.splitBy (fun _ x => !Event.isHeader x) = ls := by
  refine List.splitBy_flatten (fun hnil => ?_) (fun l hl => ?_) ?_
  · obtain ⟨k, pos, rest, hcons, -⟩ := h [] hnil
    cases hcons
  · obtain ⟨k, pos, rest, rfl, hrest⟩ := h l hl
    have hplain : ∀ x ∈ rest, (!Event.isHeader x) = true := by
      intro x hx
      cases x with
      | chunkHeader k' pos' => exact absurd hx (hrest k' pos')
      | payload => rfl
      | writeDisk => rfl
      | flushBlocks => rfl
    refine List.Pairwise.isChain (List.pairwise_cons.mpr ⟨fun x hx => hplain x hx, ?_⟩)
    exact List.pairwise_of_forall_mem_list fun _ _ x hx => hplain x hx
  · refine List.Pairwise.isChain (List.pairwise_of_forall_mem_list fun l hl l' hl' => ?_)
    obtain ⟨k, pos, rest, rfl, -⟩ := h l hl
    obtain ⟨k', pos', rest', rfl, -⟩ := h l' hl'
    exact ⟨List.cons_ne_nil _ _, List.cons_ne_nil _ _, rfl⟩

lemma flatten_inj_of_headed {ls ls' : List (List Event)} (heq : ls.flatten = ls'.flatten)
    (h : ∀ l ∈ ls, Headed l) (h' : ∀ l ∈ ls', Headed l) : ls = ls' := by
  rw [← splitBy_headed h, heq, splitBy_headed h']

/-! ### The program -/

/-- A version-1 sparse image. -/
structure Version1 (img : ℕ → UInt8) : Prop where
  magic : (sparseHeader img).magic = SPARSE_HEADER_MAGIC
  version : (sparseHeader img).majorVersion = 1

lemma flashPartition_version1 (h : Version1 img) (e : Services ε) (heap : ℕ → UInt8)
    (name : List UInt8) (bufferSize : ℕ) (s : St ε) :
    flashPartition e heap name bufferSize (some img) s = flashSparseImage e heap name img s := by
  unfold flashPartition
  dsimp only
  rw [if_pos h.magic, if_neg (not_not.mpr h.version)]

/-- A flash of chunks of known types walks over them, or ends with an error. -/
lemma flashSparseImage_walked (e : Services ε) (heap : ℕ → UInt8) (name : List UInt8)
    (hsupported : ∀ j < (sparseHeader img).totalChunks, Supported (chunkType img j)) (s : St ε) :
    ∃ ls : List (List Event),
      (flashSparseImage e heap name img s).2.trace = s.trace ++ ls.flatten ∧
      (efiError (flashSparseImage e heap name img s).1 = true ∨
        ls.length = (sparseHeader img).totalChunks ∧
        ∀ (j : ℕ) (piece : List Event), ls[j]? = some piece →
          ChunkWalked img heap (openPartition e name).2 j piece) := by
  unfold flashSparseImage
  dsimp only
  split_ifs
  · exact ⟨[], by simp, Or.inl (efiError_maxBit 9)⟩
  · have hready : Ready img heap 0 (⟨EFI_SUCCESS, (sparseHeader img).fileHeaderSize, 0, heap,
        { s with env := (e.allocatePool s.env FILL_BUF_SIZE).2 }⟩ : Walk ε) :=
      ⟨rfl, rfl, rfl, fun _ _ => rfl⟩
    obtain ⟨ls, ht, hall⟩ := chunkLoop_walked e name (n := (sparseHeader img).totalChunks) hready
      fun i hi => by rw [Nat.zero_add]; exact hsupported i hi
    refine ⟨ls, ht, hall.imp_right fun ⟨hlen, hpieces⟩ => ⟨hlen, fun j piece hj => ?_⟩⟩
    have hpiece := hpieces j piece hj
    rwa [Nat.zero_add] at hpiece

lemma Applied.supported {target : Option Handle} {l : List Event} (h : Applied img target l) :
    ∀ j < (sparseHeader img).totalChunks, Supported (chunkType img j) := by
  obtain ⟨ls, -, hlen, happ⟩ := h
  exact fun j hj => (happ j _ (List.getElem?_eq_getElem (hlen.symm ▸ hj))).supported

/-- What is applied suits the walk, chunk by chunk. -/
lemma Applied.suits {heap : ℕ → UInt8} {target : Option Handle} {l : List Event}
    {ls : List (List Event)} (happlied : Applied img target l) (hl : l = ls.flatten)
    (hlen : ls.length = (sparseHeader img).totalChunks)
    (hwalked : ∀ (j : ℕ) (piece : List Event), ls[j]? = some piece →
      ChunkWalked img heap target j piece) :
    ∀ j < (sparseHeader img).totalChunks, ChunkSuits img heap j := by
  obtain ⟨ls', hl', hlen', happ⟩ := happlied
  have hcut : ls = ls' := by
    refine flatten_inj_of_headed (hl.symm.trans hl') (fun piece hp => ?_) fun piece hp => ?_
    · obtain ⟨j, hj⟩ := List.mem_iff_getElem?.mp hp
      obtain ⟨rest, hrest, hnone⟩ := (hwalked j piece hj).header
      exact ⟨_, _, rest, hrest, hnone⟩
    · obtain ⟨j, hj⟩ := List.mem_iff_getElem?.mp hp
      obtain ⟨rest, hrest, hnone⟩ := (happ j piece hj).header
      exact ⟨_, _, rest, hrest, hnone⟩
  intro j hj
  have hpiece := List.getElem?_eq_getElem (hlen.symm ▸ hj)
  exact (hwalked j _ hpiece).data.mp (happ j _ (hcut ▸ hpiece)).data

/-- Whatever is in a fill buffer that was never filled, it can be something else than the value. -/
lemma writable_of_suits (hsupported : ∀ j < (sparseHeader img).totalChunks,
      Supported (chunkType img j))
    (hsuits : ∀ heap, ∀ j < (sparseHeader img).totalChunks, ChunkSuits img heap j) :
    Writable img := by
  refine fun j hj => ⟨hsupported j hj, (hsuits (fun _ => 0) j hj).raw, fun hfill => ?_⟩
  refine ⟨((hsuits (fun _ => 0) j hj).fill hfill).1, ?_⟩
  by_cases hmore : FILL_BUF_SIZE < chunkBytes img j
  · exact Or.inl hmore
  refine Or.inr fun i hle hlt => ?_
  have hcell : ∀ heap, bufferAt img heap j i = chunkValue img j i := fun heap =>
    ((hsuits heap j hj).fill hfill).2.resolve_left hmore i hle hlt
  cases hstale : staleByte img i j with
  | none =>
    have hother := hcell fun _ => chunkValue img j i + 1
    rw [bufferAt, hstale, Option.getD_none] at hother
    exact absurd hother (by simp)
  | some b =>
    have hb := hcell fun _ => 0
    rw [bufferAt, hstale, Option.getD_some] at hb
    rw [hb]

lemma ChunkWritable.suits {j : ℕ} (h : ChunkWritable img j) (heap : ℕ → UInt8) :
    ChunkSuits img heap j := by
  refine ⟨h.raw, fun hfill => ⟨(h.fill hfill).offset, (h.fill hfill).rest.imp_right ?_⟩⟩
  intro hrest i hle hlt
  rw [bufferAt, hrest i hle hlt, Option.getD_some]

/-- **Success of a sparse flash.** Whatever the disk does, a flash of a version-1 image reports
success only with all of its chunks applied exactly if all of them are of a known type, no RAW
chunk has 2^32 bytes or more, no offset is wrapped, and no fill ends with bytes of the buffer that
are not its value. -/
theorem flashPartition_applied_iff (img : ℕ → UInt8) (h : Version1 img) :
    (∀ (ε : Type) (e : Services ε) (heap : ℕ → UInt8) (name : List UInt8) (bufferSize : ℕ)
      (s : St ε),
      ∃ l, (flashPartition e heap name bufferSize (some img) s).2.trace = s.trace ++ l ∧
        ((flashPartition e heap name bufferSize (some img) s).1 = EFI_SUCCESS →
          Applied img (openPartition e name).2 l)) ↔ Writable img := by
  constructor
  · intro hall
    -- on the disk with room the flash succeeds, whatever is in the fill buffer
    have hroomy : ∀ heap, ∃ l, (flashSparseImage roomy heap [] img
        ⟨(), fun _ _ => 0, []⟩).2.trace = [] ++ l ∧ Applied img (openPartition roomy []).2 l := by
      intro heap
      obtain ⟨l, ht, himp⟩ := hall Unit roomy heap [] 0 ⟨(), fun _ _ => 0, []⟩
      rw [flashPartition_version1 h] at ht himp
      exact ⟨l, ht, himp (chunkLoop_roomy _ _ _ rfl)⟩
    obtain ⟨l₀, -, happlied₀⟩ := hroomy fun _ => 0
    refine writable_of_suits happlied₀.supported fun heap => ?_
    obtain ⟨l, ht, happlied⟩ := hroomy heap
    obtain ⟨ls, ht', hcases⟩ := flashSparseImage_walked roomy heap [] happlied.supported
      ⟨(), fun _ _ => 0, []⟩
    have hst : (flashSparseImage roomy heap [] img ⟨(), fun _ _ => 0, []⟩).1 = EFI_SUCCESS :=
      chunkLoop_roomy _ _ _ rfl
    obtain ⟨hlen, hpieces⟩ := hcases.resolve_left (hst ▸ not_efiError_success)
    exact happlied.suits (List.append_cancel_left (ht.symm.trans ht')) hlen hpieces
  · intro hw ε e heap name bufferSize s
    rw [flashPartition_version1 h]
    obtain ⟨ls, ht, hcases⟩ := flashSparseImage_walked e heap name
      (fun j hj => (hw j hj).supported) s
    refine ⟨ls.flatten, ht, fun hst => ?_⟩
    obtain ⟨hlen, hpieces⟩ := hcases.resolve_left fun herr => efiError_ne_success herr hst
    refine ⟨ls, rfl, hlen, fun j piece hj => ?_⟩
    have hwritable := hw j (hlen ▸ (List.getElem?_eq_some_iff.mp hj).1)
    have hwalked := hpieces j piece hj
    exact ⟨hwritable.supported, hwalked.header, hwalked.data.mpr (hwritable.suits heap)⟩

/-- Blocks of four bytes: a RAW chunk of one block, a DONT_CARE and a FILL chunk. -/
def knownImage (i : ℕ) : UInt8 :=
  ([0x3A, 0xFF, 0x26, 0xED, 1, 0, 0, 0, 28, 0, 12, 0, 4, 0, 0, 0, 4, 0, 0, 0, 3, 0, 0, 0,
    0, 0, 0, 0,
    0xC1, 0xCA, 0, 0, 1, 0, 0, 0, 16, 0, 0, 0, 7, 8, 9, 10,
    0xC3, 0xCA, 0, 0, 1, 0, 0, 0, 12, 0, 0, 0,
    0xC2, 0xCA, 0, 0, 2, 0, 0, 0, 16, 0, 0, 0, 5, 0, 0, 0] : List UInt8).getD i 0

theorem flashPartition_applied_iff_known :
    ∃ l, (flashPartition roomy (fun _ => 0) [] 72 (some knownImage) ⟨(), fun _ _ => 0, []⟩).2.trace
        = [] ++ l ∧
      ((flashPartition roomy (fun _ => 0) [] 72 (some knownImage) ⟨(), fun _ _ => 0, []⟩).1 =
        EFI_SUCCESS → Applied knownImage (openPartition roomy []).2 l) := by
  have hw : Writable knownImage := by
    intro j hj
    have hcount : (sparseHeader knownImage).totalChunks = 3 := by decide
    obtain rfl | rfl | rfl : j = 0 ∨ j = 1 ∨ j = 2 := by omega
    · exact ⟨Or.inl (by decide), fun _ => by decide, fun hfill => absurd hfill (by decide)⟩
    · exact ⟨Or.inr (Or.inr (by decide)), fun hraw => absurd hraw (by decide),
        fun hfill => absurd hfill (by decide)⟩
    · refine ⟨Or.inr (Or.inl (by decide)), fun hraw => absurd hraw (by decide),
        fun _ => ⟨fun _ => by decide, Or.inr fun i hle hlt => ?_⟩⟩
      -- two blocks are whole words
      have hbytes : chunkBytes knownImage 2 = 8 := by decide
      omega
  exact (flashPartition_applied_iff knownImage ⟨by decide, by decide⟩).mpr hw Unit roomy
    (fun _ => 0) [] 72 ⟨(), fun _ _ => 0, []⟩

/-- Blocks of four bytes, and one RAW chunk of 2^30 of them. -/
def hugeImage (i : ℕ) : UInt8 :=
  ([0x3A, 0xFF, 0x26, 0xED, 1, 0, 0, 0, 28, 0, 12, 0, 4, 0, 0, 0, 0, 0, 0, 0x40, 1, 0, 0, 0,
    0, 0, 0, 0,
    0xC1, 0xCA, 0, 0, 0, 0, 0, 0x40, 0xFF, 0xFF, 0xFF, 0xFF] : List UInt8).getD i 0

/-- A write of no bytes is asked for, and the flash succeeds. -/
theorem flashPartition_huge_raw :
    flashPartition roomy (fun _ => 0) [] 40 (some hugeImage) ⟨(), fun _ _ => 0, []⟩ =
      (EFI_SUCCESS, ⟨(), Function.update (fun _ _ => 0) 0 (blit (fun _ => 0) 0 []),
        [.chunkHeader 0 28, .payload 0 40 0, .writeDisk 0 0 [], .flushBlocks 0]⟩) ∧
    ¬ Applied hugeImage (some 0)
      [.chunkHeader 0 28, .payload 0 40 0, .writeDisk 0 0 [], .flushBlocks 0] := by
  refine ⟨rfl, ?_⟩
  rintro ⟨ls, hl, hlen, happ⟩
  have hcount : (sparseHeader hugeImage).totalChunks = 1 := by decide
  obtain ⟨piece, rfl⟩ := List.length_eq_one_iff.mp (hlen.trans hcount)
  rw [List.flatten_singleton] at hl
  subst hl
  obtain ⟨-, -, rest, hall, hrest⟩ := (happ 0 _ rfl).data
  obtain rfl : rest = [] := hrest
  -- 2^32 bytes were to be written
  have hraw : chunkType hugeImage 0 = CHUNK_TYPE_RAW := by decide
  have hbytes : chunkBytes hugeImage 0 = 2 ^ 32 := by decide
  rw [chunkData, if_pos hraw] at hall
  have hlength := congrArg List.length hall
  rw [slice_length, hbytes] at hlength
  exact absurd hlength (by decide)

end UefiToolkit.SparseApplied
