import UefiToolkit.SparseModel

/-!
Well-formed sparse images, and where a walk over one reads.

The place of a chunk header is the file header's size plus the total sizes of the chunks
before it. The walk of `FlashSparseImage` keeps a pointer of its own, moved by the length of
the header it knows and by what each kind of chunk takes.
-/

namespace UefiToolkit.SparseImage

open UefiToolkit.Word UefiToolkit.Mem UefiToolkit.Bytes UefiToolkit.SparseModel

/-- What a chunk says. -/
inductive Chunk
  | raw (data : List UInt8)
  | fill (value blocks : ℕ)
  | dontCare (blocks : ℕ)
  | crc32 (value : ℕ)

def Chunk.type : Chunk → ℕ
  | .raw _ => CHUNK_TYPE_RAW
  | .fill _ _ => CHUNK_TYPE_FILL
  | .dontCare _ => CHUNK_TYPE_DONT_CARE
  | .crc32 _ => CHUNK_TYPE_CRC32

/-- The bytes behind the chunk header. -/
def Chunk.payload : Chunk → List UInt8
  | .raw data => data
  | .fill value _ => le32 value
  | .dontCare _ => []
  | .crc32 value => le32 value

/-- The bytes of the partition that the chunk stands for. -/
def Chunk.size (blockSize : ℕ) : Chunk → ℕ
  | .raw data => data.length
  | .fill _ blocks => blocks * blockSize
  | .dontCare blocks => blocks * blockSize
  | .crc32 _ => 0

/-- The image holds the chunk at offset `off`. -/
structure Chunk.At (img : ℕ → UInt8) (off : ℕ) (x : Chunk) : Prop where
  type : (chunkHeaderAt img off).chunkType = x.type
  total : (chunkHeaderAt img off).totalSize = (sparseHeader img).chunkHeaderSize + x.payload.length
  size : x.type ≠ CHUNK_TYPE_CRC32 →
    (chunkHeaderAt img off).chunkSize * (sparseHeader img).blockSize =
      x.size (sparseHeader img).blockSize
  payload : slice img (off + (sparseHeader img).chunkHeaderSize) x.payload.length = x.payload

/-- Where chunk `k` begins: behind the file header and the chunks before it. -/
def chunkPos (img : ℕ → UInt8) : ℕ → ℕ
  | 0 => (sparseHeader img).fileHeaderSize
  | k + 1 => chunkPos img k + (chunkHeaderAt img (chunkPos img k)).totalSize

/-- A well-formed version-1 image of these chunks. -/
structure WellFormed (img : ℕ → UInt8) (xs : List Chunk) : Prop where
  magic : (sparseHeader img).magic = SPARSE_HEADER_MAGIC
  version : (sparseHeader img).majorVersion = 1
  fileHeader : 28 ≤ (sparseHeader img).fileHeaderSize
  chunkHeader : 12 ≤ (sparseHeader img).chunkHeaderSize
  count : (sparseHeader img).totalChunks = xs.length
  chunks : ∀ (k : ℕ) (x : Chunk), xs[k]? = some x → x.At img (chunkPos img k)

/-- How many payload bytes the expansion needs. -/
def Chunk.used (blockSize : ℕ) : Chunk → ℕ
  | .raw data => data.length
  | .fill _ blocks => if 0 < blocks * blockSize then 4 else 0
  | .dontCare _ => 0
  | .crc32 _ => 0

/-- The chunk headers are read where the chunks begin and the payloads `ChunkHeaderSize` bytes
behind them; a walk that ends without an error has read every header, and every payload that
is needed. -/
structure Framed (img : ℕ → UInt8) (xs : List Chunk) (status : Status) (l : List Event) :
    Prop where
  header : ∀ k off, .chunkHeader k off ∈ l → k < xs.length ∧ off = chunkPos img k
  payload : ∀ k off len, .payload k off len ∈ l → 0 < len →
    off = chunkPos img k + (sparseHeader img).chunkHeaderSize
  complete : ¬ efiError status = true → ∀ (k : ℕ) (x : Chunk), xs[k]? = some x →
    .chunkHeader k (chunkPos img k) ∈ l ∧
    (0 < x.used (sparseHeader img).blockSize →
      .payload k (chunkPos img k + (sparseHeader img).chunkHeaderSize)
        (x.used (sparseHeader img).blockSize) ∈ l)

variable {img : ℕ → UInt8} {xs : List Chunk}

lemma WellFormed.chunkPos_succ (h : WellFormed img xs) {k : ℕ} {x : Chunk}
    (hk : xs[k]? = some x) : chunkPos img (k + 1) =
      chunkPos img k + (sparseHeader img).chunkHeaderSize + x.payload.length := by
  rw [chunkPos, (h.chunks k x hk).total, Nat.add_assoc]

/-! ### Where the walk reads -/

/-- How far the walk moves past a chunk header. -/
def advance (img : ℕ → UInt8) (pos : ℕ) : ℕ :=
  if (chunkHeaderAt img pos).chunkType = CHUNK_TYPE_RAW then
    (chunkHeaderAt img pos).chunkSize * (sparseHeader img).blockSize
  else if (chunkHeaderAt img pos).chunkType = CHUNK_TYPE_FILL then 4
  else 0

/-- The image pointer at the `j`-th chunk after the one at `pos`. -/
def walkPos (img : ℕ → UInt8) (pos : ℕ) : ℕ → ℕ
  | 0 => pos
  | j + 1 => walkPos img (pos + chunkHeaderLen + advance img pos) j

lemma walkPos_succ (img : ℕ → UInt8) (pos j : ℕ) : walkPos img pos (j + 1) =
    walkPos img pos j + chunkHeaderLen + advance img (walkPos img pos j) := by
  induction j generalizing pos with
  | zero => rfl
  | succ j ih => rw [walkPos, ih]; rfl

/-- How many bytes behind the header at `pos` the walk uses. -/
def taken (img : ℕ → UInt8) (pos : ℕ) : ℕ :=
  if (chunkHeaderAt img pos).chunkType = CHUNK_TYPE_RAW then
    u32 ((chunkHeaderAt img pos).chunkSize * (sparseHeader img).blockSize)
  else if (chunkHeaderAt img pos).chunkType = CHUNK_TYPE_FILL ∧
      0 < (chunkHeaderAt img pos).chunkSize * (sparseHeader img).blockSize then 4
  else 0

lemma fill_ne_raw : CHUNK_TYPE_FILL ≠ CHUNK_TYPE_RAW := by decide
lemma dontCare_ne_raw : CHUNK_TYPE_DONT_CARE ≠ CHUNK_TYPE_RAW := by decide
lemma dontCare_ne_fill : CHUNK_TYPE_DONT_CARE ≠ CHUNK_TYPE_FILL := by decide
lemma crc32_ne_raw : CHUNK_TYPE_CRC32 ≠ CHUNK_TYPE_RAW := by decide
lemma crc32_ne_fill : CHUNK_TYPE_CRC32 ≠ CHUNK_TYPE_FILL := by decide
lemma crc32_ne_dontCare : CHUNK_TYPE_CRC32 ≠ CHUNK_TYPE_DONT_CARE := by decide

/-- A payload's length fits in 32 bits, as its chunk's total size does. -/
lemma Chunk.At.payload_lt {off : ℕ} {x : Chunk} (hx : x.At img off) :
    x.payload.length < 2 ^ 32 := by
  have htot : word32 img (off + 8) = _ := hx.total
  have hlt := word32_lt img (off + 8)
  omega

lemma WellFormed.taken_eq (h : WellFormed img xs) {k : ℕ} {x : Chunk} (hk : xs[k]? = some x) :
    taken img (chunkPos img k) = x.used (sparseHeader img).blockSize := by
  have ht := (h.chunks k x hk).type
  have hs := (h.chunks k x hk).size
  unfold taken
  rw [ht]
  cases x with
  | raw data =>
    rw [Chunk.type, if_pos rfl, hs crc32_ne_raw.symm]
    exact u32_of_lt (h.chunks k _ hk).payload_lt
  | fill v n =>
    rw [Chunk.type, if_neg fill_ne_raw, hs crc32_ne_fill.symm]
    simp [Chunk.size, Chunk.used]
  | dontCare n => rw [Chunk.type, if_neg dontCare_ne_raw, if_neg fun h => dontCare_ne_fill h.1]; rfl
  | crc32 v => rw [Chunk.type, if_neg crc32_ne_raw, if_neg fun h => crc32_ne_fill h.1]; rfl

/-- The walk falls short by the checksum of a CRC32 chunk. -/
lemma WellFormed.advance_eq (h : WellFormed img xs) {k : ℕ} {x : Chunk} (hk : xs[k]? = some x) :
    advance img (chunkPos img k) =
      if x.type = CHUNK_TYPE_CRC32 then 0 else x.payload.length := by
  have ht := (h.chunks k x hk).type
  have hs := (h.chunks k x hk).size
  unfold advance
  rw [ht]
  cases x with
  | raw data => rw [Chunk.type, if_pos rfl, hs crc32_ne_raw.symm, if_neg crc32_ne_raw.symm]; rfl
  | fill v n => rw [Chunk.type, if_neg fill_ne_raw, if_pos rfl, if_neg crc32_ne_fill.symm]; rfl
  | dontCare n =>
    rw [Chunk.type, if_neg dontCare_ne_raw, if_neg dontCare_ne_fill,
      if_neg crc32_ne_dontCare.symm]
    rfl
  | crc32 v => rw [Chunk.type, if_neg crc32_ne_raw, if_neg crc32_ne_fill, if_pos rfl]

/-! ### What the walk does to the trace -/

variable {ε : Type}

/-- Events that read no chunk header and no payload. -/
def Event.isDisk : Event → Prop
  | .chunkHeader _ _ => False
  | .payload _ _ _ => False
  | _ => True

lemma writePartition_events (e : Services ε) (name : List UInt8) (off : ℕ) (data : List UInt8)
    (s : St ε) : ∃ l, (writePartition e name off data s).2.trace = s.trace ++ l ∧
      (∀ x ∈ l, Event.isDisk x) ∧ ∀ h o d, .writeDisk h o d ∈ l → d = data := by
  unfold writePartition
  split
  · exact ⟨[], by simp, by simp, by simp⟩
  · split_ifs
    · exact ⟨[], by simp, by simp, by simp⟩
    · dsimp only
      split_ifs
      · exact ⟨_, rfl, by simp [Event.isDisk], by simp⟩
      · exact ⟨_, List.append_assoc _ _ _, by simp [Event.isDisk], by simp⟩

/-- The events of one payload: `len` bytes at `pos`, and what the disk was asked. -/
def PayloadAt (k pos len : ℕ) (l : List Event) : Prop :=
  ∀ x ∈ l, Event.isDisk x ∨ x = .payload k pos len

lemma payloadAt_cons {k pos len : ℕ} {l : List Event} (hl : ∀ x ∈ l, Event.isDisk x) :
    PayloadAt k pos len (.payload k pos len :: l) := by
  intro x hx
  rcases List.mem_cons.mp hx with rfl | hx
  · exact Or.inr rfl
  · exact Or.inl (hl x hx)

lemma payloadAt_append {k pos len : ℕ} {l₁ l₂ : List Event} (h₁ : PayloadAt k pos len l₁)
    (h₂ : PayloadAt k pos len l₂) : PayloadAt k pos len (l₁ ++ l₂) := fun x hx =>
  (List.mem_append.mp hx).elim (h₁ x) (h₂ x)

/-- A write after a payload read. -/
lemma writePayload_events (e : Services ε) (name : List UInt8) (off k pos len : ℕ)
    (data : List UInt8) (s : St ε) :
    ∃ l, (writePartition e name off data (s.note (.payload k pos len))).2.trace =
        s.trace ++ l ∧ PayloadAt k pos len l ∧ .payload k pos len ∈ l := by
  obtain ⟨l, hl, hd, -⟩ := writePartition_events e name off data (s.note (.payload k pos len))
  refine ⟨.payload k pos len :: l, ?_, payloadAt_cons hd, List.mem_cons_self⟩
  rw [hl, St.note, List.append_assoc]
  rfl

lemma fillPiece_events (e : Services ε) (name : List UInt8) (img : ℕ → UInt8) (k left : ℕ)
    (w : Walk ε) : (fillPiece e name img k left w).image = w.image ∧
      ∃ l, (fillPiece e name img k left w).s.trace = w.s.trace ++ l ∧
        PayloadAt k w.image 4 l ∧ .payload k w.image 4 ∈ l :=
  ⟨rfl, writePayload_events e name w.offset k w.image 4 _ w.s⟩

lemma fillLoop_events (e : Services ε) (name : List UInt8) (img : ℕ → UInt8) (k left : ℕ)
    (w : Walk ε) : (fillLoop e name img k left w).image = w.image ∧
      ∃ l, (fillLoop e name img k left w).s.trace = w.s.trace ++ l ∧ PayloadAt k w.image 4 l ∧
        (0 < left → .payload k w.image 4 ∈ l) ∧ (left = 0 → l = []) := by
  induction left using Nat.strongRecOn generalizing w with
  | ind left ih =>
    rw [fillLoop]
    by_cases h : 0 < left
    · rw [if_pos h]
      obtain ⟨hi₁, l₁, ht₁, hp₁, hm₁⟩ := fillPiece_events e name img k left w
      dsimp only
      split_ifs with herr
      · exact ⟨hi₁, l₁, ht₁, hp₁, fun _ => hm₁, by omega⟩
      · obtain ⟨hi₂, l₂, ht₂, hp₂, -, -⟩ := ih _ (Nat.sub_lt h (fillCount_pos h))
          { fillPiece e name img k left w with
            offset := u64 ((fillPiece e name img k left w).offset + fillCount left) }
        refine ⟨hi₂.trans hi₁, l₁ ++ l₂, ?_, payloadAt_append hp₁ (hi₁ ▸ hp₂),
          fun _ => List.mem_append_left l₂ hm₁, by omega⟩
        rw [ht₂, ← List.append_assoc, ← ht₁]
    · rw [if_neg h]
      exact ⟨rfl, [], by simp, by simp [PayloadAt], fun h0 => absurd h0 h, fun _ => rfl⟩

/-- One round reads the header at the image pointer and, behind it, what the chunk takes. -/
lemma flashChunk_events (e : Services ε) (name : List UInt8) (img : ℕ → UInt8) (k : ℕ)
    (w : Walk ε) : ∃ l, (flashChunk e name img k w).s.trace =
        w.s.trace ++ .chunkHeader k w.image :: l ∧
      PayloadAt k (w.image + chunkHeaderLen) (taken img w.image) l ∧
      (0 < taken img w.image →
        .payload k (w.image + chunkHeaderLen) (taken img w.image) ∈ l) ∧
      (¬ efiError (flashChunk e name img k w).status = true →
        (flashChunk e name img k w).image = w.image + chunkHeaderLen + advance img w.image) := by
  have hnote : ∀ (l : List Event), (w.s.note (.chunkHeader k w.image)).trace ++ l =
      w.s.trace ++ .chunkHeader k w.image :: l := by simp [St.note]
  unfold flashChunk taken advance
  by_cases hraw : (chunkHeaderAt img w.image).chunkType = CHUNK_TYPE_RAW
  · simp only [hraw, if_true]
    obtain ⟨l, hl, hp, hm⟩ := writePayload_events e name w.offset k (w.image + chunkHeaderLen)
      (u32 ((chunkHeaderAt img w.image).chunkSize * (sparseHeader img).blockSize))
      (slice img (w.image + chunkHeaderLen)
        (u32 ((chunkHeaderAt img w.image).chunkSize * (sparseHeader img).blockSize)))
      (w.s.note (.chunkHeader k w.image))
    rw [hnote] at hl
    split_ifs with herr
    · exact ⟨l, hl, hp, fun _ => hm, fun h => absurd herr h⟩
    · exact ⟨l, hl, hp, fun _ => hm, fun _ => rfl⟩
  · simp only [hraw, if_false]
    by_cases hfill : (chunkHeaderAt img w.image).chunkType = CHUNK_TYPE_FILL
    · simp only [hfill, if_true, true_and]
      obtain ⟨hi, l, hl, hp, hm, hz⟩ := fillLoop_events e name img k
        ((chunkHeaderAt img w.image).chunkSize * (sparseHeader img).blockSize)
        { w with s := w.s.note (.chunkHeader k w.image), image := w.image + chunkHeaderLen }
      rw [hnote] at hl
      refine ⟨l, by split_ifs <;> exact hl, ?_, ?_, ?_⟩
      · by_cases h0 : 0 < (chunkHeaderAt img w.image).chunkSize * (sparseHeader img).blockSize
        · rw [if_pos h0]; exact hp
        · rw [hz (by omega)]; simp [PayloadAt]
      · intro h
        by_cases h0 : 0 < (chunkHeaderAt img w.image).chunkSize * (sparseHeader img).blockSize
        · rw [if_pos h0]; exact hm h0
        · rw [if_neg h0] at h; omega
      · intro h
        split_ifs at h ⊢ with herr
        · exact absurd herr h
        · exact congrArg (· + 4) hi
    · simp only [hfill, if_false, false_and]
      refine ⟨[], ?_, by simp [PayloadAt], by omega, fun _ => by split_ifs <;> rfl⟩
      split_ifs <;> rfl

/-- Where the walk over the chunks reads, from chunk `k` on. -/
lemma chunkLoop_events (e : Services ε) (name : List UInt8) (img : ℕ → UInt8) (n k : ℕ)
    (w : Walk ε) : ∃ l, (chunkLoop e name img n k w).s.trace = w.s.trace ++ l ∧
      (∀ x ∈ l, Event.isDisk x ∨ ∃ j < n, x = .chunkHeader (k + j) (walkPos img w.image j) ∨
        x = .payload (k + j) (walkPos img w.image j + chunkHeaderLen)
          (taken img (walkPos img w.image j))) ∧
      (¬ efiError (chunkLoop e name img n k w).status = true → ∀ j < n,
        .chunkHeader (k + j) (walkPos img w.image j) ∈ l ∧
        (0 < taken img (walkPos img w.image j) →
          .payload (k + j) (walkPos img w.image j + chunkHeaderLen)
            (taken img (walkPos img w.image j)) ∈ l)) := by
  induction n generalizing k w with
  | zero => exact ⟨[], by simp [chunkLoop], by simp, by omega⟩
  | succ n ih =>
    obtain ⟨l₁, ht₁, hp₁, hm₁, hi₁⟩ := flashChunk_events e name img k w
    rw [chunkLoop]
    split_ifs with herr
    · refine ⟨_, ht₁, fun x hx => ?_, fun h => absurd herr h⟩
      rcases List.mem_cons.mp hx with rfl | hx
      · exact Or.inr ⟨0, by omega, Or.inl rfl⟩
      · exact (hp₁ x hx).imp_right fun h => ⟨0, by omega, Or.inr h⟩
    · obtain ⟨l₂, ht₂, hp₂, hm₂⟩ := ih (k + 1) (flashChunk e name img k w)
      rw [hi₁ herr] at hp₂ hm₂
      refine ⟨.chunkHeader k w.image :: l₁ ++ l₂, by rw [ht₂, ht₁, List.append_assoc], ?_, ?_⟩
      · intro x hx
        rcases List.mem_append.mp hx with hx | hx
        · rcases List.mem_cons.mp hx with rfl | hx
          · exact Or.inr ⟨0, by omega, Or.inl rfl⟩
          · exact (hp₁ x hx).imp_right fun h => ⟨0, by omega, Or.inr h⟩
        · refine (hp₂ x hx).imp_right ?_
          rintro ⟨j, hj, h⟩
          refine ⟨j + 1, by omega, ?_⟩
          rwa [Nat.add_assoc, Nat.add_comm 1 j] at h
      · intro h j hj
        cases j with
        | zero =>
          exact ⟨List.mem_append_left l₂ List.mem_cons_self,
            fun h0 => List.mem_append_left l₂ (List.mem_cons_of_mem _ (hm₁ h0))⟩
        | succ j =>
          have hj' := hm₂ h j (by omega)
          rw [Nat.add_assoc, Nat.add_comm 1 j] at hj'
          exact ⟨List.mem_append_right _ hj'.1, fun h0 => List.mem_append_right _ (hj'.2 h0)⟩

/-! ### When the chunks are framed -/

/-- The images on which the walk keeps to the framing: chunk headers of the twelve bytes it
knows (or one chunk only, with no payload to take), and no CRC32 chunk before another chunk. -/
def KnownFraming (img : ℕ → UInt8) (xs : List Chunk) : Prop :=
  xs = [] ∨
    ((sparseHeader img).chunkHeaderSize = chunkHeaderLen ∨
      xs.length = 1 ∧ ∀ x ∈ xs, x.used (sparseHeader img).blockSize = 0) ∧
    ∀ (k : ℕ) (x : Chunk), xs[k]? = some x → x.type = CHUNK_TYPE_CRC32 → k + 1 = xs.length

/-- The walk's pointer is at the chunk's place, chunk by chunk. -/
lemma WellFormed.walkPos_eq (h : WellFormed img xs) (hc : KnownFraming img xs) :
    ∀ k < xs.length, walkPos img (sparseHeader img).fileHeaderSize k = chunkPos img k := by
  intro k hk
  induction k with
  | zero => rfl
  | succ k ih =>
    obtain ⟨x, hx⟩ : ∃ x, xs[k]? = some x := ⟨_, List.getElem?_eq_getElem (by omega)⟩
    rcases hc with rfl | ⟨hsz, hcrc⟩
    · simp at hk
    · have h12 : (sparseHeader img).chunkHeaderSize = chunkHeaderLen :=
        hsz.resolve_right fun h1 => by omega
      have hty : x.type ≠ CHUNK_TYPE_CRC32 := fun ht => by
        have := hcrc k x hx ht
        omega
      rw [walkPos_succ, ih (by omega), h.chunkPos_succ hx, h.advance_eq hx, if_neg hty, h12]

/-- What the pointer's places say about the image. -/
lemma WellFormed.knownFraming_of_walkPos (h : WellFormed img xs)
    (hw : ∀ k < xs.length, walkPos img (sparseHeader img).fileHeaderSize k = chunkPos img k)
    (hp : ∀ (k : ℕ) (x : Chunk), xs[k]? = some x → 0 < x.used (sparseHeader img).blockSize →
      (sparseHeader img).chunkHeaderSize = chunkHeaderLen) : KnownFraming img xs := by
  -- two neighbouring chunks fix the size of the header and the payload between them
  have hstep : ∀ (k : ℕ) (x : Chunk), xs[k]? = some x → k + 1 < xs.length →
      (sparseHeader img).chunkHeaderSize = chunkHeaderLen ∧ x.type ≠ CHUNK_TYPE_CRC32 := by
    intro k x hx hk
    have h12 := h.chunkHeader
    have hnext := hw (k + 1) hk
    rw [walkPos_succ, hw k (by omega), h.chunkPos_succ hx, h.advance_eq hx] at hnext
    unfold chunkHeaderLen at hnext ⊢
    by_cases hty : x.type = CHUNK_TYPE_CRC32
    · have hlen : x.payload.length = 4 := by
        cases x <;> simp_all [Chunk.type, Chunk.payload, le32, CHUNK_TYPE_RAW, CHUNK_TYPE_FILL,
          CHUNK_TYPE_DONT_CARE, CHUNK_TYPE_CRC32]
      rw [if_pos hty] at hnext
      omega
    · rw [if_neg hty] at hnext
      exact ⟨by omega, hty⟩
  by_cases h0 : xs.length = 0
  · exact Or.inl (List.length_eq_zero_iff.mp h0)
  refine Or.inr ⟨?_, fun k x hx hty => ?_⟩
  · by_cases h1 : xs.length = 1
    · by_cases hu : ∀ x ∈ xs, x.used (sparseHeader img).blockSize = 0
      · exact Or.inr ⟨h1, hu⟩
      · push Not at hu
        obtain ⟨x, hx, hne⟩ := hu
        obtain ⟨k, hk⟩ := List.getElem?_of_mem hx
        exact Or.inl (hp k x hk (Nat.pos_of_ne_zero hne))
    · exact Or.inl (hstep 0 _ (List.getElem?_eq_getElem (by omega)) (by omega)).1
  · have hlt : k < xs.length := (List.getElem?_eq_some_iff.mp hx).1
    by_contra hne
    exact (hstep k x hx (by omega)).2 hty

lemma WellFormed.framed (h : WellFormed img xs) (hc : KnownFraming img xs) (e : Services ε)
    (name : List UInt8) {w : Walk ε} (hw : w.image = (sparseHeader img).fileHeaderSize) :
    ∃ l, (chunkLoop e name img xs.length 0 w).s.trace = w.s.trace ++ l ∧
      Framed img xs (chunkLoop e name img xs.length 0 w).status l := by
  obtain ⟨l, ht, hsound, hcompl⟩ := chunkLoop_events e name img xs.length 0 w
  simp only [hw, Nat.zero_add] at hsound hcompl
  have hpos := h.walkPos_eq hc
  have hat : ∀ j < xs.length, ∃ x, xs[j]? = some x := fun j hj =>
    ⟨_, List.getElem?_eq_getElem hj⟩
  -- a payload that is taken can only follow a header of twelve bytes
  have h12 : ∀ (k : ℕ) (x : Chunk), xs[k]? = some x → 0 < x.used (sparseHeader img).blockSize →
      (sparseHeader img).chunkHeaderSize = chunkHeaderLen := by
    intro k x hx hu
    rcases hc with rfl | ⟨hsz, -⟩
    · simp at hx
    · exact hsz.resolve_right fun h1 => by
        have := h1.2 x (List.mem_of_getElem? hx)
        omega
  refine ⟨l, ht, ?_, ?_, ?_⟩
  · intro k off hk
    rcases hsound _ hk with hd | ⟨j, hj, hev | hev⟩
    · exact hd.elim
    · injection hev with hkj hoff
      subst hkj
      exact ⟨hj, hoff.trans (hpos _ hj)⟩
    · injection hev
  · intro k off len hk hlen
    rcases hsound _ hk with hd | ⟨j, hj, hev | hev⟩
    · exact hd.elim
    · injection hev
    · injection hev with hkj hoff hl
      subst hkj
      obtain ⟨x, hx⟩ := hat _ hj
      rw [hpos _ hj, h.taken_eq hx] at hl
      rw [hoff, hpos _ hj, h12 _ x hx (hl ▸ hlen)]
  · intro herr k x hx
    have hk : k < xs.length := (List.getElem?_eq_some_iff.mp hx).1
    have hcompl := hcompl herr k hk
    rw [hpos k hk, h.taken_eq hx] at hcompl
    refine ⟨hcompl.1, fun hu => ?_⟩
    rw [h12 k x hx hu]
    exact hcompl.2 hu

/-! ### A disk with room -/

/-- One partition of 2^40 bytes, with no name, on which every write succeeds. -/
def roomy : Services Unit where
  partitions := [⟨fun _ => 0, 0⟩]
  uninitName := []
  openBlockIo _ := EFI_SUCCESS
  openDiskIo _ := EFI_SUCCESS
  media _ := ⟨0, 2 ^ 40 - 1, 1⟩
  allocatePool _ _ := (true, ())
  writeDisk _ _ mem off data := (EFI_SUCCESS, blit mem off data, ())

lemma writePartition_roomy (off : ℕ) (data : List UInt8) (s : St Unit)
    (h : data.length ≤ 2 ^ 32) : (writePartition roomy [] off data s).1 = EFI_SUCCESS := by
  have hopen : openPartition roomy [] = (EFI_SUCCESS, some 0) := by decide
  have hsize : (roomy.media 0).partitionSize = 2 ^ 40 := by decide
  unfold writePartition
  rw [hopen]
  dsimp only
  rw [if_neg (by omega)]
  rfl

lemma fillLoop_roomy (k left : ℕ) (w : Walk Unit) (h : w.status = EFI_SUCCESS) :
    (fillLoop roomy [] img k left w).status = EFI_SUCCESS := by
  induction left using Nat.strongRecOn generalizing w with
  | ind left ih =>
    rw [fillLoop]
    by_cases h0 : 0 < left
    · rw [if_pos h0]
      have hst : (fillPiece roomy [] img k left w).status = EFI_SUCCESS :=
        writePartition_roomy _ _ _ (by
          rw [slice_length]
          unfold fillCount FILL_BUF_SIZE
          split_ifs <;> omega)
      rw [if_neg (hst ▸ not_efiError_success)]
      exact ih _ (Nat.sub_lt h0 (fillCount_pos h0)) _ hst
    · rwa [if_neg h0]

lemma chunkLoop_roomy (n k : ℕ) (w : Walk Unit) (h : w.status = EFI_SUCCESS) :
    (chunkLoop roomy [] img n k w).status = EFI_SUCCESS := by
  induction n generalizing k w with
  | zero => exact h
  | succ n ih =>
    have hround : (flashChunk roomy [] img k w).status = EFI_SUCCESS := by
      unfold flashChunk
      dsimp only
      split_ifs
      · exact writePartition_roomy _ _ _
          (by rw [slice_length]; exact (Nat.mod_lt _ (by decide)).le)
      · exact writePartition_roomy _ _ _
          (by rw [slice_length]; exact (Nat.mod_lt _ (by decide)).le)
      · exact fillLoop_roomy _ _ _ h
      · exact fillLoop_roomy _ _ _ h
      · exact h
      · exact h
    rw [chunkLoop, if_neg (hround ▸ not_efiError_success)]
    exact ih _ _ hround

/-- **Sparse chunk framing.** Whatever the disk does, each chunk header is read where the chunk
begins and each payload behind the declared chunk header, exactly for the images whose framing
the walk knows. -/
theorem flashSparseImage_framed_iff (img : ℕ → UInt8) (xs : List Chunk) (h : WellFormed img xs) :
    (∀ (ε : Type) (e : Services ε) (heap : ℕ → UInt8) (name : List UInt8) (s : St ε),
      ∃ l, (flashSparseImage e heap name img s).2.trace = s.trace ++ l ∧
        Framed img xs (flashSparseImage e heap name img s).1 l) ↔ KnownFraming img xs := by
  constructor
  · intro hall
    obtain ⟨l, ht, hf⟩ := hall Unit roomy (fun _ => 0) [] ⟨(), fun _ _ => 0, []⟩
    -- on the disk with room the walk goes through every chunk
    have hrun : flashSparseImage roomy (fun _ => 0) [] img ⟨(), fun _ _ => 0, []⟩ =
        ((chunkLoop roomy [] img xs.length 0
          ⟨EFI_SUCCESS, (sparseHeader img).fileHeaderSize, 0, fun _ => 0,
            ⟨(), fun _ _ => 0, []⟩⟩).status,
         (chunkLoop roomy [] img xs.length 0
          ⟨EFI_SUCCESS, (sparseHeader img).fileHeaderSize, 0, fun _ => 0,
            ⟨(), fun _ _ => 0, []⟩⟩).s) := by
      rw [← h.count]; rfl
    rw [hrun] at ht hf
    obtain ⟨l', ht', -, hcompl⟩ := chunkLoop_events roomy [] img xs.length 0
      ⟨EFI_SUCCESS, (sparseHeader img).fileHeaderSize, 0, fun _ => 0, ⟨(), fun _ _ => 0, []⟩⟩
    have hll : l' = l := List.append_cancel_left (ht'.symm.trans ht)
    subst hll
    have hread := hcompl (by
      rw [chunkLoop_roomy _ _ _ rfl]
      exact not_efiError_success)
    simp only [Nat.zero_add] at hread
    have hpos : ∀ k < xs.length,
        walkPos img (sparseHeader img).fileHeaderSize k = chunkPos img k := fun k hk =>
      (hf.header k _ (hread k hk).1).2
    refine h.knownFraming_of_walkPos hpos fun k x hx hu => ?_
    have hk : k < xs.length := (List.getElem?_eq_some_iff.mp hx).1
    have hpay := (hread k hk).2
    rw [hpos k hk, h.taken_eq hx] at hpay
    have := hf.payload _ _ _ (hpay hu) hu
    omega
  · intro hc ε e heap name s
    unfold flashSparseImage
    rw [h.count]
    dsimp only
    have hres : efiError EFI_OUT_OF_RESOURCES = true := efiError_maxBit 9
    split_ifs with halloc
    · exact ⟨[], by simp, ⟨by simp, by simp, fun herr => absurd hres herr⟩⟩
    · exact h.framed hc e name rfl

/-- A header for four-byte blocks, one chunk of each kind, the CRC32 chunk last. -/
def sampleImage (i : ℕ) : UInt8 :=
  ([0x3A, 0xFF, 0x26, 0xED, 1, 0, 0, 0, 28, 0, 12, 0, 4, 0, 0, 0, 4, 0, 0, 0, 4, 0, 0, 0,
    0, 0, 0, 0,
    0xC1, 0xCA, 0, 0, 1, 0, 0, 0, 16, 0, 0, 0, 7, 8, 9, 10,
    0xC3, 0xCA, 0, 0, 1, 0, 0, 0, 12, 0, 0, 0,
    0xC2, 0xCA, 0, 0, 2, 0, 0, 0, 16, 0, 0, 0, 5, 0, 0, 0,
    0xC4, 0xCA, 0, 0, 0, 0, 0, 0, 16, 0, 0, 0, 6, 0, 0, 0] : List UInt8).getD i 0

lemma sampleImage_wellFormed :
    WellFormed sampleImage [.raw [7, 8, 9, 10], .dontCare 1, .fill 5 2, .crc32 6] where
  magic := by decide
  version := by decide
  fileHeader := by decide
  chunkHeader := by decide
  count := by decide
  chunks k x hk := by
    match k, hk with
    | 0, hk => injection hk with hk; subst hk; constructor <;> decide
    | 1, hk => injection hk with hk; subst hk; constructor <;> decide
    | 2, hk => injection hk with hk; subst hk; constructor <;> decide
    | 3, hk => injection hk with hk; subst hk; constructor <;> decide

theorem flashSparseImage_framed_iff_sample :
    ∃ l, (flashSparseImage roomy (fun _ => 0) [] sampleImage ⟨(), fun _ _ => 0, []⟩).2.trace =
        [] ++ l ∧
      Framed sampleImage [.raw [7, 8, 9, 10], .dontCare 1, .fill 5 2, .crc32 6]
        (flashSparseImage roomy (fun _ => 0) [] sampleImage ⟨(), fun _ _ => 0, []⟩).1 l := by
  have hknown : KnownFraming sampleImage [.raw [7, 8, 9, 10], .dontCare 1, .fill 5 2, .crc32 6] :=
    Or.inr ⟨Or.inl (by decide), fun k x hk hty => by
      match k, hk with
      | 0, hk => injection hk with hk; subst hk; exact absurd hty (by decide)
      | 1, hk => injection hk with hk; subst hk; exact absurd hty (by decide)
      | 2, hk => injection hk with hk; subst hk; exact absurd hty (by decide)
      | 3, _ => rfl⟩
  exact (flashSparseImage_framed_iff _ _ sampleImage_wellFormed).mpr hknown Unit roomy
    (fun _ => 0) [] ⟨(), fun _ _ => 0, []⟩

/-- A CRC32 chunk and a DONT_CARE chunk behind it. -/
def crc32Image (i : ℕ) : UInt8 :=
  ([0x3A, 0xFF, 0x26, 0xED, 1, 0, 0, 0, 28, 0, 12, 0, 4, 0, 0, 0, 1, 0, 0, 0, 2, 0, 0, 0,
    0, 0, 0, 0,
    0xC4, 0xCA, 0, 0, 0, 0, 0, 0, 16, 0, 0, 0, 6, 0, 0, 0,
    0xC3, 0xCA, 0, 0, 1, 0, 0, 0, 12, 0, 0, 0] : List UInt8).getD i 0

lemma crc32Image_wellFormed : WellFormed crc32Image [.crc32 6, .dontCare 1] where
  magic := by decide
  version := by decide
  fileHeader := by decide
  chunkHeader := by decide
  count := by decide
  chunks k x hk := by
    match k, hk with
    | 0, hk => injection hk with hk; subst hk; constructor <;> decide
    | 1, hk => injection hk with hk; subst hk; constructor <;> decide

/-- The second chunk begins at 44; its header is read at 40, in the checksum. -/
theorem flashSparseImage_crc32 : WellFormed crc32Image [.crc32 6, .dontCare 1] ∧
    chunkPos crc32Image 1 = 44 ∧
    flashSparseImage roomy (fun _ => 0) [] crc32Image ⟨(), fun _ _ => 0, []⟩ =
      (EFI_SUCCESS, ⟨(), fun _ _ => 0, [.chunkHeader 0 28, .chunkHeader 1 40]⟩) ∧
    ¬ Framed crc32Image [.crc32 6, .dontCare 1] EFI_SUCCESS
      [.chunkHeader 0 28, .chunkHeader 1 40] := by
  refine ⟨crc32Image_wellFormed, by decide, rfl, fun h => ?_⟩
  exact absurd (h.header 1 40 (by simp)).2 (by decide)

end UefiToolkit.SparseImage
