import UefiToolkit.SparseImage

/-!
Flashing a sparse image leaves the partition as the expansion of its chunks.

The expansion is a list of cells, one for each byte; a cell of a DONT_CARE chunk is empty and
leaves the byte it falls on as it was.
-/

namespace UefiToolkit.SparseExpand

open UefiToolkit.Word UefiToolkit.Mem UefiToolkit.Bytes UefiToolkit.SparseModel
open UefiToolkit.SparseImage

/-! ### The reference expansion -/

/-- `n` times the four bytes of a fill value. -/
def pattern (v n : ℕ) : List UInt8 := (List.replicate n (le32 v)).flatten

lemma le32_length (v : ℕ) : (le32 v).length = 4 := rfl

lemma pattern_length (v n : ℕ) : (pattern v n).length = n * 4 := by
  simp [pattern, le32_length]

lemma pattern_add (v m n : ℕ) : pattern v (m + n) = pattern v m ++ pattern v n := by
  unfold pattern; rw [List.replicate_add, List.flatten_append]

/-- The cells a chunk stands for. -/
def Chunk.cells (blockSize : ℕ) : Chunk → List (Option UInt8)
  | .raw data => data.map some
  | .fill v n => (pattern v (n * blockSize / 4)).map some
  | .dontCare n => List.replicate (n * blockSize) none
  | .crc32 _ => []

def expansion (blockSize : ℕ) (xs : List Chunk) : List (Option UInt8) :=
  xs.flatMap (Chunk.cells blockSize)

lemma cells_length {bs : ℕ} (h4 : 4 ∣ bs) (x : Chunk) :
    (Chunk.cells bs x).length = x.size bs := by
  cases x with
  | raw data => simp [Chunk.cells, Chunk.size]
  | fill v n =>
    have := Nat.div_mul_cancel (Dvd.dvd.mul_left h4 n)
    simp [Chunk.cells, Chunk.size, pattern_length, this]
  | dontCare n => simp [Chunk.cells, Chunk.size]
  | crc32 v => rfl

lemma expansion_cons (bs : ℕ) (x : Chunk) (xs : List Chunk) :
    expansion bs (x :: xs) = Chunk.cells bs x ++ expansion bs xs := rfl

/-- The naive fill: one word after another. -/
def wordFill (mem : ℕ → UInt8) (off v : ℕ) : ℕ → ℕ → UInt8
  | 0 => mem
  | n + 1 => wordFill (blit mem off (le32 v)) (off + 4) v n

lemma wordFill_eq (mem : ℕ → UInt8) (off v n : ℕ) :
    wordFill mem off v n = blit mem off (pattern v n) := by
  induction n generalizing mem off with
  | zero => simp [wordFill, pattern, ← overlay_some]
  | succ n ih =>
    have hsplit : pattern v (n + 1) = le32 v ++ pattern v n := rfl
    have happ := blit_append mem off (le32 v) (pattern v n)
    rw [wordFill, ih, hsplit]
    exact happ

/-! ### The partition -/

variable {ε : Type} {e : Services ε} {name : List UInt8} {h : Handle}

/-- The named partition exists, and every write that stays inside it is done as asked. -/
structure Sound (e : Services ε) (name : List UInt8) (h : Handle) : Prop where
  short : name.length < 60
  found : ∃ entry, (e.partitions.find? fun entry =>
    strEq entry.partitionName (name.map (·.toUInt16))) = some entry ∧ entry.partitionHandle = h
  blockIo : efiError (e.openBlockIo h) = false
  diskIo : efiError (e.openDiskIo h) = false
  writes : ∀ env mem off data, off + data.length ≤ (e.media h).partitionSize →
    efiError (e.writeDisk env h mem off data).1 = false ∧
      (e.writeDisk env h mem off data).2.1 = blit mem off data

lemma Sound.openPartition (hs : Sound e name h) : openPartition e name = (EFI_SUCCESS, some h) := by
  obtain ⟨entry, hfind, rfl⟩ := hs.found
  unfold SparseModel.openPartition
  simp only [if_pos hs.short, hfind, hs.blockIo, hs.diskIo]
  rfl

/-- Only the content of partition `h` differs, and it is `m`. -/
def Became (h : Handle) (s s' : St ε) (m : ℕ → UInt8) : Prop :=
  s'.content = Function.update s.content h m

lemma Became.at {s s' : St ε} {m : ℕ → UInt8} (hb : Became h s s' m) : s'.content h = m := by
  rw [hb, Function.update_self]

lemma Became.trans {s s' s'' : St ε} {m m' : ℕ → UInt8} (h₁ : Became h s s' m)
    (h₂ : Became h s' s'' m') : Became h s s'' m' := by
  rw [Became, h₂, h₁, Function.update_idem]

lemma became_refl (s : St ε) : Became h s s (s.content h) := (Function.update_eq_self h _).symm

lemma Sound.writePartition (hs : Sound e name h) {off : ℕ} (data : List UInt8)
    (hfit : off + data.length ≤ (e.media h).partitionSize) (s : St ε) :
    (writePartition e name off data s).1 = EFI_SUCCESS ∧
      Became h s (writePartition e name off data s).2 (blit (s.content h) off data) := by
  obtain ⟨hst, hmem⟩ := hs.writes s.env (s.content h) off data hfit
  unfold SparseModel.writePartition
  rw [hs.openPartition]
  dsimp only
  rw [if_neg (by omega), hst, hmem]
  exact ⟨rfl, rfl⟩

/-! ### A fill chunk -/

lemma slice_setMem32 (buf : ℕ → UInt8) {v count : ℕ} (h4 : 4 ∣ count) :
    slice (setMem32 buf count (le32 v)) 0 count = pattern v (count / 4) := by
  have hlen := pattern_length v (count / 4)
  rw [Nat.div_mul_cancel h4] at hlen
  have hall := slice_blit buf 0 (pattern v (count / 4))
  rw [hlen] at hall
  exact hall

lemma dvd_fillCount {left : ℕ} (h4 : 4 ∣ left) : 4 ∣ fillCount left := by
  unfold fillCount
  split_ifs
  · exact ⟨FILL_BUF_SIZE / 4, by decide⟩
  · exact h4

/-- The buffered fill writes the pattern, whatever its length. -/
lemma Sound.fillLoop (hs : Sound e name h) (img : ℕ → UInt8) {v : ℕ} (k left : ℕ) (w : Walk ε)
    (h4 : 4 ∣ left) (hv : slice img w.image 4 = le32 v)
    (hfit : w.offset + left ≤ (e.media h).partitionSize) (hst : w.status = EFI_SUCCESS) :
    (fillLoop e name img k left w).status = EFI_SUCCESS ∧
      (fillLoop e name img k left w).image = w.image ∧
      (fillLoop e name img k left w).offset = w.offset + left ∧
      Became h w.s (fillLoop e name img k left w).s
        (blit (w.s.content h) w.offset (pattern v (left / 4))) := by
  have hsize : (e.media h).partitionSize < 2 ^ 64 := Nat.mod_lt _ (by decide)
  induction left using Nat.strongRecOn generalizing w with
  | ind left ih =>
    rw [SparseModel.fillLoop]
    by_cases h0 : 0 < left
    · rw [if_pos h0]
      have hle := fillCount_le left
      have hc4 := dvd_fillCount h4
      have hslice : slice (setMem32 w.fillBuf (fillCount left) (slice img w.image 4)) 0
          (fillCount left) = pattern v (fillCount left / 4) := by
        rw [hv]; exact slice_setMem32 _ hc4
      have hlen : (pattern v (fillCount left / 4)).length = fillCount left := by
        rw [pattern_length, Nat.div_mul_cancel hc4]
      obtain ⟨hst₁, hb₁⟩ := hs.writePartition (pattern v (fillCount left / 4))
        (show w.offset + _ ≤ (e.media h).partitionSize by rw [hlen]; omega)
        (w.s.note (.payload k w.image 4))
      rw [← hslice] at hst₁ hb₁
      have hpiece : (fillPiece e name img k left w).status = EFI_SUCCESS := hst₁
      rw [if_neg (by rw [hpiece]; decide)]
      obtain ⟨hst₂, hi₂, ho₂, hb₂⟩ := ih (left - fillCount left)
        (Nat.sub_lt h0 (fillCount_pos h0))
        { fillPiece e name img k left w with
          offset := u64 ((fillPiece e name img k left w).offset + fillCount left) }
        (Nat.dvd_sub h4 hc4) hv
        (by
          have : u64 (w.offset + fillCount left) = w.offset + fillCount left :=
            u64_of_lt (by omega)
          change u64 (w.offset + fillCount left) + _ ≤ _
          omega)
        hpiece
      have hoff : u64 ((fillPiece e name img k left w).offset + fillCount left) =
          w.offset + fillCount left := u64_of_lt (by
        change w.offset + fillCount left < 2 ^ 64
        omega)
      refine ⟨hst₂, hi₂, ?_, ?_⟩
      · rw [ho₂]
        dsimp only
        omega
      · -- the two pieces join to the whole pattern
        have hsum : left / 4 = fillCount left / 4 + (left - fillCount left) / 4 := by omega
        have hb := hb₁.trans hb₂
        dsimp only at hb
        have hcont : (fillPiece e name img k left w).s.content h =
            blit (w.s.content h) w.offset (pattern v (fillCount left / 4)) := by
          rw [← hslice]; exact hb₁.at
        rw [hcont] at hb
        rw [hsum, pattern_add, ← blit_append, hlen, ← hoff]
        exact hb
    · have hl : left = 0 := by omega
      subst hl
      rw [if_neg h0]
      refine ⟨hst, rfl, rfl, ?_⟩
      have hnil : blit (w.s.content h) w.offset (pattern v (0 / 4)) = w.s.content h := by
        rw [← overlay_some]; exact overlay_nil _ _
      rw [hnil]
      exact became_refl _

/-- The buffered fill does what the naive one does. -/
lemma Sound.fillLoop_eq_wordFill (hs : Sound e name h) {img : ℕ → UInt8} {v : ℕ} (k n : ℕ)
    (w : Walk ε) (hv : slice img w.image 4 = le32 v)
    (hfit : w.offset + n * 4 ≤ (e.media h).partitionSize) (hst : w.status = EFI_SUCCESS) :
    (SparseModel.fillLoop e name img k (n * 4) w).s.content h =
      wordFill (w.s.content h) w.offset v n := by
  have hb := (hs.fillLoop img k (n * 4) w (Dvd.intro_left n rfl) hv hfit hst).2.2.2.at
  rw [hb, wordFill_eq, Nat.mul_div_cancel n (by decide)]

/-! ### The chunks -/

/-- One round: both cursors move past the chunk, and its cells are laid over the partition. -/
lemma Sound.flashChunk (hs : Sound e name h) {img : ℕ → UInt8} {x : Chunk} (k : ℕ) (w : Walk ε)
    (h12 : (sparseHeader img).chunkHeaderSize = 12) (h4 : 4 ∣ (sparseHeader img).blockSize)
    (hx : x.At img w.image) (hcrc : x.type ≠ CHUNK_TYPE_CRC32)
    (hfit : w.offset + x.size (sparseHeader img).blockSize ≤ (e.media h).partitionSize)
    (hst : w.status = EFI_SUCCESS) :
    (flashChunk e name img k w).status = EFI_SUCCESS ∧
      (flashChunk e name img k w).image = w.image + 12 + x.payload.length ∧
      (flashChunk e name img k w).offset = w.offset + x.size (sparseHeader img).blockSize ∧
      Became h w.s (flashChunk e name img k w).s
        (overlay (w.s.content h) w.offset (Chunk.cells (sparseHeader img).blockSize x)) := by
  have hsize : (e.media h).partitionSize < 2 ^ 64 := Nat.mod_lt _ (by decide)
  have hoff : u64 (w.offset + x.size (sparseHeader img).blockSize) =
      w.offset + x.size (sparseHeader img).blockSize := u64_of_lt (by omega)
  have hpay := hx.payload
  have hlt := hx.payload_lt
  rw [h12] at hpay
  unfold SparseModel.flashChunk
  simp only [hx.type, hx.size hcrc]
  cases x with
  | raw data =>
    rw [Chunk.type, if_pos rfl]
    have hlen : u32 (Chunk.size (sparseHeader img).blockSize (.raw data)) = data.length :=
      u32_of_lt hlt
    have hdata : slice img (w.image + chunkHeaderLen) data.length = data := hpay
    obtain ⟨hst₁, hb₁⟩ := hs.writePartition data hfit
      ((w.s.note (.chunkHeader k w.image)).note (.payload k (w.image + chunkHeaderLen) data.length))
    rw [hlen, hdata, hst₁, if_neg (by decide)]
    refine ⟨rfl, rfl, hoff, ?_⟩
    rw [Chunk.cells, overlay_some]
    exact hb₁
  | fill v n =>
    rw [Chunk.type, if_neg fill_ne_raw, if_pos rfl]
    have h4n : 4 ∣ Chunk.size (sparseHeader img).blockSize (.fill v n) := Dvd.dvd.mul_left h4 n
    obtain ⟨hst₁, hi₁, ho₁, hb₁⟩ := hs.fillLoop img k _
      { w with s := w.s.note (.chunkHeader k w.image), image := w.image + chunkHeaderLen }
      h4n hpay hfit hst
    rw [hst₁, if_neg (by decide)]
    refine ⟨rfl, congrArg (· + 4) hi₁, ho₁, ?_⟩
    rw [Chunk.cells, overlay_some]
    exact hb₁
  | dontCare n =>
    rw [Chunk.type, if_neg dontCare_ne_raw, if_neg dontCare_ne_fill, if_pos rfl]
    refine ⟨hst, rfl, hoff, ?_⟩
    rw [Chunk.cells, overlay_none]
    exact became_refl (w.s.note _)
  | crc32 v => exact absurd rfl hcrc

/-- The walk over the remaining chunks `ys`, at the place of the first of them. -/
lemma Sound.chunkLoop (hs : Sound e name h) {img : ℕ → UInt8} {xs : List Chunk}
    (hwf : WellFormed img xs) (h12 : (sparseHeader img).chunkHeaderSize = 12)
    (h4 : 4 ∣ (sparseHeader img).blockSize) (hcrc : ∀ x ∈ xs, x.type ≠ CHUNK_TYPE_CRC32)
    {ys : List Chunk} {k : ℕ} (hys : xs.drop k = ys) {w : Walk ε}
    (himg : w.image = chunkPos img k) (hst : w.status = EFI_SUCCESS)
    (hfit : w.offset + (expansion (sparseHeader img).blockSize ys).length ≤
      (e.media h).partitionSize) :
    (chunkLoop e name img ys.length k w).status = EFI_SUCCESS ∧
      Became h w.s (chunkLoop e name img ys.length k w).s
        (overlay (w.s.content h) w.offset (expansion (sparseHeader img).blockSize ys)) := by
  induction ys generalizing k w with
  | nil =>
    refine ⟨hst, ?_⟩
    have hnil : overlay (w.s.content h) w.offset (expansion (sparseHeader img).blockSize []) =
        w.s.content h := overlay_nil _ _
    rw [hnil]
    exact became_refl _
  | cons x ys ih =>
    have hk : xs[k]? = some x := by
      rw [← Nat.add_zero k, ← List.getElem?_drop, hys]; rfl
    have hdrop : xs.drop (k + 1) = ys := by
      rw [← List.drop_drop, hys]; rfl
    have hlen := cells_length h4 x
    rw [expansion_cons, List.length_append, hlen] at hfit
    obtain ⟨hst₁, hi₁, ho₁, hb₁⟩ := hs.flashChunk k w h12 h4 (himg ▸ hwf.chunks k x hk)
      (hcrc x (List.mem_of_getElem? hk)) (by omega) hst
    obtain ⟨hst₂, hb₂⟩ := ih hdrop (w := SparseModel.flashChunk e name img k w)
      (by rw [hi₁, himg, hwf.chunkPos_succ hk, h12]) hst₁ (by rw [ho₁]; omega)
    rw [List.length_cons, SparseModel.chunkLoop, if_neg (by rw [hst₁]; decide)]
    refine ⟨hst₂, ?_⟩
    have hb := hb₁.trans hb₂
    rw [hb₁.at, ho₁, ← hlen, overlay_append] at hb
    exact hb

/-- **The expansion of a sparse image.** Flashing an image of RAW, FILL and DONT_CARE chunks
succeeds; the partition is then the expansion laid over what it held, and no other partition has
changed. The buffered fill of any length is the naive fill word by word. -/
theorem flashPartition_expands (hs : Sound e name h)
    (halloc : ∀ env, (e.allocatePool env FILL_BUF_SIZE).1 = true)
    {img : ℕ → UInt8} {xs : List Chunk} (hwf : WellFormed img xs)
    (h12 : (sparseHeader img).chunkHeaderSize = 12)
    (h4 : 4 ∣ (sparseHeader img).blockSize) (hcrc : ∀ x ∈ xs, x.type ≠ CHUNK_TYPE_CRC32)
    (hfit : (expansion (sparseHeader img).blockSize xs).length ≤ (e.media h).partitionSize)
    (heap : ℕ → UInt8) (bufferSize : ℕ) (s : St ε) :
    ((flashPartition e heap name bufferSize (some img) s).1 = EFI_SUCCESS ∧
      (flashPartition e heap name bufferSize (some img) s).2.content = Function.update s.content h
        (overlay (s.content h) 0 (expansion (sparseHeader img).blockSize xs))) ∧
    ∀ (k n v : ℕ) (w : Walk ε), slice img w.image 4 = le32 v →
      w.offset + n * 4 ≤ (e.media h).partitionSize → w.status = EFI_SUCCESS →
      (fillLoop e name img k (n * 4) w).s.content h = wordFill (w.s.content h) w.offset v n := by
  refine ⟨?_, fun k n v w hv hroom hst => hs.fillLoop_eq_wordFill k n w hv hroom hst⟩
  have hmagic := hwf.magic
  have hversion := hwf.version
  unfold flashPartition flashSparseImage
  dsimp only
  rw [if_pos hmagic, if_neg (by rw [hversion]; decide), halloc, hwf.count]
  exact hs.chunkLoop hwf h12 h4 hcrc (List.drop_zero) rfl rfl (by simpa using hfit)

/-- Three chunks of four-byte blocks: RAW, DONT_CARE and FILL. -/
def plainImage (i : ℕ) : UInt8 := if i = 20 then 3 else sampleImage i

lemma plainImage_wellFormed :
    WellFormed plainImage [.raw [7, 8, 9, 10], .dontCare 1, .fill 5 2] where
  magic := by decide
  version := by decide
  fileHeader := by decide
  chunkHeader := by decide
  count := by decide
  chunks k x hk := by
    match k, hk with
    | 0, hk => injection hk with hk; subst hk; constructor <;> decide
    | 1, hk => injection hk with hk; subst hk; constructor <;> decide
    | 2, hk => injection hk with hk; subst hk; constructor <;> decide

lemma roomy_sound : Sound roomy [] 0 :=
  ⟨by decide, ⟨_, rfl, rfl⟩, rfl, rfl, fun _ _ _ _ _ => ⟨rfl, rfl⟩⟩

/-- A RAW block, an untouched block, and two blocks of a fill. -/
theorem flashPartition_expands_plain :
    (flashPartition roomy (fun _ => 0) [] 0 (some plainImage) ⟨(), fun _ _ => 3, []⟩).1 =
        EFI_SUCCESS ∧
      slice ((flashPartition roomy (fun _ => 0) [] 0 (some plainImage)
        ⟨(), fun _ _ => 3, []⟩).2.content 0) 0 18 =
        [7, 8, 9, 10, 3, 3, 3, 3, 5, 0, 0, 0, 5, 0, 0, 0, 3, 3] := by
  obtain ⟨⟨hst, hcontent⟩, -⟩ := flashPartition_expands roomy_sound (fun _ => rfl)
    plainImage_wellFormed (by decide) (by decide) (by simp [Chunk.type]; decide) (by decide)
    (fun _ => 0) 0 ⟨(), fun _ _ => 3, []⟩
  refine ⟨hst, ?_⟩
  rw [hcontent]
  decide

end UefiToolkit.SparseExpand
