import UefiToolkit.SparseImage

/-!
What a walk over a sparse image writes, and where.

A piece of a fill is made of whole words: what is left of a piece behind its last whole word is
written as the buffer holds it.
-/

namespace UefiToolkit.SparseFill

open UefiToolkit.Word UefiToolkit.Mem UefiToolkit.Bytes UefiToolkit.SparseModel
open UefiToolkit.SparseImage

variable {ε : Type} {img : ℕ → UInt8} {target : Option Handle}

/-! ### Writes -/

structure Write where
  handle : Handle
  offset : ℕ
  data : List UInt8

def Event.write : Event → Option Write
  | .writeDisk h off data => some ⟨h, off, data⟩
  | _ => none

/-- The writes that a stretch of events asked the disk for. -/
def writes (l : List Event) : List Write := l.filterMap Event.write

@[simp] lemma writes_append (l l' : List Event) : writes (l ++ l') = writes l ++ writes l' :=
  List.filterMap_append

lemma writes_note (s : St ε) {x : Event} (h : Event.write x = none) :
    writes (s.note x).trace = writes s.trace := by
  simp [St.note, writes, h]

/-- The writes put `data` at `off` of the target, one behind the other. -/
def Lays (target : Option Handle) : ℕ → List Write → List UInt8 → Prop
  | _, [], data => data = []
  | off, x :: xs, data => target = some x.handle ∧ (x.data ≠ [] → x.offset = off) ∧
      ∃ rest, data = x.data ++ rest ∧ Lays target (off + x.data.length) xs rest

lemma lays_singleton {off : ℕ} {x : Write} {data : List UInt8} (h : target = some x.handle) :
    Lays target off [x] data ↔ (x.data ≠ [] → x.offset = off) ∧ x.data = data := by
  constructor
  · rintro ⟨-, hoff, rest, hdata, hrest⟩
    obtain rfl : rest = [] := hrest
    exact ⟨hoff, by rw [hdata, List.append_nil]⟩
  · rintro ⟨hoff, hdata⟩
    exact ⟨h, hoff, [], by rw [hdata, List.append_nil], rfl⟩

/-- A first write that is not empty, and holds what the data begin with. -/
lemma lays_cons {off : ℕ} {x : Write} {xs : List Write} {rest : List UInt8}
    (h : target = some x.handle) (hne : x.data ≠ []) :
    Lays target off (x :: xs) (x.data ++ rest) ↔
      x.offset = off ∧ Lays target (off + x.data.length) xs rest := by
  constructor
  · rintro ⟨-, hoff, rest', hdata, hrest⟩
    obtain rfl : rest = rest' := List.append_cancel_left hdata
    exact ⟨hoff hne, hrest⟩
  · rintro ⟨hoff, hrest⟩
    exact ⟨h, fun _ => hoff, rest, rfl, hrest⟩

lemma openPartition_none {e : Services ε} {name : List UInt8} {status : Status}
    (h : openPartition e name = (status, none)) : efiError status = true := by
  unfold openPartition at h
  dsimp only at h
  split at h
  · obtain ⟨rfl, -⟩ := Prod.mk.inj h
    exact efiError_maxBit 14
  · split_ifs at h with h1 h2
    · obtain ⟨rfl, -⟩ := Prod.mk.inj h
      exact h1
    · obtain ⟨rfl, -⟩ := Prod.mk.inj h
      exact h2
    · cases (Prod.mk.inj h).2

/-- A write is refused, or goes to the partition as it was asked for. -/
lemma writePartition_writes (e : Services ε) (name : List UInt8) (off : ℕ) (data : List UInt8)
    (s : St ε) :
    efiError (writePartition e name off data s).1 = true ∨
      (writePartition e name off data s).1 = EFI_SUCCESS ∧
        ∃ h, (openPartition e name).2 = some h ∧
          writes (writePartition e name off data s).2.trace =
            writes s.trace ++ [⟨h, off, data⟩] := by
  unfold writePartition
  split
  · next status hopen => exact Or.inl (openPartition_none hopen)
  · next status h hopen =>
    dsimp only
    split_ifs with hfull herr
    · exact Or.inl (efiError_maxBit 11)
    · exact Or.inl herr
    · refine Or.inr ⟨rfl, h, by rw [hopen], ?_⟩
      rw [writes_note _ rfl]
      simp [St.note, writes, Event.write]

/-! ### The fill buffer -/

/-- The four bytes behind `p` of the image, over and over. -/
def repeated (img : ℕ → UInt8) (p : ℕ) : ℕ → UInt8 := fun i => img (p + i % 4)

lemma flatten_replicate_slice (img : ℕ → UInt8) (p n : ℕ) :
    (List.replicate n (slice img p 4)).flatten = slice (repeated img p) 0 (n * 4) := by
  induction n with
  | zero => rfl
  | succ n ih =>
    have hword : slice (repeated img p) (0 + n * 4) 4 = slice img p 4 := slice_congr fun i hi => by
      rw [repeated, show (0 + n * 4 + i) % 4 = i by omega]
    rw [List.replicate_succ', List.flatten_append, ih, Nat.succ_mul, slice_add, hword]
    simp

/-- The whole words of the buffer take the value; the rest of it stays. -/
lemma setMem32_slice (buf : ℕ → UInt8) (count p i : ℕ) :
    setMem32 buf count (slice img p 4) i =
      if i < count / 4 * 4 then repeated img p i else buf i := by
  unfold setMem32
  rw [flatten_replicate_slice]
  have hlen : (slice (repeated img p) 0 (count / 4 * 4)).length = count / 4 * 4 := slice_length ..
  by_cases hi : i < count / 4 * 4
  · have hin := blit_in buf 0 (l := slice (repeated img p) 0 (count / 4 * 4)) (k := i)
      (by rw [hlen]; exact hi)
    rw [Nat.zero_add] at hin
    rw [if_pos hi, hin, slice_getElem, Nat.zero_add]
  · rw [if_neg hi, blit_out _ (by rw [hlen]; omega)]

/-! ### A fill -/

/-- What it takes for a fill of `left` bytes at `off` to be written right: the last piece has an
offset that is not wrapped, and behind its last whole word the buffer `buf` holds the value, unless
it was filled up before. -/
def FillSuits (off left : ℕ) (buf value : ℕ → UInt8) : Prop :=
  (0 < left → off + (left - 1) / FILL_BUF_SIZE * FILL_BUF_SIZE < 2 ^ 64) ∧
    (FILL_BUF_SIZE < left ∨ ∀ i, left / 4 * 4 ≤ i → i < left → buf i = value i)

/-- What a fill of `left` bytes at `off` with the value at `p` has left in the walk. -/
structure Filled (img : ℕ → UInt8) (target : Option Handle) (off left : ℕ) (w w' : Walk ε) :
    Prop where
  status : w'.status = EFI_SUCCESS
  offset : w'.offset = u64 (off + left)
  fillBuf : ∀ i < FILL_BUF_SIZE, w'.fillBuf i =
    if i < left / 4 * 4 then repeated img w.image i else w.fillBuf i
  writes : ∃ xs, writes w'.s.trace = writes w.s.trace ++ xs ∧
    (Lays target off xs (slice (repeated img w.image) 0 left) ↔
      FillSuits off left w.fillBuf (repeated img w.image))

/-- The piece is right if its cells behind the last whole word were. -/
lemma piece_eq_iff {buf value : ℕ → UInt8} {count p : ℕ} (hv : value = repeated img p) :
    slice (setMem32 buf count (slice img p 4)) 0 count = slice value 0 count ↔
      ∀ i, count / 4 * 4 ≤ i → i < count → buf i = value i := by
  constructor
  · intro h i hle hlt
    have hi := slice_inj h hlt
    rwa [Nat.zero_add, setMem32_slice, if_neg (by omega)] at hi
  · intro h
    refine slice_congr fun i hi => ?_
    rw [Nat.zero_add, setMem32_slice, hv]
    split_ifs with hword
    · rfl
    · rw [h i (by omega) hi, hv]

/-- The value begins anew with every piece. -/
lemma repeated_slice (p k n : ℕ) :
    slice (repeated img p) (k * 4) n = slice (repeated img p) 0 n := slice_congr fun i _ => by
  rw [repeated, repeated, show (k * 4 + i) % 4 = (0 + i) % 4 by omega]

lemma fillPiece_writes (img : ℕ → UInt8) (e : Services ε) (name : List UInt8) (k left : ℕ)
    (w : Walk ε) :
    efiError (fillPiece e name img k left w).status = true ∨
      (fillPiece e name img k left w).status = EFI_SUCCESS ∧
        ∃ h, (openPartition e name).2 = some h ∧
          writes (fillPiece e name img k left w).s.trace = writes w.s.trace ++
            [⟨h, w.offset, slice (setMem32 w.fillBuf (fillCount left) (slice img w.image 4)) 0
              (fillCount left)⟩] := by
  have hwrite := writePartition_writes e name w.offset
    (slice (setMem32 w.fillBuf (fillCount left) (slice img w.image 4)) 0 (fillCount left))
    (w.s.note (.payload k w.image 4))
  rw [writes_note _ rfl] at hwrite
  exact hwrite

lemma fillCount_last {left : ℕ} (h : left ≤ FILL_BUF_SIZE) : fillCount left = left :=
  if_neg (by omega)

lemma fillCount_more {left : ℕ} (h : FILL_BUF_SIZE < left) : fillCount left = FILL_BUF_SIZE :=
  if_pos h

/-- Filling whole buffers first asks for nothing of what is in the buffer. -/
lemma fillSuits_more {off left p : ℕ} (buf : ℕ → UInt8) (h : FILL_BUF_SIZE < left) :
    u64 off = off ∧ FillSuits (off + FILL_BUF_SIZE) (left - FILL_BUF_SIZE)
        (setMem32 buf FILL_BUF_SIZE (slice img p 4)) (repeated img p) ↔
      FillSuits off left buf (repeated img p) := by
  have hend : off + FILL_BUF_SIZE + (left - FILL_BUF_SIZE - 1) / FILL_BUF_SIZE * FILL_BUF_SIZE =
      off + (left - 1) / FILL_BUF_SIZE * FILL_BUF_SIZE := by
    have hsub : left - 1 = left - FILL_BUF_SIZE - 1 + FILL_BUF_SIZE := by omega
    rw [hsub, Nat.add_div_right _ (by decide), Nat.succ_mul]
    omega
  unfold FillSuits
  rw [hend]
  constructor
  · rintro ⟨-, hlast, -⟩
    exact ⟨fun _ => hlast (by omega), Or.inl h⟩
  · rintro ⟨hlast, -⟩
    have hlast := hlast (by omega)
    refine ⟨u64_of_lt (by omega), fun _ => hlast, ?_⟩
    by_cases hmore : FILL_BUF_SIZE < left - FILL_BUF_SIZE
    · exact Or.inl hmore
    · refine Or.inr fun i _ hi => ?_
      rw [setMem32_slice, if_pos]
      unfold FILL_BUF_SIZE at *
      omega

/-- The last piece of a fill. -/
lemma lays_last {h : Handle} {off left p : ℕ} {xs : List Write} (buf : ℕ → UInt8)
    (htarget : target = some h) (hpos : 0 < left) (hlast : left ≤ FILL_BUF_SIZE)
    (hrest : Lays target (off + left) xs []) :
    Lays target off (⟨h, u64 off, slice (setMem32 buf left (slice img p 4)) 0 left⟩ :: xs)
        (slice (repeated img p) 0 left) ↔
      FillSuits off left buf (repeated img p) := by
  have hne : slice (setMem32 buf left (slice img p 4)) 0 left ≠ [] := by
    rw [← List.length_pos_iff, slice_length]
    exact hpos
  have hzero : (left - 1) / FILL_BUF_SIZE = 0 := Nat.div_eq_of_lt (by omega)
  unfold FillSuits
  rw [hzero, Nat.zero_mul, Nat.add_zero, ← piece_eq_iff rfl]
  constructor
  · rintro ⟨-, hoff, rest, hdata, -⟩
    have hlen := congrArg List.length hdata
    simp only [List.length_append, slice_length] at hlen
    have hnil : rest = [] := List.length_eq_zero_iff.mp (by omega)
    rw [hnil, List.append_nil] at hdata
    refine ⟨fun _ => ?_, Or.inr hdata.symm⟩
    rw [← hoff hne]
    exact Nat.mod_lt _ (by decide)
  · rintro ⟨hoff, hdata⟩
    have hdata := hdata.resolve_left (by omega)
    have hlen : (slice (setMem32 buf left (slice img p 4)) 0 left).length = left :=
      slice_length ..
    refine ⟨htarget, fun _ => u64_of_lt (hoff hpos), [], ?_, ?_⟩
    · rw [hdata, List.append_nil]
    · dsimp only
      rwa [hlen]

/-- A piece that is a whole buffer. -/
lemma lays_more {h : Handle} {off left p : ℕ} {xs : List Write} (buf : ℕ → UInt8)
    (htarget : target = some h) (hmore : FILL_BUF_SIZE < left)
    (hrest : Lays target (off + FILL_BUF_SIZE) xs
        (slice (repeated img p) 0 (left - FILL_BUF_SIZE)) ↔
      FillSuits (off + FILL_BUF_SIZE) (left - FILL_BUF_SIZE)
        (setMem32 buf FILL_BUF_SIZE (slice img p 4)) (repeated img p)) :
    Lays target off (⟨h, u64 off, slice (setMem32 buf FILL_BUF_SIZE (slice img p 4)) 0
        FILL_BUF_SIZE⟩ :: xs) (slice (repeated img p) 0 left) ↔
      FillSuits off left buf (repeated img p) := by
  obtain ⟨d, hd⟩ : ∃ d, d = slice (setMem32 buf FILL_BUF_SIZE (slice img p 4)) 0 FILL_BUF_SIZE :=
    ⟨_, rfl⟩
  have hlen : d.length = FILL_BUF_SIZE := by rw [hd, slice_length]
  have hne : d ≠ [] := by
    rw [← List.length_pos_iff, hlen]
    decide
  have hpiece : d = slice (repeated img p) 0 FILL_BUF_SIZE :=
    hd.trans ((piece_eq_iff rfl).mpr fun i hle hlt => by
      unfold FILL_BUF_SIZE at hle hlt
      omega)
  have hdata : slice (repeated img p) 0 left =
      d ++ slice (repeated img p) 0 (left - FILL_BUF_SIZE) :=
    calc slice (repeated img p) 0 left
      _ = slice (repeated img p) 0 (FILL_BUF_SIZE + (left - FILL_BUF_SIZE)) := by
        rw [Nat.add_sub_cancel' hmore.le]
      _ = slice (repeated img p) 0 FILL_BUF_SIZE ++
          slice (repeated img p) (FILL_BUF_SIZE / 4 * 4) (left - FILL_BUF_SIZE) := by
        rw [slice_add, Nat.zero_add, show FILL_BUF_SIZE / 4 * 4 = FILL_BUF_SIZE from rfl]
      _ = _ := by rw [hpiece, repeated_slice p (FILL_BUF_SIZE / 4) (left - FILL_BUF_SIZE)]
  rw [← hd, hdata, lays_cons htarget hne, hlen, hrest]
  exact fillSuits_more buf hmore

/-- The pieces of a fill. -/
lemma fillLoop_filled (img : ℕ → UInt8) (e : Services ε) (name : List UInt8) (k off left : ℕ)
    {w : Walk ε} (hst : w.status = EFI_SUCCESS) (hoff : w.offset = u64 off) :
    efiError (fillLoop e name img k left w).status = true ∨
      Filled img (openPartition e name).2 off left w (fillLoop e name img k left w) := by
  induction left using Nat.strongRecOn generalizing w off with
  | ind left ih =>
    rw [fillLoop]
    by_cases h0 : left = 0
    · subst h0
      rw [if_neg (lt_irrefl 0)]
      refine Or.inr ⟨hst, hoff, by simp, [], by simp, iff_of_true rfl ?_⟩
      exact ⟨fun h => absurd h (lt_irrefl 0), Or.inr fun i _ hi => absurd hi (Nat.not_lt_zero i)⟩
    have hpos : 0 < left := Nat.pos_of_ne_zero h0
    rw [if_pos hpos]
    dsimp only
    rcases fillPiece_writes img e name k left w with herr | ⟨hst₁, h, htarget, hwrites⟩
    · rw [if_pos herr]
      exact Or.inl herr
    rw [if_neg (hst₁ ▸ not_efiError_success)]
    have hbuf : (fillPiece e name img k left w).fillBuf =
      setMem32 w.fillBuf (fillCount left) (slice img w.image 4) := rfl
    have himage : (fillPiece e name img k left w).image = w.image := rfl
    have hoffset : (fillPiece e name img k left w).offset = w.offset := rfl
    generalize fillPiece e name img k left w = w₁ at *
    have hnext : u64 (w₁.offset + fillCount left) = u64 (off + fillCount left) := by
      rw [hoffset, hoff]
      exact Nat.mod_add_mod off _ _
    refine (ih _ (Nat.sub_lt hpos (fillCount_pos hpos)) (off + fillCount left)
      (w := { w₁ with offset := u64 (w₁.offset + fillCount left) }) hst₁ hnext).imp_right
      fun hrest => ?_
    obtain ⟨xs, hxs, hlays⟩ := hrest.writes
    dsimp only at hxs hlays
    rw [himage, hbuf] at hlays
    refine ⟨hrest.status, ?_, fun i hi => ?_, ⟨h, w.offset, slice (setMem32 w.fillBuf
      (fillCount left) (slice img w.image 4)) 0 (fillCount left)⟩ :: xs, ?_, ?_⟩
    · rw [hrest.offset, Nat.add_assoc, Nat.add_sub_cancel' (fillCount_le left)]
    · rw [hrest.fillBuf i hi]
      dsimp only
      rw [himage, hbuf, setMem32_slice]
      rcases le_or_gt left FILL_BUF_SIZE with hlast | hmore
      · rw [fillCount_last hlast, Nat.sub_self, if_neg (by omega)]
      · have hwhole : i < FILL_BUF_SIZE / 4 * 4 := hi
        rw [fillCount_more hmore, if_pos hwhole, ite_self, if_pos (by omega)]
    · rw [hxs, hwrites, List.append_assoc]
      rfl
    · rw [hoff]
      rcases le_or_gt left FILL_BUF_SIZE with hlast | hmore
      · rw [fillCount_last hlast, Nat.sub_self] at hlays
        rw [fillCount_last hlast]
        refine lays_last w.fillBuf htarget hpos hlast (hlays.mpr ⟨?_, Or.inr fun i _ hi => ?_⟩)
        · exact fun h => absurd h (lt_irrefl 0)
        · exact absurd hi (Nat.not_lt_zero i)
      · rw [fillCount_more hmore] at hlays ⊢
        exact lays_more w.fillBuf htarget hmore hlays

end UefiToolkit.SparseFill
