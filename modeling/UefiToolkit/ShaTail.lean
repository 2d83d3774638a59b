import UefiToolkit.ShaModel

/-!
What SHA-512 gives where only one word of eight is copied: the other words of the digest are those
that the memory of the context held before, moved by an amount that does not depend on them.
-/

namespace UefiToolkit.ShaTail

open UefiToolkit.Mem UefiToolkit.AvbUtil UefiToolkit.ShaModel

variable {d : ℕ → UInt64} {h h' : Vector UInt64 8}

/-- The words are moved, but the first one stays. -/
structure Moved (d : ℕ → UInt64) (h h' : Vector UInt64 8) : Prop where
  first : d 0 = 0
  words : ∀ j (hj : j < 8), h'.get ⟨j, hj⟩ = h.get ⟨j, hj⟩ + d j

/-- The variables of the rounds take only the first word. -/
lemma Moved.copyWord (hm : Moved d h h') (wv : Vector UInt64 8) :
    copyWord wv h' = copyWord wv h := by
  have hfirst := hm.words 0 (by omega)
  rw [hm.first, UInt64.add_zero, Vector.get_eq_getElem, Vector.get_eq_getElem] at hfirst
  rw [ShaModel.copyWord, ShaModel.copyWord, hfirst]

/-- A block moves the words together. -/
lemma Moved.block (hm : Moved d h h') (wv : Vector UInt64 8) (subBlock : ℕ → UInt8) :
    Moved d (sha512Block (h, wv) subBlock).1 (sha512Block (h', wv) subBlock).1 ∧
      (sha512Block (h', wv) subBlock).2 = (sha512Block (h, wv) subBlock).2 := by
  simp only [sha512Block, hm.copyWord wv, and_true]
  generalize runRounds sha512 subBlock (ShaModel.copyWord wv h) = out
  refine ⟨hm.first, fun j hj => ?_⟩
  have hwords := hm.words j hj
  simp only [Vector.get_eq_getElem, Vector.getElem_zipWith] at hwords ⊢
  rw [hwords]
  grind

lemma Moved.transform (hm : Moved d h h') (stack : Vector UInt64 8) (m : ℕ → UInt8) (n : ℕ) :
    Moved d (sha512Transform stack h m n) (sha512Transform stack h' m n) := by
  have hloop : ∀ n, ∀ s s' : Vector UInt64 8 × Vector UInt64 8,
      s = (List.range n).foldl (fun s i => sha512Block s fun j => m (128 * i + j)) (h, stack) →
      s' = (List.range n).foldl (fun s i => sha512Block s fun j => m (128 * i + j)) (h', stack) →
      Moved d s.1 s'.1 ∧ s'.2 = s.2 := by
    intro n
    induction n with
    | zero =>
      rintro _ _ rfl rfl
      exact ⟨hm, rfl⟩
    | succ n ih =>
      rintro _ _ rfl rfl
      obtain ⟨hmoved, hsame⟩ := ih _ _ rfl rfl
      simp only [List.range_succ, List.foldl_append, List.foldl_cons, List.foldl_nil]
      generalize (List.range n).foldl (fun s i => sha512Block s fun j => m (128 * i + j))
        (h, stack) = s at hmoved hsame ⊢
      generalize (List.range n).foldl (fun s i => sha512Block s fun j => m (128 * i + j))
        (h', stack) = s' at hmoved hsame ⊢
      obtain ⟨s1, s2⟩ := s
      obtain ⟨s1', s2'⟩ := s'
      cases hsame
      exact hmoved.block s2 _
  exact (hloop n _ _ rfl rfl).1

/-- Two contexts that differ in what is moved. -/
structure MovedCtx (d : ℕ → UInt64) (c c' : ShaCtx UInt64) : Prop where
  h : Moved d c.h c'.h
  totLen : c'.totLen = c.totLen
  len : c'.len = c.len
  block : c'.block = c.block

lemma MovedCtx.update {c c' : ShaCtx UInt64} (hm : MovedCtx d c c') (stack stack' : Vector UInt64 8)
    (data : List UInt8) :
    MovedCtx d (avbSha512Update stack stack' c data) (avbSha512Update stack stack' c' data) := by
  obtain ⟨hh, htot, hlen, hblock⟩ := hm
  simp only [avbSha512Update, shaUpdate, hlen, hblock, htot]
  generalize (if data.length < Word.sub32 AVB_SHA512_BLOCK_SIZE c.len then data.length
    else Word.sub32 AVB_SHA512_BLOCK_SIZE c.len) = remLen
  split_ifs
  · exact ⟨hh, rfl, rfl, rfl⟩
  · refine ⟨?_, rfl, rfl, rfl⟩
    dsimp only
    exact (hh.transform stack _ 1).transform stack' _ _

lemma MovedCtx.final {c c' : ShaCtx UInt64} (hm : MovedCtx d c c') (stack : Vector UInt64 8) :
    Moved d (shaFinal AVB_SHA512_BLOCK_SIZE 17 (sha512Transform stack) c)
      (shaFinal AVB_SHA512_BLOCK_SIZE 17 (sha512Transform stack) c') := by
  obtain ⟨hh, htot, hlen, hblock⟩ := hm
  simp only [shaFinal, hlen, hblock, htot]
  exact hh.transform _ _ _

/-- The pieces of a message and the variables of the two calls for each. -/
def updates (pieces : List (Vector UInt64 8 × Vector UInt64 8 × List UInt8))
    (c : ShaCtx UInt64) : ShaCtx UInt64 :=
  pieces.foldl (fun ctx p => avbSha512Update p.1 p.2.1 ctx p.2.2) c

lemma MovedCtx.updates (pieces : List (Vector UInt64 8 × Vector UInt64 8 × List UInt8)) :
    ∀ {c c' : ShaCtx UInt64}, MovedCtx d c c' →
      MovedCtx d (ShaTail.updates pieces c) (ShaTail.updates pieces c') := by
  induction pieces with
  | nil => exact id
  | cons p pieces ih => exact fun hm => ih (hm.update p.1 p.2.1 p.2.2)

/-- What the memory holds before moves a context that starts on zeros. -/
lemma MovedCtx.init (hd : d 0 = 0) (block : ℕ → UInt8) :
    MovedCtx d (avbSha512Init (Vector.replicate 8 0) block)
      (avbSha512Init (Vector.ofFn fun j => d j) block) := by
  refine ⟨⟨hd, fun j hj => ?_⟩, rfl, rfl, rfl⟩
  simp only [avbSha512Init, copyWord, Vector.get_eq_getElem]
  by_cases hpos : j = 0
  · subst hpos
    rw [hd, UInt64.add_zero, Vector.getElem_set_self, Vector.getElem_set_self]
  · rw [Vector.getElem_set_ne _ _ (by omega), Vector.getElem_set_ne _ _ (by omega),
      Vector.getElem_ofFn, Vector.getElem_replicate, UInt64.zero_add]

/-! ### The digest -/

/-- The eight bytes of a word. -/
def wordBytes (x : UInt64) : List UInt8 := beBytes (x >>> 32).toUInt32 ++ beBytes x.toUInt32

lemma beValue_wordBytes (x : UInt64) : beValue (wordBytes x) = x.toNat := by
  have hx := x.toNat_lt
  rw [wordBytes, beValue_append, beBytes_toNat, beBytes_toNat, UInt64.toNat_toUInt32,
    UInt64.toNat_toUInt32, UInt64.toNat_shiftRight, Nat.shiftRight_eq_div_pow]
  simp only [UInt64.reduceToNat, Nat.reduceMod, beBytes, List.length_cons, List.length_nil]
  omega

lemma wordBytes_be64toh (b : ℕ → UInt8) (a : ℕ) : wordBytes (be64toh b a) = slice b a 8 :=
  beValue_inj (by simp [wordBytes, beBytes]) (by rw [beValue_wordBytes, be64toh_toNat])

lemma toList_eight {W : Type} (v : Vector W 8) (z : W) :
    v.toList = (List.range 8).map fun j => v.toList.getD j z := by
  refine List.ext_getElem (by simp) fun i h1 h2 => ?_
  rw [List.getElem_map, List.getElem_range, List.getD_eq_getElem _ _ h1]

/-- Seven words make 56 bytes. -/
lemma words_of_bytes {rest : List UInt8} (hrest : rest.length = 56) {b : ℕ → UInt8}
    (hb : b = fun i => rest.getD i 0) :
    slice b 0 8 ++ (slice b 8 8 ++ (slice b 16 8 ++ (slice b 24 8 ++ (slice b 32 8 ++
      (slice b 40 8 ++ slice b 48 8))))) = rest := by
  have hall := slice_getD (l := rest) (a := 0) (n := 8 + (8 + (8 + (8 + (8 + (8 + 8))))))
    (by omega)
  rw [List.drop_zero, List.take_of_length_le (by omega), ← hb, slice_add, slice_add, slice_add,
    slice_add, slice_add, slice_add] at hall
  exact hall

/-- The words of the digest that are wanted are those that the rounds move by the right amount. -/
lemma Moved.wanted {out out' : Vector UInt64 8} (hm : Moved d out out') {j : ℕ} (hj : j < 8)
    {x : UInt64} (hd : d j = x - out.toList.getD j 0) : out'.toList.getD j 0 = x := by
  have hget := hm.words j hj
  simp only [Vector.get_eq_getElem] at hget
  rw [List.getD_eq_getElem _ _ (by simpa using hj), Vector.getElem_toList] at hd ⊢
  rw [hget, hd]
  grind

/-- **The digest of SHA-512** is not that of its message: whatever is hashed, in whatever pieces,
and whatever the variables of each call hold before, all of its bytes but the first eight can be
anything, by what the memory of the context held before. -/
theorem avbSha512_arbitrary (block : ℕ → UInt8)
    (pieces : List (Vector UInt64 8 × Vector UInt64 8 × List UInt8)) (stack : Vector UInt64 8)
    {rest : List UInt8} (hrest : rest.length = 56) :
    ∃ h : Vector UInt64 8,
      (avbSha512Final stack (updates pieces (avbSha512Init h block))).drop 8 = rest := by
  -- the words that are wanted, and those that come from a memory of zeros
  set want : ℕ → UInt64 := fun j => be64toh (fun i => rest.getD i 0) (8 * (j - 1)) with hwant
  set out := shaFinal AVB_SHA512_BLOCK_SIZE 17 (sha512Transform stack)
    (updates pieces (avbSha512Init (Vector.replicate 8 0) block)) with hout
  set d : ℕ → UInt64 := fun j => if j = 0 then 0 else want j - out.toList.getD j 0 with hd
  refine ⟨Vector.ofFn fun j => d j, ?_⟩
  have hmoved := ((MovedCtx.init (d := d) rfl block).updates pieces).final stack
  rw [← hout] at hmoved
  show ((shaFinal AVB_SHA512_BLOCK_SIZE 17 (sha512Transform stack)
    (updates pieces (avbSha512Init (Vector.ofFn fun j => d j) block))).toList.flatMap
      wordBytes).drop 8 = rest
  generalize shaFinal AVB_SHA512_BLOCK_SIZE 17 (sha512Transform stack)
    (updates pieces (avbSha512Init (Vector.ofFn fun j => d j) block)) = out' at hmoved ⊢
  have hword : ∀ j, 0 < j → j < 8 → out'.toList.getD j 0 = want j := fun j hpos hj =>
    hmoved.wanted hj (if_neg (by omega))
  have hdrop : ∀ (x : UInt64) (l : List UInt8), (wordBytes x ++ l).drop 8 = l := fun _ _ => rfl
  rw [toList_eight out' 0]
  simp only [List.range_succ, List.range_zero, List.nil_append, List.cons_append, List.map_cons,
    List.map_nil, List.flatMap_cons, List.flatMap_nil, List.append_nil]
  rw [hdrop, hword 1 (by omega) (by omega), hword 2 (by omega) (by omega),
    hword 3 (by omega) (by omega), hword 4 (by omega) (by omega), hword 5 (by omega) (by omega),
    hword 6 (by omega) (by omega), hword 7 (by omega) (by omega)]
  simp only [hwant, wordBytes_be64toh]
  exact words_of_bytes hrest rfl

/-- The digest of no bytes can end in 56 bytes of ones. -/
theorem avbSha512_arbitrary_ones : ∃ h : Vector UInt64 8,
    (avbSha512Final (Vector.replicate 8 0) (updates [] (avbSha512Init h fun _ => 0))).drop 8 =
      List.replicate 56 0xff :=
  avbSha512_arbitrary (fun _ => 0) [] (Vector.replicate 8 0) List.length_replicate

end UefiToolkit.ShaTail
