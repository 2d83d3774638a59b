import UefiToolkit.RsaProduct

/-!
What a signature check accepts: for a public key in its format, the signatures whose power is the
padded hash.
-/

namespace UefiToolkit.RsaVerify

open UefiToolkit.Mem UefiToolkit.Word UefiToolkit.AvbUtil UefiToolkit.Limbs
open UefiToolkit.RsaModel UefiToolkit.RsaProduct

variable {key : IAvbKey}

/-! ### Powers -/

/-- A modulus with an inverse has no factor in common with the base. -/
lemma coprime_base (h : HasInverse key) (hlen : 0 < key.len) :
    Nat.Coprime (val key.n key.len) (base ^ key.len) := by
  obtain ⟨m, hm⟩ : ∃ m, key.len = m + 1 := ⟨key.len - 1, by omega⟩
  have hodd : (key.n 0).toNat % 2 = 1 := by
    have hval := congrArg UInt32.toNat (show key.n0inv * key.n 0 = -1 from h)
    rw [UInt32.toNat_mul, show (-1 : UInt32).toNat = 2 ^ 32 - 1 from rfl] at hval
    rcases Nat.mod_two_eq_zero_or_one (key.n 0).toNat with h0 | h1
    · obtain ⟨q, hq⟩ := Nat.dvd_of_mod_eq_zero h0
      rw [hq, show key.n0inv.toNat * (2 * q) = 2 * (key.n0inv.toNat * q) by ring] at hval
      omega
    · exact h1
  refine Nat.Coprime.pow_right _ ?_
  rw [base]
  refine Nat.Coprime.pow_right _ (Nat.coprime_two_right.mpr (Nat.odd_iff.mpr ?_))
  rw [val, hm, value_succ', base]
  omega

/-- The two squarings of one round. -/
def squares (key : IAvbKey) (aR : Words) : Words :=
  montMul key (montMul key aR aR) (montMul key aR aR)

lemma squares_mont (h : HasInverse key) (hlen : 0 < key.len) {u : ℕ} {aR : Words}
    (ha : Mont (val key.n key.len) (base ^ key.len) u (val aR key.len)) :
    Mont (val key.n key.len) (base ^ key.len) (u ^ 4) (val (squares key aR) key.len) := by
  have hr := coprime_base h hlen
  have hsq := (montMul_spec h hlen aR aR).mul hr ha ha
  have hfourth := (montMul_spec h hlen (montMul key aR aR) (montMul key aR aR)).mul hr hsq hsq
  rwa [show u * u * (u * u) = u ^ 4 by ring] at hfourth

/-- **The power** of the number in `a`. -/
lemma power_spec (h : HasInverse key) (hlen : 0 < key.len)
    (hrr : val key.rr key.len ≡ base ^ key.len * base ^ key.len [MOD val key.n key.len])
    (a : Words) :
    val (montMul key ((List.range 8).foldl (fun aR _ => squares key aR) (montMul key a key.rr)) a)
      key.len ≡ val a key.len ^ 65537 [MOD val key.n key.len] := by
  have hr := coprime_base h hlen
  have hloop : ∀ k, Mont (val key.n key.len) (base ^ key.len) (val a key.len ^ 4 ^ k)
      (val ((List.range k).foldl (fun aR _ => squares key aR) (montMul key a key.rr))
        key.len) := by
    intro k
    induction k with
    | zero =>
      rw [pow_zero, pow_one]
      exact (montMul_spec h hlen a key.rr).enter hr hrr
    | succ k ih =>
      rw [List.range_succ, List.foldl_append, pow_succ, pow_mul]
      exact squares_mont h hlen ih
  have hleave := (montMul_spec h hlen _ a).leave hr (hloop 8)
  rwa [show val a key.len ^ 4 ^ 8 * val a key.len = val a key.len ^ 65537 by
    rw [← pow_succ, show 4 ^ 8 + 1 = 65537 from rfl]] at hleave

/-- The last subtraction gives the remainder, if the modulus has its top bit set. -/
lemma reduce_spec (htop : base ^ key.len ≤ 2 * val key.n key.len) (a : Words) :
    val (if geM key a then subM key a else a) key.len = val a key.len % val key.n key.len := by
  have ha := val_lt a key.len
  rw [geM_eq]
  by_cases hge : val key.n key.len ≤ val a key.len
  · rw [if_pos (decide_eq_true hge)]
    have hsub := subM_spec key a
    rw [if_neg (by omega)] at hsub
    rw [Nat.mod_eq_sub_mod hge, Nat.mod_eq_of_lt (by omega)]
    omega
  · rw [if_neg (by simpa using hge), Nat.mod_eq_of_lt (by omega)]

/-! ### Bytes -/

/-- Words read from the end of a big-endian number hold it. -/
lemma val_be32toh (d : ℕ → UInt8) (a k : ℕ) :
    val ⟨fun i => be32toh d (a + 4 * (k - 1 - i))⟩ k = beValue (slice d a (4 * k)) := by
  induction k generalizing a with
  | zero => rfl
  | succ k ih =>
    have hlow : val ⟨fun i => be32toh d (a + 4 * (k + 1 - 1 - i))⟩ k =
        val ⟨fun i => be32toh d (a + 4 + 4 * (k - 1 - i))⟩ k :=
      val_congr fun i hi => congrArg (be32toh d) (by omega)
    have htop : (⟨fun i => be32toh d (a + 4 * (k + 1 - 1 - i))⟩ : Words) k = be32toh d a :=
      congrArg (be32toh d) (by omega)
    rw [val_succ, hlow, htop, ih, show 4 * (k + 1) = 4 + 4 * k by ring, slice_add, beValue_append,
      slice_length, be32toh_toNat, base, Nat.add_comm, pow_mul, show (2 ^ 8) ^ 4 = 2 ^ 32 from rfl]

/-- Words written from the last to the first. -/
lemma flatMap_beBytes (f : Words) (k : ℕ) :
    ((List.range k).reverse.flatMap fun i => beBytes (f i)).length = 4 * k ∧
      beValue ((List.range k).reverse.flatMap fun i => beBytes (f i)) = val f k := by
  induction k with
  | zero => exact ⟨rfl, rfl⟩
  | succ k ih =>
    obtain ⟨hlen, hval⟩ := ih
    rw [List.range_succ, List.reverse_append, List.reverse_singleton, List.singleton_append,
      List.flatMap_cons, List.length_append, beValue_append, hlen, hval, beBytes_toNat, val_succ,
      base, pow_mul, show (2 ^ 8) ^ 4 = 2 ^ 32 from rfl]
    exact ⟨by simp [beBytes]; omega, Nat.add_comm _ _⟩

/-! ### Signatures -/

/-- A public key in its format: the size of the modulus, its inverse, the modulus and the square of
what its words can hold. -/
structure PublicKey (key : List UInt8) (bits N : ℕ) : Prop where
  size : beValue (key.take 4) = bits
  supported : bits = 2048 ∨ bits = 4096 ∨ bits = 8192
  length : key.length = 8 + 2 * (bits / 8)
  inverse : (beValue ((key.drop 4).take 4) * N + 1) % 2 ^ 32 = 0
  modulus : beValue ((key.drop 8).take (bits / 8)) = N
  square : beValue (key.drop (8 + bits / 8)) ≡ 2 ^ bits * 2 ^ bits [MOD N]
  top : 2 ^ bits ≤ 2 * N

/-- What a public key is parsed to. -/
lemma PublicKey.parse {data : List UInt8} {bits N : ℕ} (h : PublicKey data bits N) :
    ∃ key, parseKeyData true data = some key ∧ key.len = bits / 32 ∧ HasInverse key ∧
      val key.n key.len = N ∧
      val key.rr key.len ≡ base ^ key.len * base ^ key.len [MOD N] := by
  obtain ⟨hbits, hsupported, hlength, hinverse, hmodulus, hsquare, -⟩ := h
  have hwords : ∃ k, bits = 32 * k ∧ 0 < k := by
    rcases hsupported with rfl | rfl | rfl
    · exact ⟨64, rfl, by omega⟩
    · exact ⟨128, rfl, by omega⟩
    · exact ⟨256, rfl, by omega⟩
  obtain ⟨k, rfl, hk⟩ := hwords
  have hbytes : 32 * k / 8 = 4 * k := by omega
  rw [hbytes] at hlength hmodulus hsquare
  set d := fun i => data.getD i 0 with hd
  have hnum : (be32toh d 0).toNat = 32 * k := by
    rw [be32toh_toNat, slice_getD (by omega)]
    exact hbits
  have hwords (a : ℕ) : val ⟨fun i => be32toh d (a + 4 * (k - i - 1))⟩ k =
      beValue (slice d a (4 * k)) := by
    rw [← val_be32toh]
    exact val_congr fun i _ => congrArg (be32toh d) (by omega)
  have hparse : parseKeyData true data = some
      { len := k
        n0inv := be32toh d 4
        n := ⟨fun i => be32toh d (8 + 4 * (k - i - 1))⟩
        rr := ⟨fun i => be32toh d (8 + 4 * k + 4 * (k - i - 1))⟩ } := by
    have hn : (be32toh (fun i => data.getD i 0) 0).toNat = 32 * k := hnum
    simp only [parseKeyData, hn, rsaHeaderSize, hbytes,
      Nat.mul_div_cancel_left k (show 0 < 32 by omega)]
    rw [if_neg (not_not.mpr hsupported), if_neg (by omega)]
    rfl
  refine ⟨_, hparse, by simp only; omega, ?_, ?_, ?_⟩
  · have hlow : (be32toh d (8 + 4 * (k - 0 - 1))).toNat = N % 2 ^ 32 := by
      rw [← hmodulus, ← slice_getD (by omega), ← hwords, val, show k = k - 1 + 1 by omega,
        value_succ', base]
      simp only [Nat.add_mul_mod_self_left]
      exact (Nat.mod_eq_of_lt (UInt32.toNat_lt _)).symm
    have hinv : (be32toh d 4).toNat = beValue ((data.drop 4).take 4) := by
      rw [be32toh_toNat, slice_getD (by omega)]
    refine UInt32.toNat_inj.mp ?_
    rw [UInt32.toNat_mul]
    show (be32toh d 4).toNat * (be32toh d (8 + 4 * (k - 0 - 1))).toNat % 2 ^ 32 = 2 ^ 32 - 1
    rw [hlow, hinv, Nat.mul_mod_mod]
    generalize beValue ((data.drop 4).take 4) * N = q at hinverse ⊢
    omega
  · rw [hwords, hd, slice_getD (by omega)]
    exact hmodulus
  · rw [hwords, hd, slice_getD (by omega), List.take_of_length_le (by simp; omega), base, ← pow_mul]
    exact hsquare

/-- The number that is compared with the padded hash; without memory for the words it is the
signature itself. -/
def opened (words : Fin 3 → Bool) (N s : ℕ) : ℕ :=
  if ∀ i, words i = true then s ^ 65537 % N else s

/-- **The power of a signature**, in bytes. -/
lemma modpowF4_spec (h : HasInverse key) (hlen : 0 < key.len)
    (hrr : val key.rr key.len ≡ base ^ key.len * base ^ key.len [MOD val key.n key.len])
    (htop : base ^ key.len ≤ 2 * val key.n key.len) (words : Fin 3 → Bool) {sig : List UInt8}
    (hsig : sig.length = 4 * key.len) :
    (modpowF4 key words sig).length = 4 * key.len ∧
      beValue (modpowF4 key words sig) = opened words (val key.n key.len) (beValue sig) := by
  have hall : (∀ i, words i = true) ↔ (words 0 && words 1 && words 2) = true := by
    simp [Fin.forall_fin_succ, and_assoc]
  unfold modpowF4 opened
  by_cases hw : ∀ i, words i = true
  · rw [if_pos (hall.mp hw), if_pos hw]
    set a : Words := ⟨fun i => be32toh (fun i => sig.getD i 0) (4 * (key.len - 1 - i))⟩ with ha
    obtain ⟨hlength, hval⟩ := flatMap_beBytes
      (if geM key (montMul key
          ((List.range 8).foldl (fun aR _ => squares key aR) (montMul key a key.rr)) a) then
        subM key (montMul key
          ((List.range 8).foldl (fun aR _ => squares key aR) (montMul key a key.rr)) a)
      else montMul key
        ((List.range 8).foldl (fun aR _ => squares key aR) (montMul key a key.rr)) a) key.len
    refine ⟨hlength, hval.trans ?_⟩
    have hsigval : val a key.len = beValue sig := by
      have hread := val_be32toh (fun i => sig.getD i 0) 0 key.len
      simp only [Nat.zero_add] at hread
      rw [ha, hread, slice_getD (by omega), List.drop_zero, List.take_of_length_le (by omega)]
    rw [reduce_spec htop, ← hsigval]
    exact power_spec h hlen hrr a
  · rw [if_neg (fun h => hw (hall.mpr h)), if_neg hw]
    exact ⟨hsig, rfl⟩

/-- **A signature check accepts** exactly the signatures of the size of the key whose power modulo
the key's number is the padded hash; but when there is no memory for the power, it accepts the
padded hash itself. -/
theorem avbRsaVerify_iff {key : List UInt8} {bits N : ℕ} (hkey : PublicKey key bits N)
    (heap : RsaHeap) {sig hash padding : List UInt8} (hhash : hash.length ≤ bits / 8) :
    avbRsaVerify heap (some key) (some sig) (some hash) (some padding) = true ↔
      heap.key = true ∧ heap.buf = true ∧ sig.length = bits / 8 ∧
        padding.length + hash.length = bits / 8 ∧
        opened heap.words N (beValue sig) = beValue (padding ++ hash) := by
  obtain ⟨parsedKey, hparse, hlen, hinv, hn, hrr⟩ := hkey.parse
  have hsupported := hkey.supported
  have htop := hkey.top
  have hbits : bits / 8 = 4 * parsedKey.len := by omega
  have hpos : 0 < parsedKey.len := by omega
  rw [hbits] at hhash ⊢
  rcases hmem : heap.key with _ | _
  · have hnone : parseKeyData false key = none := by
      unfold parseKeyData
      split_ifs <;> simp_all
    simp [avbRsaVerify, hmem, hnone]
  simp only [avbRsaVerify, hmem, hparse, true_and]
  by_cases hsig : sig.length = 4 * parsedKey.len
  · rw [if_neg (by omega)]
    have hsub : sub64 sig.length hash.length = sig.length - hash.length :=
      sub64_of_le (by omega) (by omega)
    by_cases hpad : padding.length + hash.length = 4 * parsedKey.len
    · rw [if_neg (by omega)]
      rcases hbuf : heap.buf with _ | _
      · simp
      have hbase : base ^ parsedKey.len = 2 ^ bits := by
        rw [base, ← pow_mul]
        congr 1
        omega
      obtain ⟨hlength, hval⟩ := modpowF4_spec hinv hpos (hn.symm ▸ hrr)
        (by rw [hn, hbase]; exact htop) heap.words hsig
      rw [hn] at hval
      set buf := modpowF4 parsedKey heap.words sig with hbufdef
      have hfirst : avbSafeMemcmp (buf.take padding.length) padding =
          decide (buf.take padding.length ≠ padding) := avbSafeMemcmp_eq (by simp; omega)
      have hsecond : avbSafeMemcmp (buf.drop padding.length) hash =
          decide (buf.drop padding.length ≠ hash) := avbSafeMemcmp_eq (by simp; omega)
      have hsame : buf = padding ++ hash ↔
          buf.take padding.length = padding ∧ buf.drop padding.length = hash := by
        constructor
        · intro h
          rw [h]
          exact ⟨List.take_left, List.drop_left⟩
        · rintro ⟨h1, h2⟩
          rw [← List.take_append_drop padding.length buf, h1, h2]
      have hvalue : opened heap.words N (beValue sig) = beValue (padding ++ hash) ↔
          buf = padding ++ hash := by
        rw [← hval]
        exact ⟨beValue_inj (by rw [hlength, List.length_append, hpad]), congrArg beValue⟩
      rw [hvalue, hsame, hfirst, hsecond]
      simp [hsig, hpad]
    · rw [if_pos (by omega)]
      simp [hpad]
  · rw [if_pos (by omega)]
    simp [hsig]

/-- The key for the largest number of 2048 bits. -/
def onesKey : List UInt8 :=
  [0, 0, 8, 0, 0, 0, 0, 1] ++ List.replicate 256 0xFF ++ List.replicate 255 0 ++ [1]

lemma onesKey_public : PublicKey onesKey 2048 (2 ^ 2048 - 1) where
  size := by decide +kernel
  supported := Or.inl rfl
  length := by decide +kernel
  inverse := by decide +kernel
  modulus := by decide +kernel
  square := by
    rw [Nat.ModEq]
    decide +kernel
  top := by decide +kernel

theorem avbRsaVerify_iff_ones :
    avbRsaVerify ⟨true, true, fun _ => true⟩ (some onesKey) (some (List.replicate 256 0))
        (some (List.replicate 32 0)) (some (List.replicate 224 0)) = true ↔
      true = true ∧ true = true ∧ (List.replicate 256 (0 : UInt8)).length = 2048 / 8 ∧
        (List.replicate 224 (0 : UInt8)).length + (List.replicate 32 (0 : UInt8)).length =
          2048 / 8 ∧
        opened (fun _ => true) (2 ^ 2048 - 1) (beValue (List.replicate 256 0)) =
          beValue (List.replicate 224 0 ++ List.replicate 32 0) :=
  avbRsaVerify_iff onesKey_public ⟨true, true, fun _ => true⟩ (by simp)

end UefiToolkit.RsaVerify
