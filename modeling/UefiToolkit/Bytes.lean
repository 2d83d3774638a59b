import UefiToolkit.Mem

/-!
Little-endian values in a memory of bytes.
-/

namespace UefiToolkit.Bytes

open UefiToolkit.Mem

/-- The little-endian bytes of a 32-bit value. -/
def le32 (v : ℕ) : List UInt8 :=
  [UInt8.ofNat v, UInt8.ofNat (v / 2 ^ 8), UInt8.ofNat (v / 2 ^ 16), UInt8.ofNat (v / 2 ^ 24)]

/-- The 32-bit value at address `a`. -/
def word32 (m : ℕ → UInt8) (a : ℕ) : ℕ :=
  (m a).toNat + 2 ^ 8 * (m (a + 1)).toNat + 2 ^ 16 * (m (a + 2)).toNat +
    2 ^ 24 * (m (a + 3)).toNat

/-- The 16-bit value at address `a`. -/
def word16 (m : ℕ → UInt8) (a : ℕ) : ℕ := (m a).toNat + 2 ^ 8 * (m (a + 1)).toNat

/-- The 64-bit value at address `a`. -/
def word64 (m : ℕ → UInt8) (a : ℕ) : ℕ := word32 m a + 2 ^ 32 * word32 m (a + 4)

lemma word32_lt (m : ℕ → UInt8) (a : ℕ) : word32 m a < 2 ^ 32 := by
  have h0 := (m a).toNat_lt
  have h1 := (m (a + 1)).toNat_lt
  have h2 := (m (a + 2)).toNat_lt
  have h3 := (m (a + 3)).toNat_lt
  unfold word32; omega

lemma word32_congr {m m' : ℕ → UInt8} {a b : ℕ} (h : ∀ i < 4, m (a + i) = m' (b + i)) :
    word32 m a = word32 m' b := by
  unfold word32
  have h0 := h 0 (by omega)
  rw [Nat.add_zero, Nat.add_zero] at h0
  rw [h0, h 1 (by omega), h 2 (by omega), h 3 (by omega)]

lemma word64_congr {m m' : ℕ → UInt8} {a b : ℕ} (h : ∀ i < 8, m (a + i) = m' (b + i)) :
    word64 m a = word64 m' b := by
  have hlow : word32 m a = word32 m' b := word32_congr fun i hi => h i (by omega)
  have hhigh : word32 m (a + 4) = word32 m' (b + 4) := word32_congr fun i hi => by
    rw [Nat.add_assoc, Nat.add_assoc]
    exact h (4 + i) (by omega)
  rw [word64, word64, hlow, hhigh]

lemma word32_blit_out (m : ℕ → UInt8) {a b : ℕ} {l : List UInt8}
    (h : b + 4 ≤ a ∨ a + l.length ≤ b) : word32 (blit m a l) b = word32 m b :=
  word32_congr fun i hi => blit_out m (by omega)

lemma word32_le32 (m : ℕ → UInt8) (a : ℕ) {v : ℕ} (h : v < 2 ^ 32) :
    word32 (blit m a (le32 v)) a = v := by
  have h0 := blit_in m a (l := le32 v) (k := 0) (by simp [le32])
  have h1 := blit_in m a (l := le32 v) (k := 1) (by simp [le32])
  have h2 := blit_in m a (l := le32 v) (k := 2) (by simp [le32])
  have h3 := blit_in m a (l := le32 v) (k := 3) (by simp [le32])
  rw [Nat.add_zero] at h0
  unfold word32
  rw [h0, h1, h2, h3]
  simp [le32]
  omega

/-- The little-endian bytes of a 64-bit value. -/
def le64 (v : ℕ) : List UInt8 := le32 (v % 2 ^ 32) ++ le32 (v / 2 ^ 32)

lemma word64_blit_out (m : ℕ → UInt8) {a b : ℕ} {l : List UInt8}
    (h : b + 8 ≤ a ∨ a + l.length ≤ b) : word64 (blit m a l) b = word64 m b :=
  word64_congr fun i hi => blit_out m (by omega)

lemma word64_le64 (m : ℕ → UInt8) (a : ℕ) {v : ℕ} (h : v < 2 ^ 64) :
    word64 (blit m a (le64 v)) a = v := by
  have hlen : (le32 (v % 2 ^ 32)).length = 4 := rfl
  unfold word64 le64
  rw [← blit_append, hlen, word32_blit_out _ (Or.inl le_rfl),
    word32_le32 _ _ (Nat.mod_lt _ (by decide)), word32_le32 _ _ (by omega)]
  omega

end UefiToolkit.Bytes
