import Mathlib

/-!
Unsigned machine arithmetic on natural numbers, and EFI status codes.
-/

namespace UefiToolkit.Word

/-- A value stored into a `UINT8`. -/
def u8 (n : ℕ) : ℕ := n % 2 ^ 8

/-- A value stored into a `UINT16`. -/
def u16 (n : ℕ) : ℕ := n % 2 ^ 16

/-- A value stored into a `UINT32`. -/
def u32 (n : ℕ) : ℕ := n % 2 ^ 32

/-- A value stored into a `UINT64`, or into a `UINTN` of a 64-bit build. -/
def u64 (n : ℕ) : ℕ := n % 2 ^ 64

/-- Subtraction at 32 bits. -/
def sub32 (a b : ℕ) : ℕ := u32 (2 ^ 32 - u32 b + a)

/-- Subtraction at 64 bits. -/
def sub64 (a b : ℕ) : ℕ := u64 (2 ^ 64 - u64 b + a)

/-- Addition at 64 bits. -/
def add64 (a b : ℕ) : ℕ := u64 (a + b)

/-- Multiplication at 64 bits. -/
def mul64 (a b : ℕ) : ℕ := u64 (a * b)

lemma u16_of_lt {n : ℕ} (h : n < 2 ^ 16) : u16 n = n := Nat.mod_eq_of_lt h
lemma u32_of_lt {n : ℕ} (h : n < 2 ^ 32) : u32 n = n := Nat.mod_eq_of_lt h
lemma u64_of_lt {n : ℕ} (h : n < 2 ^ 64) : u64 n = n := Nat.mod_eq_of_lt h

lemma u32_succ {n : ℕ} (h : n + 1 < 2 ^ 32) : u32 (u32 n + 1) = n + 1 := by
  rw [u32_of_lt (by omega : n < 2 ^ 32), u32_of_lt h]

lemma sub32_of_le {a b : ℕ} (ha : a < 2 ^ 32) (h : b ≤ a) : sub32 a b = a - b := by
  unfold sub32 u32; omega

lemma sub64_of_le {a b : ℕ} (ha : a < 2 ^ 64) (h : b ≤ a) : sub64 a b = a - b := by
  unfold sub64 u64; omega

lemma sub64_lt (a b : ℕ) : sub64 a b < 2 ^ 64 := Nat.mod_lt _ (by norm_num)

/-! ### Status codes -/

/-- An `EFI_STATUS`: a 64-bit value, an error when its top bit is set. -/
abbrev Status := ℕ

def MAX_BIT : Status := 2 ^ 63

/-- `EFI_ERROR (Status)`. -/
def efiError (s : Status) : Bool := decide (MAX_BIT ≤ s)

def EFI_SUCCESS : Status := 0
def EFI_INVALID_PARAMETER : Status := MAX_BIT + 2
def EFI_UNSUPPORTED : Status := MAX_BIT + 3
def EFI_BAD_BUFFER_SIZE : Status := MAX_BIT + 4
def EFI_BUFFER_TOO_SMALL : Status := MAX_BIT + 5
def EFI_NOT_READY : Status := MAX_BIT + 6
def EFI_DEVICE_ERROR : Status := MAX_BIT + 7
def EFI_WRITE_PROTECTED : Status := MAX_BIT + 8
def EFI_OUT_OF_RESOURCES : Status := MAX_BIT + 9
def EFI_VOLUME_CORRUPTED : Status := MAX_BIT + 10
def EFI_VOLUME_FULL : Status := MAX_BIT + 11
def EFI_NOT_FOUND : Status := MAX_BIT + 14

@[simp] lemma efiError_success : efiError EFI_SUCCESS = false := rfl

lemma not_efiError_success : ¬ efiError EFI_SUCCESS = true := Bool.false_ne_true

lemma efiError_maxBit (n : ℕ) : efiError (MAX_BIT + n) = true :=
  decide_eq_true (Nat.le_add_right MAX_BIT n)

lemma efiError_ne_success {s : Status} (h : efiError s = true) : s ≠ EFI_SUCCESS := by
  rintro rfl; simp at h

end UefiToolkit.Word
