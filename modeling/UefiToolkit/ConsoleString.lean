import UefiToolkit.ArgsModel

/-!
Appending to a string that grows, as `ConsoleStrnCatGrow` does it.

A pool string is kept without its terminator; `NULL` is `none`. The pool answers whether it has
so many bytes.
-/

namespace UefiToolkit.ConsoleString

open UefiToolkit.ArgsModel

/-- `StrSize`, the bytes of a string with its terminator. -/
def strSize (s : Str) : ℕ := 2 * (s.length + 1)

/-- `StrnCatS` to a buffer of `destMax` characters; what does not fit leaves it alone. -/
def strnCatS (limit : ℕ) (destination : Str) (destMax : ℕ) (source : Str) (n : ℕ) : Str :=
  if limit < destMax ∨ limit < n then destination
  else if destMax ≤ destination.length + (source.take n).length then destination
  else destination ++ source.take n

/-- `while (NewSize < Need) NewSize += 2 * Count * sizeof (CHAR16)`. -/
def growSize (need count newSize : ℕ) : ℕ :=
  if newSize < need ∧ 0 < count then growSize need count (newSize + 2 * count * 2) else newSize
termination_by need - newSize

variable {ε : Type} (allocate : ε → ℕ → Bool × ε)

/-- A `count` of zero takes all of the source. Without a size the string is a new one. -/
def strnCatGrow (limit : ℕ) (destination : Option Str) (currentSize : Option ℕ) (source : Str)
    (count : ℕ) (env : ε) : Option Str × Option ℕ × ε :=
  let destination := if currentSize = some 0 then none else destination
  let startSize := (destination.map strSize).getD 0
  let count := if count = 0 then source.length else count
  match currentSize with
  | some size =>
    let need := startSize + count * 2
    if size < need then
      let newSize := growSize need count size
      let (allocated, env) := allocate env newSize
      let destination := if allocated then some (destination.getD []) else none
      (destination.map fun d => strnCatS limit d (newSize / 2) source count, some newSize, env)
    else (destination.map fun d => strnCatS limit d (size / 2) source count, some size, env)
  | none =>
    let newSize := (count + 1) * 2
    let (allocated, env) := allocate env newSize
    (if allocated then some (strnCatS limit [] (newSize / 2) source count) else none, none, env)

/-- The beginning of a string becomes a new one, unless it is too long for the string functions. -/
lemma strnCatGrow_new {allocate : ε → ℕ → Bool × ε} (h : ∀ env n, (allocate env n).1 = true)
    (limit : ℕ) (source : Str) (count : ℕ) (env : ε) :
    (strnCatGrow allocate limit none none source count env).1 =
      some (if (if count = 0 then source.length else count) < limit then
        source.take (if count = 0 then source.length else count) else []) := by
  unfold strnCatGrow strnCatS
  generalize (if count = 0 then source.length else count) = n
  have hlen : (source.take n).length ≤ n := List.length_take_le n source
  have hhalf : (n + 1) * 2 / 2 = n + 1 := by omega
  rw [if_neg (by simp)]
  simp only [h env _, if_true, hhalf]
  by_cases hn : n < limit
  · rw [if_neg (by omega), if_neg (by simp), if_pos hn, List.nil_append]
  · rw [if_pos (by omega), if_neg hn]

end UefiToolkit.ConsoleString
