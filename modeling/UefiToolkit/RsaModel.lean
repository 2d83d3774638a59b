import UefiToolkit.AvbUtil
import UefiToolkit.Word

/-!
The RSA signatures of `libavb`: a public key with values computed beforehand, products in
Montgomery's form, and the check of a padded hash.

Words stand in arrays, the least significant one first; keys and signatures are big-endian.
-/

namespace UefiToolkit.RsaModel

open UefiToolkit.Mem UefiToolkit.AvbUtil UefiToolkit.Word

/-- An array of words. -/
structure Words where
  word : ℕ → UInt32

instance : CoeFun Words fun _ => ℕ → UInt32 := ⟨Words.word⟩

/-- Write one word. -/
def Words.set (w : Words) (i : ℕ) (v : UInt32) : Words := ⟨put w i v⟩

@[simp] lemma Words.set_self (w : Words) (i : ℕ) (v : UInt32) : w.set i v i = v := put_self _ _ _

lemma Words.set_ne (w : Words) {i j : ℕ} (v : UInt32) (h : j ≠ i) : w.set i v j = w j :=
  put_ne _ v h

/-- `IAvbKey`. -/
structure IAvbKey where
  len : ℕ
  n0inv : UInt32
  n : Words
  rr : Words

/-- `sizeof (AvbRSAPublicKeyHeader)`. -/
def rsaHeaderSize : ℕ := 8

/-- `iavb_parse_key_data`, if `allocates` there is memory. What is read behind the end of a key that
is too short does not matter: such a key is refused. -/
def parseKeyData (allocates : Bool) (data : List UInt8) : Option IAvbKey :=
  let d := fun i => data.getD i 0
  let keyNumBits := (be32toh d 0).toNat
  if ¬ (keyNumBits = 2048 ∨ keyNumBits = 4096 ∨ keyNumBits = 8192) then none
  else if data.length ≠ rsaHeaderSize + 2 * keyNumBits / 8 then none
  else if !allocates then none
  else
    let len := keyNumBits / 32
    let n := rsaHeaderSize
    let rr := rsaHeaderSize + keyNumBits / 8
    some { len := len
           n0inv := be32toh d 4
           n := ⟨fun i => be32toh d (n + 4 * (len - i - 1))⟩
           rr := ⟨fun i => be32toh d (rr + 4 * (len - i - 1))⟩ }

/-- `a[] -= mod`; the borrow is an `int64_t`. -/
def subM (key : IAvbKey) (a : Words) : Words :=
  ((List.range key.len).foldl (fun (s : ℤ × Words) i =>
    let A := s.1 + (s.2 i).toNat - (key.n i).toNat
    (A / 2 ^ 32, s.2.set i (UInt32.ofInt A))) (0, a)).2

/-- Whether the `i` low words of `a` are at least those of the modulus. -/
def geWords (key : IAvbKey) (a : Words) : ℕ → Bool
  | 0 => true
  | i + 1 => if a i < key.n i then false else if key.n i < a i then true else geWords key a i

def geM (key : IAvbKey) (a : Words) : Bool := geWords key a key.len

/-- What goes round in the loop of `montMulAdd`. -/
structure Row where
  A : UInt64
  B : UInt64
  c : Words

/-- The round for the words `i`. -/
def row (key : IAvbKey) (a d0 : UInt32) (b : Words) (s : Row) (i : ℕ) : Row :=
  let A := (s.A >>> 32) + a.toUInt64 * (b i).toUInt64 + (s.c i).toUInt64
  let B := (s.B >>> 32) + d0.toUInt64 * (key.n i).toUInt64 + A.toUInt32.toUInt64
  ⟨A, B, s.c.set (i - 1) B.toUInt32⟩

/-- `c[] += a * b[] / R % mod` in Montgomery's form. -/
def montMulAdd (key : IAvbKey) (c : Words) (a : UInt32) (b : Words) : Words :=
  let A := a.toUInt64 * (b 0).toUInt64 + (c 0).toUInt64
  let d0 := A.toUInt32 * key.n0inv
  let B := d0.toUInt64 * (key.n 0).toUInt64 + A.toUInt32.toUInt64
  let s := (List.range' 1 (key.len - 1)).foldl (row key a d0 b) ⟨A, B, c⟩
  let A := (s.A >>> 32) + (s.B >>> 32)
  let c := s.c.set (key.len - 1) A.toUInt32
  if A >>> 32 ≠ 0 then subM key c else c

/-- `c[] = a[] * b[] / R % mod` in Montgomery's form. -/
def montMul (key : IAvbKey) (a b : Words) : Words :=
  (List.range key.len).foldl (fun c i => montMulAdd key c (a i) b) ⟨fun _ => 0⟩

/-- The three arrays; `inout` is left as it is if there is no memory for one of them. -/
def modpowF4 (key : IAvbKey) (allocates : Fin 3 → Bool) (inout : List UInt8) : List UInt8 :=
  if allocates 0 && allocates 1 && allocates 2 then
    let a := ⟨fun i => be32toh (fun i => inout.getD i 0) (4 * (key.len - 1 - i))⟩
    let aR := montMul key a key.rr
    let aR := (List.range 8).foldl (fun aR _ =>
      let aaR := montMul key aR aR
      montMul key aaR aaR) aR
    let aaa := montMul key aR a
    let aaa := if geM key aaa then subM key aaa else aaa
    (List.range key.len).reverse.flatMap fun i => beBytes (aaa i)
  else inout

/-- The memory that one verification asks for. -/
structure RsaHeap where
  key : Bool
  buf : Bool
  words : Fin 3 → Bool

/-- `avb_rsa_verify`. -/
def avbRsaVerify (heap : RsaHeap) (key sig hash padding : Option (List UInt8)) : Bool :=
  match key, sig, hash, padding with
  | some key, some sig, some hash, some padding =>
    match parseKeyData heap.key key with
    | none => false
    | some parsedKey =>
      if sig.length ≠ parsedKey.len * 4 then false
      else if padding.length ≠ sub64 sig.length hash.length then false
      else if !heap.buf then false
      else
        let buf := modpowF4 parsedKey heap.words sig
        if avbSafeMemcmp (buf.take padding.length) padding then false
        else if avbSafeMemcmp (buf.drop padding.length) hash then false
        else true
  | _, _, _, _ => false

end UefiToolkit.RsaModel
