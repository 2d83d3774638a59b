import UefiToolkit.AvbUtil
import UefiToolkit.Word

/-!
The hashes of `libavb`. SHA-256 and SHA-512 share how data are gathered into blocks and padded; they
differ in their words and in how a block is taken in.

Sizes are 32-bit values. A message is less than 2 GiB, so that an `int` holds where its blocks
are. An array that a function has not written yet holds what its stack held before.
-/

namespace UefiToolkit.ShaModel

open UefiToolkit.Mem UefiToolkit.Word UefiToolkit.AvbUtil

/-! ### A block -/

section Block

variable {W : Type}

/-- What the words and the rounds of a hash are. -/
structure Kind (W : Type) where
  rounds : ℕ
  pack : (ℕ → UInt8) → ℕ → W
  f1 : W → W
  f2 : W → W
  f3 : W → W
  f4 : W → W
  k : List W

variable [Zero W] [Add W] [AndOp W] [XorOp W] [Complement W] (kind : Kind W)

/-- `CH`. -/
def ch (x y z : W) : W := (x &&& y) ^^^ (~~~x &&& z)

/-- `MAJ`. -/
def maj (x y z : W) : W := (x &&& y) ^^^ (x &&& z) ^^^ (y &&& z)

/-- The words `w` of a block. -/
def schedule (subBlock : ℕ → UInt8) : Array W :=
  let w := (List.range 16).foldl (fun w j => w.push (kind.pack subBlock j)) #[]
  (List.range' 16 (kind.rounds - 16)).foldl (fun w j =>
    w.push (kind.f4 (w.getD (j - 2) 0) + w.getD (j - 7) 0 + kind.f3 (w.getD (j - 15) 0) +
      w.getD (j - 16) 0)) w

/-- One round on the variables `wv`. -/
def round (w : Array W) (wv : Vector W 8) (j : ℕ) : Vector W 8 :=
  let t1 := wv[7] + kind.f2 wv[4] + ch wv[4] wv[5] wv[6] + kind.k.getD j 0 + w.getD j 0
  let t2 := kind.f1 wv[0] + maj wv[0] wv[1] wv[2]
  #v[t1 + t2, wv[0], wv[1], wv[2], wv[3] + t1, wv[4], wv[5], wv[6]]

/-- All rounds for a block. -/
def runRounds (subBlock : ℕ → UInt8) (wv : Vector W 8) : Vector W 8 :=
  let w := schedule kind subBlock
  (List.range kind.rounds).foldl (round kind w) wv

end Block

/-! ### Gathering blocks -/

/-- `AvbSHA256Ctx` and `AvbSHA512Ctx`. -/
structure ShaCtx (W : Type) where
  h : Vector W 8
  totLen : ℕ
  len : ℕ
  block : ℕ → UInt8

/-- A number of blocks of a message are taken in. -/
abbrev Transform (W : Type) := Vector W 8 → (ℕ → UInt8) → ℕ → Vector W 8

section Gather

variable {W : Type} (blockSize : ℕ)

/-- The gathered block is taken in by one call, those of the data by another. -/
def shaUpdate (transform transform' : Transform W) (ctx : ShaCtx W) (data : List UInt8) :
    ShaCtx W :=
  let len := data.length
  let tmpLen := sub32 blockSize ctx.len
  let remLen := if len < tmpLen then len else tmpLen
  let block := blit ctx.block ctx.len (data.take remLen)
  if u32 (ctx.len + len) < blockSize then
    { ctx with block := block, len := u32 (ctx.len + len) }
  else
    let newLen := sub32 len remLen
    let blockNb := newLen / blockSize
    let shiftedData := fun i => data.getD (remLen + i) 0
    let h := transform ctx.h block 1
    let h := transform' h shiftedData blockNb
    let remLen := newLen % blockSize
    { h := h
      totLen := u32 (ctx.totLen + (blockNb + 1) * blockSize)
      len := remLen
      block := blit block 0 (slice shiftedData (blockNb * blockSize) remLen) }

/-- The padding takes another block if less than `tail` bytes of this one are left; only 32 bits of
the length are stored. -/
def shaFinal (tail : ℕ) (transform : Transform W) (ctx : ShaCtx W) : Vector W 8 :=
  let blockNb := 1 + if blockSize - tail < ctx.len % blockSize then 1 else 0
  let lenB := u32 (u32 (ctx.totLen + ctx.len) * 2 ^ 3)
  let pmLen := blockNb * blockSize
  let block := blit ctx.block ctx.len (List.replicate (pmLen - ctx.len) 0)
  let block := put block ctx.len 0x80
  let block := blit block (pmLen - 4) (beBytes (UInt32.ofNat lenB))
  transform ctx.h block blockNb

end Gather

/-! ### SHA-256 -/

def AVB_SHA256_BLOCK_SIZE : ℕ := 64

def rotr32 (x n : UInt32) : UInt32 := (x >>> n) ||| (x <<< (32 - n))

def sha256H0 : Vector UInt32 8 := #v[
  0x6a09e667, 0xbb67ae85, 0x3c6ef372, 0xa54ff53a,
  0x510e527f, 0x9b05688c, 0x1f83d9ab, 0x5be0cd19
  ]

def sha256K : List UInt32 := [
  0x428a2f98, 0x71374491, 0xb5c0fbcf, 0xe9b5dba5, 0x3956c25b, 0x59f111f1, 0x923f82a4, 0xab1c5ed5,
  0xd807aa98, 0x12835b01, 0x243185be, 0x550c7dc3, 0x72be5d74, 0x80deb1fe, 0x9bdc06a7, 0xc19bf174,
  0xe49b69c1, 0xefbe4786, 0x0fc19dc6, 0x240ca1cc, 0x2de92c6f, 0x4a7484aa, 0x5cb0a9dc, 0x76f988da,
  0x983e5152, 0xa831c66d, 0xb00327c8, 0xbf597fc7, 0xc6e00bf3, 0xd5a79147, 0x06ca6351, 0x14292967,
  0x27b70a85, 0x2e1b2138, 0x4d2c6dfc, 0x53380d13, 0x650a7354, 0x766a0abb, 0x81c2c92e, 0x92722c85,
  0xa2bfe8a1, 0xa81a664b, 0xc24b8b70, 0xc76c51a3, 0xd192e819, 0xd6990624, 0xf40e3585, 0x106aa070,
  0x19a4c116, 0x1e376c08, 0x2748774c, 0x34b0bcb5, 0x391c0cb3, 0x4ed8aa4a, 0x5b9cca4f, 0x682e6ff3,
  0x748f82ee, 0x78a5636f, 0x84c87814, 0x8cc70208, 0x90befffa, 0xa4506ceb, 0xbef9a3f7, 0xc67178f2
  ]

def sha256 : Kind UInt32 where
  rounds := 64
  pack subBlock j := be32toh subBlock (4 * j)
  f1 x := rotr32 x 2 ^^^ rotr32 x 13 ^^^ rotr32 x 22
  f2 x := rotr32 x 6 ^^^ rotr32 x 11 ^^^ rotr32 x 25
  f3 x := rotr32 x 7 ^^^ rotr32 x 18 ^^^ (x >>> 3)
  f4 x := rotr32 x 17 ^^^ rotr32 x 19 ^^^ (x >>> 10)
  k := sha256K

/-- One block of `SHA256_transform`. -/
def sha256Block (h : Vector UInt32 8) (subBlock : ℕ → UInt8) : Vector UInt32 8 :=
  let wv := runRounds sha256 subBlock h
  h.zipWith (· + ·) wv

/-- `SHA256_transform`. -/
def sha256Transform : Transform UInt32 := fun h message blockNb =>
  (List.range blockNb).foldl (fun h i => sha256Block h fun j => message (64 * i + j)) h

/-- What the block holds before it is written does not come from the function. -/
def avbSha256Init (block : ℕ → UInt8) : ShaCtx UInt32 :=
  { h := sha256H0, totLen := 0, len := 0, block := block }

def avbSha256Update : ShaCtx UInt32 → List UInt8 → ShaCtx UInt32 :=
  shaUpdate AVB_SHA256_BLOCK_SIZE sha256Transform sha256Transform

def avbSha256Final (ctx : ShaCtx UInt32) : List UInt8 :=
  let h := shaFinal AVB_SHA256_BLOCK_SIZE 9 sha256Transform ctx
  h.toList.flatMap beBytes

/-! ### SHA-512 -/

def AVB_SHA512_BLOCK_SIZE : ℕ := 128

def rotr64 (x n : UInt64) : UInt64 := (x >>> n) ||| (x <<< (64 - n))

def sha512H0 : Vector UInt64 8 := #v[
  0x6a09e667f3bcc908, 0xbb67ae8584caa73b, 0x3c6ef372fe94f82b, 0xa54ff53a5f1d36f1,
  0x510e527fade682d1, 0x9b05688c2b3e6c1f, 0x1f83d9abfb41bd6b, 0x5be0cd19137e2179
  ]

def sha512K : List UInt64 := [
  0x428a2f98d728ae22, 0x7137449123ef65cd, 0xb5c0fbcfec4d3b2f, 0xe9b5dba58189dbbc,
  0x3956c25bf348b538, 0x59f111f1b605d019, 0x923f82a4af194f9b, 0xab1c5ed5da6d8118,
  0xd807aa98a3030242, 0x12835b0145706fbe, 0x243185be4ee4b28c, 0x550c7dc3d5ffb4e2,
  0x72be5d74f27b896f, 0x80deb1fe3b1696b1, 0x9bdc06a725c71235, 0xc19bf174cf692694,
  0xe49b69c19ef14ad2, 0xefbe4786384f25e3, 0x0fc19dc68b8cd5b5, 0x240ca1cc77ac9c65,
  0x2de92c6f592b0275, 0x4a7484aa6ea6e483, 0x5cb0a9dcbd41fbd4, 0x76f988da831153b5,
  0x983e5152ee66dfab, 0xa831c66d2db43210, 0xb00327c898fb213f, 0xbf597fc7beef0ee4,
  0xc6e00bf33da88fc2, 0xd5a79147930aa725, 0x06ca6351e003826f, 0x142929670a0e6e70,
  0x27b70a8546d22ffc, 0x2e1b21385c26c926, 0x4d2c6dfc5ac42aed, 0x53380d139d95b3df,
  0x650a73548baf63de, 0x766a0abb3c77b2a8, 0x81c2c92e47edaee6, 0x92722c851482353b,
  0xa2bfe8a14cf10364, 0xa81a664bbc423001, 0xc24b8b70d0f89791, 0xc76c51a30654be30,
  0xd192e819d6ef5218, 0xd69906245565a910, 0xf40e35855771202a, 0x106aa07032bbd1b8,
  0x19a4c116b8d2d0c8, 0x1e376c085141ab53, 0x2748774cdf8eeb99, 0x34b0bcb5e19b48a8,
  0x391c0cb3c5c95a63, 0x4ed8aa4ae3418acb, 0x5b9cca4f7763e373, 0x682e6ff3d6b2b8a3,
  0x748f82ee5defb2fc, 0x78a5636f43172f60, 0x84c87814a1f0ab72, 0x8cc702081a6439ec,
  0x90befffa23631e28, 0xa4506cebde82bde9, 0xbef9a3f7b2c67915, 0xc67178f2e372532b,
  0xca273eceea26619c, 0xd186b8c721c0c207, 0xeada7dd6cde0eb1e, 0xf57d4f7fee6ed178,
  0x06f067aa72176fba, 0x0a637dc5a2c898a6, 0x113f9804bef90dae, 0x1b710b35131c471b,
  0x28db77f523047d84, 0x32caab7b40c72493, 0x3c9ebe0a15c9bebc, 0x431d67c49c100d4c,
  0x4cc5d4becb3e42b6, 0x597f299cfc657e2a, 0x5fcb6fab3ad6faec, 0x6c44198c4a475817
  ]

def sha512 : Kind UInt64 where
  rounds := 80
  pack subBlock j := be64toh subBlock (8 * j)
  f1 x := rotr64 x 28 ^^^ rotr64 x 34 ^^^ rotr64 x 39
  f2 x := rotr64 x 14 ^^^ rotr64 x 18 ^^^ rotr64 x 41
  f3 x := rotr64 x 1 ^^^ rotr64 x 8 ^^^ (x >>> 7)
  f4 x := rotr64 x 19 ^^^ rotr64 x 61 ^^^ (x >>> 6)
  k := sha512K

/-- Copying eight bytes copies one word. -/
def copyWord (dest src : Vector UInt64 8) : Vector UInt64 8 := dest.set 0 src[0]

/-- One block of `SHA512_transform`, with the variables `wv` that the blocks share. -/
def sha512Block (s : Vector UInt64 8 × Vector UInt64 8) (subBlock : ℕ → UInt8) :
    Vector UInt64 8 × Vector UInt64 8 :=
  let wv := runRounds sha512 subBlock (copyWord s.2 s.1)
  (s.1.zipWith (· + ·) wv, wv)

/-- `SHA512_transform`; `stack` is what its variables `wv` held before. -/
def sha512Transform (stack : Vector UInt64 8) : Transform UInt64 := fun h message blockNb =>
  ((List.range blockNb).foldl (fun s i => sha512Block s fun j => message (128 * i + j))
    (h, stack)).1

/-- The context is what its memory held before, but for a word and the sizes. -/
def avbSha512Init (h : Vector UInt64 8) (block : ℕ → UInt8) : ShaCtx UInt64 :=
  { h := copyWord h sha512H0, totLen := 0, len := 0, block := block }

def avbSha512Update (stack stack' : Vector UInt64 8) : ShaCtx UInt64 → List UInt8 → ShaCtx UInt64 :=
  shaUpdate AVB_SHA512_BLOCK_SIZE (sha512Transform stack) (sha512Transform stack')

def avbSha512Final (stack : Vector UInt64 8) (ctx : ShaCtx UInt64) : List UInt8 :=
  let h := shaFinal AVB_SHA512_BLOCK_SIZE 17 (sha512Transform stack) ctx
  h.toList.flatMap fun x : UInt64 => beBytes (x >>> 32).toUInt32 ++ beBytes x.toUInt32

end UefiToolkit.ShaModel
