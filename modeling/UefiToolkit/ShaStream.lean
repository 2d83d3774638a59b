import UefiToolkit.Chain
import UefiToolkit.ShaModel

/-!
A hash of pieces is the hash of what they make together.

The context stands for the message so far: its full blocks are taken in, and the rest is gathered.
-/

namespace UefiToolkit.ShaStream

open UefiToolkit.Mem UefiToolkit.Word UefiToolkit.AvbUtil UefiToolkit.Chain UefiToolkit.ShaModel

section Gather

variable {W : Type} {B : ℕ} {compress : Vector W 8 → List UInt8 → Vector W 8}
  {transform : Transform W} {h0 : Vector W 8} {msg : List UInt8} {ctx : ShaCtx W}

/-- A transform takes in its blocks one after the other. -/
def Absorbs (B : ℕ) (compress : Vector W 8 → List UInt8 → Vector W 8) (transform : Transform W) :
    Prop :=
  ∀ h m n, transform h m n = absorb compress B h (slice m 0 (B * n))

/-- The context stands for a message. -/
structure Stands (B : ℕ) (compress : Vector W 8 → List UInt8 → Vector W 8) (h0 : Vector W 8)
    (msg : List UInt8) (ctx : ShaCtx W) : Prop where
  h : ctx.h = absorb compress B h0 msg
  len : ctx.len = msg.length % B
  block : slice ctx.block 0 ctx.len = pending B msg
  totLen : ctx.totLen = u32 (B * (msg.length / B))

/-- What is gathered, in front of what follows. -/
lemma Stands.absorb_append (hB : 0 < B) (h : Stands B compress h0 msg ctx) (l : List UInt8) :
    absorb compress B h0 (msg ++ l) =
        absorb compress B ctx.h (slice ctx.block 0 ctx.len ++ l) ∧
      pending B (msg ++ l) = pending B (slice ctx.block 0 ctx.len ++ l) := by
  rw [h.h, h.block]
  exact ⟨absorb_pending hB h0 msg l, pending_append hB msg l⟩

/-- Data that do not fill the block are gathered. -/
lemma Stands.short (hB : 0 < B) (h : Stands B compress h0 msg ctx) {data : List UInt8}
    (hlt : ctx.len + data.length < B) : Stands B compress h0 (msg ++ data)
      { ctx with block := blit ctx.block ctx.len data, len := ctx.len + data.length } := by
  obtain ⟨habsorb, hpending⟩ := h.absorb_append hB data
  have hl : (slice ctx.block 0 ctx.len ++ data).length < B := by
    rw [List.length_append, slice_length]
    exact hlt
  rw [absorb_of_lt hl] at habsorb
  rw [pending_of_lt hl] at hpending
  have hdiv := Nat.div_add_mod msg.length B
  have hlen := h.len
  have hsize : (msg ++ data).length = ctx.len + data.length + B * (msg.length / B) := by
    rw [List.length_append]
    omega
  refine ⟨habsorb.symm, ?_, ?_, ?_⟩
  · rw [hsize, Nat.add_mul_mod_self_left, Nat.mod_eq_of_lt hlt]
  · simp only
    rw [hpending, slice_add, slice_blit_out _ (by omega), Nat.zero_add, slice_blit]
  · rw [h.totLen, hsize, Nat.add_mul_div_left _ _ hB, Nat.div_eq_of_lt hlt, Nat.zero_add]

/-- Data that fill the block are taken in, but for what is left at the end. -/
lemma Stands.long (hB : 0 < B) (ht : Absorbs B compress transform)
    (h : Stands B compress h0 msg ctx) (first middle rest : List UInt8) (n : ℕ)
    (block shifted : ℕ → UInt8) (hfirst : ctx.len + first.length = B)
    (hmiddle : middle.length = B * n) (hrest : rest.length < B)
    (hblock : slice block 0 B = slice ctx.block 0 ctx.len ++ first)
    (hshifted : slice shifted 0 (B * n) = middle) :
    Stands B compress h0 (msg ++ (first ++ middle ++ rest))
      { h := transform (transform ctx.h block 1) shifted n
        totLen := u32 (ctx.totLen + (n + 1) * B)
        len := rest.length
        block := blit block 0 rest } := by
  obtain ⟨habsorb, hpending⟩ := h.absorb_append hB (first ++ middle ++ rest)
  have hlen := h.len
  have hdiv := Nat.div_add_mod msg.length B
  have hfull : B ∣ (slice ctx.block 0 ctx.len ++ first).length := by
    rw [List.length_append, slice_length, hfirst]
  have hsplit : slice ctx.block 0 ctx.len ++ (first ++ middle ++ rest) =
      (slice ctx.block 0 ctx.len ++ first) ++ (middle ++ rest) := by simp
  have hsize : (msg ++ (first ++ middle ++ rest)).length =
      rest.length + B * (msg.length / B + (n + 1)) := by
    simp only [List.length_append, hmiddle, Nat.mul_add, Nat.mul_one]
    omega
  refine ⟨?_, ?_, ?_, ?_⟩
  · rw [habsorb, hsplit, UefiToolkit.Chain.absorb_append hB _ hfull,
      UefiToolkit.Chain.absorb_append hB _ ⟨n, hmiddle⟩, absorb_of_lt hrest, ht, ht, Nat.mul_one,
      hblock, hshifted]
  · rw [hsize, Nat.add_mul_mod_self_left, Nat.mod_eq_of_lt hrest]
  · simp only
    have hblocks : B ∣ (slice ctx.block 0 ctx.len ++ first ++ middle).length := by
      rw [List.length_append, hmiddle]
      exact Nat.dvd_add hfull ⟨n, rfl⟩
    rw [slice_blit, hpending, hsplit, ← List.append_assoc, pending_append hB,
      pending_of_dvd hblocks, List.nil_append, pending_of_lt hrest]
  · rw [h.totLen, hsize, Nat.add_mul_div_left _ _ hB, Nat.div_eq_of_lt hrest, Nat.zero_add,
      Nat.mul_add, Nat.mul_comm (n + 1)]
    simp only [u32, Nat.mod_add_mod]

/-- **An update** adds its data to the message. -/
lemma Stands.update (hB : 0 < B) (hB' : B < 2 ^ 31) (ht : Absorbs B compress transform)
    (h : Stands B compress h0 msg ctx) {data : List UInt8} (hdata : data.length < 2 ^ 31) :
    Stands B compress h0 (msg ++ data) (shaUpdate B transform transform ctx data) := by
  have hlen : ctx.len < B := by
    rw [h.len]
    exact Nat.mod_lt _ hB
  have hroom : sub32 B ctx.len = B - ctx.len := sub32_of_le (by omega) (by omega)
  unfold shaUpdate
  simp only [hroom, u32_of_lt (show ctx.len + data.length < 2 ^ 32 by omega)]
  by_cases hlt : ctx.len + data.length < B
  · rw [if_pos (show data.length < B - ctx.len by omega), if_pos hlt,
      List.take_of_length_le le_rfl]
    exact h.short hB hlt
  · rw [if_neg (show ¬ data.length < B - ctx.len by omega), if_neg hlt,
      sub32_of_le (by omega) (by omega)]
    have hmod := Nat.div_add_mod (data.length - (B - ctx.len)) B
    have hlt' := Nat.mod_lt (data.length - (B - ctx.len)) hB
    set r := B - ctx.len with hr
    set n := (data.length - r) / B with hn
    have hread : ∀ a k, r + a + k ≤ data.length →
        slice (fun i => data.getD (r + i) 0) a k = (data.drop (r + a)).take k := fun a k hak => by
      rw [← slice_getD hak]
      exact slice_congr fun i _ => by rw [Nat.add_assoc]
    have hrest : slice (fun i => data.getD (r + i) 0) (n * B) ((data.length - r) % B) =
        data.drop (r + B * n) := by
      rw [Nat.mul_comm n, hread _ _ (by omega), List.take_of_length_le (by simp; omega)]
    have hrestlen : (data.drop (r + B * n)).length = (data.length - r) % B := by
      rw [List.length_drop]
      omega
    have hdata : data.take r ++ (data.drop r).take (B * n) ++ data.drop (r + B * n) = data := by
      rw [List.append_assoc, ← List.drop_drop, List.take_append_drop, List.take_append_drop]
    have hblock : slice (blit ctx.block ctx.len (data.take r)) 0 B =
        slice ctx.block 0 ctx.len ++ data.take r := by
      conv_lhs => rw [show B = ctx.len + (data.take r).length by simp; omega]
      rw [slice_add, slice_blit_out _ (by omega), Nat.zero_add, slice_blit]
    have hlong := h.long hB ht (data.take r) ((data.drop r).take (B * n)) (data.drop (r + B * n)) n
      (blit ctx.block ctx.len (data.take r)) (fun i => data.getD (r + i) 0) (by simp; omega)
      (by simp; omega) (by rw [hrestlen]; exact hlt') hblock
      (by rw [hread _ _ (by omega), Nat.add_zero])
    rw [hdata, hrestlen] at hlong
    rw [hrest]
    exact hlong

/-- **The last call** pads the message and takes in what is left of it. -/
lemma Stands.final (hB : 0 < B) (ht : Absorbs B compress transform)
    (h : Stands B compress h0 msg ctx) {tail : ℕ} (h5 : 5 ≤ tail) (htail : tail ≤ B) :
    shaFinal B tail transform ctx = absorb compress B h0 (msg ++
      ([0x80] ++ List.replicate ((1 + if B - tail < msg.length % B then 1 else 0) * B -
        msg.length % B - 5) 0 ++ beBytes (UInt32.ofNat (8 * msg.length)))) := by
  have hlen := h.len
  have hmod : ctx.len % B = ctx.len := by rw [hlen, Nat.mod_mod]
  have hlt : ctx.len < B := by
    rw [hlen]
    exact Nat.mod_lt _ hB
  have hbits : UInt32.ofNat (u32 (u32 (ctx.totLen + ctx.len) * 2 ^ 3)) =
      UInt32.ofNat (8 * msg.length) := by
    have hdiv := Nat.div_add_mod msg.length B
    refine UInt32.toNat_inj.mp ?_
    rw [UInt32.toNat_ofNat', UInt32.toNat_ofNat', h.totLen, hlen]
    simp only [u32]
    generalize B * (msg.length / B) = q at hdiv ⊢
    omega
  obtain ⟨habsorb, -⟩ := h.absorb_append hB ([0x80] ++ List.replicate
    ((1 + if B - tail < msg.length % B then 1 else 0) * B - msg.length % B - 5) 0 ++
      beBytes (UInt32.ofNat (8 * msg.length)))
  rw [habsorb]
  unfold shaFinal
  simp only [hmod, hbits]
  rw [← hlen]
  set n := 1 + if B - tail < ctx.len then 1 else 0 with hn
  -- the padding and the length find room
  have hroom : ctx.len + 5 ≤ n * B := by
    rw [hn]
    split_ifs
    · omega
    · omega
  obtain ⟨z, hz⟩ : ∃ z, n * B = ctx.len + (1 + (z + 4)) := ⟨n * B - ctx.len - 5, by omega⟩
  have hbytes : (beBytes (UInt32.ofNat (8 * msg.length))).length = 4 := rfl
  rw [ht, Nat.mul_comm B, hz, show ctx.len + (1 + (z + 4)) - ctx.len - 5 = z by omega,
    show ctx.len + (1 + (z + 4)) - 4 = ctx.len + (1 + z) by omega,
    show ctx.len + (1 + (z + 4)) - ctx.len = 1 + (z + 4) by omega, slice_add, slice_add, slice_add]
  set m := blit ctx.block ctx.len (List.replicate (1 + (z + 4)) 0) with hm
  have hzeros : slice m (ctx.len + 1) z = List.replicate z 0 := by
    have hall : slice m ctx.len (1 + (z + 4)) =
        [0] ++ List.replicate z 0 ++ List.replicate 4 0 := by
      have hblit := slice_blit ctx.block ctx.len (List.replicate (1 + (z + 4)) (0 : UInt8))
      rw [List.length_replicate] at hblit
      rw [hblit, List.replicate_add, List.replicate_add, ← List.append_assoc]
      rfl
    simpa using slice_mid hall
  set bytes := beBytes (UInt32.ofNat (8 * msg.length)) with hbytesdef
  have hout : ctx.len + (1 + z) = ctx.len + 1 + z := by omega
  rw [put_eq_blit, hout, Nat.zero_add]
  have hgathered : slice (blit (blit m ctx.len [0x80]) (ctx.len + 1 + z) bytes) 0 ctx.len =
      slice ctx.block 0 ctx.len := by
    rw [slice_blit_out _ (by omega), slice_blit_out _ (by omega), hm, slice_blit_out _ (by omega)]
  have hone : slice (blit (blit m ctx.len [0x80]) (ctx.len + 1 + z) bytes) ctx.len 1 = [0x80] := by
    rw [slice_blit_out _ (by omega)]
    exact slice_blit m ctx.len [0x80]
  have hpad : slice (blit (blit m ctx.len [0x80]) (ctx.len + 1 + z) bytes) (ctx.len + 1) z =
      List.replicate z 0 := by
    rw [slice_blit_out _ (by omega), slice_blit_out _ (by simp), hzeros]
  have hlength := slice_blit (blit m ctx.len [0x80]) (ctx.len + 1 + z) bytes
  rw [hbytes] at hlength
  rw [hgathered, hone, hpad, hlength, List.append_assoc]

end Gather

/-! ### SHA-256 -/

/-- One block, as a list. -/
def sha256Compress (h : Vector UInt32 8) (block : List UInt8) : Vector UInt32 8 :=
  sha256Block h fun j => block.getD j 0

lemma sha256Block_congr (h : Vector UInt32 8) {m m' : ℕ → UInt8} (hm : ∀ i < 64, m i = m' i) :
    sha256Block h m = sha256Block h m' := by
  have hpack : ∀ j < 16, sha256.pack m j = sha256.pack m' j := fun j hj =>
    be32toh_congr fun i hi => hm _ (by omega)
  have hschedule : schedule sha256 m = schedule sha256 m' := by
    have hfirst : (List.range 16).foldl (fun w j => w.push (sha256.pack m j)) #[] =
        (List.range 16).foldl (fun w j => w.push (sha256.pack m' j)) #[] :=
      List.foldl_ext _ _ _ fun w j hj => by rw [hpack j (List.mem_range.mp hj)]
    rw [schedule, schedule, hfirst]
  rw [sha256Block, sha256Block, runRounds, runRounds, hschedule]

lemma sha256_absorbs : Absorbs AVB_SHA256_BLOCK_SIZE sha256Compress sha256Transform := by
  intro h m n
  rw [absorb, slice_length, AVB_SHA256_BLOCK_SIZE, Nat.mul_div_cancel_left _ (by omega),
    sha256Transform]
  refine List.foldl_ext _ _ _ fun h i hi => ?_
  have hi := List.mem_range.mp hi
  refine sha256Block_congr h fun j hj => ?_
  have hblock : ((slice m 0 (64 * n)).drop (64 * i)).take 64 = slice m (64 * i) 64 := by
    rw [slice_drop _ _ (by omega), slice_take _ _ (by omega), Nat.zero_add]
  rw [hblock, List.getD_eq_getElem _ _ (by simpa using hj), slice_getElem]

/-- A message with its padding: a set bit, zeros to the end of a block, and its length in bits. -/
def sha256Pad (msg : List UInt8) : List UInt8 :=
  msg ++ ([0x80] ++ List.replicate ((119 - msg.length % 64) % 64) 0 ++
    beBytes (UInt32.ofNat (8 * msg.length / 2 ^ 32)) ++ beBytes (UInt32.ofNat (8 * msg.length)))

/-- The SHA-256 hash of a message. -/
def sha256Digest (msg : List UInt8) : List UInt8 :=
  (absorb sha256Compress 64 sha256H0 (sha256Pad msg)).toList.flatMap beBytes

/-- **SHA-256 in pieces**: a hash that is given a message of less than half a gigabyte piece by
piece is the hash of the message, whatever the block of the context held before. -/
theorem avbSha256_pieces (block : ℕ → UInt8) (pieces : List (List UInt8))
    (hlen : pieces.flatten.length < 2 ^ 29) :
    avbSha256Final (pieces.foldl avbSha256Update (avbSha256Init block)) =
      sha256Digest pieces.flatten := by
  have hstart : Stands AVB_SHA256_BLOCK_SIZE sha256Compress sha256H0 [] (avbSha256Init block) :=
    ⟨absorb_nil _ |>.symm, rfl, rfl, rfl⟩
  have hrun : ∀ (ps : List (List UInt8)) (msg : List UInt8) (ctx : ShaCtx UInt32),
      (∀ p ∈ ps, p.length < 2 ^ 31) →
      Stands AVB_SHA256_BLOCK_SIZE sha256Compress sha256H0 msg ctx →
      Stands AVB_SHA256_BLOCK_SIZE sha256Compress sha256H0 (msg ++ ps.flatten)
        (ps.foldl avbSha256Update ctx) := by
    intro ps
    induction ps with
    | nil =>
      intro msg ctx _ hctx
      rwa [List.flatten_nil, List.append_nil]
    | cons p ps ih =>
      intro msg ctx hps hctx
      rw [List.flatten_cons, ← List.append_assoc]
      exact ih _ _ (fun q hq => hps q (List.mem_cons_of_mem _ hq))
        (hctx.update (by decide) (by decide) sha256_absorbs (hps p List.mem_cons_self))
  have hpieces : ∀ p ∈ pieces, p.length < 2 ^ 31 := fun p hp => by
    have := (List.sublist_flatten_of_mem hp).length_le
    omega
  have hend := hrun pieces [] _ hpieces hstart
  rw [List.nil_append] at hend
  have hfinal := hend.final (by decide) sha256_absorbs (show 5 ≤ 9 by omega) (by decide)
  -- the high word of the length is zero
  have hzeros : ∀ n < 2 ^ 29, List.replicate ((1 + if AVB_SHA256_BLOCK_SIZE - 9 <
        n % AVB_SHA256_BLOCK_SIZE then 1 else 0) * AVB_SHA256_BLOCK_SIZE -
          n % AVB_SHA256_BLOCK_SIZE - 5) (0 : UInt8) =
      List.replicate ((119 - n % 64) % 64) 0 ++ beBytes (UInt32.ofNat (8 * n / 2 ^ 32)) := by
    intro n hn
    have hhigh : beBytes (UInt32.ofNat (8 * n / 2 ^ 32)) = List.replicate 4 0 := by
      rw [Nat.div_eq_of_lt (by omega)]
      rfl
    rw [hhigh, ← List.replicate_add, AVB_SHA256_BLOCK_SIZE]
    congr 1
    split_ifs <;> omega
  rw [avbSha256Final, sha256Digest, hfinal, hzeros _ hlen, sha256Pad, ← List.append_assoc [0x80]]
  rfl

/-- The three letters of the usual example, in two pieces. -/
theorem avbSha256_pieces_abc : avbSha256Final (avbSha256Update (avbSha256Update
      (avbSha256Init fun _ => 0xFF) [0x61]) [0x62, 0x63]) = sha256Digest [0x61, 0x62, 0x63] :=
  avbSha256_pieces (fun _ => 0xFF) [[0x61], [0x62, 0x63]] (by decide)

end UefiToolkit.ShaStream
