import UefiToolkit.GrowModel

/-!
A string that grows is what was appended to it, and it always fits its buffer.

The size of the buffer is known from the appends alone, since the loop that finds it takes one
round at most.
-/

namespace UefiToolkit.GrowString

open UefiToolkit.Word UefiToolkit.ArgsModel UefiToolkit.GrowModel

/-- The characters that are appended. -/
def piece (a : Append) : Str :=
  if a.count = 0 then a.source else a.source.take a.count

/-- The count that room is made for. -/
def room (a : Append) : ℕ := if a.count = 0 then a.source.length else a.count

/-- The bytes that a string of `chars` characters takes; without a buffer there is none. -/
def taken (chars size : ℕ) : ℕ := if size = 0 then 0 else 2 * (chars + 1)

/-- The size of the buffer behind an append to a string of `chars` characters. -/
def grownSize (chars size : ℕ) (a : Append) : ℕ :=
  if size < taken chars size + 2 * room a then size + 4 * room a else size

/-- The size of the buffer in the end. -/
def sizeAfter : ℕ → ℕ → List Append → ℕ
  | _, size, [] => size
  | chars, size, a :: calls =>
    sizeAfter (chars + (piece a).length) (grownSize chars size a) calls

lemma taken_string (chars n : ℕ) : taken chars (2 * (chars + 1 + n)) = 2 * (chars + 1) :=
  if_neg (by omega)

lemma le_grownSize (chars size : ℕ) (a : Append) : size ≤ grownSize chars size a := by
  unfold grownSize
  split_ifs <;> omega

lemma room_le_grownSize (chars size : ℕ) (a : Append) : 2 * room a ≤ grownSize chars size a := by
  unfold grownSize
  split_ifs <;> omega

lemma le_sizeAfter (calls : List Append) (chars size : ℕ) : size ≤ sizeAfter chars size calls := by
  induction calls generalizing chars size with
  | nil => exact le_rfl
  | cons a calls ih => exact (le_grownSize chars size a).trans (ih _ _)

/-! ### One append -/

/-- A buffer of the given size holds a text, or there is neither a buffer nor a text. -/
inductive Holds : Dest → Str → Prop
  | null : Holds ⟨none, 0⟩ []
  | string (text rest : Str) (chars : ∀ c ∈ text, isChar c = true) :
    Holds ⟨some (text ++ CHAR_NULL :: rest), 2 * (text.length + 1 + rest.length)⟩ text

section Cells

variable {text : Str}

lemma strAt_string (chars : ∀ c ∈ text, isChar c = true) (rest : Str) :
    strAt (text ++ CHAR_NULL :: rest) 0 = text := by
  rw [strAt, List.drop_zero, List.takeWhile_append_of_pos chars,
    List.takeWhile_cons_of_neg (by decide), List.append_nil]

lemma strSize_string (chars : ∀ c ∈ text, isChar c = true) (rest : Str)
    (hlen : text.length < 2 ^ 62) :
    strSize (text ++ CHAR_NULL :: rest) = some (2 * (text.length + 1)) := by
  rw [strSize, if_pos (by simp), strAt_string chars, u64_of_lt (by omega)]

/-- What has room behind the text is appended to it. -/
lemma strnCatS_string {limit length : ℕ} (chars : ∀ c ∈ text, isChar c = true) (rest : Str)
    (source : Str) (hroom : length ≤ rest.length) (hlimit : text.length + 1 + rest.length ≤ limit) :
    strnCatS limit (text ++ CHAR_NULL :: rest) (text.length + 1 + rest.length) source length =
      (EFI_SUCCESS, text ++ source.take length ++
        CHAR_NULL :: rest.drop (source.take length).length) := by
  have hdest : strnLenS (text ++ CHAR_NULL :: rest) (text.length + 1 + rest.length) =
      text.length := by
    rw [strnLenS, List.take_of_length_le (by simp; omega), strAt_string chars]
  have htake : (text ++ CHAR_NULL :: rest).take text.length = text := List.take_left' rfl
  have hlen : min source.length (min (1 + rest.length) length) = (source.take length).length := by
    rw [List.length_take]
    omega
  have hdrop : (text ++ CHAR_NULL :: rest).drop
      (text.length + (source.take length).length + 1) = rest.drop (source.take length).length := by
    rw [Nat.add_assoc, List.drop_length_add_append, List.drop_succ_cons]
  rw [strnCatS, hdest, show text.length + 1 + rest.length - text.length = 1 + rest.length by omega]
  simp only [hlen, htake, hdrop]
  rw [if_neg (by omega), if_neg (by omega), if_neg (by omega)]
  simp

lemma reallocatePool_string (rest : Str) (k : ℕ) :
    reallocatePool (2 * (text.length + 1 + rest.length))
        (2 * (text.length + 1 + rest.length) + 2 * k) (some (text ++ CHAR_NULL :: rest)) =
      text ++ CHAR_NULL :: (rest ++ List.replicate k CHAR_NULL) := by
  have hkept : ((text ++ CHAR_NULL :: rest).take (min (2 * (text.length + 1 + rest.length))
      (2 * (text.length + 1 + rest.length) + 2 * k) / 2)) = text ++ CHAR_NULL :: rest :=
    List.take_of_length_le (by simp; omega)
  simp only [reallocatePool, Option.getD_some, hkept]
  rw [show (2 * (text.length + 1 + rest.length) + 2 * k) / 2 -
    (text ++ CHAR_NULL :: rest).length = k by simp; omega]
  simp

/-- A buffer that is new is one empty string. -/
lemma reallocatePool_null (k : ℕ) :
    reallocatePool 0 (2 * (k + 1)) none = [] ++ CHAR_NULL :: List.replicate k CHAR_NULL := by
  simp [reallocatePool, List.replicate_succ]

end Cells

/-- The loop takes one round at most. -/
lemma growLoop_eq {fuel need count size : ℕ} (hfuel : 0 < fuel) (hlt : size < need)
    (hneed : need ≤ size + 4 * count) (h64 : size + 4 * count < 2 ^ 64) :
    growLoop fuel need count size = some (size + 4 * count) := by
  have hsum : u64 (size + 2 * count * 2) = size + 4 * count := by
    rw [u64_of_lt (by omega)]
    omega
  refine Loop.whileFuel_once ?_ ?_ ?_ hfuel
  · simpa using hlt
  · rw [hsum]
  · simpa using hneed

/-- Whatever the buffer is, the append goes well when it has the room. -/
lemma append_string (limit n : ℕ) {text : Str} (chars : ∀ c ∈ text, isChar c = true) (rest : Str)
    {source : Str} (hsource : ∀ c ∈ source, isChar c = true) (hroom : n ≤ rest.length)
    (hlimit : text.length + 1 + rest.length ≤ limit) :
    ∃ d, append limit ⟨some (text ++ CHAR_NULL :: rest), 2 * (text.length + 1 + rest.length)⟩
        source n = (d, [EFI_SUCCESS]) ∧
      Holds d (text ++ source.take n) ∧
      d.currentSize = 2 * (text.length + 1 + rest.length) := by
  have hlen : (source.take n).length ≤ rest.length :=
    (List.length_take_le n source).trans hroom
  have hsize : text.length + 1 + rest.length =
      (text ++ source.take n).length + 1 + (rest.drop (source.take n).length).length := by
    rw [List.length_append, List.length_drop]
    omega
  refine ⟨⟨some (text ++ source.take n ++ CHAR_NULL :: rest.drop (source.take n).length),
    2 * (text.length + 1 + rest.length)⟩, ?_, ?_, rfl⟩
  · simp only [append, Nat.mul_div_cancel_left _ Nat.two_pos,
      strnCatS_string chars rest source hroom hlimit]
  · rw [hsize]
    refine .string _ _ fun c hc => ?_
    rcases List.mem_append.mp hc with hc | hc
    · exact chars c hc
    · exact hsource c (List.mem_of_mem_take hc)

lemma piece_eq (a : Append) : piece a = a.source.take (room a) := by
  unfold piece room
  split_ifs
  · exact List.take_length.symm
  · rfl

section Runs

variable {ε : Type} {allocate : ε → ℕ → Bool × ε} {limit fuel : ℕ} {d : Dest} {text : Str}

/-- The buffer that the append finds, if the string in it takes `start` bytes. -/
def grown (d : Dest) (start : ℕ) (a : Append) : Dest :=
  if d.currentSize < start + 2 * room a then
    ⟨some (reallocatePool d.currentSize (d.currentSize + 4 * room a) d.buffer),
      d.currentSize + 4 * room a⟩
  else d

/-- Room is made, and the append follows. -/
lemma consoleStrnCatGrow_eq (limit : ℕ) (halloc : ∀ env n, (allocate env n).1 = true)
    (hfuel : 0 < fuel) {start : ℕ} (a : Append) (hnull : d.currentSize = 0 → d.buffer = none)
    (hstart : startSize d = some start) (hle : start + 2 * room a ≤ d.currentSize + 4 * room a)
    (h64 : d.currentSize + 4 * room a < 2 ^ 64) (env : ε) :
    consoleStrnCatGrow allocate limit fuel d a.source a.count env =
      some ((append limit (grown d start a) a.source (room a)).1,
        (append limit (grown d start a) a.source (room a)).2,
        if d.currentSize < start + 2 * room a then
          (allocate env (d.currentSize + 4 * room a)).2 else env) := by
  have hcount : (if a.count = 0 then a.source.length else a.count) = room a := rfl
  have hd : (if d.currentSize = 0 then { d with buffer := none } else d) = d := by
    split_ifs with hzero
    · rw [← hnull hzero]
    · rfl
  have hneed : u64 (start + room a * 2) = start + 2 * room a := by
    rw [Nat.mul_comm, u64_of_lt (by omega)]
  unfold consoleStrnCatGrow
  simp only [hd, hstart, Option.bind_some, hcount, hneed]
  by_cases hlt : d.currentSize < start + 2 * room a
  · rw [if_pos hlt, growLoop_eq hfuel hlt hle h64, Option.map_some, grown, if_pos hlt]
    simp only [halloc env _, if_true, if_pos hlt]
  · simp only [if_neg hlt, grown]

/-- What an append to `text` gives. -/
structure Appended (limit : ℕ) (d : Dest) (text : Str) (a : Append) (start : ℕ) : Prop where
  holds : Holds (append limit (grown d start a) a.source (room a)).1 (text ++ piece a)
  size : (append limit (grown d start a) a.source (room a)).1.currentSize =
    grownSize text.length d.currentSize a
  statuses : ∀ status ∈ (append limit (grown d start a) a.source (room a)).2, status = EFI_SUCCESS

/-- With the room behind it, the text is appended to. -/
lemma appended_of {start : ℕ} {a : Append} (rest : Str) (chars : ∀ c ∈ text, isChar c = true)
    (hgrown : grown d start a =
      ⟨some (text ++ CHAR_NULL :: rest), 2 * (text.length + 1 + rest.length)⟩)
    (hsize : 2 * (text.length + 1 + rest.length) = grownSize text.length d.currentSize a)
    (hroom : room a ≤ rest.length) (hlimit : grownSize text.length d.currentSize a ≤ 2 * limit) :
    Appended limit d text a start := by
  obtain ⟨d', happend, hd, hcurrent⟩ := append_string limit (room a) chars rest a.chars hroom
    (by omega)
  rw [← hgrown] at happend
  refine ⟨?_, ?_, ?_⟩
  · rw [happend, piece_eq]
    exact hd
  · rw [happend, ← hsize]
    exact hcurrent
  · rw [happend]
    simp

/-- The first append that appends anything gets a new buffer. -/
lemma appended_null (a : Append) (hsize : grownSize 0 0 a ≤ 2 * limit) :
    Appended limit ⟨none, 0⟩ [] a (taken 0 0) := by
  rcases Nat.eq_zero_or_pos (room a) with hzero | hpos
  · -- nothing to append to nothing
    have hgrown : grown ⟨none, 0⟩ (taken 0 0) a = ⟨none, 0⟩ :=
      if_neg (by simp only [taken, if_true]; omega)
    have hpiece : piece a = [] := by rw [piece_eq, hzero, List.take_zero]
    refine ⟨?_, ?_, ?_⟩
    · rw [hgrown, hpiece]
      exact .null
    · rw [hgrown]
      simp [append, grownSize, taken, hzero]
    · rw [hgrown]
      simp [append]
  · obtain ⟨k, hk⟩ : ∃ k, 4 * room a = 2 * (k + 1) := ⟨2 * room a - 1, by omega⟩
    have hgrown : grownSize 0 0 a = 4 * room a := by
      rw [grownSize, if_pos (by simpa [taken] using hpos), Nat.zero_add]
    have hrest : 2 * (([] : Str).length + 1 + (List.replicate k CHAR_NULL).length) =
        4 * room a := by
      rw [List.length_nil, List.length_replicate, hk, Nat.zero_add, Nat.add_comm]
    refine appended_of (List.replicate k CHAR_NULL) (List.forall_mem_nil _) ?_ ?_ ?_ hsize
    · rw [grown, if_pos (by simp only [taken, if_true]; omega), hrest, ← reallocatePool_null,
        ← hk, Nat.zero_add]
    · exact hrest.trans hgrown.symm
    · rw [List.length_replicate]
      omega

/-- A string that is there gets a larger buffer if what is free behind it does not suffice. -/
lemma appended_string (rest : Str) (chars : ∀ c ∈ text, isChar c = true) (a : Append)
    (hsize : grownSize text.length (2 * (text.length + 1 + rest.length)) a ≤ 2 * limit) :
    Appended limit ⟨some (text ++ CHAR_NULL :: rest), 2 * (text.length + 1 + rest.length)⟩ text a
      (taken text.length (2 * (text.length + 1 + rest.length))) := by
  rw [taken_string]
  have hgrown : grownSize text.length (2 * (text.length + 1 + rest.length)) a =
      if 2 * (text.length + 1 + rest.length) < 2 * (text.length + 1) + 2 * room a then
        2 * (text.length + 1 + rest.length) + 4 * room a
      else 2 * (text.length + 1 + rest.length) := by
    rw [grownSize, taken_string]
  by_cases hlt : 2 * (text.length + 1 + rest.length) < 2 * (text.length + 1) + 2 * room a
  · rw [if_pos hlt] at hgrown
    have hrest : 2 * (text.length + 1 + (rest ++ List.replicate (2 * room a) CHAR_NULL).length) =
        2 * (text.length + 1 + rest.length) + 2 * (2 * room a) := by
      rw [List.length_append, List.length_replicate]
      omega
    refine appended_of (rest ++ List.replicate (2 * room a) CHAR_NULL) chars ?_ ?_ ?_ hsize
    · rw [grown, if_pos hlt, hrest, ← reallocatePool_string, ← Nat.mul_assoc]
    · rw [hrest, hgrown, ← Nat.mul_assoc]
    · rw [List.length_append, List.length_replicate]
      omega
  · rw [if_neg hlt] at hgrown
    exact appended_of rest chars (if_neg hlt) hgrown.symm (by omega) hsize

/-- The string in the buffer takes the bytes that the code finds. -/
lemma Holds.appended (h : Holds d text) (hlimit : limit < 2 ^ 32) (a : Append)
    (hsize : grownSize text.length d.currentSize a ≤ 2 * limit) :
    startSize d = some (taken text.length d.currentSize) ∧
      (d.currentSize = 0 → d.buffer = none) ∧ taken text.length d.currentSize ≤ d.currentSize ∧
      Appended limit d text a (taken text.length d.currentSize) := by
  cases h with
  | null => exact ⟨rfl, fun _ => rfl, le_rfl, appended_null a hsize⟩
  | string _ rest chars =>
    have hle := le_grownSize text.length (2 * (text.length + 1 + rest.length)) a
    refine ⟨?_, by simp, by simp only [taken_string]; omega, appended_string rest chars a hsize⟩
    simp only at hsize
    simp only [startSize, strSize_string chars rest (by omega), Option.filter_some, taken_string]
    exact if_pos (decide_eq_true (by omega))

/-- **One append** appends to the string, and the buffer stays as large as it says. -/
lemma grow_holds (halloc : ∀ env n, (allocate env n).1 = true) (hlimit : limit < 2 ^ 32)
    (hfuel : 0 < fuel) {s : Grow ε} (h : Holds s.dest text) (a : Append)
    (hsize : grownSize text.length s.dest.currentSize a ≤ 2 * limit) :
    ∃ s', grow allocate limit fuel s a = some s' ∧ Holds s'.dest (text ++ piece a) ∧
      s'.dest.currentSize = grownSize text.length s.dest.currentSize a ∧
      ((∀ status ∈ s.statuses, status = EFI_SUCCESS) →
        ∀ status ∈ s'.statuses, status = EFI_SUCCESS) := by
  have hroom := room_le_grownSize text.length s.dest.currentSize a
  have hle := le_grownSize text.length s.dest.currentSize a
  obtain ⟨hstart, hnull, htaken, happended⟩ := h.appended hlimit a hsize
  have hcall := consoleStrnCatGrow_eq limit halloc hfuel a hnull hstart (by omega) (by omega) s.env
  refine ⟨_, by rw [grow, hcall, Option.map_some], happended.holds, happended.size, ?_⟩
  intro hall status hmem
  rcases List.mem_append.mp hmem with hmem | hmem
  · exact hall status hmem
  · exact happended.statuses status hmem

/-- A run of appends from a string that is there, or from none. -/
lemma grow_run_holds (halloc : ∀ env n, (allocate env n).1 = true) (hlimit : limit < 2 ^ 32)
    (hfuel : 0 < fuel) (calls : List Append) {s : Grow ε} (h : Holds s.dest text)
    (hstatuses : ∀ status ∈ s.statuses, status = EFI_SUCCESS)
    (hsize : sizeAfter text.length s.dest.currentSize calls ≤ 2 * limit) :
    ∃ s', Loop.run (grow allocate limit fuel) s calls = some s' ∧
      Holds s'.dest (text ++ calls.flatMap piece) ∧
      s'.dest.currentSize = sizeAfter text.length s.dest.currentSize calls ∧
      ∀ status ∈ s'.statuses, status = EFI_SUCCESS := by
  induction calls generalizing s text with
  | nil => exact ⟨s, rfl, by simpa using h, rfl, hstatuses⟩
  | cons a calls ih =>
    have hfirst : grownSize text.length s.dest.currentSize a ≤ 2 * limit :=
      (le_sizeAfter calls _ _).trans hsize
    obtain ⟨t, hstep, ht, hcurrent, hall⟩ := grow_holds halloc hlimit hfuel h a hfirst
    have hrest : sizeAfter (text ++ piece a).length t.dest.currentSize calls ≤ 2 * limit := by
      rw [List.length_append, hcurrent]
      exact hsize
    obtain ⟨s', hrun, hs', hcurrent', hstatuses'⟩ := ih ht (hall hstatuses) hrest
    refine ⟨s', by rw [Loop.run_cons hstep, hrun], ?_, ?_, hstatuses'⟩
    · rw [List.flatMap_cons, ← List.append_assoc]
      exact hs'
    · rw [hcurrent', List.length_append, hcurrent]
      rfl

/-- What is in the buffer, if there is one. -/
def held (d : Dest) : Option Str := d.buffer.map fun cells => strAt cells 0

/-- The string, empty where there is no buffer. -/
def contents (d : Dest) : Str := (held d).getD []

lemma Holds.contents_eq {string : Str} (h : Holds d string) : contents d = string := by
  cases h with
  | null => rfl
  | string _ rest chars => exact strAt_string chars rest

/-- The size that the buffer has, and the part of it that the string takes. -/
lemma Holds.fits {string : Str} (h : Holds d string) (hsize : d.currentSize < 2 ^ 62) :
    ∀ cells ∈ d.buffer, 2 * cells.length = d.currentSize ∧
      ∃ size, strSize cells = some size ∧ size ≤ d.currentSize := by
  cases h with
  | null => simp
  | string _ rest chars =>
    rintro cells ⟨⟩
    simp only at hsize ⊢
    refine ⟨?_, _, strSize_string chars rest (by omega), by omega⟩
    rw [List.length_append, List.length_cons]
    omega

/-- **A string that grows** is what was appended to it, in order, and fits its buffer; every append
ends, and the copy never fails. -/
theorem grow_run (halloc : ∀ env n, (allocate env n).1 = true) (hlimit : limit < 2 ^ 32)
    (hfuel : 0 < fuel) (calls : List Append) (hsize : sizeAfter 0 0 calls ≤ 2 * limit) (env : ε) :
    ∃ s, Loop.run (grow allocate limit fuel) ⟨⟨none, 0⟩, [], env⟩ calls = some s ∧
      contents s.dest = calls.flatMap piece ∧
      (∀ cells ∈ s.dest.buffer, 2 * cells.length = s.dest.currentSize ∧
        ∃ size, strSize cells = some size ∧ size ≤ s.dest.currentSize) ∧
      ∀ status ∈ s.statuses, status = EFI_SUCCESS := by
  obtain ⟨s, hrun, hs, hcurrent, hstatuses⟩ := grow_run_holds (s := ⟨⟨none, 0⟩, [], env⟩) halloc
    hlimit hfuel calls .null (List.forall_mem_nil _) hsize
  have hcontents := hs.contents_eq
  rw [List.nil_append] at hs hcontents
  have h64 : s.dest.currentSize < 2 ^ 62 := hcurrent.trans_lt (hsize.trans_lt (by omega))
  exact ⟨s, hrun, hcontents, hs.fits h64, hstatuses⟩

/-- `ab`, then nothing, then the first two characters of `cde`. -/
def someAppends : List Append :=
  [⟨[0x61, 0x62], by simp [isChar, CHAR_NULL], 0⟩, ⟨[], by simp, 0⟩,
    ⟨[0x63, 0x64, 0x65], by simp [isChar, CHAR_NULL], 2⟩]

theorem grow_run_some :
    ∃ s, Loop.run (grow (fun (n : ℕ) _ => (true, n + 1)) 1000000 1) ⟨⟨none, 0⟩, [], 0⟩ someAppends =
        some s ∧
      contents s.dest = someAppends.flatMap piece ∧
      (∀ cells ∈ s.dest.buffer, 2 * cells.length = s.dest.currentSize ∧
        ∃ size, strSize cells = some size ∧ size ≤ s.dest.currentSize) ∧
      ∀ status ∈ s.statuses, status = EFI_SUCCESS :=
  grow_run (fun _ _ => rfl) (by decide) (by decide) someAppends (by decide) 0

/-! ### The string alone -/

/-- The loop over the size as the strings alone have it. -/
lemma growSize_eq {need count size : ℕ} (hlt : size < need) (hneed : need ≤ size + 4 * count) :
    ConsoleString.growSize need count size = size + 4 * count := by
  have hsum : size + 2 * count * 2 = size + 4 * count := by omega
  rw [ConsoleString.growSize, if_pos (by omega), hsum, ConsoleString.growSize, if_neg (by omega)]

lemma Holds.held_eq (h : Holds d text) :
    held d = if d.currentSize = 0 then none else some text := by
  cases h with
  | null => rfl
  | string _ rest chars =>
    rw [if_neg (by simp only; omega), held, Option.map_some, strAt_string chars]

/-- The string alone is appended to where the buffer has the room. -/
lemma strnCatS_room {destMax n : ℕ} (source : Str) (hlimit : destMax ≤ limit)
    (hroom : text.length + n < destMax) :
    ConsoleString.strnCatS limit text destMax source n = text ++ source.take n := by
  have hlen : (source.take n).length ≤ n := List.length_take_le n source
  rw [ConsoleString.strnCatS, if_neg (by omega), if_neg (by omega)]

/-- An append to the string alone. -/
lemma strnCatGrow_eq (halloc : ∀ env n, (allocate env n).1 = true) (h : Holds d text) (a : Append)
    (hsize : grownSize text.length d.currentSize a ≤ 2 * limit) (env : ε) :
    ConsoleString.strnCatGrow allocate limit (held d) (some d.currentSize) a.source a.count env =
      (if grownSize text.length d.currentSize a = 0 then none else some (text ++ piece a),
        some (grownSize text.length d.currentSize a),
        if d.currentSize < taken text.length d.currentSize + 2 * room a then
          (allocate env (d.currentSize + 4 * room a)).2 else env) := by
  have hcount : (if a.count = 0 then a.source.length else a.count) = room a := rfl
  have hheld : (if some d.currentSize = some 0 then none else held d) = held d := by
    rw [h.held_eq]
    split_ifs <;> simp_all
  have hstart : ((held d).map ConsoleString.strSize).getD 0 = taken text.length d.currentSize := by
    rw [h.held_eq, taken]
    split_ifs <;> rfl
  have htext : (held d).getD [] = text := h.contents_eq
  -- either there is no buffer, or the string and its terminator fit it
  have hfit : d.currentSize = 0 ∧ text = [] ∨
      2 * (text.length + 1) ≤ d.currentSize ∧ taken text.length d.currentSize =
        2 * (text.length + 1) := by
    cases h with
    | null => exact Or.inl ⟨rfl, rfl⟩
    | string _ rest chars => exact Or.inr ⟨by simp only; omega, taken_string _ _⟩
  unfold ConsoleString.strnCatGrow
  simp only [hheld, hstart, hcount, Nat.mul_comm (room a) 2]
  by_cases hlt : d.currentSize < taken text.length d.currentSize + 2 * room a
  · have hgrown : grownSize text.length d.currentSize a = d.currentSize + 4 * room a := if_pos hlt
    have hroom : text.length + room a < (d.currentSize + 4 * room a) / 2 ∧
        taken text.length d.currentSize + 2 * room a ≤ d.currentSize + 4 * room a := by
      rcases hfit with ⟨hzero, rfl⟩ | ⟨hle, htaken⟩
      · simp only [hzero, taken, if_true, List.length_nil] at hlt ⊢
        omega
      · omega
    rw [hgrown] at hsize ⊢
    simp only [if_pos hlt, growSize_eq hlt hroom.2, halloc env _, if_true, Option.map_some, htext]
    rw [strnCatS_room a.source (by omega) hroom.1, piece_eq, if_neg (by omega)]
  · have hgrown : grownSize text.length d.currentSize a = d.currentSize := if_neg hlt
    rw [hgrown] at hsize ⊢
    simp only [if_neg hlt, h.held_eq]
    rcases hfit with ⟨hzero, -⟩ | ⟨hle, htaken⟩
    · rw [if_pos hzero, if_pos hzero, Option.map_none]
    · rw [if_neg (by omega), if_neg (by omega), Option.map_some,
        strnCatS_room a.source (by omega) (by omega), piece_eq]

/-- **Refinement**: the buffer holds what the append of strings gives. -/
theorem consoleStrnCatGrow_refines (halloc : ∀ env n, (allocate env n).1 = true)
    (hlimit : limit < 2 ^ 32) (hfuel : 0 < fuel) (h : Holds d text) (a : Append)
    (hsize : grownSize text.length d.currentSize a ≤ 2 * limit) (env : ε) :
    (consoleStrnCatGrow allocate limit fuel d a.source a.count env).map
        (fun r => (held r.1, some r.1.currentSize, r.2.2)) =
      some (ConsoleString.strnCatGrow allocate limit (held d) (some d.currentSize) a.source a.count
        env) := by
  have hroom := room_le_grownSize text.length d.currentSize a
  have hle := le_grownSize text.length d.currentSize a
  obtain ⟨hstart, hnull, htaken, happended⟩ := h.appended hlimit a hsize
  rw [consoleStrnCatGrow_eq limit halloc hfuel a hnull hstart (by omega) (by omega) env,
    Option.map_some, happended.holds.held_eq, happended.size, strnCatGrow_eq halloc h a hsize]

end Runs

end UefiToolkit.GrowString
