import UefiToolkit.ArgsToken
import UefiToolkit.DispatchModel

/-!
Two readings of the first parameter of a line, before and after each `^` in front of a `#` is
dropped. They differ where a `#` stands behind an escaped `^`.
-/

namespace UefiToolkit.DispatchLine

open UefiToolkit.ArgsModel UefiToolkit.ArgsToken UefiToolkit.DispatchModel

/-- How often a `#` stands right behind an escaped `^` in the first parameter, which ends with an
unquoted space or where a comment begins; `behind` says that an escaped `^` was just passed. -/
def caretHashes (quoted behind : Bool) : Str → ℕ
  | [] => 0
  | c :: s =>
    if c = CHAR_ESCAPE then
      match s with
      | [] => 0
      | d :: t => caretHashes quoted (d = CHAR_ESCAPE) t
    else if c = CHAR_HASH then if behind then caretHashes quoted false s + 1 else 0
    else if c = CHAR_QUOTE then caretHashes (!quoted) false s
    else if c = CHAR_SPACE ∧ quoted = false then 0
    else caretHashes quoted false s

/-- The same count where no comment is looked for. -/
def hits (quoted behind : Bool) : Str → ℕ
  | [] => 0
  | c :: s =>
    if c = CHAR_ESCAPE then
      match s with
      | [] => 0
      | d :: t => hits quoted (d = CHAR_ESCAPE) t
    else if c = CHAR_HASH then hits quoted false s + behind.toNat
    else if c = CHAR_QUOTE then hits (!quoted) false s
    else if c = CHAR_SPACE ∧ quoted = false then 0
    else hits quoted false s

/-- The rest of the current token. -/
def headToken (quoted : Bool) : Str → Str
  | [] => []
  | c :: s =>
    if c = CHAR_ESCAPE then
      match s with
      | [] => []
      | d :: t => d :: headToken quoted t
    else if c = CHAR_QUOTE then headToken (!quoted) s
    else if c = CHAR_SPACE ∧ quoted = false then []
    else c :: headToken quoted s

/-! ### A line item by item -/

/-- A line is read escape by escape; a `#` behind an escaped `^` is kept with it. -/
lemma items_induction {P : Str → Prop} (nil : P []) (last : P [CHAR_ESCAPE])
    (hash : ∀ t, P t → P (CHAR_ESCAPE :: CHAR_HASH :: t))
    (caretHash : ∀ t, P t → P (CHAR_ESCAPE :: CHAR_ESCAPE :: CHAR_HASH :: t))
    (caret : ∀ t, t.head? ≠ some CHAR_HASH → P t → P (CHAR_ESCAPE :: CHAR_ESCAPE :: t))
    (escaped : ∀ d t, d ≠ CHAR_ESCAPE → d ≠ CHAR_HASH → P t → P (CHAR_ESCAPE :: d :: t))
    (plain : ∀ c t, c ≠ CHAR_ESCAPE → P t → P (c :: t)) (s : Str) : P s := by
  induction hk : s.length using Nat.strongRecOn generalizing s with
  | ind k ih =>
    have next (t : Str) (ht : t.length < s.length) : P t := ih t.length (hk ▸ ht) t rfl
    match s with
    | [] => exact nil
    | [c] =>
      by_cases hc : c = CHAR_ESCAPE
      · rw [hc]
        exact last
      · exact plain c [] hc nil
    | c :: d :: t =>
      by_cases hc : c = CHAR_ESCAPE
      · subst hc
        by_cases hd : d = CHAR_ESCAPE
        · subst hd
          match t with
          | [] => exact caret [] (by simp) nil
          | x :: t =>
            by_cases hx : x = CHAR_HASH
            · rw [hx]
              exact caretHash t (next t (by simp only [List.length_cons]; omega))
            · exact caret (x :: t) (by simpa using hx) (next (x :: t) (by simp))
        · by_cases hh : d = CHAR_HASH
          · rw [hh]
            exact hash t (next t (by simp only [List.length_cons]; omega))
          · exact escaped d t hd hh (next t (by simp only [List.length_cons]; omega))
      · exact plain c (d :: t) hc (next (d :: t) (by simp))

lemma hash_ne_escape : CHAR_HASH ≠ CHAR_ESCAPE := by decide
lemma hash_ne_quote : CHAR_HASH ≠ CHAR_QUOTE := by decide
lemma hash_ne_space : CHAR_HASH ≠ CHAR_SPACE := by decide

section Rules

variable {q b : Bool} {c d : UInt16} {s : Str}

lemma unescapeHash_hash :
    unescapeHash (CHAR_ESCAPE :: CHAR_HASH :: s) = CHAR_HASH :: unescapeHash s := by
  simp [unescapeHash]

lemma unescapeHash_escape (h : s.head? ≠ some CHAR_HASH) :
    unescapeHash (CHAR_ESCAPE :: s) = CHAR_ESCAPE :: unescapeHash s := by
  cases s with
  | nil => rfl
  | cons d s =>
    have hd : d ≠ CHAR_HASH := by simpa using h
    rw [unescapeHash, if_pos rfl]
    exact if_neg hd

lemma unescapeHash_plain (h : c ≠ CHAR_ESCAPE) : unescapeHash (c :: s) = c :: unescapeHash s := by
  cases s <;> simp [unescapeHash, h]

lemma dropComment_hash :
    dropComment (CHAR_ESCAPE :: CHAR_HASH :: s) = CHAR_ESCAPE :: CHAR_HASH :: dropComment s := by
  simp [dropComment]

lemma dropComment_escape (h : s.head? ≠ some CHAR_HASH) :
    dropComment (CHAR_ESCAPE :: s) = CHAR_ESCAPE :: dropComment s := by
  cases s with
  | nil => rfl
  | cons d s =>
    have hd : d ≠ CHAR_HASH := by simpa using h
    rw [dropComment, if_pos rfl]
    exact if_neg hd

lemma dropComment_comment : dropComment (CHAR_HASH :: s) = [] := by
  cases s <;> simp [dropComment, hash_ne_escape]

lemma dropComment_plain (h : c ≠ CHAR_ESCAPE) (hh : c ≠ CHAR_HASH) :
    dropComment (c :: s) = c :: dropComment s := by
  cases s <;> simp [dropComment, h, hh]

lemma headToken_escape : headToken q (CHAR_ESCAPE :: d :: s) = d :: headToken q s := by
  simp [headToken]

lemma headToken_plain (h : c ≠ CHAR_ESCAPE) : headToken q (c :: s) =
    if c = CHAR_QUOTE then headToken (!q) s
    else if c = CHAR_SPACE ∧ q = false then [] else c :: headToken q s := by
  cases s <;> simp [headToken, h]

lemma headToken_hash : headToken q (CHAR_HASH :: s) = CHAR_HASH :: headToken q s := by
  rw [headToken_plain hash_ne_escape, if_neg hash_ne_quote, if_neg fun h => hash_ne_space h.1]

lemma balanced_escape : balanced q (CHAR_ESCAPE :: d :: s) = balanced q s := by simp [balanced]

lemma balanced_plain (h : c ≠ CHAR_ESCAPE) :
    balanced q (c :: s) = balanced (if c = CHAR_QUOTE then !q else q) s := by
  by_cases hq : c = CHAR_QUOTE
  · subst hq
    cases s <;> simp [balanced, h]
  · cases s <;> simp [balanced, h, hq]

lemma balanced_hash : balanced q (CHAR_HASH :: s) = balanced q s := by
  rw [balanced_plain hash_ne_escape, if_neg hash_ne_quote]

lemma hits_escape : hits q b (CHAR_ESCAPE :: d :: s) = hits q (d = CHAR_ESCAPE) s := by
  simp [hits]

lemma hits_plain (h : c ≠ CHAR_ESCAPE) : hits q b (c :: s) =
    if c = CHAR_HASH then hits q false s + b.toNat
    else if c = CHAR_QUOTE then hits (!q) false s
    else if c = CHAR_SPACE ∧ q = false then 0 else hits q false s := by
  cases s <;> simp [hits, h]

lemma hits_hash : hits q b (CHAR_HASH :: s) = hits q false s + b.toNat := by
  rw [hits_plain hash_ne_escape, if_pos rfl]

/-- It only matters for a `#` what stands in front of it. -/
lemma hits_behind (h : s.head? ≠ some CHAR_HASH) : hits q b s = hits q false s := by
  cases s with
  | nil => rfl
  | cons c s =>
    have hc : c ≠ CHAR_HASH := by simpa using h
    by_cases he : c = CHAR_ESCAPE
    · subst he
      cases s with
      | nil => rfl
      | cons d s => rw [hits_escape, hits_escape]
    · rw [hits_plain he, hits_plain he, if_neg hc, if_neg hc]

end Rules

lemma head?_escape (s : Str) : (CHAR_ESCAPE :: s).head? ≠ some CHAR_HASH := by
  rw [List.head?_cons]
  decide

/-! ### The two readings -/

/-- The token under work is the first of the tokens. -/
lemma tokens_head {q : Bool} {t s : Str} {toks : List Str} (h : tokens q (some t) s = some toks) :
    ∃ rest, toks = (t ++ headToken q s) :: rest := by
  fun_induction headToken q s generalizing t with
  | case1 q =>
    cases q <;> simp [tokens] at h
    exact ⟨[], by rw [← h, List.append_nil]⟩
  | case2 q =>
    rw [tokens_last] at h
    split_ifs at h
    exact ⟨[], by rw [List.append_nil]; exact (Option.some.inj h).symm⟩
  | case3 q d s ih =>
    rw [tokens_escape] at h
    obtain ⟨rest, hrest⟩ := ih h
    exact ⟨rest, by rw [hrest]; simp⟩
  | case4 q s he ih =>
    rw [tokens_quote] at h
    exact ih h
  | case5 q c s he hq hsp =>
    obtain ⟨rfl, rfl⟩ := hsp
    rw [tokens_space] at h
    obtain ⟨rest, -, hrest⟩ := Option.map_eq_some_iff.mp h
    exact ⟨rest, by rw [← hrest, List.append_nil]⟩
  | case6 q c s he hq hsp ih =>
    rw [tokens_plain he hq fun hc => by simpa [hc] using hsp] at h
    obtain ⟨rest, hrest⟩ := ih h
    exact ⟨rest, by rw [hrest]; simp⟩

/-- Dropping the `^` in front of a `#` keeps quotes in pairs, and shortens the token by one
character for each `#` behind an escaped `^`. -/
structure Rewritten (q : Bool) (s : Str) : Prop where
  balanced : balanced q (unescapeHash s) = balanced q s
  length : (headToken q (unescapeHash s)).length + hits q false s = (headToken q s).length
  same : hits q false s = 0 → headToken q (unescapeHash s) = headToken q s

/-- An escaped character that is left as it is. -/
lemma Rewritten.escape {q : Bool} {d : UInt16} {s : Str} (h : Rewritten q s)
    (hrw : unescapeHash (CHAR_ESCAPE :: d :: s) = CHAR_ESCAPE :: d :: unescapeHash s)
    (hhits : hits q false (CHAR_ESCAPE :: d :: s) = hits q false s) :
    Rewritten q (CHAR_ESCAPE :: d :: s) := by
  have hlen := h.length
  refine ⟨?_, ?_, fun hzero => ?_⟩
  · rw [hrw, balanced_escape, balanced_escape, h.balanced]
  · rw [hrw, headToken_escape, headToken_escape, hhits, List.length_cons, List.length_cons]
    omega
  · rw [hrw, headToken_escape, headToken_escape, h.same (hhits ▸ hzero)]

lemma rewritten (q : Bool) (s : Str) : Rewritten q s := by
  induction s using items_induction generalizing q with
  | nil => exact ⟨rfl, rfl, fun _ => rfl⟩
  | last => exact ⟨rfl, rfl, fun _ => rfl⟩
  | hash s ih =>
    have hhits : hits q false (CHAR_ESCAPE :: CHAR_HASH :: s) = hits q false s := by
      rw [hits_escape, decide_eq_false hash_ne_escape]
    obtain ⟨hbal, hlen, hsame⟩ := ih q
    refine ⟨?_, ?_, fun h => ?_⟩
    · rw [unescapeHash_hash, balanced_hash, balanced_escape, hbal]
    · rw [unescapeHash_hash, headToken_hash, hhits, headToken_escape, List.length_cons,
        List.length_cons]
      omega
    · rw [unescapeHash_hash, headToken_hash, headToken_escape, hsame (hhits ▸ h)]
  | caretHash s ih =>
    have hrw : unescapeHash (CHAR_ESCAPE :: CHAR_ESCAPE :: CHAR_HASH :: s) =
        CHAR_ESCAPE :: CHAR_HASH :: unescapeHash s := by
      rw [unescapeHash_escape (head?_escape _), unescapeHash_hash]
    have hhits : hits q false (CHAR_ESCAPE :: CHAR_ESCAPE :: CHAR_HASH :: s) =
        hits q false s + 1 := by
      rw [hits_escape, decide_eq_true rfl, hits_hash, Bool.toNat_true]
    obtain ⟨hbal, hlen, -⟩ := ih q
    refine ⟨?_, ?_, fun h => ?_⟩
    · rw [hrw, balanced_escape, balanced_escape, balanced_hash, hbal]
    · rw [hrw, headToken_escape, headToken_escape, headToken_hash, hhits]
      simp only [List.length_cons]
      omega
    · rw [hhits] at h
      cases h
  | caret s hs ih =>
    have hrw : unescapeHash (CHAR_ESCAPE :: CHAR_ESCAPE :: s) =
        CHAR_ESCAPE :: CHAR_ESCAPE :: unescapeHash s := by
      rw [unescapeHash_escape (head?_escape _), unescapeHash_escape hs]
    have hhits : hits q false (CHAR_ESCAPE :: CHAR_ESCAPE :: s) = hits q false s := by
      rw [hits_escape, hits_behind hs]
    exact (ih q).escape hrw hhits
  | escaped d s hd hh ih =>
    have hrw : unescapeHash (CHAR_ESCAPE :: d :: s) = CHAR_ESCAPE :: d :: unescapeHash s := by
      rw [unescapeHash_escape (by simpa using hh), unescapeHash_plain hd]
    have hhits : hits q false (CHAR_ESCAPE :: d :: s) = hits q false s := by
      rw [hits_escape, decide_eq_false hd]
    exact (ih q).escape hrw hhits
  | plain c s hc ih =>
    have hbal : balanced q (unescapeHash (c :: s)) = balanced q (c :: s) := by
      rw [unescapeHash_plain hc, balanced_plain hc, balanced_plain hc, (ih _).balanced]
    rw [unescapeHash_plain hc] at hbal
    by_cases hq : c = CHAR_QUOTE
    · subst hq
      have hhits : hits q false (CHAR_QUOTE :: s) = hits (!q) false s := by
        rw [hits_plain hc, if_neg hash_ne_quote.symm, if_pos rfl]
      have hhead (t : Str) : headToken q (CHAR_QUOTE :: t) = headToken (!q) t := by
        rw [headToken_plain hc, if_pos rfl]
      obtain ⟨-, hlen, hsame⟩ := ih (!q)
      rw [← hhits, ← hhead, ← hhead] at hlen hsame
      exact ⟨unescapeHash_plain hc ▸ hbal, unescapeHash_plain hc ▸ hlen,
        unescapeHash_plain hc ▸ hsame⟩
    by_cases hsp : c = CHAR_SPACE ∧ q = false
    · obtain ⟨rfl, rfl⟩ := hsp
      have hhits : hits false false (CHAR_SPACE :: s) = 0 := by
        rw [hits_plain hc, if_neg hash_ne_space.symm, if_neg hq, if_pos ⟨rfl, rfl⟩]
      have hhead (t : Str) : headToken false (CHAR_SPACE :: t) = [] := by
        rw [headToken_plain hc, if_neg hq, if_pos ⟨rfl, rfl⟩]
      refine ⟨unescapeHash_plain hc ▸ hbal, ?_, fun _ => ?_⟩
      · rw [unescapeHash_plain hc, hhead, hhead, hhits]
        rfl
      · rw [unescapeHash_plain hc, hhead, hhead]
    · have hhits : hits q false (c :: s) = hits q false s := by
        rw [hits_plain hc, if_neg hq, if_neg hsp, Bool.toNat_false, Nat.add_zero, ite_self]
      have hhead (t : Str) : headToken q (c :: t) = c :: headToken q t := by
        rw [headToken_plain hc, if_neg hq, if_neg hsp]
      obtain ⟨-, hlen, hsame⟩ := ih q
      refine ⟨unescapeHash_plain hc ▸ hbal, ?_, fun h => ?_⟩
      · rw [unescapeHash_plain hc, hhead, hhead, hhits, List.length_cons, List.length_cons]
        omega
      · rw [unescapeHash_plain hc, hhead, hhead, hsame (hhits ▸ h)]

lemma headToken_agree_iff (q : Bool) (s : Str) :
    headToken q (unescapeHash s) = headToken q s ↔ hits q false s = 0 := by
  obtain ⟨-, hlen, hsame⟩ := rewritten q s
  refine ⟨fun h => ?_, hsame⟩
  rw [h] at hlen
  omega

end UefiToolkit.DispatchLine
