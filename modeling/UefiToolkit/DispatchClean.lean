import UefiToolkit.DispatchLine

/-!
What the cleaned line keeps of a line: neither a comment nor the blanks around it matter, and
dropping each `^` in front of a `#` leaves its ends in place.
-/

namespace UefiToolkit.DispatchClean

open UefiToolkit.ArgsModel UefiToolkit.DispatchModel UefiToolkit.DispatchLine

/-! ### Comments and blanks -/

lemma isBlank_hash : isBlank CHAR_HASH = false := by decide

lemma caretHashes_escape {q b : Bool} {d : UInt16} {s : Str} :
    caretHashes q b (CHAR_ESCAPE :: d :: s) = caretHashes q (d = CHAR_ESCAPE) s := by
  simp [caretHashes]

lemma caretHashes_plain {q b : Bool} {c : UInt16} {s : Str} (h : c ≠ CHAR_ESCAPE) :
    caretHashes q b (c :: s) =
      if c = CHAR_HASH then if b then caretHashes q false s + 1 else 0
      else if c = CHAR_QUOTE then caretHashes (!q) false s
      else if c = CHAR_SPACE ∧ q = false then 0 else caretHashes q false s := by
  cases s <;> simp [caretHashes, h]

lemma caretHashes_behind {q b : Bool} {s : Str} (h : s.head? ≠ some CHAR_HASH) :
    caretHashes q b s = caretHashes q false s := by
  cases s with
  | nil => rfl
  | cons c s =>
    have hc : c ≠ CHAR_HASH := by simpa using h
    by_cases he : c = CHAR_ESCAPE
    · subst he
      cases s with
      | nil => rfl
      | cons d s => rw [caretHashes_escape, caretHashes_escape]
    · rw [caretHashes_plain he, caretHashes_plain he, if_neg hc, if_neg hc]

lemma dropComment_head {s : Str} (h : s.head? ≠ some CHAR_HASH) :
    (dropComment s).head? = s.head? := by
  cases s with
  | nil => rfl
  | cons c s =>
    have hc : c ≠ CHAR_HASH := by simpa using h
    by_cases he : c = CHAR_ESCAPE
    · subst he
      cases s with
      | nil => rfl
      | cons d s =>
        by_cases hd : d = CHAR_HASH
        · rw [hd, dropComment_hash]
          rfl
        · rw [dropComment_escape (by simpa using hd)]
          rfl
    · rw [dropComment_plain he hc]
      rfl

/-- Only the part in front of the comment counts. -/
lemma hits_dropComment (q : Bool) (s : Str) :
    hits q false (dropComment s) = caretHashes q false s := by
  induction s using items_induction generalizing q with
  | nil => rfl
  | last => rfl
  | hash s ih =>
    rw [dropComment_hash, hits_escape, caretHashes_escape, decide_eq_false hash_ne_escape, ih]
  | caretHash s ih =>
    rw [dropComment_escape (head?_escape _), dropComment_hash, hits_escape, caretHashes_escape,
      decide_eq_true rfl, hits_hash, caretHashes_plain hash_ne_escape, if_pos rfl, if_pos rfl, ih]
    rfl
  | caret s hs ih =>
    have hhead : (dropComment s).head? ≠ some CHAR_HASH := by rwa [dropComment_head hs]
    rw [dropComment_escape (head?_escape _), dropComment_escape hs, hits_escape,
      caretHashes_escape, hits_behind hhead, caretHashes_behind hs, ih]
  | escaped d s hd hh ih =>
    rw [dropComment_escape (by simpa using hh), dropComment_plain hd hh, hits_escape,
      caretHashes_escape, decide_eq_false hd, ih]
  | plain c s hc ih =>
    by_cases hh : c = CHAR_HASH
    · subst hh
      rw [dropComment_comment, caretHashes_plain hc, if_pos rfl]
      rfl
    · rw [dropComment_plain hc hh, hits_plain hc, caretHashes_plain hc, if_neg hh, if_neg hh, ih,
        ih]

lemma blank_ne {c : UInt16} (h : isBlank c = true) : c ≠ CHAR_ESCAPE ∧ c ≠ CHAR_HASH := by
  constructor <;> rintro rfl <;> exact absurd h (by decide)

section Blanks

variable {blanks : Str} (hblanks : ∀ c ∈ blanks, isBlank c = true)

include hblanks

lemma hits_blanks (q b : Bool) : hits q b blanks = 0 := by
  induction blanks generalizing q b with
  | nil => rfl
  | cons c s ih =>
    obtain ⟨he, hh⟩ := blank_ne (hblanks c List.mem_cons_self)
    have hs (q : Bool) : hits q false s = 0 :=
      ih (fun x hx => hblanks x (List.mem_cons_of_mem c hx)) q false
    rw [hits_plain he, if_neg hh, hs, hs, ite_self, ite_self]

/-- Blanks behind a line do not count. -/
lemma hits_append_blanks (q b : Bool) (s : Str) : hits q b (s ++ blanks) = hits q b s := by
  fun_induction hits q b s with
  | case1 q b => exact hits_blanks hblanks q b
  | case2 q b =>
    cases blanks with
    | nil => rfl
    | cons c s =>
      rw [List.singleton_append, hits_escape]
      exact hits_blanks (fun x hx => hblanks x (List.mem_cons_of_mem c hx)) _ _
  | case3 q b d s ih => rw [List.cons_append, List.cons_append, hits_escape, ih]
  | case4 q b s he ih => rw [List.cons_append, hits_plain he, if_pos rfl, ih]
  | case5 q b s he hh ih => rw [List.cons_append, hits_plain he, if_neg hh, if_pos rfl, ih]
  | case6 q b c s he hh hq hsp =>
    rw [List.cons_append, hits_plain he, if_neg hh, if_neg hq, if_pos hsp]
  | case7 q b c s he hh hq hsp ih =>
    rw [List.cons_append, hits_plain he, if_neg hh, if_neg hq, if_neg hsp, ih]

lemma dropComment_blanks : dropComment blanks = blanks := by
  induction blanks with
  | nil => rfl
  | cons c s ih =>
    obtain ⟨he, hh⟩ := blank_ne (hblanks c List.mem_cons_self)
    rw [dropComment_plain he hh, ih fun x hx => hblanks x (List.mem_cons_of_mem c hx)]

lemma head?_blanks : blanks.head? ≠ some CHAR_HASH := by
  cases blanks with
  | nil => simp
  | cons c s => simpa using (blank_ne (hblanks c List.mem_cons_self)).2

lemma head?_append_blanks {s : Str} (h : s.head? ≠ some CHAR_HASH) :
    (s ++ blanks).head? ≠ some CHAR_HASH := by
  cases s with
  | nil => exact head?_blanks hblanks
  | cons c s => exact h

/-- Blanks behind a line are kept, or go with its comment. -/
lemma dropComment_append_blanks (s : Str) : ∃ kept : Str, (∀ c ∈ kept, isBlank c = true) ∧
    dropComment (s ++ blanks) = dropComment s ++ kept := by
  induction s using items_induction with
  | nil => exact ⟨blanks, hblanks, dropComment_blanks hblanks⟩
  | last =>
    refine ⟨blanks, hblanks, ?_⟩
    rw [List.singleton_append, dropComment_escape (head?_blanks hblanks),
      dropComment_blanks hblanks]
    rfl
  | hash s ih =>
    obtain ⟨kept, hkept, h⟩ := ih
    refine ⟨kept, hkept, ?_⟩
    rw [List.cons_append, List.cons_append, dropComment_hash, dropComment_hash, h]
    rfl
  | caretHash s ih =>
    obtain ⟨kept, hkept, h⟩ := ih
    refine ⟨kept, hkept, ?_⟩
    simp only [List.cons_append]
    rw [dropComment_escape (head?_escape _), dropComment_escape (head?_escape _),
      dropComment_hash, dropComment_hash, h]
    rfl
  | caret s hs ih =>
    obtain ⟨kept, hkept, h⟩ := ih
    refine ⟨kept, hkept, ?_⟩
    simp only [List.cons_append]
    rw [dropComment_escape (head?_escape _), dropComment_escape (head?_escape _),
      dropComment_escape hs, dropComment_escape (head?_append_blanks hblanks hs), h]
    rfl
  | escaped d s hd hh ih =>
    obtain ⟨kept, hkept, h⟩ := ih
    refine ⟨kept, hkept, ?_⟩
    simp only [List.cons_append]
    rw [dropComment_escape (by simpa using hh), dropComment_escape (by simpa using hh),
      dropComment_plain hd hh, dropComment_plain hd hh, h]
    rfl
  | plain c s hc ih =>
    obtain ⟨kept, hkept, h⟩ := ih
    by_cases hh : c = CHAR_HASH
    · refine ⟨[], by simp, ?_⟩
      rw [hh, List.cons_append, dropComment_comment, dropComment_comment]
      rfl
    · refine ⟨kept, hkept, ?_⟩
      rw [List.cons_append, dropComment_plain hc hh, dropComment_plain hc hh, h]
      rfl

lemma rdropWhile_append_blanks (s : Str) :
    (s ++ blanks).rdropWhile isBlank = s.rdropWhile isBlank := by
  induction blanks using List.reverseRecOn with
  | nil => rw [List.append_nil]
  | append_singleton blanks c ih =>
    rw [← List.append_assoc, List.rdropWhile_concat_pos _ _ _ (hblanks c (by simp))]
    exact ih fun x hx => hblanks x (List.mem_append_left [c] hx)

lemma trimSpaces_append_blanks (s : Str) : trimSpaces (s ++ blanks) = trimSpaces s := by
  unfold trimSpaces
  rw [List.dropWhile_append]
  split
  · next h =>
    rw [List.dropWhile_eq_nil_iff.mpr hblanks, List.isEmpty_iff.mp h]
  · rw [rdropWhile_append_blanks hblanks]

end Blanks

/-! ### The cleaned line -/

lemma getLast?_tail {a : UInt16} {s : Str} (h : (a :: s).getLast? ≠ some CHAR_ESCAPE) :
    s.getLast? ≠ some CHAR_ESCAPE := by
  intro hs
  rw [List.getLast?_cons, hs] at h
  exact h rfl

/-- A `#` without a `^` in front of it ends the line. -/
lemma dropComment_append_hash (rest : Str) {s : Str} (h : s.getLast? ≠ some CHAR_ESCAPE) :
    dropComment (s ++ CHAR_HASH :: rest) = dropComment s := by
  induction s using items_induction with
  | nil => exact dropComment_comment
  | last => exact absurd rfl h
  | hash s ih =>
    rw [List.cons_append, List.cons_append, dropComment_hash, dropComment_hash,
      ih (getLast?_tail (getLast?_tail h))]
  | caretHash s ih =>
    simp only [List.cons_append]
    rw [dropComment_escape (head?_escape _), dropComment_escape (head?_escape _),
      dropComment_hash, dropComment_hash, ih (getLast?_tail (getLast?_tail (getLast?_tail h)))]
  | caret s hs ih =>
    have hhead : (s ++ CHAR_HASH :: rest).head? ≠ some CHAR_HASH := by
      cases s with
      | nil => exact absurd rfl h
      | cons c s => exact hs
    simp only [List.cons_append]
    rw [dropComment_escape (head?_escape _), dropComment_escape (head?_escape _),
      dropComment_escape hs, dropComment_escape hhead, ih (getLast?_tail (getLast?_tail h))]
  | escaped d s hd hh ih =>
    simp only [List.cons_append]
    rw [dropComment_escape (by simpa using hh), dropComment_escape (by simpa using hh),
      dropComment_plain hd hh, dropComment_plain hd hh, ih (getLast?_tail (getLast?_tail h))]
  | plain c s hc ih =>
    by_cases hh : c = CHAR_HASH
    · rw [hh, List.cons_append, dropComment_comment, dropComment_comment]
    · rw [List.cons_append, dropComment_plain hc hh, dropComment_plain hc hh, ih (getLast?_tail h)]

lemma rtakeWhile_blank (s : Str) : ∀ c ∈ s.rtakeWhile isBlank, isBlank c = true :=
  fun _ hc => List.mem_rtakeWhile_imp hc

lemma rdropWhile_append_hash (s rest : Str) :
    (s ++ CHAR_HASH :: rest).rdropWhile isBlank =
      s ++ CHAR_HASH :: rest.rdropWhile isBlank := by
  induction rest using List.reverseRecOn with
  | nil => exact List.rdropWhile_concat_neg _ _ _ (by simp [isBlank_hash])
  | append_singleton rest c ih =>
    rw [← List.cons_append, ← List.append_assoc, List.rdropWhile_concat, List.rdropWhile_concat]
    split_ifs
    · exact ih
    · simp

/-- The text from an unescaped `#` on does not reach the cleaned line. -/
lemma cleanOriginal_comment {before : Str} (rest : Str)
    (h : before.getLast? ≠ some CHAR_ESCAPE) :
    cleanOriginal (before ++ CHAR_HASH :: rest) = cleanOriginal before := by
  have hlast : (before.dropWhile isBlank).getLast? ≠ some CHAR_ESCAPE := by
    intro hd
    obtain ⟨p, hp⟩ := List.dropWhile_suffix isBlank (l := before)
    rw [← hp, List.getLast?_append, hd] at h
    exact h rfl
  have hdrop : (before ++ CHAR_HASH :: rest).dropWhile isBlank =
      before.dropWhile isBlank ++ CHAR_HASH :: rest := by
    rw [List.dropWhile_append]
    split
    · next hnil =>
      rw [List.isEmpty_iff.mp hnil, List.dropWhile_cons_of_neg (by simp [isBlank_hash])]
      rfl
    · rfl
  obtain ⟨kept, hkept, hcomment⟩ := dropComment_append_blanks
    (rtakeWhile_blank (before.dropWhile isBlank)) ((before.dropWhile isBlank).rdropWhile isBlank)
  rw [List.rdropWhile_append_rtakeWhile] at hcomment
  have htrim : trimSpaces (before ++ CHAR_HASH :: rest) =
      before.dropWhile isBlank ++ CHAR_HASH :: rest.rdropWhile isBlank := by
    rw [trimSpaces, hdrop, rdropWhile_append_hash]
  unfold cleanOriginal
  rw [htrim, dropComment_append_hash _ hlast, hcomment, trimSpaces_append_blanks hkept]
  rfl

/-- A string whose first character is no blank. -/
def Opens (s : Str) : Prop := ∀ c ∈ s.head?, isBlank c = false

lemma Opens.dropWhile {s : Str} (h : Opens s) : s.dropWhile isBlank = s := by
  cases s with
  | nil => rfl
  | cons c s => exact List.dropWhile_cons_of_neg (by simp [h c rfl])

lemma opens_dropWhile (s : Str) : Opens (s.dropWhile isBlank) := by
  intro c hc
  have h := List.head?_dropWhile_not isBlank s
  rw [Option.mem_def.mp hc] at h
  exact h

lemma Opens.rdropWhile {s : Str} (h : Opens s) : Opens (s.rdropWhile isBlank) := by
  intro c hc
  obtain ⟨t, ht⟩ := List.rdropWhile_prefix isBlank (l := s)
  refine h c ?_
  rw [← ht, List.head?_append, Option.mem_def.mp hc]
  rfl

lemma Opens.dropComment {s : Str} (h : Opens s) : Opens (dropComment s) := by
  by_cases hh : s.head? = some CHAR_HASH
  · cases s with
    | nil => cases hh
    | cons c s =>
      obtain rfl : c = CHAR_HASH := by simpa using hh
      rw [dropComment_comment]
      exact fun _ hc => nomatch hc
  · unfold Opens
    rwa [dropComment_head hh]

/-- The count of the line is that of the cleaned line. -/
lemma hits_cleanOriginal (q : Bool) (line : Str) :
    hits q false (cleanOriginal line) = caretHashes q false (line.dropWhile isBlank) := by
  set opened := line.dropWhile isBlank with hopened
  have hopens : Opens opened := opens_dropWhile line
  obtain ⟨kept, hkept, hcomment⟩ := dropComment_append_blanks
    (rtakeWhile_blank opened) (opened.rdropWhile isBlank)
  rw [List.rdropWhile_append_rtakeWhile] at hcomment
  calc hits q false (cleanOriginal line)
      = hits q false ((DispatchModel.dropComment (opened.rdropWhile isBlank)).rdropWhile
          isBlank) := by
        rw [cleanOriginal, trimSpaces, trimSpaces, ← hopened,
          hopens.rdropWhile.dropComment.dropWhile]
    _ = hits q false (DispatchModel.dropComment (opened.rdropWhile isBlank)) := by
        rw [← hits_append_blanks (rtakeWhile_blank _), List.rdropWhile_append_rtakeWhile]
    _ = hits q false (DispatchModel.dropComment opened) := by
        rw [hcomment, hits_append_blanks hkept]
    _ = caretHashes q false opened := hits_dropComment q opened

lemma opens_trimSpaces (s : Str) : Opens (trimSpaces s) := (opens_dropWhile s).rdropWhile

lemma Opens.unescapeHash {s : Str} (h : Opens s) : Opens (unescapeHash s) := by
  induction s using items_induction with
  | nil => exact h
  | last => exact h
  | hash s =>
    rw [unescapeHash_hash]
    rintro c ⟨rfl⟩
    exact isBlank_hash
  | caretHash s => rwa [unescapeHash_escape (head?_escape _)]
  | caret s => rwa [unescapeHash_escape (head?_escape _)]
  | escaped d s hd hh => rwa [unescapeHash_escape (by simpa using hh)]
  | plain c s hc => rwa [unescapeHash_plain hc]

lemma getLast?_unescapeHash (s : Str) : (unescapeHash s).getLast? = s.getLast? := by
  induction s using items_induction with
  | nil => rfl
  | last => rfl
  | hash s ih =>
    rw [unescapeHash_hash]
    simp [List.getLast?_cons, ih]
  | caretHash s ih =>
    rw [unescapeHash_escape (head?_escape _), unescapeHash_hash]
    simp [List.getLast?_cons, ih]
  | caret s hs ih =>
    rw [unescapeHash_escape (head?_escape _), unescapeHash_escape hs]
    simp [List.getLast?_cons, ih]
  | escaped d s hd hh ih =>
    rw [unescapeHash_escape (by simpa using hh), unescapeHash_plain hd]
    simp [List.getLast?_cons, ih]
  | plain c s hc ih => rw [unescapeHash_plain hc, List.getLast?_cons, List.getLast?_cons, ih]

lemma unescapeHash_ne_nil {s : Str} (h : s ≠ []) : unescapeHash s ≠ [] := by
  intro hnil
  have hlast := getLast?_unescapeHash s
  rw [hnil, List.getLast?_nil] at hlast
  exact h (List.getLast?_eq_none_iff.mp hlast.symm)

lemma unescapeHash_sublist (s : Str) : (unescapeHash s).Sublist s := by
  fun_induction unescapeHash s with
  | case1 => exact List.Sublist.refl _
  | case2 => exact List.Sublist.refl _
  | case3 s ih => exact (ih.cons_cons CHAR_HASH).cons CHAR_ESCAPE
  | case4 d s hd ih => exact ih.cons_cons CHAR_ESCAPE
  | case5 c s hc ih => exact ih.cons_cons c

lemma dropComment_sublist (s : Str) : (dropComment s).Sublist s := by
  fun_induction dropComment s with
  | case1 => exact List.Sublist.refl _
  | case2 => exact List.Sublist.refl _
  | case3 s ih => exact (ih.cons_cons CHAR_HASH).cons_cons CHAR_ESCAPE
  | case4 d s hd ih => exact ih.cons_cons CHAR_ESCAPE
  | case5 s => exact List.nil_sublist _
  | case6 c s hc hh ih => exact ih.cons_cons c

/-- Dropping `^` leaves the ends of a cleaned line in place. -/
lemma trimSpaces_unescapeHash (line : Str) :
    trimSpaces (unescapeHash (trimSpaces line)) = unescapeHash (trimSpaces line) := by
  have hopens : Opens (trimSpaces line) := opens_trimSpaces line
  rw [trimSpaces, hopens.unescapeHash.dropWhile, List.rdropWhile_eq_self_iff]
  intro hne hblank
  have hne' : trimSpaces line ≠ [] := fun h0 => hne (by rw [h0]; rfl)
  have hlast : (unescapeHash (trimSpaces line)).getLast hne = (trimSpaces line).getLast hne' := by
    have h := getLast?_unescapeHash (trimSpaces line)
    rwa [List.getLast?_eq_some_getLast hne, List.getLast?_eq_some_getLast hne',
      Option.some_inj] at h
  rw [hlast] at hblank
  exact List.rdropWhile_last_not isBlank (line.dropWhile isBlank) hne' hblank

end UefiToolkit.DispatchClean
