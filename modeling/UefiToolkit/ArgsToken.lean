import UefiToolkit.ArgsModel

/-!
The tokens of a command line.

One pass from left to right: spaces outside quotes part tokens, an escape character stands for
the character behind it, and quotes are dropped. Scanning for the end of a parameter and then
editing the parameter comes to the same.
-/

namespace UefiToolkit.ArgsToken

open UefiToolkit.ArgsModel

/-- The tokens from the current one on, which may not have begun; `none` if a quote is open at
the end. -/
def tokens (quoted : Bool) (current : Option Str) : Str → Option (List Str)
  | [] => if quoted then none else some current.toList
  | c :: s =>
    if c = CHAR_ESCAPE then
      match s with
      | [] => if quoted then none else some [current.getD []]
      | d :: s => tokens quoted (some (current.getD [] ++ [d])) s
    else if c = CHAR_QUOTE then tokens (!quoted) (some (current.getD [])) s
    else if c = CHAR_SPACE ∧ quoted = false then
      match current with
      | none => tokens false none s
      | some t => (tokens false none s).map (t :: ·)
    else tokens quoted (some (current.getD [] ++ [c])) s

def tokenize (line : Str) : Option (List Str) := tokens false none line

/-- The quotes that are not escaped come in pairs. -/
def balanced (quoted : Bool) : Str → Bool
  | [] => !quoted
  | c :: s =>
    if c = CHAR_ESCAPE then
      match s with
      | [] => !quoted
      | _ :: s => balanced quoted s
    else if c = CHAR_QUOTE then balanced (!quoted) s
    else balanced quoted s

/-- A parameter without its quotes and escape characters. -/
def unescape : Str → Str
  | [] => []
  | c :: s =>
    if c = CHAR_ESCAPE then
      match s with
      | [] => []
      | d :: s => d :: unescape s
    else if c = CHAR_QUOTE then unescape s
    else c :: unescape s

section Rules

variable {quoted : Bool} {current : Option Str} {c d : UInt16} {s : Str}

lemma tokens_escape : tokens quoted current (CHAR_ESCAPE :: d :: s) =
    tokens quoted (some (current.getD [] ++ [d])) s := by
  simp [tokens]

lemma tokens_last : tokens quoted current [CHAR_ESCAPE] =
    if quoted then none else some [current.getD []] := by
  simp [tokens]

lemma tokens_quote : tokens quoted current (CHAR_QUOTE :: s) =
    tokens (!quoted) (some (current.getD [])) s := by
  cases s <;> simp [tokens, show CHAR_QUOTE ≠ CHAR_ESCAPE by decide]

lemma tokens_space : tokens false current (CHAR_SPACE :: s) =
    match current with
    | none => tokens false none s
    | some t => (tokens false none s).map (t :: ·) := by
  cases s <;> simp [tokens, show CHAR_SPACE ≠ CHAR_ESCAPE by decide,
    show CHAR_SPACE ≠ CHAR_QUOTE by decide]

lemma tokens_plain (he : c ≠ CHAR_ESCAPE) (hq : c ≠ CHAR_QUOTE)
    (hs : c = CHAR_SPACE → quoted = true) : tokens quoted current (c :: s) =
    tokens quoted (some (current.getD [] ++ [c])) s := by
  have hs' : ¬ (c = CHAR_SPACE ∧ quoted = false) := by
    rintro ⟨h1, h2⟩
    rw [hs h1] at h2
    cases h2
  cases s <;> simp [tokens, he, hq, hs']

lemma unescape_escape : unescape (CHAR_ESCAPE :: d :: s) = d :: unescape s := by simp [unescape]

lemma unescape_last : unescape [CHAR_ESCAPE] = [] := by simp [unescape]

lemma unescape_quote : unescape (CHAR_QUOTE :: s) = unescape s := by
  cases s <;> simp [unescape, show CHAR_QUOTE ≠ CHAR_ESCAPE by decide]

lemma unescape_plain (he : c ≠ CHAR_ESCAPE) (hq : c ≠ CHAR_QUOTE) :
    unescape (c :: s) = c :: unescape s := by
  cases s <;> simp [unescape, he, hq]

end Rules

lemma tokens_isSome (quoted : Bool) (current : Option Str) (s : Str) :
    (tokens quoted current s).isSome = balanced quoted s := by
  fun_induction balanced quoted s generalizing current with
  | case1 quoted => cases quoted <;> rfl
  | case2 quoted => rw [tokens_last]; cases quoted <;> rfl
  | case3 quoted d s ih => rw [tokens_escape, ih]
  | case4 quoted s he ih => rw [tokens_quote, ih]
  | case5 quoted c s he hq ih =>
    by_cases hs : c = CHAR_SPACE → quoted = true
    · rw [tokens_plain he hq hs, ih]
    · push Not at hs
      obtain ⟨rfl, hquoted⟩ := hs
      obtain rfl : quoted = false := by simpa using hquoted
      rw [tokens_space]
      cases current with
      | none => exact ih none
      | some t => rw [Option.isSome_map, ih]

/-! ### Scanning -/

/-- The characters that end a stretch of a parameter. -/
def stops (quoted : Bool) : Str := if quoted then [CHAR_QUOTE] else [CHAR_SPACE, CHAR_QUOTE]

lemma not_mem_stops {quoted : Bool} {c : UInt16} (h : c ∉ stops quoted) :
    c ≠ CHAR_QUOTE ∧ (c = CHAR_SPACE → quoted = true) := by
  cases quoted <;> simp_all [stops]

/-- Up to the first stop `c`, the characters of the token are those of the edited stretch. -/
structure Stretch (quoted : Bool) (pre : Str) (c : UInt16) (r : Str) : Prop where
  stop : c ∈ stops quoted
  tokens : ∀ t, tokens quoted (some t) (pre ++ c :: r) =
    tokens quoted (some (t ++ unescape pre)) (c :: r)
  unescape : ∀ r', unescape (pre ++ r') = unescape pre ++ unescape r'

lemma findFirstCharacter_spec (quoted : Bool) (s : Str) :
    (findFirstCharacter (stops quoted) CHAR_ESCAPE s = s.length ∧ ∀ t,
      tokens quoted (some t) s = if quoted then none else some [t ++ unescape s]) ∨
    ∃ pre c r, s = pre ++ c :: r ∧
      findFirstCharacter (stops quoted) CHAR_ESCAPE s = pre.length ∧ Stretch quoted pre c r := by
  fun_induction findFirstCharacter (stops quoted) CHAR_ESCAPE s with
  | case1 => exact Or.inl ⟨rfl, fun t => by cases quoted <;> simp [tokens, unescape]⟩
  | case2 =>
    refine Or.inl ⟨rfl, fun t => ?_⟩
    rw [tokens_last, unescape_last, List.append_nil]
    rfl
  | case3 d s ih =>
    rcases ih with ⟨hlen, htok⟩ | ⟨pre, c, r, hs, hlen, hst⟩
    · refine Or.inl ⟨by rw [hlen]; rfl, fun t => ?_⟩
      rw [tokens_escape, unescape_escape, Option.getD_some, htok, List.append_assoc]
      rfl
    · refine Or.inr ⟨CHAR_ESCAPE :: d :: pre, c, r, by rw [hs]; rfl, by rw [hlen]; rfl,
        hst.stop, fun t => ?_, fun r' => ?_⟩
      · rw [List.cons_append, List.cons_append, tokens_escape, unescape_escape,
          Option.getD_some, hst.tokens, List.append_assoc]
        rfl
      · rw [List.cons_append, List.cons_append, unescape_escape, unescape_escape, hst.unescape]
        rfl
  | case4 c s he hmem =>
    exact Or.inr ⟨[], c, s, rfl, rfl, hmem, fun t => by simp [unescape],
      fun r' => by simp [unescape]⟩
  | case5 c s he hmem ih =>
    obtain ⟨hq, hs⟩ := not_mem_stops hmem
    rcases ih with ⟨hlen, htok⟩ | ⟨pre, c', r, hsplit, hlen, hst⟩
    · refine Or.inl ⟨by rw [hlen]; rfl, fun t => ?_⟩
      rw [tokens_plain he hq hs, unescape_plain he hq, Option.getD_some, htok, List.append_assoc]
      rfl
    · refine Or.inr ⟨c :: pre, c', r, by rw [hsplit]; rfl, by rw [hlen]; rfl,
        hst.stop, fun t => ?_, fun r' => ?_⟩
      · rw [List.cons_append, tokens_plain he hq hs, unescape_plain he hq, Option.getD_some,
          hst.tokens, List.append_assoc]
        rfl
      · rw [List.cons_append, unescape_plain he hq, unescape_plain he hq, hst.unescape]
        rfl

/-- A parameter `pre` ends here: at the end of the line, or in front of a space. -/
def Ends (pre rest : Str) : Prop :=
  rest = [] ∧ (∀ t, tokens false (some t) pre = some [t ++ unescape pre]) ∨
    ∃ r, rest = CHAR_SPACE :: r ∧
      ∀ t, tokens false (some t) (pre ++ rest) = tokens false (some (t ++ unescape pre)) rest

/-- The end of a parameter is where its token ends; an open quote has none. -/
lemma findEndOfParameter_spec (s : Str) :
    (findEndOfParameter s = none ∧ ∀ t, tokens false (some t) s = none) ∨
    ∃ pre rest, s = pre ++ rest ∧ findEndOfParameter s = some pre.length ∧ Ends pre rest := by
  induction hk : s.length using Nat.strongRecOn generalizing s with
  | ind k ih =>
    rw [findEndOfParameter]
    dsimp only
    rcases findFirstCharacter_spec false s with ⟨hlen, htok⟩ | ⟨pre, c, r, rfl, hlen, hst⟩
    · change findFirstCharacter [CHAR_SPACE, CHAR_QUOTE] CHAR_ESCAPE s = _ at hlen
      rw [hlen]
      refine Or.inr ⟨s, [], (List.append_nil s).symm, ?_, Or.inl ⟨rfl, htok⟩⟩
      rw [List.drop_length]
    · change findFirstCharacter [CHAR_SPACE, CHAR_QUOTE] CHAR_ESCAPE _ = _ at hlen
      rw [hlen, List.drop_left' rfl]
      by_cases hc : c = CHAR_SPACE
      · subst hc
        exact Or.inr ⟨pre, CHAR_SPACE :: r, rfl, rfl, Or.inr ⟨r, rfl, hst.tokens⟩⟩
      · -- a quoted stretch, and what follows the closing quote
        obtain rfl : c = CHAR_QUOTE := by
          rcases List.mem_cons.mp hst.stop with h | h
          · exact absurd h hc
          · simpa using h
        simp only [if_neg hc]
        rcases findFirstCharacter_spec true r with ⟨hlen', htok'⟩ | ⟨pre', c, u, rfl, hlen', hst'⟩
        · change findFirstCharacter [CHAR_QUOTE] CHAR_ESCAPE r = _ at hlen'
          rw [hlen', List.drop_length]
          refine Or.inl ⟨rfl, fun t => ?_⟩
          rw [hst.tokens, tokens_quote, Bool.not_false, htok']
          rfl
        · change findFirstCharacter [CHAR_QUOTE] CHAR_ESCAPE _ = _ at hlen'
          obtain rfl : c = CHAR_QUOTE := by simpa [stops] using hst'.stop
          rw [hlen', List.drop_left' rfl]
          -- both stretches are edited one by one
          have hstep : ∀ t, tokens false (some t) (pre ++ CHAR_QUOTE :: (pre' ++ CHAR_QUOTE :: u)) =
              tokens false (some (t ++ unescape pre ++ unescape pre')) u := by
            intro t
            rw [hst.tokens, tokens_quote, Bool.not_false, Option.getD_some, hst'.tokens,
              tokens_quote]
            rfl
          have hedit : ∀ v, unescape (pre ++ CHAR_QUOTE :: (pre' ++ CHAR_QUOTE :: v)) =
              unescape pre ++ unescape pre' ++ unescape v := by
            intro v
            rw [hst.unescape, unescape_quote, hst'.unescape, unescape_quote, List.append_assoc]
          have hshort : u.length < k := by
            rw [← hk]
            simp only [List.length_append, List.length_cons]
            omega
          rcases ih u.length hshort u rfl with ⟨hnone, htok⟩ | ⟨v, rest, rfl, hsome, hends⟩
          · refine Or.inl ⟨?_, fun t => by rw [hstep, htok]⟩
            simp only [hnone, Option.map_none]
          · refine Or.inr ⟨pre ++ CHAR_QUOTE :: (pre' ++ CHAR_QUOTE :: v), rest, by simp, ?_, ?_⟩
            · simp only [hsome, Option.map_some, List.length_append, List.length_cons]
              congr 1
              omega
            · rcases hends with ⟨rfl, hfin⟩ | ⟨r, rfl, hnext⟩
              · refine Or.inl ⟨rfl, fun t => ?_⟩
                rw [List.append_nil] at hstep
                rw [hstep, hfin, hedit]
                simp only [List.append_assoc]
              · refine Or.inr ⟨r, rfl, fun t => ?_⟩
                have hassoc : pre ++ CHAR_QUOTE :: (pre' ++ CHAR_QUOTE :: v) ++ CHAR_SPACE :: r =
                    pre ++ CHAR_QUOTE :: (pre' ++ CHAR_QUOTE :: (v ++ CHAR_SPACE :: r)) := by
                  simp
                rw [hassoc, hstep, hnext, hedit]
                simp only [List.append_assoc]

/-! ### The edited parameter -/

/-- Up to the first quote or escape character nothing is edited. -/
lemma findSpecial_spec {s : Str} (hs : CHAR_NULL ∉ s) :
    (findFirstCharacter [CHAR_QUOTE, CHAR_ESCAPE] CHAR_NULL s = s.length ∧ unescape s = s) ∨
    ∃ pre c r, s = pre ++ c :: r ∧
      findFirstCharacter [CHAR_QUOTE, CHAR_ESCAPE] CHAR_NULL s = pre.length ∧
      (c = CHAR_QUOTE ∨ c = CHAR_ESCAPE) ∧ ∀ r', unescape (pre ++ r') = pre ++ unescape r' := by
  induction s with
  | nil => exact Or.inl ⟨rfl, rfl⟩
  | cons c s ih =>
    have hc : c ≠ CHAR_NULL := fun h => hs (by rw [h]; simp)
    by_cases hmem : c ∈ [CHAR_QUOTE, CHAR_ESCAPE]
    · exact Or.inr ⟨[], c, s, rfl, findFirstCharacter_found hc hmem, by simpa using hmem,
        fun r' => rfl⟩
    · have hq : c ≠ CHAR_QUOTE := fun h => hmem (by simp [h])
      have he : c ≠ CHAR_ESCAPE := fun h => hmem (by simp [h])
      rw [findFirstCharacter_next hc hmem]
      rcases ih (fun h => hs (List.mem_cons_of_mem c h)) with
        ⟨hlen, hun⟩ | ⟨pre, d, r, rfl, hlen, hd, hun⟩
      · exact Or.inl ⟨by rw [hlen]; rfl, by rw [unescape_plain he hq, hun]⟩
      · refine Or.inr ⟨c :: pre, d, r, rfl, by rw [hlen]; rfl, hd, fun r' => ?_⟩
        rw [List.cons_append, unescape_plain he hq, hun]
        rfl

lemma isChar_of_notMem {s : Str} (hs : CHAR_NULL ∉ s) : ∀ c ∈ s, isChar c = true := by
  intro c hc
  have : c ≠ CHAR_NULL := fun h => hs (h ▸ hc)
  simpa [isChar] using this

lemma strAt_append (pre tail : List UInt16) {s : Str} (hs : CHAR_NULL ∉ s) :
    strAt (pre ++ (s ++ CHAR_NULL :: tail)) pre.length = s := by
  rw [strAt, List.drop_left' rfl, List.takeWhile_append_of_pos (isChar_of_notMem hs),
    List.takeWhile_cons_of_neg (by simp [isChar]), List.append_nil]

lemma dropCell_append (pre tail : List UInt16) (c : UInt16) {s : Str} (hs : CHAR_NULL ∉ s) :
    dropCell (pre ++ c :: (s ++ CHAR_NULL :: tail)) pre.length =
      pre ++ (s ++ CHAR_NULL :: CHAR_NULL :: tail) := by
  have hcells : pre ++ c :: (s ++ CHAR_NULL :: tail) =
      (pre ++ [c]) ++ (s ++ CHAR_NULL :: tail) := by
    simp
  have hlen : pre.length + 1 = (pre ++ [c]).length := by simp
  have hstr : strAt (pre ++ c :: (s ++ CHAR_NULL :: tail)) (pre.length + 1) = s := by
    rw [hcells, hlen, strAt_append _ _ hs]
  have hrest : (pre ++ c :: (s ++ CHAR_NULL :: tail)).drop (pre.length + (s.length + 1)) =
      CHAR_NULL :: tail := by
    have hall : pre ++ c :: (s ++ CHAR_NULL :: tail) = (pre ++ c :: s) ++ CHAR_NULL :: tail := by
      simp
    rw [hall, List.drop_left' (by simp)]
  unfold dropCell copyCells
  rw [hstr, hrest, List.take_left' rfl, hcells, hlen, List.drop_left' rfl,
    List.take_length_add_append, List.append_assoc]
  simp

lemma unescape_subset (s : Str) : ∀ c ∈ unescape s, c ∈ s := by
  fun_induction unescape s with
  | case1 => simp
  | case2 => simp
  | case3 d s ih =>
    intro c hc
    rcases List.mem_cons.mp hc with rfl | hc
    · simp
    · exact List.mem_cons_of_mem _ (List.mem_cons_of_mem _ (ih c hc))
  | case4 s he ih => exact fun c hc => List.mem_cons_of_mem _ (ih c hc)
  | case5 c s he hq ih =>
    intro x hx
    rcases List.mem_cons.mp hx with rfl | hx
    · simp
    · exact List.mem_cons_of_mem _ (ih x hx)

/-- The loop leaves the edited string in place of the string. -/
lemma removeLoop_spec (pre tail : List UInt16) {s : Str} (hs : CHAR_NULL ∉ s) :
    ∃ tail', removeLoop true (pre ++ (s ++ CHAR_NULL :: tail)) pre.length =
      pre ++ (unescape s ++ CHAR_NULL :: tail') := by
  induction hk : s.length using Nat.strongRecOn generalizing s pre tail with
  | ind k ih =>
    rw [removeLoop, strAt_append pre tail hs]
    rcases findSpecial_spec hs with ⟨hlen, hun⟩ | ⟨p, c, r, rfl, hlen, hc, hun⟩
    · have hend : strAt (pre ++ (s ++ CHAR_NULL :: tail)) (pre.length + s.length) = [] := by
        have h := strAt_append (pre ++ s) tail (s := []) (by simp)
        simpa using h
      rw [hlen, hend]
      exact ⟨tail, by rw [hun]⟩
    · have hr : CHAR_NULL ∉ r := fun h => hs (by simp [h])
      have hcr : CHAR_NULL ∉ c :: r := fun h => hs (List.mem_append_right p h)
      have hcells : pre ++ (p ++ c :: r ++ CHAR_NULL :: tail) =
          (pre ++ p) ++ (c :: r ++ CHAR_NULL :: tail) := by simp
      have hfound : strAt ((pre ++ p) ++ (c :: r ++ CHAR_NULL :: tail)) (pre ++ p).length =
          c :: r := strAt_append _ _ hcr
      have hdrop := dropCell_append (pre ++ p) tail c hr
      rw [hlen, hcells, ← List.length_append, hfound]
      dsimp only
      rw [List.cons_append, hdrop]
      have hshort : r.length < k := by
        rw [← hk, List.length_append, List.length_cons]
        omega
      rcases hc with rfl | rfl
      · -- a quote goes, and the scan goes on in its place
        rw [if_neg (by decide), if_pos rfl]
        obtain ⟨tail', h⟩ := ih r.length hshort (pre ++ p) (CHAR_NULL :: tail) hr rfl
        refine ⟨tail', ?_⟩
        rw [h, hun, unescape_quote]
        simp
      · rw [if_pos rfl]
        cases r with
        | nil =>
          -- behind a last escape character the old terminator still stands
          obtain ⟨tail', h⟩ := ih 0 hshort (pre ++ p ++ [CHAR_NULL]) tail (s := []) (by simp) rfl
          refine ⟨CHAR_NULL :: tail', ?_⟩
          rw [hun, unescape_last]
          simpa [Nat.add_assoc, unescape] using h
        | cons d r =>
          -- the character behind it is passed over
          obtain ⟨tail', h⟩ := ih r.length (by simp at hshort; omega) (pre ++ p ++ [d])
            (CHAR_NULL :: tail) (fun h => hr (List.mem_cons_of_mem d h)) rfl
          refine ⟨tail', ?_⟩
          rw [hun, unescape_escape]
          simpa [Nat.add_assoc] using h

end UefiToolkit.ArgsToken
