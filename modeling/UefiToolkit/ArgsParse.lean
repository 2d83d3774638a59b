import UefiToolkit.ArgsToken

/-!
Parsing a command line yields its tokens.

Both passes walk over the same parameters, whatever the parameter buffer holds, so that the
filling pass stores no more than the counting pass has counted.
-/

namespace UefiToolkit.ArgsParse

open UefiToolkit.Word UefiToolkit.ArgsModel UefiToolkit.ArgsToken

/-! ### One parameter -/

/-- A line whose last character is no space. -/
def Trimmed (s : Str) : Prop := s.getLast? ≠ some CHAR_SPACE

lemma Trimmed.suffix {s t : Str} (h : Trimmed s) (ht : t <:+ s) : Trimmed t := by
  obtain ⟨p, rfl⟩ := ht
  cases t with
  | nil => simp [Trimmed]
  | cons c t =>
    unfold Trimmed at h ⊢
    rwa [List.getLast?_append_of_ne_nil p (by simp)] at h

lemma tokens_spaces (s : Str) :
    tokens false none (s.dropWhile (· = CHAR_SPACE)) = tokens false none s := by
  induction s with
  | nil => rfl
  | cons c s ih =>
    by_cases hc : c = CHAR_SPACE
    · rw [List.dropWhile_cons_of_pos (by simpa using hc), ih, hc, tokens_space]
    · rw [List.dropWhile_cons_of_neg (by simpa using hc)]

/-- Any other character begins a token. -/
lemma tokens_start {c : UInt16} (hc : c ≠ CHAR_SPACE) (s : Str) :
    tokens false none (c :: s) = tokens false (some []) (c :: s) := by
  by_cases he : c = CHAR_ESCAPE
  · subst he
    cases s with
    | nil => rw [tokens_last, tokens_last]; rfl
    | cons d s => rw [tokens_escape, tokens_escape]; rfl
  · by_cases hq : c = CHAR_QUOTE
    · subst hq
      rw [tokens_quote, tokens_quote]
      rfl
    · rw [tokens_plain he hq (fun h => absurd h hc), tokens_plain he hq (fun h => absurd h hc)]
      rfl

lemma dropWhile_space_ne_nil {s : Str} (hs : s ≠ []) (htrim : Trimmed s) :
    ∃ c t, s.dropWhile (· = CHAR_SPACE) = c :: t ∧ c ≠ CHAR_SPACE := by
  cases hw : s.dropWhile (· = CHAR_SPACE) with
  | nil =>
    refine absurd ?_ htrim
    have hall := List.dropWhile_eq_nil_iff.mp hw
    rw [List.getLast?_eq_some_getLast hs]
    congr 1
    simpa using hall _ (List.getLast_mem hs)
  | cons c t =>
    refine ⟨c, t, rfl, ?_⟩
    have hhead := List.head_dropWhile_not (fun x : UInt16 => decide (x = CHAR_SPACE))
      (l := s) (by rw [hw]; simp)
    simpa [hw] using hhead

/-- The parameter buffer after the copy and the terminator. -/
lemma strnCpyS_spec (limit : ℕ) {size : ℕ} {pre rest : Str} (hsize : (pre ++ rest).length < size)
    (hlimit : size ≤ limit) : ∃ tail,
    strnCpyS limit (List.replicate size CHAR_NULL) (pre ++ rest) pre.length =
      pre ++ CHAR_NULL :: tail := by
  have hlen : pre.length < size := by
    rw [List.length_append] at hsize
    omega
  unfold strnCpyS
  rw [List.take_left' rfl, List.length_replicate, if_neg (by omega), if_neg (by omega)]
  exact ⟨_, by rw [List.append_assoc]; rfl⟩

/-- What the filling pass gets of a line: its first token and the rest, or no token for an
open quote. -/
lemma getNextParameter_spec (debugCode : Bool) {limit size : ℕ} {s : Str} (hs : s ≠ [])
    (htrim : Trimmed s) (hnul : CHAR_NULL ∉ s) (hsize : s.length < size) (hlimit : size ≤ limit) :
    (efiError (getNextParameter debugCode limit s (List.replicate size CHAR_NULL) true).1 = true ∧
      tokens false none s = none) ∨
    ∃ tok rest,
      (getNextParameter debugCode limit s (List.replicate size CHAR_NULL) true).1 = EFI_SUCCESS ∧
      (getNextParameter debugCode limit s (List.replicate size CHAR_NULL) true).2.1 = some rest ∧
      strAt (getNextParameter debugCode limit s (List.replicate size CHAR_NULL) true).2.2 0 = tok ∧
      rest <:+ s ∧ tokens false none s = (tokens false none rest).map (tok :: ·) := by
  obtain ⟨c, t, hw, hc⟩ := dropWhile_space_ne_nil hs htrim
  have hsuf : c :: t <:+ s := hw ▸ List.dropWhile_suffix _
  have htok : tokens false none s = tokens false (some []) (c :: t) := by
    rw [← tokens_spaces s, hw, tokens_start hc]
  have hnf : efiError EFI_NOT_FOUND = true := efiError_maxBit 14
  unfold getNextParameter
  simp only [hw]
  rw [if_neg (by simp)]
  rcases findEndOfParameter_spec (c :: t) with ⟨hnone, hopen⟩ | ⟨pre, rest, hsplit, hsome, hends⟩
  · rw [hnone]
    exact Or.inl ⟨hnf, htok.trans (hopen [])⟩
  · rw [hsome]
    have hlen := hsuf.length_le
    rw [hsplit] at hlen hsuf htok ⊢
    obtain ⟨tail, hcpy⟩ := strnCpyS_spec limit (lt_of_le_of_lt hlen hsize) hlimit
    have hpre : CHAR_NULL ∉ pre := fun h => hnul (hsuf.subset (List.mem_append_left rest h))
    have hcells : (if (pre ++ rest).drop pre.length ≠ [] then
        (strnCpyS limit (List.replicate size CHAR_NULL) (pre ++ rest) pre.length).set pre.length
          CHAR_NULL
        else strnCpyS limit (List.replicate size CHAR_NULL) (pre ++ rest) pre.length) =
        [] ++ (pre ++ CHAR_NULL :: tail) := by
      rw [hcpy]
      split_ifs
      · rw [List.set_append_right _ _ le_rfl, Nat.sub_self]
        rfl
      · rfl
    obtain ⟨tail', hrem⟩ := removeLoop_spec [] tail hpre
    dsimp only
    rw [hcells, List.drop_left' rfl]
    refine Or.inr ⟨unescape pre, rest, rfl, rfl, ?_,
      (List.suffix_append pre rest).trans hsuf, ?_⟩
    · have hstr := strAt_append [] tail' (fun h => hpre (unescape_subset pre _ h))
      rw [← hrem] at hstr
      exact hstr
    · rw [htok]
      rcases hends with ⟨rfl, hfin⟩ | ⟨r, rfl, hnext⟩
      · rw [List.append_nil, hfin]
        rfl
      · rw [hnext, tokens_space, tokens_space]
        rfl

/-! ### The two passes -/

/-- The stores of a list of arguments, from index `i` on. -/
def indexed (i : ℕ) (toks : List Str) : List (ℕ × Str) := toks.zipIdx i |>.map Prod.swap

lemma fillLoop_tokens (debugCode : Bool) (limit : ℕ) {size : ℕ} {s : Str} (htrim : Trimmed s)
    (hnul : CHAR_NULL ∉ s) (hsize : s.length < size) (hlimit : size ≤ limit) (args : Args) :
    (tokens false none s = none →
      (fillLoop debugCode limit (fun _ => true) true size (some s) args).status =
        EFI_INVALID_PARAMETER) ∧
    ∀ toks, tokens false none s = some toks →
      fillLoop debugCode limit (fun _ => true) true size (some s) args =
        { args with argc := args.argc + toks.length
                    stores := args.stores ++ indexed args.argc toks } := by
  induction hk : s.length using Nat.strongRecOn generalizing s args with
  | ind k ih =>
    rw [fillLoop]
    by_cases hs : s = []
    · subst hs
      refine ⟨by simp [tokens], fun toks h => ?_⟩
      obtain rfl : toks = [] := by simpa [tokens] using h.symm
      simp [indexed]
    rw [if_neg hs]
    dsimp only
    rcases getNextParameter_spec debugCode hs htrim hnul hsize hlimit with
      ⟨herr, hnone⟩ | ⟨tok, rest, hst, hrest, hstr, hsuf, htok⟩
    · rw [if_pos herr]
      exact ⟨fun _ => rfl, fun toks h => by rw [hnone] at h; cases h⟩
    · have herr : ¬ efiError (getNextParameter debugCode limit s (List.replicate size CHAR_NULL)
          true).1 = true := by rw [hst]; simp
      obtain ⟨rest', hrest', hlt⟩ := getNextParameter_shorter herr
      obtain rfl : rest' = rest := by rw [hrest] at hrest'; injection hrest' with h; exact h.symm
      rw [if_neg herr, if_neg (by simp), hrest, hstr]
      obtain ⟨hbad, hgood⟩ := ih rest'.length (hk ▸ hlt) (htrim.suffix hsuf)
        (fun h => hnul (hsuf.subset h)) (by omega)
        { args with argc := args.argc + 1, stores := args.stores ++ [(args.argc, tok)] } rfl
      refine ⟨fun h => ?_, fun toks h => ?_⟩
      · rw [htok, Option.map_eq_none_iff] at h
        exact hbad h
      · rw [htok, Option.map_eq_some_iff] at h
        obtain ⟨toks', htoks', rfl⟩ := h
        rw [hgood toks' htoks']
        simp only [indexed, List.length_cons, List.zipIdx_cons, List.map_cons, Prod.swap_prod_mk,
          List.append_assoc, List.singleton_append]
        congr 1
        omega

/-- The outcome of a call depends on the line alone. -/
lemma getNextParameter_congr (debugCode : Bool) (limit : ℕ) (s : Str) (cells cells' : List UInt16)
    (strip strip' : Bool) :
    (getNextParameter debugCode limit s cells strip).1 =
        (getNextParameter debugCode limit s cells' strip').1 ∧
      (getNextParameter debugCode limit s cells strip).2.1 =
        (getNextParameter debugCode limit s cells' strip').2.1 := by
  unfold getNextParameter
  dsimp only
  by_cases hlen : (s.dropWhile (· = CHAR_SPACE)).length = 0
  · rw [if_pos hlen, if_pos hlen]
    exact ⟨rfl, rfl⟩
  · rw [if_neg hlen, if_neg hlen]
    cases findEndOfParameter (s.dropWhile (· = CHAR_SPACE)) with
    | none => exact ⟨rfl, rfl⟩
    | some n => exact ⟨rfl, rfl⟩

/-- Both passes take the same steps: as many stores are made as were counted. -/
lemma passes_agree (debugCode : Bool) (limit : ℕ) (strip : Bool) (size : ℕ) (s : Str)
    (cells : List UInt16) (count : ℕ) (args : Args) :
    ∃ toks, (countLoop debugCode limit (some s) cells count).1 = count + toks.length ∧
      (fillLoop debugCode limit (fun _ => true) strip size (some s) args).argc =
        args.argc + toks.length ∧
      (fillLoop debugCode limit (fun _ => true) strip size (some s) args).stores =
        args.stores ++ indexed args.argc toks ∧
      (fillLoop debugCode limit (fun _ => true) strip size (some s) args).count = args.count := by
  induction hk : s.length using Nat.strongRecOn generalizing s cells count args with
  | ind k ih =>
    rw [countLoop, fillLoop]
    by_cases hs : s = []
    · rw [if_pos hs, if_pos hs]
      exact ⟨[], rfl, rfl, by simp [indexed], rfl⟩
    rw [if_neg hs, if_neg hs]
    dsimp only
    obtain ⟨hst, hwalk⟩ := getNextParameter_congr debugCode limit s cells
      (List.replicate size CHAR_NULL) true strip
    rw [hst, hwalk]
    by_cases herr : efiError (getNextParameter debugCode limit s (List.replicate size CHAR_NULL)
        strip).1 = true
    · rw [if_pos herr, if_pos herr]
      exact ⟨[], rfl, rfl, by simp [indexed], rfl⟩
    · obtain ⟨rest, hrest, hlt⟩ := getNextParameter_shorter herr
      rw [if_neg herr, if_neg herr, if_neg (by simp), hrest]
      set tok := strAt (getNextParameter debugCode limit s (List.replicate size CHAR_NULL)
        strip).2.2 0
      obtain ⟨toks, hcount, hargc, hstores, hsize⟩ := ih rest.length (hk ▸ hlt) rest
        (getNextParameter debugCode limit s cells true).2.2 (count + 1)
        { args with argc := args.argc + 1, stores := args.stores ++ [(args.argc, tok)] } rfl
      refine ⟨tok :: toks, ?_, ?_, ?_, hsize⟩
      · rw [hcount, List.length_cons]
        omega
      · rw [hargc, List.length_cons]
        dsimp only
        omega
      · rw [hstores]
        simp only [indexed, List.zipIdx_cons, List.map_cons, Prod.swap_prod_mk, List.append_assoc,
          List.singleton_append]

/-! ### The whole -/

lemma trimSpaces_trimmed (line : Str) : Trimmed (trimSpaces line) := by
  intro h
  have hne : trimSpaces line ≠ [] := by
    intro h0
    rw [h0] at h
    cases h
  have hlast := List.rdropWhile_last_not isBlank (line.dropWhile isBlank) hne
  rw [List.getLast?_eq_some_getLast hne] at h
  injection h with h
  exact hlast (by rw [show (List.rdropWhile isBlank (line.dropWhile isBlank)).getLast hne =
    CHAR_SPACE from h]; decide)

lemma trimSpaces_sublist (line : Str) : (trimSpaces line).Sublist line :=
  (List.rdropWhile_prefix isBlank _).sublist.trans (List.dropWhile_suffix isBlank).sublist

/-- The result of a parse, for a line with these tokens (or with an open quote). -/
structure Parsed (toks : Option (List Str)) (args : Args) : Prop where
  error : toks = none → efiError args.status = true
  success : ∀ ts, toks = some ts → args.status = EFI_SUCCESS ∧ args.argc = ts.length ∧
    args.stores = indexed 0 ts
  /-- Every store goes into the array that was allocated for the parameters counted. -/
  inside : args.stores.length ≤ args.count ∧ ∀ x ∈ args.stores, x.1 < args.count
  counted : args.status = EFI_SUCCESS → args.argc = args.count

/-- With every allocation made, the result is that of the tokens of the trimmed line. -/
lemma parseCommandLineToArgs_parsed (debugCode : Bool) (limit : ℕ) (commandLine : Option Str)
    (hnul : ∀ line ∈ commandLine, CHAR_NULL ∉ line)
    (hlimit : ∀ line ∈ commandLine, line.length < limit) (argc : ℕ) :
    Parsed (tokenize (trimSpaces (commandLine.getD [])))
      (parseCommandLineToArgs debugCode limit (fun _ => true) commandLine true argc) := by
  have hempty : Parsed (tokenize (trimSpaces [])) ⟨EFI_SUCCESS, 0, 0, []⟩ := by
    refine ⟨fun h => ?_, fun ts h => ?_, by simp, fun _ => rfl⟩
    · cases h
    · obtain rfl : ts = [] := by injection h with h; exact h.symm
      exact ⟨rfl, rfl, rfl⟩
  cases commandLine with
  | none => exact hempty
  | some line =>
    by_cases hlen : line.length = 0
    · obtain rfl : line = [] := List.length_eq_zero_iff.mp hlen
      exact hempty
    rw [Option.getD_some]
    have hsub := trimSpaces_sublist line
    have hle := hsub.length_le
    have hlt := hlimit line rfl
    obtain ⟨c, hc⟩ : ∃ c, c = (countLoop debugCode limit (some (trimSpaces line))
        (List.replicate ((trimSpaces line).length + 1) CHAR_NULL) 0).1 := ⟨_, rfl⟩
    obtain ⟨hbad, hgood⟩ := fillLoop_tokens debugCode limit
      (trimSpaces_trimmed line) (fun h => hnul line rfl (hsub.subset h))
      (Nat.lt_succ_self _) (by omega) ⟨EFI_SUCCESS, 0, c, []⟩
    obtain ⟨toks, hcount, hargc, hstores, hsize⟩ := passes_agree debugCode limit true
      ((trimSpaces line).length + 1) (trimSpaces line)
      (List.replicate ((trimSpaces line).length + 1) CHAR_NULL) 0 ⟨EFI_SUCCESS, 0, c, []⟩
    rw [← hc, Nat.zero_add] at hcount
    have hrun : parseCommandLineToArgs debugCode limit (fun _ => true) (some line) true argc =
        fillLoop debugCode limit (fun _ => true) true ((trimSpaces line).length + 1)
          (some (trimSpaces line)) ⟨EFI_SUCCESS, 0, c, []⟩ := by
      rw [hc, parseCommandLineToArgs, if_neg hlen]
      rfl
    have hinv : efiError EFI_INVALID_PARAMETER = true := efiError_maxBit 2
    rw [hrun]
    refine ⟨fun h => by rw [hbad h]; exact hinv, fun ts h => ?_, ⟨?_, fun x hx => ?_⟩, fun _ => ?_⟩
    · rw [hgood ts h]
      simp
    · rw [hstores, hsize, hcount]
      simp [indexed]
    · rw [hstores] at hx
      simp only [indexed, List.nil_append, List.mem_map] at hx
      obtain ⟨y, hy, rfl⟩ := hx
      have := (List.mem_zipIdx' hy).1
      rw [hsize, hcount]
      exact this
    · rw [hargc, hsize, hcount, Nat.zero_add]

/-- **Parsing a command line yields its tokens.** It succeeds exactly when the quotes are
balanced. -/
theorem parseCommandLineToArgs_tokens (debugCode : Bool) (limit : ℕ) (commandLine : Option Str)
    (hnul : ∀ line ∈ commandLine, CHAR_NULL ∉ line)
    (hlimit : ∀ line ∈ commandLine, line.length < limit) (argc : ℕ) :
    ((parseCommandLineToArgs debugCode limit (fun _ => true) commandLine true argc).status =
        EFI_SUCCESS ↔ balanced false (trimSpaces (commandLine.getD [])) = true) ∧
      Parsed (tokenize (trimSpaces (commandLine.getD [])))
        (parseCommandLineToArgs debugCode limit (fun _ => true) commandLine true argc) := by
  have hparsed := parseCommandLineToArgs_parsed debugCode limit commandLine hnul hlimit argc
  refine ⟨?_, hparsed⟩
  rw [← tokens_isSome false none]
  constructor
  · intro h
    cases htok : tokens false none (trimSpaces (commandLine.getD [])) with
    | none =>
      have herr := hparsed.error htok
      rw [h] at herr
      cases herr
    | some ts => rfl
  · intro h
    obtain ⟨ts, hts⟩ := Option.isSome_iff_exists.mp h
    exact (hparsed.success ts hts).1

/-- `a^ b "c d"^^`, with blanks around it. -/
def sampleLine : Str :=
  [0x20, 0x61, 0x5E, 0x20, 0x62, 0x20, 0x22, 0x63, 0x20, 0x64, 0x22, 0x5E, 0x5E, 0x20]

theorem parseCommandLineToArgs_tokens_sample :
    (parseCommandLineToArgs true 100 (fun _ => true) (some sampleLine) true 7).stores =
      [(0, [0x61, 0x20, 0x62]), (1, [0x63, 0x20, 0x64, 0x5E])] := by
  have hparsed := (parseCommandLineToArgs_tokens true 100 (some sampleLine) (by decide)
    (by decide) 7).2
  have htok : tokenize (trimSpaces ((some sampleLine).getD [])) =
      some [[0x61, 0x20, 0x62], [0x63, 0x20, 0x64, 0x5E]] := by decide
  exact (hparsed.success _ htok).2.2

end UefiToolkit.ArgsParse
