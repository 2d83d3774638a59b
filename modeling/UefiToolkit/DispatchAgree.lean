import UefiToolkit.ArgsParse
import UefiToolkit.DispatchClean

/-!
The name that selects a command against the first of its parameters.

The line is read twice, by one tokenizer: the cleaned line for the name, and the line with each
`^` in front of a `#` dropped for the parameters.
-/

namespace UefiToolkit.DispatchAgree

open UefiToolkit.Word UefiToolkit.ArgsModel UefiToolkit.ArgsToken UefiToolkit.ArgsParse
open UefiToolkit.ConsoleString UefiToolkit.CommandModel UefiToolkit.DispatchModel
open UefiToolkit.DispatchLine UefiToolkit.DispatchClean

variable {ε : Type} {e : Services (Parameters × ε)} {getExit : Parameters × ε → Bool}
  {debugCode : Bool} {limit : ℕ} {line : Str} {s : St (Parameters × ε)}

/-- Every allocation is made. -/
def succeeds (_ : ℕ) : Bool := true

/-- What is done with a cleaned line. -/
def runClean (e : Services (Parameters × ε)) (getExit : Parameters × ε → Bool) (debugCode : Bool)
    (limit : ℕ) (clean : Str) (s : St (Parameters × ε)) : Outcome ε :=
  if clean.length = 0 then ⟨EFI_SUCCESS, none, none, s⟩
  else
    let r := getNextParameter debugCode limit clean
      (List.replicate (clean.length + 1) CHAR_NULL) true
    if efiError r.1 then ⟨EFI_SUCCESS, none, none, s⟩
    else runInternalCommand e getExit debugCode limit succeeds clean (strAt r.2.2 0) s

/-- A line that is too long for the string functions is not copied. -/
lemma copy_eq (limit : ℕ) (line : Str) :
    (strnCatGrow (fun n _ => (succeeds n, n + 1)) limit none none line 0 0).1 =
      some (if line.length < limit then line else []) := by
  rw [strnCatGrow_new fun _ _ => rfl, if_pos rfl, List.take_length]

lemma runShellCommand_eq (h : line.length < limit) :
    runShellCommand e getExit debugCode limit succeeds line s =
      runClean e getExit debugCode limit (cleanOriginal line) s := by
  unfold runShellCommand
  by_cases hline : line.length = 0
  · rw [if_pos hline, List.length_eq_zero_iff.mp hline]
    rfl
  · rw [if_neg hline, copy_eq, if_pos h]
    rfl

/-- Nothing is run from a line that is too long. -/
lemma length_of_seen {first : Str} {params : Parameters}
    (h : (runShellCommand e getExit debugCode limit succeeds line s).seen = some (first, params)) :
    line.length < limit := by
  by_contra hlong
  unfold runShellCommand at h
  rw [copy_eq, if_neg hlong] at h
  split_ifs at h <;> cases h

lemma runHandler_seen {name first : Str} {params : Parameters}
    (h : (runHandler e getExit name s).seen = some (first, params)) :
    first = name ∧ params = s.env.1 := by
  unfold runHandler at h
  split at h
  · simp only [Option.some.injEq, Prod.mk.injEq] at h
    exact ⟨h.1.symm, h.2.symm⟩
  · cases h

lemma runHandler_found {name : Str} (h : (findCommand e name s).isSome = true) :
    (runHandler e getExit name s).seen = some (name, s.env.1) := by
  obtain ⟨n, hn⟩ := Option.isSome_iff_exists.mp h
  unfold runHandler consoleCommandRunCommandHandler
  rw [hn]

/-- The handler runs with the parameters of the line with each `^#` made `#`. -/
lemma runInternalCommand_parsed {clean name : Str} :
    let args := parseCommandLineToArgs debugCode limit succeeds (some (unescapeHash clean)) true
      s.env.1.argc
    efiError args.status = false →
      (runInternalCommand e getExit debugCode limit succeeds clean name s).seen =
        (runHandler e getExit name (setParameters ⟨args.argc, args.stores⟩ s)).seen := by
  intro args hok
  change (if efiError args.status = true then _ else _ : Outcome ε).seen = _
  rw [hok]
  rfl

lemma runInternalCommand_seen {clean name first : Str} {params : Parameters}
    (h : (runInternalCommand e getExit debugCode limit succeeds clean name s).seen =
      some (first, params)) :
    let args := parseCommandLineToArgs debugCode limit succeeds (some (unescapeHash clean)) true
      s.env.1.argc
    first = name ∧ efiError args.status = false ∧ params.argv = args.stores := by
  intro args
  by_cases herr : efiError args.status = true
  · have hnone : (runInternalCommand e getExit debugCode limit succeeds clean name s).seen =
        none := by
      change (if efiError args.status = true then _ else _ : Outcome ε).seen = none
      rw [if_pos herr]
    rw [hnone] at h
    cases h
  · have hok : efiError args.status = false := by simpa using herr
    rw [runInternalCommand_parsed hok] at h
    obtain ⟨hname, hparams⟩ := runHandler_seen h
    exact ⟨hname, hok, by rw [hparams]; rfl⟩

lemma runClean_seen {clean first : Str} {params : Parameters}
    (h : (runClean e getExit debugCode limit clean s).seen = some (first, params)) :
    let r := getNextParameter debugCode limit clean (List.replicate (clean.length + 1) CHAR_NULL)
      true
    clean ≠ [] ∧ efiError r.1 = false ∧
      (runInternalCommand e getExit debugCode limit succeeds clean (strAt r.2.2 0) s).seen =
        some (first, params) := by
  intro r
  unfold runClean at h
  by_cases hempty : clean.length = 0
  · rw [if_pos hempty] at h
    cases h
  rw [if_neg hempty] at h
  by_cases herr : efiError r.1 = true
  · rw [if_pos herr] at h
    cases h
  rw [if_neg herr] at h
  exact ⟨fun h0 => hempty (by rw [h0]; rfl), by simpa using herr, h⟩

lemma cleanOriginal_sublist (line : Str) : (cleanOriginal line).Sublist line :=
  (trimSpaces_sublist _).trans ((dropComment_sublist _).trans (trimSpaces_sublist line))

/-- The first token of a line that begins with no blank. -/
lemma tokenize_head {clean : Str} {toks : List Str} (hne : clean ≠ []) (hopens : Opens clean)
    (h : tokenize clean = some toks) : ∃ rest, toks = headToken false clean :: rest := by
  obtain ⟨c, t, rfl⟩ := List.exists_cons_of_ne_nil hne
  have hc : c ≠ CHAR_SPACE := by
    rintro rfl
    exact absurd (hopens CHAR_SPACE rfl) (by decide)
  rw [tokenize, tokens_start hc] at h
  exact tokens_head h

/-- The parameters are the tokens of the line with each `^#` made `#`. -/
lemma parameters_parsed (debugCode : Bool) (hnul : CHAR_NULL ∉ line)
    (hlimit : line.length < limit) (argc : ℕ) :
    Parsed (tokenize (unescapeHash (cleanOriginal line)))
      (parseCommandLineToArgs debugCode limit succeeds
        (some (unescapeHash (cleanOriginal line))) true argc) := by
  have hsub := (unescapeHash_sublist _).trans (cleanOriginal_sublist line)
  have hparsed : Parsed
      (tokenize (trimSpaces ((some (unescapeHash (cleanOriginal line))).getD [])))
      (parseCommandLineToArgs debugCode limit succeeds
        (some (unescapeHash (cleanOriginal line))) true argc) :=
    parseCommandLineToArgs_parsed debugCode limit (some (unescapeHash (cleanOriginal line)))
      (fun l hl => by cases hl; exact fun hc => hnul (hsub.subset hc))
      (fun l hl => by cases hl; exact lt_of_le_of_lt hsub.length_le hlimit) argc
  rwa [Option.getD_some, cleanOriginal, trimSpaces_unescapeHash, ← cleanOriginal] at hparsed

/-- The name is the first token of the cleaned line, which has tokens when the other reading has
some: its quotes are as balanced. -/
lemma name_eq (debugCode : Bool) {toks : List Str} (hnul : CHAR_NULL ∉ line)
    (hlimit : line.length < limit) (hne : cleanOriginal line ≠ [])
    (htoks : tokenize (unescapeHash (cleanOriginal line)) = some toks) :
    let r := getNextParameter debugCode limit (cleanOriginal line)
      (List.replicate ((cleanOriginal line).length + 1) CHAR_NULL) true
    efiError r.1 = false ∧ strAt r.2.2 0 = headToken false (cleanOriginal line) := by
  intro r
  have hsub := cleanOriginal_sublist line
  have hlen := hsub.length_le
  have hbal : (tokens false none (cleanOriginal line)).isSome = true := by
    rw [tokens_isSome, ← (rewritten false _).balanced, ← tokens_isSome false none]
    exact Option.isSome_iff_exists.mpr ⟨toks, htoks⟩
  obtain ⟨ts, hts⟩ := Option.isSome_iff_exists.mp hbal
  rcases getNextParameter_spec debugCode hne (trimSpaces_trimmed _)
      (fun hc => hnul (hsub.subset hc)) (Nat.lt_succ_self (cleanOriginal line).length)
      (show (cleanOriginal line).length + 1 ≤ limit by omega) with
    ⟨-, hnone⟩ | ⟨tok, later, hst, -, htok, -, hsplit⟩
  · rw [hts] at hnone
    cases hnone
  · obtain ⟨rest, rfl⟩ := tokenize_head hne (opens_trimSpaces _) hts
    rw [hts] at hsplit
    obtain ⟨ts', -, hcons⟩ := Option.map_eq_some_iff.mp hsplit.symm
    injection hcons with hhead
    exact ⟨by rw [hst]; rfl, htok.trans hhead⟩

/-- The name and the parameters are the first tokens of the two readings. -/
lemma seen_heads {first : Str} {params : Parameters} (hnul : CHAR_NULL ∉ line)
    (h : (runShellCommand e getExit debugCode limit succeeds line s).seen = some (first, params)) :
    first = headToken false (cleanOriginal line) ∧
      params.argv.lookup 0 = some (headToken false (unescapeHash (cleanOriginal line))) := by
  have hlimit := length_of_seen h
  rw [runShellCommand_eq hlimit] at h
  obtain ⟨hne, -, hrun⟩ := runClean_seen h
  obtain ⟨rfl, hok, hargv⟩ := runInternalCommand_seen hrun
  have hparsed := parameters_parsed debugCode hnul hlimit s.env.1.argc
  obtain ⟨toks, htoks⟩ : ∃ toks, tokenize (unescapeHash (cleanOriginal line)) = some toks := by
    cases htok : tokenize (unescapeHash (cleanOriginal line)) with
    | none => exact absurd (hok.symm.trans (hparsed.error htok)) Bool.false_ne_true
    | some toks => exact ⟨toks, rfl⟩
  refine ⟨(name_eq debugCode hnul hlimit hne htoks).2, ?_⟩
  obtain ⟨rest, rfl⟩ := tokenize_head (unescapeHash_ne_nil hne) (opens_trimSpaces _).unescapeHash
    htoks
  rw [hargv]
  exact (congrArg (List.lookup 0) (hparsed.success _ htoks).2.2).trans rfl

/-- A command that is registered under the first token is run. -/
lemma seen_of_found (toks : List Str) (hnul : CHAR_NULL ∉ line) (hlimit : line.length < limit)
    (hne : cleanOriginal line ≠ [])
    (htoks : tokenize (unescapeHash (cleanOriginal line)) = some toks)
    (hfound : (findCommand e (headToken false (cleanOriginal line)) s).isSome = true) :
    (runShellCommand e getExit debugCode limit succeeds line s).seen =
      some (headToken false (cleanOriginal line), ⟨toks.length, indexed 0 toks⟩) := by
  obtain ⟨hok, hname⟩ := name_eq debugCode hnul hlimit hne htoks
  obtain ⟨hst, hargc, hstores⟩ :=
    (parameters_parsed debugCode hnul hlimit s.env.1.argc).success toks htoks
  have hlen : (cleanOriginal line).length ≠ 0 := fun h => hne (List.length_eq_zero_iff.mp h)
  rw [runShellCommand_eq hlimit, runClean, if_neg hlen]
  dsimp only
  rw [hok, hname, if_neg Bool.false_ne_true, runInternalCommand_parsed (by rw [hst]; rfl), hargc,
    hstores]
  exact runHandler_found hfound

/-- **The name that selects a command is the first of its parameters, and a comment changes
nothing, exactly when no `#` of the first parameter stands behind an escaped `^`.** -/
theorem dispatch_agrees_iff (e : Services (Parameters × ε)) (getExit : Parameters × ε → Bool)
    (debugCode : Bool) (limit : ℕ) (line : Str) (s : St (Parameters × ε)) (first : Str)
    (params : Parameters) (hnul : CHAR_NULL ∉ line)
    (h : (runShellCommand e getExit debugCode limit succeeds line s).seen = some (first, params)) :
    (params.argv.lookup 0 = some first ∧
      ∀ before rest, line = before ++ CHAR_HASH :: rest → before.getLast? ≠ some CHAR_ESCAPE →
        runShellCommand e getExit debugCode limit succeeds before s =
          runShellCommand e getExit debugCode limit succeeds line s) ↔
      caretHashes false false (line.dropWhile isBlank) = 0 := by
  have hlimit := length_of_seen h
  have hcomment (before rest : Str) (hline : line = before ++ CHAR_HASH :: rest)
      (hlast : before.getLast? ≠ some CHAR_ESCAPE) :
      runShellCommand e getExit debugCode limit succeeds before s =
        runShellCommand e getExit debugCode limit succeeds line s := by
    have hshort : before.length < limit := by
      rw [hline, List.length_append] at hlimit
      omega
    rw [runShellCommand_eq hshort, runShellCommand_eq hlimit, hline,
      cleanOriginal_comment rest hlast]
  obtain ⟨hfirst, hargv⟩ := seen_heads hnul h
  calc (params.argv.lookup 0 = some first ∧ _)
      ↔ params.argv.lookup 0 = some first := and_iff_left hcomment
    _ ↔ headToken false (unescapeHash (cleanOriginal line)) =
          headToken false (cleanOriginal line) := by rw [hargv, hfirst, Option.some_inj]
    _ ↔ hits false false (cleanOriginal line) = 0 := headToken_agree_iff false _
    _ ↔ caretHashes false false (line.dropWhile isBlank) = 0 := by rw [hits_cleanOriginal]

/-- A shell with one command, registered under this name. -/
def sampleServices : Services (Parameters × Unit) where
  striColl a b := if a = b then 0 else 1
  allocatePool env _ := (true, env)
  commandHandler _ env := (0, env)

def sampleState (name : Str) : St (Parameters × Unit) :=
  { init (⟨0, []⟩, ()) with
    node := fun _ => ⟨name, 0, 1, false, 0, 0⟩
    commandList := [0] }

/-- `m ^#1 # x`, for the command `m`. -/
def plainLine : Str := [0x6D, 0x20, 0x5E, 0x23, 0x31, 0x20, 0x23, 0x20, 0x78]

theorem dispatch_agrees_iff_plain :
    (runShellCommand sampleServices (fun _ => false) true 100 succeeds plainLine
        (sampleState [0x6D])).seen = some ([0x6D], ⟨2, [(0, [0x6D]), (1, [0x23, 0x31])]⟩) ∧
      List.lookup 0 [(0, [0x6D]), (1, [0x23, 0x31])] = some ([0x6D] : Str) := by
  have hrun : (runShellCommand sampleServices (fun _ => false) true 100 succeeds plainLine
      (sampleState [0x6D])).seen = some ([0x6D], ⟨2, [(0, [0x6D]), (1, [0x23, 0x31])]⟩) :=
    seen_of_found [[0x6D], [0x23, 0x31]] (by decide) (by decide) (by decide) (by decide)
      (by decide)
  exact ⟨hrun, ((dispatch_agrees_iff sampleServices (fun _ => false) true 100 plainLine
    (sampleState [0x6D]) [0x6D] _ (by decide) hrun).mpr (by decide)).1⟩

/-- `a^^#b`, for a command with the name `a^#b`: its handler finds itself called `a#b`. -/
theorem escaped_caret_hash :
    (runShellCommand sampleServices (fun _ => false) true 100 succeeds
        [0x61, 0x5E, 0x5E, 0x23, 0x62] (sampleState [0x61, 0x5E, 0x23, 0x62])).seen =
      some ([0x61, 0x5E, 0x23, 0x62], ⟨1, [(0, [0x61, 0x23, 0x62])]⟩) ∧
    List.lookup 0 [(0, [0x61, 0x23, 0x62])] ≠ some ([0x61, 0x5E, 0x23, 0x62] : Str) := by
  refine ⟨?_, by decide⟩
  exact seen_of_found [[0x61, 0x23, 0x62]] (by decide) (by decide) (by decide)
    (by decide) (by decide)

end UefiToolkit.DispatchAgree
