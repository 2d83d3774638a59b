import UefiToolkit.ConsoleEdit

/-!
The history of the console over many calls.

Every call adds the line that was entered, if there is one, and the list keeps the last of them. A
later call walks back from the newest line with `UP` and forth again with `DOWN`.
-/

namespace UefiToolkit.ConsoleHistory

open UefiToolkit.Word UefiToolkit.LineEditor UefiToolkit.ConsoleModel UefiToolkit.ConsoleEdit

/-! ### Calls one after the other -/

structure Call where
  con : Console
  bufferSize : UInt64
  buffer : ℕ → UInt16
  strokes : List KeyStroke

/-- The call with a history, and room in the pool. -/
def Call.read (c : Call) (history : List CStr) : Option Outcome :=
  uefiConsoleInRead c.con history (true, true) c.bufferSize c.buffer c.strokes

/-- The line that was entered: the string a call has left in the buffer, if it has read one. -/
def Call.entered (c : Call) (out : Outcome) : List UInt16 :=
  if c.bufferSize.toNat < 4 then [] else (strAt (c.bufferSize.toNat / 2) out.buffer 0).chars

/-- One more call, with the lines entered so far. -/
def readCall (st : List CStr × List (List UInt16)) (c : Call) :
    Option (List CStr × List (List UInt16)) :=
  (c.read st.1).map fun out => (out.history, st.2 ++ [c.entered out])

/-- The list is that of the last lines entered, without the empty ones. -/
def Kept (st : List CStr × List (List UInt16)) : Prop :=
  st.1.map CStr.chars = (st.2.filter (· ≠ [])).rtake MaxHistoryCmdCount

lemma addLine_remember {history : List CStr} (h : history.length ≤ MaxHistoryCmdCount)
    (line : CStr) :
    addLineToCommandHistory (true, true) history line =
      remember MaxHistoryCmdCount history line := by
  have hlt : history.length < 2 ^ 16 := h.trans_lt (by decide)
  rw [addLineToCommandHistory, if_neg (by simp), u16_of_lt hlt, remember]

/-- What a call makes of the list. -/
lemma read_history {c : Call} {history : List CStr} {out : Outcome}
    (h : c.read history = some out) :
    out.history = history ∧ c.entered out = [] ∨
      ∃ line : CStr, line.chars = c.entered out ∧ line.chars ≠ [] ∧
        out.history = addLineToCommandHistory (true, true) history line := by
  unfold Call.read at h
  unfold Call.entered
  by_cases hsize : c.bufferSize.toNat < 4
  · rw [uefiConsoleInRead, if_pos hsize] at h
    obtain rfl := Option.some.inj h
    exact Or.inl ⟨rfl, if_pos hsize⟩
  · obtain ⟨s, status, rest, -, rfl⟩ := uefiConsoleInRead_some (by omega) h
    simp only [if_neg hsize]
    by_cases hline : 0 < (strAt (c.bufferSize.toNat / 2) s.currentString 0).chars.length
    · exact Or.inr ⟨_, rfl, List.ne_nil_of_length_pos hline, if_pos hline⟩
    · exact Or.inl ⟨if_neg hline, List.eq_nil_of_length_eq_zero (by omega)⟩

lemma readCall_kept {st st' : List CStr × List (List UInt16)} {c : Call} (h : Kept st)
    (hcall : readCall st c = some st') : Kept st' := by
  obtain ⟨out, hout, rfl⟩ := Option.map_eq_some_iff.mp hcall
  have hlen : st.1.length ≤ MaxHistoryCmdCount := by
    have := congrArg List.length h
    rw [List.length_map, List.rtake, List.length_drop] at this
    omega
  unfold Kept at h ⊢
  rcases read_history hout with ⟨hsame, hempty⟩ | ⟨line, hline, hne, hadd⟩
  · simp only [hsame, hempty, List.filter_append]
    simpa using h
  · rw [hline] at hne
    have hkeep : [c.entered out].filter (· ≠ []) = [c.entered out] := by simp [hne]
    simp only [hadd, addLine_remember hlen, remember_map, h, hline, List.filter_append, hkeep]
    exact remember_rtake (by decide) _ _

/-- A call with room for a line leaves the line it tells the caller of. -/
lemma entered_eq_slice {c : Call} {history : List CStr} {out : Outcome}
    (hmax : 1 ≤ maxStr c.con c.bufferSize) (hsize : 4 ≤ c.bufferSize.toNat)
    (h : c.read history = some out) :
    c.entered out = Mem.slice out.buffer 0 (out.bufferSize / 2) := by
  obtain ⟨cap, hcap⟩ : ∃ cap, maxStr c.con c.bufferSize = cap + 1 :=
    ⟨maxStr c.con c.bufferSize - 1, by omega⟩
  have hle : maxStr c.con c.bufferSize ≤ c.bufferSize.toNat / 2 := maxStr_le
  have hword : c.bufferSize.toNat < 2 ^ 64 := c.bufferSize.toNat_lt
  obtain ⟨s, status, rest, hloop, rfl⟩ := uefiConsoleInRead_some hsize h
  obtain ⟨read, stroke, m, hstrokes, hm, hpoll⟩ := readLoop_some hloop
  obtain ⟨m', hm', hshows⟩ := locals_shows c.buffer hcap (keepsReading_of_locals hm)
  obtain rfl := Option.some.inj (hm.symm.trans hm')
  have hlen := hshows.length_lt
  have hroom : cap + 1 ≤ c.bufferSize.toNat / 2 := by omega
  rw [Call.entered, if_neg (by omega)]
  simp only
  rcases poll_left hpoll with rfl | hreturn
  · have hcells := holds_nil (cap + 1) m.currentString
    rw [hcap, hcells.strAt (Nat.succ_pos cap) hroom nofun]
    simp only [show mul64 0 2 / 2 = 0 by decide]
    rfl
  · obtain ⟨screen, status', hret⟩ := carriageReturn_eq c.con m
    obtain rfl := congrArg Prod.fst (hret.symm.trans hreturn)
    simp only
    rw [hshows.cells.strAt hlen hroom hshows.chars, hshows.stringLen, mul64, u64_of_lt (by omega),
      Nat.mul_div_cancel _ (by norm_num)]
    refine (Mem.slice_eq_iff.mpr fun i hi => ?_).symm
    rw [Nat.zero_add, holds_iff.mp hshows.cells i (by omega), List.getElem?_eq_getElem hi]
    rfl

/-! ### Walking over the list -/

section Walk

variable {n cap : ℕ} (history : Fin n → CStr)

/-- The session that has just taken over line `i` of the list. -/
def recalled (i : Fin n) : Session n cap := ⟨Line.load (history i).chars, some i⟩

/-- `k` times a key without a character, and any polls in between that find no key. -/
def Presses (scan : UInt16) (k : ℕ) (strokes : List KeyStroke) : Prop :=
  strokes.filter (· ≠ .error EFI_NOT_READY) = List.replicate k (.key ⟨scan, 0⟩)

/-- A stroke that does not walk over the list. -/
def Types (stroke : KeyStroke) : Prop :=
  keepsReading stroke = true ∧ stroke ≠ .key ⟨SCAN_UP, 0⟩ ∧ stroke ≠ .key ⟨SCAN_DOWN, 0⟩

variable {history}

lemma visit_recalled (i j : Fin n) :
    (recalled history i : Session n cap).visit history (some j) = recalled history j := by
  unfold Session.visit
  split_ifs with h
  · rw [Option.some.inj h]
  · rfl

lemma back_lt (i : Fin n) (k : ℕ) : i.val - k < n := by omega

lemma forth_lt (i : Fin n) (d : ℕ) : min (i.val + d) (n - 1) < n := by omega

lemma edit_up (i : Fin n) :
    (recalled history i : Session n cap).edit history (.key ⟨SCAN_UP, 0⟩) =
      recalled history ⟨i.val - 1, back_lt i 1⟩ :=
  visit_recalled i _

lemma edit_down (i : Fin n) :
    (recalled history i : Session n cap).edit history (.key ⟨SCAN_DOWN, 0⟩) =
      recalled history ⟨min (i.val + 1) (n - 1), forth_lt i 1⟩ := by
  calc (recalled history i : Session n cap).edit history (.key ⟨SCAN_DOWN, 0⟩)
      = (recalled history i).visit history (newer (some i)) := rfl
    _ = _ := by rw [newer_some, visit_recalled]

/-- The first step back, from outside the list. -/
lemma edit_first_up (hn : 0 < n) {t : Session n cap} (ht : t.place = none) :
    t.edit history (.key ⟨SCAN_UP, 0⟩) = recalled history ⟨n - 1, Nat.sub_lt hn Nat.one_pos⟩ := by
  have hplace : older t.place = some ⟨n - 1, Nat.sub_lt hn Nat.one_pos⟩ := by
    rw [ht, older, dif_pos hn]
  calc t.edit history (.key ⟨SCAN_UP, 0⟩) = t.visit history (older t.place) := rfl
    _ = _ := by
      rw [hplace, Session.visit, ht, if_neg (Option.some_ne_none _)]
      rfl

lemma foldl_up (i : Fin n) (k : ℕ) :
    (List.replicate k (.key ⟨SCAN_UP, 0⟩)).foldl (Session.edit history)
      (recalled history i : Session n cap) = recalled history ⟨i.val - k, back_lt i k⟩ := by
  induction k generalizing i with
  | zero => rfl
  | succ k ih =>
    rw [List.replicate_succ, List.foldl_cons, edit_up, ih]
    exact congrArg (recalled history) (Fin.ext (show i.val - 1 - k = i.val - (k + 1) by omega))

lemma foldl_down (i : Fin n) (d : ℕ) :
    (List.replicate d (.key ⟨SCAN_DOWN, 0⟩)).foldl (Session.edit history)
      (recalled history i : Session n cap) =
        recalled history ⟨min (i.val + d) (n - 1), forth_lt i d⟩ := by
  induction d generalizing i with
  | zero =>
    exact congrArg (recalled history) (Fin.ext (show i.val = min (i.val + 0) (n - 1) by omega))
  | succ d ih =>
    rw [List.replicate_succ, List.foldl_cons, edit_down, ih]
    exact congrArg (recalled history) (Fin.ext
      (show min (min (i.val + 1) (n - 1) + d) (n - 1) = min (i.val + (d + 1)) (n - 1) by omega))

lemma foldl_presses {scan : UInt16} {k : ℕ} {strokes : List KeyStroke}
    (h : Presses scan k strokes) (t : Session n cap) :
    strokes.foldl (Session.edit history) t =
      (List.replicate k (.key ⟨scan, 0⟩)).foldl (Session.edit history) t := by
  rw [← h, List.foldl_filter]
  refine congrArg (fun f => strokes.foldl f t) (funext₂ fun u stroke => ?_)
  cases stroke with
  | key k => simp
  | error e =>
    split_ifs <;> rfl

lemma Presses.keepsReading {scan : UInt16} {k : ℕ} {strokes : List KeyStroke}
    (h : Presses scan k strokes) : ∀ stroke ∈ strokes, keepsReading stroke = true := by
  intro stroke hmem
  by_cases hpoll : stroke = .error EFI_NOT_READY
  · rw [hpoll]
    rfl
  · have hkey : stroke ∈ strokes.filter (· ≠ .error EFI_NOT_READY) :=
      List.mem_filter.mpr ⟨hmem, by simpa using hpoll⟩
    rw [h] at hkey
    rw [List.eq_of_mem_replicate hkey]
    rfl

lemma perform_place (t : Session n cap) {c : Command} (hup : c ≠ .older) (hdown : c ≠ .newer) :
    (t.perform history c).place = t.place := by
  cases c with
  | older => exact absurd rfl hup
  | newer => exact absurd rfl hdown
  | _ => rfl

/-- Only the keys `UP` and `DOWN` walk. -/
lemma command_walks {k : Key} (h : command k = .older ∨ command k = .newer) :
    k = ⟨SCAN_UP, 0⟩ ∨ k = ⟨SCAN_DOWN, 0⟩ := by
  obtain ⟨scan, c⟩ := k
  unfold command at h
  by_cases h1 : 0x20 ≤ c
  · rw [if_pos h1] at h
    simp only [reduceCtorEq, or_self] at h
  by_cases h2 : c = CHAR_BACKSPACE
  · rw [if_neg h1, if_pos h2] at h
    simp only [reduceCtorEq, or_self] at h
  by_cases h3 : c = CHAR_NULL
  · rw [if_neg h1, if_neg h2, if_neg (not_not.mpr h3)] at h
    subst h3
    by_cases h4 : scan = SCAN_UP
    · exact Or.inl (by rw [h4]; rfl)
    by_cases h5 : scan = SCAN_DOWN
    · exact Or.inr (by rw [h5]; rfl)
    rw [if_neg h4, if_neg h5] at h
    split_ifs at h <;> simp only [or_self] at h
  · rw [if_neg h1, if_neg h2, if_pos h3] at h
    simp only [reduceCtorEq, or_self] at h

/-- Typing stays outside the list. -/
lemma foldl_types {strokes : List KeyStroke} (h : ∀ stroke ∈ strokes, Types stroke)
    {t : Session n cap} (ht : t.place = none) :
    (strokes.foldl (Session.edit history) t).place = none := by
  induction strokes generalizing t with
  | nil => exact ht
  | cons stroke strokes ih =>
    refine ih (fun stroke' hmem => h stroke' (List.mem_cons_of_mem _ hmem)) ?_
    obtain ⟨-, hup, hdown⟩ := h stroke List.mem_cons_self
    cases stroke with
    | error e => exact ht
    | key k =>
      have hwalks : ¬ (command k = .older ∨ command k = .newer) := by
        intro hc
        rcases command_walks hc with rfl | rfl
        · exact hup rfl
        · exact hdown rfl
      rw [not_or] at hwalks
      exact (perform_place t hwalks.1 hwalks.2).trans ht

end Walk

section Call

variable {con : Console} {history : List CStr} {bufferSize : UInt64} {buffer : ℕ → UInt16} {cap : ℕ}

/-- The place in a list of `n` lines that `k` steps back from its end and `d` steps forth lead
to. -/
def walked (n k d : ℕ) : ℕ := min (n - min k n + d) (n - 1)

lemma session_walk {typed ups downs : List KeyStroke} {k d : ℕ} (hn : 0 < history.length)
    (htyped : ∀ stroke ∈ typed, Types stroke) (hk : 1 ≤ k) (hups : Presses SCAN_UP k ups)
    (hdowns : Presses SCAN_DOWN d downs) :
    session history cap (typed ++ ups ++ downs) =
      recalled history.get ⟨walked history.length k d, by unfold walked; omega⟩ := by
  obtain ⟨k', rfl⟩ : ∃ k', k = k' + 1 := ⟨k - 1, by omega⟩
  have hplace : (typed.foldl (Session.edit history.get)
      (⟨Line.empty, none⟩ : Session history.length cap)).place = none := foldl_types htyped rfl
  rw [session, List.foldl_append, List.foldl_append, foldl_presses hups, List.replicate_succ,
    List.foldl_cons, edit_first_up hn hplace, foldl_up, foldl_presses hdowns, foldl_down]
  refine congrArg (recalled history.get) (Fin.ext ?_)
  simp only [walked]
  omega

/-- The locals behind a walk hold the line it leads to. -/
lemma locals_walk (buffer : ℕ → UInt16) (hmax : maxStr con bufferSize = cap + 1)
    {typed ups downs : List KeyStroke} {k d : ℕ} (htyped : ∀ stroke ∈ typed, Types stroke)
    (hk : 1 ≤ k)
    (hups : Presses SCAN_UP k ups) (hdowns : Presses SCAN_DOWN d downs) {line : List UInt16}
    (hline : (history.map CStr.chars)[walked history.length k d]? = some line) :
    ∃ s, locals con history bufferSize buffer (typed ++ ups ++ downs) = some s ∧
      (strAt (bufferSize.toNat / 2) s.currentString 0).chars = line.take cap ∧
      s.stringLen = (line.take cap).length ∧ s.stringCurPos = s.stringLen := by
  have hkeeps : ∀ stroke ∈ typed ++ ups ++ downs, keepsReading stroke = true := by
    intro stroke hmem
    simp only [List.mem_append] at hmem
    rcases hmem with (h | h) | h
    · exact (htyped stroke h).1
    · exact hups.keepsReading stroke h
    · exact hdowns.keepsReading stroke h
  obtain ⟨hin, hget⟩ := List.getElem?_eq_some_iff.mp hline
  have hi : walked history.length k d < history.length := by rwa [List.length_map] at hin
  have hn : 0 < history.length := by omega
  rw [List.getElem_map] at hget
  obtain ⟨s, hs, hshows⟩ := locals_shows buffer hmax hkeeps
  rw [session_walk hn htyped hk hups hdowns] at hshows
  have htext : (recalled history.get ⟨walked history.length k d, hi⟩ :
      Session history.length cap).line.text = line.take cap := by
    rw [← hget]
    rfl
  have hlen := hshows.length_lt
  have hstr := hshows.cells.strAt hlen (hmax ▸ maxStr_le) hshows.chars
  have hslen := hshows.stringLen
  rw [htext] at hstr hslen
  exact ⟨s, hs, hstr, hslen, hshows.stringCurPos.trans hshows.stringLen.symm⟩

/-- A call that a read error ends adds nothing. -/
lemma read_error_history (hmax : maxStr con bufferSize = cap + 1) (hsize : 4 ≤ bufferSize.toNat)
    (allocated : Bool × Bool) {strokes : List KeyStroke} {s : InRead history.length}
    (hs : locals con history bufferSize buffer strokes = some s) {e : Status}
    (he : e ≠ EFI_NOT_READY) :
    ∃ out, uefiConsoleInRead con history allocated bufferSize buffer (strokes ++ [.error e]) =
      some out ∧ out.status = e ∧ out.history = history := by
  have hroom : maxStr con bufferSize ≤ bufferSize.toNat / 2 := maxStr_le
  have hempty := (holds_nil (maxStr con bufferSize) s.currentString).strAt
    (by rw [hmax]; exact Nat.succ_pos cap) hroom nofun
  have hloop : readLoop con history bufferSize (start con history bufferSize buffer)
      (strokes ++ [.error e]) = some ({ s with
        currentString := zeroMem s.currentString 0 (maxStr con bufferSize), stringLen := 0 },
        e, []) := by
    rw [readLoop_append hs, readLoop]
    simp only [poll, if_neg he]
  refine ⟨_, by rw [uefiConsoleInRead, if_neg (by omega), hloop]; rfl, rfl, ?_⟩
  simp only [hempty]
  rfl

/-- **The history.** Over any run of calls from the empty list it holds the last 32 lines that were
entered and not empty. In a later call `UP` walks back over it and `DOWN` forth again, and the list
stays what it is. -/
theorem uefiConsoleInRead_history {calls : List Call} {history : List CStr}
    {lines : List (List UInt16)} (hrun : Loop.run readCall ([], []) calls = some (history, lines)) :
    history.map CStr.chars = (lines.filter (· ≠ [])).rtake 32 ∧
    (∀ (c : Call) out, 4 ≤ c.bufferSize.toNat → 1 ≤ maxStr c.con c.bufferSize →
      c.read history = some out →
      c.entered out = Mem.slice out.buffer 0 (out.bufferSize / 2)) ∧
    ∀ con bufferSize buffer cap, 4 ≤ bufferSize.toNat → maxStr con bufferSize = cap + 1 →
      ∀ typed ups downs k d, (∀ stroke ∈ typed, Types stroke) → 1 ≤ k →
        Presses SCAN_UP k ups → Presses SCAN_DOWN d downs →
      ∀ line, ((lines.filter (· ≠ [])).rtake 32)[walked
          ((lines.filter (· ≠ [])).rtake 32).length k d]? = some line →
      ∃ s, locals con history bufferSize buffer (typed ++ ups ++ downs) = some s ∧
        (strAt (bufferSize.toNat / 2) s.currentString 0).chars = line.take cap ∧
        s.stringLen = (line.take cap).length ∧ s.stringCurPos = s.stringLen ∧
        ∀ allocated e, e ≠ EFI_NOT_READY →
          ∃ out, uefiConsoleInRead con history allocated bufferSize buffer
              (typed ++ ups ++ downs ++ [.error e]) = some out ∧
            out.status = e ∧ out.history = history := by
  have hkept : history.map CStr.chars = (lines.filter (· ≠ [])).rtake 32 :=
    Loop.run_inv readCall (I := Kept) (fun _ _ _ h hcall => readCall_kept h hcall)
      (show Kept ([], []) from rfl) hrun
  refine ⟨hkept, fun c out hsize hmax hout => entered_eq_slice hmax hsize hout, ?_⟩
  intro con bufferSize buffer cap hsize hmax typed ups downs k d htyped hk hups hdowns line hline
  rw [← hkept, List.length_map] at hline
  obtain ⟨s, hs, hstr, hlen, hcur⟩ :=
    locals_walk buffer hmax htyped hk hups hdowns hline
  exact ⟨s, hs, hstr, hlen, hcur,
    fun allocated e he => read_error_history hmax hsize allocated hs he⟩

/-- A call that enters one character at the sample console. -/
def oneCharacter (c : UInt16) : Call :=
  ⟨sampleConsole, 8, fun _ => 0, [.key ⟨0, c⟩, .key ⟨0, CHAR_CARRIAGE_RETURN⟩]⟩

/-- Behind two calls, `UP` twice leads to the first line and `DOWN` to the second. -/
theorem uefiConsoleInRead_history_two :
    ∃ history lines, Loop.run readCall ([], []) [oneCharacter 0x61, oneCharacter 0x62] =
        some (history, lines) ∧
      history.map CStr.chars = (lines.filter (· ≠ [])).rtake 32 ∧
      ∃ s, locals sampleConsole history 8 (fun _ => 0)
          ([] ++ [.key ⟨SCAN_UP, 0⟩, .error EFI_NOT_READY, .key ⟨SCAN_UP, 0⟩] ++
            [.key ⟨SCAN_DOWN, 0⟩]) = some s ∧
        (strAt 4 s.currentString 0).chars = [0x62] := by
  obtain ⟨⟨history, lines⟩, hrun⟩ := Option.isSome_iff_exists.mp
    (show (Loop.run readCall ([], []) [oneCharacter 0x61, oneCharacter 0x62]).isSome = true by rfl)
  have hlines : lines = [[0x61], [0x62]] := by
    have := congrArg (Option.map Prod.snd) hrun
    exact (Option.some.inj this).symm
  obtain ⟨hkept, -, hwalk⟩ := uefiConsoleInRead_history hrun
  obtain ⟨s, hs, hstr, -⟩ := hwalk sampleConsole 8 (fun _ => 0) 3 (by decide) (by decide +kernel) []
    [.key ⟨SCAN_UP, 0⟩, .error EFI_NOT_READY, .key ⟨SCAN_UP, 0⟩] [.key ⟨SCAN_DOWN, 0⟩] 2 1 nofun
    (by decide) (by unfold Presses; decide) (by unfold Presses; decide) [0x62]
    (by rw [hlines]; rfl)
  exact ⟨history, lines, hrun, hkept, s, hs, hstr⟩

end Call

end UefiToolkit.ConsoleHistory
