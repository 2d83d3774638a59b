import UefiToolkit.HexRun
import UefiToolkit.Loop

/-!
`IntelHexGetLine` on the memory of the file, with the bytes that it reads, and the calls that
`ProcessIntelHexFile` makes of it, one behind the other.
-/

namespace UefiToolkit.HexLines

open UefiToolkit.Word UefiToolkit.Mem UefiToolkit.HexModel UefiToolkit.HexRun

/-! ### One call -/

/-- The search for a line break, with `n` bytes up to `PtrEnd`: where it stops, and what it
reads. -/
def breakLoop (m : ℕ → UInt8) : ℕ → ℕ → ℕ × List ℕ
  | 0, ptrBuf => (ptrBuf, [])
  | n + 1, ptrBuf =>
    if isBreak (m ptrBuf) then (ptrBuf, [ptrBuf])
    else
      let r := breakLoop m n (ptrBuf + 1)
      (r.1, ptrBuf :: r.2)

/-- The length of the line, and the bytes read for it. -/
def measureLine (m : ℕ → UInt8) (buffer bufferSize : ℕ) : ℕ × List ℕ :=
  let ptrEnd := buffer + bufferSize
  let r := breakLoop m bufferSize buffer
  if ptrEnd - 1 ≤ r.1 then (bufferSize, r.2)
  else if m (r.1 + 1) = 0x0A then (r.1 - buffer + 2, r.2 ++ [r.1 + 1])
  else (r.1 - buffer + 1, r.2 ++ [r.1 + 1])

/-- A call, with the line buffer it leaves and the bytes of the file it reads. -/
structure Call where
  buffer : ℕ
  status : Status
  lineBuffer : ℕ → UInt8
  lineSize : ℕ
  reads : List ℕ

def getLine (m : ℕ → UInt8) (buffer bufferSize : ℕ) (lineBuffer : ℕ → UInt8) (lineSize : ℕ) :
    Call :=
  let r := measureLine m buffer bufferSize
  if lineSize < r.1 then ⟨buffer, EFI_BUFFER_TOO_SMALL, lineBuffer, r.1, r.2⟩
  else
    ⟨buffer, EFI_SUCCESS,
      blit (blit lineBuffer 0 (List.replicate lineSize 0)) 0 (slice m buffer r.1), r.1,
      r.2 ++ (List.range r.1).map (buffer + ·)⟩

section Call

variable {m : ℕ → UInt8}

lemma slice_succ' (m : ℕ → UInt8) (a n : ℕ) : slice m a (n + 1) = m a :: slice m (a + 1) n := by
  rw [Nat.add_comm, slice_add]
  rfl

lemma breakLoop_spec (n ptrBuf : ℕ) :
    (breakLoop m n ptrBuf).1 = ptrBuf + (slice m ptrBuf n).findIdx isBreak ∧
      ∀ i ∈ (breakLoop m n ptrBuf).2, ptrBuf ≤ i ∧ i < ptrBuf + n := by
  induction n generalizing ptrBuf with
  | zero => exact ⟨rfl, by simp [breakLoop]⟩
  | succ n ih =>
    obtain ⟨hstop, hreads⟩ := ih (ptrBuf + 1)
    rw [slice_succ', List.findIdx_cons, breakLoop]
    cases hb : isBreak (m ptrBuf) with
    | true =>
      refine ⟨rfl, fun i hi => ?_⟩
      rw [if_pos rfl, List.mem_singleton] at hi
      omega
    | false =>
      rw [if_neg Bool.false_ne_true]
      refine ⟨?_, fun i hi => ?_⟩
      · dsimp only [cond_false]
        rw [hstop]
        omega
      · rcases List.mem_cons.mp hi with rfl | hi
        · omega
        · have := hreads i hi
          omega

/-- The length is that of the first line of the text, and it is found inside the text. -/
lemma measureLine_spec (buffer bufferSize : ℕ) :
    (measureLine m buffer bufferSize).1 = lineLength (slice m buffer bufferSize) ∧
      ∀ i ∈ (measureLine m buffer bufferSize).2, buffer ≤ i ∧ i < buffer + bufferSize := by
  obtain ⟨hstop, hreads⟩ := breakLoop_spec (m := m) bufferSize buffer
  unfold measureLine lineLength
  dsimp only
  rw [slice_length, hstop]
  by_cases hend : bufferSize - 1 ≤ (slice m buffer bufferSize).findIdx isBreak
  · rw [if_pos hend, if_pos (by omega)]
    exact ⟨rfl, hreads⟩
  have hnext : (slice m buffer bufferSize).getD
      ((slice m buffer bufferSize).findIdx isBreak + 1) 0 =
      m (buffer + (slice m buffer bufferSize).findIdx isBreak + 1) := by
    rw [List.getD_eq_getElem _ _ (by rw [slice_length]; omega), slice_getElem, Nat.add_assoc]
  have hread : ∀ i ∈ (breakLoop m bufferSize buffer).2 ++
      [buffer + (slice m buffer bufferSize).findIdx isBreak + 1],
      buffer ≤ i ∧ i < buffer + bufferSize := fun i hi => by
    rcases List.mem_append.mp hi with hi | hi
    · exact hreads i hi
    · rw [List.mem_singleton.mp hi]
      omega
  rw [if_neg hend, if_neg (by omega), hnext]
  split_ifs
  · exact ⟨by dsimp only; omega, hread⟩
  · exact ⟨by dsimp only; omega, hread⟩

/-- The call is the one on the list of the bytes. -/
lemma getLine_eq (buffer bufferSize : ℕ) (lineBuffer : ℕ → UInt8) (lineSize : ℕ) :
    intelHexGetLine (slice m buffer bufferSize) lineBuffer lineSize =
      ((getLine m buffer bufferSize lineBuffer lineSize).status,
        (getLine m buffer bufferSize lineBuffer lineSize).lineBuffer,
        (getLine m buffer bufferSize lineBuffer lineSize).lineSize) := by
  have hlen := (measureLine_spec (m := m) buffer bufferSize).1
  have hle := lineLength_le (slice m buffer bufferSize)
  rw [slice_length] at hle
  unfold intelHexGetLine getLine
  dsimp only
  rw [hlen, slice_take m buffer hle]
  split_ifs <;> rfl

end Call

/-! ### Lines of a text -/

/-- `line` goes up to its first break, with a line feed right behind it, or to the end of the
text; `rest` is what follows. -/
inductive EndsLine : List UInt8 → List UInt8 → Prop
  | atEnd {body : List UInt8} (plain : ∀ c ∈ body, isBreak c = false) : EndsLine body []
  | feed {body rest : List UInt8} {c : UInt8} (plain : ∀ c ∈ body, isBreak c = false)
      (ends : isBreak c = true) : EndsLine (body ++ [c, 0x0A]) rest
  | single {body rest : List UInt8} {c : UInt8} (plain : ∀ c ∈ body, isBreak c = false)
      (ends : isBreak c = true) (next : rest.head? ≠ some 0x0A) : EndsLine (body ++ [c]) rest

lemma endsLine_lineLength (text : List UInt8) :
    EndsLine (text.take (lineLength text)) (text.drop (lineLength text)) := by
  by_cases hall : ∀ c ∈ text, isBreak c = false
  · rw [lineLength_plain hall, List.take_length, List.drop_length]
    exact .atEnd hall
  have hidx : text.findIdx isBreak < text.length := by
    rw [List.findIdx_lt_length]
    simpa using hall
  -- the text up to the first break, the break, and what follows
  obtain ⟨body, c, rest, rfl, hbody, hc⟩ :
      ∃ body c rest, text = body ++ c :: rest ∧ (∀ x ∈ body, isBreak x = false) ∧
        isBreak c = true := by
    refine ⟨text.take (text.findIdx isBreak), text[text.findIdx isBreak],
      text.drop (text.findIdx isBreak + 1), ?_, fun x hx => ?_, List.findIdx_getElem⟩
    · rw [← List.drop_eq_getElem_cons hidx, List.take_append_drop]
    · obtain ⟨k, hk, rfl⟩ := List.mem_take_iff_getElem.mp hx
      exact List.not_of_lt_findIdx (lt_of_lt_of_le hk (min_le_left _ _))
  have hfind : (body ++ c :: rest).findIdx isBreak = body.length := by
    rw [findIdx_isBreak hbody, List.findIdx_cons, hc]
    rfl
  have hnext : (body ++ c :: rest).getD (body.length + 1) 0 = rest.getD 0 0 := by
    simp [List.getD_eq_getElem?_getD, List.getElem?_append_right]
  unfold lineLength
  dsimp only
  rw [hfind, hnext]
  cases rest with
  | nil =>
    rw [if_pos (by simp), List.take_length, List.drop_length]
    exact .single hbody hc (by simp)
  | cons d rest =>
    rw [if_neg (by simp)]
    rw [show (d :: rest).getD 0 0 = d from rfl]
    by_cases hd : d = 0x0A
    · subst hd
      rw [if_pos rfl, show body ++ c :: 0x0A :: rest = body ++ [c, 0x0A] ++ rest by simp,
        List.take_left' (by simp), List.drop_left' (by simp)]
      exact .feed hbody hc
    · rw [if_neg hd, show body ++ c :: d :: rest = body ++ [c] ++ d :: rest by simp,
        List.take_left' (by simp), List.drop_left' (by simp)]
      exact .single hbody hc (by simpa using hd)

/-! ### The calls -/

/-- `CurrentPtr`, the line buffer, and the calls so far, the last of which has failed or not. -/
structure Scan where
  currentPtr : ℕ
  line : ℕ → UInt8
  calls : List Call
  failed : Bool

section Scan

variable (m : ℕ → UInt8) (bufferEnd : ℕ)

def more (s : Scan) : Bool := !s.failed && s.currentPtr < bufferEnd

/-- One call, and `CurrentPtr` behind the line it has found. -/
def nextLine (s : Scan) : Option Scan :=
  let c := getLine m s.currentPtr (bufferEnd - s.currentPtr) s.line MAX_LINE_LENGTH
  some
    { currentPtr := if efiError c.status then s.currentPtr else s.currentPtr + c.lineSize
      line := c.lineBuffer
      calls := s.calls ++ [c]
      failed := efiError c.status }

/-- The line that a call leaves in the line buffer. -/
def Call.line (c : Call) : List UInt8 := slice c.lineBuffer 0 c.lineSize

/-- The call has found a line of the text, from its place on. -/
structure Found (c : Call) : Prop where
  pos : 1 ≤ c.lineSize
  inside : c.buffer + c.lineSize ≤ bufferEnd
  ends : EndsLine (slice m c.buffer c.lineSize)
    (slice m (c.buffer + c.lineSize) (bufferEnd - (c.buffer + c.lineSize)))

/-- The line is in the line buffer, with zeros behind it. -/
structure Returned (c : Call) : Prop extends Found m bufferEnd c where
  status : c.status = EFI_SUCCESS
  fits : c.lineSize ≤ MAX_LINE_LENGTH
  line : c.line = slice m c.buffer c.lineSize
  zero : ∀ i, c.lineSize ≤ i → i < MAX_LINE_LENGTH → c.lineBuffer i = 0

/-- The line is too long for the line buffer. -/
structure Refused (c : Call) : Prop extends Found m bufferEnd c where
  status : c.status = EFI_BUFFER_TOO_SMALL
  long : MAX_LINE_LENGTH < c.lineSize

/-- The lines that were returned make up the text up to `CurrentPtr`, and only the text was
read. A call that failed is the last one, at `CurrentPtr`. -/
structure Conserved (start : ℕ) (s : Scan) : Prop where
  range : start ≤ s.currentPtr ∧ s.currentPtr ≤ bufferEnd
  reads : ∀ c ∈ s.calls, ∀ i ∈ c.reads, start ≤ i ∧ i < bufferEnd
  lines : ∃ returned : List Call, (∀ c ∈ returned, Returned m bufferEnd c) ∧
    (returned.map Call.line).flatten = slice m start (s.currentPtr - start) ∧
    ((s.failed = false ∧ s.calls = returned) ∨
      (s.failed = true ∧ ∃ c, s.calls = returned ++ [c] ∧ Refused m bufferEnd c ∧
        c.buffer = s.currentPtr))

variable {m bufferEnd} {start : ℕ} {s : Scan}

lemma getLine_found {b bufferSize : ℕ} (lineBuffer : ℕ → UInt8) (lineSize : ℕ)
    (h : 0 < bufferSize) :
    Found m (b + bufferSize) (getLine m b bufferSize lineBuffer lineSize) ∧
      (getLine m b bufferSize lineBuffer lineSize).buffer = b ∧
      ∀ i ∈ (getLine m b bufferSize lineBuffer lineSize).reads,
        b ≤ i ∧ i < b + bufferSize := by
  obtain ⟨hlen, hreads⟩ := measureLine_spec (m := m) b bufferSize
  have hle := lineLength_le (slice m b bufferSize)
  have hpos : 0 < lineLength (slice m b bufferSize) :=
    lineLength_pos (List.ne_nil_of_length_pos (by rw [slice_length]; exact h))
  have hends := endsLine_lineLength (slice m b bufferSize)
  rw [slice_length] at hle
  rw [slice_take m b hle, slice_drop m b hle] at hends
  have hfound : ∀ c : Call, c.buffer = b → c.lineSize = (measureLine m b bufferSize).1 →
      Found m (b + bufferSize) c := by
    rintro c hbuffer hsize
    rw [hlen] at hsize
    refine ⟨by omega, by omega, ?_⟩
    rw [hbuffer, hsize, Nat.add_sub_add_left]
    exact hends
  unfold getLine
  dsimp only
  split_ifs
  · exact ⟨hfound _ rfl rfl, rfl, hreads⟩
  · refine ⟨hfound _ rfl rfl, rfl, fun i hi => ?_⟩
    rcases List.mem_append.mp hi with hi | hi
    · exact hreads i hi
    · obtain ⟨k, hk, rfl⟩ := List.mem_map.mp hi
      rw [List.mem_range, hlen] at hk
      omega

/-- A call fails exactly on a line that is too long. -/
lemma getLine_cases {b bufferSize : ℕ} (lineBuffer : ℕ → UInt8) (h : 0 < bufferSize) :
    Returned m (b + bufferSize)
        (getLine m b bufferSize lineBuffer MAX_LINE_LENGTH) ∨
      Refused m (b + bufferSize)
        (getLine m b bufferSize lineBuffer MAX_LINE_LENGTH) := by
  have hfound := (getLine_found (m := m) (b := b) lineBuffer MAX_LINE_LENGTH h).1
  revert hfound
  unfold getLine
  dsimp only
  by_cases hlong : MAX_LINE_LENGTH < (measureLine m b bufferSize).1
  · rw [if_pos hlong]
    exact fun hfound => Or.inr ⟨hfound, rfl, hlong⟩
  · rw [if_neg hlong]
    refine fun hfound => Or.inl ⟨hfound, rfl, Nat.le_of_not_lt hlong, ?_, fun i hi hlt => ?_⟩
    · exact slice_blit_slice _ m 0 b _
    dsimp only at hi ⊢
    rw [blit_out _ (Or.inr (by rw [slice_length]; omega))]
    have hcell := blit_in lineBuffer 0 (l := List.replicate MAX_LINE_LENGTH (0 : UInt8)) (k := i)
      (by rw [List.length_replicate]; exact hlt)
    rwa [Nat.zero_add, List.getElem_replicate] at hcell

/-- One call keeps the text, and goes on by a character at least, or it is the last. -/
lemma nextLine_step (h : Conserved m bufferEnd start s) (hmore : more bufferEnd s = true) :
    ∃ s', nextLine m bufferEnd s = some s' ∧ Conserved m bufferEnd start s' ∧
      (s'.failed = true ∨ s.currentPtr < s'.currentPtr) := by
  obtain ⟨⟨hstart, hend⟩, hreads, returned, hret, hflat, hcalls⟩ := h
  simp only [more, Bool.and_eq_true, Bool.not_eq_true', decide_eq_true_eq] at hmore
  obtain ⟨hfailed, hlt⟩ := hmore
  have hcalls : s.calls = returned := by
    rcases hcalls with ⟨-, hcalls⟩ | ⟨hfail, -⟩
    · exact hcalls
    · rw [hfailed] at hfail
      cases hfail
  have hsize : s.currentPtr + (bufferEnd - s.currentPtr) = bufferEnd := by omega
  have hpos : 0 < bufferEnd - s.currentPtr := by omega
  obtain ⟨-, hbuffer, hcread⟩ :=
    getLine_found (m := m) (b := s.currentPtr) s.line MAX_LINE_LENGTH hpos
  have hcases := getLine_cases (m := m) (b := s.currentPtr) s.line hpos
  refine ⟨_, rfl, ?_⟩
  dsimp only
  set c := getLine m s.currentPtr (bufferEnd - s.currentPtr) s.line MAX_LINE_LENGTH
  rw [hsize] at hcread hcases
  have hreads' : ∀ x ∈ s.calls ++ [c], ∀ i ∈ x.reads, start ≤ i ∧ i < bufferEnd := by
    intro x hx i hi
    rcases List.mem_append.mp hx with hx | hx
    · exact hreads x hx i hi
    · rw [List.mem_singleton.mp hx] at hi
      have := hcread i hi
      omega
  rcases hcases with hc | hc
  · have herr : ¬ efiError c.status = true := by
      rw [hc.status]
      exact not_efiError_success
    have hinside := hc.inside
    have hge := hc.pos
    rw [hbuffer] at hinside
    refine ⟨⟨?_, hreads', returned ++ [c], fun x hx => ?_, ?_, ?_⟩, Or.inr ?_⟩
    · dsimp only
      rw [if_neg herr]
      omega
    · rcases List.mem_append.mp hx with hx | hx
      · exact hret x hx
      · exact List.mem_singleton.mp hx ▸ hc
    · dsimp only
      rw [if_neg herr, List.map_append, List.flatten_append, hflat, List.map_singleton,
        List.flatten_singleton, hc.line, hbuffer, Nat.sub_add_comm hstart, slice_add,
        Nat.add_sub_cancel' hstart]
    · exact Or.inl ⟨Bool.eq_false_iff.mpr herr, by rw [hcalls]⟩
    · rw [if_neg herr]
      omega
  · have herr : efiError c.status = true := by
      rw [hc.status]
      decide
    refine ⟨⟨?_, hreads', returned, hret, ?_, Or.inr ⟨herr, c, by rw [hcalls], hc, ?_⟩⟩,
      Or.inl herr⟩
    · dsimp only
      rw [if_pos herr]
      exact ⟨hstart, hend⟩
    · dsimp only
      rw [if_pos herr, hflat]
    · dsimp only
      rw [if_pos herr, hbuffer]

/-- **The calls cut the text into its lines**: from any place of the file on, they end within as
many calls as there are characters left; the lines they return make up the text up to its end, or
up to the first line that does not fit in the line buffer; and only the text is read. -/
theorem nextLine_conserved (m : ℕ → UInt8) (start bufferSize : ℕ) (line : ℕ → UInt8) :
    ∃ s, Loop.whileFuel (more (start + bufferSize)) (nextLine m (start + bufferSize)) bufferSize
        ⟨start, line, [], false⟩ = some s ∧
      Conserved m (start + bufferSize) start s ∧
      (s.failed = false → s.currentPtr = start + bufferSize) := by
  have h₀ : Conserved m (start + bufferSize) start ⟨start, line, [], false⟩ := by
    refine ⟨⟨le_rfl, Nat.le_add_right _ _⟩, by simp, [], by simp, ?_, Or.inl ⟨rfl, rfl⟩⟩
    dsimp only
    rw [Nat.sub_self]
    rfl
  -- what is left of the text gets shorter, and nothing is left after a failure
  obtain ⟨s, hs, hcons, hexit⟩ := Loop.whileFuel_spec (more (start + bufferSize))
    (nextLine m (start + bufferSize)) (I := Conserved m (start + bufferSize) start)
    (μ := fun s => if s.failed then 0 else start + bufferSize - s.currentPtr)
    (fun s hI hmore => by
      obtain ⟨s', hs', hI', hnext⟩ := nextLine_step hI hmore
      simp only [more, Bool.and_eq_true, Bool.not_eq_true', decide_eq_true_eq] at hmore
      refine ⟨s', hs', hI', ?_⟩
      rw [hmore.1, if_neg Bool.false_ne_true]
      have hrange := hI'.range
      split_ifs with hfail
      · omega
      · have := hnext.resolve_left hfail
        omega)
    bufferSize _ h₀ (by simp)
  refine ⟨s, hs, hcons, fun hfail => ?_⟩
  have hrange := hcons.range
  simp only [more, hfail, Bool.not_false, Bool.true_and, decide_eq_false_iff_not] at hexit
  omega

end Scan

end UefiToolkit.HexLines
