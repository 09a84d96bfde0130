import Mathlib.Data.List.Induction
import OpenApe.Verified.JsText

/-!
# Shell segments (`packages/core/src/validation/shell-segments.ts`)

Both scanners of the source carry a quote and an escape flag over the
characters of a command line.  `splitCommandSegments` is the fold of
`splitStep`; `containsCommandSubstitution` looks one character ahead and is a
recursion on the text still to be read.  Every character either scanner
compares with lies in the basic multilingual plane, so reading code units
and reading code points agree.

`markStep` is the part the two scanners share: what one character does to
the quote and the escape flag.
-/

namespace OpenApe.Ports.ShellSegments

open Verified.JsText

/-- The quote the scanner is inside of. -/
inductive Quote
  | single
  | double
  deriving DecidableEq

/-- The character that opens and closes a quote. -/
def Quote.mark : Quote → CodeUnit
  | .single => unit '\''
  | .double => unit '"'

/-- The quote a character opens. -/
def quoteOpened (ch : CodeUnit) : Option Quote :=
  if ch = unit '\'' then some .single
  else if ch = unit '"' then some .double
  else none

/-- The shell control operators, read as single characters. -/
def isControlOperator (ch : CodeUnit) : Bool :=
  ch == unit '&' || ch == unit '|' || ch == unit ';' || ch == unit '\n' ||
    ch == unit '\r'

/-! ## Splitting -/

/-- The locals of `splitCommandSegments`. -/
structure SplitState where
  segments : List JsString
  current : JsString
  quote : Option Quote
  escaped : Bool
  deriving DecidableEq

def splitStart : SplitState := ⟨[], [], none, false⟩

/-- The body of the loop over the characters of the command line. -/
def splitStep (s : SplitState) (ch : CodeUnit) : SplitState :=
  if s.escaped then
    { s with current := s.current ++ [ch], escaped := false }
  else if ch = unit '\\' ∧ s.quote ≠ some .single then
    { s with current := s.current ++ [ch], escaped := true }
  else match s.quote with
    | some quote =>
        { s with
          current := s.current ++ [ch]
          quote := if ch = quote.mark then none else some quote }
    | none =>
        if ch = unit '\'' ∨ ch = unit '"' then
          { s with current := s.current ++ [ch], quote := quoteOpened ch }
        else if isControlOperator ch then
          { s with segments := s.segments ++ [s.current], current := [] }
        else { s with current := s.current ++ [ch] }

/-- The segments in order, before trimming. -/
def rawSegments (s : SplitState) (text : JsString) : List JsString :=
  let last := text.foldl splitStep s
  last.segments ++ [last.current]

/-- Trims every segment and drops the empty ones. -/
def trimmedNonEmpty (segments : List JsString) : List JsString :=
  (segments.map trim).filter (fun segment => segment ≠ [])

/-- Splits a command line at the shell control operators. -/
def splitCommandSegments (target : JsString) : List JsString :=
  trimmedNonEmpty (rawSegments splitStart target)

/-! ## Nested commands -/

/-- The loop of `containsCommandSubstitution`, from a given position on. -/
def substitutionFrom (quote : Option Quote) (escaped : Bool) :
    JsString → Bool
  | [] => false
  | ch :: rest =>
      if escaped then substitutionFrom quote false rest
      else if ch = unit '\\' ∧ quote ≠ some .single then
        substitutionFrom quote true rest
      else if quote = some .single then
        substitutionFrom (if ch = unit '\'' then none else quote) false rest
      else if ch = unit '`' then true
      else if ch = unit '$' ∧ rest.head? = some (unit '(') then true
      else if quote = some .double then
        substitutionFrom (if ch = unit '"' then none else quote) false rest
      else if (ch = unit '<' ∨ ch = unit '>') ∧
          rest.head? = some (unit '(') then true
      else substitutionFrom (quoteOpened ch) false rest

/-- Whether the text holds a construct the shell would run as a nested
command: command substitution, or process substitution outside quotes. -/
def containsCommandSubstitution (text : JsString) : Bool :=
  substitutionFrom none false text

/-! ## What the scanners share -/

/-- The quote and the escape flag of a scanner. -/
structure Mark where
  quote : Option Quote
  escaped : Bool
  deriving DecidableEq

/-- Outside quotes, nothing escaped: where a scanner reads operators. -/
abbrev Mark.plain : Mark := ⟨none, false⟩

/-- What one character does to the quote and the escape flag. -/
def markStep (m : Mark) (ch : CodeUnit) : Mark :=
  if m.escaped then ⟨m.quote, false⟩
  else if ch = unit '\\' ∧ m.quote ≠ some .single then ⟨m.quote, true⟩
  else match m.quote with
    | some quote => ⟨if ch = quote.mark then none else some quote, false⟩
    | none => ⟨quoteOpened ch, false⟩

def SplitState.mark (s : SplitState) : Mark := ⟨s.quote, s.escaped⟩

/-- Whether the splitter ends the current segment at a character. -/
def splitsAt (m : Mark) (ch : CodeUnit) : Prop :=
  m = .plain ∧ isControlOperator ch = true

instance (m : Mark) (ch : CodeUnit) : Decidable (splitsAt m ch) :=
  inferInstanceAs (Decidable (_ ∧ _))

private theorem quoteOpened_control {ch : CodeUnit}
    (h : isControlOperator ch = true) :
    quoteOpened ch = none ∧ ch ≠ unit '\\' := by
  simp only [isControlOperator, Bool.or_eq_true, beq_iff_eq] at h
  rcases h with (((h | h) | h) | h) | h <;> subst h <;> decide

private theorem quoteOpened_eq_none {ch : CodeUnit}
    (h : ¬(ch = unit '\'' ∨ ch = unit '"')) : quoteOpened ch = none := by
  obtain ⟨hSingle, hDouble⟩ := not_or.mp h
  simp only [quoteOpened, if_neg hSingle, if_neg hDouble]

@[simp] theorem markStep_control {ch : CodeUnit}
    (h : isControlOperator ch = true) : markStep .plain ch = .plain := by
  obtain ⟨hNone, hSlash⟩ := quoteOpened_control h
  simp [markStep, hNone, hSlash]

/-- At an operator outside quotes the splitter closes the segment. -/
theorem splitStep_of_splitsAt {s : SplitState} {ch : CodeUnit}
    (h : splitsAt s.mark ch) :
    splitStep s ch = ⟨s.segments ++ [s.current], [], none, false⟩ := by
  obtain ⟨segments, current, quote, escaped⟩ := s
  obtain ⟨hMark, hControl⟩ := h
  obtain ⟨rfl, rfl⟩ := Mark.mk.inj hMark
  obtain ⟨hNone, hSlash⟩ := quoteOpened_control hControl
  have hQuote : ¬(ch = unit '\'' ∨ ch = unit '"') := by
    rintro (rfl | rfl)
    · exact absurd hNone (by decide)
    · exact absurd hNone (by decide)
  simp [splitStep, hSlash, hQuote, hControl]

/-- At every other character the splitter extends the current segment. -/
theorem splitStep_of_not_splitsAt {s : SplitState} {ch : CodeUnit}
    (h : ¬splitsAt s.mark ch) :
    splitStep s ch =
      ⟨s.segments, s.current ++ [ch], (markStep s.mark ch).quote,
        (markStep s.mark ch).escaped⟩ := by
  obtain ⟨segments, current, quote, escaped⟩ := s
  cases escaped with
  | true => simp [splitStep, markStep, SplitState.mark]
  | false =>
      by_cases hSlash : ch = unit '\\' ∧ quote ≠ some .single
      · simp [splitStep, markStep, SplitState.mark, hSlash]
      · cases quote with
        | some q =>
            have hStep : markStep ⟨some q, false⟩ ch =
                ⟨if ch = q.mark then none else some q, false⟩ := by
              rw [markStep, if_neg Bool.false_ne_true, if_neg hSlash]
            rw [SplitState.mark, hStep, splitStep,
              if_neg Bool.false_ne_true, if_neg hSlash]
        | none =>
            have hControl : ¬isControlOperator ch = true :=
              fun hControl => h ⟨rfl, hControl⟩
            have hNotSlash : ch ≠ unit '\\' :=
              fun hEq => hSlash ⟨hEq, by simp⟩
            by_cases hQuote : ch = unit '\'' ∨ ch = unit '"'
            · simp [splitStep, markStep, SplitState.mark, hNotSlash, hQuote]
            · simp [splitStep, markStep, SplitState.mark, hNotSlash, hQuote,
                hControl, quoteOpened_eq_none hQuote]

/-- The splitter's quote and escape flag follow `markStep`. -/
theorem mark_splitStep (s : SplitState) (ch : CodeUnit) :
    (splitStep s ch).mark = markStep s.mark ch := by
  by_cases h : splitsAt s.mark ch
  · rw [splitStep_of_splitsAt h, h.1, markStep_control h.2]
    rfl
  · rw [splitStep_of_not_splitsAt h]
    rfl

theorem mark_foldl_splitStep (s : SplitState) (text : JsString) :
    (text.foldl splitStep s).mark = text.foldl markStep s.mark := by
  induction text generalizing s with
  | nil => rfl
  | cons ch rest ih => rw [List.foldl_cons, ih, mark_splitStep,
      List.foldl_cons]

/-- The other scanner, too, follows `markStep` until it reports. -/
theorem substitutionFrom_cons (quote : Option Quote) (escaped : Bool)
    (ch : CodeUnit) (rest : JsString) :
    substitutionFrom quote escaped (ch :: rest) = true ∨
      substitutionFrom quote escaped (ch :: rest) =
        substitutionFrom (markStep ⟨quote, escaped⟩ ch).quote
          (markStep ⟨quote, escaped⟩ ch).escaped rest := by
  rw [substitutionFrom]
  cases escaped with
  | true => exact .inr rfl
  | false =>
      by_cases hSlash : ch = unit '\\' ∧ quote ≠ some .single
      · right
        simp [markStep, hSlash]
      · rw [if_neg (by decide), if_neg hSlash]
        cases quote with
        | none =>
            have hNotSlash : ch ≠ unit '\\' := fun hEq =>
              hSlash ⟨hEq, by simp⟩
            simp only [markStep, hNotSlash, false_and, if_false]
            split_ifs <;> simp_all
        | some q =>
            cases q with
            | single =>
                right
                rw [if_pos rfl, markStep, if_neg Bool.false_ne_true,
                  if_neg hSlash]
                rfl
            | double =>
                have hNotSlash : ch ≠ unit '\\' := fun hEq =>
                  hSlash ⟨hEq, by simp⟩
                simp only [markStep, hNotSlash, false_and, if_false,
                  Quote.mark]
                split_ifs <;> simp_all

/-- Where a nested command starts: a backtick, or `$` before `(`. -/
def StartsSubstitution (ch : CodeUnit) (rest : JsString) : Prop :=
  ch = unit '`' ∨ (ch = unit '$' ∧ rest.head? = some (unit '('))

/-- The scanner reports a nested command it reaches outside single quotes
with nothing escaped. -/
theorem substitutionFrom_of_starts {quote : Option Quote}
    {escaped : Bool} {before : JsString} {ch : CodeUnit} {rest : JsString}
    (hMark : (before.foldl markStep ⟨quote, escaped⟩).escaped = false ∧
      (before.foldl markStep ⟨quote, escaped⟩).quote ≠ some .single)
    (hStart : StartsSubstitution ch rest) :
    substitutionFrom quote escaped (before ++ ch :: rest) = true := by
  induction before generalizing quote escaped with
  | nil =>
      obtain ⟨hEscaped, hQuote⟩ := hMark
      simp only [List.foldl_nil] at hEscaped hQuote
      subst hEscaped
      rcases hStart with rfl | ⟨rfl, hNext⟩
      · simp [substitutionFrom, hQuote, show unit '`' ≠ unit '\\' by decide]
      · simp [substitutionFrom, hQuote, hNext,
          show unit '$' ≠ unit '\\' by decide]
  | cons first before ih =>
      rw [List.foldl_cons] at hMark
      rcases substitutionFrom_cons quote escaped first
        (before ++ ch :: rest) with h | h
      · exact h
      · rw [List.cons_append, h]
        exact ih hMark

/-! ## Cutting a line in two -/

/-- What comes before `text` only stands in front of its segments. -/
theorem rawSegments_segments (segments : List JsString) (current : JsString)
    (quote : Option Quote) (escaped : Bool) (text : JsString) :
    rawSegments ⟨segments, current, quote, escaped⟩ text =
      segments ++ rawSegments ⟨[], current, quote, escaped⟩ text := by
  induction text generalizing segments current quote escaped with
  | nil => simp [rawSegments]
  | cons ch rest ih =>
      have hCons : ∀ s, rawSegments s (ch :: rest) =
          rawSegments (splitStep s ch) rest := fun _ => rfl
      rw [hCons, hCons]
      by_cases h : splitsAt ⟨quote, escaped⟩ ch
      · rw [splitStep_of_splitsAt (s := ⟨segments, _, _, _⟩) h,
          splitStep_of_splitsAt (s := ⟨[], _, _, _⟩) h, ih, ih ([] ++ _)]
        simp
      · rw [splitStep_of_not_splitsAt (s := ⟨segments, _, _, _⟩) h,
          splitStep_of_not_splitsAt (s := ⟨[], _, _, _⟩) h, ih]
        rfl

theorem rawSegments_append (s : SplitState) (text rest : JsString) :
    rawSegments s (text ++ rest) = rawSegments (text.foldl splitStep s) rest := by
  simp only [rawSegments, List.foldl_append]

theorem rawSegments_of_splitsAt {s : SplitState} {ch : CodeUnit}
    (h : splitsAt s.mark ch) (rest : JsString) :
    rawSegments s (ch :: rest) =
      s.segments ++ s.current :: rawSegments splitStart rest := by
  have hCons : rawSegments s (ch :: rest) =
      rawSegments (splitStep s ch) rest := rfl
  rw [hCons, splitStep_of_splitsAt h, rawSegments_segments, splitStart]
  simp

theorem trimmedNonEmpty_append (front back : List JsString) :
    trimmedNonEmpty (front ++ back) =
      trimmedNonEmpty front ++ trimmedNonEmpty back := by
  simp [trimmedNonEmpty]

theorem trimmedNonEmpty_visible {segment : JsString}
    (h : ∃ u ∈ segment, isTrimmed u = false) (rest : List JsString) :
    trimmedNonEmpty (segment :: rest) =
      trim segment :: trimmedNonEmpty rest := by
  simp [trimmedNonEmpty, trim_ne_nil h]

/-- At an operator outside quotes the segments of the two sides are the
segments of the line. -/
theorem splitCommandSegments_of_splitsAt (before : JsString) {ch : CodeUnit}
    (h : splitsAt (before.foldl markStep .plain) ch) (after : JsString) :
    splitCommandSegments (before ++ ch :: after) =
      splitCommandSegments before ++ splitCommandSegments after := by
  have hMark : (before.foldl splitStep splitStart).mark =
      before.foldl markStep .plain := mark_foldl_splitStep splitStart before
  rw [splitCommandSegments, rawSegments_append,
    rawSegments_of_splitsAt (hMark ▸ h), List.append_cons,
    trimmedNonEmpty_append]
  rfl

/-- The current segment is a suffix of what was read, cut off at a boundary
or at the start of the line. -/
theorem exists_current (before : JsString) :
    ∃ outer,
      before = outer ++ (before.foldl splitStep splitStart).current ∧
      splitCommandSegments outer =
        trimmedNonEmpty (before.foldl splitStep splitStart).segments ∧
      outer.foldl markStep .plain = .plain := by
  induction before using List.reverseRecOn with
  | nil => exact ⟨[], rfl, by decide, rfl⟩
  | append_singleton before ch ih =>
      obtain ⟨outer, hOuter, hSplit, hPlain⟩ := ih
      have hMark := mark_foldl_splitStep splitStart before
      rw [List.foldl_append, List.foldl_cons, List.foldl_nil]
      by_cases h : splitsAt (before.foldl splitStep splitStart).mark ch
      · have hControl : markStep .plain ch = .plain := markStep_control h.2
        have hStart : splitsAt (before.foldl markStep .plain) ch := hMark ▸ h
        rw [splitStep_of_splitsAt h]
        refine ⟨before ++ [ch], by simp, ?_, ?_⟩
        · rw [splitCommandSegments_of_splitsAt before hStart]
          simp only [splitCommandSegments, rawSegments]
          rw [trimmedNonEmpty_append]
          exact List.append_nil _
        · rw [List.foldl_append, hStart.1]
          exact hControl
      · rw [splitStep_of_not_splitsAt h]
        refine ⟨outer, ?_, hSplit, hPlain⟩
        rw [← List.append_assoc, ← hOuter]

/-- The segment being read runs on to the next boundary or to the end of
the line. -/
theorem exists_rest (s : SplitState) (text : JsString) :
    ∃ tail rest, text = tail ++ rest ∧
      (∀ ch ∈ rest.head?, isControlOperator ch = true) ∧
      trimmedNonEmpty (rawSegments s text) =
        trimmedNonEmpty (s.segments ++ [s.current ++ tail]) ++
          splitCommandSegments rest := by
  induction text generalizing s with
  | nil =>
      have hNil : splitCommandSegments [] = [] := by decide
      exact ⟨[], [], rfl, by simp, by simp [rawSegments, hNil]⟩
  | cons ch text ih =>
      by_cases h : splitsAt s.mark ch
      · refine ⟨[], ch :: text, rfl, by simp [h.2], ?_⟩
        have hRest : splitCommandSegments (ch :: text) =
            splitCommandSegments text :=
          splitCommandSegments_of_splitsAt [] ⟨rfl, h.2⟩ text
        rw [rawSegments_of_splitsAt h, hRest, List.append_cons,
          trimmedNonEmpty_append, List.append_nil]
        rfl
      · obtain ⟨tail, rest, rfl, hHead, hRest⟩ := ih (splitStep s ch)
        refine ⟨ch :: tail, rest, rfl, hHead, ?_⟩
        have hCons : rawSegments s (ch :: (tail ++ rest)) =
            rawSegments (splitStep s ch) (tail ++ rest) := rfl
        rw [hCons, hRest, splitStep_of_not_splitsAt h]
        simp

/-- White space outside quotes leaves the scanner where it is. -/
theorem markStep_trimmed {ch : CodeUnit} (h : isTrimmed ch = true) :
    markStep .plain ch = .plain := by
  have hNe : ∀ v, isTrimmed v = false → ch ≠ v := by
    rintro v hv rfl
    rw [h] at hv
    cases hv
  have hSlash : ch ≠ unit '\\' := hNe _ (by decide)
  have hSingle : ch ≠ unit '\'' := hNe _ (by decide)
  have hDouble : ch ≠ unit '"' := hNe _ (by decide)
  simp [markStep, quoteOpened, hSlash, hSingle, hDouble]

theorem not_isTrimmed_of_markStep {ch : CodeUnit}
    (h : markStep .plain ch ≠ .plain) : isTrimmed ch = false := by
  by_contra hTrimmed
  exact h (markStep_trimmed (Bool.not_eq_false _ ▸ hTrimmed))

theorem foldl_markStep_dropWhile (text : JsString) :
    (text.dropWhile isTrimmed).foldl markStep .plain =
      text.foldl markStep .plain := by
  induction text with
  | nil => rfl
  | cons ch rest ih =>
      by_cases h : isTrimmed ch = true
      · rw [List.dropWhile_cons_of_pos h, ih, List.foldl_cons,
          markStep_trimmed h]
      · rw [List.dropWhile_cons_of_neg h]

/-- A nested command reached outside single quotes is reported on the
segment that holds it. -/
theorem exists_segment_reported {before after : JsString} {ch : CodeUnit}
    (hMark : (before.foldl markStep .plain).escaped = false ∧
      (before.foldl markStep .plain).quote ≠ some .single)
    (hStart : StartsSubstitution ch after) :
    ∃ outer head tail rest, before = outer ++ head ∧ after = tail ++ rest ∧
      splitCommandSegments (before ++ ch :: after) =
        splitCommandSegments outer ++
          trim (head ++ ch :: tail) :: splitCommandSegments rest ∧
      containsCommandSubstitution (trim (head ++ ch :: tail)) = true := by
  have hVisible : isTrimmed ch = false := by
    rcases hStart with rfl | ⟨rfl, _⟩ <;> decide
  obtain ⟨outer, hOuter, hSplit, hPlain⟩ := exists_current before
  have hHead : (before.foldl splitStep splitStart).current.foldl markStep
      .plain = before.foldl markStep .plain := by
    conv_rhs => rw [hOuter]
    rw [List.foldl_append, hPlain]
  generalize hState : before.foldl splitStep splitStart = s at *
  have hNotAt : ¬splitsAt s.mark ch := by
    rintro ⟨_, hControl⟩
    rcases hStart with rfl | ⟨rfl, _⟩ <;> revert hControl <;> decide
  obtain ⟨tail, rest, rfl, hEnd, hRest⟩ :=
    exists_rest (splitStep s ch) after
  rw [splitStep_of_not_splitsAt hNotAt] at hRest
  refine ⟨outer, s.current, tail, rest, hOuter, rfl, ?_, ?_⟩
  · have hRaw : rawSegments splitStart (before ++ ch :: (tail ++ rest)) =
        rawSegments (splitStep s ch) (tail ++ rest) := by
      rw [rawSegments_append, hState]
      rfl
    rw [splitCommandSegments, hRaw, splitStep_of_not_splitsAt hNotAt, hRest,
      hSplit, trimmedNonEmpty_append, trimmedNonEmpty_visible]
    · simp [trimmedNonEmpty]
    · exact ⟨ch, by simp, hVisible⟩
  · rw [trim_append_cons hVisible, containsCommandSubstitution]
    refine substitutionFrom_of_starts ?_ ?_
    · rw [foldl_markStep_dropWhile, hHead]
      exact hMark
    · rcases hStart with h | ⟨h, hNext⟩
      · exact .inl h
      · refine .inr ⟨h, ?_⟩
        cases tail with
        | nil => exact absurd (hEnd _ hNext) (by decide)
        | cons next tail =>
            obtain rfl : next = unit '(' := by simpa using hNext
            have hTail := trimEnd_append_cons (u := unit '(') (by decide) []
              tail
            rw [List.nil_append] at hTail
            rw [hTail]
            rfl

/-- Outside the plain state the current segment holds a visible
character. -/
theorem exists_visible_of_mark_ne {before : JsString}
    (h : before.foldl markStep .plain ≠ .plain) :
    ∃ u ∈ (before.foldl splitStep splitStart).current,
      isTrimmed u = false := by
  induction before using List.reverseRecOn with
  | nil => exact absurd rfl h
  | append_singleton before ch ih =>
      have hMark := mark_foldl_splitStep splitStart before
      rw [List.foldl_append, List.foldl_cons, List.foldl_nil] at h ⊢
      by_cases hAt : splitsAt (before.foldl splitStep splitStart).mark ch
      · have hStart : splitsAt (before.foldl markStep .plain) ch := hMark ▸ hAt
        rw [hStart.1, markStep_control hStart.2] at h
        exact absurd rfl h
      · rw [splitStep_of_not_splitsAt hAt]
        by_cases hPlain : before.foldl markStep .plain = .plain
        · refine ⟨ch, by simp, ?_⟩
          rw [hPlain] at h
          exact not_isTrimmed_of_markStep h
        · obtain ⟨u, hMem, hu⟩ := ih hPlain
          exact ⟨u, by simp [hMem], hu⟩

/-- Outside the plain state an operator is text of the current segment. -/
theorem length_splitCommandSegments_hidden {before : JsString}
    {ch : CodeUnit} (h : before.foldl markStep .plain ≠ .plain) :
    (splitCommandSegments (before ++ [ch, unit 'x'])).length =
      (splitCommandSegments before).length := by
  have hMark := mark_foldl_splitStep splitStart before
  have hVisible := exists_visible_of_mark_ne h
  generalize hState : before.foldl splitStep splitStart = s at *
  have hFirst : ¬splitsAt s.mark ch := by
    intro hAt
    exact h (hMark ▸ hAt.1)
  have hSecond : ¬splitsAt (splitStep s ch).mark (unit 'x') := by
    rintro ⟨_, hControl⟩
    revert hControl
    decide
  have hWhole : rawSegments splitStart (before ++ [ch, unit 'x']) =
      s.segments ++ [s.current ++ [ch, unit 'x']] := by
    rw [rawSegments_append, hState, rawSegments]
    simp only [List.foldl_cons, List.foldl_nil]
    rw [splitStep_of_not_splitsAt hSecond, splitStep_of_not_splitsAt hFirst]
    simp
  have hBefore : rawSegments splitStart before =
      s.segments ++ [s.current] := by rw [rawSegments, hState]
  obtain ⟨u, hMem, hu⟩ := hVisible
  rw [splitCommandSegments, splitCommandSegments, hWhole, hBefore,
    trimmedNonEmpty_append, trimmedNonEmpty_append,
    trimmedNonEmpty_visible ⟨u, by simp [hMem], hu⟩,
    trimmedNonEmpty_visible ⟨u, hMem, hu⟩]
  simp [trimmedNonEmpty]

end OpenApe.Ports.ShellSegments
