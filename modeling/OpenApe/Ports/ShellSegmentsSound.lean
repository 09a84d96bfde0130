import OpenApe.Ports.ShellSegments
import OpenApe.Verified.Lockstep

/-!
# Shell segmentation against the shell's own quoting

The reference lexer knows what `splitCommandSegments` does not: ANSI-C
quotes, where a backslash escapes a closing quote, and comments, where a
quote means nothing.  Reading the lexer's states as quote marks
(`LexState.mark`) relates the two as long as no character is read in a state
where they disagree (`ReadAlike`), and on such a line every operator the
lexer finds is a boundary and every nested command is reported.

Where they disagree the scanner is out of step, and a short continuation of
the line hides a command from it (`exists_unsound`).
-/

namespace OpenApe.Ports.ShellSegmentsSound

open Verified.JsText Verified.Lockstep
open ShellSegments

/-! ## The reference lexer -/

/-- Where in the shell's syntax a character is read. -/
inductive LexState
  | unquoted (wordStart afterDollar : Bool)
  | unquotedEscape
  | single
  | double
  | doubleEscape
  | ansi
  | ansiEscape
  | comment
  deriving DecidableEq

def isLineBreak (ch : CodeUnit) : Bool := ch == unit '\n' || ch == unit '\r'

/-- The unquoted characters a new word may follow. -/
def endsWord (ch : CodeUnit) : Bool :=
  isControlOperator ch || ch == unit ' ' || ch == unit '\t' ||
    ch == unit '(' || ch == unit ')' || ch == unit '<' || ch == unit '>'

def lexStep : LexState → CodeUnit → LexState
  | .unquoted wordStart afterDollar, ch =>
      if ch = unit '\\' then .unquotedEscape
      else if ch = unit '\'' then (if afterDollar then .ansi else .single)
      else if ch = unit '"' then .double
      else if ch = unit '#' ∧ wordStart then .comment
      else .unquoted (endsWord ch) (ch == unit '$')
  | .unquotedEscape, _ => .unquoted false false
  | .single, ch => if ch = unit '\'' then .unquoted false false else .single
  | .double, ch =>
      if ch = unit '\\' then .doubleEscape
      else if ch = unit '"' then .unquoted false false
      else .double
  | .doubleEscape, _ => .double
  | .ansi, ch =>
      if ch = unit '\\' then .ansiEscape
      else if ch = unit '\'' then .unquoted false false
      else .ansi
  | .ansiEscape, _ => .ansi
  | .comment, ch => if isLineBreak ch then .unquoted true false else .comment

/-- The state after a text, from the start of a line. -/
def lex (text : JsString) : LexState :=
  text.foldl lexStep (.unquoted true false)

/-- An operator of the shell: unquoted and uncommented.  A line break ends
a comment and is not part of it. -/
def FindsOperator (s : LexState) (ch : CodeUnit) : Prop :=
  ((∃ wordStart afterDollar, s = .unquoted wordStart afterDollar) ∧
      isControlOperator ch = true) ∨
    (s = .comment ∧ isLineBreak ch = true)

/-- `$(` or a backtick outside single and ANSI-C quotes, nothing escaped. -/
def FindsSubstitution (s : LexState) (ch : CodeUnit) (rest : JsString) :
    Prop :=
  ((∃ wordStart afterDollar, s = .unquoted wordStart afterDollar) ∨
      s = .double ∨ s = .comment) ∧
    StartsSubstitution ch rest

/-! ## Soundness of the segmentation -/

/-- Every operator of the shell is a segment boundary, and a nested command
of the shell is reported on the segment that holds it: the one between the
segments of some `outer` before it and of some `rest` behind it. -/
structure SegmentationSound (line : JsString) : Prop where
  operators : ∀ before ch after, line = before ++ ch :: after →
    FindsOperator (lex before) ch →
    splitCommandSegments line =
      splitCommandSegments before ++ splitCommandSegments after
  substitutions : ∀ before ch after, line = before ++ ch :: after →
    FindsSubstitution (lex before) ch after →
    ∃ outer head tail rest, before = outer ++ head ∧ after = tail ++ rest ∧
      splitCommandSegments line =
        splitCommandSegments outer ++
          trim (head ++ ch :: tail) :: splitCommandSegments rest ∧
      containsCommandSubstitution (trim (head ++ ch :: tail)) = true

/-- The scanners read the character as the shell does: it is no quote that
the shell reads as escaped inside `$'…'`, and no quote or backslash that the
shell reads as comment. -/
def ReadAlike (s : LexState) (ch : CodeUnit) : Prop :=
  (s = .ansiEscape → ch ≠ unit '\'') ∧
    (s = .comment →
      ch ≠ unit '\'' ∧ ch ≠ unit '"' ∧ ch ≠ unit '\\')

instance (s : LexState) (ch : CodeUnit) : Decidable (ReadAlike s ch) :=
  inferInstanceAs (Decidable ((_ → _) ∧ (_ → _)))

/-- Every character of `text`, read behind `before`, is read alike. -/
def PlainlyQuotedAfter (before text : JsString) : Prop :=
  Guarded lexStep ReadAlike (lex before) text

/-- No `\'` inside an ANSI-C quote, no quote or backslash inside a
comment. -/
def PlainlyQuoted (line : JsString) : Prop := PlainlyQuotedAfter [] line

instance (before text : JsString) :
    Decidable (PlainlyQuotedAfter before text) :=
  decidableGuarded lexStep ReadAlike _ text

instance (line : JsString) : Decidable (PlainlyQuoted line) :=
  inferInstanceAs (Decidable (PlainlyQuotedAfter [] line))

theorem plainlyQuoted_append (before tail : JsString) :
    PlainlyQuoted (before ++ tail) ↔
      PlainlyQuoted before ∧ PlainlyQuotedAfter before tail :=
  guarded_append lexStep ReadAlike _ before tail

/-! ## The scanners in lockstep with the lexer -/

/-- The scanners' reading of a lexer state. -/
def LexState.mark : LexState → Mark
  | .unquoted _ _ => ⟨none, false⟩
  | .unquotedEscape => ⟨none, true⟩
  | .single => ⟨some .single, false⟩
  | .double => ⟨some .double, false⟩
  | .doubleEscape => ⟨some .double, true⟩
  | .ansi => ⟨some .single, false⟩
  | .ansiEscape => ⟨some .single, false⟩
  | .comment => ⟨none, false⟩

/-- One character moves both readings alike. -/
theorem mark_lexStep {s : LexState} {ch : CodeUnit} (h : ReadAlike s ch) :
    (lexStep s ch).mark = markStep s.mark ch := by
  have hNeq : unit '\\' ≠ unit '\'' := by decide
  cases s with
  | unquoted wordStart afterDollar =>
      simp only [lexStep, markStep, LexState.mark, quoteOpened]
      split_ifs <;> simp_all
  | unquotedEscape => rfl
  | single =>
      simp only [lexStep, markStep, LexState.mark, Quote.mark]
      split_ifs <;> simp_all
  | double =>
      simp only [lexStep, markStep, LexState.mark, Quote.mark]
      split_ifs <;> simp_all
  | doubleEscape => rfl
  | ansi =>
      simp only [lexStep, markStep, LexState.mark, Quote.mark]
      split_ifs <;> simp_all
  | ansiEscape =>
      have hQuote : ch ≠ unit '\'' := h.1 rfl
      simp [lexStep, markStep, LexState.mark, Quote.mark, hQuote]
  | comment =>
      obtain ⟨hSingle, hDouble, hSlash⟩ := h.2 rfl
      simp only [lexStep, markStep, LexState.mark, quoteOpened]
      split_ifs <;> simp_all

/-- After a plainly quoted text the scanners stand where the lexer does. -/
theorem mark_of_plainlyQuoted {text : JsString} (h : PlainlyQuoted text) :
    text.foldl markStep .plain = (lex text).mark := by
  refine lockstep (fun (s : LexState) (m : Mark) => m = s.mark) ?_ rfl h
  rintro s m ch rfl hAlike
  exact (mark_lexStep hAlike).symm

/-- Where the lexer finds an operator the splitter ends a segment. -/
theorem splitsAt_of_findsOperator {before : JsString} {ch : CodeUnit}
    (hPlain : PlainlyQuoted before) (h : FindsOperator (lex before) ch) :
    splitsAt (before.foldl markStep .plain) ch := by
  rw [mark_of_plainlyQuoted hPlain]
  rcases h with ⟨⟨wordStart, afterDollar, hState⟩, hControl⟩ | ⟨hState, hBreak⟩
  · rw [hState]
    exact ⟨rfl, hControl⟩
  · rw [hState]
    refine ⟨rfl, ?_⟩
    simp only [isLineBreak, Bool.or_eq_true] at hBreak
    rcases hBreak with h | h <;> simp [isControlOperator, h]

/-- **Sound segmentation**: a plainly quoted line is cut at every operator
of the shell, and its nested commands are reported. -/
theorem segmentationSound_of_plainlyQuoted {line : JsString}
    (hPlain : PlainlyQuoted line) : SegmentationSound line where
  operators := by
    rintro before ch after rfl hOperator
    obtain ⟨hBefore, _⟩ := (plainlyQuoted_append _ _).mp hPlain
    exact splitCommandSegments_of_splitsAt before
      (splitsAt_of_findsOperator hBefore hOperator) after
  substitutions := by
    rintro before ch after rfl ⟨hState, hStart⟩
    obtain ⟨hBefore, _⟩ := (plainlyQuoted_append _ _).mp hPlain
    refine exists_segment_reported ?_ hStart
    rw [mark_of_plainlyQuoted hBefore]
    rcases hState with ⟨wordStart, afterDollar, h⟩ | h | h <;>
      simp [h, LexState.mark]

/-! ## Lines that are not plainly quoted -/

/-- A scanner that is not in the plain state reads the next operator as
text, and the command behind it is lost. -/
theorem not_segmentationSound_of_mark_ne (before : JsString) (ch : CodeUnit)
    (hMark : before.foldl markStep .plain ≠ .plain)
    (hOperator : FindsOperator (lex before) ch) :
    ¬SegmentationSound (before ++ [ch, unit 'x']) := by
  intro hSound
  have hSplit := congrArg List.length
    (hSound.operators before ch [unit 'x'] rfl hOperator)
  rw [length_splitCommandSegments_hidden hMark, List.length_append] at hSplit
  have hOne : (splitCommandSegments [unit 'x']).length = 1 := by decide
  omega

/-- **Out of step**: a line that is not plainly quoted has a beginning that
some plainly quoted continuation turns into a line with a hidden command. -/
theorem exists_unsound {line : JsString} (h : ¬PlainlyQuoted line) :
    ∃ before tail, before <+: line ∧ PlainlyQuotedAfter before tail ∧
      ¬SegmentationSound (before ++ tail) := by
  obtain ⟨before, ch, after, rfl, hBefore, hCh⟩ := exists_unguarded h
  have hPrefix : before ++ [ch] <+: before ++ ch :: after :=
    ⟨after, by simp⟩
  have hMark := mark_of_plainlyQuoted hBefore
  have hStep : (before ++ [ch]).foldl markStep .plain =
      markStep (lex before).mark ch := by
    rw [List.foldl_append, hMark]
    rfl
  have hLex : lex (before ++ [ch]) = lexStep (lex before) ch := by
    simp [lex]
  have hCases : (lex before = .ansiEscape ∧ ch = unit '\'') ∨
      (lex before = .comment ∧
        (ch = unit '\'' ∨ ch = unit '"' ∨ ch = unit '\\')) := by
    by_contra hNone
    refine hCh ⟨fun hState hEq => hNone (.inl ⟨hState, hEq⟩), fun hState => ?_⟩
    refine ⟨?_, ?_, ?_⟩ <;> intro hEq <;>
      exact hNone (.inr ⟨hState, by simp [hEq]⟩)
  rcases hCases with ⟨hState, rfl⟩ | ⟨hState, hQuote⟩
  · -- The scanner left the quote; the shell's closing mark enters it again.
    have hClosed : lex (before ++ [unit '\''] ++ [unit '\'']) =
        .unquoted false false := by
      rw [lex, List.foldl_append, ← lex, hLex, hState]
      rfl
    refine ⟨before ++ [unit '\''], [unit '\'', unit ';', unit 'x'], hPrefix,
      ?_, ?_⟩
    · rw [PlainlyQuotedAfter, hLex, hState]
      decide
    · have := not_segmentationSound_of_mark_ne
        (before ++ [unit '\''] ++ [unit '\'']) (unit ';')
        (by rw [List.foldl_append, hStep, hState]; decide)
        (.inl ⟨⟨false, false, hClosed⟩, by decide⟩)
      simpa using this
  · -- The quote or the escape swallows the line break that ends the comment.
    have hComment : lex (before ++ [ch]) = .comment := by
      rw [hLex, hState]
      rcases hQuote with rfl | rfl | rfl <;> rfl
    refine ⟨before ++ [ch], [unit '\n', unit 'x'], hPrefix, ?_, ?_⟩
    · rw [PlainlyQuotedAfter, hComment]
      decide
    · refine not_segmentationSound_of_mark_ne _ _ ?_
        (.inr ⟨hComment, by decide⟩)
      rw [hStep, hState]
      rcases hQuote with rfl | rfl | rfl <;> decide

/-- **Segmentation is sound exactly on plainly quoted lines**: such a line
is segmented as the shell reads it, and a line is plainly quoted if and only
if all of its beginnings are segmented so however they are plainly
continued. -/
theorem segmentation_sound_iff (line : JsString) :
    (PlainlyQuoted line → SegmentationSound line) ∧
      (PlainlyQuoted line ↔
        ∀ before tail, before <+: line → PlainlyQuotedAfter before tail →
          SegmentationSound (before ++ tail)) := by
  refine ⟨segmentationSound_of_plainlyQuoted, ?_, ?_⟩
  · rintro hPlain before tail ⟨rest, rfl⟩ hTail
    obtain ⟨hBefore, _⟩ := (plainlyQuoted_append _ _).mp hPlain
    exact segmentationSound_of_plainlyQuoted
      ((plainlyQuoted_append _ _).mpr ⟨hBefore, hTail⟩)
  · intro hSound
    by_contra hPlain
    obtain ⟨before, tail, hPrefix, hTail, hUnsound⟩ := exists_unsound hPlain
    exact hUnsound (hSound before tail hPrefix hTail)

/-- An ANSI-C quote that holds one escaped quote hides `rm -rf ~`. -/
theorem segmentation_not_sound_ansi :
    ¬SegmentationSound (js "echo $'\\'' ; rm -rf ~") := by
  intro hSound
  have hSplit := hSound.operators
    (js "echo $'\\'' ") (unit ';') (js " rm -rf ~") (by decide)
    (.inl ⟨⟨true, false, by decide⟩, by decide⟩)
  exact absurd hSplit (by decide)

end OpenApe.Ports.ShellSegmentsSound
