import OpenApe.Verified.CodePoints
import OpenApe.Verified.Fallible
import OpenApe.Verified.Json
import OpenApe.Verified.ShellReading
import Mathlib.Data.Bool.AllAny
import Mathlib.Data.List.Infix

/-!
# The command line an owner is shown

`commandLine` prints an argument list on one line, and `parseCommandLine`
reads a line back.  `parseCommandLine_commandLine` says that a list which
`parseProgramArgv` accepts is read back from its line, so that two lists are
never shown as the same line.

The reader walks over characters.  None of the characters it knows is made of
two units, so it reads the units one by one just as well
(`readCharacters_eq`), and from there on each argument is followed unit by
unit.
-/

namespace OpenApe.Ports.CommandLine

open Verified.JsText Verified.Json Verified.CodePoints Verified.Unicode
open Verified.ShellReading (isNameUnit singleQuoted quoteUnit)

/-! ## Accepting arguments -/

/-- `/[\0\r\n]/` -/
def isBreak (u : CodeUnit) : Bool := u == 0x00 || u == 0x0D || u == 0x0A

/-- `typeof item !== 'string' || item.length > 4096 || /[\0\r\n]/.test(item)`,
the other way round. -/
def isArgument (item : JsonValue) : Bool :=
  match item with
  | .string text => decide (text.length ≤ 4096) && !text.any isBreak
  | _ => false

def argvError : JsString := js "Invalid program arguments"

/-- The items of a list of texts, which is all that gets this far. -/
def texts (items : List JsonValue) : List JsString :=
  items.filterMap JsonValue.text?

def parseProgramArgv (value : JsonValue) : Except JsString (List JsString) :=
  match value with
  | .array items =>
      if items.length < 1 || 64 < items.length ||
          items.any (fun item => !isArgument item) ||
          16000 < (stringify value).length then .error argvError
      else .ok (texts items)
  | _ => .error argvError

/-! ## Printing -/

/-- A unit that needs no quotes: `\w` and some marks. -/
def isPlain (u : CodeUnit) : Bool :=
  isNameUnit u || (js "@%+=:,./-").contains u

/-- A plain argument as it is, any other one in single quotes. -/
def printArgument (argument : JsString) : JsString :=
  if argument ≠ [] ∧ argument.all isPlain = true then argument
  else singleQuoted argument

def commandLine (argv : List JsString) : JsString :=
  [unit ' '].intercalate (argv.map printArgument)

/-! ## Reading -/

structure Reader where
  args : List JsString
  word : JsString
  /-- The quote that is open, or empty. -/
  quote : JsString
  started : Bool
  escape : Bool

def Reader.initial : Reader := ⟨[], [], [], false, false⟩

def operatorError : JsString :=
  js "Enter program arguments without shell operators"

def openError : JsString :=
  js "Close the quotation or escape in the command"

/-- The shell's operators, of which no argument is made. -/
def isOperator (character : JsString) : Bool :=
  decide (character <:+: js "|;&<>`$")

/-- The body of the loop over the characters. -/
def Reader.read (s : Reader) (character : JsString) :
    Except JsString Reader :=
  if s.escape then
    .ok { s with word := s.word ++ character, escape := false, started := true }
  else if character = [unit '\\'] ∧ s.quote ≠ [unit '\''] then
    .ok { s with escape := true }
  else if s.quote ≠ [] then
    if character = s.quote then .ok { s with quote := [] }
    else .ok { s with word := s.word ++ character }
  else if character = [unit '"'] ∨ character = [unit '\''] then
    .ok { s with quote := character, started := true }
  else if character.any isTrimmed then
    if s.started then
      .ok { s with args := s.args ++ [s.word], word := [], started := false }
    else .ok s
  else if isOperator character then .error operatorError
  else .ok { s with word := s.word ++ character, started := true }

/-- `for (const character of line)` -/
def characters (line : JsString) : List JsString :=
  (codePoints line).map encodePoint

/-- What follows the loop. -/
def Reader.finish (s : Reader) : Except JsString (List JsString) :=
  if s.quote ≠ [] ∨ s.escape then .error openError
  else
    parseProgramArgv (.array
      ((if s.started then s.args ++ [s.word] else s.args).map .string))

def parseCommandLine (line : JsString) : Except JsString (List JsString) := do
  let s ← (characters line).foldlM Reader.read Reader.initial
  s.finish

/-! ## Units instead of characters -/

/-- A character that reads as itself. -/
def Ordinary (character : JsString) : Prop :=
  (∀ u, u = unit '\\' ∨ u = unit '"' ∨ u = unit '\'' → character ≠ [u]) ∧
    character.any isTrimmed = false ∧ isOperator character = false

/-- A quote is open, or none is. -/
def QuoteIs (s : Reader) : Prop :=
  s.quote = [] ∨ s.quote = [unit '"'] ∨ s.quote = [unit '\'']

/-- What an ordinary character does. -/
def Reader.add (s : Reader) (character : JsString) : Reader :=
  if s.escape then
    { s with word := s.word ++ character, escape := false, started := true }
  else if s.quote ≠ [] then { s with word := s.word ++ character }
  else { s with word := s.word ++ character, started := true }

theorem read_ordinary {s : Reader} {character : JsString}
    (hQuote : QuoteIs s) (h : Ordinary character) :
    s.read character = .ok (s.add character) := by
  obtain ⟨hUnits, hSpace, hOperator⟩ := h
  have hSlash := hUnits _ (Or.inl rfl)
  have hDouble := hUnits _ (Or.inr (Or.inl rfl))
  have hSingle := hUnits _ (Or.inr (Or.inr rfl))
  have hOpen : s.quote ≠ [] → character ≠ s.quote := by
    intro hSome
    rcases hQuote with hNone | hSame | hSame
    · exact absurd hNone hSome
    · rw [hSame]
      exact hDouble
    · rw [hSame]
      exact hSingle
  unfold Reader.read Reader.add
  by_cases hEscape : s.escape = true
  · rw [if_pos hEscape, if_pos hEscape]
  · rw [if_neg hEscape, if_neg hEscape, if_neg (fun hBoth => hSlash hBoth.1)]
    by_cases hSome : s.quote ≠ []
    · rw [if_pos hSome, if_pos hSome, if_neg (hOpen hSome)]
    · have hNeither : ¬(character = [unit '"'] ∨ character = [unit '\'']) := by
        rintro (hSame | hSame)
        · exact hDouble hSame
        · exact hSingle hSame
      rw [if_neg hSome, if_neg hSome, if_neg hNeither, hSpace, hOperator]
      rfl

theorem QuoteIs.add {s : Reader} (h : QuoteIs s) (character : JsString) :
    QuoteIs (s.add character) := by
  unfold Reader.add
  split
  · exact h
  · split
    · exact h
    · exact h

/-- Two characters are added like one. -/
theorem add_add (s : Reader) (a b : JsString) :
    (s.add a).add b = s.add (a ++ b) := by
  unfold Reader.add
  by_cases hEscape : s.escape = true
  · by_cases hSome : s.quote ≠ []
    · simp [hEscape, hSome]
    · simp [hEscape, not_not.mp hSome]
  · by_cases hSome : s.quote ≠ []
    · simp [hEscape, hSome]
    · simp [hEscape, not_not.mp hSome]

theorem QuoteIs.read {s s' : Reader} {character : JsString} (h : QuoteIs s)
    (hRead : s.read character = .ok s') : QuoteIs s' := by
  unfold Reader.read at hRead
  split_ifs at hRead with hEscape hSlash hSome hClose hOpen hSpace hStarted
  all_goals cases hRead
  all_goals first | exact h | exact Or.inl rfl | exact Or.inr hOpen

def IsHalf (u : CodeUnit) : Prop := isHighSurrogate u ∨ isLowSurrogate u

/-- Surrogates read as themselves. -/
theorem ordinary_halves {character : JsString} (hSome : character ≠ [])
    (h : ∀ u ∈ character, IsHalf u) : Ordinary character := by
  refine ⟨fun v hv hSame => ?_, ?_, ?_⟩
  · have hHalf : IsHalf v := h v (hSame ▸ List.mem_singleton_self v)
    rcases hv with rfl | rfl | rfl <;> revert hHalf <;> unfold IsHalf <;>
      decide
  · rw [List.any_eq_false]
    intro u hu hTrimmed
    obtain ⟨hHigh, hLow⟩ := surrogate_of_isTrimmed hTrimmed
    rcases h u hu with hHalf | hHalf
    · rw [hHigh] at hHalf
      cases hHalf
    · rw [hLow] at hHalf
      cases hHalf
  · have hNone : ∀ u ∈ js "|;&<>`$", ¬IsHalf u := by
      unfold IsHalf
      exact List.all_iff_forall_prop.mp (by decide)
    rw [isOperator, decide_eq_false_iff_not]
    intro hInfix
    obtain ⟨u, rest, rfl⟩ := List.exists_cons_of_ne_nil hSome
    exact hNone u (hInfix.subset List.mem_cons_self) (h u List.mem_cons_self)

/-- A pair of units is read like one and then the other. -/
theorem read_pair {s : Reader} (hQuote : QuoteIs s) {u v : CodeUnit}
    (hu : IsHalf u) (hv : IsHalf v) :
    s.read [u, v] = (s.read [u]).bind fun s => s.read [v] := by
  have hFirst : Ordinary [u] := ordinary_halves (List.cons_ne_nil _ _)
    (List.forall_mem_singleton.mpr hu)
  have hSecond : Ordinary [v] := ordinary_halves (List.cons_ne_nil _ _)
    (List.forall_mem_singleton.mpr hv)
  have hBoth : Ordinary [u, v] := ordinary_halves (List.cons_ne_nil _ _)
    (List.forall_mem_cons.mpr ⟨hu, List.forall_mem_singleton.mpr hv⟩)
  rw [read_ordinary hQuote hFirst, read_ordinary hQuote hBoth]
  show _ = (s.add [u]).read [v]
  rw [read_ordinary (hQuote.add [u]) hSecond, add_add]
  rfl

/-- Reading a text unit by unit. -/
def Reader.readUnits (s : Reader) (text : JsString) :
    Except JsString Reader :=
  text.foldlM (fun s u => s.read [u]) s

theorem readUnits_cons (s : Reader) (u : CodeUnit) (text : JsString) :
    s.readUnits (u :: text) = (s.read [u]).bind (·.readUnits text) := rfl

theorem readUnits_append (s : Reader) (a b : JsString) :
    s.readUnits (a ++ b) = (s.readUnits a).bind (·.readUnits b) :=
  List.foldlM_append

/-- The characters are read as the units are. -/
theorem readCharacters_eq {s : Reader} (hQuote : QuoteIs s)
    (line : JsString) :
    (characters line).foldlM Reader.read s = s.readUnits line := by
  unfold characters
  induction line using codePoints.induct generalizing s with
  | case1 => rfl
  | case2 u =>
      show (s.read (encodePoint u.toNat)).bind _ = _
      rw [encodePoint_unit]
      rfl
  | case3 u v rest h ih =>
      have hPair := pairs_toNat.mp h
      obtain ⟨hHigh, hLow⟩ := Bool.and_eq_true_iff.mp h
      rw [codePoints_pair hPair, List.map_cons, encodePoint_joined hPair,
        readUnits_cons, List.foldlM_cons,
        read_pair hQuote (Or.inl hHigh) (Or.inr hLow)]
      cases hFirst : s.read [u] with
      | error message => rfl
      | ok t =>
          show (t.read [v]).bind _ = (t.read [v]).bind _
          cases hSecond : t.read [v] with
          | error message => rfl
          | ok t' => exact ih ((hQuote.read hFirst).read hSecond)
  | case4 u v rest h ih =>
      rw [codePoints_single (mt pairs_toNat.mpr h), List.map_cons,
        encodePoint_unit, readUnits_cons, List.foldlM_cons]
      cases hFirst : s.read [u] with
      | error message => rfl
      | ok t => exact ih (hQuote.read hFirst)

/-! ## One argument -/

/-- Between two arguments. -/
def Reader.between (args : List JsString) : Reader :=
  ⟨args, [], [], false, false⟩

/-- Behind an argument, or within one that needs no quotes. -/
def Reader.within (args : List JsString) (word : JsString) : Reader :=
  ⟨args, word, [], true, false⟩

/-- Within single quotes. -/
def Reader.quoted (args : List JsString) (word : JsString) : Reader :=
  ⟨args, word, [unit '\''], true, false⟩

theorem toNat_of_plain {u : CodeUnit} (h : isPlain u = true) :
    u.toNat < 0x7B := by
  rw [isPlain, Bool.or_eq_true, isNameUnit] at h
  rcases h with hName | hMark
  · simp only [Bool.or_eq_true, Bool.and_eq_true, decide_eq_true_eq,
      beq_iff_eq, UInt16.le_iff_toNat_le] at hName
    rcases hName with ((⟨-, hMost⟩ | ⟨-, hMost⟩) | ⟨-, hMost⟩) | rfl
    · exact lt_of_le_of_lt hMost (by decide)
    · exact lt_of_le_of_lt hMost (by decide)
    · exact lt_of_le_of_lt hMost (by decide)
    · decide
  · have hMarks : ∀ v ∈ js "@%+=:,./-", v.toNat < 0x7B :=
      List.all_iff_forall_prop.mp (by decide)
    exact hMarks u (List.contains_iff_mem.mp hMark)

theorem ordinary_of_plain {u : CodeUnit} (h : isPlain u = true) :
    Ordinary [u] := by
  have hTable : ∀ n ∈ List.range 0x7B, isPlain n.toUInt16 = true →
      (n.toUInt16 ≠ unit '\\' ∧ n.toUInt16 ≠ unit '"' ∧
        n.toUInt16 ≠ unit '\'') ∧
      isTrimmed n.toUInt16 = false ∧ isOperator [n.toUInt16] = false :=
    List.all_iff_forall_prop.mp (by decide +kernel)
  have hUnit : u.toNat.toUInt16 = u := UInt16.ofNat_toNat
  have hEntry := hTable u.toNat (List.mem_range.mpr (toNat_of_plain h))
  rw [hUnit] at hEntry
  obtain ⟨⟨hSlash, hDouble, hSingle⟩, hSpace, hOperator⟩ := hEntry h
  refine ⟨fun v hv hSame => ?_, ?_, hOperator⟩
  · rw [List.singleton_inj] at hSame
    rcases hv with rfl | rfl | rfl
    · exact hSlash hSame
    · exact hDouble hSame
    · exact hSingle hSame
  · rw [List.any_cons, hSpace]
    rfl

theorem readUnits_plain {args : List JsString} {word text : JsString}
    (h : ∀ u ∈ text, isPlain u = true) :
    (Reader.within args word).readUnits text =
      .ok (.within args (word ++ text)) := by
  induction text generalizing word with
  | nil =>
      rw [List.append_nil]
      rfl
  | cons u text ih =>
      rw [List.forall_mem_cons] at h
      rw [readUnits_cons,
        read_ordinary (Or.inl rfl) (ordinary_of_plain h.1)]
      show (Reader.within args (word ++ [u])).readUnits text = _
      rw [ih h.2, List.append_assoc, List.singleton_append]

/-- One unit of a quoted argument, written out. -/
theorem readUnits_quoteUnit (args : List JsString) (word : JsString)
    (u : CodeUnit) :
    (Reader.quoted args word).readUnits (quoteUnit u) =
      .ok (.quoted args (word ++ [u])) := by
  by_cases hQuote : u = unit '\''
  · subst hQuote
    have hText : quoteUnit (unit '\'') =
        [unit '\'', unit '\\', unit '\'', unit '\''] := by decide
    rw [hText]
    rfl
  · have hOther : [u] ≠ [unit '\''] := fun hSame =>
      hQuote (List.singleton_inj.mp hSame)
    have hRead : (Reader.quoted args word).read [u] =
        .ok (.quoted args (word ++ [u])) := by
      simp [Reader.read, Reader.quoted, hQuote]
    rw [quoteUnit, if_neg hQuote, readUnits_cons, hRead]
    rfl

theorem readUnits_quoted (args : List JsString) (word text : JsString) :
    (Reader.quoted args word).readUnits (text.flatMap quoteUnit) =
      .ok (.quoted args (word ++ text)) := by
  induction text generalizing word with
  | nil =>
      rw [List.append_nil]
      rfl
  | cons u text ih =>
      rw [List.flatMap_cons, readUnits_append, readUnits_quoteUnit]
      show (Reader.quoted args (word ++ [u])).readUnits _ = _
      rw [ih, List.append_assoc, List.singleton_append]

/-- What is printed of an argument reads as the argument. -/
theorem readUnits_printArgument (args : List JsString)
    (argument : JsString) :
    (Reader.between args).readUnits (printArgument argument) =
      .ok (.within args argument) := by
  unfold printArgument
  split_ifs with hPlain
  · obtain ⟨hSome, hAll⟩ := hPlain
    obtain ⟨u, text, rfl⟩ := List.exists_cons_of_ne_nil hSome
    have hUnits := List.all_eq_true.mp hAll
    rw [readUnits_cons, read_ordinary (Or.inl rfl)
      (ordinary_of_plain (hUnits u List.mem_cons_self))]
    exact readUnits_plain fun v hv => hUnits v (List.mem_cons_of_mem u hv)
  · have hOpen : (Reader.between args).read [unit '\''] =
        .ok (.quoted args []) := rfl
    rw [singleQuoted, readUnits_cons, hOpen]
    show (Reader.quoted args []).readUnits _ = _
    rw [readUnits_append, readUnits_quoted]
    rfl

/-! ## A whole line -/

/-- The printed arguments are read one after the other. -/
theorem readUnits_commandLine (args argv : List JsString) (hSome : argv ≠ []) :
    ∃ front last, args ++ argv = front ++ [last] ∧
      (Reader.between args).readUnits (commandLine argv) =
        .ok (.within front last) := by
  induction argv generalizing args with
  | nil => exact absurd rfl hSome
  | cons argument argv ih =>
      cases argv with
      | nil =>
          refine ⟨args, argument, rfl, ?_⟩
          rw [commandLine, List.map_singleton, List.intercalate_singleton]
          exact readUnits_printArgument args argument
      | cons next argv =>
          obtain ⟨front, last, hArgs, hRead⟩ :=
            ih (args ++ [argument]) (List.cons_ne_nil _ _)
          refine ⟨front, last, ?_, ?_⟩
          · rw [← hArgs, List.append_assoc, List.singleton_append]
          · have hSpace : (Reader.within args argument).read [unit ' '] =
                .ok (.between (args ++ [argument])) := rfl
            rw [commandLine, List.map_cons, List.map_cons,
              List.intercalate_cons_cons, readUnits_append, readUnits_append,
              readUnits_printArgument]
            show ((Reader.within args argument).readUnits [unit ' ']).bind _ = _
            rw [readUnits_cons, hSpace, ← List.map_cons]
            exact hRead

theorem texts_eq {items : List JsonValue}
    (h : ∀ item ∈ items, isArgument item = true) :
    (texts items).map .string = items := by
  induction items with
  | nil => rfl
  | cons item items ih =>
      rw [List.forall_mem_cons] at h
      cases item with
      | string text =>
          show JsonValue.string text :: (texts items).map .string = _
          rw [ih h.2]
      | null => exact absurd h.1 Bool.false_ne_true
      | bool b => exact absurd h.1 Bool.false_ne_true
      | number n => exact absurd h.1 Bool.false_ne_true
      | array values => exact absurd h.1 Bool.false_ne_true
      | object members => exact absurd h.1 Bool.false_ne_true

/-- What is accepted is the value itself, and not empty. -/
theorem parseProgramArgv_eq_ok {value : JsonValue} {argv : List JsString}
    (h : parseProgramArgv value = .ok argv) :
    argv ≠ [] ∧ value = .array (argv.map .string) := by
  unfold parseProgramArgv at h
  split at h
  · rename_i items
    split at h
    · cases h
    · rename_i hAccepted
      simp only [Bool.or_eq_true, not_or, decide_eq_true_eq,
        Bool.not_eq_true, List.any_eq_false, Bool.not_eq_false'] at hAccepted
      obtain ⟨⟨⟨hSome, -⟩, hItems⟩, -⟩ := hAccepted
      have hTexts := texts_eq hItems
      cases h
      refine ⟨fun hNone => hSome ?_, by rw [hTexts]⟩
      rw [← hTexts, hNone]
      exact Nat.zero_lt_one
  · cases h

/-- A line is read unit by unit, and then the arguments are checked. -/
theorem parseCommandLine_eq (line : JsString) :
    parseCommandLine line =
      ((Reader.between []).readUnits line).bind Reader.finish := by
  show ((characters line).foldlM Reader.read (Reader.between [])).bind _ = _
  rw [readCharacters_eq (Or.inl rfl)]

theorem parseCommandLine_printed {value : JsonValue} {argv : List JsString}
    (h : parseProgramArgv value = .ok argv) :
    parseCommandLine (commandLine argv) = .ok argv := by
  obtain ⟨hSome, hValue⟩ := parseProgramArgv_eq_ok h
  obtain ⟨front, last, hArgs, hRead⟩ := readUnits_commandLine [] argv hSome
  rw [parseCommandLine_eq, hRead]
  show parseProgramArgv (.array ((front ++ [last]).map .string)) = _
  rw [← hArgs, List.nil_append, ← hValue, h]

/-- A list that is accepted is read back from the line it is shown as, and no
other list is shown as the same line. -/
theorem parseCommandLine_commandLine :
    (∀ value argv, parseProgramArgv value = .ok argv →
      parseCommandLine (commandLine argv) = .ok argv) ∧
    ∀ value value' argv argv', parseProgramArgv value = .ok argv →
      parseProgramArgv value' = .ok argv' →
      commandLine argv = commandLine argv' → argv = argv' := by
  refine ⟨fun value argv h => parseCommandLine_printed h, ?_⟩
  intro value value' argv argv' h h' hLine
  have hRead := parseCommandLine_printed h
  rw [hLine, parseCommandLine_printed h'] at hRead
  exact (Except.ok.inj hRead).symm

/-- An empty argument, both quotes and a backslash; and two lists of the same
words. -/
theorem parseCommandLine_commandLine_note :
    parseCommandLine (commandLine
        [js "note", [], js "it's \"\\done\"", js "a b"]) =
      .ok [js "note", [], js "it's \"\\done\"", js "a b"] ∧
    commandLine [js "a b"] ≠ commandLine [js "a", js "b"] := by
  refine ⟨parseCommandLine_commandLine.1
    (.array ([js "note", [], js "it's \"\\done\"", js "a b"].map .string)) _
    (by decide +kernel), fun hLine => ?_⟩
  have hSame := parseCommandLine_commandLine.2 (.array [.string (js "a b")])
    (.array [.string (js "a"), .string (js "b")]) _ _ (by decide +kernel)
    (by decide +kernel) hLine
  exact absurd hSame (by decide)

end OpenApe.Ports.CommandLine
