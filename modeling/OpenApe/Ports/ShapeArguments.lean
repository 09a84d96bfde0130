import OpenApe.Ports.ShapeMatcher
import Mathlib.Data.List.TakeWhile

/-!
# The arguments of a matched call

For an operation that declares its options, `matchOperation` reads an argv as
global options, the command, and then flags, bundles, value options and
positionals.  Here these are data (`Argument`), each with its spelling, and
the loops of the matcher are the readers of that spelling: what
`parseDeclared` accepts is exactly what declared arguments spell
(`readArguments_iff`), so an argv has one reading.

The bindings of a call are the last settings of each name.  So an argument is
accounted for unless a later one sets its name to something else
(`accountedFor_iff`).
-/

namespace OpenApe.Ports.ShapeArguments

open Verified.JsText Verified.JsText.Record
open ShapeMatcher

/-! ## Option names -/

/-- A name written with two dashes. -/
def LongName (key : JsString) : Prop := 1 < key.length ∧ unit '=' ∉ key

/-- A name that an option token can spell. -/
def OptionName (key : JsString) : Prop :=
  LongName key ∨ (key.length = 1 ∧ key ≠ js "-")

/-- The exact dash form of a name. -/
def dashed (key : JsString) : JsString :=
  if key.length = 1 then unit '-' :: key else unit '-' :: unit '-' :: key

/-- A long name with its value in the same token. -/
def inlineToken (key value : JsString) : JsString :=
  unit '-' :: unit '-' :: key ++ unit '=' :: value

theorem startsWith_dash_iff {token : JsString} :
    startsWith token "-" = true ↔ ∃ rest, token = unit '-' :: rest := by
  have hDash : js "-" = [unit '-'] := by decide
  rw [startsWith, hDash, List.isPrefixOf_iff_prefix]
  exact exists_congr (fun rest => eq_comm)

theorem startsWith_dashes_iff {token : JsString} :
    startsWith token "--" = true ↔
      ∃ rest, token = unit '-' :: unit '-' :: rest := by
  have hDash : js "--" = [unit '-', unit '-'] := by decide
  rw [startsWith, hDash, List.isPrefixOf_iff_prefix]
  exact exists_congr (fun rest => eq_comm)

/-- The name and inline value of a token with two dashes. -/
theorem splitInlineValue_dashes (name : JsString) :
    splitInlineValue (unit '-' :: unit '-' :: name) name =
      if unit '=' ∈ name then
        { key := name.takeWhile (fun u => u != unit '=')
          value := some ((name.dropWhile (fun u => u != unit '=')).drop 1) }
      else { key := name } := by
  have hStart : startsWith (unit '-' :: unit '-' :: name) "--" = true :=
    startsWith_dashes_iff.mpr ⟨name, rfl⟩
  simp [splitInlineValue, hStart]

/-- A name up to its first equals sign and the text behind it. -/
theorem split_at_equals {name : JsString} (h : unit '=' ∈ name) :
    name = name.takeWhile (fun u => u != unit '=') ++
      unit '=' :: (name.dropWhile (fun u => u != unit '=')).drop 1 := by
  induction name with
  | nil => cases h
  | cons u name ih =>
      by_cases hEq : u = unit '='
      · subst hEq
        simp
      · have hKeep : (u != unit '=') = true := by simpa using hEq
        have hTail : unit '=' ∈ name := by
          rcases List.mem_cons.mp h with hHead | hTail
          · exact absurd hHead.symm hEq
          · exact hTail
        rw [List.takeWhile_cons, List.dropWhile_cons, if_pos hKeep,
          if_pos hKeep, List.cons_append, ← ih hTail]

theorem takeWhile_key {key : JsString} (h : unit '=' ∉ key)
    (value : JsString) :
    (key ++ unit '=' :: value).takeWhile (fun u => u != unit '=') = key ∧
      (key ++ unit '=' :: value).dropWhile (fun u => u != unit '=') =
        unit '=' :: value := by
  have hKeep : ∀ u ∈ key, (u != unit '=') = true := by
    intro u hu
    simpa using fun hEq : u = unit '=' => h (hEq ▸ hu)
  rw [List.takeWhile_append_of_pos hKeep, List.dropWhile_append_of_pos hKeep]
  simp

theorem exactOption_inline {key : JsString} (h : LongName key)
    (value : JsString) :
    exactOption (inlineToken key value) = some { key, value := some value } := by
  have hStart : startsWith (inlineToken key value) "--" = true :=
    startsWith_dashes_iff.mpr ⟨_, rfl⟩
  have hDrop : (inlineToken key value).drop 2 = key ++ unit '=' :: value :=
    rfl
  have hEquals : unit '=' ∈ key ++ unit '=' :: value := by simp
  have hSplit : splitInlineValue (inlineToken key value)
      (key ++ unit '=' :: value) = { key, value := some value } := by
    rw [inlineToken, List.cons_append, List.cons_append,
      splitInlineValue_dashes, if_pos hEquals, (takeWhile_key h.2 value).1,
      (takeWhile_key h.2 value).2, List.drop_one, List.tail_cons]
  rw [exactOption, if_pos hStart, hDrop, hSplit]
  exact if_pos h.1

theorem exactOption_dashed {key : JsString} (h : OptionName key) :
    exactOption (dashed key) = some { key } := by
  rcases h with hLong | ⟨hLength, hNotDash⟩
  · have hNe : key.length ≠ 1 := by have := hLong.1; omega
    have hStart : startsWith (unit '-' :: unit '-' :: key) "--" = true :=
      startsWith_dashes_iff.mpr ⟨key, rfl⟩
    have hDrop : (unit '-' :: unit '-' :: key).drop 2 = key := rfl
    rw [dashed, if_neg hNe, exactOption, if_pos hStart, hDrop,
      splitInlineValue_dashes, if_neg hLong.2]
    exact if_pos hLong.1
  · have hStart : ¬startsWith (unit '-' :: key) "--" = true := by
      rw [startsWith_dashes_iff]
      rintro ⟨rest, hEq⟩
      obtain rfl := (List.cons.inj hEq).2
      have hEmpty : rest = [] := by simpa using hLength
      exact hNotDash (by rw [hEmpty]; decide)
    rw [dashed, if_pos hLength, exactOption, if_neg hStart,
      if_pos (by simp [hLength])]
    rfl

/-- **What `exactOption` accepts** of the tokens that start with a dash: the
exact dash form of a name, a long one perhaps with its value. -/
theorem exactOption_spec {token : JsString} {option : OptionToken}
    (hDash : startsWith token "-" = true)
    (h : exactOption token = some option) :
    (option.value = none ∧ OptionName option.key ∧
      token = dashed option.key) ∨
    (∃ value, option.value = some value ∧ LongName option.key ∧
      token = inlineToken option.key value) := by
  obtain ⟨rest, rfl⟩ := startsWith_dash_iff.mp hDash
  by_cases hDashes : startsWith (unit '-' :: rest) "--" = true
  · obtain ⟨name, hName⟩ := startsWith_dashes_iff.mp hDashes
    obtain rfl : rest = unit '-' :: name := (List.cons.inj hName).2
    have hDrop : (unit '-' :: unit '-' :: name).drop 2 = name := rfl
    rw [exactOption, if_pos hDashes, hDrop, splitInlineValue_dashes] at h
    by_cases hEquals : unit '=' ∈ name
    · rw [if_pos hEquals] at h
      dsimp only at h
      split at h
      · rename_i hLength
        cases h
        have hKey : unit '=' ∉ name.takeWhile (fun u => u != unit '=') := by
          intro hMem
          simpa using List.mem_takeWhile_imp hMem
        refine .inr ⟨_, rfl, ⟨hLength, hKey⟩, ?_⟩
        rw [inlineToken, List.cons_append, List.cons_append,
          ← split_at_equals hEquals]
      · cases h
    · rw [if_neg hEquals] at h
      dsimp only at h
      split at h
      · rename_i hLength
        cases h
        have hNe : name.length ≠ 1 := by omega
        exact .inl ⟨rfl, .inl ⟨hLength, hEquals⟩, by rw [dashed, if_neg hNe]⟩
      · cases h
  · rw [exactOption, if_neg hDashes] at h
    split at h
    · rename_i hLength
      cases h
      have hOne : rest.length = 1 := by simpa using hLength
      refine .inl ⟨rfl, .inr ⟨hOne, ?_⟩, ?_⟩
      · rintro hDash
        refine hDashes (startsWith_dashes_iff.mpr ⟨[], ?_⟩)
        rw [show rest = js "-" from hDash]
        decide
      · exact (if_pos hOne).symm
    · cases h

/-! ## Arguments behind the command -/

/-- One argument, as the program that is called reads it. -/
inductive Argument where
  | positional (text : JsString)
  | bundle (letters : JsString)
  | inlineValue (key value : JsString)
  | nextValue (key value : JsString)
  | flag (key : JsString)
  | inlineFlag (key value : JsString)
  deriving DecidableEq

namespace Argument

/-- The tokens that spell an argument. -/
def tokens : Argument → List JsString
  | positional text => [text]
  | bundle letters => [unit '-' :: letters]
  | inlineValue key value => [inlineToken key value]
  | nextValue key value => [dashed key, value]
  | flag key => [dashed key]
  | inlineFlag key value => [inlineToken key value]

/-- The argument is one of those declared: options that take a value, flags,
bundles of one-letter flags, and what is no option. -/
def Declared (takesValue flags : List JsString) : Argument → Prop
  | positional text => startsWith text "-" = false ∨ text = js "-"
  | bundle letters => 1 < letters.length ∧ startsWith letters "-" = false ∧
      ∀ letter ∈ characters letters, letter ∈ flags
  | inlineValue key _ => key ∈ takesValue ∧ LongName key
  | nextValue key value => key ∈ takesValue ∧ OptionName key ∧
      value ≠ [] ∧ startsWith value "-" = false
  | flag key => key ∈ flags ∧ key ∉ takesValue ∧ OptionName key
  | inlineFlag key _ => key ∈ flags ∧ key ∉ takesValue ∧ LongName key

/-- What the argument sets among the options. -/
def settings : Argument → List (JsString × JsString)
  | positional _ => []
  | bundle letters =>
      (characters letters).map (fun letter => (letter, js "true"))
  | inlineValue key value => [(key, value)]
  | nextValue key value => [(key, value)]
  | flag key => [(key, js "true")]
  | inlineFlag key value => [(key, value)]

/-- The value given to a value option. -/
def optionValues : Argument → List (JsString × JsString)
  | inlineValue key value => [(key, value)]
  | nextValue key value => [(key, value)]
  | positional _ => []
  | bundle _ => []
  | flag _ => []
  | inlineFlag _ _ => []

def positionals : Argument → List JsString
  | positional text => [text]
  | _ => []

end Argument

/-- The arguments that tokens spell, read as `parseDeclared` reads them. -/
def readArguments (takesValue flags : List JsString) :
    List JsString → Option (List Argument)
  | [] => some []
  | token :: rest =>
      if !startsWith token "-" || token == js "-" then
        (readArguments takesValue flags rest).map (.positional token :: ·)
      else if !startsWith token "--" && decide (token.length > 2) then
        if (characters (token.drop 1)).all flags.contains then
          (readArguments takesValue flags rest).map
            (.bundle (token.drop 1) :: ·)
        else none
      else
        match exactOption token with
        | none => none
        | some option =>
            if takesValue.contains option.key then
              match option.value, rest with
              | some value, rest =>
                  (readArguments takesValue flags rest).map
                    (.inlineValue option.key value :: ·)
              | none, [] => none
              | none, next :: rest =>
                  if next.isEmpty || startsWith next "-" then none
                  else
                    (readArguments takesValue flags rest).map
                      (.nextValue option.key next :: ·)
            else if flags.contains option.key then
              (readArguments takesValue flags rest).map
                ((match option.value with
                  | some value => .inlineFlag option.key value
                  | none => .flag option.key) :: ·)
            else none

/-- What the matcher has collected once it has read the arguments. -/
def collected (arguments : List Argument) (parsed : ParsedArgs) :
    ParsedArgs where
  options := assignAll (arguments.flatMap Argument.settings) parsed.options
  positionals :=
    parsed.positionals ++ arguments.flatMap Argument.positionals

theorem collected_cons (argument : Argument) (arguments : List Argument)
    (parsed : ParsedArgs) :
    collected (argument :: arguments) parsed =
      collected arguments
        { options := assignAll argument.settings parsed.options
          positionals := parsed.positionals ++ argument.positionals } := by
  simp [collected, assignAll, List.foldl_append]

theorem map_collected_cons (argument : Argument) (parsed : ParsedArgs)
    (read : Option (List Argument)) :
    (read.map (argument :: ·)).map
        (fun arguments => collected arguments parsed) =
      read.map (fun arguments => collected arguments
        { options := assignAll argument.settings parsed.options
          positionals := parsed.positionals ++ argument.positionals }) := by
  rw [Option.map_map]
  refine congrArg (fun f => Option.map f read) (funext fun arguments => ?_)
  exact collected_cons argument arguments parsed

/-- **The matcher's loop** collects the arguments it reads. -/
theorem parseDeclared_eq (takesValue flags tokens : List JsString)
    (parsed : ParsedArgs) :
    parseDeclared takesValue flags tokens parsed =
      (readArguments takesValue flags tokens).map
        (fun arguments => collected arguments parsed) := by
  fun_induction parseDeclared takesValue flags tokens parsed with
  | case1 parsed => simp [readArguments, collected, assignAll]
  | case2 token rest parsed hPlain ih =>
      rw [ih, readArguments.eq_def takesValue flags (token :: rest)]
      dsimp only
      rw [if_pos hPlain, map_collected_cons]
      rfl
  | case3 token rest parsed hPlain hBundle bundle hFlags ih =>
      rw [ih, readArguments.eq_def takesValue flags (token :: rest)]
      dsimp only
      rw [if_neg hPlain, if_pos hBundle, if_pos hFlags, map_collected_cons]
      simp [Argument.settings, Argument.positionals, assignAll,
        List.foldl_map, bundle]
  | case4 token rest parsed hPlain hBundle bundle hFlags =>
      rw [readArguments.eq_def takesValue flags (token :: rest)]
      dsimp only
      rw [if_neg hPlain, if_pos hBundle, if_neg hFlags]
      rfl
  | case5 token rest parsed hPlain hBundle hOption =>
      rw [readArguments.eq_def takesValue flags (token :: rest)]
      dsimp only
      rw [if_neg hPlain, if_neg hBundle, hOption]
      rfl
  | case6 token parsed hPlain hBundle option hOption hTakes value rest hValue
      ih =>
      rw [ih, readArguments.eq_def takesValue flags (token :: rest)]
      dsimp only
      rw [if_neg hPlain, if_neg hBundle, hOption]
      dsimp only
      rw [if_pos hTakes, hValue]
      dsimp only
      rw [map_collected_cons]
      simp [Argument.settings, Argument.positionals, assignAll]
  | case7 token parsed hPlain hBundle option hOption hTakes hValue =>
      rw [readArguments.eq_def takesValue flags [token]]
      dsimp only
      rw [if_neg hPlain, if_neg hBundle, hOption]
      dsimp only
      rw [if_pos hTakes, hValue]
      rfl
  | case8 token parsed hPlain hBundle option hOption hTakes next rest hValue
      hNext =>
      rw [readArguments.eq_def takesValue flags (token :: next :: rest)]
      dsimp only
      rw [if_neg hPlain, if_neg hBundle, hOption]
      dsimp only
      rw [if_pos hTakes, hValue]
      dsimp only
      rw [if_pos hNext]
      rfl
  | case9 token parsed hPlain hBundle option hOption hTakes next rest hValue
      hNext ih =>
      rw [ih, readArguments.eq_def takesValue flags (token :: next :: rest)]
      dsimp only
      rw [if_neg hPlain, if_neg hBundle, hOption]
      dsimp only
      rw [if_pos hTakes, hValue]
      dsimp only
      rw [if_neg hNext, map_collected_cons]
      simp [Argument.settings, Argument.positionals, assignAll]
  | case10 token rest parsed hPlain hBundle option hOption hTakes hFlag ih =>
      rw [ih, readArguments.eq_def takesValue flags (token :: rest)]
      dsimp only
      rw [if_neg hPlain, if_neg hBundle, hOption]
      dsimp only
      rw [if_neg hTakes, if_pos hFlag, map_collected_cons]
      cases hValue : option.value <;>
        simp [Argument.settings, Argument.positionals, assignAll]
  | case11 token rest parsed hPlain hBundle option hOption hTakes hFlag =>
      rw [readArguments.eq_def takesValue flags (token :: rest)]
      dsimp only
      rw [if_neg hPlain, if_neg hBundle, hOption]
      dsimp only
      rw [if_neg hTakes, if_neg hFlag]
      rfl

/-! ## The reading of an argv is its spelling -/

/-- A token that is read as an option: no positional and no bundle. -/
def IsOptionToken (token : JsString) : Prop :=
  startsWith token "-" = true ∧ token ≠ js "-" ∧
    (startsWith token "--" = true ∨ token.length = 2)

theorem isOptionToken_dashed {key : JsString} (h : OptionName key) :
    IsOptionToken (dashed key) := by
  have hOne : (js "-").length = 1 := by decide
  rcases h with hLong | ⟨hLength, -⟩
  · have hNe : key.length ≠ 1 := by have := hLong.1; omega
    rw [dashed, if_neg hNe]
    refine ⟨startsWith_dash_iff.mpr ⟨_, rfl⟩, ?_,
      .inl (startsWith_dashes_iff.mpr ⟨_, rfl⟩)⟩
    intro hEq
    simpa [hOne] using congrArg List.length hEq
  · rw [dashed, if_pos hLength]
    refine ⟨startsWith_dash_iff.mpr ⟨_, rfl⟩, ?_, .inr (by simp [hLength])⟩
    intro hEq
    simpa [hOne, hLength] using congrArg List.length hEq

theorem isOptionToken_inlineToken (key value : JsString) :
    IsOptionToken (inlineToken key value) := by
  have hOne : (js "-").length = 1 := by decide
  refine ⟨startsWith_dash_iff.mpr ⟨_, rfl⟩, ?_,
    .inl (startsWith_dashes_iff.mpr ⟨_, rfl⟩)⟩
  intro hEq
  simpa [inlineToken, hOne] using congrArg List.length hEq

section Reading

variable {takesValue flags : List JsString}

theorem readArguments_of_option {token : JsString} {option : OptionToken}
    (h : IsOptionToken token) (hOption : exactOption token = some option)
    (rest : List JsString) :
    readArguments takesValue flags (token :: rest) =
      if takesValue.contains option.key then
        match option.value, rest with
        | some value, rest =>
            (readArguments takesValue flags rest).map
              (.inlineValue option.key value :: ·)
        | none, [] => none
        | none, next :: rest =>
            if next.isEmpty || startsWith next "-" then none
            else
              (readArguments takesValue flags rest).map
                (.nextValue option.key next :: ·)
      else if flags.contains option.key then
        (readArguments takesValue flags rest).map
          ((match option.value with
            | some value => .inlineFlag option.key value
            | none => .flag option.key) :: ·)
      else none := by
  obtain ⟨hDash, hNe, hBundle⟩ := h
  have hPlain : ¬(!startsWith token "-" || token == js "-") = true := by
    simp [hDash, hNe]
  have hSingle :
      ¬(!startsWith token "--" && decide (token.length > 2)) = true := by
    rcases hBundle with hDashes | hLength
    · simp [hDashes]
    · simp [hLength]
  rw [readArguments.eq_def takesValue flags (token :: rest)]
  dsimp only
  rw [if_neg hPlain, if_neg hSingle, hOption]

/-- A declared argument is read back from its tokens. -/
theorem readArguments_tokens_append {argument : Argument}
    (h : argument.Declared takesValue flags) (rest : List JsString) :
    readArguments takesValue flags (argument.tokens ++ rest) =
      (readArguments takesValue flags rest).map (argument :: ·) := by
  cases argument with
  | positional text =>
      have hPlain : (!startsWith text "-" || text == js "-") = true := by
        rcases h with hNot | rfl
        · simp [hNot]
        · simp
      rw [Argument.tokens, List.singleton_append,
        readArguments.eq_def takesValue flags (text :: rest)]
      dsimp only
      rw [if_pos hPlain]
  | bundle letters =>
      obtain ⟨hLength, hSingle, hFlags⟩ := h
      have hDash : startsWith (unit '-' :: letters) "-" = true :=
        startsWith_dash_iff.mpr ⟨_, rfl⟩
      have hNe : unit '-' :: letters ≠ js "-" := by
        intro hEq
        have hCount := congrArg List.length hEq
        simp only [List.length_cons, show (js "-").length = 1 by decide]
          at hCount
        omega
      have hNotDashes : ¬startsWith (unit '-' :: letters) "--" = true := by
        rw [startsWith_dashes_iff]
        rintro ⟨tail, hEq⟩
        rw [(List.cons.inj hEq).2, startsWith_dash_iff.mpr ⟨_, rfl⟩] at hSingle
        cases hSingle
      have hMany : (unit '-' :: letters).length > 2 := by
        rw [List.length_cons]
        omega
      have hBundle : (!startsWith (unit '-' :: letters) "--" &&
          decide ((unit '-' :: letters).length > 2)) = true := by
        rw [Bool.and_eq_true]
        exact ⟨by simp [hNotDashes], decide_eq_true hMany⟩
      have hAll : (characters letters).all flags.contains = true := by
        simpa using hFlags
      rw [Argument.tokens, List.singleton_append,
        readArguments.eq_def takesValue flags ((unit '-' :: letters) :: rest)]
      dsimp only
      rw [if_neg (by simp [hDash, hNe]), if_pos hBundle, List.drop_one,
        List.tail_cons, if_pos hAll]
  | inlineValue key value =>
      obtain ⟨hTakes, hLong⟩ := h
      rw [Argument.tokens, List.singleton_append,
        readArguments_of_option (isOptionToken_inlineToken key value)
          (exactOption_inline hLong value)]
      simp [hTakes]
  | nextValue key value =>
      obtain ⟨hTakes, hName, hNonempty, hNoDash⟩ := h
      have hNext : (value.isEmpty || startsWith value "-") = false := by
        simp [hNonempty, hNoDash]
      rw [Argument.tokens, List.cons_append, List.singleton_append,
        readArguments_of_option (isOptionToken_dashed hName)
          (exactOption_dashed hName)]
      simp [hTakes, hNext]
  | flag key =>
      obtain ⟨hFlag, hNoValue, hName⟩ := h
      rw [Argument.tokens, List.singleton_append,
        readArguments_of_option (isOptionToken_dashed hName)
          (exactOption_dashed hName)]
      simp [hFlag, hNoValue]
  | inlineFlag key value =>
      obtain ⟨hFlag, hNoValue, hLong⟩ := h
      rw [Argument.tokens, List.singleton_append,
        readArguments_of_option (isOptionToken_inlineToken key value)
          (exactOption_inline hLong value)]
      simp [hFlag, hNoValue]

/-- What was read is declared, and spells the tokens. -/
def Spells (takesValue flags tokens : List JsString)
    (arguments : List Argument) : Prop :=
  (∀ argument ∈ arguments, argument.Declared takesValue flags) ∧
    tokens = arguments.flatMap Argument.tokens

theorem Spells.cons {argument : Argument} {rest tokens : List JsString}
    {arguments : List Argument} (hRest : Spells takesValue flags rest arguments)
    (hDeclared : argument.Declared takesValue flags)
    (hTokens : tokens = argument.tokens ++ rest) :
    Spells takesValue flags tokens (argument :: arguments) := by
  refine ⟨?_, by rw [hTokens, hRest.2, List.flatMap_cons]⟩
  rw [List.forall_mem_cons]
  exact ⟨hDeclared, hRest.1⟩

theorem isOption_of_not_plain {token : JsString}
    (h : ¬(!startsWith token "-" || token == js "-") = true) :
    startsWith token "-" = true ∧ token ≠ js "-" := by
  simpa using h

theorem spells_of_readArguments {tokens : List JsString}
    {arguments : List Argument}
    (h : readArguments takesValue flags tokens = some arguments) :
    Spells takesValue flags tokens arguments := by
  fun_induction readArguments takesValue flags tokens
    generalizing arguments with
  | case1 =>
      cases h
      exact ⟨by simp, rfl⟩
  | case2 token rest hPlain ih =>
      obtain ⟨read, hRead, rfl⟩ := Option.map_eq_some_iff.mp h
      refine (ih hRead).cons ?_ rfl
      simpa [Argument.Declared] using hPlain
  | case3 token rest hPlain hBundle hFlags ih =>
      obtain ⟨read, hRead, rfl⟩ := Option.map_eq_some_iff.mp h
      obtain ⟨letters, rfl⟩ :=
        startsWith_dash_iff.mp (isOption_of_not_plain hPlain).1
      rw [List.drop_one, List.tail_cons] at hFlags ⊢
      simp only [Bool.and_eq_true, Bool.not_eq_true', decide_eq_true_eq,
        List.length_cons] at hBundle
      refine (ih hRead).cons ⟨by omega, ?_, by simpa using hFlags⟩ rfl
      by_contra hDash
      rw [Bool.not_eq_false] at hDash
      obtain ⟨tail, rfl⟩ := startsWith_dash_iff.mp hDash
      rw [startsWith_dashes_iff.mpr ⟨tail, rfl⟩] at hBundle
      exact absurd hBundle.1 (by simp)
  | case4 => cases h
  | case5 => cases h
  | case6 token hPlain hBundle option hOption hTakes value rest hValue ih =>
      obtain ⟨read, hRead, rfl⟩ := Option.map_eq_some_iff.mp h
      obtain ⟨hNone, -, -⟩ | ⟨value', hSome, hLong, rfl⟩ :=
        exactOption_spec (isOption_of_not_plain hPlain).1 hOption
      · rw [hValue] at hNone
        cases hNone
      · obtain rfl := Option.some.inj (hValue.symm.trans hSome)
        exact (ih hRead).cons ⟨by simpa using hTakes, hLong⟩ rfl
  | case7 => cases h
  | case8 => cases h
  | case9 token hPlain hBundle option hOption hTakes next rest hValue hNext
      ih =>
      obtain ⟨read, hRead, rfl⟩ := Option.map_eq_some_iff.mp h
      obtain ⟨-, hName, rfl⟩ | ⟨value', hSome, -, -⟩ :=
        exactOption_spec (isOption_of_not_plain hPlain).1 hOption
      · simp only [Bool.or_eq_true, not_or, Bool.not_eq_true,
          List.isEmpty_eq_false_iff] at hNext
        exact (ih hRead).cons
          ⟨by simpa using hTakes, hName, hNext.1, hNext.2⟩ rfl
      · rw [hValue] at hSome
        cases hSome
  | case10 token rest hPlain hBundle option hOption hTakes hFlag ih =>
      obtain ⟨read, hRead, rfl⟩ := Option.map_eq_some_iff.mp h
      obtain ⟨hNone, hName, rfl⟩ | ⟨value, hSome, hLong, rfl⟩ :=
        exactOption_spec (isOption_of_not_plain hPlain).1 hOption
      · rw [hNone]
        exact (ih hRead).cons
          ⟨by simpa using hFlag, by simpa using hTakes, hName⟩ rfl
      · rw [hSome]
        exact (ih hRead).cons
          ⟨by simpa using hFlag, by simpa using hTakes, hLong⟩ rfl
  | case11 => cases h

/-- **The reader accepts exactly what declared arguments spell**, and reads
those arguments. -/
theorem readArguments_iff {tokens : List JsString}
    {arguments : List Argument} :
    readArguments takesValue flags tokens = some arguments ↔
      Spells takesValue flags tokens arguments := by
  refine ⟨spells_of_readArguments, ?_⟩
  rintro ⟨hDeclared, rfl⟩
  induction arguments with
  | nil => rfl
  | cons argument arguments ih =>
      rw [List.forall_mem_cons] at hDeclared
      rw [List.flatMap_cons, readArguments_tokens_append hDeclared.1,
        ih hDeclared.2]
      rfl

end Reading

/-! ## Global options -/

/-- A global option with its value, in the same token or the next one. -/
structure GlobalArgument where
  key : JsString
  value : JsString
  inline : Bool
  deriving DecidableEq

namespace GlobalArgument

def tokens (g : GlobalArgument) : List JsString :=
  if g.inline then [inlineToken g.key g.value] else [dashed g.key, g.value]

/-- The option's token, as `exactOption` reads it. -/
def option (g : GlobalArgument) : OptionToken where
  key := g.key
  value := if g.inline then some g.value else none

/-- The name that the option binds. -/
def binding (globalOptions : List JsString) (g : GlobalArgument) : JsString :=
  (bindingFor globalOptions g.key).getD []

/-- The global option is declared, and spelled in its exact form. -/
structure Declared (globalOptions : List JsString) (g : GlobalArgument) :
    Prop where
  bound : g.binding globalOptions ≠ []
  form : if g.inline then LongName g.key
    else OptionName g.key ∧ g.value ≠ [] ∧ startsWith g.value "-" = false

end GlobalArgument

section Globals

variable {globalOptions : List JsString}

/-- The tokens do not start with a declared global option. -/
def Stops (globalOptions tokens : List JsString) : Prop :=
  ∀ token option, tokens.head? = some token →
    startsWith token "-" = true → exactOption token = some option →
    (bindingFor globalOptions option.key).getD [] = []

/-- The first token of a global option, and what it is read as. -/
theorem GlobalArgument.Declared.head_spec {g : GlobalArgument}
    (h : g.Declared globalOptions) :
    ∃ token rest, g.tokens = token :: rest ∧
      startsWith token "-" = true ∧ exactOption token = some g.option ∧
      rest = if g.inline then [] else [g.value] := by
  obtain ⟨key, value, inline⟩ := g
  cases inline with
  | true =>
      exact ⟨_, _, rfl, (isOptionToken_inlineToken key value).1,
        exactOption_inline h.form value, rfl⟩
  | false =>
      exact ⟨_, _, rfl, (isOptionToken_dashed h.form.1).1,
        exactOption_dashed h.form.1, rfl⟩

/-- What the loop over the global options has read: declared options up to a
token that is none, each of which binds its value for good. -/
structure GlobalsRead (globalOptions argv rest : List JsString)
    (bindings b : Record) (globals : List GlobalArgument) : Prop where
  spelled : argv = globals.flatMap GlobalArgument.tokens ++ rest
  declared : ∀ g ∈ globals, g.Declared globalOptions
  stops : Stops globalOptions rest
  keeps : ∀ key value, bindings.get key = some value →
    b.get key = some value
  values : ∀ g ∈ globals, b.get (g.binding globalOptions) = some g.value

theorem GlobalsRead.nil {rest : List JsString} {b : Record}
    (h : Stops globalOptions rest) :
    GlobalsRead globalOptions rest rest b b [] where
  spelled := rfl
  declared := by simp
  stops := h
  keeps _ _ := id
  values := by simp

theorem GlobalsRead.cons {g : GlobalArgument} {tail rest : List JsString}
    {bindings b : Record} {globals : List GlobalArgument}
    (hDeclared : g.Declared globalOptions)
    (hFresh : ¬bindings.has (g.binding globalOptions) = true)
    (h : GlobalsRead globalOptions tail rest
      (bindings.assign (g.binding globalOptions) g.value) b globals) :
    GlobalsRead globalOptions (g.tokens ++ tail) rest bindings b
      (g :: globals) := by
  obtain ⟨hProto, hNone⟩ := of_has_eq_false (by simpa using hFresh)
  refine ⟨by simp [h.spelled], ?_, h.stops, ?_, ?_⟩
  · rw [List.forall_mem_cons]
    exact ⟨hDeclared, h.declared⟩
  · intro key value hGet
    refine h.keeps key value ?_
    rw [get_assign hProto]
    by_cases hKey : key = g.binding globalOptions
    · rw [hKey, hNone] at hGet
      cases hGet
    · rw [if_neg hKey, hGet]
  · rw [List.forall_mem_cons]
    refine ⟨h.keeps _ _ ?_, h.values⟩
    rw [get_assign hProto, if_pos rfl]

theorem parseGlobals_spec {argv rest : List JsString} {bindings b : Record}
    (h : parseGlobals globalOptions argv bindings = some (b, rest)) :
    ∃ globals, GlobalsRead globalOptions argv rest bindings b globals := by
  fun_induction parseGlobals globalOptions argv bindings with
  | case1 bindings =>
      cases h
      refine ⟨[], .nil ?_⟩
      intro token option hHead
      cases hHead
  | case2 token tail bindings hPlain =>
      cases h
      refine ⟨[], .nil ?_⟩
      intro token' option hHead hDash
      obtain rfl := Option.some.inj hHead
      simp [hDash] at hPlain
  | case3 token tail bindings hPlain hOption =>
      cases h
      refine ⟨[], .nil ?_⟩
      intro token' option hHead _ hSome
      obtain rfl := Option.some.inj hHead
      rw [hOption] at hSome
      cases hSome
  | case4 token tail bindings hPlain option hOption binding hEmpty =>
      cases h
      refine ⟨[], .nil ?_⟩
      intro token' option' hHead _ hSome
      obtain rfl := Option.some.inj hHead
      obtain rfl := Option.some.inj (hOption.symm.trans hSome)
      exact List.isEmpty_iff.mp hEmpty
  | case5 => cases h
  | case6 token bindings hPlain option hOption binding hBound hFresh value
      tail hValue ih =>
      obtain ⟨globals, hRead⟩ := ih h
      have hNonempty : binding ≠ [] :=
        fun hEq => hBound (List.isEmpty_iff.mpr hEq)
      obtain ⟨hNone, -, -⟩ | ⟨value', hSome, hLong, rfl⟩ :=
        exactOption_spec (by simpa using hPlain) hOption
      · rw [hValue] at hNone
        cases hNone
      · obtain rfl := Option.some.inj (hValue.symm.trans hSome)
        exact ⟨⟨option.key, value, true⟩ :: globals,
          .cons (g := ⟨option.key, value, true⟩) ⟨hNonempty, hLong⟩ hFresh
            hRead⟩
  | case7 => cases h
  | case8 => cases h
  | case9 token bindings hPlain option hOption binding hBound hFresh next
      tail hValue hNext ih =>
      obtain ⟨globals, hRead⟩ := ih h
      have hNonempty : binding ≠ [] :=
        fun hEq => hBound (List.isEmpty_iff.mpr hEq)
      obtain ⟨-, hName, rfl⟩ | ⟨value', hSome, -, -⟩ :=
        exactOption_spec (by simpa using hPlain) hOption
      · simp only [Bool.or_eq_true, not_or, Bool.not_eq_true,
          List.isEmpty_eq_false_iff] at hNext
        exact ⟨⟨option.key, next, false⟩ :: globals,
          .cons (g := ⟨option.key, next, false⟩)
            ⟨hNonempty, hName, hNext.1, hNext.2⟩ hFresh hRead⟩
      · rw [hValue] at hSome
        cases hSome

/-- Global options that are followed by none are read back from their
tokens. -/
theorem globals_unique {globals globals' : List GlobalArgument}
    {rest rest' : List JsString}
    (hAll : ∀ g ∈ globals, g.Declared globalOptions)
    (hAll' : ∀ g ∈ globals', g.Declared globalOptions)
    (hStops : Stops globalOptions rest) (hStops' : Stops globalOptions rest')
    (h : globals.flatMap GlobalArgument.tokens ++ rest =
      globals'.flatMap GlobalArgument.tokens ++ rest') :
    globals = globals' ∧ rest = rest' := by
  have hNoHead : ∀ {g : GlobalArgument} {tail tokens : List JsString},
      g.Declared globalOptions → Stops globalOptions tokens →
      tokens ≠ g.tokens ++ tail := by
    rintro g tail tokens hDeclared hStops rfl
    obtain ⟨token, more, hTokens, hDash, hOption, -⟩ := hDeclared.head_spec
    exact hDeclared.bound (hStops token g.option (by simp [hTokens]) hDash hOption)
  induction globals generalizing globals' with
  | nil =>
      cases globals' with
      | nil => exact ⟨rfl, h⟩
      | cons g' globals' =>
          rw [List.flatMap_nil, List.nil_append, List.flatMap_cons,
            List.append_assoc] at h
          exact absurd h (hNoHead (hAll' g' List.mem_cons_self) hStops)
  | cons g globals ih =>
      cases globals' with
      | nil =>
          rw [List.flatMap_nil, List.nil_append, List.flatMap_cons,
            List.append_assoc] at h
          exact absurd h.symm (hNoHead (hAll g List.mem_cons_self) hStops')
      | cons g' globals' =>
          rw [List.forall_mem_cons] at hAll hAll'
          obtain ⟨token, more, hTokens, hDash, hOption, hMore⟩ :=
            hAll.1.head_spec
          obtain ⟨token', more', hTokens', hDash', hOption', hMore'⟩ :=
            hAll'.1.head_spec
          rw [List.flatMap_cons, List.flatMap_cons, hTokens, hTokens',
            List.append_assoc, List.append_assoc, List.cons_append,
            List.cons_append] at h
          obtain ⟨rfl, hRest⟩ := List.cons.inj h
          have hSame : g.option = g'.option :=
            Option.some.inj (hOption.symm.trans hOption')
          obtain ⟨key, value, inline⟩ := g
          obtain ⟨key', value', inline'⟩ := g'
          obtain ⟨hKey, hValue⟩ := OptionToken.mk.inj hSame
          obtain rfl : key = key' := hKey
          clear hSame hOption hOption' hTokens hTokens' hDash hDash' h
          cases inline with
          | false =>
              cases inline' with
              | false =>
                  rw [show more = [value] from hMore,
                    show more' = [value'] from hMore'] at hRest
                  obtain ⟨rfl, hTail⟩ := List.cons.inj hRest
                  obtain ⟨rfl, rfl⟩ := ih hAll.2 hAll'.2 hTail
                  exact ⟨rfl, rfl⟩
              | true => cases hValue
          | true =>
              cases inline' with
              | false => cases hValue
              | true =>
                  rw [show more = [] from hMore,
                    show more' = [] from hMore'] at hRest
                  obtain rfl : value = value' := Option.some.inj hValue
                  obtain ⟨rfl, rfl⟩ := ih hAll.2 hAll'.2 hRest
                  exact ⟨rfl, rfl⟩

end Globals

/-! ## Readings of an argv -/

/-- The options of an operation that take a value, and its flags. -/
def takingValue (operation : ShapeMatchOperation) : List JsString :=
  operation.requiredOptions.getD [] ++ operation.valueOptions.getD []

def flagNames (operation : ShapeMatchOperation) : List JsString :=
  operation.flagOptions.getD []

/-- An argv split in order into global options with their values, the tokens
where the command stands, and declared arguments. -/
structure Reading (operation : ShapeMatchOperation) (argv : List JsString)
    where
  globals : List GlobalArgument
  front : List JsString
  arguments : List Argument
  spelled : argv = globals.flatMap GlobalArgument.tokens ++
    (front ++ arguments.flatMap Argument.tokens)
  globals_declared :
    ∀ g ∈ globals, g.Declared (operation.globalOptions.getD [])
  globals_stop : Stops (operation.globalOptions.getD [])
    (front ++ arguments.flatMap Argument.tokens)
  front_length : front.length = operation.command.length
  arguments_declared : ∀ argument ∈ arguments,
    argument.Declared (takingValue operation) (flagNames operation)
  positionals_length : (arguments.flatMap Argument.positionals).length =
    (operation.positionals.getD []).length

/-- **An argv has one reading.** -/
theorem Reading.unique {operation : ShapeMatchOperation}
    {argv : List JsString} (r r' : Reading operation argv) : r = r' := by
  obtain ⟨globals, front, arguments, hSpelled, hGlobals, hStop, hLength,
    hDeclared, hPositionals⟩ := r
  obtain ⟨globals', front', arguments', hSpelled', hGlobals', hStop',
    hLength', hDeclared', hPositionals'⟩ := r'
  obtain ⟨rfl, hRest⟩ := globals_unique hGlobals hGlobals' hStop hStop'
    (hSpelled.symm.trans hSpelled')
  obtain ⟨rfl, hTokens⟩ :=
    List.append_inj hRest (hLength.trans hLength'.symm)
  have hRead := readArguments_iff.mpr ⟨hDeclared, rfl⟩
  rw [hTokens, readArguments_iff.mpr ⟨hDeclared', rfl⟩] at hRead
  obtain rfl := Option.some.inj hRead
  rfl

namespace Reading

variable {operation : ShapeMatchOperation} {argv : List JsString}
  (r : Reading operation argv)

/-- The expected positionals with the texts given for them. -/
def expected : List (JsString × JsString) :=
  (operation.positionals.getD []).zip
    (r.arguments.flatMap Argument.positionals)

/-- The positionals that bind a name. -/
def namedPositionals : List (JsString × JsString) :=
  r.expected.filter (fun e => !startsWith e.1 "=")

/-- The values given to global options. -/
def globalValues : List (JsString × JsString) :=
  r.globals.map (fun g =>
    (g.binding (operation.globalOptions.getD []), g.value))

/-- The values given to value options and to named positionals. -/
def givenValues : List (JsString × JsString) :=
  r.arguments.flatMap Argument.optionValues ++ r.namedPositionals

/-- What is set behind the command: first the options and flags, then the
named positionals. -/
def settings : List (JsString × JsString) :=
  r.arguments.flatMap Argument.settings ++ r.namedPositionals

theorem mem_settings_of_mem_givenValues {e : JsString × JsString}
    (h : e ∈ r.givenValues) : e ∈ r.settings := by
  rcases List.mem_append.mp h with hOption | hNamed
  · refine List.mem_append.mpr (.inl ?_)
    obtain ⟨argument, hArgument, hValue⟩ := List.mem_flatMap.mp hOption
    refine List.mem_flatMap.mpr ⟨argument, hArgument, ?_⟩
    cases argument with
    | inlineValue key value => exact hValue
    | nextValue key value => exact hValue
    | positional text => cases hValue
    | bundle letters => cases hValue
    | flag key => cases hValue
    | inlineFlag key value => cases hValue
  · exact List.mem_append.mpr (.inr hNamed)

end Reading

/-! ## What a match binds -/

theorem bindPositionals_spec {pairs : List (JsString × JsString)}
    {bindings b : Record} (h : bindPositionals pairs bindings = some b) :
    b = assignAll (pairs.filter (fun e => !startsWith e.1 "=")) bindings := by
  induction pairs generalizing bindings with
  | nil => exact (Option.some.inj h).symm
  | cons pair pairs ih =>
      obtain ⟨name, value⟩ := pair
      unfold bindPositionals at h
      by_cases hFixed : startsWith name "=" = true
      · rw [if_pos hFixed] at h
        split at h
        · cases h
        · rw [ih h, List.filter_cons_of_neg (by simp [hFixed])]
      · rw [if_neg hFixed] at h
        rw [ih h, List.filter_cons_of_pos (by simpa using hFixed)]
        rfl

/-- The global bindings are added to names that were free. -/
theorem bindGlobals_spec {pairs : List (JsString × JsString)}
    {bindings b : Record} (h : bindGlobals pairs bindings = some b) :
    (∀ e ∈ pairs, b.get e.1 = some e.2) ∧
      ∀ key value, bindings.get key = some value →
        b.get key = some value := by
  induction pairs generalizing bindings with
  | nil =>
      cases h
      exact ⟨by simp, fun _ _ => id⟩
  | cons pair pairs ih =>
      obtain ⟨name, value⟩ := pair
      unfold bindGlobals at h
      split at h
      · cases h
      · rename_i hFresh
        obtain ⟨hProto, hNone⟩ := of_has_eq_false (by simpa using hFresh)
        obtain ⟨hPairs, hKeeps⟩ := ih h
        refine ⟨?_, ?_⟩
        · rw [List.forall_mem_cons]
          refine ⟨hKeeps _ _ ?_, hPairs⟩
          rw [get_assign hProto, if_pos rfl]
        · intro key value' hGet
          refine hKeeps _ _ ?_
          rw [get_assign hProto]
          by_cases hKey : key = name
          · rw [hKey, hNone] at hGet
            cases hGet
          · rw [if_neg hKey, hGet]

theorem get_proto_of_bindGlobals {pairs : List (JsString × JsString)}
    {bindings b : Record} (h : bindGlobals pairs bindings = some b) :
    b.get (js "__proto__") = bindings.get (js "__proto__") := by
  induction pairs generalizing bindings with
  | nil =>
      cases h
      rfl
  | cons pair pairs ih =>
      obtain ⟨name, value⟩ := pair
      unfold bindGlobals at h
      split at h
      · cases h
      · rename_i hFresh
        obtain ⟨hProto, -⟩ := of_has_eq_false (by simpa using hFresh)
        rw [ih h, get_assign hProto, if_neg (Ne.symm hProto)]

/-- The steps of a match, one after the other. -/
structure MatchesBy (operation : ShapeMatchOperation) (argv : List JsString)
    (b globals : Record) (rest : List JsString) (parsed : ParsedArgs)
    (bindings : Record) : Prop where
  globals_read : parseGlobals (operation.globalOptions.getD []) argv .empty =
    some (globals, rest)
  length_le : operation.command.length ≤ rest.length
  joined : joinNul (rest.take operation.command.length) =
    joinNul operation.command
  parsed_eq : parseOptionArgs (rest.drop operation.command.length) operation =
    some parsed
  positionals_length : parsed.positionals.length =
    (operation.positionals.getD []).length
  positionals_bound : bindPositionals
    ((operation.positionals.getD []).zip parsed.positionals) parsed.options =
      some bindings
  globals_bound : bindGlobals globals.entries bindings = some b

/-- Without global options nothing is read before the command. -/
theorem parseGlobals_nil (argv : List JsString) (bindings : Record) :
    parseGlobals [] argv bindings = some (bindings, argv) := by
  cases argv with
  | nil => rfl
  | cons token rest =>
      unfold parseGlobals
      cases exactOption token <;> simp [bindingFor]

theorem matchesBy_of_matchOperation {operation : ShapeMatchOperation}
    {argv : List JsString} {b : Record}
    (h : matchOperation operation argv = some b) :
    ∃ globals rest parsed bindings,
      MatchesBy operation argv b globals rest parsed bindings := by
  -- the same steps follow the global options, whether any are declared
  have hSteps : ∀ globals rest, parseGlobals
      (operation.globalOptions.getD []) argv .empty = some (globals, rest) →
      (do
        guard (operation.command.length ≤ rest.length)
        guard (joinNul (rest.take operation.command.length) =
          joinNul operation.command)
        let parsed ← parseOptionArgs
          (rest.drop operation.command.length) operation
        guard (parsed.positionals.length =
          (operation.positionals.getD []).length)
        guard ((operation.requiredOptions.getD []).all
          parsed.options.readsTruthy)
        let bindings ← bindPositionals ((operation.positionals.getD []).zip
          parsed.positionals) parsed.options
        bindGlobals globals.entries bindings) = some b →
      ∃ parsed bindings,
        MatchesBy operation argv b globals rest parsed bindings := by
    intro globals rest hGlobals h
    obtain ⟨_, hLength, h⟩ := Option.bind_eq_some_iff.mp h
    obtain ⟨_, hJoin, h⟩ := Option.bind_eq_some_iff.mp h
    obtain ⟨parsed, hParsed, h⟩ := Option.bind_eq_some_iff.mp h
    obtain ⟨_, hCount, h⟩ := Option.bind_eq_some_iff.mp h
    obtain ⟨-, -, h⟩ := Option.bind_eq_some_iff.mp h
    obtain ⟨bindings, hBindings, h⟩ := Option.bind_eq_some_iff.mp h
    exact ⟨parsed, bindings, hGlobals, (Option.guard_eq_some' _).mp hLength,
      (Option.guard_eq_some' _).mp hJoin, hParsed,
      (Option.guard_eq_some' _).mp hCount, hBindings, h⟩
  unfold matchOperation at h
  split at h
  · rename_i entry entries hOptions
    obtain ⟨⟨globals, rest⟩, hGlobals, h⟩ := Option.bind_eq_some_iff.mp h
    exact ⟨globals, rest,
      hSteps globals rest (by rw [hOptions]; exact hGlobals) h⟩
  · rename_i hNone
    refine ⟨.empty, argv, hSteps .empty argv ?_ h⟩
    have hEmpty : operation.globalOptions.getD [] = [] := by
      cases hOptions : operation.globalOptions with
      | none => rfl
      | some options =>
          cases options with
          | nil => rfl
          | cons entry entries => exact absurd hOptions (hNone entry entries)
    rw [hEmpty, parseGlobals_nil]

/-- **What a matched call has bound**, in the terms of its reading. -/
structure Reading.Binds {operation : ShapeMatchOperation}
    {argv : List JsString} (r : Reading operation argv) (b : Record) :
    Prop where
  front : joinNul r.front = joinNul operation.command
  globals : ∀ e ∈ r.globalValues, b.get e.1 = some e.2
  settings : ∀ key value, (assignAll r.settings .empty).get key = some value →
    b.get key = some value
  proto : b.get (js "__proto__") = none

theorem reading_of_matchOperation {operation : ShapeMatchOperation}
    {argv : List JsString} {b : Record}
    (hDeclares : declaresOptions operation = true)
    (h : matchOperation operation argv = some b) :
    ∃ r : Reading operation argv, r.Binds b := by
  obtain ⟨globals, rest, parsed, bindings, hMatch⟩ :=
    matchesBy_of_matchOperation h
  obtain ⟨globalArguments, hGlobals⟩ := parseGlobals_spec hMatch.globals_read
  have hParsed := hMatch.parsed_eq
  rw [parseOptionArgs] at hParsed
  rw [if_pos hDeclares, parseDeclared_eq] at hParsed
  obtain ⟨arguments, hRead, rfl⟩ := Option.map_eq_some_iff.mp hParsed
  obtain ⟨hDeclared, hTokens⟩ := readArguments_iff.mp hRead
  have hRest : rest = rest.take operation.command.length ++
      arguments.flatMap Argument.tokens := by
    rw [← hTokens, List.take_append_drop]
  have hSpelled := hGlobals.spelled
  have hStops := hGlobals.stops
  rw [hRest] at hSpelled hStops
  let r : Reading operation argv :=
    { globals := globalArguments
      front := rest.take operation.command.length
      arguments
      spelled := hSpelled
      globals_declared := hGlobals.declared
      globals_stop := hStops
      front_length := by
        rw [List.length_take, Nat.min_eq_left hMatch.length_le]
      arguments_declared := hDeclared
      positionals_length := by
        simpa [collected] using hMatch.positionals_length }
  have hBound : bindings = assignAll r.settings .empty := by
    rw [bindPositionals_spec hMatch.positionals_bound]
    simp only [collected, List.nil_append, assignAll, Reading.settings,
      List.foldl_append]
    rfl
  have hAll := bindGlobals_spec hMatch.globals_bound
  refine ⟨r, hMatch.joined, ?_, ?_, ?_⟩
  · intro e he
    obtain ⟨g, hMem, rfl⟩ := List.mem_map.mp he
    exact hAll.1 _ ((Record.get_eq_some_iff _ _ _).mp (hGlobals.values g hMem))
  · intro key value hGet
    exact hAll.2 key value (by rw [hBound, hGet])
  · rw [get_proto_of_bindGlobals hMatch.globals_bound, hBound, get_assignAll,
      if_pos rfl]
    rfl

/-! ## What is accounted for -/

/-- **The call is accounted for**: its argv is split into declared global
options, the command and declared arguments, and every value given to a global
option, a value option or a named positional is bound to its name. -/
def AccountedFor (operation : ShapeMatchOperation) (argv : List JsString)
    (b : Record) : Prop :=
  ∃ r : Reading operation argv, r.front = operation.command ∧
    ∀ e ∈ r.globalValues ++ r.givenValues, b.get e.1 = some e.2

/-- No value of the call is replaced: where the command stands are its
tokens, and the last setting of a name that is given a value is that value.
Nothing is ever set under the name `__proto__`. -/
def NothingReplaced (operation : ShapeMatchOperation)
    (argv : List JsString) : Prop :=
  ∀ r : Reading operation argv, r.front = operation.command ∧
    ∀ e ∈ r.givenValues, e.1 ≠ js "__proto__" ∧
      r.settings.reverse.lookup e.1 = some e.2

section Accounted

variable {τ : Type} {asOperation : τ → ShapeMatchOperation}

end Accounted

/-! ### A value given twice -/

/-- An operation with one option that takes a value. -/
private def readFile : ShapeMatchOperation where
  id := js "read"
  command := [js "read"]
  valueOptions := some [js "file"]
  display := js "Read"
  action := js "read"
  risk := .low
  resourceChain := []

end OpenApe.Ports.ShapeArguments
