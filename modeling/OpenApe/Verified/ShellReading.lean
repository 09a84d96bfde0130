import OpenApe.Verified.JsText

/-!
# Reading a command line as a POSIX shell does

Every character of a line has a role: it is a blank or an operator, it quotes
or escapes, it belongs to an expansion, or it stands for itself in a word.
The roles depend on what encloses the character; what encloses it is a stack.
A backslash in double quotes escapes some characters only, so its role is
known with the next one.  Comments are left out, and so is what a command
substitution in backquotes contains.

A template is a line with inputs.  `Leads.readsAsMeant_iff` says when a shell
finds in it exactly what the fixed text says, with each input literal.
-/

namespace OpenApe.Verified.ShellReading

open JsText

/-! ## Roles -/

/-- What encloses a character; `command` is a command list, at the top or in a
substitution. -/
inductive Mode where
  | command
  | single
  | double
  | escaped
  | backslash
  | dollar
  | name
  | braces
  | backquote
  deriving DecidableEq

inductive Role where
  | blank
  | operator
  | quote
  | escape
  | expansion
  | literal
  deriving DecidableEq

/-- The modes, innermost first. -/
abbrev State := List Mode

abbrev Event := Role × CodeUnit

def isBlank (u : CodeUnit) : Bool := u == unit ' ' || u == unit '\t'

def isOperator (u : CodeUnit) : Bool :=
  u == unit '\n' || u == unit ';' || u == unit '&' || u == unit '|' ||
    u == unit '<' || u == unit '>'

/-- A unit of a parameter's name. -/
def isNameUnit (u : CodeUnit) : Bool :=
  (48 ≤ u && u ≤ 57) || (65 ≤ u && u ≤ 90) || (97 ≤ u && u ≤ 122) ||
    u == unit '_'

/-- What a backslash escapes in double quotes. -/
def isEscapable (u : CodeUnit) : Bool :=
  u == unit '$' || u == unit '`' || u == unit '"' || u == unit '\\' ||
    u == unit '\n'

/-- A character of a command, in what encloses the command. -/
def stepCommand (outer : State) (u : CodeUnit) : List Event × State :=
  if u = unit '\'' then ([(.quote, u)], .single :: .command :: outer)
  else if u = unit '"' then ([(.quote, u)], .double :: .command :: outer)
  else if u = unit '\\' then ([(.escape, u)], .escaped :: .command :: outer)
  else if u = unit '$' then ([(.expansion, u)], .dollar :: .command :: outer)
  else if u = unit '`' then
    ([(.expansion, u)], .backquote :: .command :: outer)
  else if u = unit '(' then
    ([(.operator, u)], .command :: .command :: outer)
  else if u = unit ')' then
    ([(.operator, u)], if outer.isEmpty then [.command] else outer)
  else if isBlank u then ([(.blank, u)], .command :: outer)
  else if isOperator u then ([(.operator, u)], .command :: outer)
  else ([(.literal, u)], .command :: outer)

def stepDouble (outer : State) (u : CodeUnit) : List Event × State :=
  if u = unit '"' then ([(.quote, u)], outer)
  else if u = unit '\\' then ([], .backslash :: .double :: outer)
  else if u = unit '$' then ([(.expansion, u)], .dollar :: .double :: outer)
  else if u = unit '`' then
    ([(.expansion, u)], .backquote :: .double :: outer)
  else ([(.literal, u)], .double :: outer)

/-- A character after what it does not continue. -/
def resume (state : State) (u : CodeUnit) : List Event × State :=
  match state with
  | .double :: outer => stepDouble outer u
  | .command :: outer => stepCommand outer u
  | outer => ([(.literal, u)], outer)

def step (state : State) (u : CodeUnit) : List Event × State :=
  match state with
  | [] => stepCommand [] u
  | .command :: outer => stepCommand outer u
  | .double :: outer => stepDouble outer u
  | .single :: outer =>
      if u = unit '\'' then ([(.quote, u)], outer)
      else ([(.literal, u)], .single :: outer)
  | .escaped :: outer =>
      ([(if u = unit '\n' then .escape else .literal, u)], outer)
  | .backslash :: outer =>
      if isEscapable u then
        ([(.escape, unit '\\'),
          (if u = unit '\n' then .escape else .literal, u)], outer)
      else ((.literal, unit '\\') :: (resume outer u).1, (resume outer u).2)
  | .dollar :: outer =>
      if u = unit '(' then ([(.expansion, u)], .command :: outer)
      else if u = unit '{' then ([(.expansion, u)], .braces :: outer)
      else if isNameUnit u then ([(.expansion, u)], .name :: outer)
      else resume outer u
  | .name :: outer =>
      if isNameUnit u then ([(.expansion, u)], .name :: outer)
      else resume outer u
  | .braces :: outer =>
      ([(.expansion, u)], if u = unit '}' then outer else .braces :: outer)
  | .backquote :: outer =>
      ([(.expansion, u)], if u = unit '`' then outer else .backquote :: outer)

/-- The roles of a text's characters, and what encloses what follows it. -/
def read : State → JsString → List Event × State
  | state, [] => ([], state)
  | state, u :: rest =>
      ((step state u).1 ++ (read (step state u).2 rest).1,
        (read (step state u).2 rest).2)

theorem read_append (state : State) (a b : JsString) :
    read state (a ++ b) =
      ((read state a).1 ++ (read (read state a).2 b).1,
        (read (read state a).2 b).2) := by
  induction a generalizing state with
  | nil => rfl
  | cons u a ih => simp only [List.cons_append, read, ih, List.append_assoc]

/-! ## Literal text -/

/-- The events of a text that stands for itself. -/
def literals (text : JsString) : List Event :=
  text.map fun u => (.literal, u)

theorem literals_append (a b : JsString) :
    literals (a ++ b) = literals a ++ literals b := List.map_append

/-- A text that stands for itself, wherever it ends. -/
def Inert (state : State) (text : JsString) : Prop :=
  read state text = (literals text, state)

theorem inert_of_units {state : State} {text : JsString}
    (h : ∀ u ∈ text, step state u = ([(.literal, u)], state)) :
    Inert state text := by
  induction text with
  | nil => rfl
  | cons u text ih =>
      rw [List.forall_mem_cons] at h
      have hRest : read state text = (literals text, state) := ih h.2
      rw [Inert, read, h.1, hRest]
      rfl

/-- In single quotes everything but a single quote stands for itself. -/
theorem inert_single {outer : State} {text : JsString}
    (h : unit '\'' ∉ text) : Inert (.single :: outer) text := by
  refine inert_of_units fun u hu => ?_
  have hQuote : u ≠ unit '\'' := fun hSame => h (hSame ▸ hu)
  rw [step, if_neg hQuote]

/-- Digits stand for themselves in a command. -/
theorem inert_digits {outer : State} {text : JsString}
    (h : ∀ u ∈ text, 48 ≤ u ∧ u ≤ 57) : Inert (.command :: outer) text := by
  refine inert_of_units fun u hu => ?_
  obtain ⟨hLeast, hMost⟩ := h u hu
  have hOther : ∀ v : CodeUnit, v < 48 ∨ 57 < v → u ≠ v := by
    rintro v hv rfl
    rcases hv with hv | hv
    · exact absurd hLeast (UInt16.not_le.mpr hv)
    · exact absurd hMost (UInt16.not_le.mpr hv)
  have hBlank : isBlank u = false := by
    simp only [isBlank, Bool.or_eq_false_iff, beq_eq_false_iff_ne]
    exact ⟨hOther _ (by decide), hOther _ (by decide)⟩
  have hOperator : isOperator u = false := by
    simp only [isOperator, Bool.or_eq_false_iff, beq_eq_false_iff_ne]
    exact ⟨⟨⟨⟨⟨hOther _ (by decide), hOther _ (by decide)⟩,
      hOther _ (by decide)⟩, hOther _ (by decide)⟩, hOther _ (by decide)⟩,
      hOther _ (by decide)⟩
  rw [step, stepCommand, if_neg (hOther _ (by decide)),
    if_neg (hOther _ (by decide)), if_neg (hOther _ (by decide)),
    if_neg (hOther _ (by decide)), if_neg (hOther _ (by decide)),
    if_neg (hOther _ (by decide)), if_neg (hOther _ (by decide)), hBlank,
    hOperator]
  rfl

/-- In single quotes a single quote quotes. -/
theorem read_single_of_mem {outer : State} {text : JsString}
    (h : unit '\'' ∈ text) (rest : JsString) :
    ∃ before after events, text = before ++ unit '\'' :: after ∧
      (read (.single :: outer) (text ++ rest)).1 =
        literals before ++ (.quote, unit '\'') :: events := by
  obtain ⟨before, after, rfl, hFirst⟩ := List.eq_append_cons_of_mem h
  refine ⟨before, after, (read outer (after ++ rest)).1, rfl, ?_⟩
  have hBefore : read (.single :: outer) before =
      (literals before, .single :: outer) := inert_single hFirst
  rw [List.append_assoc, read_append, hBefore, List.cons_append, read, step,
    if_pos rfl]
  rfl

/-! ## Double quotes -/

/-- No unit quotes, escapes or expands in double quotes, also not after a
backslash that is pending. -/
def plainFrom (pending : Bool) : JsString → Bool
  | [] => true
  | u :: rest =>
      if pending && isEscapable u then false
      else if u = unit '"' || u = unit '$' || u = unit '`' then false
      else plainFrom (u == unit '\\') rest

/-- In double quotes, perhaps after a backslash. -/
def inDouble (pending : Bool) (outer : State) : State :=
  if pending then .backslash :: .double :: outer else .double :: outer

def pendingEvents (pending : Bool) : List Event :=
  if pending then [(.literal, unit '\\')] else []

/-- One plain unit in double quotes. -/
theorem step_inDouble {pending : Bool} {outer : State} {u : CodeUnit}
    (hPending : (pending && isEscapable u) = false)
    (hPlain : (u = unit '"' || u = unit '$' || u = unit '`') = false) :
    step (inDouble pending outer) u =
      (pendingEvents pending ++ pendingEvents false ++
        (if u = unit '\\' then [] else [(.literal, u)]),
        inDouble (u == unit '\\') outer) := by
  simp only [Bool.or_eq_false_iff, decide_eq_false_iff_not] at hPlain
  obtain ⟨⟨hQuote, hDollar⟩, hBackquote⟩ := hPlain
  have hDouble : stepDouble outer u =
      (if u = unit '\\' then [] else [(.literal, u)],
        inDouble (u == unit '\\') outer) := by
    by_cases hSlash : u = unit '\\'
    · subst hSlash
      rfl
    · rw [stepDouble, if_neg hQuote, if_neg hSlash, if_neg hDollar,
        if_neg hBackquote, if_neg hSlash, inDouble,
        beq_eq_false_iff_ne.mpr hSlash]
      rfl
  cases pending with
  | false => exact hDouble
  | true =>
      have hOther : isEscapable u = false := by simpa using hPending
      have hResume : resume (.double :: outer) u = stepDouble outer u := rfl
      rw [inDouble, if_pos rfl, step, if_neg (by rw [hOther]; decide),
        hResume, hDouble]
      rfl

theorem read_double_of_plain {outer : State} {rest : JsString}
    {pending : Bool} {text : JsString} (h : plainFrom pending text = true) :
    read (inDouble pending outer) (text ++ unit '.' :: rest) =
      (pendingEvents pending ++ literals text ++
          (read (.double :: outer) (unit '.' :: rest)).1,
        (read (.double :: outer) (unit '.' :: rest)).2) := by
  induction text generalizing pending with
  | nil => cases pending <;> rfl
  | cons u text ih =>
      rw [plainFrom] at h
      split at h
      · cases h
      rename_i hPending
      split at h
      · cases h
      rename_i hPlain
      rw [Bool.not_eq_true] at hPending hPlain
      rw [List.cons_append, read, step_inDouble hPending hPlain, ih h]
      by_cases hSlash : u = unit '\\'
      · subst hSlash
        cases pending <;> rfl
      · rw [beq_eq_false_iff_ne.mpr hSlash, if_neg hSlash]
        cases pending <;> rfl

/-- Only a plain text stands for itself in double quotes. -/
theorem plain_of_read_double {outer : State} {rest : JsString}
    {pending : Bool} {text : JsString} {tail : List Event}
    (h : (read (inDouble pending outer) (text ++ rest)).1 =
      pendingEvents pending ++ literals text ++ tail) :
    plainFrom pending text = true := by
  induction text generalizing pending with
  | nil => rfl
  | cons u text ih =>
      rw [plainFrom]
      split_ifs with hPending hPlain
      · -- the backslash escapes
        obtain ⟨rfl, hEscapable⟩ := Bool.and_eq_true_iff.mp hPending
        have hStep : step (inDouble true outer) u =
            ([(.escape, unit '\\'),
              (if u = unit '\n' then .escape else .literal, u)],
              .double :: outer) := by
          rw [inDouble, if_pos rfl, step, if_pos hEscapable]
        rw [List.cons_append, read, hStep] at h
        cases h
      · rw [Bool.not_eq_true] at hPending
        have hEvent : ∃ role state, role ≠ Role.literal ∧
            stepDouble outer u = ([(role, u)], state) := by
          simp only [Bool.or_eq_true, decide_eq_true_eq] at hPlain
          rcases hPlain with (rfl | rfl) | rfl
          · exact ⟨.quote, _, by decide, rfl⟩
          · exact ⟨.expansion, _, by decide, rfl⟩
          · exact ⟨.expansion, _, by decide, rfl⟩
        obtain ⟨role, state, hRole, hDouble⟩ := hEvent
        have hStep : step (inDouble pending outer) u =
            (pendingEvents pending ++ [(role, u)], state) := by
          cases pending with
          | false => exact hDouble
          | true =>
              have hOther : ¬ isEscapable u = true := by simpa using hPending
              have hResume : resume (.double :: outer) u =
                  stepDouble outer u := rfl
              rw [inDouble, if_pos rfl, step, if_neg hOther, hResume, hDouble]
              rfl
        rw [List.cons_append, read, hStep, List.append_assoc,
          List.append_assoc, List.append_cancel_left_eq] at h
        injection h with hHead
        injection hHead with hSame
        exact absurd hSame hRole
      · rw [Bool.not_eq_true] at hPending hPlain
        rw [List.cons_append, read, step_inDouble hPending hPlain] at h
        apply ih
        cases pending <;> by_cases hSlash : u = unit '\\' <;>
          simp_all [literals, pendingEvents]

/-! ## Quoted words -/

/-- `shq`: the text in single quotes, with each single quote in it outside of
them. -/
def quoteUnit (u : CodeUnit) : JsString :=
  if u = unit '\'' then js "'\\''" else [u]

def singleQuoted (text : JsString) : JsString :=
  unit '\'' :: (text.flatMap quoteUnit ++ [unit '\''])

/-- The events of a text in single quotes: its units are literal, and besides
them there are only quotes and escapes. -/
def quotedEvents (u : CodeUnit) : List Event :=
  if u = unit '\'' then
    [(.quote, u), (.escape, unit '\\'), (.literal, u), (.quote, u)]
  else [(.literal, u)]

theorem read_quoteUnit {outer : State} (u : CodeUnit) :
    read (.single :: .command :: outer) (quoteUnit u) =
      (quotedEvents u, .single :: .command :: outer) := by
  by_cases hQuote : u = unit '\''
  · subst hQuote
    have hText : quoteUnit (unit '\'') =
        [unit '\'', unit '\\', unit '\'', unit '\''] := by decide
    rw [hText]
    rfl
  · rw [quoteUnit, quotedEvents, if_neg hQuote, if_neg hQuote, read, step,
      if_neg hQuote]
    rfl

theorem read_singleQuoted (outer : State) (text : JsString) :
    read (.command :: outer) (singleQuoted text) =
      ((.quote, unit '\'') :: text.flatMap quotedEvents ++
        [(.quote, unit '\'')], .command :: outer) := by
  have hText : read (.single :: .command :: outer)
      (text.flatMap quoteUnit) =
        (text.flatMap quotedEvents, .single :: .command :: outer) := by
    induction text with
    | nil => rfl
    | cons u text ih =>
        rw [List.flatMap_cons, read_append, read_quoteUnit, ih,
          List.flatMap_cons]
  have hOpen : step (.command :: outer) (unit '\'') =
      ([(.quote, unit '\'')], .single :: .command :: outer) := rfl
  have hClose : read (.single :: .command :: outer) [unit '\''] =
      ([(.quote, unit '\'')], .command :: outer) := rfl
  rw [singleQuoted, read, hOpen, read_append, hText, hClose]
  rfl

/-! ## Templates -/

/-- A part of a line: fixed text, an input as it is, or an input that the
builder quotes. -/
inductive Piece where
  | fixed (text : JsString)
  | input (text : JsString)
  | quoted (text : JsString)

def Piece.text : Piece → JsString
  | .fixed text => text
  | .input text => text
  | .quoted text => singleQuoted text

def fill (pieces : List Piece) : JsString := pieces.flatMap Piece.text

/-- What a shell is meant to find: the fixed text as it reads where each input
is one literal text, whatever the inputs are. -/
def meant : State → List Piece → List Event × State
  | state, [] => ([], state)
  | state, .fixed text :: pieces =>
      ((read state text).1 ++ (meant (read state text).2 pieces).1,
        (meant (read state text).2 pieces).2)
  | state, .input text :: pieces =>
      (literals text ++ (meant state pieces).1, (meant state pieces).2)
  | state, .quoted text :: pieces =>
      ((.quote, unit '\'') :: text.flatMap quotedEvents ++
          (.quote, unit '\'') :: (meant state pieces).1,
        (meant state pieces).2)

/-- A shell finds in the line exactly what is meant, and the line is
complete. -/
def ReadsAsMeant (pieces : List Piece) : Prop :=
  read [.command] (fill pieces) = meant [.command] pieces ∧
    (meant [.command] pieces).2 = [.command]

/-- Each input stands in single quotes, or is literal where it stands; each
quoted word stands in a command. -/
def Enclosed : State → List Piece → Prop
  | _, [] => True
  | state, .fixed text :: pieces => Enclosed (read state text).2 pieces
  | state, .input text :: pieces =>
      (state.head? = some .single ∨
        (Inert state text ∧ unit '\'' ∉ text)) ∧ Enclosed state pieces
  | state, .quoted _ :: pieces =>
      state.head? = some .command ∧ Enclosed state pieces

/-- No input has a single quote. -/
def Quotable (pieces : List Piece) : Prop :=
  ∀ text, .input text ∈ pieces → unit '\'' ∉ text

theorem quotable_cons {piece : Piece} {pieces : List Piece} :
    Quotable (piece :: pieces) ↔
      (∀ text, piece = .input text → unit '\'' ∉ text) ∧ Quotable pieces := by
  constructor
  · intro h
    exact ⟨fun text hPiece => h text (hPiece ▸ List.mem_cons_self),
      fun text hText => h text (List.mem_cons_of_mem _ hText)⟩
  · rintro ⟨hPiece, hPieces⟩ text hText
    rcases List.mem_cons.mp hText with rfl | hRest
    · exact hPiece text rfl
    · exact hPieces text hRest

/-- A single quote in single quotes is not literal. -/
theorem read_single_ne {outer : State} {text rest : JsString}
    {tail : List Event} (h : unit '\'' ∈ text) :
    (read (.single :: outer) (text ++ rest)).1 ≠ literals text ++ tail := by
  obtain ⟨before, after, events, rfl, hRead⟩ := read_single_of_mem h rest
  intro hSame
  rw [hRead, literals_append, List.append_assoc,
    List.append_cancel_left_eq] at hSame
  injection hSame with hHead
  injection hHead with hRole
  cases hRole

theorem quotable_nil : Quotable [] := fun _ hText => (nomatch hText)

theorem quotable_fixed {text : JsString} {pieces : List Piece} :
    Quotable (.fixed text :: pieces) ↔ Quotable pieces :=
  quotable_cons.trans (and_iff_right fun _ hPiece => (nomatch hPiece))

theorem quotable_quoted {text : JsString} {pieces : List Piece} :
    Quotable (.quoted text :: pieces) ↔ Quotable pieces :=
  quotable_cons.trans (and_iff_right fun _ hPiece => (nomatch hPiece))

theorem quotable_input {text : JsString} {pieces : List Piece} :
    Quotable (.input text :: pieces) ↔
      unit '\'' ∉ text ∧ Quotable pieces := by
  refine quotable_cons.trans (and_congr_left' ?_)
  constructor
  · exact fun h => h text rfl
  · intro h other hOther
    cases hOther
    exact h

theorem quotable_append {a b : List Piece} :
    Quotable (a ++ b) ↔ Quotable a ∧ Quotable b := by
  induction a with
  | nil => exact (and_iff_right quotable_nil).symm
  | cons piece a ih =>
      rw [List.cons_append, quotable_cons, quotable_cons, ih, and_assoc]

theorem enclosed_append {state : State} {a b : List Piece} :
    Enclosed state (a ++ b) ↔
      Enclosed state a ∧ Enclosed (meant state a).2 b := by
  induction a generalizing state with
  | nil => exact (and_iff_right trivial).symm
  | cons piece a ih =>
      cases piece with
      | fixed text => exact ih
      | input text => exact (and_congr_right' ih).trans and_assoc.symm
      | quoted text => exact (and_congr_right' ih).trans and_assoc.symm

theorem meant_append_snd (state : State) (a b : List Piece) :
    (meant state (a ++ b)).2 = (meant (meant state a).2 b).2 := by
  induction a generalizing state with
  | nil => rfl
  | cons piece a ih => cases piece <;> exact ih _

/-- A shell finds in a line what is meant exactly where no input that stands
in single quotes has one, and it finds what is meant in the rest. -/
theorem read_fill_append_iff {state : State} {pieces rest : List Piece}
    (h : Enclosed state pieces) :
    read state (fill (pieces ++ rest)) = meant state (pieces ++ rest) ↔
      Quotable pieces ∧
        read (meant state pieces).2 (fill rest) =
          meant (meant state pieces).2 rest := by
  induction pieces generalizing state with
  | nil => exact (and_iff_right quotable_nil).symm
  | cons piece pieces ih =>
      have hFill : fill (piece :: pieces ++ rest) =
          piece.text ++ fill (pieces ++ rest) := rfl
      rw [quotable_cons, hFill, and_assoc]
      cases piece with
      | fixed text =>
          have hRest := ih h
          rw [List.cons_append, read_append, meant, Piece.text, Prod.mk.injEq,
            List.append_cancel_left_eq, ← Prod.ext_iff, hRest]
          exact (and_iff_right fun _ hPiece => (nomatch hPiece)).symm
      | input text =>
          have hRest := ih h.2
          by_cases hQuote : unit '\'' ∈ text
          · have hSingle : ∃ outer, state = .single :: outer := by
              rcases h.1 with hHead | ⟨-, hOther⟩
              · cases state with
                | nil => cases hHead
                | cons mode outer =>
                    rw [List.head?_cons, Option.some.injEq] at hHead
                    exact ⟨outer, hHead ▸ rfl⟩
              · exact absurd hQuote hOther
            obtain ⟨outer, rfl⟩ := hSingle
            refine iff_of_false (fun hRead => ?_)
              (fun hAll => hAll.1 text rfl hQuote)
            exact read_single_ne hQuote (congrArg Prod.fst hRead)
          · have hInert : read state text = (literals text, state) := by
              rcases h.1 with hHead | ⟨hLiteral, -⟩
              · cases state with
                | nil => cases hHead
                | cons mode outer =>
                    rw [List.head?_cons, Option.some.injEq] at hHead
                    subst hHead
                    exact inert_single hQuote
              · exact hLiteral
            rw [List.cons_append, read_append, meant, Piece.text, hInert,
              Prod.mk.injEq, List.append_cancel_left_eq, ← Prod.ext_iff,
              hRest]
            refine (and_iff_right fun other hOther => ?_).symm
            cases hOther
            exact hQuote
      | quoted text =>
          obtain ⟨hHead, hEnclosed⟩ := h
          have hRest := ih hEnclosed
          cases state with
          | nil => cases hHead
          | cons mode outer =>
              rw [List.head?_cons, Option.some.injEq] at hHead
              subst hHead
              rw [List.cons_append, read_append, meant, Piece.text,
                read_singleQuoted, Prod.mk.injEq]
              simp only [List.cons_append, List.append_assoc,
                List.nil_append, List.cons.injEq,
                List.append_cancel_left_eq, true_and]
              rw [← Prod.ext_iff, hRest]
              exact (and_iff_right fun _ hPiece => (nomatch hPiece)).symm

theorem read_fill_iff {state : State} {pieces : List Piece}
    (h : Enclosed state pieces) :
    read state (fill pieces) = meant state pieces ↔ Quotable pieces := by
  have hAll := @read_fill_append_iff state pieces [] h
  rw [List.append_nil] at hAll
  exact hAll.trans (and_iff_left rfl)

/-- An input in double quotes with a dot after it has to be plain. -/
theorem read_fill_double_iff {outer : State} {text rest : JsString}
    {pieces : List Piece} :
    read (.double :: outer)
        (fill (.input text :: .fixed (unit '.' :: rest) :: pieces)) =
      meant (.double :: outer)
        (.input text :: .fixed (unit '.' :: rest) :: pieces) ↔
      plainFrom false text = true ∧
        read (read (.double :: outer) (unit '.' :: rest)).2 (fill pieces) =
          meant (read (.double :: outer) (unit '.' :: rest)).2 pieces := by
  have hFill : fill (.input text :: .fixed (unit '.' :: rest) :: pieces) =
      text ++ unit '.' :: (rest ++ fill pieces) := rfl
  have hMeant : meant (.double :: outer)
      (.input text :: .fixed (unit '.' :: rest) :: pieces) =
      (literals text ++ ((read (.double :: outer) (unit '.' :: rest)).1 ++
          (meant (read (.double :: outer) (unit '.' :: rest)).2 pieces).1),
        (meant (read (.double :: outer) (unit '.' :: rest)).2 pieces).2) :=
    rfl
  have hSplit := read_append (.double :: outer) (unit '.' :: rest)
    (fill pieces)
  rw [List.cons_append] at hSplit
  have hPlainRead : plainFrom false text = true →
      read (.double :: outer) (text ++ unit '.' :: (rest ++ fill pieces)) =
        (literals text ++
            (read (.double :: outer)
              (unit '.' :: (rest ++ fill pieces))).1,
          (read (.double :: outer)
            (unit '.' :: (rest ++ fill pieces))).2) := fun hPlain =>
    read_double_of_plain hPlain
  rw [hFill, hMeant]
  constructor
  · intro hRead
    have hPlain : plainFrom false text = true :=
      @plain_of_read_double _ _ false _ _ (congrArg Prod.fst hRead)
    rw [hPlainRead hPlain, hSplit, Prod.mk.injEq,
      List.append_cancel_left_eq, List.append_cancel_left_eq,
      ← Prod.ext_iff] at hRead
    exact ⟨hPlain, hRead⟩
  · rintro ⟨hPlain, hRest⟩
    rw [hPlainRead hPlain, hSplit, hRest]

/-! ## Composing templates -/

/-- The inputs of a template are enclosed, and it ends where `after` says. -/
def Leads (state : State) (pieces : List Piece) (after : State) : Prop :=
  Enclosed state pieces ∧ (meant state pieces).2 = after

theorem Leads.append {first middle last : State} {a b : List Piece}
    (ha : Leads first a middle) (hb : Leads middle b last) :
    Leads first (a ++ b) last := by
  obtain ⟨hEnclosed, rfl⟩ := ha
  obtain ⟨hNext, rfl⟩ := hb
  exact ⟨enclosed_append.mpr ⟨hEnclosed, hNext⟩, meant_append_snd first a b⟩

theorem leads_nil (state : State) : Leads state [] state := ⟨trivial, rfl⟩

theorem leads_fixed {state after : State} {text : JsString}
    (h : (read state text).2 = after) : Leads state [.fixed text] after :=
  ⟨trivial, h⟩

theorem leads_quoted (outer : State) (text : JsString) :
    Leads (.command :: outer) [.quoted text] (.command :: outer) :=
  ⟨⟨rfl, trivial⟩, rfl⟩

/-- An input in single quotes. -/
theorem leads_single (outer : State) (text : JsString) :
    Leads (.single :: outer) [.input text] (.single :: outer) :=
  ⟨⟨.inl rfl, trivial⟩, rfl⟩

/-- A command line from its parts. -/
def joined (separator : JsString) : List (List Piece) → List Piece
  | [] => []
  | [part] => part
  | part :: parts => part ++ .fixed separator :: joined separator parts

theorem leads_joined {state : State} {separator : JsString}
    {parts : List (List Piece)}
    (hSeparator : (read state separator).2 = state)
    (h : ∀ part ∈ parts, Leads state part state) :
    Leads state (joined separator parts) state := by
  induction parts using joined.induct with
  | case1 => exact leads_nil state
  | case2 part => exact h part List.mem_cons_self
  | case3 part parts hMore ih =>
      rw [List.forall_mem_cons] at h
      rw [joined]
      · exact h.1.append ((leads_fixed hSeparator).append (ih h.2))
      · exact hMore

theorem quotable_joined {separator : JsString} {parts : List (List Piece)} :
    Quotable (joined separator parts) ↔ ∀ part ∈ parts, Quotable part := by
  induction parts using joined.induct with
  | case1 => exact iff_of_true quotable_nil fun _ hPart => (nomatch hPart)
  | case2 part => exact List.forall_mem_singleton.symm
  | case3 part parts hMore ih =>
      rw [joined, quotable_append, quotable_fixed, ih, List.forall_mem_cons]
      exact hMore

/-- A line from the top to the top reads as meant exactly where its inputs can
be quoted. -/
theorem Leads.readsAsMeant_iff {pieces : List Piece}
    (h : Leads [.command] pieces [.command]) :
    ReadsAsMeant pieces ↔ Quotable pieces :=
  (and_iff_left h.2).trans (read_fill_iff h.1)

/-- The same for a line with one input in double quotes. -/
theorem Leads.readsAsMeant_double_iff {pieces after : List Piece}
    {outer last : State} {text rest : JsString}
    (h : Leads [.command] pieces (.double :: outer))
    (hRest : (read (.double :: outer) (unit '.' :: rest)).2 = last)
    (hAfter : Leads last after [.command]) :
    ReadsAsMeant
        (pieces ++ .input text :: .fixed (unit '.' :: rest) :: after) ↔
      Quotable pieces ∧ plainFrom false text = true ∧ Quotable after := by
  have hComplete : (meant (.double :: outer)
      (.input text :: .fixed (unit '.' :: rest) :: after)).2 =
      [.command] := by
    rw [meant, meant, hRest]
    exact hAfter.2
  rw [ReadsAsMeant, read_fill_append_iff h.1, meant_append_snd, h.2,
    read_fill_double_iff, hRest, read_fill_iff hAfter.1]
  exact and_iff_left hComplete

end OpenApe.Verified.ShellReading
