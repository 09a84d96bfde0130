import Mathlib.Data.List.Forall2
import OpenApe.Verified.JsText

/-!
# Seatbelt policies

The policy language of the macOS sandbox, as far as rules about files go.  A
policy text is made of lists in round brackets, of words, and of texts in
quotation marks, which denote exactly the units between the marks.  Of the
rules that match an operation on a path the last one decides.

A policy text is put together from pieces.  `Runs` says what the reader does
over one piece, and runs over two pieces compose (`Runs.append`), so a text
is read piece by piece, also where a bracket opens in one piece and closes in
another.
-/

namespace OpenApe.Verified.Seatbelt

open JsText

/-! ## Expressions -/

inductive Expr where
  | word (units : JsString)
  | quoted (units : JsString)
  | list (items : List Expr)

/-- Where the reader stands: between expressions, or in a word or a quoted
text, whose units it keeps in reverse. -/
inductive Mode where
  | between
  | word (units : JsString)
  | quoted (units : JsString)
  | failed

/-- The reader: the expressions of the innermost open list, and those of the
lists around it, the latest first. -/
structure Reader where
  mode : Mode
  items : List Expr
  outer : List (List Expr)

def isSpace (u : CodeUnit) : Bool :=
  u == 0x20 || u == 0x0A || u == 0x09 || u == 0x0D

def isDelimiter (u : CodeUnit) : Bool :=
  isSpace u || u == unit '(' || u == unit ')' || u == unit '"'

/-- One unit, read between expressions. -/
def Reader.start (items : List Expr) (outer : List (List Expr))
    (u : CodeUnit) : Reader :=
  if isSpace u then ⟨.between, items, outer⟩
  else if u = unit '(' then ⟨.between, [], items :: outer⟩
  else if u = unit ')' then
    match outer with
    | [] => ⟨.failed, items, outer⟩
    | around :: outer => ⟨.between, .list items.reverse :: around, outer⟩
  else if u = unit '"' then ⟨.quoted [], items, outer⟩
  else ⟨.word [u], items, outer⟩

def Reader.step (r : Reader) (u : CodeUnit) : Reader :=
  match r.mode with
  | .failed => r
  | .between => Reader.start r.items r.outer u
  | .word units =>
      if isDelimiter u then
        Reader.start (.word units.reverse :: r.items) r.outer u
      else ⟨.word (u :: units), r.items, r.outer⟩
  | .quoted units =>
      if u = unit '"' then ⟨.between, .quoted units.reverse :: r.items, r.outer⟩
      else ⟨.quoted (u :: units), r.items, r.outer⟩

/-- The expressions of a text whose brackets and quotation marks all close. -/
def readExprs (text : JsString) : Option (List Expr) :=
  match text.foldl Reader.step ⟨.between, [], []⟩ with
  | ⟨.between, items, []⟩ => some items.reverse
  | ⟨.word units, items, []⟩ => some (.word units.reverse :: items).reverse
  | _ => none

/-! ## Reading piece by piece -/

/-- The reader goes over a piece from one state to another. -/
def Runs (text : JsString) (r r' : Reader) : Prop :=
  text.foldl Reader.step r = r'

/-- The piece adds expressions wherever it stands between others. -/
def Reads (text : JsString) (exprs : List Expr) : Prop :=
  ∀ items outer,
    Runs text ⟨.between, items, outer⟩ ⟨.between, exprs.reverse ++ items, outer⟩

theorem Runs.append {a b : JsString} {r r₁ r' : Reader} (ha : Runs a r r₁)
    (hb : Runs b r₁ r') : Runs (a ++ b) r r' := by
  rw [Runs, List.foldl_append, ha]
  exact hb

theorem reads_nil : Reads [] [] := fun _ _ => rfl

theorem Reads.append {a b : JsString} {es es' : List Expr} (ha : Reads a es)
    (hb : Reads b es') : Reads (a ++ b) (es ++ es') := by
  intro items outer
  rw [List.reverse_append, List.append_assoc]
  exact (ha items outer).append (hb _ outer)

theorem step_quoted {u : CodeUnit} (h : u ≠ unit '"') (units : JsString)
    (items : List Expr) (outer : List (List Expr)) :
    Reader.step ⟨.quoted units, items, outer⟩ u =
      ⟨.quoted (u :: units), items, outer⟩ :=
  if_neg h

theorem step_closing (units : JsString) (items : List Expr)
    (outer : List (List Expr)) :
    Reader.step ⟨.quoted units, items, outer⟩ (unit '"') =
      ⟨.between, .quoted units.reverse :: items, outer⟩ := by
  simp only [Reader.step, if_true]

theorem runs_inside {text : JsString} (h : unit '"' ∉ text)
    (units : JsString) (items : List Expr) (outer : List (List Expr)) :
    Runs text ⟨.quoted units, items, outer⟩
      ⟨.quoted (text.reverse ++ units), items, outer⟩ := by
  induction text generalizing units with
  | nil => rfl
  | cons u text ih =>
      rw [List.mem_cons, not_or] at h
      rw [Runs, List.foldl_cons, step_quoted (Ne.symm h.1), List.reverse_cons,
        List.append_assoc, List.singleton_append]
      exact ih h.2 (u :: units)

/-- A quoted text adds what stands between the marks, whatever it is. -/
theorem reads_quoted {text : JsString} (h : unit '"' ∉ text) :
    Reads (unit '"' :: text ++ [unit '"']) [.quoted text] := by
  intro items outer
  have hOpen : Reader.step ⟨.between, items, outer⟩ (unit '"') =
      ⟨.quoted [], items, outer⟩ := rfl
  rw [Runs, List.cons_append, List.foldl_cons, List.foldl_append, hOpen,
    runs_inside h [], List.append_nil, List.foldl_cons, List.foldl_nil,
    step_closing, List.reverse_reverse]
  rfl

/-- A piece that opens a list and gives its first expressions. -/
def Opens (text : JsString) (exprs : List Expr) : Prop :=
  ∀ items outer,
    Runs text ⟨.between, items, outer⟩ ⟨.between, exprs.reverse, items :: outer⟩

/-- A piece that closes a list. -/
def Closes (text : JsString) : Prop :=
  ∀ inner items outer,
    Runs text ⟨.between, inner, items :: outer⟩
      ⟨.between, .list inner.reverse :: items, outer⟩

theorem Opens.reads {head body tail : JsString} {es es' : List Expr}
    (hHead : Opens head es) (hBody : Reads body es') (hTail : Closes tail) :
    Reads (head ++ body ++ tail) [.list (es ++ es')] := by
  intro items outer
  have hClose := hTail (es'.reverse ++ es.reverse) items outer
  rw [List.reverse_append, List.reverse_reverse, List.reverse_reverse]
    at hClose
  exact ((hHead items outer).append (hBody _ _)).append hClose

theorem readExprs_of_reads {text : JsString} {es : List Expr}
    (h : Reads text es) : readExprs text = some es := by
  rw [readExprs, h [] [], List.append_nil]
  exact congrArg some (List.reverse_reverse es)

/-! ## Rules -/

/-- What a rule asks of a path. -/
inductive Filter where
  | literal (path : JsString)
  | subpath (path : JsString)
  | other

structure Rule where
  allow : Bool
  operations : List JsString
  filters : List Filter

def readFilter : Expr → Filter
  | .list [.word head, .quoted path] =>
      if head = js "literal" then .literal path
      else if head = js "subpath" then .subpath path
      else .other
  | _ => .other

def operationOf : Expr → Option JsString
  | .word operation => some operation
  | _ => none

def filterOf : Expr → Option Filter
  | .list items => some (readFilter (.list items))
  | _ => none

/-- The rule of an expression; `(version 1)` is none. -/
def readRule : Expr → Option Rule
  | .list (.word head :: rest) =>
      if head = js "allow" ∨ head = js "deny" then
        some {
          allow := decide (head = js "allow")
          operations := rest.filterMap operationOf
          filters := rest.filterMap filterOf }
      else none
  | _ => none

/-- The rules of a policy text. -/
def readPolicy (text : JsString) : Option (List Rule) :=
  (readExprs text).map fun exprs => exprs.filterMap readRule

/-- A piece that lists filters. -/
def Lists (text : JsString) (filters : List Filter) : Prop :=
  ∃ items : List (List Expr), Reads text (items.map .list) ∧
    items.map (fun item => readFilter (.list item)) = filters

/-- A piece that states rules. -/
def States (text : JsString) (rules : List Rule) : Prop :=
  ∃ exprs, Reads text exprs ∧ exprs.filterMap readRule = rules

theorem lists_nil : Lists [] [] := ⟨[], reads_nil, rfl⟩

theorem Lists.append {a b : JsString} {fs fs' : List Filter} (ha : Lists a fs)
    (hb : Lists b fs') : Lists (a ++ b) (fs ++ fs') := by
  obtain ⟨items, hItems, rfl⟩ := ha
  obtain ⟨items', hItems', rfl⟩ := hb
  refine ⟨items ++ items', ?_, List.map_append⟩
  rw [List.map_append]
  exact hItems.append hItems'

/-- A piece of spaces between two pieces that list filters. -/
theorem Lists.spaced {a gap b : JsString} {fs fs' : List Filter}
    (ha : Lists a fs) (hGap : Reads gap []) (hb : Lists b fs') :
    Lists (a ++ gap ++ b) (fs ++ fs') := by
  have hGap' : Lists gap [] := ⟨[], hGap, rfl⟩
  have hAll := (ha.append hGap').append hb
  rwa [List.append_nil] at hAll

theorem states_nil : States [] [] := ⟨[], reads_nil, rfl⟩

theorem States.append {a b : JsString} {rs rs' : List Rule}
    (ha : States a rs) (hb : States b rs') : States (a ++ b) (rs ++ rs') := by
  obtain ⟨exprs, hExprs, rfl⟩ := ha
  obtain ⟨exprs', hExprs', rfl⟩ := hb
  exact ⟨exprs ++ exprs', hExprs.append hExprs', List.filterMap_append⟩

/-- The end of a line adds no rule. -/
theorem States.line {text : JsString} {rules : List Rule}
    (h : States text rules) : States (text ++ js "\n") rules := by
  have hEnd : States (js "\n") [] := ⟨[], fun _ _ => rfl, rfl⟩
  have hAll := h.append hEnd
  rwa [List.append_nil] at hAll

/-- The word a rule starts with. -/
def verdict (allow : Bool) : JsString :=
  if allow then js "allow" else js "deny"

theorem readRule_verdict (allow : Bool) (operations : List JsString)
    (items : List (List Expr)) :
    readRule (.list (.word (verdict allow) ::
        (operations.map .word ++ items.map .list))) =
      some {
        allow := allow
        operations := operations
        filters := items.map fun item => readFilter (.list item) } := by
  have hWord : verdict allow = js "allow" ∨ verdict allow = js "deny" := by
    cases allow with
    | false => exact .inr rfl
    | true => exact .inl rfl
  have hAllow : decide (verdict allow = js "allow") = allow := by
    cases allow with
    | false => rfl
    | true => rfl
  have hOperations : ∀ words : List JsString,
      (words.map Expr.word).filterMap operationOf = words ∧
        (words.map Expr.word).filterMap filterOf = [] := by
    intro words
    induction words with
    | nil => exact ⟨rfl, rfl⟩
    | cons word words ih =>
        exact ⟨congrArg (word :: ·) ih.1, ih.2⟩
  have hItems : ∀ lists : List (List Expr),
      (lists.map Expr.list).filterMap operationOf = [] ∧
        (lists.map Expr.list).filterMap filterOf =
          lists.map fun item => readFilter (.list item) := by
    intro lists
    induction lists with
    | nil => exact ⟨rfl, rfl⟩
    | cons item lists ih =>
        exact ⟨ih.1, congrArg (readFilter (.list item) :: ·) ih.2⟩
  rw [readRule, if_pos hWord, hAllow, List.filterMap_append,
    List.filterMap_append, (hOperations operations).1,
    (hOperations operations).2, (hItems items).1, (hItems items).2,
    List.append_nil, List.nil_append]

/-- A rule: what opens it, its filters, and what closes it. -/
theorem states_rule {body : JsString} (allow : Bool)
    (operations : List JsString) (head tail : JsString) {filters : List Filter}
    (hHead : Opens head (.word (verdict allow) :: operations.map .word))
    (hBody : Lists body filters) (hTail : Closes tail) :
    States (head ++ body ++ tail) [⟨allow, operations, filters⟩] := by
  obtain ⟨items, hItems, rfl⟩ := hBody
  refine ⟨_, hHead.reads hItems hTail, ?_⟩
  rw [List.cons_append, List.filterMap_cons, readRule_verdict]
  rfl

theorem readPolicy_of_states {text : JsString} {rules : List Rule}
    (h : States text rules) : readPolicy text = some rules := by
  obtain ⟨exprs, hExprs, rfl⟩ := h
  rw [readPolicy, readExprs_of_reads hExprs]
  rfl

/-! ## Paths and decisions -/

/-- A path as the names on the way from the root. -/
abbrev Path := List JsString

/-- The path of a text. -/
def pathOf (text : JsString) : Path :=
  (text.splitOn (unit '/')).filter fun name => !name.isEmpty

/-- `default` covers every operation, and `*` at its end any rest. -/
def covers (pattern operation : JsString) : Bool :=
  pattern = js "default" || pattern = operation ||
    (pattern.getLast? = some (unit '*') &&
      pattern.dropLast.isPrefixOf operation)

def Filter.matches (path : Path) : Filter → Bool
  | .literal text => pathOf text = path
  | .subpath text => (pathOf text).isPrefixOf path
  | .other => false

def Rule.matches (operation : JsString) (path : Path) (rule : Rule) : Bool :=
  rule.operations.any (fun pattern => covers pattern operation) &&
    (rule.filters.isEmpty || rule.filters.any (Filter.matches path))

/-- The last rule that matches decides. -/
def allowed (rules : List Rule) (operation : JsString) (path : Path) : Bool :=
  ((rules.filter (Rule.matches operation path)).getLast?.map Rule.allow).getD
    false

theorem literal_matches {text : JsString} {path : Path} :
    (Filter.literal text).matches path = true ↔ pathOf text = path :=
  decide_eq_true_iff

theorem subpath_matches {text : JsString} {path : Path} :
    (Filter.subpath text).matches path = true ↔ pathOf text <+: path :=
  List.isPrefixOf_iff_prefix

/-- Where the rules at the end deny and one of them matches, nothing before
them decides. -/
theorem allowed_append_of_deny {front back : List Rule}
    {operation : JsString} {path : Path}
    (hDeny : ∀ rule ∈ back, rule.allow = false)
    (hMatch : ∃ rule ∈ back, rule.matches operation path = true) :
    allowed (front ++ back) operation path = false := by
  obtain ⟨rule, hMem, hRule⟩ := hMatch
  have hFound : rule ∈ back.filter (Rule.matches operation path) :=
    List.mem_filter.mpr ⟨hMem, hRule⟩
  have hNonempty := List.ne_nil_of_mem hFound
  rw [allowed, List.filter_append,
    List.getLast?_append_of_ne_nil _ hNonempty,
    List.getLast?_eq_some_getLast hNonempty]
  exact hDeny _ (List.mem_of_mem_filter (List.getLast_mem hNonempty))

/-- Where an operation is allowed although a rule denies it, a later rule
allows it. -/
theorem exists_allow_of_deny {front back : List Rule} {rule : Rule}
    {operation : JsString} {path : Path}
    (h : allowed (front ++ rule :: back) operation path = true)
    (hMatch : rule.matches operation path = true)
    (hDeny : rule.allow = false) :
    ∃ later ∈ back, later.matches operation path = true ∧
      later.allow = true := by
  have hNonempty :
      (rule :: back).filter (Rule.matches operation path) ≠ [] :=
    List.ne_nil_of_mem (List.mem_filter.mpr ⟨List.mem_cons_self, hMatch⟩)
  rw [allowed, List.filter_append,
    List.getLast?_append_of_ne_nil _ hNonempty,
    List.getLast?_eq_some_getLast hNonempty] at h
  obtain ⟨hMem, hRule⟩ := List.mem_filter.mp (List.getLast_mem hNonempty)
  rcases List.mem_cons.mp hMem with hEq | hLater
  · rw [hEq, Option.map_some, Option.getD_some, hDeny] at h
    cases h
  · exact ⟨_, hLater, hRule, h⟩

/-! ## Paths of texts -/

/-- The path of a text that starts at the root. -/
theorem pathOf_slash (text : JsString) :
    pathOf (unit '/' :: text) =
      (text.splitOn (unit '/')).filter fun name => !name.isEmpty := by
  rw [pathOf, List.splitOn_cons_eq_if_modifyHead, if_pos BEq.rfl]
  rfl

theorem pathOf_intercalate {parts : List JsString} (hNonempty : parts ≠ [])
    (hParts : ∀ part ∈ parts, unit '/' ∉ part) :
    pathOf (unit '/' :: [unit '/'].intercalate parts) =
      parts.filter fun name => !name.isEmpty := by
  rw [pathOf_slash, List.splitOn_intercalate _ hParts hNonempty]

/-- A first part of what a filter keeps is what it keeps of a first part. -/
theorem exists_take_of_filter {α : Type} {p : α → Bool} {xs ys : List α}
    (h : ys <+: xs.filter p) (hNonempty : ys ≠ []) :
    ∃ i < xs.length, (xs.take (i + 1)).filter p = ys := by
  induction xs generalizing ys with
  | nil => exact absurd (List.prefix_nil.mp h) hNonempty
  | cons x xs ih =>
      by_cases hKept : p x = true
      · rw [List.filter_cons_of_pos hKept] at h
        cases ys with
        | nil => exact absurd rfl hNonempty
        | cons y ys =>
            rw [List.cons_prefix_cons] at h
            obtain ⟨rfl, hRest⟩ := h
            by_cases hEnd : ys = []
            · refine ⟨0, Nat.zero_lt_succ _, ?_⟩
              rw [List.take_succ_cons, List.take_zero,
                List.filter_cons_of_pos hKept, List.filter_nil, hEnd]
            · obtain ⟨i, hi, hEq⟩ := ih hRest hEnd
              refine ⟨i + 1, Nat.succ_lt_succ hi, ?_⟩
              rw [List.take_succ_cons, List.filter_cons_of_pos hKept, hEq]
      · rw [List.filter_cons_of_neg hKept] at h
        obtain ⟨i, hi, hEq⟩ := ih h hNonempty
        refine ⟨i + 1, Nat.succ_lt_succ hi, ?_⟩
        rw [List.take_succ_cons, List.filter_cons_of_neg hKept, hEq]

end OpenApe.Verified.Seatbelt
