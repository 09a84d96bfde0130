import OpenApe.Verified.RegExpSource

/-!
# Sequences of quantified symbol tests

Regular expressions without groups or alternatives: each piece tests one
symbol and says how often it may stand.  `Matches` splits a text piece by
piece, `accepts` decides it (`accepts_iff`), and `matches_append` cuts an
expression in two.

`parseBody` reads a source one unit at a time, as a fold, so that reading
composes as well: after a source that ends between two atoms, a plain unit
starts a new piece (`parseBody_append`).
-/

namespace OpenApe.Verified.RegExpPieces

open JsText
open Glob (someSuffix)
open RegExpSource (dot syntaxUnits)

/-! ## Pieces -/

inductive Quantifier where
  | once
  | optional
  | many
  deriving DecidableEq, Repr

structure Piece (α : Type*) where
  test : α → Bool
  quantifier : Quantifier

section Matching

variable {α : Type*}

/-- The texts that a piece reads. -/
def Piece.Reads (p : Piece α) (s : List α) : Prop :=
  match p.quantifier with
  | .once => ∃ a, s = [a] ∧ p.test a = true
  | .optional => s = [] ∨ ∃ a, s = [a] ∧ p.test a = true
  | .many => ∀ a ∈ s, p.test a = true

/-- The pieces read the text, one after the other. -/
def Matches : List (Piece α) → List α → Prop
  | [], s => s = []
  | p :: ps, s => ∃ x y, s = x ++ y ∧ p.Reads x ∧ Matches ps y

theorem matches_append {ps qs : List (Piece α)} {s : List α} :
    Matches (ps ++ qs) s ↔
      ∃ x y, s = x ++ y ∧ Matches ps x ∧ Matches qs y := by
  induction ps generalizing s with
  | nil =>
      constructor
      · intro h
        exact ⟨[], s, rfl, rfl, h⟩
      · rintro ⟨x, y, rfl, rfl, h⟩
        exact h
  | cons p ps ih =>
      constructor
      · rintro ⟨x, y, rfl, hx, hy⟩
        obtain ⟨y, z, rfl, hy, hz⟩ := ih.mp hy
        exact ⟨x ++ y, z, (List.append_assoc x y z).symm,
          ⟨x, y, rfl, hx, hy⟩, hz⟩
      · rintro ⟨w, z, rfl, ⟨x, y, rfl, hx, hy⟩, hz⟩
        exact ⟨x, y ++ z, List.append_assoc x y z, hx,
          ih.mpr ⟨y, z, rfl, hy, hz⟩⟩

/-! ## The matcher -/

/-- Reads one admitted symbol and goes on. -/
def next (test : α → Bool) (k : List α → Bool) : List α → Bool
  | [] => false
  | a :: s => test a && k s

/-- Backtracking matcher, structural in the pieces. -/
def accepts : List (Piece α) → List α → Bool
  | [], s => s.isEmpty
  | p :: ps, s =>
      match p.quantifier with
      | .once => next p.test (accepts ps) s
      | .optional => accepts ps s || next p.test (accepts ps) s
      | .many => someSuffix p.test (accepts ps) s

theorem next_iff {test : α → Bool} {k : List α → Bool} {s : List α} :
    next test k s = true ↔
      ∃ x y, s = x ++ y ∧ (∃ a, x = [a] ∧ test a = true) ∧ k y = true := by
  cases s with
  | nil =>
      refine iff_of_false (by simp [next]) ?_
      rintro ⟨x, y, hNil, ⟨a, rfl, -⟩, -⟩
      cases hNil
  | cons a s =>
      simp only [next, Bool.and_eq_true]
      constructor
      · rintro ⟨ha, hs⟩
        exact ⟨[a], s, rfl, ⟨a, rfl, ha⟩, hs⟩
      · rintro ⟨x, y, hCons, ⟨b, rfl, hb⟩, hy⟩
        cases hCons
        exact ⟨hb, hy⟩

theorem someSuffix_iff {test : α → Bool} {k : List α → Bool} {s : List α} :
    someSuffix test k s = true ↔
      ∃ x y, s = x ++ y ∧ (∀ a ∈ x, test a = true) ∧ k y = true := by
  induction s with
  | nil =>
      constructor
      · intro h
        exact ⟨[], [], rfl, by simp, h⟩
      · rintro ⟨x, y, hNil, -, hy⟩
        obtain ⟨rfl, rfl⟩ := List.append_eq_nil_iff.mp hNil.symm
        exact hy
  | cons a s ih =>
      simp only [someSuffix, Bool.or_eq_true, Bool.and_eq_true]
      constructor
      · rintro (h | ⟨ha, h⟩)
        · exact ⟨[], a :: s, rfl, by simp, h⟩
        · obtain ⟨x, y, rfl, hx, hy⟩ := ih.mp h
          exact ⟨a :: x, y, rfl, List.forall_mem_cons.mpr ⟨ha, hx⟩, hy⟩
      · rintro ⟨x, y, hCons, hx, hy⟩
        cases x with
        | nil =>
            left
            rw [hCons]
            exact hy
        | cons b x =>
            rw [List.cons_append, List.cons.injEq] at hCons
            obtain ⟨rfl, rfl⟩ := hCons
            exact Or.inr ⟨hx a (by simp),
              ih.mpr ⟨x, y, rfl, fun c hc => hx c (by simp [hc]), hy⟩⟩

/-- The matcher decides the declarative meaning. -/
theorem accepts_iff {ps : List (Piece α)} {s : List α} :
    accepts ps s = true ↔ Matches ps s := by
  induction ps generalizing s with
  | nil => simp [accepts, Matches]
  | cons p ps ih =>
      obtain ⟨test, quantifier⟩ := p
      cases quantifier with
      | once => simp only [accepts, next_iff, Matches, Piece.Reads, ih]
      | many => simp only [accepts, someSuffix_iff, Matches, Piece.Reads, ih]
      | optional =>
          simp only [accepts, next_iff, Matches, Piece.Reads, ih,
            Bool.or_eq_true]
          constructor
          · rintro (h | ⟨x, y, hSplit, hx, hy⟩)
            · exact ⟨[], s, rfl, Or.inl rfl, h⟩
            · exact ⟨x, y, hSplit, Or.inr hx, hy⟩
          · rintro ⟨x, y, rfl, rfl | hx, hy⟩
            · exact Or.inl hy
            · exact Or.inr ⟨x, y, rfl, hx, hy⟩

end Matching

/-! ## Reading a source -/

/-- What the units read so far leave open: an atom that a quantifier may
follow, a quantifier that `?` may make lazy, or a part of an atom. -/
inductive Mode where
  | start
  | atom (test : CodeUnit → Bool)
  | quantified
  | escaped
  | bracket
  | negated
  | excepting (u : CodeUnit)

structure Reading where
  pieces : List (Piece CodeUnit)
  mode : Mode

/-- The first unit of an atom. -/
def openAtom (pieces : List (Piece CodeUnit)) (u : CodeUnit) :
    Option Reading :=
  if u = unit '\\' then some ⟨pieces, .escaped⟩
  else if u = unit '.' then some ⟨pieces, .atom dot⟩
  else if u = unit '[' then some ⟨pieces, .bracket⟩
  else if u ∈ syntaxUnits then none
  else some ⟨pieces, .atom (· == u)⟩

/-- Reads one unit of a body; `none` outside the fragment, as for a
quantifier without an atom. -/
def step (r : Reading) (u : CodeUnit) : Option Reading :=
  match r.mode with
  | .start => openAtom r.pieces u
  | .atom test =>
      if u = unit '*' then some ⟨r.pieces ++ [⟨test, .many⟩], .quantified⟩
      else if u = unit '?' then
        some ⟨r.pieces ++ [⟨test, .optional⟩], .quantified⟩
      else openAtom (r.pieces ++ [⟨test, .once⟩]) u
  | .quantified =>
      if u = unit '?' then some ⟨r.pieces, .start⟩ else openAtom r.pieces u
  | .escaped =>
      if u ∈ syntaxUnits then some ⟨r.pieces, .atom (· == u)⟩ else none
  | .bracket => if u = unit '^' then some ⟨r.pieces, .negated⟩ else none
  | .negated =>
      if u ∈ js "]\\-" then none else some ⟨r.pieces, .excepting u⟩
  | .excepting v =>
      if u = unit ']' then some ⟨r.pieces, .atom (· != v)⟩ else none

/-- The pieces once the source ends here. -/
def finish (r : Reading) : Option (List (Piece CodeUnit)) :=
  match r.mode with
  | .start | .quantified => some r.pieces
  | .atom test => some (r.pieces ++ [⟨test, .once⟩])
  | _ => none

def parseBody (body : JsString) : Option (List (Piece CodeUnit)) :=
  (body.foldlM step ⟨[], .start⟩).bind finish

/-- Reads an anchored source. -/
def parse : JsString → Option (List (Piece CodeUnit))
  | [] => none
  | u :: rest =>
      if u = unit '^' ∧ rest.getLast? = some (unit '$') then
        parseBody rest.dropLast
      else none

theorem parse_anchored (body : JsString) :
    parse (js "^" ++ body ++ js "$") = parseBody body := by
  have hSource : js "^" ++ body ++ js "$" =
      unit '^' :: (body ++ [unit '$']) := by
    rw [show js "^" = [unit '^'] from rfl, show js "$" = [unit '$'] from rfl]
    simp
  simp [hSource, parse]

/-- What the constructor throws. -/
structure SyntaxError where
  message : JsString
  deriving DecidableEq

/-- `new RegExp(source)` -/
def newRegExp (source : JsString) :
    Except SyntaxError (List (Piece CodeUnit)) :=
  match parse source with
  | some pieces => .ok pieces
  | none => .error ⟨js "Invalid regular expression: /" ++ source ++
      js "/: Nothing to repeat"⟩

/-! ## Reading composes -/

def Reading.after (ps : List (Piece CodeUnit)) (r : Reading) : Reading :=
  ⟨ps ++ r.pieces, r.mode⟩

private theorem openAtom_append (ps qs : List (Piece CodeUnit))
    (u : CodeUnit) :
    openAtom (ps ++ qs) u = (openAtom qs u).map (Reading.after ps) := by
  unfold openAtom
  split_ifs <;> rfl

/-- Pieces that are read are not touched again. -/
private theorem step_after (ps : List (Piece CodeUnit)) (r : Reading)
    (u : CodeUnit) :
    step (r.after ps) u = (step r u).map (Reading.after ps) := by
  obtain ⟨qs, mode⟩ := r
  cases mode with
  | start => exact openAtom_append ps qs u
  | atom test =>
      simp only [step, Reading.after, List.append_assoc, openAtom_append]
      split_ifs <;> simp [Reading.after]
  | quantified =>
      simp only [step, Reading.after, openAtom_append]
      split_ifs <;> simp [Reading.after]
  | escaped =>
      simp only [step, Reading.after]
      split_ifs <;> rfl
  | bracket =>
      simp only [step, Reading.after]
      split_ifs <;> rfl
  | negated =>
      simp only [step, Reading.after]
      split_ifs <;> rfl
  | excepting v =>
      simp only [step, Reading.after]
      split_ifs <;> rfl

private theorem foldlM_after (ps : List (Piece CodeUnit)) (body : JsString)
    (r : Reading) :
    body.foldlM step (r.after ps) =
      (body.foldlM step r).map (Reading.after ps) := by
  induction body generalizing r with
  | nil => rfl
  | cons u body ih =>
      rw [List.foldlM_cons, List.foldlM_cons, step_after]
      cases step r u with
      | none => rfl
      | some next => exact ih next

private theorem finish_after (ps : List (Piece CodeUnit)) (r : Reading) :
    finish (r.after ps) = (finish r).map (ps ++ ·) := by
  obtain ⟨qs, mode⟩ := r
  cases mode <;> simp [finish, Reading.after]

/-- No atom is left half read. -/
def Settled (r : Reading) : Prop := ∃ ps, finish r = some ps

private theorem openAtom_settled {ps : List (Piece CodeUnit)} {u : CodeUnit}
    {next : Reading} (hEscape : u ≠ unit '\\') (hBracket : u ≠ unit '[')
    (h : openAtom ps u = some next) : Settled next := by
  simp only [openAtom, if_neg hEscape, if_neg hBracket] at h
  split_ifs at h
  · cases h
    exact ⟨_, rfl⟩
  · cases h
    exact ⟨_, rfl⟩

theorem settled_step {r next : Reading} {u : CodeUnit} (hr : Settled r)
    (hEscape : u ≠ unit '\\') (hBracket : u ≠ unit '[')
    (h : step r u = some next) : Settled next := by
  obtain ⟨qs, mode⟩ := r
  obtain ⟨ps, hFinish⟩ := hr
  cases mode with
  | start => exact openAtom_settled hEscape hBracket h
  | atom test =>
      simp only [step] at h
      split_ifs at h
      · cases h
        exact ⟨_, rfl⟩
      · cases h
        exact ⟨_, rfl⟩
      · exact openAtom_settled hEscape hBracket h
  | quantified =>
      simp only [step] at h
      split_ifs at h
      · cases h
        exact ⟨_, rfl⟩
      · exact openAtom_settled hEscape hBracket h
  | escaped => cases hFinish
  | bracket => cases hFinish
  | negated => cases hFinish
  | excepting v => cases hFinish

theorem step_backslash {r : Reading} {ps : List (Piece CodeUnit)}
    (hFinish : finish r = some ps) :
    step r (unit '\\') = some ⟨ps, .escaped⟩ := by
  have hStar : unit '\\' ≠ unit '*' := by decide
  have hMark : unit '\\' ≠ unit '?' := by decide
  obtain ⟨qs, mode⟩ := r
  cases mode <;> simp only [finish, reduceCtorEq, Option.some.injEq] at hFinish
  all_goals
    subst hFinish
    simp only [step, openAtom, if_neg hStar, if_neg hMark, if_true]

/-- From settled on, a backslash and a unit are one atom. -/
theorem settled_escape {r next : Reading} {u : CodeUnit} (hr : Settled r)
    (h : [unit '\\', u].foldlM step r = some next) : Settled next := by
  obtain ⟨ps, hFinish⟩ := hr
  rw [List.foldlM_cons, step_backslash hFinish, Option.bind_eq_bind,
    Option.bind_some, List.foldlM_cons] at h
  obtain ⟨last, hStep, hLast⟩ := Option.bind_eq_some_iff.mp h
  cases hLast
  simp only [step] at hStep
  split_ifs at hStep
  cases hStep
  exact ⟨_, rfl⟩

/-- A plain unit closes what is open and starts a piece. -/
private theorem step_plain {r : Reading} {ps : List (Piece CodeUnit)}
    {u : CodeUnit} (hFinish : finish r = some ps) (hPlain : u ∉ syntaxUnits) :
    step r u = (step ⟨[], .start⟩ u).map (Reading.after ps) := by
  have hNe : ∀ v, v ∈ syntaxUnits → u ≠ v := by
    rintro v hv rfl
    exact hPlain hv
  obtain ⟨qs, mode⟩ := r
  cases mode <;> simp only [finish, reduceCtorEq, Option.some.injEq] at hFinish
  all_goals
    subst hFinish
    simp [step, openAtom, Reading.after, hPlain, hNe (unit '*') (by decide),
      hNe (unit '?') (by decide), hNe (unit '\\') (by decide),
      hNe (unit '.') (by decide), hNe (unit '[') (by decide)]

/-- **Reading in two parts**, cut before a plain unit. -/
theorem parseBody_append {a b : JsString} {u : CodeUnit}
    (hSettled : ∀ r, a.foldlM step ⟨[], .start⟩ = some r → Settled r)
    (hPlain : u ∉ syntaxUnits) :
    parseBody (a ++ u :: b) = (parseBody a).bind
      (fun ps => (parseBody (u :: b)).map (ps ++ ·)) := by
  unfold parseBody
  rw [List.foldlM_append]
  cases hRead : a.foldlM step ⟨[], .start⟩ with
  | none => rfl
  | some r =>
      obtain ⟨ps, hFinish⟩ := hSettled r hRead
      simp only [Option.bind_eq_bind, Option.bind_some, hFinish,
        List.foldlM_cons, step_plain hFinish hPlain]
      cases step ⟨[], .start⟩ u with
      | none => rfl
      | some next =>
          simp only [Option.map_some, Option.bind_some, foldlM_after]
          cases b.foldlM step next with
          | none => rfl
          | some last => exact finish_after ps last

/-- A source built from sources that each keep an invariant of the
reading. -/
theorem invariant_flatMap {P : Reading → Prop}
    {source : CodeUnit → JsString} {text : JsString}
    (hSource : ∀ u ∈ text, ∀ r next, P r →
      (source u).foldlM step r = some next → P next)
    {r next : Reading} (hr : P r)
    (hNext : (text.flatMap source).foldlM step r = some next) : P next := by
  induction text generalizing r with
  | nil =>
      cases hNext
      exact hr
  | cons u text ih =>
      rw [List.flatMap_cons, List.foldlM_append] at hNext
      obtain ⟨middle, hFirst, hRest⟩ := Option.bind_eq_some_iff.mp hNext
      exact ih (fun v hv => hSource v (by simp [hv]))
        (hSource u (by simp) r middle hr hFirst) hRest

end OpenApe.Verified.RegExpPieces
