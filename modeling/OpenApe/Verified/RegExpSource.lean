import OpenApe.Verified.Glob
import OpenApe.Verified.JsText

/-!
# The regular expressions programs build from globs

Programs turn a glob into `new RegExp('^' + body + '$')`, where `body` is the
glob with its syntax characters escaped and its wildcards replaced by `.*`
and `.`.  This module reads such sources back: `parse` covers the fragment
of anchored sequences of literals, escaped syntax characters, `.` and `.*`,
and yields the glob tokens they denote.

A body of pieces that each read as one token reads as the list of those
tokens (`parse_anchored`).
-/

namespace OpenApe.Verified.RegExpSource

open JsText Glob

/-- What `.` matches without the `s` flag. -/
def dot (u : CodeUnit) : Bool := !isLineTerminator u

/-- The syntax characters of a pattern. -/
def syntaxUnits : JsString := js "^$\\.*+?()[]{}|"

/-- Reads a pattern body up to its closing anchor; `none` outside the
fragment. -/
def parseBody : JsString → Option (List (Token CodeUnit))
  | [] => none
  | [u] => if u = unit '$' then some [] else none
  | u :: v :: rest =>
      if u = unit '\\' then
        if v ∈ syntaxUnits then (parseBody rest).map (.lit v :: ·) else none
      else if u = unit '.' then
        if v = unit '*' then (parseBody rest).map (.run :: ·)
        else (parseBody (v :: rest)).map (.one :: ·)
      else if u ∈ syntaxUnits then none
      else (parseBody (v :: rest)).map (.lit u :: ·)

/-- Reads an anchored pattern source. -/
def parse : JsString → Option (List (Token CodeUnit))
  | [] => none
  | u :: rest => if u = unit '^' then parseBody rest else none

/-- `new RegExp(source).test(text)`, for a source of the fragment. -/
def test (source text : JsString) : Option Bool :=
  (parse source).map (fun p => accepts dot p text)

/-! ## Building a body -/

/-- `text.replace(/[special]/g, '\\$&')`. -/
def escape (special text : JsString) : JsString :=
  text.flatMap (fun u => if u ∈ special then [unit '\\', u] else [u])

/-- `text.replace(/u/g, replacement)` for one unit without `$`. -/
def replaceUnit (u : CodeUnit) (replacement text : JsString) : JsString :=
  text.flatMap (fun v => if v = u then replacement else [v])

theorem parseBody_escaped {v : CodeUnit} (hv : v ∈ syntaxUnits)
    (rest : JsString) :
    parseBody (unit '\\' :: v :: rest) =
      (parseBody rest).map (.lit v :: ·) := by
  simp only [parseBody, if_true, if_pos hv]

theorem parseBody_run (rest : JsString) :
    parseBody (unit '.' :: unit '*' :: rest) =
      (parseBody rest).map (.run :: ·) := by
  have hne : unit '.' ≠ unit '\\' := by decide
  simp only [parseBody, if_neg hne, if_true]

/-- A lone dot reads as one symbol, provided no star follows it. -/
theorem parseBody_one {v : CodeUnit} (hv : v ≠ unit '*') (rest : JsString) :
    parseBody (unit '.' :: v :: rest) =
      (parseBody (v :: rest)).map (.one :: ·) := by
  have hne : unit '.' ≠ unit '\\' := by decide
  simp only [parseBody, if_neg hne, if_true, if_neg hv]

theorem parseBody_literal {u : CodeUnit} (hu : u ∉ syntaxUnits)
    (v : CodeUnit) (rest : JsString) :
    parseBody (u :: v :: rest) =
      (parseBody (v :: rest)).map (.lit u :: ·) := by
  have ne_of_mem : ∀ v, v ∈ syntaxUnits → u ≠ v := by
    rintro v hv rfl
    exact hu hv
  have hslash : u ≠ unit '\\' := ne_of_mem _ (by decide)
  have hdot : u ≠ unit '.' := ne_of_mem _ (by decide)
  simp only [parseBody, if_neg hslash, if_neg hdot, if_neg hu]

/-- `piece` is read as the single token `t`, whatever follows it, as long
as no star does. -/
def ReadsAs (piece : JsString) (t : Token CodeUnit) : Prop :=
  piece ≠ [] ∧ piece.head? ≠ some (unit '*') ∧
    ∀ v rest, v ≠ unit '*' →
      parseBody (piece ++ v :: rest) = (parseBody (v :: rest)).map (t :: ·)

theorem readsAs_escaped {v : CodeUnit} (hv : v ∈ syntaxUnits) :
    ReadsAs [unit '\\', v] (.lit v) :=
  ⟨by simp, by simp only [List.head?_cons]; decide,
    fun w rest _ => parseBody_escaped hv (w :: rest)⟩

theorem readsAs_literal {u : CodeUnit} (hu : u ∉ syntaxUnits) :
    ReadsAs [u] (.lit u) := by
  refine ⟨by simp, ?_, fun w rest _ => parseBody_literal hu w rest⟩
  intro h
  simp only [List.head?_cons, Option.some.injEq] at h
  exact hu (h ▸ by decide)

theorem readsAs_run : ReadsAs (js ".*") .run :=
  ⟨by decide, by decide, fun w rest _ => parseBody_run (w :: rest)⟩

theorem readsAs_one : ReadsAs (js ".") .one :=
  ⟨by decide, by decide, fun _ rest hw => parseBody_one hw rest⟩

/-- A body assembled from readable pieces starts with no star, so the piece
before it is read alone. -/
private theorem flatMap_head {piece : CodeUnit → JsString}
    {token : CodeUnit → Token CodeUnit} {text : JsString}
    (h : ∀ u ∈ text, ReadsAs (piece u) (token u)) :
    ∃ v rest, text.flatMap piece ++ [unit '$'] = v :: rest ∧
      v ≠ unit '*' := by
  cases text with
  | nil => exact ⟨unit '$', [], rfl, by decide⟩
  | cons u text =>
      obtain ⟨hne, hstar, _⟩ := h u (by simp)
      obtain ⟨v, tail, hpiece⟩ := List.exists_cons_of_ne_nil hne
      refine ⟨v, tail ++ (text.flatMap piece ++ [unit '$']), ?_, ?_⟩
      · simp [List.flatMap_cons, hpiece]
      · rintro rfl
        exact hstar (by rw [hpiece, List.head?_cons])

/-- **Reading a built pattern**: the anchored concatenation of readable
pieces denotes the list of their tokens. -/
theorem parse_anchored {piece : CodeUnit → JsString}
    {token : CodeUnit → Token CodeUnit} {text : JsString}
    (h : ∀ u ∈ text, ReadsAs (piece u) (token u)) :
    parse (js "^" ++ text.flatMap piece ++ js "$") = some (text.map token) := by
  have hbody : parseBody (text.flatMap piece ++ [unit '$']) =
      some (text.map token) := by
    induction text with
    | nil => rfl
    | cons u text ih =>
        have htail : ∀ v ∈ text, ReadsAs (piece v) (token v) :=
          fun v hv => h v (by simp [hv])
        obtain ⟨v, rest, hrest, hv⟩ := flatMap_head htail
        have hread := (h u (by simp)).2.2 v rest hv
        rw [← hrest, ih htail] at hread
        simpa [List.flatMap_cons, List.append_assoc] using hread
  have hsource : js "^" ++ text.flatMap piece ++ js "$" =
      unit '^' :: (text.flatMap piece ++ [unit '$']) := by
    rw [show js "^" = [unit '^'] from rfl, show js "$" = [unit '$'] from rfl]
    simp
  rw [hsource, parse, if_pos rfl, hbody]

end OpenApe.Verified.RegExpSource
