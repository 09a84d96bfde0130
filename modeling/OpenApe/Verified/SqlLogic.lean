import Mathlib.Data.List.Sort
import Mathlib.Data.Option.NAry
import OpenApe.Verified.Json

/-!
# Conditions of a query

A nullable column is an `Option`, with `none` for NULL, and a condition is a
`Truth`, which is unknown where it compares NULL.  A row passes a `WHERE`
when its condition `holds`; `unknown` and false both fail it, and they part
only under `NOT`.  The last section reads JSON documents as queries do: a
member that is absent and one that is `null` are both NULL, and what is no
number is compared as text.
-/

namespace OpenApe.Verified.SqlLogic

open JsText Json

variable {α β : Type}

/-- A condition's value; `none` is unknown. -/
abbrev Truth := Option Bool

namespace Truth

/-- The condition is true, so that a `WHERE` lets the row pass. -/
def holds (t : Truth) : Bool := t == some true

/-- The condition is false, and not merely unknown. -/
def fails (t : Truth) : Bool := t == some false

/-- `NOT t` -/
def negate (t : Truth) : Truth := t.map (!·)

/-- `t AND u` -/
def both : Truth → Truth → Truth
  | some false, _ => some false
  | _, some false => some false
  | some true, some true => some true
  | _, _ => none

/-- `t OR u` -/
def either : Truth → Truth → Truth
  | some true, _ => some true
  | _, some true => some true
  | some false, some false => some false
  | _, _ => none

@[simp] theorem holds_some (b : Bool) : holds (some b) = b := by
  cases b <;> rfl

@[simp] theorem fails_some (b : Bool) : fails (some b) = !b := by
  cases b <;> rfl

@[simp] theorem holds_negate (t : Truth) : holds (negate t) = fails t := by
  rcases t with _ | _ | _ <;> rfl

@[simp] theorem holds_both (t u : Truth) :
    holds (both t u) = (holds t && holds u) := by
  rcases t with _ | _ | _ <;> rcases u with _ | _ | _ <;> rfl

@[simp] theorem fails_both (t u : Truth) :
    fails (both t u) = (fails t || fails u) := by
  rcases t with _ | _ | _ <;> rcases u with _ | _ | _ <;> rfl

@[simp] theorem holds_either (t u : Truth) :
    holds (either t u) = (holds t || holds u) := by
  rcases t with _ | _ | _ <;> rcases u with _ | _ | _ <;> rfl

end Truth

open Truth

/-! ## Comparing columns -/

/-- A comparison, unknown where a side is NULL. -/
def compares (r : α → β → Bool) (a : Option α) (b : Option β) : Truth :=
  Option.map₂ r a b

/-- `a = b` -/
def equal [DecidableEq α] (a b : Option α) : Truth :=
  compares (fun x y => decide (x = y)) a b

/-- `a IN (values)`, for values that are not NULL. -/
def isIn [DecidableEq α] (a : Option α) (values : List α) : Truth :=
  a.map (fun x => decide (x ∈ values))

/-- `EXISTS (SELECT 1 FROM rows WHERE condition)`, which is never unknown. -/
def existsRow (rows : List α) (condition : α → Truth) : Truth :=
  some (rows.any (fun row => (condition row).holds))

@[simp] theorem holds_compares (r : α → β → Bool) (a : Option α)
    (b : Option β) :
    (compares r a b).holds = true ↔ ∃ x ∈ a, ∃ y ∈ b, r x y = true := by
  cases a <;> cases b <;> simp [compares, holds]

@[simp] theorem holds_equal [DecidableEq α] (a b : Option α) :
    (equal a b).holds = true ↔ ∃ x, a = some x ∧ b = some x := by
  cases a <;> cases b <;> simp [equal, compares, holds, eq_comm]

/-- Against a value that is not NULL. -/
theorem holds_equal_some [DecidableEq α] (a : Option α) (x : α) :
    (equal a (some x)).holds = decide (a = some x) := by
  cases a <;> simp [equal, compares, holds]

@[simp] theorem holds_isIn [DecidableEq α] (a : Option α) (values : List α) :
    (isIn a values).holds = true ↔ ∃ x, a = some x ∧ x ∈ values := by
  cases a <;> simp [isIn, holds]

@[simp] theorem holds_existsRow (rows : List α) (condition : α → Truth) :
    (existsRow rows condition).holds = true ↔
      ∃ row ∈ rows, (condition row).holds = true := by
  simp [existsRow]

/-- A row that fails the condition may be there or not. -/
theorem existsRow_append_cons {condition : α → Truth} {row : α}
    (h : (condition row).holds = false) (before after : List α) :
    existsRow (before ++ row :: after) condition =
      existsRow (before ++ after) condition := by
  simp [existsRow, h]

@[simp] theorem fails_existsRow (rows : List α) (condition : α → Truth) :
    (existsRow rows condition).fails = true ↔
      ∀ row ∈ rows, (condition row).holds = false := by
  simp [existsRow]

/-! ## Ranking rows -/

section Ranking

variable {γ : Type} [LinearOrder γ]

/-- `ORDER BY key DESC` -/
def orderByDesc (key : α → γ) (rows : List α) : List α :=
  rows.insertionSort (fun a b => key b ≤ key a)

/-- `row_number() OVER (ORDER BY key DESC)` of a row among the rows. -/
def rowNumber [DecidableEq α] (key : α → γ) (rows : List α) (row : α) : Nat :=
  (orderByDesc key rows).idxOf row + 1

/-- A row is ranked behind the rows of a greater key, where no other row has
its key. -/
theorem rowNumber_eq [DecidableEq α] {key : α → γ} {rows : List α} {row : α}
    (hRows : rows.Nodup) (hKey : ∀ other ∈ rows, key other = key row →
      other = row) (hRow : row ∈ rows) :
    rowNumber key rows row =
      (rows.filter (fun other => key row < key other)).length + 1 := by
  have hPerm : (orderByDesc key rows).Perm rows :=
    List.perm_insertionSort _ rows
  have hSorted : (orderByDesc key rows).Pairwise
      (fun a b => key b ≤ key a) := by
    have : Std.Total (fun a b : α => key b ≤ key a) :=
      ⟨fun a b => le_total (key b) (key a)⟩
    have : IsTrans α (fun a b : α => key b ≤ key a) :=
      ⟨fun _ _ _ hab hbc => le_trans hbc hab⟩
    exact List.pairwise_insertionSort _ rows
  have hNodup : (orderByDesc key rows).Nodup := hPerm.nodup_iff.mpr hRows
  obtain ⟨ahead, behind, hSplit⟩ :=
    List.append_of_mem (hPerm.mem_iff.mpr hRow)
  rw [hSplit] at hSorted hNodup
  have hAhead : ∀ other ∈ ahead, key row < key other := by
    intro other hOther
    refine lt_of_le_of_ne ((List.pairwise_append.mp hSorted).2.2 other hOther
      row List.mem_cons_self) (fun hSame => ?_)
    have hMem : other ∈ rows := by
      rw [← hPerm.mem_iff, hSplit]
      exact List.mem_append_left _ hOther
    have hEq : other = row := hKey other hMem hSame.symm
    subst hEq
    exact (List.nodup_append.mp hNodup).2.2 _ hOther _ List.mem_cons_self rfl
  have hBehind : ∀ other ∈ behind, ¬key row < key other := fun other hOther =>
    not_lt.mpr ((List.pairwise_cons.mp
      (List.pairwise_append.mp hSorted).2.1).1 other hOther)
  have hNotMem : row ∉ ahead := fun hMem => lt_irrefl _ (hAhead row hMem)
  have hFilter : (orderByDesc key rows).filter
      (fun other => key row < key other) = ahead := by
    rw [hSplit, List.filter_append, List.filter_cons_of_neg (by simp),
      List.filter_eq_self.mpr (by simpa using hAhead),
      List.filter_eq_nil_iff.mpr (by simpa using hBehind), List.append_nil]
  rw [rowNumber, ← (hPerm.filter _).length_eq, hFilter, hSplit,
    List.idxOf_append_of_notMem hNotMem, List.idxOf_cons_self, Nat.add_zero]

end Ranking

/-! ## JSON documents -/

/-- What a query compares of a document's value. -/
inductive Scalar where
  | number (value : JsonNumber)
  | text (value : JsString)
  deriving DecidableEq

theorem units_one : (js "1").all isNumberUnit = true := by
  decide

theorem leads_one :
    ((js "1").head?.any fun u => (48 ≤ u && u ≤ 57) || u == unit '-') =
      true := by
  decide

theorem units_zero : (js "0").all isNumberUnit = true := by
  decide

theorem leads_zero :
    ((js "0").head?.any fun u => (48 ≤ u && u ≤ 57) || u == unit '-') =
      true := by
  decide

/-- `true` and `false` are 1 and 0, and a list or an object is its text. -/
def scalar? : JsonValue → Option Scalar
  | .null => none
  | .bool true => some (.number ⟨js "1", units_one, leads_one⟩)
  | .bool false => some (.number ⟨js "0", units_zero, leads_zero⟩)
  | .number value => some (.number value)
  | .string value => some (.text value)
  | .array items => some (.text (stringify (.array items)))
  | .object members => some (.text (stringify (.object members)))

/-- `json_extract(document, '$.key')` -/
def jsonExtract (document : JsonValue) (key : JsString) : Option Scalar :=
  (document.field? key).bind scalar?

/-- The `value` column of `json_each`: one row for each item of a list or
member of an object, one for a scalar, and none where there is no value. -/
def jsonEach : Option JsonValue → List (Option Scalar)
  | none => []
  | some (.array items) => items.map scalar?
  | some (.object members) => members.map (fun member => scalar? member.2)
  | some value => [scalar? value]

@[simp] theorem scalar?_string (value : JsString) :
    scalar? (.string value) = some (.text value) := rfl

theorem jsonEach_strings (texts : List JsString) :
    jsonEach (some (.array (texts.map .string))) =
      texts.map (fun text => some (.text text)) := by
  simp [jsonEach]

end OpenApe.Verified.SqlLogic
