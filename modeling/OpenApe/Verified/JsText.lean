import Mathlib.Algebra.Ring.Nat
import Mathlib.Data.List.Lex
import Mathlib.Data.List.Sort

/-!
# JavaScript text and records

A JavaScript string is a finite sequence of UTF-16 code units, not of
Unicode scalar values: its `length`, its indexing and its regular
expressions (without the `u` flag) all count code units, and an unpaired
surrogate is a legal element.  `JsString` is therefore a list of 16-bit
units, and `js` transcribes a source literal into it.

A plain-object record has pairwise distinct keys by construction; its entries
have the integer-like keys first.
-/

namespace OpenApe.Verified.JsText

/-- One UTF-16 code unit. -/
abbrev CodeUnit := UInt16

/-- A JavaScript string: its code units in order. -/
abbrev JsString := List CodeUnit

/-- Comparing strings decides their equality. -/
instance : LawfulBEq JsString := inferInstance

/-- The UTF-16 encoding of one Unicode scalar value. -/
def utf16 (c : Char) : JsString :=
  if c.val < 0x10000 then [c.val.toUInt16]
  else
    [(0xD800 + (c.val - 0x10000) / 0x400).toUInt16,
      (0xDC00 + (c.val - 0x10000) % 0x400).toUInt16]

/-- A string literal of the source, as code units. -/
def js (s : String) : JsString := s.toList.flatMap utf16

/-- A literal is rewritten to its characters, which evaluate faster. -/
theorem js_ofList (l : List Char) : js (String.ofList l) = l.flatMap utf16 := by
  rw [js, String.toList_ofList]

/-- The code unit of a character of the basic multilingual plane. -/
def unit (c : Char) : CodeUnit := c.val.toUInt16

/-! ## Character classes -/

/-- The line terminators of the language: what `.` does not match in a
regular expression without the `s` flag. -/
def isLineTerminator (u : CodeUnit) : Bool :=
  u == 0x000A || u == 0x000D || u == 0x2028 || u == 0x2029

/-- The units `trim` strips: white space and line terminators. -/
def isTrimmed (u : CodeUnit) : Bool :=
  isLineTerminator u || u == 0x0009 || u == 0x000B || u == 0x000C ||
    u == 0x0020 || u == 0x00A0 || u == 0x1680 ||
    (0x2000 ≤ u && u ≤ 0x200A) || u == 0x202F || u == 0x205F ||
    u == 0x3000 || u == 0xFEFF

/-- `String.prototype.trimEnd`. -/
def trimEnd (s : JsString) : JsString :=
  (s.reverse.dropWhile isTrimmed).reverse

/-- `String.prototype.trim`. -/
def trim (s : JsString) : JsString := trimEnd (s.dropWhile isTrimmed)

/-- Trimming the end leaves everything up to a visible unit alone. -/
theorem trimEnd_append_cons {u : CodeUnit} (hu : isTrimmed u = false)
    (before after : JsString) :
    trimEnd (before ++ u :: after) = before ++ u :: trimEnd after := by
  have hrest : ((after.reverse ++ [u]).dropWhile isTrimmed) =
      after.reverse.dropWhile isTrimmed ++ [u] := by
    rw [List.dropWhile_append]
    split
    · rename_i hempty
      simp [List.isEmpty_iff.mp hempty, hu]
    · rfl
  simp only [trimEnd, List.reverse_append, List.reverse_cons]
  rw [List.dropWhile_append, hrest]
  simp

/-- A visible unit survives, with everything between it and the ends of the
text that is not trimmed. -/
theorem trim_append_cons {u : CodeUnit} (hu : isTrimmed u = false)
    (before after : JsString) :
    trim (before ++ u :: after) =
      before.dropWhile isTrimmed ++ u :: trimEnd after := by
  have hstart : (before ++ u :: after).dropWhile isTrimmed =
      before.dropWhile isTrimmed ++ u :: after := by
    rw [List.dropWhile_append]
    split
    · rename_i hempty
      simp [List.isEmpty_iff.mp hempty, hu]
    · rfl
  rw [trim, hstart, trimEnd_append_cons hu]

theorem trim_ne_nil {s : JsString} (h : ∃ u ∈ s, isTrimmed u = false) :
    trim s ≠ [] := by
  obtain ⟨u, hmem, hu⟩ := h
  obtain ⟨before, after, rfl⟩ := List.append_of_mem hmem
  rw [trim_append_cons hu]
  simp

/-! ## Plain records -/

/-- An object whose own enumerable properties are strings.  Its keys are
pairwise distinct, as the keys of every object are. -/
structure Record where
  entries : List (JsString × JsString)
  nodup : (entries.map Prod.fst).Nodup
  deriving DecidableEq

namespace Record

/-- `record[key]`, for own properties; every inherited one is no string. -/
def get (r : Record) (key : JsString) : Option JsString :=
  r.entries.lookup key

/-- An array index: the canonical decimal spelling of an integer below
`2 ^ 32 - 1`. -/
def arrayIndex (key : JsString) : Option Nat :=
  let digits := key.map UInt16.toNat
  let value := digits.foldl (fun n d => 10 * n + (d - 48)) 0
  if digits ≠ [] ∧ (∀ d ∈ digits, 48 ≤ d ∧ d ≤ 57) ∧
      (digits.head? = some 48 → digits.length = 1) ∧ value < 2 ^ 32 - 1
  then some value else none

/-- The own-property order of a new object: integer-like keys ascending,
then the other keys as they were inserted. -/
def ownOrder (entries : List (JsString × JsString)) :
    List (JsString × JsString) :=
  (entries.filter (fun e => (arrayIndex e.1).isSome)).insertionSort
      (fun a b => (arrayIndex a.1).getD 0 ≤ (arrayIndex b.1).getD 0) ++
    entries.filter (fun e => (arrayIndex e.1).isNone)

theorem ownOrder_perm (entries : List (JsString × JsString)) :
    (ownOrder entries).Perm entries := by
  have hsplit := List.filter_append_perm
    (fun e : JsString × JsString => (arrayIndex e.1).isSome) entries
  have hnone : (fun e : JsString × JsString => (arrayIndex e.1).isNone) =
      (fun e => !(arrayIndex e.1).isSome) := by
    funext e
    cases arrayIndex e.1 <;> rfl
  refine List.Perm.trans ?_ hsplit
  unfold ownOrder
  rw [hnone]
  exact (List.perm_insertionSort _ _).append_right _

/-- `Object.fromEntries` on entries with distinct keys. -/
def fromEntries (entries : List (JsString × JsString))
    (h : (entries.map Prod.fst).Nodup) : Record where
  entries := ownOrder entries
  nodup := ((ownOrder_perm entries).map Prod.fst).nodup_iff.mpr h

theorem mem_fromEntries {entries : List (JsString × JsString)}
    {h : (entries.map Prod.fst).Nodup} {e : JsString × JsString} :
    e ∈ (fromEntries entries h).entries ↔ e ∈ entries :=
  (ownOrder_perm entries).mem_iff

/-- Looking a key up finds exactly the entry that carries it. -/
theorem get_eq_some_iff (r : Record) (key value : JsString) :
    r.get key = some value ↔ (key, value) ∈ r.entries := by
  obtain ⟨entries, nodup⟩ := r
  unfold get
  induction entries with
  | nil => simp
  | cons e rest ih =>
      obtain ⟨k, v⟩ := e
      simp only [List.map_cons, List.nodup_cons] at nodup
      by_cases hk : key = k
      · subst hk
        have hfresh : (key, value) ∉ rest := fun hmem =>
          nodup.1 (List.mem_map.mpr ⟨_, hmem, rfl⟩)
        simp only [List.lookup_cons, beq_self_eq_true, Option.some.injEq,
          List.mem_cons, Prod.mk.injEq, true_and, hfresh, or_false]
        exact eq_comm
      · have hne : (key == k) = false := by simpa using hk
        simp only [List.lookup_cons, hne, List.mem_cons, Prod.mk.injEq, hk,
          false_and, false_or]
        exact ih nodup.2

end Record

/-! ## Collation -/

/-- The collation behind `localeCompare`.  The runtime ships it as data, so
every result that sorts by it holds for each instance. -/
class Collation where
  localeCompare : JsString → JsString → Ordering

/-- Collation by code unit.  On lower-case ASCII words it is the order the
runtime's default locale uses. -/
@[reducible] def codeUnitCollation : Collation where
  localeCompare a b := if a = b then .eq else if a < b then .lt else .gt

/-- `entries.sort(([a], [b]) => a.localeCompare(b))`: a stable sort. -/
def sortByKey [Collation] (entries : List (JsString × JsString)) :
    List (JsString × JsString) :=
  entries.insertionSort
    (fun a b => Collation.localeCompare a.1 b.1 ≠ .gt)

theorem sortByKey_perm [Collation] (entries : List (JsString × JsString)) :
    (sortByKey entries).Perm entries :=
  List.perm_insertionSort _ _

end OpenApe.Verified.JsText
