import OpenApe.Ports.CentralValues
import OpenApe.Verified.CodePoints
import Mathlib.Data.List.DropRight

/-!
# Request summaries

A grant request may carry a summary for the person who decides on it.  The
IdP refuses one whose fields are too long, counted in code points, or hold
characters that are not displayed as they are sent.

Summaries stored under an earlier format are migrated: the text becomes a
title and a description, and the characters that are refused now are taken
out.  Taking out a character brings its neighbours together, and two
unpaired surrogates that meet are read as a character that no line held
before.
-/

namespace OpenApe.Ports.RequestSummary

open Verified.JsText Verified.Json Verified.Unicode Verified.CodePoints
open Verified.Fallible
open CentralValues (Unknown)

/-! ## Characters and lengths -/

/-- `[\p{Cc}\p{Cf}\p{Zl}\p{Zp}]` -/
def isHidden (c : Nat) : Bool :=
  isControl c || isFormat c || c == 0x2028 || c == 0x2029

inductive SummaryField
  | title
  | description
  | origin
  | link
  deriving DecidableEq

def SummaryField.name : SummaryField → JsString
  | .title => js "title"
  | .description => js "description"
  | .origin => js "origin"
  | .link => js "link"

/-- `LIMITS[field]` -/
def SummaryField.limit : SummaryField → Nat
  | .title => 120
  | .description => 2000
  | .origin => 120
  | .link => 2048

/-- `FIELDS` -/
def fields : List SummaryField := [.title, .description, .origin, .link]

def codePointLength (value : JsString) : Nat := (codePoints value).length

def hasHiddenCharacter (value : JsString) (multiline : Bool) : Bool :=
  (codePoints (if multiline then value.filter (· != unit '\n') else value)).any
    isHidden

/-! ## Reading a summary -/

/-- The message of an `InvalidGrantSummaryError`. -/
abbrev SummaryError := JsString

def readField (summary : JsonValue) (field : SummaryField) :
    Except SummaryError (Option JsString) :=
  match summary.field? field.name with
  | none => .ok none
  | some (.string value) =>
      if codePointLength value > field.limit then
        .error (js "summary." ++ field.name ++ js " must be at most " ++
          decimal field.limit ++ js " characters")
      else if hasHiddenCharacter value (field == .description) then
        .error (js "summary." ++ field.name ++
          js " must not contain control or format characters" ++
          if field == .description then js " other than line feeds" else [])
      else .ok (some value)
  | some _ => .error (js "summary." ++ field.name ++ js " must be a string")

structure GrantSummary where
  title : JsString
  description : Option JsString := none
  origin : Option JsString := none
  link : Option JsString := none
  deriving DecidableEq

/-- `summary[field]` -/
def GrantSummary.get (summary : GrantSummary) :
    SummaryField → Option JsString
  | .title => some summary.title
  | .description => summary.description
  | .origin => summary.origin
  | .link => summary.link

/-- The object that holds the fields of a summary. -/
def GrantSummary.value (summary : GrantSummary) : JsonValue :=
  .object (fields.filterMap fun field =>
    (summary.get field).map fun text => (field.name, .string text))

def parseGrantSummary (value : Unknown) :
    Except SummaryError (Option GrantSummary) :=
  match value with
  | none => .ok none
  | some (.object members) => do
      let keys := members.map Prod.fst
      if js "text" ∈ keys then
        throw (js "summary.text is no longer supported; send title and description")
      let unknown := keys.filter (· ∉ fields.map SummaryField.name)
      if unknown ≠ [] then
        throw (js "summary has unknown fields: " ++ (js ", ").intercalate unknown)
      let title ← readField (.object members) .title
      match title with
      | none => throw (js "summary.title is required and must not be blank")
      | some title =>
          if trim title = [] then
            throw (js "summary.title is required and must not be blank")
          let description ← readField (.object members) .description
          let origin ← readField (.object members) .origin
          let link ← readField (.object members) .link
          return some ⟨title, description, origin, link⟩
  | some _ => .error (js "summary must be an object")

/-! ## Valid summaries -/

/-- What the parser asks of a field. -/
structure Fits (field : SummaryField) (text : JsString) : Prop where
  short : codePointLength text ≤ field.limit
  shown : hasHiddenCharacter text (field == .description) = false

/-- What the parser asks of a summary. -/
structure Valid (summary : GrantSummary) : Prop where
  title : trim summary.title ≠ []
  fits : ∀ field text, summary.get field = some text → Fits field text

theorem readField_eq_ok {summary : JsonValue} {field : SummaryField}
    {result : Option JsString} :
    readField summary field = .ok result ↔
      summary.field? field.name = result.map .string ∧
        ∀ text, result = some text → Fits field text := by
  unfold readField
  split
  · rename_i hMissing
    rw [hMissing]
    constructor
    · intro h
      rw [← Except.ok.inj h]
      exact ⟨rfl, fun _ hText => by cases hText⟩
    · rintro ⟨hNone, -⟩
      cases result with
      | none => rfl
      | some text => cases hNone
  · rename_i value hValue
    rw [hValue]
    split
    · rename_i hLong
      refine ⟨fun h => (by cases h), ?_⟩
      rintro ⟨hText, hFits⟩
      cases result with
      | none => cases hText
      | some text =>
          cases hText
          exact absurd (hFits value rfl).short (by omega)
    · rename_i hShort
      split
      · rename_i hHidden
        refine ⟨fun h => (by cases h), ?_⟩
        rintro ⟨hText, hFits⟩
        cases result with
        | none => cases hText
        | some text =>
            cases hText
            rw [(hFits value rfl).shown] at hHidden
            cases hHidden
      · rename_i hShown
        constructor
        · intro h
          rw [← Except.ok.inj h]
          refine ⟨rfl, fun text hText => ?_⟩
          rw [← Option.some.inj hText]
          exact ⟨by omega, Bool.eq_false_iff.mpr hShown⟩
        · rintro ⟨hText, -⟩
          cases result with
          | none => cases hText
          | some text =>
              cases hText
              rfl
  · rename_i value hNotText hValue
    rw [hValue]
    refine ⟨fun h => (by cases h), ?_⟩
    rintro ⟨hText, -⟩
    cases result with
    | none => cases hText
    | some text =>
        cases hText
        exact absurd rfl (hNotText text)

/-- The object of a summary holds its fields. -/
theorem field?_value (summary : GrantSummary) (field : SummaryField) :
    summary.value.field? field.name =
      (summary.get field).map .string := by
  obtain ⟨title, description, origin, link⟩ := summary
  cases description <;> cases origin <;> cases link <;> cases field <;> rfl

theorem keys_value (summary : GrantSummary) :
    ∃ members, summary.value = .object members ∧
      ∀ key ∈ members.map Prod.fst, key ∈ fields.map SummaryField.name := by
  refine ⟨_, rfl, fun key hKey => ?_⟩
  obtain ⟨member, hMember, rfl⟩ := List.mem_map.mp hKey
  obtain ⟨field, hField, hText⟩ := List.mem_filterMap.mp hMember
  obtain ⟨text, -, rfl⟩ := Option.map_eq_some_iff.mp hText
  exact List.mem_map_of_mem hField

/-- The checks of the parser, in their order. -/
theorem parseGrantSummary_object {members : List (JsString × JsonValue)}
    {summary : GrantSummary} :
    parseGrantSummary (some (.object members)) = .ok (some summary) ↔
      js "text" ∉ members.map Prod.fst ∧
      (members.map Prod.fst).filter (· ∉ fields.map SummaryField.name) = [] ∧
      trim summary.title ≠ [] ∧
      ∀ field, readField (.object members) field = .ok (summary.get field) := by
  unfold parseGrantSummary
  dsimp only
  by_cases hText : js "text" ∈ members.map Prod.fst
  · rw [if_pos hText]
    exact ⟨fun h => (by cases h), fun h => absurd hText h.1⟩
  rw [if_neg hText]
  by_cases hUnknown : (members.map Prod.fst).filter
      (· ∉ fields.map SummaryField.name) = []
  · rw [if_neg (not_not.mpr hUnknown), bind_eq_ok]
    constructor
    · rintro ⟨title, hTitle, h⟩
      cases title with
      | none => cases h
      | some title =>
          dsimp only at h
          split_ifs at h with hBlank
          · cases h
          · obtain ⟨description, hDescription, h⟩ := bind_eq_ok.mp h
            obtain ⟨origin, hOrigin, h⟩ := bind_eq_ok.mp h
            obtain ⟨link, hLink, h⟩ := bind_eq_ok.mp h
            cases h
            refine ⟨hText, hUnknown, hBlank, fun field => ?_⟩
            cases field with
            | title => exact hTitle
            | description => exact hDescription
            | origin => exact hOrigin
            | link => exact hLink
    · rintro ⟨-, -, hBlank, hFields⟩
      refine ⟨_, hFields .title, ?_⟩
      show (if trim summary.title = [] then _ else _) = _
      rw [if_neg hBlank, hFields .description, hFields .origin, hFields .link]
      rfl
  · rw [if_pos hUnknown]
    exact ⟨fun h => (by cases h), fun h => absurd h.2.1 hUnknown⟩

/-- The parser accepts a valid summary and returns it unchanged. -/
theorem parseGrantSummary_value {summary : GrantSummary}
    (h : Valid summary) :
    parseGrantSummary (some summary.value) = .ok (some summary) := by
  obtain ⟨members, hValue, hKeys⟩ := keys_value summary
  rw [hValue, parseGrantSummary_object]
  refine ⟨fun hText => ?_, ?_, h.title, fun field => ?_⟩
  · exact absurd (hKeys _ hText) (by decide)
  · rw [List.filter_eq_nil_iff]
    intro key hKey hUnknown
    exact of_decide_eq_true hUnknown (hKeys key hKey)
  · rw [readField_eq_ok, ← hValue, field?_value]
    exact ⟨rfl, h.fits field⟩

/-- Whatever the parser returns is valid. -/
theorem valid_of_parseGrantSummary {value : Unknown} {summary : GrantSummary}
    (h : parseGrantSummary value = .ok (some summary)) : Valid summary := by
  match value with
  | some (.object members) =>
      obtain ⟨-, -, hBlank, hFields⟩ := parseGrantSummary_object.mp h
      exact ⟨hBlank, fun field text hText =>
        (readField_eq_ok.mp (hFields field)).2 text hText⟩
  | none => cases h
  | some .null | some (.bool _) | some (.number _) | some (.string _)
  | some (.array _) => cases h

/-- The parser returns the valid summaries unchanged, and accepts no
other. -/
theorem parseGrantSummary_iff (summary : GrantSummary) :
    parseGrantSummary (some summary.value) = .ok (some summary) ↔
      Valid summary :=
  ⟨valid_of_parseGrantSummary, parseGrantSummary_value⟩

/-! ## Migrating a stored summary -/

/-- `value.lastIndexOf(unit)` -/
def lastIndexOf (value : JsString) (u : CodeUnit) : Option Nat :=
  (value.reverse.findIdx? (· == u)).map (value.length - 1 - ·)

/-- What is kept of a text that is cut: its first code points, back to the
last space where that lies in the second half. -/
def keptOf (value : JsString) (limit : Nat) : JsString :=
  let cut := encodePoints ((codePoints value).take (limit - 1))
  trimEnd (match lastIndexOf cut (unit ' ') with
    | some space => if limit / 2 ≤ space then cut.take space else cut
    | none => cut)

def truncate (value : JsString) (limit : Nat) : JsString :=
  if codePointLength value ≤ limit then value
  else keptOf value limit ++ js "…"

/-- `lines.slice(first, last + 1)`, from the first line that is not blank to
the last. -/
def withoutBlankEdges (lines : List JsString) : List JsString :=
  (lines.dropWhile (trim · = [])).rdropWhile (trim · = [])

/-- `replace(/\r\n?/g, '\n')` -/
def lineFeeds : JsString → JsString
  | [] => []
  | [u] => [if u = unit '\r' then unit '\n' else u]
  | u :: v :: rest =>
      if u = unit '\r' then
        if v = unit '\n' then unit '\n' :: lineFeeds rest
        else unit '\n' :: lineFeeds (v :: rest)
      else u :: lineFeeds (v :: rest)

/-- `line.replace(HIDDEN_CHARACTERS, '').trimEnd()` -/
def shownLine (line : JsString) : JsString :=
  trimEnd (encodePoints ((codePoints line).filter (!isHidden ·)))

/-- The lines of a stored text, each as it is shown. -/
def shownLines (text : JsString) : List JsString :=
  ((((lineFeeds text).map fun u => if u = unit '\t' then unit ' ' else u).splitOn
    (unit '\n')).map shownLine)

structure LegacySummary where
  text : JsString
  link : Unknown := none

def migratedLink : Unknown → Option JsString
  | some (.string link) =>
      if link ≠ [] ∧ codePointLength link ≤ SummaryField.link.limit ∧
          hasHiddenCharacter link false = false then some link
      else none
  | _ => none

/-- The lines that become the description. -/
def descriptionLines (line : JsString) (rest : List JsString) :
    List JsString :=
  withoutBlankEdges
    (if truncate line SummaryField.title.limit = line then rest
    else line :: rest)

def joinLines (lines : List JsString) : JsString :=
  (js "\n").intercalate lines

def migrateLegacyGrantSummary (legacy : LegacySummary) :
    Option GrantSummary :=
  match withoutBlankEdges (shownLines legacy.text) with
  | [] => none
  | first :: rest =>
      if first = [] then none
      else
        let line := trim first
        let description := joinLines (descriptionLines line rest)
        some {
          title := truncate line SummaryField.title.limit
          description :=
            if description = [] then none
            else some (truncate description SummaryField.description.limit)
          link := migratedLink legacy.link }

/-! ## What a shown line holds -/

/-- No single unit is a refused character. -/
def Cleared (text : JsString) : Prop := ∀ u ∈ text, isHidden u.toNat = false

theorem isSurrogate_of_isHidden {c : Nat} (h : isHidden c = true) :
    isSurrogate c = false := by
  by_contra hSurrogate
  rw [Bool.not_eq_false, isSurrogate, Bool.and_eq_true, decide_eq_true_iff,
    decide_eq_true_iff] at hSurrogate
  obtain ⟨hFrom, hTo⟩ := hSurrogate
  simp only [isHidden, isControl, isFormat, formatRanges, List.any_cons,
    List.any_nil, Bool.or_eq_true, Bool.and_eq_true, decide_eq_true_eq,
    beq_iff_eq, Bool.or_false] at h
  omega

/-- A cleared text holds a refused character exactly where two surrogates
meet. -/
theorem any_hidden_iff {text : JsString} (h : Cleared text) :
    (codePoints text).any isHidden = true ↔ MeetsIn isHidden text := by
  rw [any_codePoints_iff (fun _ => isSurrogate_of_isHidden)]
  refine or_iff_right ?_
  rintro ⟨u, hu, hHidden⟩
  rw [h u hu] at hHidden
  cases hHidden

theorem cleared_shownLine (line : JsString) : Cleared (shownLine line) := by
  intro u hu
  obtain ⟨after, hText, -⟩ := trimEnd_split
    (encodePoints ((codePoints line).filter (!isHidden ·)))
  have hMem : u ∈ encodePoints ((codePoints line).filter (!isHidden ·)) := by
    rw [hText]
    exact List.mem_append_left after hu
  obtain ⟨c, hc, hUnit⟩ := List.mem_flatMap.mp hMem
  have hShown : isHidden c = false := by
    have hKept := (List.mem_filter.mp hc).2
    rwa [Bool.not_eq_true'] at hKept
  have hBound : c < 0x110000 :=
    (separate_codePoints line).1 c (List.mem_filter.mp hc).1
  rcases mem_encodePoint hBound hUnit with hEq | hSurrogate
  · rw [hEq, hShown]
  · by_contra hHidden
    rw [isSurrogate_of_isHidden (Bool.eq_true_of_not_eq_false hHidden)]
      at hSurrogate
    cases hSurrogate

theorem cleared_of_mem_shownLines {text line : JsString}
    (h : line ∈ shownLines text) : Cleared line := by
  obtain ⟨raw, -, rfl⟩ := List.mem_map.mp h
  exact cleared_shownLine raw

theorem Cleared.of_isInfix {a b : JsString} (h : Cleared b) (hInfix : a <:+: b) :
    Cleared a := fun u hu => h u (hInfix.subset hu)

theorem trim_isInfix (text : JsString) : trim text <:+: text := by
  obtain ⟨before, after, hText, -, -⟩ := trim_split text
  exact ⟨before, after, by rw [List.append_assoc, ← hText]⟩

theorem withoutBlankEdges_subset (lines : List JsString) :
    withoutBlankEdges lines ⊆ lines := fun _ hLine =>
  (List.dropWhile_suffix _).subset ((List.rdropWhile_prefix _ _).subset hLine)

/-- The first line that is left is not blank. -/
theorem withoutBlankEdges_head {lines rest : List JsString} {first : JsString}
    (h : withoutBlankEdges lines = first :: rest) : trim first ≠ [] := by
  have hPrefix : first :: rest <+: lines.dropWhile (trim · = []) := by
    rw [← h]
    exact List.rdropWhile_prefix _ _
  obtain ⟨after, hAfter⟩ := hPrefix
  have hHead := List.head?_dropWhile_not
    (fun line => decide (trim line = [])) lines
  rw [← hAfter, List.cons_append, List.head?_cons] at hHead
  exact of_decide_eq_false hHead

/-- The units of joined lines are line feeds and units of the lines. -/
theorem mem_joinLines {lines : List JsString} {u : CodeUnit}
    (h : u ∈ joinLines lines) : u = unit '\n' ∨ ∃ line ∈ lines, u ∈ line := by
  induction lines with
  | nil => cases h
  | cons line lines ih =>
      cases lines with
      | nil =>
          refine Or.inr ⟨line, List.mem_cons_self, ?_⟩
          simpa [joinLines] using h
      | cons next lines =>
          rw [joinLines, List.intercalate_cons_cons, List.append_assoc,
            List.mem_append, List.mem_append] at h
          rcases h with hLine | hFeed | hRest
          · exact Or.inr ⟨line, List.mem_cons_self, hLine⟩
          · exact Or.inl (List.mem_singleton.mp hFeed)
          · exact (ih hRest).imp_right fun ⟨l, hl, hu⟩ =>
              ⟨l, List.mem_cons_of_mem _ hl, hu⟩

/-! ## Cutting -/

/-- What of a text is kept, cut or not. -/
def keptPart (value : JsString) (limit : Nat) : JsString :=
  if codePointLength value ≤ limit then value else keptOf value limit

theorem lastIndexOf_spec {value : JsString} {u : CodeUnit} {i : Nat}
    (h : lastIndexOf value u = some i) : ∃ after,
    value = value.take i ++ u :: after := by
  obtain ⟨j, hFind, hIndex⟩ := Option.map_eq_some_iff.mp h
  obtain ⟨hBound, hUnit, -⟩ := List.findIdx?_eq_some_iff_getElem.mp hFind
  rw [List.length_reverse] at hBound
  rw [beq_iff_eq, List.getElem_reverse] at hUnit
  have hi : i < value.length := by omega
  refine ⟨value.drop (i + 1), ?_⟩
  have hAt : value[i] = u := by
    rw [← hUnit]
    congr 1
    exact hIndex.symm
  rw [← hAt, ← List.drop_eq_getElem_cons hi, List.take_append_drop]

theorem trimEnd_isPrefix (text : JsString) : trimEnd text <+: text := by
  obtain ⟨after, hText, -⟩ := trimEnd_split text
  exact ⟨after, hText.symm⟩

/-- A cut text is a prefix, in units and in code points. -/
theorem keptOf_isPrefix (value : JsString) (limit : Nat) :
    keptOf value limit <+: value ∧
      codePoints (keptOf value limit) <+:
        (codePoints value).take (limit - 1) := by
  have hTake := List.take_prefix (limit - 1) (codePoints value)
  have hCut : encodePoints ((codePoints value).take (limit - 1)) <+: value := by
    refine ⟨encodePoints ((codePoints value).drop (limit - 1)), ?_⟩
    rw [← encodePoints_append, List.take_append_drop, encodePoints_codePoints]
  have hPoints := codePoints_infix hTake.isInfix
  unfold keptOf
  dsimp only
  generalize encodePoints ((codePoints value).take (limit - 1)) = cut at *
  rw [← hPoints]
  -- cutting at a space leaves whole code points on both sides
  have hSpace : ∀ space, lastIndexOf cut (unit ' ') = some space →
      cut.take space <+: cut ∧ codePoints (cut.take space) <+: codePoints cut := by
    intro space hLast
    obtain ⟨after, hText⟩ := lastIndexOf_spec hLast
    refine ⟨List.take_prefix space cut, (unit ' ').toNat :: codePoints after, ?_⟩
    rw [← codePoints_middle _ after (by decide), ← hText]
  have hTrim : ∀ part, part <+: cut ∧ codePoints part <+: codePoints cut →
      trimEnd part <+: value ∧ codePoints (trimEnd part) <+: codePoints cut :=
    fun part hPart => ⟨((trimEnd_isPrefix part).trans hPart.1).trans hCut,
      (codePoints_trimEnd part).trans hPart.2⟩
  apply hTrim
  split
  · split
    · exact hSpace _ ‹_›
    · exact ⟨List.prefix_rfl, List.prefix_rfl⟩
  · exact ⟨List.prefix_rfl, List.prefix_rfl⟩

theorem codePoints_ellipsis (text : JsString) :
    codePoints (text ++ js "…") = codePoints text ++ [0x2026] :=
  codePoints_middle text [] (u := 0x2026) (by decide)

theorem codePointLength_truncate (value : JsString) {limit : Nat}
    (h : 0 < limit) : codePointLength (truncate value limit) ≤ limit := by
  unfold truncate
  split
  · assumption
  · have hLength := (keptOf_isPrefix value limit).2.length_le
    rw [List.length_take] at hLength
    rw [codePointLength, codePoints_ellipsis, List.length_append,
      List.length_singleton]
    omega

/-! ## Where surrogates meet -/

/-- A refused character in a cut text comes from the part that is kept. -/
theorem any_hidden_truncate {value : JsString} (h : Cleared value)
    (limit : Nat) :
    (codePoints (truncate value limit)).any isHidden = true ↔
      MeetsIn isHidden (keptPart value limit) := by
  unfold truncate keptPart
  split
  · exact any_hidden_iff h
  · rw [codePoints_ellipsis, List.any_append, List.any_cons, List.any_nil,
      show isHidden 0x2026 = false by decide, Bool.or_false, Bool.or_false]
    exact any_hidden_iff (h.of_isInfix (keptOf_isPrefix value limit).1.isInfix)

theorem filter_ellipsis (text : JsString) :
    (text ++ js "…").filter (· != unit '\n') =
      text.filter (· != unit '\n') ++ js "…" :=
  List.filter_append ..

/-- The same across lines, whose line feeds the check leaves out. -/
theorem any_hidden_truncate_lines {value : JsString}
    (h : Cleared (value.filter (· != unit '\n'))) (limit : Nat) :
    (codePoints ((truncate value limit).filter (· != unit '\n'))).any isHidden =
        true ↔
      MeetsIn isHidden ((keptPart value limit).filter (· != unit '\n')) := by
  unfold truncate keptPart
  split
  · exact any_hidden_iff h
  · rw [filter_ellipsis, codePoints_ellipsis, List.any_append, List.any_cons,
      List.any_nil, show isHidden 0x2026 = false by decide, Bool.or_false,
      Bool.or_false]
    obtain ⟨after, hText⟩ := (keptOf_isPrefix value limit).1
    refine any_hidden_iff (h.of_isInfix ?_)
    have hWhole := congrArg (List.filter (· != unit '\n')) hText
    rw [List.filter_append] at hWhole
    exact ⟨[], after.filter (· != unit '\n'), hWhole⟩

/-- Two surrogates that no line held side by side spell a refused character,
in what is kept of the title or of the lines of the description. -/
def SurrogatesMeet (text : JsString) : Prop :=
  ∃ first rest, withoutBlankEdges (shownLines text) = first :: rest ∧
    (MeetsIn isHidden (keptPart (trim first) SummaryField.title.limit) ∨
      MeetsIn isHidden
        ((keptPart (joinLines (descriptionLines (trim first) rest))
          SummaryField.description.limit).filter (· != unit '\n')))

theorem cleared_descriptionLines {line : JsString} {rest : List JsString}
    (hLine : Cleared line) (hRest : ∀ l ∈ rest, Cleared l) :
    Cleared ((joinLines (descriptionLines line rest)).filter
      (· != unit '\n')) := by
  intro u hu
  obtain ⟨hMem, hFeed⟩ := List.mem_filter.mp hu
  rcases mem_joinLines hMem with hEq | ⟨l, hl, hUnit⟩
  · rw [hEq] at hFeed
    exact absurd hFeed (by decide)
  · have hSource := withoutBlankEdges_subset _ hl
    split at hSource
    · exact hRest l hSource u hUnit
    · rcases List.mem_cons.mp hSource with hEq | hOther
      · exact hLine u (hEq ▸ hUnit)
      · exact hRest l hOther u hUnit

theorem fits_migratedLink {link : Unknown} {text : JsString}
    (h : migratedLink link = some text) : Fits .link text := by
  unfold migratedLink at h
  split at h
  · split_ifs at h with hFits
    rw [← Option.some.inj h]
    exact ⟨hFits.2.1, hFits.2.2⟩
  · cases h

/-- A shortened title is not blank. -/
theorem trim_truncate_ne_nil {line : JsString} {limit : Nat}
    (h : trim line ≠ []) : trim (truncate line limit) ≠ [] := by
  unfold truncate
  split
  · exact h
  · exact trim_ne_nil ⟨0x2026, List.mem_append_right _ List.mem_cons_self,
      by decide⟩

theorem trim_trim_ne_nil {line : JsString} (h : trim line ≠ []) :
    trim (trim line) ≠ [] := by
  rcases trim_cases line with hEmpty | ⟨u, rest, hVisible, hText⟩
  · exact absurd hEmpty h
  · exact trim_ne_nil ⟨u, by rw [hText]; exact List.mem_cons_self, hVisible⟩

/-- The parser accepts a migrated summary, and returns it unchanged, unless
two surrogates meet in it. -/
theorem migrateLegacyGrantSummary_valid_iff {legacy : LegacySummary}
    {summary : GrantSummary}
    (h : migrateLegacyGrantSummary legacy = some summary) :
    parseGrantSummary (some summary.value) = .ok (some summary) ↔
      ¬SurrogatesMeet legacy.text := by
  rw [parseGrantSummary_iff]
  unfold migrateLegacyGrantSummary at h
  split at h
  · cases h
  · rename_i first rest hLines
    have hVisible := withoutBlankEdges_head hLines
    have hShown : ∀ l ∈ first :: rest, Cleared l := fun l hl =>
      cleared_of_mem_shownLines
        (withoutBlankEdges_subset _ (hLines ▸ hl))
    have hLine : Cleared (trim first) :=
      (hShown first List.mem_cons_self).of_isInfix (trim_isInfix first)
    have hTitle := any_hidden_truncate hLine SummaryField.title.limit
    have hDescription := any_hidden_truncate_lines
      (cleared_descriptionLines hLine
        fun l hl => hShown l (List.mem_cons_of_mem _ hl))
      SummaryField.description.limit
    have hMeet : SurrogatesMeet legacy.text ↔ _ ∨ _ :=
      ⟨fun ⟨_, _, hEq, hPair⟩ => by
        rw [hLines] at hEq
        obtain ⟨rfl, rfl⟩ := List.cons.inj hEq
        exact hPair, fun hPair => ⟨first, rest, hLines, hPair⟩⟩
    rw [hMeet, ← hTitle, ← hDescription]
    split_ifs at h
    cases h
    generalize joinLines (descriptionLines (trim first) rest) = description
    constructor
    · rintro hValid (hHidden | hHidden)
      · have hTitleShown : (codePoints (truncate (trim first)
            SummaryField.title.limit)).any isHidden = false :=
          (hValid.fits .title _ rfl).shown
        rw [hTitleShown] at hHidden
        cases hHidden
      · by_cases hEmpty : description = []
        · rw [hEmpty] at hHidden
          exact absurd hHidden (by decide)
        · have hShownLines : (codePoints ((truncate description
              SummaryField.description.limit).filter (· != unit '\n'))).any
              isHidden = false :=
            (hValid.fits .description _ (if_neg hEmpty)).shown
          rw [hShownLines] at hHidden
          cases hHidden
    · intro hFree
      rw [not_or] at hFree
      refine ⟨trim_truncate_ne_nil (trim_trim_ne_nil hVisible),
        fun field text hText => ?_⟩
      cases field with
      | title =>
          rw [← Option.some.inj hText]
          exact ⟨codePointLength_truncate _ (by decide),
            Bool.eq_false_iff.mpr hFree.1⟩
      | description =>
          by_cases hEmpty : description = []
          · rw [GrantSummary.get, if_pos hEmpty] at hText
            cases hText
          · rw [GrantSummary.get, if_neg hEmpty] at hText
            rw [← Option.some.inj hText]
            exact ⟨codePointLength_truncate _ (by decide),
              Bool.eq_false_iff.mpr hFree.2⟩
      | origin => cases hText
      | link => exact fits_migratedLink hText

theorem migrateLegacyGrantSummary_valid_iff_plain :
    parseGrantSummary (some (GrantSummary.mk (js "Pay now") none none
        none).value) =
      .ok (some ⟨js "Pay now", none, none, none⟩) ↔
        ¬SurrogatesMeet (js "Pay\tnow") :=
  @migrateLegacyGrantSummary_valid_iff ⟨js "Pay\tnow", none⟩ _ (by decide)

/-- A zero-width space between two surrogates: without it they spell a
language tag. -/
theorem migrateLegacyGrantSummary_tag :
    migrateLegacyGrantSummary ⟨[unit 'P', 0xDB40, 0x200B, 0xDC01], none⟩ =
        some ⟨[unit 'P', 0xDB40, 0xDC01], none, none, none⟩ ∧
      parseGrantSummary (some (GrantSummary.mk [unit 'P', 0xDB40, 0xDC01] none
        none none).value) =
          .error (js
            "summary.title must not contain control or format characters") :=
  ⟨by decide, by rfl⟩

end OpenApe.Ports.RequestSummary
