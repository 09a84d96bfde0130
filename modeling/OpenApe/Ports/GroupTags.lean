import OpenApe.Verified.Fallible
import OpenApe.Verified.KeyedTable
import OpenApe.Verified.TextCut
import Mathlib.Data.List.DropRight

/-!
# Groups that become tags (`worker/storage/convert.ts`, `pods-protocol/tags.ts`)

A group name is lower-cased, hyphenated and cut to 32 units, and a strict
check follows.  A cut inside a surrogate pair leaves a half that the check
refuses, and the migration of the whole database stops (`groupTag_eq`).  Where
no cut does that, each membership becomes a tag or is recorded as skipped
(`convertGroups_spec`).
-/

namespace OpenApe.Ports.GroupTags

open Verified.Fallible Verified.JsText Verified.KeyedTable
open Verified.Unicode (asciiLower asciiLower_asciiLower codePoints
  isHighSurrogate isSurrogate map_asciiLower_eq_self_iff)
open Verified.CodePoints Verified.TextCut

/-! ## The source -/

/-- What the language knows of Unicode. -/
structure UnicodeTables where
  /-- `text.normalize('NFC')` -/
  normalizeNfc : JsString → JsString
  /-- `text.toLocaleLowerCase('de')` -/
  toLowerDe : JsString → JsString
  /-- `[\p{L}\p{N}]` -/
  isLetterOrNumber : Nat → Bool

/-- White space as a character. -/
def isWhite (c : Nat) : Bool := decide (c < 0x10000) && isTrimmed c.toUInt16

/-- What the code relies on: lower-case characters, hyphens and halves of
pairs stay what they are in lower case, and letters and numbers are no
hyphens, no white space and no halves of pairs. -/
structure UnicodeTables.Lawful (tables : UnicodeTables) : Prop where
  lower : ∀ text lowered : JsString,
    (∀ c ∈ codePoints lowered, c ∈ codePoints (tables.toLowerDe text) ∨
      c = 0x2D ∨ isSurrogate c = true) →
    tables.toLowerDe lowered = lowered
  letter : ∀ c, tables.isLetterOrNumber c = true →
    c ≠ 0x2D ∧ isWhite c = false ∧ isSurrogate c = false

/-- `tagLimits` -/
def perItem : Nat := 8

def tagLength : Nat := 32

section Tags

variable (tables : UnicodeTables)

/-- `/^[\p{L}\p{N}][\p{L}\p{N}-]*$/u.test(tag)` -/
def tagPattern (tag : JsString) : Bool :=
  match codePoints tag with
  | [] => false
  | c :: rest => tables.isLetterOrNumber c &&
      rest.all fun c => tables.isLetterOrNumber c || c == 0x2D

def normalizeTag (value : JsString) : Except JsString JsString :=
  let tag := replaceRuns isTrimmed (unit '-') false
    (tables.toLowerDe (trim value))
  if tag = [] ∨ tagLength < tag.length ∨ tagPattern tables tag = false then
    .error (js "Invalid tag")
  else .ok tag

/-- The name's words with hyphens between them, none in front. -/
def hyphenated (name : JsString) : JsString :=
  (encodePoints (replaceRuns (fun c => !tables.isLetterOrNumber c) 0x2D false
    (codePoints (tables.toLowerDe (tables.normalizeNfc name))))).dropWhile
      (· == unit '-')

/-- The text without the hyphens at its end. -/
def withoutLastHyphens (text : JsString) : JsString :=
  text.rdropWhile (· == unit '-')

def groupTag (name : JsString) : Except JsString (Option JsString) :=
  let tag := withoutLastHyphens ((hyphenated tables name).take tagLength)
  if tag = [] then .ok none
  else (normalizeTag tables tag).map some

end Tags

/-- A row of `item_tags`. -/
structure ItemTags where
  id : JsString
  tags : List JsString
  revision : Nat
  updatedAt : Nat

structure Group where
  id : JsString
  name : JsString

structure Membership where
  podId : JsString
  groupId : JsString

/-- The tables that the step reads, under the keys of the schema. -/
structure Database where
  groups : Table Group.id
  memberships : Table Membership.podId
  itemTags : Table ItemTags.id
  groupExists : ∀ m ∈ memberships.rows, (groups.find? m.groupId).isSome

/-- A row of the join, in the order of the memberships. -/
structure Row where
  podId : JsString
  group : JsString

def Database.rows (db : Database) : List Row :=
  db.memberships.rows.filterMap fun m =>
    (db.groups.find? m.groupId).map fun g => ⟨m.podId, g.name⟩

inductive Reason where
  | noTag
  | tagLimit
  deriving DecidableEq

structure Skipped where
  podId : JsString
  group : JsString
  reason : Reason

/-- What counting in a plain object gives: `constructor` starts with an
inherited function, and adding to it makes a text. -/
inductive Tally where
  | number (n : Nat)
  | text (s : JsString)

def Tally.next : Tally → Tally
  | .number n => .number (n + 1)
  | .text s => .text (s ++ js "1")

/-- `tags[tag] ?? 0` -/
def tallyOf (tags : List (JsString × Tally)) (tag : JsString) : Tally :=
  match tags.find? fun entry => entry.1 = tag with
  | some entry => entry.2
  | none =>
      if tag = js "constructor" then
        .text (js "function Object() \x7b [native code] \x7d")
      else .number 0

def countTag (tags : List (JsString × Tally)) (tag : JsString) :
    List (JsString × Tally) :=
  let next := (tallyOf tags tag).next
  if tags.any fun entry => entry.1 = tag then
    tags.map fun entry => if entry.1 = tag then (tag, next) else entry
  else tags ++ [(tag, next)]

/-- What the loop carries. -/
structure Progress where
  itemTags : Table ItemTags.id
  tags : List (JsString × Tally)
  skipped : List Skipped
  migrated : List (JsString × JsString)

/-- `own ? JSON.parse(own.tags) : []` -/
def tagsOf (itemTags : Table ItemTags.id) (id : JsString) : List JsString :=
  ((itemTags.find? id).map ItemTags.tags).getD []

/-- `INSERT … ON CONFLICT(id) DO UPDATE` -/
def writeTags (now : Nat) (itemTags : Table ItemTags.id) (id : JsString)
    (tags : List JsString) : Table ItemTags.id :=
  let revision := ((itemTags.find? id).map ItemTags.revision).getD 0
  itemTags.put ⟨id, tags, revision + 1, now⟩

section Conversion

variable (tables : UnicodeTables) (now : Nat)

/-- One membership. -/
def convertRow (s : Progress) (row : Row) : Except JsString Progress := do
  match ← groupTag tables row.group with
  | none =>
      return { s with
        skipped := s.skipped ++ [⟨row.podId, row.group, .noTag⟩] }
  | some tag =>
      let current := tagsOf s.itemTags row.podId
      if tag ∉ current ∧ perItem ≤ current.length then
        return { s with
          skipped := s.skipped ++ [⟨row.podId, row.group, .tagLimit⟩] }
      else
        return { s with
          itemTags := if tag ∉ current then
              writeTags now s.itemTags row.podId (current ++ [tag])
            else s.itemTags
          tags := countTag s.tags tag
          migrated := s.migrated ++ [(row.podId, tag)] }

structure GroupsReceipt where
  tags : List (JsString × Tally)
  skipped : List Skipped

/-- The tags after the step, and its receipt. -/
def convertGroups (db : Database) :
    Except JsString (Table ItemTags.id × GroupsReceipt) := do
  let s ← db.rows.foldlM (convertRow tables now) ⟨db.itemTags, [], [], []⟩
  if s.migrated.any fun entry => entry.2 ∉ tagsOf s.itemTags entry.1 then
    .error (js "A group membership did not become a tag")
  else return (s.itemTags, ⟨s.tags, s.skipped⟩)

end Conversion

/-! ## The name of a group -/

section Names

variable (tables : UnicodeTables)

/-- A name becomes no tag or one that the check leaves as it is. -/
def Named (name : JsString) : Prop :=
  ∃ tag?, groupTag tables name = .ok tag? ∧
    ∀ tag, tag? = some tag → normalizeTag tables tag = .ok tag

/-- No surrogate pair is cut in two behind the 32nd unit. -/
def WholeCut (name : JsString) : Prop :=
  ∀ u, ((hyphenated tables name).take tagLength).getLast? = some u →
    isHighSurrogate u = false

/-- A character of a hyphenated name. -/
def Word (name : JsString) (c : Nat) : Prop :=
  c = 0x2D ∨ (c ∈ codePoints (tables.toLowerDe (tables.normalizeNfc name)) ∧
    tables.isLetterOrNumber c = true)

variable {tables} {name : JsString}

theorem Word.scalar (h : tables.Lawful) {c : Nat} (hc : Word tables name c) :
    c < 0x110000 ∧ isSurrogate c = false := by
  rcases hc with rfl | ⟨hMem, hLetter⟩
  · decide
  · exact ⟨(separate_codePoints _).1 c hMem, (h.letter c hLetter).2.2⟩

theorem Word.visible (h : tables.Lawful) {c : Nat} (hc : Word tables name c) :
    isWhite c = false := by
  rcases hc with rfl | ⟨-, hLetter⟩
  · decide
  · exact (h.letter c hLetter).2.1

theorem encodePoint_hyphen : encodePoint 0x2D = [unit '-'] := by decide

/-- Only a hyphen is spelled with a hyphen in front. -/
theorem head_encodePoint_ne {c : Nat} (hBound : c < 0x110000)
    (hc : c ≠ 0x2D) :
    ∃ u rest, encodePoint c = u :: rest ∧ u ≠ unit '-' := by
  obtain ⟨u, rest, hText⟩ := List.exists_cons_of_ne_nil (encodePoint_ne_nil c)
  refine ⟨u, rest, hText, ?_⟩
  rintro rfl
  have hMem : unit '-' ∈ encodePoint c := hText ▸ List.mem_cons_self
  rcases mem_encodePoint hBound hMem with hSame | hSurrogate
  · exact hc hSame.symm
  · revert hSurrogate
    decide

/-- The words of a name, character by character. -/
theorem hyphenated_eq (h : tables.Lawful) (name : JsString) :
    ∃ points, hyphenated tables name = encodePoints points ∧
      (∀ c ∈ points, Word tables name c) ∧
      ∀ c, points.head? = some c → c ≠ 0x2D := by
  have hWord : ∀ c ∈ replaceRuns (fun c => !tables.isLetterOrNumber c) 0x2D
      false (codePoints (tables.toLowerDe (tables.normalizeNfc name))),
      Word tables name c := by
    intro c hc
    refine (mem_replaceRuns hc).imp_right (And.imp_right fun hLetter => ?_)
    rwa [Bool.not_eq_false'] at hLetter
  rw [hyphenated]
  generalize replaceRuns (fun c => !tables.isLetterOrNumber c) 0x2D false
    (codePoints (tables.toLowerDe (tables.normalizeNfc name))) = points at hWord
  induction points with
  | nil =>
      exact ⟨[], rfl, List.forall_mem_nil _, fun _ hNone => (by cases hNone)⟩
  | cons c points ih =>
      obtain ⟨hFirst, hRest⟩ := List.forall_mem_cons.mp hWord
      by_cases hc : c = 0x2D
      · obtain ⟨points', hSame, hAll⟩ := ih hRest
        refine ⟨points', ?_, hAll⟩
        rw [← hSame, encodePoints_cons, hc, encodePoint_hyphen]
        exact List.dropWhile_cons_of_pos (beq_self_eq_true _)
      · have hBound := (hFirst.scalar h).1
        obtain ⟨u, rest, hText, hu⟩ := head_encodePoint_ne hBound hc
        refine ⟨c :: points, ?_, hWord, fun d hd => ?_⟩
        · rw [encodePoints_cons, hText, List.cons_append]
          exact List.dropWhile_cons_of_neg (fun hSame => hu (eq_of_beq hSame))
        · rw [← Option.some.inj hd]
          exact hc

/-- What a cut leaves: whole characters, or half a pair behind them. -/
theorem take_hyphenated (h : tables.Lawful) (name : JsString) :
    ∃ points, (∀ c ∈ points, Word tables name c) ∧
      (∀ c, points.head? = some c → c ≠ 0x2D) ∧
      ((WholeCut tables name ∧
          (hyphenated tables name).take tagLength = encodePoints points) ∨
        (¬WholeCut tables name ∧ ∃ u, isHighSurrogate u = true ∧
          (hyphenated tables name).take tagLength =
            encodePoints points ++ [u])) := by
  obtain ⟨points, hText, hWord, hHead⟩ := hyphenated_eq h name
  have hScalars : Scalars points := fun c hc => (hWord c hc).scalar h
  obtain ⟨k, hCut⟩ := take_encodePoints hScalars tagLength
  rw [← hText] at hCut
  have hTake : ∀ c, (points.take k).head? = some c → c ≠ 0x2D := by
    intro c hc
    cases k with
    | zero => cases hc
    | succ k =>
        cases points with
        | nil => cases hc
        | cons d points => exact hHead c hc
  refine ⟨points.take k, fun c hc => hWord c (List.mem_of_mem_take hc), hTake,
    ?_⟩
  rcases hCut with hWhole | ⟨u, hu, hHalf⟩
  · refine Or.inl ⟨fun u hLast => ?_, hWhole⟩
    rw [hWhole] at hLast
    exact isHighSurrogate_last (hScalars.take k) hLast
  · refine Or.inr ⟨fun hCut => ?_, u, hu, hHalf⟩
    have hNot := hCut u (by rw [hHalf]; exact List.getLast?_concat)
    rw [hu] at hNot
    cases hNot

/-- Only hyphens are dropped. -/
theorem withoutLastHyphens_spec (text : JsString) :
    ∃ hyphens, text = withoutLastHyphens text ++ hyphens ∧
      (∀ u ∈ hyphens, u = unit '-') :=
  ⟨text.rtakeWhile (· == unit '-'), (List.rdropWhile_append_rtakeWhile).symm,
    fun _ hu => eq_of_beq
      (List.mem_rtakeWhile_imp (p := (· == unit '-')) hu)⟩

theorem withoutLastHyphens_eq_self {text : JsString} {u : CodeUnit}
    (hu : u ≠ unit '-') :
    withoutLastHyphens (text ++ [u]) = text ++ [u] :=
  List.rdropWhile_concat_neg _ _ _ fun hSame => hu (eq_of_beq hSame)

/-- White space is read as white space. -/
theorem mem_codePoints_of_isTrimmed {s : JsString} {u : CodeUnit} (hMem : u ∈ s)
    (hu : isTrimmed u = true) :
    u.toNat ∈ codePoints s ∧ isWhite u.toNat = true := by
  constructor
  · exact mem_codePoints_of_mem hMem
      (Verified.Unicode.surrogate_of_isTrimmed hu)
  · have hBound : u.toNat < 0x10000 := u.toNat_lt
    have hUnit : u.toNat.toUInt16 = u := UInt16.ofNat_toNat
    rw [isWhite, decide_eq_true hBound, Bool.true_and, hUnit]
    exact hu

theorem isWhite_of_isSurrogate {c : Nat} (h : isSurrogate c = true) :
    isWhite c = false := by
  rw [← Bool.not_eq_true]
  intro hWhite
  rw [isWhite, Bool.and_eq_true, decide_eq_true_iff] at hWhite
  obtain ⟨hBound, hTrimmed⟩ := hWhite
  obtain ⟨hHigh, hLow⟩ := Verified.Unicode.surrogate_of_isTrimmed hTrimmed
  rw [isSurrogate, Bool.and_eq_true, decide_eq_true_iff,
    decide_eq_true_iff] at h
  have hNat : c.toUInt16.toNat = c := UInt16.toNat_ofNat_of_lt' hBound
  rw [Bool.eq_false_iff, Ne, isHighSurrogate_iff, hNat] at hHigh
  rw [Bool.eq_false_iff, Ne, isLowSurrogate_iff, hNat] at hLow
  omega

/-- The check leaves the words of a name as they are, or refuses them. -/
theorem normalizeTag_eq (h : tables.Lawful) {tag : JsString} (hSome : tag ≠ [])
    (hLength : tag.length ≤ tagLength)
    (hWords : ∀ c ∈ codePoints tag, Word tables name c ∨ isSurrogate c = true) :
    normalizeTag tables tag = if tagPattern tables tag = true then .ok tag
      else .error (js "Invalid tag") := by
  have hVisible : ∀ u ∈ tag, isTrimmed u = false := by
    intro u hu
    rw [← Bool.not_eq_true]
    intro hTrimmed
    obtain ⟨hMem, hWhite⟩ := mem_codePoints_of_isTrimmed hu hTrimmed
    rcases hWords _ hMem with hWord | hSurrogate
    · rw [hWord.visible h] at hWhite
      cases hWhite
    · rw [isWhite_of_isSurrogate hSurrogate] at hWhite
      cases hWhite
  have hDrop : ∀ s : JsString, (∀ u ∈ s, isTrimmed u = false) →
      s.dropWhile isTrimmed = s := by
    intro s hs
    cases s with
    | nil => rfl
    | cons u s =>
        exact List.dropWhile_cons_of_neg
          (Bool.eq_false_iff.mp (hs u List.mem_cons_self))
  have hTrim : trim tag = tag := by
    rw [trim, trimEnd, hDrop tag hVisible,
      hDrop tag.reverse fun u hu => hVisible u (List.mem_reverse.mp hu),
      List.reverse_reverse]
  have hLower : tables.toLowerDe tag = tag := by
    refine h.lower (tables.normalizeNfc name) tag fun c hc => ?_
    rcases hWords c hc with (hHyphen | hLetter) | hSurrogate
    · exact Or.inr (Or.inl hHyphen)
    · exact Or.inl hLetter.1
    · exact Or.inr (Or.inr hSurrogate)
  have hShort : ¬tagLength < tag.length := Nat.not_lt.mpr hLength
  rw [normalizeTag, hTrim, hLower, replaceRuns_eq_self hVisible]
  cases hPattern : tagPattern tables tag with
  | true =>
      rw [if_pos rfl]
      exact if_neg (by simp [hSome, hShort])
  | false =>
      rw [if_neg Bool.false_ne_true]
      exact if_pos (Or.inr (Or.inr rfl))

/-- Words pass the pattern. -/
theorem tagPattern_words {tag : JsString} (hSome : tag ≠ [])
    (hWords : ∀ c ∈ codePoints tag, Word tables name c)
    (hHead : ∀ c, (codePoints tag).head? = some c → c ≠ 0x2D) :
    tagPattern tables tag = true := by
  rw [tagPattern]
  cases hPoints : codePoints tag with
  | nil =>
      have hText := encodePoints_codePoints tag
      rw [hPoints] at hText
      exact absurd hText.symm hSome
  | cons c rest =>
      rw [hPoints] at hWords hHead
      obtain ⟨hFirst, hRest⟩ := List.forall_mem_cons.mp hWords
      have hLetter := (hFirst.resolve_left (hHead c rfl)).2
      show (_ && _) = true
      rw [hLetter, Bool.true_and, List.all_eq_true]
      intro d hd
      rcases hRest d hd with hHyphen | hWord
      · rw [beq_iff_eq.mpr hHyphen, Bool.or_true]
      · rw [hWord.2, Bool.true_or]

/-- Half a pair does not pass the pattern. -/
theorem tagPattern_half (h : tables.Lawful) {text : JsString} {u : CodeUnit}
    (hu : isHighSurrogate u = true) :
    tagPattern tables (text ++ [u]) = false := by
  have hSurrogate := isSurrogate_of_isHighSurrogate hu
  have hLetter : tables.isLetterOrNumber u.toNat = false := by
    rw [← Bool.not_eq_true]
    intro hLetter
    rw [(h.letter _ hLetter).2.2] at hSurrogate
    cases hSurrogate
  have hHyphen : (u.toNat == 0x2D) = false := by
    rw [beq_eq_false_iff_ne]
    intro hSame
    rw [hSame] at hSurrogate
    revert hSurrogate
    decide
  rw [tagPattern, codePoints_half hu]
  cases codePoints text with
  | nil =>
      show (tables.isLetterOrNumber u.toNat && _) = false
      rw [hLetter, Bool.false_and]
  | cons c rest =>
      show (_ && (rest ++ [u.toNat]).all _) = false
      rw [List.all_append, List.all_cons, hLetter, hHyphen]
      simp

theorem length_withoutLastHyphens_le (text : JsString) :
    (withoutLastHyphens text).length ≤ text.length :=
  (List.rdropWhile_prefix _ _).length_le

theorem length_cutTag_le (tables : UnicodeTables) (name : JsString) :
    (withoutLastHyphens ((hyphenated tables name).take tagLength)).length ≤
      tagLength :=
  (length_withoutLastHyphens_le _).trans (List.length_take_le _ _)

/-- Whole characters become a tag that stays what it is, or none. -/
theorem named_of_wholeCut (h : tables.Lawful) (hWhole : WholeCut tables name) :
    Named tables name := by
  have hLength := length_cutTag_le tables name
  obtain ⟨points, hWord, hHead, ⟨-, hText⟩ | ⟨hHalf, -⟩⟩ :=
    take_hyphenated h name
  · rw [hText] at hLength
    obtain ⟨hyphens, hSplit, hHyphens⟩ :=
      withoutLastHyphens_spec (encodePoints points)
    have hApart : Apart (withoutLastHyphens (encodePoints points)) hyphens := by
      refine apart_of_head fun v hv => ?_
      rw [hHyphens v (List.mem_of_mem_head? hv)]
      decide
    have hScalars : Scalars points := fun c hc => (hWord c hc).scalar h
    have hPoints : points = codePoints
        (withoutLastHyphens (encodePoints points)) ++ codePoints hyphens := by
      rw [← codePoints_append hApart, ← hSplit, hScalars.read]
    rw [Named, groupTag, hText]
    generalize withoutLastHyphens (encodePoints points) = tag at *
    by_cases hNil : tag = []
    · exact ⟨none, if_pos hNil, fun _ hNone => by cases hNone⟩
    · have hWords : ∀ c ∈ codePoints tag, Word tables name c := by
        intro c hc
        refine hWord c ?_
        rw [hPoints]
        exact List.mem_append_left _ hc
      have hFirst : ∀ c, (codePoints tag).head? = some c → c ≠ 0x2D := by
        intro c hc
        refine hHead c ?_
        rw [hPoints, List.head?_append, hc]
        rfl
      have hCheck := normalizeTag_eq h hNil hLength
        fun c hc => Or.inl (hWords c hc)
      rw [tagPattern_words hNil hWords hFirst, if_pos rfl] at hCheck
      refine ⟨some tag, ?_, fun other hSame => ?_⟩
      · rw [if_neg hNil, hCheck]
        rfl
      · rw [← Option.some.inj hSame]
        exact hCheck
  · exact absurd hWhole hHalf

/-- Half a pair at the cut makes the check throw. -/
theorem groupTag_of_not_wholeCut (h : tables.Lawful)
    (hCut : ¬WholeCut tables name) :
    groupTag tables name = .error (js "Invalid tag") := by
  have hLength := length_cutTag_le tables name
  obtain ⟨points, hWord, -, ⟨hWhole, -⟩ | ⟨-, u, hu, hText⟩⟩ :=
    take_hyphenated h name
  · exact absurd hWhole hCut
  · have hOther : u ≠ unit '-' := by
      rintro rfl
      revert hu
      decide
    rw [hText, withoutLastHyphens_eq_self hOther] at hLength
    have hNil : encodePoints points ++ [u] ≠ [] :=
      List.append_ne_nil_of_right_ne_nil _ (List.cons_ne_nil _ _)
    have hWords : ∀ c ∈ codePoints (encodePoints points ++ [u]),
        Word tables name c ∨ isSurrogate c = true := by
      intro c hc
      have hScalars : Scalars points := fun c hc => (hWord c hc).scalar h
      rw [codePoints_half hu, hScalars.read] at hc
      rcases List.mem_append.mp hc with hPoint | hLast
      · exact Or.inl (hWord c hPoint)
      · rw [List.mem_singleton.mp hLast]
        exact Or.inr (isSurrogate_of_isHighSurrogate hu)
    have hCheck := normalizeTag_eq h hNil hLength hWords
    rw [tagPattern_half h hu, if_neg Bool.false_ne_true] at hCheck
    rw [groupTag, hText, withoutLastHyphens_eq_self hOther, if_neg hNil, hCheck]
    rfl

/-- A name becomes a tag that stays what it is, or none, unless the cut takes
a pair apart. -/
theorem named_iff (h : tables.Lawful) (name : JsString) :
    Named tables name ↔ WholeCut tables name := by
  constructor
  · rintro ⟨tag?, hTag, -⟩
    by_contra hCut
    rw [groupTag_of_not_wholeCut h hCut] at hTag
    cases hTag
  · exact named_of_wholeCut h

/-- A tag is checked and short. -/
theorem tag_of_groupTag (h : tables.Lawful) {tag : JsString}
    (hTag : groupTag tables name = .ok (some tag)) :
    normalizeTag tables tag = .ok tag ∧ tag.length ≤ tagLength := by
  have hWhole : WholeCut tables name := by
    by_contra hCut
    rw [groupTag_of_not_wholeCut h hCut] at hTag
    cases hTag
  obtain ⟨tag?, hSame, hCheck⟩ := named_of_wholeCut h hWhole
  rw [hTag] at hSame
  have hTagged := hCheck tag (Except.ok.inj hSame).symm
  refine ⟨hTagged, ?_⟩
  rw [normalizeTag] at hTagged
  split at hTagged
  · cases hTagged
  · rename_i hLimits
    rw [Except.ok.inj hTagged] at hLimits
    exact Nat.not_lt.mp fun hLong => hLimits (Or.inr (Or.inl hLong))

end Names

/-! ## The memberships -/

section Memberships

variable (tables : UnicodeTables)

/-- The item has the tag of the group. -/
def Placed (itemTags : Table ItemTags.id) (row : Row) : Prop :=
  ∃ tag, groupTag tables row.group = .ok (some tag) ∧
    tag ∈ tagsOf itemTags row.podId

/-- The receipt names the membership as skipped. -/
def Recorded (skipped : List Skipped) (row : Row) : Prop :=
  ∃ reason, ⟨row.podId, row.group, reason⟩ ∈ skipped

/-- Each list keeps its tags, and new ones stay within the limits. -/
def Extends (before after : Table ItemTags.id) : Prop :=
  ∀ id, ∃ added, tagsOf after id = tagsOf before id ++ added ∧
    (∀ tag ∈ added, normalizeTag tables tag = .ok tag ∧
      tag.length ≤ tagLength) ∧
    (added ≠ [] → (tagsOf after id).length ≤ perItem)

/-- Each member item has the tag of its group or is recorded as skipped, and
no list grows past its limit. -/
structure Converted (db : Database) (itemTags : Table ItemTags.id)
    (receipt : GroupsReceipt) : Prop where
  each : ∀ m ∈ db.memberships.rows, ∀ g ∈ db.groups.rows, g.id = m.groupId →
    Xor (Placed tables itemTags ⟨m.podId, g.name⟩)
      (Recorded receipt.skipped ⟨m.podId, g.name⟩)
  limits : Extends tables db.itemTags itemTags

/-- The step succeeds and converts every membership. -/
def Converts (now : Nat) (db : Database) : Prop :=
  ∃ itemTags receipt, convertGroups tables now db = .ok (itemTags, receipt) ∧
    Converted tables db itemTags receipt

variable {tables}

theorem tagsOf_writeTags (now : Nat) (itemTags : Table ItemTags.id)
    (id : JsString) (tags : List JsString) (other : JsString) :
    tagsOf (writeTags now itemTags id tags) other =
      if other = id then tags else tagsOf itemTags other := by
  rw [tagsOf, writeTags, Table.find?_put]
  split
  · rfl
  · rfl

/-- Why a membership was skipped still holds. -/
def Justified (tables : UnicodeTables) (itemTags : Table ItemTags.id)
    (s : Skipped) : Prop :=
  match s.reason with
  | .noTag => groupTag tables s.group = .ok none
  | .tagLimit => ∃ tag, groupTag tables s.group = .ok (some tag) ∧
      tag ∉ tagsOf itemTags s.podId ∧
      perItem ≤ (tagsOf itemTags s.podId).length

/-- What holds after each membership. -/
structure Inv (tables : UnicodeTables) (before : Table ItemTags.id)
    (done : List Row) (s : Progress) : Prop where
  each : ∀ row ∈ done,
    Placed tables s.itemTags row ∨ Recorded s.skipped row
  justified : ∀ entry ∈ s.skipped, Justified tables s.itemTags entry
  migrated : ∀ entry ∈ s.migrated, entry.2 ∈ tagsOf s.itemTags entry.1
  limits : Extends tables before s.itemTags

theorem Inv.initial (tables : UnicodeTables) (itemTags : Table ItemTags.id) :
    Inv tables itemTags [] ⟨itemTags, [], [], []⟩ where
  each _ h := by cases h
  justified _ h := by cases h
  migrated _ h := by cases h
  limits id := ⟨[], (List.append_nil _).symm, List.forall_mem_nil _,
    fun h => absurd rfl h⟩

/-- A justified entry is not placed. -/
theorem Justified.not_placed {itemTags : Table ItemTags.id} {s : Skipped}
    (h : Justified tables itemTags s) :
    ¬Placed tables itemTags ⟨s.podId, s.group⟩ := by
  obtain ⟨podId, group, reason⟩ := s
  rintro ⟨tag, hTag, hMem⟩
  cases reason with
  | noTag =>
      have hNone : groupTag tables group = .ok none := h
      rw [show groupTag tables group = .ok (some tag) from hTag] at hNone
      cases hNone
  | tagLimit =>
      obtain ⟨other, hOther, hFree, -⟩ := h
      rw [show groupTag tables group = .ok (some tag) from hTag] at hOther
      cases hOther
      exact hFree hMem

/-- One more entry for a membership that is skipped. -/
theorem Inv.skip {before : Table ItemTags.id} {done : List Row} {s : Progress}
    (h : Inv tables before done s) (row : Row) {reason : Reason}
    (hWhy : Justified tables s.itemTags ⟨row.podId, row.group, reason⟩) :
    Inv tables before (done ++ [row]) { s with
      skipped := s.skipped ++ [⟨row.podId, row.group, reason⟩] } where
  each other hMem := by
    rcases List.mem_append.mp hMem with hOld | hNew
    · rcases h.each other hOld with hPlaced | ⟨why, hEntry⟩
      · exact Or.inl hPlaced
      · exact Or.inr ⟨why, List.mem_append_left _ hEntry⟩
    · rw [List.mem_singleton.mp hNew]
      exact Or.inr ⟨reason, List.mem_append_right _ List.mem_cons_self⟩
  justified entry hMem := by
    rcases List.mem_append.mp hMem with hOld | hNew
    · exact h.justified entry hOld
    · rw [List.mem_singleton.mp hNew]
      exact hWhy
  migrated := h.migrated
  limits := h.limits

/-- A list that a tag is added to had room, so no entry loses its reason. -/
theorem Justified.writeTags {itemTags : Table ItemTags.id} {entry : Skipped}
    (h : Justified tables itemTags entry) (now : Nat) {podId tag : JsString}
    (hRoom : (tagsOf itemTags podId).length < perItem) :
    Justified tables (writeTags now itemTags podId
      (tagsOf itemTags podId ++ [tag])) entry := by
  obtain ⟨entryPod, group, reason⟩ := entry
  cases reason with
  | noTag => exact h
  | tagLimit =>
      obtain ⟨other, hTag, hFree, hFull⟩ := h
      have hPod : entryPod ≠ podId := by
        rintro rfl
        exact absurd hFull (Nat.not_le.mpr hRoom)
      refine ⟨other, hTag, ?_⟩
      rw [tagsOf_writeTags, if_neg hPod]
      exact ⟨hFree, hFull⟩

/-- Tags that an item has are not taken away. -/
theorem mem_tagsOf_writeTags {itemTags : Table ItemTags.id} (now : Nat)
    {podId tag other : JsString} {id : JsString}
    (h : other ∈ tagsOf itemTags id) :
    other ∈ tagsOf
      (writeTags now itemTags podId (tagsOf itemTags podId ++ [tag])) id := by
  rw [tagsOf_writeTags]
  split
  · rename_i hSame
    rw [hSame] at h
    exact List.mem_append_left _ h
  · exact h

theorem Extends.writeTags {before itemTags : Table ItemTags.id}
    (h : Extends tables before itemTags) (now : Nat) {podId tag : JsString}
    (hRoom : (tagsOf itemTags podId).length < perItem)
    (hTag : normalizeTag tables tag = .ok tag ∧ tag.length ≤ tagLength) :
    Extends tables before
      (writeTags now itemTags podId (tagsOf itemTags podId ++ [tag])) := by
  intro id
  rw [tagsOf_writeTags]
  split
  · rename_i hSame
    obtain ⟨added, hList, hAdded, -⟩ := h podId
    refine ⟨added ++ [tag], ?_, fun other hMem => ?_, fun _ => ?_⟩
    · rw [hSame, hList, List.append_assoc]
    · rcases List.mem_append.mp hMem with hOld | hNew
      · exact hAdded other hOld
      · rw [List.mem_singleton.mp hNew]
        exact hTag
    · rw [List.length_append, List.length_singleton]
      exact hRoom
  · exact h id

/-- A membership whose group gives a tag that there is room for. -/
theorem Inv.place (h : tables.Lawful) {before : Table ItemTags.id}
    {done : List Row} {s : Progress} (hInv : Inv tables before done s)
    (now : Nat) {row : Row} {tag : JsString}
    (hTag : groupTag tables row.group = .ok (some tag))
    (hRoom : ¬(tag ∉ tagsOf s.itemTags row.podId ∧
      perItem ≤ (tagsOf s.itemTags row.podId).length)) :
    Inv tables before (done ++ [row])
      { s with
        itemTags := if tag ∉ tagsOf s.itemTags row.podId then
            writeTags now s.itemTags row.podId
              (tagsOf s.itemTags row.podId ++ [tag])
          else s.itemTags
        tags := countTag s.tags tag
        migrated := s.migrated ++ [(row.podId, tag)] } := by
  by_cases hHas : tag ∈ tagsOf s.itemTags row.podId
  · rw [if_neg (not_not_intro hHas)]
    refine ⟨fun other hMem => ?_, hInv.justified, fun entry hMem => ?_,
      hInv.limits⟩
    · rcases List.mem_append.mp hMem with hOld | hNew
      · exact hInv.each other hOld
      · rw [List.mem_singleton.mp hNew]
        exact Or.inl ⟨tag, hTag, hHas⟩
    · rcases List.mem_append.mp hMem with hOld | hNew
      · exact hInv.migrated entry hOld
      · rw [List.mem_singleton.mp hNew]
        exact hHas
  · rw [if_pos hHas]
    have hSpace : (tagsOf s.itemTags row.podId).length < perItem :=
      Nat.not_le.mp fun hFull => hRoom ⟨hHas, hFull⟩
    have hAdded : tag ∈ tagsOf (writeTags now s.itemTags row.podId
        (tagsOf s.itemTags row.podId ++ [tag])) row.podId := by
      rw [tagsOf_writeTags, if_pos rfl]
      exact List.mem_append_right _ List.mem_cons_self
    refine ⟨fun other hMem => ?_, fun entry hMem => ?_, fun entry hMem => ?_,
      hInv.limits.writeTags now hSpace (tag_of_groupTag h hTag)⟩
    · rcases List.mem_append.mp hMem with hOld | hNew
      · rcases hInv.each other hOld with ⟨own, hOwn, hIn⟩ | hSkipped
        · exact Or.inl ⟨own, hOwn, mem_tagsOf_writeTags now hIn⟩
        · exact Or.inr hSkipped
      · rw [List.mem_singleton.mp hNew]
        exact Or.inl ⟨tag, hTag, hAdded⟩
    · exact (hInv.justified entry hMem).writeTags now hSpace
    · rcases List.mem_append.mp hMem with hOld | hNew
      · exact mem_tagsOf_writeTags now (hInv.migrated entry hOld)
      · rw [List.mem_singleton.mp hNew]
        exact hAdded

/-- One membership whose name is not cut apart. -/
theorem convertRow_spec (h : tables.Lawful) {before : Table ItemTags.id}
    {done : List Row} {s : Progress} (hInv : Inv tables before done s)
    (now : Nat) {row : Row} (hWhole : WholeCut tables row.group) :
    ∃ s', convertRow tables now s row = .ok s' ∧
      Inv tables before (done ++ [row]) s' := by
  obtain ⟨tag?, hTag, -⟩ := named_of_wholeCut h hWhole
  rw [convertRow, hTag]
  cases tag? with
  | none => exact ⟨_, rfl, hInv.skip row hTag⟩
  | some tag =>
      by_cases hRoom : tag ∉ tagsOf s.itemTags row.podId ∧
          perItem ≤ (tagsOf s.itemTags row.podId).length
      · exact ⟨_, if_pos hRoom, hInv.skip row ⟨tag, hTag, hRoom⟩⟩
      · exact ⟨_, if_neg hRoom, hInv.place h now hTag hRoom⟩

/-- A run over memberships none of whose names is cut apart. -/
theorem foldlM_convertRow (h : tables.Lawful) {before : Table ItemTags.id}
    (now : Nat) {rows done : List Row} {s : Progress}
    (hInv : Inv tables before done s)
    (hWhole : ∀ row ∈ rows, WholeCut tables row.group) :
    ∃ s', rows.foldlM (convertRow tables now) s = .ok s' ∧
      Inv tables before (done ++ rows) s' := by
  induction rows generalizing done s with
  | nil => exact ⟨s, rfl, by rwa [List.append_nil]⟩
  | cons row rows ih =>
      obtain ⟨hFirst, hRest⟩ := List.forall_mem_cons.mp hWhole
      obtain ⟨s', hStep, hNext⟩ := convertRow_spec h hInv now hFirst
      obtain ⟨last, hRun, hLast⟩ := ih hNext hRest
      refine ⟨last, ?_, ?_⟩
      · rw [List.foldlM_cons, hStep]
        exact hRun
      · rwa [List.append_assoc, List.singleton_append] at hLast

/-- A name that is cut apart stops the run. -/
theorem foldlM_convertRow_error (h : tables.Lawful) (now : Nat)
    {rows : List Row} {row : Row} (hMem : row ∈ rows)
    (hCut : ¬WholeCut tables row.group) (s s' : Progress) :
    rows.foldlM (convertRow tables now) s ≠ .ok s' := by
  induction rows generalizing s with
  | nil => cases hMem
  | cons first rows ih =>
      rw [List.foldlM_cons]
      rcases List.mem_cons.mp hMem with rfl | hRest
      · rw [convertRow, groupTag_of_not_wholeCut h hCut]
        intro hRun
        cases hRun
      · intro hRun
        obtain ⟨next, -, hMore⟩ := bind_eq_ok.mp hRun
        exact ih hRest next hMore

/-- The join holds each membership with the name of its group. -/
theorem mem_rows_iff (db : Database) {row : Row} :
    row ∈ db.rows ↔ ∃ m ∈ db.memberships.rows, ∃ g ∈ db.groups.rows,
      g.id = m.groupId ∧ row = ⟨m.podId, g.name⟩ := by
  rw [Database.rows, List.mem_filterMap]
  refine exists_congr fun m => and_congr_right fun _ => ?_
  rw [Option.map_eq_some_iff]
  refine exists_congr fun g => ?_
  rw [Table.find?_eq_some_iff, and_assoc]
  exact and_congr_right fun _ => and_congr_right fun _ => eq_comm

/-- Tags are made of all group names, and all memberships are converted, if
and only if no name is cut inside a pair. -/
theorem convertGroups_spec (h : tables.Lawful) :
    (∀ name, Named tables name ↔ WholeCut tables name) ∧
      ∀ now db, Converts tables now db ↔
        ∀ m ∈ db.memberships.rows, ∀ g ∈ db.groups.rows, g.id = m.groupId →
          WholeCut tables g.name := by
  refine ⟨named_iff h, fun now db => ⟨?_, fun hWhole => ?_⟩⟩
  · rintro ⟨itemTags, receipt, hRun, -⟩ m hm g hg hGroup
    by_contra hCut
    obtain ⟨s, hFold, -⟩ := bind_eq_ok.mp hRun
    exact foldlM_convertRow_error h now
      ((mem_rows_iff db).mpr ⟨m, hm, g, hg, hGroup, rfl⟩) hCut _ s hFold
  · have hRows : ∀ row ∈ db.rows, WholeCut tables row.group := by
      intro row hRow
      obtain ⟨m, hm, g, hg, hGroup, rfl⟩ := (mem_rows_iff db).mp hRow
      exact hWhole m hm g hg hGroup
    obtain ⟨s, hFold, hInv⟩ := foldlM_convertRow h now
      (Inv.initial tables db.itemTags) hRows
    rw [List.nil_append] at hInv
    have hAll : ¬(s.migrated.any fun entry =>
        decide (entry.2 ∉ tagsOf s.itemTags entry.1)) = true := by
      intro hSome
      obtain ⟨entry, hMem, hLost⟩ := List.any_eq_true.mp hSome
      exact of_decide_eq_true hLost (hInv.migrated entry hMem)
    refine ⟨s.itemTags, ⟨s.tags, s.skipped⟩, ?_, ?_, hInv.limits⟩
    · rw [convertGroups, hFold, ok_bind, if_neg hAll]
      rfl
    · intro m hm g hg hGroup
      have hRow := (mem_rows_iff db).mpr ⟨m, hm, g, hg, hGroup, rfl⟩
      have hNot : ∀ reason, ⟨m.podId, g.name, reason⟩ ∈ s.skipped →
          ¬Placed tables s.itemTags ⟨m.podId, g.name⟩ :=
        fun _ hMem => (hInv.justified _ hMem).not_placed
      rcases hInv.each _ hRow with hPlaced | ⟨reason, hMem⟩
      · exact Or.inl ⟨hPlaced, fun ⟨reason, hMem⟩ => hNot reason hMem hPlaced⟩
      · exact Or.inr ⟨⟨reason, hMem⟩, hNot reason hMem⟩

end Memberships

/-! ## A name that stops the migration -/

/-- ASCII with the Gothic letters, which lie beyond the first plane. -/
def gothicTables : UnicodeTables where
  normalizeNfc text := text
  toLowerDe text := text.map asciiLower
  isLetterOrNumber c :=
    decide (48 ≤ c ∧ c ≤ 57 ∨ 65 ≤ c ∧ c ≤ 90 ∨ 97 ≤ c ∧ c ≤ 122 ∨
      0x10330 ≤ c ∧ c ≤ 0x10340)

theorem gothicTables_lawful : gothicTables.Lawful where
  lower text lowered h := by
    refine map_asciiLower_eq_self_iff.mpr fun u hu => ?_
    by_contra hUpper
    have hRange : 65 ≤ u.toNat ∧ u.toNat ≤ 90 := by
      by_contra hOther
      exact hUpper (if_neg hOther)
    have hUnit : isHighSurrogate u = false ∧
        Verified.Unicode.isLowSurrogate u = false := by
      rw [Bool.eq_false_iff, Bool.eq_false_iff, Ne, Ne, isHighSurrogate_iff,
        isLowSurrogate_iff]
      omega
    rcases h _ (mem_codePoints_of_mem hu hUnit) with hMem | hHyphen | hHalf
    · obtain ⟨v, -, rfl⟩ := List.mem_map.mp (mem_of_mem_codePoints hMem)
      exact hUpper (asciiLower_asciiLower v)
    · omega
    · rw [isSurrogate, Bool.and_eq_true, decide_eq_true_iff,
        decide_eq_true_iff] at hHalf
      omega
  letter c h := by
    have hRange := of_decide_eq_true h
    have hSmall : ∀ c < 128, gothicTables.isLetterOrNumber c = true →
        c ≠ 0x2D ∧ isWhite c = false ∧ isSurrogate c = false := by decide
    by_cases hc : c < 128
    · exact hSmall c hc h
    · refine ⟨by omega, ?_, ?_⟩
      · rw [isWhite, decide_eq_false (by omega), Bool.false_and]
      · rw [isSurrogate, Bool.and_eq_false_iff, decide_eq_false_iff_not,
          decide_eq_false_iff_not]
        omega

/-- A Gothic letter behind 31 others is cut in two, and no tag is made. -/
theorem named_gothic : gothicTables.Lawful ∧
    ¬Named gothicTables
      (List.replicate 31 (unit 'a') ++ encodePoint 0x10330) := by
  refine ⟨gothicTables_lawful, fun hNamed => ?_⟩
  have hCut := (named_iff gothicTables_lawful _).mp hNamed
  have hLast : ((hyphenated gothicTables (List.replicate 31 (unit 'a') ++
      encodePoint 0x10330)).take tagLength).getLast? = some 0xD800 := by
    decide +kernel
  have hHigh := hCut 0xD800 hLast
  revert hHigh
  decide

/-- The tables of the sample have the assumed properties. -/
theorem convertGroups_spec_gothic :
    (∀ name, Named gothicTables name ↔ WholeCut gothicTables name) ∧
      ∀ now db, Converts gothicTables now db ↔
        ∀ m ∈ db.memberships.rows, ∀ g ∈ db.groups.rows, g.id = m.groupId →
          WholeCut gothicTables g.name :=
  convertGroups_spec gothicTables_lawful

end OpenApe.Ports.GroupTags
