import OpenApe.Ports.CentralValues

/-!
# Contracts of the Reports API (`report-contracts/html.ts`)

The checks on untyped input that all Reports operations share: objects with
known fields, labels, metadata and lifetimes.  Unicode normalisation and
`Date.parse` belong to the runtime.
-/

namespace OpenApe.Ports.ReportContracts

open Verified.JsText Verified.Json Verified.Unicode
open CentralValues (Unknown isNull)

/-- What an operation throws: a `ReportError`, or the failure of a
statement. -/
inductive ReportFailure where
  | report (code message : JsString) (status : Nat)
  | statement (message : JsString)
  deriving DecidableEq

def htmlPolicy : JsString := js "publisher-trusted-html/2"

/-- `RECOVERY_MS`: thirty days. -/
def recoveryMs : Int := 30 * 24 * 60 * 60 * 1000

def invalid {α : Type} (message : JsString) : Except ReportFailure α :=
  .error (.report (js "VALIDATION") message 400)

/-- What the standard library does for the checks. -/
class ReportRuntime where
  /-- `text.normalize('NFC')` -/
  normalizeNfc : JsString → JsString
  /-- `Date.parse`, where `NaN` is none. -/
  parseDate : JsString → Option Int

/-- The members of an object with no other fields than the allowed ones. -/
def object (value : Unknown) (allowed : List String) :
    Except ReportFailure JsonValue :=
  match value with
  | some (.object members) =>
      match members.find? (fun m => m.1 ∉ allowed.map js) with
      | some (key, _) => invalid (js "Unknown field: " ++ key)
      | none => .ok (.object members)
  | _ => invalid (js "Expected an object")

/-- `text.replace(/\s+/gu, ' ')` -/
def collapseSpaces : JsString → JsString
  | [] => []
  | [u] => if isTrimmed u then [unit ' '] else [u]
  | u :: v :: rest =>
      if isTrimmed u then
        if isTrimmed v then collapseSpaces (v :: rest)
        else unit ' ' :: collapseSpaces (v :: rest)
      else u :: collapseSpaces (v :: rest)

section Labels

variable [ReportRuntime]

def label (value : Unknown) (maximum : Nat) (name : JsString) :
    Except ReportFailure JsString :=
  match value with
  | some (.string text) =>
      if text.any (fun u => u < 32 || u == 127) then
        invalid (js "Invalid " ++ name)
      else
        let normalized :=
          collapseSpaces (trim (ReportRuntime.normalizeNfc text))
        if normalized = [] || maximum < (codePoints normalized).length then
          invalid (name ++ js " must contain 1–" ++ decimal maximum ++
            js " characters")
        else .ok normalized
  | _ => invalid (js "Invalid " ++ name)

variable [CaseMapping]

/-- `[...new Set(values)]` -/
def distinct (values : List JsString) : List JsString := values.eraseDups

def tags (value : Unknown) : Except ReportFailure (List JsString) :=
  match value with
  | some (.array items) => do
      let labels ← items.mapM (fun item =>
        (label (some item) 64 (js "tag")).map CaseMapping.toLowerCase)
      if 20 < (distinct labels).length then
        invalid (js "At most 20 distinct tags are supported")
      else .ok (distinct labels)
  | _ => invalid (js "tags must be an array")

def isLower (u : CodeUnit) : Bool := unit 'a' ≤ u && u ≤ unit 'z'

def isDigit (u : CodeUnit) : Bool := unit '0' ≤ u && u ≤ unit '9'

/-- `/^[a-z][a-z0-9_-]{0,31}\.[a-z][a-z0-9_.-]{0,63}$/u` -/
def isMetadataKey (key : JsString) : Bool :=
  let space := key.takeWhile (· != unit '.')
  let name := (key.dropWhile (· != unit '.')).drop 1
  let isWordUnit := fun u =>
    isLower u || isDigit u || u == unit '_' || u == unit '-'
  space.length ≤ 32 && space.head?.any isLower && space.all isWordUnit &&
    name.length ≤ 64 && name.head?.any isLower &&
    name.all (fun u => isWordUnit u || u == unit '.')

def metadata (value : Unknown) :
    Except ReportFailure (List (JsString × JsString)) :=
  match value with
  | some (.object members) =>
      if 30 < members.length ||
          16384 < utf8Length (stringify (.object members)) then
        invalid (js "Metadata exceeds its size limit")
      else members.mapM (fun m =>
        if isMetadataKey m.1 then
          (label (some m.2) 2048 m.1).map (fun text => (m.1, text))
        else invalid (js "Metadata key must be namespaced: " ++ m.1))
  | _ => invalid (js "metadata must be an object")

structure HtmlMetadata where
  title : JsString
  language : Option JsString
  category : Option JsString
  tags : List JsString
  metadata : List (JsString × JsString)
  deriving DecidableEq

/-- A letter of a language tag.  Under `/iu` the long s and the Kelvin sign
fold to `s` and `k`. -/
def isTagLetter (u : CodeUnit) : Bool :=
  isLower u || (unit 'A' ≤ u && u ≤ unit 'Z') || u == 0x17F || u == 0x212A

/-- `/^[a-z]{2,8}(?:-[a-z0-9]{1,8})*$/iu` -/
def isLanguageTag (text : JsString) : Bool :=
  match text.splitOn (unit '-') with
  | [] => false
  | first :: rest =>
      2 ≤ first.length && first.length ≤ 8 && first.all isTagLetter &&
        rest.all (fun part => 1 ≤ part.length && part.length ≤ 8 &&
          part.all (fun u => isTagLetter u || isDigit u))

/-- `value ?? fallback` -/
def orElse (value : Unknown) (fallback : JsonValue) : Unknown :=
  if value = none || isNull value then some fallback else value

/-- A value that is neither `undefined` nor `null`. -/
def present (value : Unknown) : Bool := value.isSome && !isNull value

def normalizeMetadata (value : Unknown) :
    Except ReportFailure HtmlMetadata := do
  let input ← object value
    ["title", "language", "category", "tags", "metadata"]
  let title ← label (input.field? (js "title")) 300 (js "title")
  let tags ← tags (orElse (input.field? (js "tags")) (.array []))
  let metadata ← metadata (orElse (input.field? (js "metadata")) (.object []))
  let category ←
    if present (input.field? (js "category")) then
      (label (input.field? (js "category")) 80 (js "category")).map some
    else .ok none
  let language ←
    if present (input.field? (js "language")) then
      match input.field? (js "language") with
      | some (.string text) =>
          if isLanguageTag text then .ok (some text)
          else invalid (js "Invalid language tag")
      | _ => invalid (js "Invalid language tag")
    else .ok none
  .ok ⟨title, language, category, tags, metadata⟩

end Labels

/-! ## Lifetimes -/

/-- `Number(digits)` -/
def numberOf (digits : JsString) : Nat :=
  digits.foldl (fun n u => 10 * n + (u.toNat - 48)) 0

/-- The milliseconds of `/^([1-9]\d*)([mhd])$/`. -/
def duration? (text : JsString) : Option Int :=
  let digits := text.dropLast
  if digits.all isDigit && digits.head?.any (· != unit '0') then
    match text.getLast? with
    | some u =>
        if u = unit 'm' then some (numberOf digits * 60000)
        else if u = unit 'h' then some (numberOf digits * 3600000)
        else if u = unit 'd' then some (numberOf digits * 86400000)
        else none
    | none => none
  else none

/-- A text of the form of a template, in which `d` is a digit. -/
def hasForm (template text : JsString) : Bool :=
  template.length == text.length &&
    (template.zip text).all (fun (form, u) =>
      if form = unit 'd' then isDigit u else form == u)

/-- `(?:Z|[+-]\d\d:\d\d)$` -/
def isZone (text : JsString) : Bool :=
  text == js "Z" || hasForm (js "+dd:dd") text || hasForm (js "-dd:dd") text

/-- `/^\d{4}-\d\d-\d\dT\d\d:\d\d:\d\d(?:\.\d+)?(?:Z|[+-]\d\d:\d\d)$/u` -/
def isTimestamp (text : JsString) : Bool :=
  let rest := text.drop 19
  hasForm (js "dddd-dd-ddTdd:dd:dd") (text.take 19) &&
    match rest with
    | [] => false
    | u :: fraction =>
        if u = unit '.' then
          (fraction.head?.any isDigit) && isZone (fraction.dropWhile isDigit)
        else isZone rest

def isLeap (year : Nat) : Bool :=
  year % 4 == 0 && (year % 100 != 0 || year % 400 == 0)

/-- The calendar check on a timestamp's first nineteen units. -/
def isCalendarTime (text : JsString) : Bool :=
  let part := fun start size => numberOf ((text.drop start).take size)
  let month := part 5 2
  let day := part 8 2
  let days := [31, if isLeap (part 0 4) then 29 else 28, 31, 30, 31, 30, 31,
    31, 30, 31, 30, 31]
  match month with
  | 0 => false
  | m + 1 =>
      match days[m]? with
      | none => false
      | some last =>
          1 ≤ day && day ≤ last && part 11 2 ≤ 23 && part 14 2 ≤ 59 &&
            part 17 2 ≤ 59

/-- The last check of a deadline: in the future, and a date. -/
def futureDeadline (deadline : Option Int) (now : Int) :
    Except ReportFailure (Option Int) :=
  match deadline with
  | some deadline =>
      if deadline ≤ now || 8640000000000000 < deadline then
        invalid (js "Expiry must be a valid future timestamp")
      else .ok (some deadline)
  | none => invalid (js "Expiry must be a valid future timestamp")

theorem lt_of_futureDeadline {deadline expiry : Option Int} {now : Int}
    (h : futureDeadline deadline now = .ok expiry) :
    ∀ e ∈ expiry, now < e := by
  intro e he
  unfold futureDeadline at h
  split at h
  · split_ifs at h with hBounds
    · cases h
    · obtain rfl := Except.ok.inj h
      obtain rfl := Option.mem_some_iff.mp he
      simp only [Bool.or_eq_true, decide_eq_true_eq, not_or] at hBounds
      omega
  · cases h

section Deadlines

variable [ReportRuntime]

/-- The timestamp and its calendar check. -/
def timestamp (text : JsString) (now : Int) :
    Except ReportFailure (Option Int) :=
  if !isTimestamp text then
    invalid (js ("Use a future RFC3339 timestamp with timezone or permanent " ++
      "retention"))
  else if !isCalendarTime text then
    invalid (js "Expiry contains an invalid calendar date or time")
  else futureDeadline (ReportRuntime.parseDate text) now

/-- The one field of a lifetime. -/
def deadline (input : JsonValue) (now : Int) :
    Except ReportFailure (Option Int) :=
  match input.field? (js "permanent"), input.field? (js "expiresIn"),
      input.field? (js "expiresAt") with
  | some (.bool true), _, _ => .ok none
  | _, some (.string text), _ =>
      match duration? text with
      | some length => futureDeadline (some (now + length)) now
      | none => invalid
          (js "Use a positive integer duration: 30m, 12h or 7d")
  | _, _, some (.string text) => timestamp text now
  | _, _, _ => invalid
      (js ("Use a future RFC3339 timestamp with timezone or permanent " ++
        "retention"))

def memberCount : JsonValue → Nat
  | .object members => members.length
  | _ => 0

def lifetime (value : Unknown) (now : Int) :
    Except ReportFailure (Option Int) := do
  let input ← object value ["permanent", "expiresIn", "expiresAt"]
  if memberCount input ≠ 1 then
    invalid (js "Select exactly one explicit lifetime")
  else deadline input now

/-- A lifetime ends in the future, or never. -/
theorem lt_of_lifetime {value : Unknown} {now : Int} {expiry : Option Int}
    (h : lifetime value now = .ok expiry) : ∀ e ∈ expiry, now < e := by
  unfold lifetime at h
  obtain ⟨input, -, h⟩ := Verified.Fallible.bind_eq_ok.mp h
  split_ifs at h with hOne
  · cases h
  unfold deadline at h
  split at h
  · obtain rfl := Except.ok.inj h
    exact fun e he => nomatch he
  · split at h
    · exact lt_of_futureDeadline h
    · cases h
  · unfold timestamp at h
    split_ifs at h with hForm hDate
    · cases h
    · cases h
    · exact lt_of_futureDeadline h
  · cases h

end Deadlines

end OpenApe.Ports.ReportContracts
