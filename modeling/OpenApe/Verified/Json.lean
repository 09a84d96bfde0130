import OpenApe.Verified.Unicode

/-!
# `JSON.stringify`

The text of a JSON value.  A string is quoted unit by unit: control
characters and unpaired surrogates become escapes, so the text is well
formed.  A number is kept as its text, which it has only one of.  The text
determines the value: `stringify_injective` in `OpenApe.Verified.JsonReading`.
-/

namespace OpenApe.Verified.Json

open JsText Unicode

/-- The units of a number's text. -/
def isNumberUnit (u : CodeUnit) : Bool :=
  (48 ≤ u && u ≤ 57) || u == unit '-' || u == unit '+' || u == unit '.' ||
    u == unit 'e'

/-- A number, by the text `Number.prototype.toString` gives it: a digit or a
sign leads it. -/
structure JsonNumber where
  text : JsString
  units : text.all isNumberUnit = true
  leads : (text.head?.any fun u => (48 ≤ u && u ≤ 57) || u == unit '-') = true
  deriving DecidableEq

/-- A JSON value; the members of an object are in property order. -/
inductive JsonValue where
  | null
  | bool (value : Bool)
  | number (value : JsonNumber)
  | string (value : JsString)
  | array (items : List JsonValue)
  | object (members : List (JsString × JsonValue))

/-! ## Strings -/

/-- A lower-case hexadecimal digit. -/
def hexDigit (d : Nat) : CodeUnit :=
  if d < 10 then (48 + d).toUInt16 else (87 + d).toUInt16

def unicodeEscape (u : CodeUnit) : JsString :=
  [unit '\\', unit 'u', hexDigit (u.toNat / 4096),
    hexDigit (u.toNat / 256 % 16), hexDigit (u.toNat / 16 % 16),
    hexDigit (u.toNat % 16)]

/-- A unit that is no half of a surrogate pair. -/
def escapeUnit (u : CodeUnit) : JsString :=
  if u = 0x08 then js "\\b"
  else if u = 0x09 then js "\\t"
  else if u = 0x0A then js "\\n"
  else if u = 0x0C then js "\\f"
  else if u = 0x0D then js "\\r"
  else if u = unit '"' then js "\\\""
  else if u = unit '\\' then js "\\\\"
  else if u < 0x20 || isHighSurrogate u || isLowSurrogate u then
    unicodeEscape u
  else [u]

def escapeText : JsString → JsString
  | [] => []
  | [u] => escapeUnit u
  | u :: v :: rest =>
      if isHighSurrogate u && isLowSurrogate v then
        u :: v :: escapeText rest
      else escapeUnit u ++ escapeText (v :: rest)

def quote (text : JsString) : JsString :=
  unit '"' :: escapeText text ++ [unit '"']

/-- The unit a two-unit escape stands for. -/
def escapedUnit (e : CodeUnit) : CodeUnit :=
  if e = unit 'b' then 0x08
  else if e = unit 't' then 0x09
  else if e = unit 'n' then 0x0A
  else if e = unit 'f' then 0x0C
  else if e = unit 'r' then 0x0D
  else e

/-! ## Values -/

mutual

/-- `JSON.stringify(value)` -/
def stringify : JsonValue → JsString
  | .null => js "null"
  | .bool true => js "true"
  | .bool false => js "false"
  | .number value => value.text
  | .string value => quote value
  | .array [] => js "[]"
  | .array (item :: items) =>
      unit '[' :: stringify item ++ stringifyItems items
  | .object [] => [unit '{', unit '}']
  | .object ((key, value) :: members) =>
      unit '{' :: quote key ++ unit ':' :: stringify value ++
        stringifyMembers members

/-- The items that follow a first one, and the closing bracket. -/
def stringifyItems : List JsonValue → JsString
  | [] => [unit ']']
  | item :: items => unit ',' :: stringify item ++ stringifyItems items

/-- The members that follow a first one, and the closing brace. -/
def stringifyMembers : List (JsString × JsonValue) → JsString
  | [] => [unit '}']
  | (key, value) :: members =>
      unit ',' :: quote key ++ unit ':' :: stringify value ++
        stringifyMembers members

end

/-- The first unit of a value's text, which tells its kind. -/
def lead : JsonValue → CodeUnit
  | .null => unit 'n'
  | .bool true => unit 't'
  | .bool false => unit 'f'
  | .number value => value.text.headD 0
  | .string _ => unit '"'
  | .array _ => unit '['
  | .object _ => unit '{'

/-- Whether the first unit is a number's. -/
def leadsNumber (u : CodeUnit) : Bool :=
  (48 ≤ u && u ≤ 57) || u == unit '-'

theorem JsonNumber.text_eq_cons (value : JsonNumber) :
    ∃ rest, value.text = value.text.headD 0 :: rest := by
  have hLeads := value.leads
  cases hText : value.text with
  | nil => simp [hText] at hLeads
  | cons u rest => exact ⟨rest, rfl⟩

theorem leadsNumber_lead_number (value : JsonNumber) :
    leadsNumber (lead (.number value)) = true := by
  obtain ⟨rest, hText⟩ := value.text_eq_cons
  have hLeads := value.leads
  rw [hText] at hLeads
  exact hLeads

theorem head?_stringify (value : JsonValue) (rest : JsString) :
    (stringify value ++ rest).head? = some (lead value) := by
  cases value with
  | null => rfl
  | bool value => cases value <;> rfl
  | number value =>
      obtain ⟨tail, hText⟩ := value.text_eq_cons
      rw [stringify, lead, hText]
      rfl
  | string value => rfl
  | array items => cases items <;> rfl
  | object members => cases members <;> rfl

/-- No value's text starts as a closing bracket or brace does. -/
theorem stringify_ne_cons {u : CodeUnit} (hu : u ∈ js ",]\x7d")
    (value : JsonValue) (rest rest' : JsString) :
    stringify value ++ rest ≠ u :: rest' := by
  intro h
  have hHead := congrArg List.head? h
  rw [head?_stringify, List.head?_cons] at hHead
  have hLead : lead value ∈ js ",]\x7d" := Option.some.inj hHead ▸ hu
  cases value with
  | number value =>
      have hNumber := leadsNumber_lead_number value
      have hNone : (js ",]\x7d").all (fun u => !leadsNumber u) = true := by
        decide
      have hLeads := List.all_eq_true.mp hNone _ hLead
      rw [hNumber] at hLeads
      cases hLeads
  | bool value => revert hLead; cases value <;> decide
  | null => revert hLead; decide
  | string value => revert hLead; change unit '"' ∉ _; decide
  | array items => revert hLead; change unit '[' ∉ _; decide
  | object members => revert hLead; change unit '{' ∉ _; decide

theorem stringifyItems_eq (values : List JsonValue) :
    stringifyItems values =
      values.flatMap (fun value => unit ',' :: stringify value) ++
        [unit ']'] := by
  induction values with
  | nil => rw [stringifyItems, List.flatMap_nil, List.nil_append]
  | cons value values ih =>
      rw [stringifyItems, ih, List.flatMap_cons, List.append_assoc]

theorem stringifyMembers_eq (members : List (JsString × JsonValue)) :
    stringifyMembers members =
      members.flatMap
        (fun m => unit ',' :: (quote m.1 ++ unit ':' :: stringify m.2)) ++
        [unit '}'] := by
  induction members with
  | nil => rw [stringifyMembers, List.flatMap_nil, List.nil_append]
  | cons member members ih =>
      rw [stringifyMembers, ih, List.flatMap_cons, List.append_assoc]
      simp

/-- A join with commas puts one before each text but the first. -/
theorem intercalate_map_cons {α : Type} (f : α → JsString) (first : α)
    (rest : List α) :
    (js ",").intercalate ((first :: rest).map f) =
      f first ++ rest.flatMap fun value => unit ',' :: f value := by
  induction rest generalizing first with
  | nil => simp
  | cons second rest ih =>
      rw [List.map_cons, List.map_cons, List.intercalate_cons_cons,
        ← List.map_cons, ih, List.flatMap_cons, List.append_assoc]
      rfl

/-- An array is its items' texts joined with commas, in brackets. -/
theorem stringify_array (values : List JsonValue) :
    stringify (.array values) = unit '[' ::
      ((js ",").intercalate (values.map stringify) ++ [unit ']']) := by
  cases values with
  | nil =>
      rw [stringify]
      decide
  | cons value values =>
      rw [stringify, stringifyItems_eq, intercalate_map_cons,
        List.append_assoc]
      rfl

/-- An object is its members' texts joined with commas, in braces. -/
theorem stringify_object (members : List (JsString × JsonValue)) :
    stringify (.object members) = unit '{' ::
      ((js ",").intercalate
        (members.map fun m => quote m.1 ++ unit ':' :: stringify m.2) ++
        [unit '}']) := by
  cases members with
  | nil => rfl
  | cons member members =>
      rw [stringify, stringifyMembers_eq, intercalate_map_cons]
      simp

/-! ## Numerals -/

/-- `String(n)` -/
def decimal (n : Nat) : JsString :=
  if n < 10 then [(48 + n).toUInt16]
  else decimal (n / 10) ++ [(48 + n % 10).toUInt16]

private theorem digit_bounds {d : Nat} (h : d < 10) :
    isNumberUnit (48 + d).toUInt16 = true ∧
      leadsNumber (48 + d).toUInt16 = true :=
  (by decide : ∀ d < 10, isNumberUnit (48 + d).toUInt16 = true ∧
    leadsNumber (48 + d).toUInt16 = true) d h

theorem decimal_units (n : Nat) : (decimal n).all isNumberUnit = true := by
  induction n using decimal.induct with
  | case1 n h =>
      rw [decimal, if_pos h, List.all_cons, (digit_bounds h).1]
      rfl
  | case2 n h ih =>
      rw [decimal, if_neg h, List.all_append, ih, List.all_cons,
        (digit_bounds (Nat.mod_lt n (by decide))).1]
      rfl

theorem decimal_leads (n : Nat) :
    ((decimal n).head?.any leadsNumber) = true := by
  induction n using decimal.induct with
  | case1 n h =>
      rw [decimal, if_pos h, List.head?_cons, Option.any_some]
      exact (digit_bounds h).2
  | case2 n h ih =>
      rw [decimal, if_neg h]
      cases hText : decimal (n / 10) with
      | nil => rw [hText] at ih; cases ih
      | cons u rest => rw [hText] at ih; exact ih

/-- A natural number as a JSON number. -/
def JsonNumber.ofNat (n : Nat) : JsonNumber :=
  ⟨decimal n, decimal_units n, decimal_leads n⟩

/-! ## Reading a value -/

/-- `typeof value === 'string' ? value : undefined` -/
def JsonValue.text? : JsonValue → Option JsString
  | .string text => some text
  | _ => none

/-- `value[key]`, where `undefined` is none. -/
def JsonValue.field? (value : JsonValue) (key : JsString) :
    Option JsonValue :=
  match value with
  | .object members => (members.find? (fun m => m.1 = key)).map Prod.snd
  | _ => none

@[simp] theorem field?_object (members : List (JsString × JsonValue))
    (key : JsString) :
    (JsonValue.object members).field? key =
      (members.find? (fun m => m.1 = key)).map Prod.snd := rfl

/-! ## Rewriting a value -/

/-- The object without some of its members. -/
def JsonValue.without (keys : List JsString) : JsonValue → JsonValue
  | .object members => .object (members.filter fun m => m.1 ∉ keys)
  | value => value

/-- The object with a function applied to one member in place. -/
def JsonValue.mapMember (key : JsString) (f : JsonValue → JsonValue) :
    JsonValue → JsonValue
  | .object members =>
      .object (members.map fun m => if m.1 = key then (m.1, f m.2) else m)
  | value => value

/-- The array with a function applied to its items. -/
def JsonValue.mapItems (f : JsonValue → JsonValue) : JsonValue → JsonValue
  | .array items => .array (items.map f)
  | value => value

/-- The array with the items that pass a test. -/
def JsonValue.filterItems (p : JsonValue → Bool) : JsonValue → JsonValue
  | .array items => .array (items.filter p)
  | value => value

namespace JsonValue

private theorem find?_mapMember (members : List (JsString × JsonValue))
    (key k : JsString) (f : JsonValue → JsonValue) :
    (members.map fun m => if m.1 = key then (m.1, f m.2) else m).find?
        (fun m => m.1 = k) =
      (members.find? (fun m => m.1 = k)).map
        (fun m => if m.1 = key then (m.1, f m.2) else m) := by
  rw [List.find?_map]
  congr 2
  funext m
  simp only [Function.comp_apply]
  split_ifs <;> rfl

theorem field?_mapMember_self (key : JsString) (f : JsonValue → JsonValue)
    (value : JsonValue) :
    (value.mapMember key f).field? key = (value.field? key).map f := by
  cases value with
  | object members =>
      rw [mapMember, field?_object, find?_mapMember, field?_object]
      cases hFind : members.find? (fun m => m.1 = key) with
      | none => rfl
      | some m =>
          have hKey : m.1 = key := by simpa using List.find?_some hFind
          simp [hKey]
  | _ => rfl

theorem field?_mapMember_ne {key k : JsString} (h : k ≠ key)
    (f : JsonValue → JsonValue) (value : JsonValue) :
    (value.mapMember key f).field? k = value.field? k := by
  cases value with
  | object members =>
      rw [mapMember, field?_object, find?_mapMember, field?_object]
      cases hFind : members.find? (fun m => m.1 = k) with
      | none => rfl
      | some m =>
          have hKey : m.1 = k := by simpa using List.find?_some hFind
          have hNe : ¬m.1 = key := hKey ▸ h
          simp [hNe]
  | _ => rfl

/-- Applying an idempotent function twice applies it once. -/
theorem mapMember_idem {f : JsonValue → JsonValue} (hf : ∀ v, f (f v) = f v)
    (key : JsString) (value : JsonValue) :
    (value.mapMember key f).mapMember key f = value.mapMember key f := by
  cases value with
  | object members =>
      simp only [mapMember, List.map_map]
      congr 2
      funext m
      simp only [Function.comp_apply]
      split_ifs <;> simp_all
  | _ => rfl

theorem mapMember_comm {key key' : JsString} (h : key ≠ key')
    (f g : JsonValue → JsonValue) (value : JsonValue) :
    (value.mapMember key f).mapMember key' g =
      (value.mapMember key' g).mapMember key f := by
  cases value with
  | object members =>
      simp only [mapMember, List.map_map]
      congr 2
      funext m
      simp only [Function.comp_apply]
      split_ifs <;> simp_all
  | _ => rfl

/-- The names of the members stay. -/
theorem keys_mapMember (key : JsString) (f : JsonValue → JsonValue)
    (members : List (JsString × JsonValue)) :
    (members.map fun m => if m.1 = key then (m.1, f m.2) else m).map
        Prod.fst = members.map Prod.fst := by
  rw [List.map_map]
  refine List.map_congr_left (fun m _ => ?_)
  simp only [Function.comp_apply]
  split_ifs <;> rfl

end JsonValue

end OpenApe.Verified.Json
