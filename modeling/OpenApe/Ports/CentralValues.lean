import OpenApe.Verified.Fallible
import OpenApe.Verified.Json

/-!
# Untyped values of the workspace (`central.ts`)

What crosses the relay is JSON that the code reads without a type: a missing
property is `undefined`, and a property of `undefined` or `null` is a
`TypeError`.  The module holds these readings and the checks that all
parsers of the workspace share.
-/

namespace OpenApe.Ports.CentralValues

open Verified.JsText Verified.Json

/-! ## Errors -/

/-- What the workspace code throws: a `ProtocolError` with its code and
status, an `Error`, or a `TypeError` of the language. -/
inductive WorkspaceError where
  | protocol (code : JsString) (status : Nat)
  | error (message : JsString)
  | typeError (message : JsString)
  deriving DecidableEq

/-- `new ProtocolError(code)`, whose status is 400. -/
def protocolError (code : JsString) : WorkspaceError := .protocol code 400

/-- `if (condition) throw error` -/
def throwIf (condition : Bool) (error : WorkspaceError) :
    Except WorkspaceError Unit :=
  if condition then .error error else .ok ()

@[simp] theorem throwIf_eq_ok {condition : Bool} {error : WorkspaceError}
    {u : Unit} : throwIf condition error = .ok u ↔ condition = false := by
  unfold throwIf
  cases condition <;> simp

/-! ## Reading values -/

/-- A value of type `unknown`, where `undefined` is none. -/
abbrev Unknown := Option JsonValue

/-- `value[key]`, for a key that no built-in object has. -/
def property (value : Unknown) (key : String) :
    Except WorkspaceError Unknown :=
  match value with
  | none =>
      .error (.typeError (js "Cannot read properties of undefined (reading '" ++
        js key ++ js "')"))
  | some .null =>
      .error (.typeError (js "Cannot read properties of null (reading '" ++
        js key ++ js "')"))
  | some value => .ok (value.field? (js key))

/-- `value?.key`, and `value.key` where the value is known to be truthy. -/
def member (value : Unknown) (key : String) : Unknown :=
  value.bind (fun value => value.field? (js key))

theorem property_eq_ok {value result : Unknown} {key : String}
    (h : property value key = .ok result) : result = member value key := by
  cases value with
  | none => cases h
  | some value =>
      cases value with
      | null => cases h
      | _ => exact (Except.ok.inj h).symm

/-- The items of an array; the array methods throw on anything else. -/
def arrayItems (value : Unknown) : Except WorkspaceError (List JsonValue) :=
  match value with
  | some (.array items) => .ok items
  | _ => .error (.typeError (js "is not a function"))

theorem arrayItems_eq_ok {value : Unknown} {items : List JsonValue} :
    arrayItems value = .ok items ↔ value = some (.array items) := by
  unfold arrayItems
  split
  · rw [Except.ok.injEq, Option.some.injEq, JsonValue.array.injEq]
  · rename_i hOther
    refine ⟨(nomatch ·), ?_⟩
    rintro rfl
    exact absurd rfl (hOther items)

/-- `!!value` -/
def truthy : Unknown → Bool
  | none => false
  | some .null => false
  | some (.bool value) => value
  | some (.number value) => value.text ≠ js "0"
  | some (.string text) => !text.isEmpty
  | some (.array _) => true
  | some (.object _) => true

/-- `typeof value === 'string' ? value : undefined` -/
def text? (value : Unknown) : Option JsString :=
  value.bind JsonValue.text?

/-- `typeof value === 'boolean'` -/
def isBoolean : Unknown → Bool
  | some (.bool _) => true
  | _ => false

/-- `value === null` -/
def isNull : Unknown → Bool
  | some .null => true
  | _ => false

/-- `value === text` -/
def isText (value : Unknown) (text : JsString) : Bool :=
  text? value = some text

/-- `texts.includes(value)` -/
def isOneOf (texts : List String) (value : Unknown) : Bool :=
  texts.any fun text => isText value (js text)

/-- `left === right` for values that were read apart: two objects are never
the same one. -/
def strictEq : Unknown → Unknown → Bool
  | none, none => true
  | some .null, some .null => true
  | some (.bool a), some (.bool b) => a == b
  | some (.number a), some (.number b) => a == b
  | some (.string a), some (.string b) => a == b
  | _, _ => false

mutual

/-- `String(value)` -/
def toText : JsonValue → JsString
  | .null => js "null"
  | .bool true => js "true"
  | .bool false => js "false"
  | .number value => value.text
  | .string text => text
  | .array [] => []
  | .array (item :: items) => itemText item ++ joinText items
  | .object _ => js "[object Object]"

/-- An item of an array as `join` prints it. -/
def itemText : JsonValue → JsString
  | .null => []
  | value => toText value

def joinText : List JsonValue → JsString
  | [] => []
  | item :: items => unit ',' :: itemText item ++ joinText items

end

/-- `String(value)` -/
def textOf : Unknown → JsString
  | none => js "undefined"
  | some value => toText value

@[simp] theorem toText_string (text : JsString) :
    toText (.string text) = text := by
  rw [toText]

@[simp] theorem textOf_string (text : JsString) :
    textOf (some (.string text)) = text :=
  toText_string text

theorem isText_iff {value : Unknown} {text : JsString} :
    isText value text = true ↔ value = some (.string text) := by
  unfold isText
  rw [decide_eq_true_iff]
  constructor
  · intro h
    obtain ⟨v, rfl, hv⟩ := Option.bind_eq_some_iff.mp h
    cases v with
    | string t => rw [Option.some.inj hv]
    | _ => cases hv
  · rintro rfl
    rfl

/-- Values that are the same print the same. -/
theorem textOf_eq_of_strictEq {a b : Unknown} (h : strictEq a b = true) :
    textOf a = textOf b := by
  unfold strictEq at h
  split at h
  case h_6 => cases h
  all_goals first
    | rfl
    | (rw [beq_iff_eq] at h; rw [h])

/-! ## Numbers -/

def digitsValue (digits : JsString) : Nat :=
  digits.foldl (fun n d => 10 * n + (d.toNat - 48)) 0

/-- A decimal numeral without leading zeros. -/
def isNumeral (digits : JsString) : Bool :=
  digits.all (fun u => 48 ≤ u && u ≤ 57) && !digits.isEmpty &&
    (digits.length == 1 || digits.head? != some (unit '0'))

def maxSafeInteger : Nat := 9007199254740991

/-- The integer that a number is, where `Number.isSafeInteger` holds. -/
def numberInteger? (value : JsonNumber) : Option Int :=
  if isNumeral value.text && decide (digitsValue value.text ≤ maxSafeInteger)
  then some (digitsValue value.text)
  else if value.text.head? == some (unit '-') &&
      isNumeral value.text.tail && value.text.tail != js "0" &&
      decide (digitsValue value.text.tail ≤ maxSafeInteger)
  then some (-(digitsValue value.text.tail : Int))
  else none

/-- `Number.isSafeInteger(value) ? value : undefined` -/
def safeInteger? : Unknown → Option Int
  | some (.number value) => numberInteger? value
  | _ => none

/-- `Number.isSafeInteger(value) && value >= least` -/
def isSafeFrom (least : Int) (value : Unknown) : Bool :=
  (safeInteger? value).any (fun n => decide (least ≤ n))

/-- `Number.isSafeInteger(value)` -/
def isSafeInteger (value : Unknown) : Bool := (safeInteger? value).isSome

/-! ## Texts -/

def isLowerHex (u : CodeUnit) : Bool :=
  (48 ≤ u && u ≤ 57) || (97 ≤ u && u ≤ 102)

/-- `/^[a-f0-9]{64}$/` -/
def isHash (text : JsString) : Bool :=
  text.length == 64 && text.all isLowerHex

/-- `/^[a-f0-9-]{36}$/` -/
def isLooseId (text : JsString) : Bool :=
  text.length == 36 && text.all (fun u => isLowerHex u || u == unit '-')

/-- Groups of so many hexadecimal digits, with dashes between them. -/
def hexGroups : List Nat → JsString → Bool
  | [], text => text.isEmpty
  | [n], text => text.length == n && text.all isLowerHex
  | n :: ns, text =>
      (text.take n).length == n && (text.take n).all isLowerHex &&
        (text.drop n).head? == some (unit '-') &&
        hexGroups ns ((text.drop n).tail)

/-- `/^[a-f0-9]{8}-[a-f0-9]{4}-[a-f0-9]{4}-[a-f0-9]{4}-[a-f0-9]{12}$/` -/
def isUuid (text : JsString) : Bool := hexGroups [8, 4, 4, 4, 12] text

private theorem hexGroups_length {groups : List Nat} {text : JsString}
    (hGroups : groups ≠ []) (h : hexGroups groups text = true) :
    text.length = groups.sum + (groups.length - 1) := by
  induction groups generalizing text with
  | nil => exact absurd rfl hGroups
  | cons n ns ih =>
      cases ns with
      | nil =>
          simp only [hexGroups, Bool.and_eq_true, beq_iff_eq] at h
          simp [h.1]
      | cons m ms =>
          simp only [hexGroups, Bool.and_eq_true, beq_iff_eq] at h
          obtain ⟨⟨⟨hTake, -⟩, hDash⟩, hRest⟩ := h
          have hTail := ih (by simp) hRest
          have hDrop : (text.drop n).length = (text.drop n).tail.length + 1 := by
            cases hText : text.drop n with
            | nil => simp [hText] at hDash
            | cons u rest => simp
          rw [List.length_take] at hTake
          rw [List.length_drop] at hDrop
          simp only [List.sum_cons, List.length_cons] at hTail ⊢
          omega

private theorem hexGroups_all {groups : List Nat} {text : JsString}
    (h : hexGroups groups text = true) :
    text.all (fun u => isLowerHex u || u == unit '-') = true := by
  induction groups generalizing text with
  | nil => simp_all [hexGroups]
  | cons n ns ih =>
      cases ns with
      | nil =>
          simp only [hexGroups, Bool.and_eq_true, List.all_eq_true] at h ⊢
          intro u hu
          rw [h.2 u hu, Bool.true_or]
      | cons m ms =>
          simp only [hexGroups, Bool.and_eq_true, beq_iff_eq] at h
          obtain ⟨⟨⟨-, hTake⟩, hDash⟩, hRest⟩ := h
          rw [← List.take_append_drop n text, List.all_append,
            Bool.and_eq_true]
          constructor
          · rw [List.all_eq_true] at hTake ⊢
            intro u hu
            rw [hTake u hu, Bool.true_or]
          · cases hText : text.drop n with
            | nil => rfl
            | cons u rest =>
                rw [hText] at hDash hRest
                rw [List.all_cons, Option.some.inj hDash]
                exact ih hRest

/-- Every workspace identity is a text of 36 hexadecimal digits and
dashes. -/
theorem isLooseId_of_isUuid {text : JsString} (h : isUuid text = true) :
    isLooseId text = true := by
  have hLength := hexGroups_length (by decide) h
  rw [isLooseId, Bool.and_eq_true, beq_iff_eq]
  exact ⟨hLength, hexGroups_all h⟩

/-! ## The shared checks -/

def centralLeaseMs : Nat := 30000

def centralMaxBytes : Nat := 32 * 1024 * 1024

/-- `!value || typeof value !== 'object' || Array.isArray(value)` throws. -/
def plainObject (message : String) (value : Unknown) :
    Except WorkspaceError JsonValue :=
  match value with
  | some (.object members) => .ok (.object members)
  | _ => .error (.error (js message))

theorem plainObject_eq_ok {message : String} {value : Unknown}
    {result : JsonValue} :
    plainObject message value = .ok result ↔
      value = some result ∧ ∃ members, result = .object members := by
  unfold plainObject
  split
  · rename_i members
    rw [Except.ok.injEq]
    constructor
    · rintro rfl
      exact ⟨rfl, members, rfl⟩
    · rintro ⟨hEq, -⟩
      exact Option.some.inj hEq
  · rename_i hOther
    refine ⟨(nomatch ·), ?_⟩
    rintro ⟨rfl, members, rfl⟩
    exact absurd rfl (hOther members)

def centralObject (value : Unknown) : Except WorkspaceError JsonValue :=
  plainObject "Expected a workspace object" value

def centralId (value : Unknown) : Except WorkspaceError JsString :=
  match text? value with
  | some text =>
      if isUuid text then .ok text
      else .error (.error (js "Invalid workspace identity"))
  | none => .error (.error (js "Invalid workspace identity"))

theorem centralId_eq_ok {value : Unknown} {id : JsString} :
    centralId value = .ok id ↔
      value = some (.string id) ∧ isUuid id = true := by
  unfold centralId
  constructor
  · intro h
    cases hText : text? value with
    | none => rw [hText] at h; cases h
    | some text =>
        rw [hText] at h
        dsimp only at h
        split_ifs at h with hUuid
        cases h
        refine ⟨?_, hUuid⟩
        obtain ⟨v, rfl, hv⟩ := Option.bind_eq_some_iff.mp hText
        cases v with
        | string t => rw [Option.some.inj hv]
        | _ => cases hv
  · rintro ⟨rfl, hUuid⟩
    exact if_pos hUuid

def centralRevision (value : Unknown) : Except WorkspaceError Nat :=
  match safeInteger? value with
  | some n =>
      if n < 0 then .error (.error (js "Invalid workspace revision"))
      else .ok n.toNat
  | none => .error (.error (js "Invalid workspace revision"))

def assertLocalOnly (pod : JsonValue) : Except WorkspaceError Unit :=
  match pod.field? (js "localOnly") with
  | none => .ok ()
  | some (.bool true) => .ok ()
  | some _ => .error (.error (js "Invalid local Pod marker"))

end OpenApe.Ports.CentralValues
