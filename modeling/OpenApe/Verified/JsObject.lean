import OpenApe.Verified.JsText

/-!
# Objects with string properties

`JsText.Record` is what an object holds itself; this module adds how a
program builds one and reads it.  An assignment to `__proto__` sets no
property, and a name that the object does not hold itself is read from
`Object.prototype`, whose members are truthy and print as functions.
-/

namespace OpenApe.Verified.JsText

namespace Record

/-! ## Building -/

/-- `{}` -/
def empty : Record := ⟨[], List.nodup_nil⟩

/-- Entries with one value replaced or, for a new key, appended. -/
def putEntry (entries : List (JsString × JsString)) (key value : JsString) :
    List (JsString × JsString) :=
  if key ∈ entries.map Prod.fst then
    entries.map (fun e => if e.1 = key then (key, value) else e)
  else entries ++ [(key, value)]

private theorem map_fst_putEntry (entries : List (JsString × JsString))
    (key value : JsString) :
    (putEntry entries key value).map Prod.fst =
      if key ∈ entries.map Prod.fst then entries.map Prod.fst
      else entries.map Prod.fst ++ [key] := by
  unfold putEntry
  split
  · rw [List.map_map]
    refine List.map_congr_left (fun e _ => ?_)
    by_cases hKey : e.1 = key <;> simp [hKey]
  · simp

private theorem nodup_putEntry {entries : List (JsString × JsString)}
    (h : (entries.map Prod.fst).Nodup) (key value : JsString) :
    ((putEntry entries key value).map Prod.fst).Nodup := by
  rw [map_fst_putEntry]
  split
  · exact h
  · rename_i hFresh
    rw [List.nodup_append]
    exact ⟨h, List.nodup_singleton key, fun a ha b hb hEq =>
      hFresh (by rwa [← List.mem_singleton.mp hb, ← hEq])⟩

/-- Defines an own property. -/
def put (r : Record) (key value : JsString) : Record :=
  fromEntries (putEntry r.entries key value) (nodup_putEntry r.nodup _ _)

theorem mem_put {r : Record} {key value : JsString}
    {e : JsString × JsString} :
    e ∈ (r.put key value).entries ↔
      e = (key, value) ∨ (e.1 ≠ key ∧ e ∈ r.entries) := by
  rw [put, mem_fromEntries, putEntry]
  split
  · rename_i hKey
    obtain ⟨old, hOld, hFst⟩ := List.mem_map.mp hKey
    rw [List.mem_map]
    constructor
    · rintro ⟨e', hMem, rfl⟩
      by_cases h : e'.1 = key
      · simp [h]
      · simp [h, hMem]
    · rintro (rfl | ⟨hNe, hMem⟩)
      · exact ⟨old, hOld, by simp [hFst]⟩
      · exact ⟨e, hMem, by simp [hNe]⟩
  · rename_i hKey
    rw [List.mem_append, List.mem_singleton, or_comm]
    refine or_congr_right ⟨fun hMem => ⟨fun hEq => hKey ?_, hMem⟩, And.right⟩
    exact List.mem_map.mpr ⟨e, hMem, hEq⟩

@[simp] theorem get_put_self (r : Record) (key value : JsString) :
    (r.put key value).get key = some value := by
  rw [get_eq_some_iff, mem_put]
  exact .inl rfl

theorem get_put_of_ne (r : Record) {key other : JsString} (h : other ≠ key)
    (value : JsString) : (r.put key value).get other = r.get other := by
  refine Option.ext (fun found => ?_)
  rw [get_eq_some_iff, get_eq_some_iff, mem_put]
  constructor
  · rintro (hEq | ⟨-, hMem⟩)
    · exact absurd (congrArg Prod.fst hEq) h
    · exact hMem
  · exact fun hMem => .inr ⟨h, hMem⟩

/-- `object[key] = value` for a string: the setter of `__proto__` ignores
it. -/
def assign (r : Record) (key value : JsString) : Record :=
  if key = js "__proto__" then r else r.put key value

theorem get_assign {r : Record} {key : JsString} (h : key ≠ js "__proto__")
    (value other : JsString) :
    (r.assign key value).get other =
      if other = key then some value else r.get other := by
  rw [assign, if_neg h]
  by_cases hKey : other = key
  · rw [if_pos hKey, hKey, get_put_self]
  · rw [if_neg hKey, get_put_of_ne r hKey]

/-- Setting names one after the other. -/
def assignAll (settings : List (JsString × JsString)) (r : Record) : Record :=
  settings.foldl (fun r e => r.assign e.1 e.2) r

/-- **The last setting of a name is read**; `__proto__` is never set. -/
theorem get_assignAll (settings : List (JsString × JsString)) (r : Record)
    (key : JsString) :
    (assignAll settings r).get key =
      if key = js "__proto__" then r.get key
      else (settings.reverse.lookup key).or (r.get key) := by
  induction settings generalizing r with
  | nil => simp [assignAll]
  | cons e rest ih =>
      obtain ⟨name, value⟩ := e
      have hFold : assignAll ((name, value) :: rest) r =
          assignAll rest (r.assign name value) := rfl
      have hOne : [(name, value)].lookup key =
          if key = name then some value else none := by
        by_cases hKey : key = name
        · simp [hKey]
        · have hNe : (key == name) = false := by simpa using hKey
          simp [List.lookup_cons, hKey, hNe]
      rw [hFold, ih, List.reverse_cons, List.lookup_append, hOne]
      by_cases hProto : name = js "__proto__"
      · have hSame : r.assign name value = r := if_pos hProto
        rw [hSame, hProto]
        by_cases hKey : key = js "__proto__" <;> simp [hKey]
      · rw [get_assign hProto]
        by_cases hKey : key = name <;> simp [hKey, hProto]

/-- `Object.fromEntries(pairs)`: of equal keys the last one counts. -/
def ofPairs (pairs : List (JsString × JsString)) : Record :=
  pairs.foldl (fun r e => r.put e.1 e.2) empty

/-- Every property comes from a pair. -/
theorem mem_of_mem_ofPairs {pairs : List (JsString × JsString)}
    {e : JsString × JsString} (h : e ∈ (ofPairs pairs).entries) :
    e ∈ pairs := by
  have hFold : ∀ (r : Record), e ∈ (pairs.foldl
      (fun r e => r.put e.1 e.2) r).entries → e ∈ pairs ∨ e ∈ r.entries := by
    clear h
    induction pairs with
    | nil => exact fun r h => .inr h
    | cons pair rest ih =>
        intro r h
        rcases ih _ h with hRest | hPut
        · exact .inl (List.mem_cons_of_mem _ hRest)
        · rcases mem_put.mp hPut with rfl | ⟨-, hOld⟩
          · exact .inl List.mem_cons_self
          · exact .inr hOld
  rcases hFold empty h with hMem | hEmpty
  · exact hMem
  · cases hEmpty

/-- Of equal keys the last pair is read. -/
theorem get_ofPairs (pairs : List (JsString × JsString)) (key : JsString) :
    (ofPairs pairs).get key = pairs.reverse.lookup key := by
  -- what a foldl has done is read off its last step
  rw [← List.reverse_reverse pairs]
  induction pairs.reverse with
  | nil => rfl
  | cons pair rest ih =>
      have hPut : ofPairs (pair :: rest).reverse =
          (ofPairs rest.reverse).put pair.1 pair.2 := by
        simp [ofPairs, List.foldl_append]
      rw [hPut, List.reverse_reverse, List.lookup_cons]
      by_cases hKey : key = pair.1
      · simp [hKey]
      · have hFalse : (key == pair.1) = false := by simpa using hKey
        rw [get_put_of_ne _ hKey, ih, hFalse, List.reverse_reverse]

/-! ## Reading -/

/-- The members of `Object.prototype`. -/
def prototypeMembers : List JsString :=
  [js "constructor", js "__defineGetter__", js "__defineSetter__",
    js "hasOwnProperty", js "__lookupGetter__", js "__lookupSetter__",
    js "isPrototypeOf", js "propertyIsEnumerable", js "toString",
    js "valueOf", js "__proto__", js "toLocaleString"]

/-- What reading a property gives: its own text, or a member that every
object inherits. -/
inductive Property where
  | text (value : JsString)
  | inherited (member : JsString)
  deriving DecidableEq

/-- `!!property`: inherited members are functions and an object. -/
def Property.truthy : Property → Bool
  | .text value => !value.isEmpty
  | .inherited _ => true

/-- `String(property)` -/
def Property.toText : Property → JsString
  | .text value => value
  | .inherited member =>
      if member = js "__proto__" then js "[object Object]"
      else if member = js "constructor" then
        js "function Object() { [native code] }"
      else js "function " ++ member ++ js "() { [native code] }"

/-- `object[key]` -/
def read (r : Record) (key : JsString) : Option Property :=
  match r.get key with
  | some value => some (.text value)
  | none =>
      if key ∈ prototypeMembers then some (.inherited key) else none

/-- `!!object[key]` -/
def readsTruthy (r : Record) (key : JsString) : Bool :=
  match r.read key with
  | some property => property.truthy
  | none => false

/-- `key in object` -/
def has (r : Record) (key : JsString) : Bool := (r.read key).isSome

theorem has_of_get {r : Record} {key value : JsString}
    (h : r.get key = some value) : r.has key = true := by
  rw [has, read, h]
  rfl

/-- A name that an object does not have is not set, and can be. -/
theorem of_has_eq_false {r : Record} {key : JsString}
    (h : r.has key = false) : key ≠ js "__proto__" ∧ r.get key = none := by
  constructor
  · rintro rfl
    have hMember : js "__proto__" ∈ prototypeMembers := by decide
    cases hGet : r.get (js "__proto__") with
    | some value =>
        rw [has_of_get hGet] at h
        cases h
    | none =>
        rw [has, read, hGet] at h
        simp [hMember] at h
  · cases hGet : r.get key with
    | none => rfl
    | some value =>
        rw [has_of_get hGet] at h
        cases h

/-- A truthy property prints as something. -/
theorem Property.toText_ne_nil {property : Property}
    (h : property.truthy = true) : property.toText ≠ [] := by
  cases property with
  | text value => simpa [truthy, toText] using h
  | inherited member =>
      have hPrefix : js "function " ≠ [] := by decide
      rw [toText]
      by_cases hProto : member = js "__proto__"
      · rw [if_pos hProto]
        decide
      · rw [if_neg hProto]
        by_cases hConstructor : member = js "constructor"
        · rw [if_pos hConstructor]
          decide
        · rw [if_neg hConstructor, List.append_assoc]
          exact List.append_ne_nil_of_left_ne_nil hPrefix _

end Record

end OpenApe.Verified.JsText
