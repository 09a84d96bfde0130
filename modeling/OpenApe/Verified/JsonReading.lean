import OpenApe.Verified.Json

/-!
# Reading JSON text

The grammar that `JSON.parse` accepts, with the members of an object in the
order of the text.  Which number a numeral stands for is a parameter.
`readJson_stringify` is the round trip; so the text determines the value.
-/

namespace OpenApe.Verified.Json

open JsText Unicode

/-! ## Strings -/

def hexDigit? (u : CodeUnit) : Option Nat :=
  if 48 ≤ u && u ≤ 57 then some (u.toNat - 48)
  else if 65 ≤ u && u ≤ 70 then some (u.toNat - 55)
  else if 97 ≤ u && u ≤ 102 then some (u.toNat - 87)
  else none

/-- The unit of four hexadecimal digits. -/
def hexUnit? (a b c d : CodeUnit) : Option CodeUnit := do
  let high := (← hexDigit? a) * 4096 + (← hexDigit? b) * 256
  return (high + (← hexDigit? c) * 16 + (← hexDigit? d)).toUInt16

/-- The unit of an escape of two units. -/
def escape? (e : CodeUnit) : Option CodeUnit :=
  if (js "\"\\/bfnrt").contains e then some (escapedUnit e) else none

/-- Reads a string up to its closing quote: its units, and what follows. -/
def readText : JsString → Option (JsString × JsString)
  | [] => none
  | u :: rest =>
      if u = unit '"' then some ([], rest)
      else if u = unit '\\' then
        match rest with
        | [] => none
        | e :: rest =>
            if e = unit 'u' then
              match rest with
              | a :: b :: c :: d :: rest => do
                  let v ← hexUnit? a b c d
                  (readText rest).map fun read => (v :: read.1, read.2)
              | _ => none
            else do
              let v ← escape? e
              (readText rest).map fun read => (v :: read.1, read.2)
      else if u < 0x20 then none
      else (readText rest).map fun read => (u :: read.1, read.2)

theorem hexDigit?_hexDigit {d : Nat} (h : d < 16) :
    hexDigit? (hexDigit d) = some d :=
  (by decide : ∀ d < 16, hexDigit? (hexDigit d) = some d) d h

theorem hexUnit?_hexDigit (u : CodeUnit) :
    hexUnit? (hexDigit (u.toNat / 4096)) (hexDigit (u.toNat / 256 % 16))
      (hexDigit (u.toNat / 16 % 16)) (hexDigit (u.toNat % 16)) = some u := by
  have hBound := u.toNat_lt
  have hSum : u.toNat / 4096 * 4096 + u.toNat / 256 % 16 * 256 +
      u.toNat / 16 % 16 * 16 + u.toNat % 16 = u.toNat := by omega
  simp only [hexUnit?,
    hexDigit?_hexDigit (show u.toNat / 4096 < 16 by omega),
    hexDigit?_hexDigit (Nat.mod_lt _ (show 0 < 16 by decide)),
    Option.bind_eq_bind, Option.bind_some, hSum]
  exact congrArg some UInt16.ofNat_toNat

theorem readText_cons {u : CodeUnit} (hQuote : u ≠ unit '"')
    (hSlash : u ≠ unit '\\') (hControl : ¬u < 0x20) (rest : JsString) :
    readText (u :: rest) =
      (readText rest).map fun read => (u :: read.1, read.2) := by
  rw [readText.eq_def]
  simp only [hQuote, hSlash, hControl, if_false]

theorem readText_quote (rest : JsString) :
    readText (unit '"' :: rest) = some ([], rest) := by
  rw [readText.eq_def]
  simp only [if_true]

theorem readText_escape {e v : CodeUnit} (he : e ≠ unit 'u')
    (hEscape : escape? e = some v) (rest : JsString) :
    readText (unit '\\' :: e :: rest) =
      (readText rest).map fun read => (v :: read.1, read.2) := by
  have hSlash : unit '\\' ≠ unit '"' := by decide
  rw [readText.eq_def]
  simp only [hSlash, he, hEscape, if_false, if_true, Option.bind_eq_bind,
    Option.bind_some]

theorem readText_escapeUnit (u : CodeUnit) (rest : JsString) :
    readText (escapeUnit u ++ rest) =
      (readText rest).map fun read => (u :: read.1, read.2) := by
  unfold escapeUnit
  split_ifs with h8 h9 hA hC hD hQuote hSlash hEscaped
  · exact readText_escape (by decide) (h8 ▸ by decide) rest
  · exact readText_escape (by decide) (h9 ▸ by decide) rest
  · exact readText_escape (by decide) (hA ▸ by decide) rest
  · exact readText_escape (by decide) (hC ▸ by decide) rest
  · exact readText_escape (by decide) (hD ▸ by decide) rest
  · exact readText_escape (by decide) (hQuote ▸ by decide) rest
  · exact readText_escape (by decide) (hSlash ▸ by decide) rest
  · have hStart : unit '\\' ≠ unit '"' := by decide
    rw [readText.eq_def]
    simp only [unicodeEscape, List.cons_append, List.nil_append, hStart,
      if_false, if_true, hexUnit?_hexDigit, Option.bind_eq_bind,
      Option.bind_some]
  · rw [Bool.or_eq_true, Bool.or_eq_true, decide_eq_true_eq] at hEscaped
    push Not at hEscaped
    exact readText_cons hQuote hSlash hEscaped.1.1 rest

/-- Reading undoes writing. -/
theorem readText_escapeText (text rest : JsString) :
    readText (escapeText text ++ unit '"' :: rest) = some (text, rest) := by
  induction text using escapeText.induct with
  | case1 => exact readText_quote rest
  | case2 u => rw [escapeText, readText_escapeUnit, readText_quote]; rfl
  | case3 u v tail hPair ih =>
      have hSurrogate : ∀ w : CodeUnit,
          isHighSurrogate w = true ∨ isLowSurrogate w = true →
          ∀ rest, readText (w :: rest) =
            (readText rest).map fun read => (w :: read.1, read.2) := by
        intro w hw
        refine readText_cons ?_ ?_ ?_
        · rintro rfl
          revert hw
          decide
        · rintro rfl
          revert hw
          decide
        · intro hControl
          simp only [isHighSurrogate, isLowSurrogate, Bool.and_eq_true,
            decide_eq_true_eq, UInt16.lt_iff_toNat_lt,
            UInt16.le_iff_toNat_le] at hw hControl
          simp at hw hControl
          omega
      obtain ⟨hHigh, hLow⟩ := Bool.and_eq_true_iff.mp hPair
      rw [escapeText, if_pos hPair, List.cons_append, List.cons_append,
        hSurrogate u (.inl hHigh), hSurrogate v (.inr hLow), ih]
      rfl
  | case4 u v tail hPair ih =>
      rw [escapeText, if_neg hPair, List.append_assoc, readText_escapeUnit,
        ih]
      rfl

/-! ## Values -/

/-- What the engine takes a numeral for: the text of its number, none where
it is no number of the grammar or not finite. -/
class NumberReading where
  read : JsString → Option JsonNumber
  /-- The text of a number is read as this number. -/
  read_text : ∀ numeral number, read numeral = some number →
    read number.text = some number

/-- The reading that takes every text of a number for this number. -/
@[reducible] def plainNumbers : NumberReading where
  read numeral :=
    if h : numeral.all isNumberUnit = true ∧ (numeral.head?.any
        fun u => (48 ≤ u && u ≤ 57) || u == unit '-') = true then
      some ⟨numeral, h.1, h.2⟩
    else none
  read_text _ number _ := dif_pos ⟨number.units, number.leads⟩

/-- The numbers of a value are numbers of the engine. -/
inductive Readable [NumberReading] : JsonValue → Prop
  | null : Readable .null
  | bool (value : Bool) : Readable (.bool value)
  | number {numeral : JsString} {value : JsonNumber}
      (hRead : NumberReading.read numeral = some value) :
      Readable (.number value)
  | string (value : JsString) : Readable (.string value)
  | array {items : List JsonValue} (hItems : ∀ item ∈ items, Readable item) :
      Readable (.array items)
  | object {members : List (JsString × JsonValue)}
      (hMembers : ∀ member ∈ members, Readable member.2) :
      Readable (.object members)

/-- A value that a program can hold: its numbers are numbers of the engine,
and no object has a key twice. -/
inductive Proper [NumberReading] : JsonValue → Prop
  | null : Proper .null
  | bool (value : Bool) : Proper (.bool value)
  | number {numeral : JsString} {value : JsonNumber}
      (hRead : NumberReading.read numeral = some value) :
      Proper (.number value)
  | string (value : JsString) : Proper (.string value)
  | array {items : List JsonValue} (hItems : ∀ item ∈ items, Proper item) :
      Proper (.array items)
  | object {members : List (JsString × JsonValue)}
      (hKeys : (members.map Prod.fst).Nodup)
      (hMembers : ∀ member ∈ members, Proper member.2) :
      Proper (.object members)

def isBlank (u : CodeUnit) : Bool :=
  u == 0x20 || u == 0x09 || u == 0x0A || u == 0x0D

def skipBlanks (text : JsString) : JsString := text.dropWhile isBlank

/-- The units of a numeral. -/
def isNumeralUnit (u : CodeUnit) : Bool := isNumberUnit u || u == unit 'E'

/-- What follows a unit that stands behind blanks. -/
def expect (u : CodeUnit) (text : JsString) : Option JsString :=
  match skipBlanks text with
  | [] => none
  | v :: rest => if v = u then some rest else none

def readLiteral (text : JsString) : Option (JsonValue × JsString) :=
  if (js "null").isPrefixOf text then some (.null, text.drop 4)
  else if (js "true").isPrefixOf text then some (.bool true, text.drop 4)
  else if (js "false").isPrefixOf text then some (.bool false, text.drop 5)
  else none

mutual

/-- Reads a value at the front of a text: the value, and what follows. -/
def readValue [NumberReading] :
    Nat → JsString → Option (JsonValue × JsString)
  | 0, _ => none
  | fuel + 1, text =>
      match skipBlanks text with
      | [] => none
      | u :: rest =>
          if u = unit '"' then
            (readText rest).map fun read => (.string read.1, read.2)
          else if u = unit '[' then
            match expect (unit ']') rest with
            | some rest => some (.array [], rest)
            | none =>
                (readItems fuel rest).map fun read => (.array read.1, read.2)
          else if u = unit '{' then
            match expect (unit '}') rest with
            | some rest => some (.object [], rest)
            | none =>
                (readMembers fuel rest).map
                  fun read => (.object read.1, read.2)
          else if leadsNumber u then
            (NumberReading.read ((u :: rest).takeWhile isNumeralUnit)).map
              fun n => (.number n, (u :: rest).dropWhile isNumeralUnit)
          else readLiteral (u :: rest)

/-- Reads one item or more, and the closing bracket. -/
def readItems [NumberReading] :
    Nat → JsString → Option (List JsonValue × JsString)
  | 0, _ => none
  | fuel + 1, text => do
      let (item, rest) ← readValue fuel text
      match expect (unit ']') rest with
      | some rest => some ([item], rest)
      | none => do
          let (items, rest) ← readItems fuel (← expect (unit ',') rest)
          return (item :: items, rest)

/-- Reads one member or more, and the closing brace. -/
def readMembers [NumberReading] :
    Nat → JsString → Option (List (JsString × JsonValue) × JsString)
  | 0, _ => none
  | fuel + 1, text => do
      let (key, rest) ← readText (← expect (unit '"') text)
      let (value, rest) ← readValue fuel (← expect (unit ':') rest)
      match expect (unit '}') rest with
      | some rest => some ([(key, value)], rest)
      | none => do
          let (members, rest) ← readMembers fuel (← expect (unit ',') rest)
          return ((key, value) :: members, rest)

end

/-- Reads a whole text.  Its length is fuel enough: an array or object in
another one has two brackets. -/
def readJson [NumberReading] (text : JsString) : Option JsonValue := do
  let (value, rest) ← readValue text.length text
  if (skipBlanks rest).isEmpty then some value else none

/-! ## The round trip -/

theorem skipBlanks_cons {u : CodeUnit} (h : isBlank u = false)
    (rest : JsString) : skipBlanks (u :: rest) = u :: rest := by
  rw [skipBlanks, List.dropWhile_cons_of_neg (by rw [h]; decide)]

theorem expect_self {u : CodeUnit} (h : isBlank u = false)
    (rest : JsString) : expect u (u :: rest) = some rest := by
  rw [expect, skipBlanks_cons h]
  exact if_pos rfl

theorem expect_ne {u v : CodeUnit} (h : isBlank v = false) (hNe : v ≠ u)
    (rest : JsString) : expect u (v :: rest) = none := by
  rw [expect, skipBlanks_cons h]
  exact if_neg hNe

theorem stringify_eq_cons (value : JsonValue) :
    ∃ tail, stringify value = lead value :: tail := by
  have hHead := head?_stringify value []
  rw [List.append_nil] at hHead
  exact List.head?_eq_some_iff.mp hHead

theorem isBlank_lead (value : JsonValue) : isBlank (lead value) = false := by
  cases value with
  | number value =>
      have hLeads := leadsNumber_lead_number value
      rw [Bool.eq_false_iff]
      intro hBlank
      simp only [isBlank, Bool.or_eq_true, beq_iff_eq] at hBlank
      rcases hBlank with ((hu | hu) | hu) | hu <;> rw [hu] at hLeads <;>
        exact absurd hLeads (by decide)
  | bool value => cases value <;> decide
  | null => decide
  | string value => change isBlank (unit '"') = false; decide
  | array items => change isBlank (unit '[') = false; decide
  | object members => change isBlank (unit '{') = false; decide

/-- No value starts as what closes or separates. -/
theorem expect_stringify {u : CodeUnit} (hu : u ∈ js ",]\x7d")
    (value : JsonValue) (rest : JsString) :
    expect u (stringify value ++ rest) = none := by
  obtain ⟨tail, hText⟩ := stringify_eq_cons value
  rw [hText, List.cons_append]
  refine expect_ne (isBlank_lead value) (fun hLead => ?_) _
  exact stringify_ne_cons hu value [] tail
    (by rw [hText, hLead, List.append_nil])

/-- The text goes on with no unit of a numeral. -/
def Ended (rest : JsString) : Prop :=
  ∀ u ∈ rest.head?, isNumeralUnit u = false

theorem ended_cons {u : CodeUnit} {rest : JsString}
    (h : isNumeralUnit u = false) : Ended (u :: rest) := by
  intro v hHead
  cases hHead
  exact h

theorem takeWhile_numeral (value : JsonNumber) {rest : JsString}
    (h : Ended rest) :
    (value.text ++ rest).takeWhile isNumeralUnit = value.text ∧
      (value.text ++ rest).dropWhile isNumeralUnit = rest := by
  have hUnits : ∀ u ∈ value.text, isNumeralUnit u = true := fun u hu => by
    rw [isNumeralUnit, List.all_eq_true.mp value.units u hu, Bool.true_or]
  rw [List.takeWhile_append_of_pos hUnits, List.dropWhile_append_of_pos hUnits]
  cases rest with
  | nil => exact ⟨List.append_nil _, rfl⟩
  | cons u rest =>
      have hu : ¬isNumeralUnit u = true := by rw [h u rfl]; decide
      rw [List.takeWhile_cons_of_neg hu, List.dropWhile_cons_of_neg hu]
      exact ⟨List.append_nil _, rfl⟩

theorem ended_items (items : List JsonValue) (rest : JsString) :
    Ended (stringifyItems items ++ rest) := by
  cases items with
  | nil => exact ended_cons (by decide)
  | cons item items => exact ended_cons (by decide)

theorem ended_members (members : List (JsString × JsonValue))
    (rest : JsString) : Ended (stringifyMembers members ++ rest) := by
  cases members with
  | nil => exact ended_cons (by decide)
  | cons member members => exact ended_cons (by decide)

/-- The text of a value is read back wherever it ends. -/
def ReadsBack [NumberReading] (value : JsonValue) : Prop :=
  ∀ fuel rest, Ended rest → (stringify value).length ≤ fuel →
    readValue fuel (stringify value ++ rest) = some (value, rest)

section

variable [NumberReading]

theorem readItems_stringify {item : JsonValue} {items : List JsonValue}
    (hItems : ∀ value ∈ item :: items, ReadsBack value) {fuel : Nat}
    (rest : JsString)
    (hFuel : (stringify item ++ stringifyItems items).length ≤ fuel) :
    readItems fuel (stringify item ++ (stringifyItems items ++ rest)) =
      some (item :: items, rest) := by
  induction items generalizing item fuel with
  | nil =>
      obtain ⟨fuel, rfl⟩ : ∃ n, fuel = n + 1 := ⟨fuel - 1, by
        simp only [stringifyItems, List.length_append,
          List.length_singleton] at hFuel
        omega⟩
      have hItem := hItems item (by simp) fuel _ (ended_items [] rest) (by
        simp only [stringifyItems, List.length_append,
          List.length_singleton] at hFuel
        omega)
      have hClose : expect (unit ']') (stringifyItems [] ++ rest) =
          some rest := expect_self (by decide) rest
      simp only [readItems, hItem, hClose, Option.bind_eq_bind,
        Option.bind_some]
  | cons next items ih =>
      have hLength : (stringify item).length + 1 +
          (stringify next ++ stringifyItems items).length ≤ fuel := by
        simp only [stringifyItems, List.length_append,
          List.length_cons] at hFuel ⊢
        omega
      obtain ⟨fuel, rfl⟩ : ∃ n, fuel = n + 1 := ⟨fuel - 1, by omega⟩
      have hItem := hItems item (by simp) fuel _
        (ended_items (next :: items) rest) (by omega)
      have hRest := @ih next
        (fun value hValue => hItems value (List.mem_cons_of_mem _ hValue))
        fuel (by omega)
      have hText : stringifyItems (next :: items) ++ rest =
          unit ',' :: (stringify next ++ (stringifyItems items ++ rest)) := by
        rw [stringifyItems, List.cons_append, List.cons_append,
          List.append_assoc]
      have hOpen : expect (unit ']') (stringifyItems (next :: items) ++ rest)
          = none := hText ▸ expect_ne (by decide) (by decide) _
      have hComma : expect (unit ',') (stringifyItems (next :: items) ++ rest)
          = some (stringify next ++ (stringifyItems items ++ rest)) :=
        hText ▸ expect_self (by decide) _
      simp only [readItems, hItem, hOpen, hComma, hRest, Option.bind_eq_bind,
        Option.bind_some]
      rfl

/-- A member whose value is read back, and what is read after it. -/
theorem readMembers_step {key : JsString} {value : JsonValue} {fuel : Nat}
    {after : JsString}
    (hValue : readValue fuel (stringify value ++ after) =
      some (value, after)) :
    readMembers (fuel + 1)
        (quote key ++ (unit ':' :: (stringify value ++ after))) =
      match expect (unit '}') after with
      | some rest => some ([(key, value)], rest)
      | none => do
          let (members, rest) ← readMembers fuel (← expect (unit ',') after)
          return ((key, value) :: members, rest) := by
  have hQuote : ∀ rest, quote key ++ rest =
      unit '"' :: (escapeText key ++ unit '"' :: rest) := by
    intro rest
    rw [quote, List.cons_append, List.cons_append, List.append_assoc]
    rfl
  rw [readMembers, hQuote]
  simp only [expect_self (show isBlank (unit '"') = false by decide),
    expect_self (show isBlank (unit ':') = false by decide),
    readText_escapeText, hValue, Option.bind_eq_bind, Option.bind_some]

theorem readMembers_stringify {key : JsString} {value : JsonValue}
    {members : List (JsString × JsonValue)}
    (hMembers : ∀ member ∈ (key, value) :: members, ReadsBack member.2)
    {fuel : Nat} (rest : JsString)
    (hFuel : (stringify value ++ stringifyMembers members).length ≤ fuel) :
    readMembers fuel (quote key ++ (unit ':' ::
        (stringify value ++ (stringifyMembers members ++ rest)))) =
      some ((key, value) :: members, rest) := by
  have hReads : ReadsBack value := hMembers (key, value) (by simp)
  induction members generalizing key value fuel with
  | nil =>
      simp only [stringifyMembers, List.length_append,
        List.length_singleton] at hFuel
      obtain ⟨fuel, rfl⟩ : ∃ n, fuel = n + 1 := ⟨fuel - 1, by omega⟩
      have hClose : expect (unit '}') (stringifyMembers [] ++ rest) =
          some rest := expect_self (by decide) rest
      rw [readMembers_step (hReads fuel _ (ended_members [] rest) (by omega)),
        hClose]
  | cons next members ih =>
      obtain ⟨name, inner⟩ := next
      have hLength : (stringify value).length + 1 +
          (stringify inner ++ stringifyMembers members).length ≤ fuel := by
        simp only [stringifyMembers, List.length_append,
          List.length_cons] at hFuel ⊢
        omega
      obtain ⟨fuel, rfl⟩ : ∃ n, fuel = n + 1 := ⟨fuel - 1, by omega⟩
      have hRest := @ih name inner
        (fun member hMember =>
          hMembers member (List.mem_cons_of_mem _ hMember)) fuel (by omega)
        (hMembers (name, inner) (by simp))
      have hText : stringifyMembers ((name, inner) :: members) ++ rest =
          unit ',' :: (quote name ++ (unit ':' ::
            (stringify inner ++ (stringifyMembers members ++ rest)))) := by
        simp only [stringifyMembers, List.cons_append, List.append_assoc]
      have hOpen : expect (unit '}')
          (stringifyMembers ((name, inner) :: members) ++ rest) = none :=
        hText ▸ expect_ne (by decide) (by decide) _
      have hComma : expect (unit ',')
          (stringifyMembers ((name, inner) :: members) ++ rest) =
            some (quote name ++ (unit ':' ::
              (stringify inner ++ (stringifyMembers members ++ rest)))) :=
        hText ▸ expect_self (by decide) _
      rw [readMembers_step (hReads fuel _ (ended_members _ rest) (by omega)),
        hOpen]
      simp only [hComma, hRest, Option.bind_eq_bind, Option.bind_some]
      rfl

theorem readsBack_number {numeral : JsString} {number : JsonNumber}
    (hRead : NumberReading.read numeral = some number) :
    ReadsBack (.number number) := by
  intro fuel rest hRest hFuel
  have hBlank := isBlank_lead (.number number)
  have hLeads := leadsNumber_lead_number number
  have hRun := takeWhile_numeral number hRest
  have hNumber := NumberReading.read_text _ _ hRead
  obtain ⟨tail, hText⟩ := number.text_eq_cons
  simp only [lead] at hBlank hLeads
  simp only [stringify] at hFuel ⊢
  generalize number.text.headD 0 = u at *
  have hNe : ∀ v, leadsNumber v = false → u ≠ v := by
    rintro v hv rfl
    rw [hv] at hLeads
    cases hLeads
  rw [hText] at hFuel hRun hNumber ⊢
  cases fuel with
  | zero => cases hFuel
  | succ fuel =>
      rw [List.cons_append] at hRun ⊢
      rw [readValue, skipBlanks_cons hBlank]
      simp only [hNe (unit '"') (by decide), hNe (unit '[') (by decide),
        hNe (unit '{') (by decide), hLeads, if_false, if_true, hRun.1,
        hRun.2, hNumber, Option.map_some]

theorem readsBack_string (text : JsString) : ReadsBack (.string text) := by
  intro fuel rest hRest hFuel
  have hText : stringify (.string text) ++ rest =
      unit '"' :: (escapeText text ++ unit '"' :: rest) := by
    rw [stringify, quote, List.cons_append, List.cons_append,
      List.append_assoc]
    rfl
  cases fuel with
  | zero => cases hFuel
  | succ fuel =>
      rw [readValue, hText, skipBlanks_cons (by decide)]
      simp only [if_true, readText_escapeText, Option.map_some]

theorem readsBack_array {items : List JsonValue}
    (hItems : ∀ item ∈ items, ReadsBack item) :
    ReadsBack (.array items) := by
  intro fuel rest hRest hFuel
  have hOther : unit '[' ≠ unit '"' := by decide
  cases items with
  | nil =>
      cases fuel with
      | zero => exact absurd hFuel (by decide)
      | succ fuel => rfl
  | cons item items =>
      simp only [stringify, List.cons_append, List.length_cons] at hFuel ⊢
      cases fuel with
      | zero => exact absurd hFuel (Nat.not_succ_le_zero _)
      | succ fuel =>
          rw [readValue, skipBlanks_cons (by decide), List.append_assoc]
          simp only [hOther, if_false, if_true, expect_stringify
            (show unit ']' ∈ js ",]\x7d" by decide), readItems_stringify
            hItems rest (Nat.le_of_succ_le_succ hFuel), Option.map_some]

theorem readsBack_object {members : List (JsString × JsonValue)}
    (hMembers : ∀ member ∈ members, ReadsBack member.2) :
    ReadsBack (.object members) := by
  intro fuel rest hRest hFuel
  have hString : unit '{' ≠ unit '"' := by decide
  have hArray : unit '{' ≠ unit '[' := by decide
  cases members with
  | nil =>
      cases fuel with
      | zero => exact absurd hFuel (by decide)
      | succ fuel => rfl
  | cons member members =>
      obtain ⟨key, value⟩ := member
      simp only [stringify, List.cons_append, List.length_cons,
        List.append_assoc] at hFuel ⊢
      cases fuel with
      | zero => exact absurd hFuel (Nat.not_succ_le_zero _)
      | succ fuel =>
          have hOpen : ∀ after,
              expect (unit '}') (quote key ++ after) = none := by
            intro after
            rw [quote, List.cons_append]
            exact expect_ne (by decide) (by decide) _
          rw [readValue, skipBlanks_cons (by decide)]
          simp only [hString, hArray, if_false, if_true, hOpen]
          rw [readMembers_stringify hMembers rest (by
            simp only [List.length_append, List.length_cons] at hFuel ⊢
            omega)]
          rfl

/-- A value is read back from its text. -/
theorem readsBack {value : JsonValue} (h : Readable value) :
    ReadsBack value := by
  induction h with
  | null =>
      intro fuel rest hRest hFuel
      cases fuel with
      | zero => exact absurd hFuel (by decide)
      | succ fuel => rfl
  | bool value =>
      intro fuel rest hRest hFuel
      cases fuel with
      | zero => cases value <;> exact absurd hFuel (by decide)
      | succ fuel => cases value <;> rfl
  | number hRead => exact readsBack_number hRead
  | string text => exact readsBack_string text
  | array hItems ih => exact readsBack_array ih
  | object hMembers ih => exact readsBack_object ih

/-- **The round trip.** -/
theorem readJson_stringify {value : JsonValue} (h : Readable value) :
    readJson (stringify value) = some value := by
  have hRead := readsBack h (stringify value).length []
    (fun u hHead => nomatch hHead) (Nat.le_refl _)
  rw [List.append_nil] at hRead
  rw [readJson, hRead]
  rfl

theorem Proper.readable {value : JsonValue} (h : Proper value) :
    Readable value := by
  induction h with
  | null => exact .null
  | bool value => exact .bool value
  | number hRead => exact .number hRead
  | string value => exact .string value
  | array hItems ih => exact .array ih
  | object hKeys hMembers ih => exact .object ih

end

/-! ## The text determines the value -/

theorem readable_plainNumbers (value : JsonValue) :
    @Readable plainNumbers value := by
  let _ : NumberReading := plainNumbers
  have hNumber : ∀ number : JsonNumber,
      NumberReading.read number.text = some number :=
    fun number => dif_pos ⟨number.units, number.leads⟩
  exact @JsonValue.rec Readable (fun items => ∀ item ∈ items, Readable item)
    (fun members => ∀ member ∈ members, Readable member.2)
    (fun member => Readable member.2) .null .bool
    (fun number => .number (hNumber number)) .string (fun _ ih => .array ih)
    (fun _ ih => .object ih) nofun
    (fun _ _ h ih => List.forall_mem_cons.mpr ⟨h, ih⟩) nofun
    (fun _ _ h ih => List.forall_mem_cons.mpr ⟨h, ih⟩) (fun _ _ h => h) value

/-- **The text determines the value.** -/
theorem stringify_injective : Function.Injective stringify := by
  intro value value' h
  let _ : NumberReading := plainNumbers
  have hRead := congrArg readJson h
  rw [readJson_stringify (readable_plainNumbers value),
    readJson_stringify (readable_plainNumbers value')] at hRead
  exact Option.some.inj hRead

/-- Texts of values joined with commas determine the values. -/
theorem intercalate_stringify_injective {values values' : List JsonValue}
    (h : (js ",").intercalate (values.map stringify) =
      (js ",").intercalate (values'.map stringify)) : values = values' := by
  have hArrays : stringify (.array values) = stringify (.array values') := by
    rw [stringify_array, stringify_array, h]
  exact JsonValue.array.inj (stringify_injective hArrays)

end OpenApe.Verified.Json
