import Mathlib.Data.List.TakeWhile
import OpenApe.Verified.Unicode

/-!
# Textual internet addresses

The texts `net.isIP` accepts and the address each of them denotes.  A text
is a dotted quad, or up to eight groups of hexadecimal digits in which one
`::` stands for the missing zero groups, the last two groups may be written
as a dotted quad and a zone may follow.  One address has many spellings;
`parseAddress` maps all of them to one value, whose invariants the two
address types carry.
-/

namespace OpenApe.Verified.IpLiteral

open JsText Unicode

/-! ## Digits -/

def isDigit (u : CodeUnit) : Bool := 48 ≤ u.toNat && u.toNat ≤ 57

def isHexDigit (u : CodeUnit) : Bool :=
  isDigit u || (65 ≤ u.toNat && u.toNat ≤ 70) ||
    (97 ≤ u.toNat && u.toNat ≤ 102)

/-- The value of a hexadecimal digit of either case. -/
def digitValue (u : CodeUnit) : Nat :=
  if u.toNat ≤ 57 then u.toNat - 48
  else if u.toNat ≤ 70 then u.toNat - 55 else u.toNat - 87

/-- `Number(text)`, for a text of decimal digits. -/
def decimal (text : JsString) : Nat :=
  text.foldl (fun value u => 10 * value + digitValue u) 0

/-- `parseInt(text, 16)`, for a text of hexadecimal digits. -/
def hexadecimal (text : JsString) : Nat :=
  text.foldl (fun value u => 16 * value + digitValue u) 0

@[simp] theorem isDigit_iff (u : CodeUnit) :
    isDigit u = true ↔ 48 ≤ u.toNat ∧ u.toNat ≤ 57 := by
  simp [isDigit]

@[simp] theorem isHexDigit_iff (u : CodeUnit) :
    isHexDigit u = true ↔ (48 ≤ u.toNat ∧ u.toNat ≤ 57) ∨
      (65 ≤ u.toNat ∧ u.toNat ≤ 70) ∨ (97 ≤ u.toNat ∧ u.toNat ≤ 102) := by
  simp [isHexDigit, or_assoc]

/-! ## Pieces of an address -/

/-- One byte in decimal, without a leading zero. -/
def octet (text : JsString) : Option Nat :=
  if text ≠ [] ∧ text.all isDigit ∧
      (text.head? = some (unit '0') → text.length = 1) ∧ decimal text < 256
  then some (decimal text) else none

/-- One group: up to four hexadecimal digits. -/
def hexGroup (text : JsString) : Option Nat :=
  if text ≠ [] ∧ text.length ≤ 4 ∧ text.all isHexDigit
  then some (hexadecimal text) else none

theorem hexGroup_eq_some {text : JsString} {group : Nat} :
    hexGroup text = some group ↔ text ≠ [] ∧ text.length ≤ 4 ∧
      (∀ u ∈ text, isHexDigit u = true) ∧ hexadecimal text = group := by
  simp only [hexGroup, List.all_eq_true]
  split
  · rename_i h
    simp only [Option.some.injEq]
    exact ⟨fun hEq => ⟨h.1, h.2.1, h.2.2, hEq⟩, fun hText => hText.2.2.2⟩
  · rename_i h
    simp only [reduceCtorEq, false_iff]
    exact fun hText => h ⟨hText.1, hText.2.1, hText.2.2.1⟩

theorem octet_eq_some {text : JsString} {value : Nat} :
    octet text = some value ↔ text ≠ [] ∧ (∀ u ∈ text, isDigit u = true) ∧
      (text.head? = some (unit '0') → text.length = 1) ∧ value < 256 ∧
      decimal text = value := by
  simp only [octet, List.all_eq_true]
  split
  · rename_i h
    simp only [Option.some.injEq]
    exact ⟨fun hEq => ⟨h.1, h.2.1, h.2.2.1, hEq ▸ h.2.2.2, hEq⟩,
      fun hText => hText.2.2.2.2⟩
  · rename_i h
    simp only [reduceCtorEq, false_iff]
    exact fun hText => h ⟨hText.1, hText.2.1, hText.2.2.1,
      hText.2.2.2.2 ▸ hText.2.2.2.1⟩

private theorem mul_pow_le_foldl (text : JsString) (value : Nat) :
    value * 10 ^ text.length ≤
      text.foldl (fun value u => 10 * value + digitValue u) value := by
  induction text generalizing value with
  | nil => simp
  | cons u text ih =>
      have hStep : value * 10 ^ (text.length + 1) ≤
          (10 * value + digitValue u) * 10 ^ text.length := by
        rw [Nat.pow_succ, Nat.add_mul, Nat.mul_comm (10 ^ _) 10,
          ← Nat.mul_assoc, Nat.mul_comm value 10]
        exact Nat.le_add_right _ _
      exact hStep.trans (ih _)

/-- A byte has three digits at most. -/
theorem length_le_of_octet {text : JsString} {value : Nat}
    (h : octet text = some value) : text.length ≤ 3 := by
  obtain ⟨hNe, hDigits, hZero, hLt, rfl⟩ := octet_eq_some.mp h
  obtain ⟨u, rest, rfl⟩ := List.exists_cons_of_ne_nil hNe
  by_contra hLong
  have hRest : 3 ≤ rest.length := by
    rw [List.length_cons] at hLong
    omega
  have hFirst : digitValue u ≠ 0 := by
    intro hValue
    have hDigit := (isDigit_iff u).mp (hDigits u List.mem_cons_self)
    have hUnit : u = unit '0' := by
      rw [digitValue, if_pos hDigit.2] at hValue
      apply UInt16.toNat_inj.mp
      change u.toNat = 48
      omega
    have hOne := hZero (by rw [List.head?_cons, hUnit])
    rw [List.length_cons] at hOne
    omega
  have hLe := mul_pow_le_foldl rest (digitValue u)
  have hPow : 10 ^ 3 ≤ 10 ^ rest.length :=
    Nat.pow_le_pow_right (by decide) hRest
  have hMul : 10 ^ 3 ≤ digitValue u * 10 ^ rest.length :=
    hPow.trans (Nat.le_mul_of_pos_left _ (Nat.pos_of_ne_zero hFirst))
  have hValue : decimal (u :: rest) = rest.foldl
      (fun value u => 10 * value + digitValue u) (digitValue u) := by
    simp [decimal]
  rw [hValue] at hLt
  omega

/-- Four bytes with dots between them. -/
def dotted (text : JsString) : Option (List Nat) :=
  match text.splitOn (unit '.') with
  | [a, b, c, d] => do
      some [← octet a, ← octet b, ← octet c, ← octet d]
  | _ => none

/-- The two groups a dotted quad fills. -/
def quadGroups (text : JsString) : Option (List Nat) :=
  match dotted text with
  | some [a, b, c, d] => some [256 * a + b, 256 * c + d]
  | _ => none

/-- The groups of colon-separated pieces.  Only the last piece of a text may
be a dotted quad. -/
def groupsOf (last : Bool) : List JsString → Option (List Nat)
  | [] => some []
  | [piece] =>
      match hexGroup piece with
      | some group => some [group]
      | none => if last then quadGroups piece else none
  | piece :: rest =>
      match hexGroup piece, groupsOf last rest with
      | some group, some groups => some (group :: groups)
      | _, _ => none

/-- The colon-separated pieces of one side of `::`. -/
def pieces (text : JsString) : List JsString :=
  if text = [] then [] else text.splitOn (unit ':')

/-- What stands before and after the first `::`. -/
def breakDouble : JsString → Option (JsString × JsString)
  | [] => none
  | [_] => none
  | u :: v :: rest =>
      if u = unit ':' ∧ v = unit ':' then some ([], rest)
      else (breakDouble (v :: rest)).map fun p => (u :: p.1, p.2)

/-- The eight groups of an address without its zone. -/
def groupsOfBody (body : JsString) : Option (List Nat) :=
  match breakDouble body with
  | none => groupsOf true (body.splitOn (unit ':'))
  | some (before, after) =>
      match groupsOf false (pieces before), groupsOf true (pieces after) with
      | some left, some right =>
          -- `::` stands for one group at least
          if left.length + right.length ≤ 7 then
            some (left ++
              List.replicate (8 - (left.length + right.length)) 0 ++ right)
          else none
      | _, _ => none

/-- The units of a zone name. -/
def isZoneUnit (u : CodeUnit) : Bool :=
  isDigit u || (65 ≤ u.toNat && u.toNat ≤ 90) ||
    (97 ≤ u.toNat && u.toNat ≤ 122) || u == unit '-' || u == unit '.' ||
    u == unit ':'

/-- No zone, or `%` and its name. -/
def isZone : JsString → Bool
  | [] => true
  | _ :: name => name ≠ [] && name.all isZoneUnit

/-! ## Addresses -/

/-- A 32-bit address. -/
structure IPv4 where
  octets : List Nat
  length_octets : octets.length = 4
  octets_lt : ∀ o ∈ octets, o < 256
  deriving DecidableEq

/-- A 128-bit address. -/
structure IPv6 where
  groups : List Nat
  length_groups : groups.length = 8
  groups_lt : ∀ g ∈ groups, g < 65536
  deriving DecidableEq

inductive Address where
  | v4 (address : IPv4)
  | v6 (address : IPv6)
  deriving DecidableEq

def IPv4.ofOctets (octets : List Nat) : Option IPv4 :=
  if h : octets.length = 4 ∧ ∀ o ∈ octets, o < 256
  then some ⟨octets, h.1, h.2⟩ else none

def IPv6.ofGroups (groups : List Nat) : Option IPv6 :=
  if h : groups.length = 8 ∧ ∀ g ∈ groups, g < 65536
  then some ⟨groups, h.1, h.2⟩ else none

/-- The address as one number. -/
def IPv4.number (address : IPv4) : Nat :=
  address.octets.foldl (fun value o => 256 * value + o) 0

@[inherit_doc IPv4.number]
def IPv6.number (address : IPv6) : Nat :=
  address.groups.foldl (fun value g => 65536 * value + g) 0

def parseIPv4 (text : JsString) : Option IPv4 :=
  (dotted text).bind IPv4.ofOctets

def parseIPv6 (text : JsString) : Option IPv6 :=
  if isZone (text.dropWhile (· ≠ unit '%')) then
    (groupsOfBody (text.takeWhile (· ≠ unit '%'))).bind IPv6.ofGroups
  else none

/-- The address a text spells. -/
def parseAddress (text : JsString) : Option Address :=
  match parseIPv4 text with
  | some address => some (.v4 address)
  | none => (parseIPv6 text).map .v6

/-- `net.isIP`: the family of the address, or 0. -/
def isIP (text : JsString) : Nat :=
  match parseAddress text with
  | some (.v4 _) => 4
  | some (.v6 _) => 6
  | none => 0

/-! ## Letter case -/

theorem isDigit_asciiLower (u : CodeUnit) :
    isDigit (asciiLower u) = isDigit u := by
  rw [Bool.eq_iff_iff, isDigit_iff, isDigit_iff, asciiLower_toNat]
  split <;> omega

theorem isHexDigit_asciiLower (u : CodeUnit) :
    isHexDigit (asciiLower u) = isHexDigit u := by
  rw [Bool.eq_iff_iff, isHexDigit_iff, isHexDigit_iff, asciiLower_toNat]
  split <;> omega

/-- A unit that is no letter is met in the lowered text where it was met
before. -/
theorem asciiLower_eq_iff {u c : CodeUnit}
    (hUpper : c.toNat < 65 ∨ 90 < c.toNat)
    (hLower : c.toNat < 97 ∨ 122 < c.toNat) : asciiLower u = c ↔ u = c := by
  rw [← UInt16.toNat_inj, ← UInt16.toNat_inj, asciiLower_toNat]
  split <;> omega

theorem isZoneUnit_asciiLower (u : CodeUnit) :
    isZoneUnit (asciiLower u) = isZoneUnit u := by
  have hLetter : ∀ v : CodeUnit, isZoneUnit v = true ↔
      (48 ≤ v.toNat ∧ v.toNat ≤ 57) ∨ (65 ≤ v.toNat ∧ v.toNat ≤ 90) ∨
        (97 ≤ v.toNat ∧ v.toNat ≤ 122) ∨ v.toNat = 45 ∨ v.toNat = 46 ∨
          v.toNat = 58 := by
    intro v
    simp [isZoneUnit, ← UInt16.toNat_inj, or_assoc]
    rfl
  rw [Bool.eq_iff_iff, hLetter, hLetter, asciiLower_toNat]
  split <;> omega

theorem digitValue_asciiLower {u : CodeUnit} (h : isHexDigit u = true) :
    digitValue (asciiLower u) = digitValue u := by
  rw [isHexDigit_iff] at h
  simp only [digitValue, asciiLower_toNat]
  split_ifs <;> omega

/-- Splitting commutes with a renaming that keeps the separator apart. -/
private theorem splitOn_map {f : CodeUnit → CodeUnit} {c : CodeUnit}
    (hf : ∀ u, f u = c ↔ u = c) (text : JsString) :
    (text.map f).splitOn c = (text.splitOn c).map (List.map f) := by
  induction text with
  | nil => rfl
  | cons u rest ih =>
      rw [List.map_cons, List.splitOn_cons_eq_if_modifyHead,
        List.splitOn_cons_eq_if_modifyHead, ih]
      by_cases hu : u = c
      · simp [hu, (hf c).mpr rfl]
      · have hfu : f u ≠ c := mt (hf u).mp hu
        simp only [beq_iff_eq, hu, hfu, if_false]
        cases rest.splitOn c <;> rfl

private theorem forall_mem_map_asciiLower {p : CodeUnit → Bool}
    (hp : ∀ u, p (asciiLower u) = p u) (text : JsString) :
    (∀ u ∈ text.map asciiLower, p u = true) ↔ ∀ u ∈ text, p u = true := by
  simp [hp]

private theorem foldl_digitValue_map (base : Nat) {text : JsString}
    (hHex : ∀ u ∈ text, isHexDigit u = true) (value : Nat) :
    (text.map asciiLower).foldl (fun v u => base * v + digitValue u) value =
      text.foldl (fun v u => base * v + digitValue u) value := by
  induction text generalizing value with
  | nil => rfl
  | cons u rest ih =>
      simp only [List.map_cons, List.foldl_cons]
      rw [digitValue_asciiLower (hHex u (by simp))]
      exact ih (fun v hv => hHex v (by simp [hv])) _

theorem hexGroup_map_asciiLower (text : JsString) :
    hexGroup (text.map asciiLower) = hexGroup text := by
  simp only [hexGroup, List.all_eq_true, ne_eq, List.map_eq_nil_iff,
    forall_mem_map_asciiLower isHexDigit_asciiLower, List.length_map]
  split
  · rename_i h
    exact congrArg some (foldl_digitValue_map 16 h.2.2 0)
  · rfl

theorem octet_map_asciiLower (text : JsString) :
    octet (text.map asciiLower) = octet text := by
  by_cases hDigits : ∀ u ∈ text, isDigit u = true
  · have hSame : text.map asciiLower = text := by
      rw [map_asciiLower_eq_self_iff]
      intro u hu
      have hu := (isDigit_iff u).mp (hDigits u hu)
      rw [asciiLower, if_neg (by omega)]
    rw [hSame]
  · have hLow : ¬ ∀ u ∈ text.map asciiLower, isDigit u = true := by
      rwa [forall_mem_map_asciiLower isDigit_asciiLower]
    rw [octet, octet, if_neg (fun h => hLow (List.all_eq_true.mp h.2.1)),
      if_neg (fun h => hDigits (List.all_eq_true.mp h.2.1))]

theorem dotted_map_asciiLower (text : JsString) :
    dotted (text.map asciiLower) = dotted text := by
  have hDot : ∀ u, asciiLower u = unit '.' ↔ u = unit '.' :=
    fun u => asciiLower_eq_iff (by decide) (by decide)
  unfold dotted
  rw [splitOn_map hDot]
  rcases text.splitOn (unit '.') with
    _ | ⟨a, _ | ⟨b, _ | ⟨c, _ | ⟨d, _ | ⟨e, rest⟩⟩⟩⟩⟩ <;>
    simp [octet_map_asciiLower]

theorem quadGroups_map_asciiLower (text : JsString) :
    quadGroups (text.map asciiLower) = quadGroups text := by
  rw [quadGroups, quadGroups, dotted_map_asciiLower]

theorem groupsOf_map_asciiLower (last : Bool) (texts : List JsString) :
    groupsOf last (texts.map (List.map asciiLower)) =
      groupsOf last texts := by
  fun_induction groupsOf last texts <;>
    simp_all [groupsOf, hexGroup_map_asciiLower, quadGroups_map_asciiLower]

theorem pieces_map_asciiLower (text : JsString) :
    pieces (text.map asciiLower) = (pieces text).map (List.map asciiLower) := by
  have hColon : ∀ u, asciiLower u = unit ':' ↔ u = unit ':' :=
    fun u => asciiLower_eq_iff (by decide) (by decide)
  unfold pieces
  by_cases hText : text = []
  · simp [hText]
  · simp [hText, splitOn_map hColon]

theorem breakDouble_map_asciiLower (text : JsString) :
    breakDouble (text.map asciiLower) = (breakDouble text).map
      (fun p => (p.1.map asciiLower, p.2.map asciiLower)) := by
  have hColon : ∀ u, asciiLower u = unit ':' ↔ u = unit ':' :=
    fun u => asciiLower_eq_iff (by decide) (by decide)
  fun_induction breakDouble text with
  | case1 => rfl
  | case2 u => rfl
  | case3 u v rest h => simp [breakDouble, hColon, h]
  | case4 u v rest h ih =>
      simp only [List.map_cons] at ih
      simp only [List.map_cons, breakDouble, hColon, h, if_false, ih,
        Option.map_map]
      rfl

theorem groupsOfBody_map_asciiLower (body : JsString) :
    groupsOfBody (body.map asciiLower) = groupsOfBody body := by
  have hColon : ∀ u, asciiLower u = unit ':' ↔ u = unit ':' :=
    fun u => asciiLower_eq_iff (by decide) (by decide)
  unfold groupsOfBody
  rw [breakDouble_map_asciiLower]
  cases breakDouble body with
  | none =>
      simp only [Option.map_none]
      rw [splitOn_map hColon, groupsOf_map_asciiLower]
  | some sides =>
      obtain ⟨before, after⟩ := sides
      simp only [Option.map_some, pieces_map_asciiLower,
        groupsOf_map_asciiLower]

theorem isZone_map_asciiLower (text : JsString) :
    isZone (text.map asciiLower) = isZone text := by
  cases text with
  | nil => rfl
  | cons u name =>
      simp [isZone, Function.comp_def, isZoneUnit_asciiLower]

theorem parseIPv6_map_asciiLower (text : JsString) :
    parseIPv6 (text.map asciiLower) = parseIPv6 text := by
  have hPercent : ((fun u => decide (u ≠ unit '%')) ∘ asciiLower) =
      fun u => decide (u ≠ unit '%') := by
    funext u
    simp [asciiLower_eq_iff (u := u) (c := unit '%') (by decide) (by decide)]
  unfold parseIPv6
  rw [List.dropWhile_map, List.takeWhile_map, hPercent,
    isZone_map_asciiLower, groupsOfBody_map_asciiLower]

/-! ## Units of a literal -/

/-- A unit an address literal may contain: the body's digits, colons and
dots, and those of a zone. -/
def isLiteralUnit (u : CodeUnit) : Bool := isZoneUnit u || u == unit '%'

theorem isLiteralUnit_iff (u : CodeUnit) : isLiteralUnit u = true ↔
    (48 ≤ u.toNat ∧ u.toNat ≤ 57) ∨ (65 ≤ u.toNat ∧ u.toNat ≤ 90) ∨
      (97 ≤ u.toNat ∧ u.toNat ≤ 122) ∨ u.toNat = 45 ∨ u.toNat = 46 ∨
        u.toNat = 58 ∨ u.toNat = 37 := by
  simp [isLiteralUnit, isZoneUnit, ← UInt16.toNat_inj, or_assoc]
  rfl

/-- A unit of a text is a separator or belongs to a piece. -/
theorem mem_splitOn {c u : CodeUnit} {text : JsString}
    (hMem : u ∈ text) : u = c ∨ ∃ piece ∈ text.splitOn c, u ∈ piece := by
  induction text with
  | nil => simp at hMem
  | cons v rest ih =>
      rw [List.splitOn_cons_eq_if_modifyHead]
      by_cases hv : v = c
      · rcases List.mem_cons.mp hMem with rfl | hRest
        · exact Or.inl hv
        · rcases ih hRest with h | ⟨piece, hPiece, hu⟩
          · exact Or.inl h
          · exact Or.inr ⟨piece, by simp [hv, hPiece], hu⟩
      · simp only [beq_iff_eq, hv, if_false]
        cases hSplit : rest.splitOn c with
        | nil => exact absurd hSplit (List.splitOn_ne_nil c rest)
        | cons first others =>
            rcases List.mem_cons.mp hMem with rfl | hRest
            · exact Or.inr ⟨u :: first, by simp, by simp⟩
            · rcases ih hRest with h | ⟨piece, hPiece, hu⟩
              · exact Or.inl h
              · rw [hSplit] at hPiece
                rcases List.mem_cons.mp hPiece with rfl | hOther
                · exact Or.inr ⟨v :: piece, by simp, by simp [hu]⟩
                · exact Or.inr ⟨piece, by simp [hOther], hu⟩

theorem isHexDigit_of_hexGroup {text : JsString} {group : Nat}
    (h : hexGroup text = some group) : ∀ u ∈ text, isHexDigit u = true :=
  (hexGroup_eq_some.mp h).2.2.1

theorem isDigit_of_octet {text : JsString} {value : Nat}
    (h : octet text = some value) : ∀ u ∈ text, isDigit u = true :=
  (octet_eq_some.mp h).2.1

/-- A dotted quad splits into four bytes. -/
theorem dotted_eq_some {text : JsString} {octets : List Nat}
    (h : dotted text = some octets) : ∃ a b c d va vb vc vd,
      text.splitOn (unit '.') = [a, b, c, d] ∧ octet a = some va ∧
        octet b = some vb ∧ octet c = some vc ∧ octet d = some vd ∧
          octets = [va, vb, vc, vd] := by
  unfold dotted at h
  split at h
  · rename_i a b c d hSplit
    simp only [Option.bind_eq_bind, Option.bind_eq_some_iff,
      Option.some.injEq] at h
    obtain ⟨va, ha, vb, hb, vc, hc, vd, hd, rfl⟩ := h
    exact ⟨a, b, c, d, va, vb, vc, vd, hSplit, ha, hb, hc, hd, rfl⟩
  · cases h

theorem octets_lt_of_dotted {text : JsString} {octets : List Nat}
    (h : dotted text = some octets) : ∀ o ∈ octets, o < 256 := by
  have hOctet : ∀ {text value}, octet text = some value → value < 256 :=
    fun hValue => (octet_eq_some.mp hValue).2.2.2.1
  obtain ⟨a, b, c, d, va, vb, vc, vd, -, ha, hb, hc, hd, rfl⟩ :=
    dotted_eq_some h
  simp [hOctet ha, hOctet hb, hOctet hc, hOctet hd]

theorem mem_of_dotted {text : JsString} {octets : List Nat}
    (h : dotted text = some octets) :
    ∀ u ∈ text, isDigit u = true ∨ u = unit '.' := by
  obtain ⟨a, b, c, d, va, vb, vc, vd, hSplit, ha, hb, hc, hd, -⟩ :=
    dotted_eq_some h
  intro u hu
  rcases mem_splitOn (c := unit '.') hu with hDot | ⟨piece, hPiece, hMem⟩
  · exact Or.inr hDot
  · rw [hSplit] at hPiece
    simp only [List.mem_cons, List.not_mem_nil, or_false] at hPiece
    rcases hPiece with rfl | rfl | rfl | rfl
    · exact Or.inl (isDigit_of_octet ha u hMem)
    · exact Or.inl (isDigit_of_octet hb u hMem)
    · exact Or.inl (isDigit_of_octet hc u hMem)
    · exact Or.inl (isDigit_of_octet hd u hMem)

theorem quadGroups_eq_some {text : JsString} {groups : List Nat}
    (h : quadGroups text = some groups) : ∃ a b c d,
      dotted text = some [a, b, c, d] ∧
        groups = [256 * a + b, 256 * c + d] := by
  unfold quadGroups at h
  split at h
  · rename_i a b c d hDotted
    exact ⟨a, b, c, d, hDotted, (Option.some.inj h).symm⟩
  · cases h

private theorem isLiteralUnit_of_isHexDigit {u : CodeUnit}
    (h : isHexDigit u = true) : isLiteralUnit u = true := by
  rw [isHexDigit_iff] at h
  rw [isLiteralUnit_iff]
  omega

private theorem isLiteralUnit_of_dotted {u : CodeUnit}
    (h : isDigit u = true ∨ u = unit '.') : isLiteralUnit u = true := by
  rcases h with h | rfl
  · rw [isDigit_iff] at h
    rw [isLiteralUnit_iff]
    omega
  · rfl

theorem isLiteralUnit_of_groupsOf {last : Bool} {texts : List JsString}
    {groups : List Nat} (h : groupsOf last texts = some groups) :
    ∀ piece ∈ texts, ∀ u ∈ piece, isLiteralUnit u = true := by
  fun_induction groupsOf last texts generalizing groups with
  | case1 => simp
  | case2 piece group hGroup =>
      intro p hp u hu
      rw [List.mem_singleton.mp hp] at hu
      exact isLiteralUnit_of_isHexDigit (isHexDigit_of_hexGroup hGroup u hu)
  | case3 piece hGroup hLast =>
      obtain ⟨a, b, c, d, hDotted, -⟩ := quadGroups_eq_some h
      intro p hp u hu
      rw [List.mem_singleton.mp hp] at hu
      exact isLiteralUnit_of_dotted (mem_of_dotted hDotted u hu)
  | case4 => cases h
  | case5 piece rest hRest group groups' hGroups hGroup ih =>
      intro p hp u hu
      rcases List.mem_cons.mp hp with rfl | hTail
      · exact isLiteralUnit_of_isHexDigit (isHexDigit_of_hexGroup hGroup u hu)
      · exact ih hGroups p hTail u hu
  | case6 => cases h

private theorem mem_of_breakDouble {text before after : JsString}
    (h : breakDouble text = some (before, after)) {u : CodeUnit}
    (hMem : u ∈ text) : u = unit ':' ∨ u ∈ before ∨ u ∈ after := by
  fun_induction breakDouble text generalizing before with
  | case1 => cases h
  | case2 => cases h
  | case3 v w rest hDouble =>
      obtain ⟨rfl, rfl⟩ := Prod.mk.inj (Option.some.inj h)
      rcases List.mem_cons.mp hMem with rfl | hMem
      · exact Or.inl hDouble.1
      · rcases List.mem_cons.mp hMem with rfl | hMem
        · exact Or.inl hDouble.2
        · exact Or.inr (Or.inr hMem)
  | case4 v w rest hDouble ih =>
      obtain ⟨sides, hSides, hEq⟩ := Option.map_eq_some_iff.mp h
      obtain ⟨rfl, rfl⟩ := Prod.mk.inj hEq
      rcases List.mem_cons.mp hMem with rfl | hMem
      · exact Or.inr (Or.inl (by simp))
      · rcases ih hSides hMem with h | h | h
        · exact Or.inl h
        · exact Or.inr (Or.inl (by simp [h]))
        · exact Or.inr (Or.inr h)

private theorem mem_pieces {text : JsString} {u : CodeUnit}
    (hMem : u ∈ text) : u = unit ':' ∨ ∃ piece ∈ pieces text, u ∈ piece := by
  have hText : text ≠ [] := List.ne_nil_of_mem hMem
  rw [pieces, if_neg hText]
  exact mem_splitOn hMem

/-- What a body with `::` consists of. -/
theorem groupsOfBody_double {body before after : JsString}
    {groups : List Nat} (hBreak : breakDouble body = some (before, after))
    (h : groupsOfBody body = some groups) : ∃ left right,
      groupsOf false (pieces before) = some left ∧
        groupsOf true (pieces after) = some right ∧
          left.length + right.length ≤ 7 ∧
            groups = left ++
              List.replicate (8 - (left.length + right.length)) 0 ++
                right := by
  simp only [groupsOfBody, hBreak] at h
  split at h
  · rename_i left right hLeft hRight
    split at h
    · rename_i hLe
      exact ⟨left, right, hLeft, hRight, hLe, (Option.some.inj h).symm⟩
    · cases h
  · cases h

theorem isLiteralUnit_of_groupsOfBody {body : JsString} {groups : List Nat}
    (h : groupsOfBody body = some groups) :
    ∀ u ∈ body, isLiteralUnit u = true := by
  intro u hu
  cases hBreak : breakDouble body with
  | none =>
      simp only [groupsOfBody, hBreak] at h
      rcases mem_splitOn (c := unit ':') hu with rfl | ⟨piece, hPiece, hMem⟩
      · rfl
      · exact isLiteralUnit_of_groupsOf h piece hPiece u hMem
  | some sides =>
      obtain ⟨before, after⟩ := sides
      obtain ⟨left, right, hLeft, hRight, -, -⟩ :=
        groupsOfBody_double hBreak h
      have hSide : ∀ {last text gs}, groupsOf last (pieces text) = some gs →
          u ∈ text → isLiteralUnit u = true := by
        intro last text gs hGroups hMem
        rcases mem_pieces hMem with rfl | ⟨piece, hPiece, hMem⟩
        · rfl
        · exact isLiteralUnit_of_groupsOf hGroups piece hPiece u hMem
      rcases mem_of_breakDouble hBreak hu with rfl | hBefore | hAfter
      · rfl
      · exact hSide hLeft hBefore
      · exact hSide hRight hAfter

private theorem isLiteralUnit_of_isZone {text : JsString}
    (hZone : isZone (text.dropWhile (· ≠ unit '%')) = true) :
    ∀ u ∈ text.dropWhile (· ≠ unit '%'), isLiteralUnit u = true := by
  intro u hu
  cases hDrop : text.dropWhile (· ≠ unit '%') with
  | nil => rw [hDrop] at hu; cases hu
  | cons v name =>
      have hv : v = unit '%' := by
        have hHead := List.head?_dropWhile_not (· ≠ unit '%') text
        rw [hDrop] at hHead
        simpa using hHead
      rw [hDrop] at hu hZone
      rcases List.mem_cons.mp hu with rfl | hName
      · rw [hv]; rfl
      · simp only [isZone, Bool.and_eq_true, List.all_eq_true] at hZone
        simp [isLiteralUnit, hZone.2 u hName]

theorem parseIPv6_eq_some {text : JsString} {address : IPv6}
    (h : parseIPv6 text = some address) :
    isZone (text.dropWhile (· ≠ unit '%')) = true ∧
      groupsOfBody (text.takeWhile (· ≠ unit '%')) =
        some address.groups := by
  unfold parseIPv6 at h
  split at h
  · rename_i hZone
    obtain ⟨groups, hGroups, hAddress⟩ := Option.bind_eq_some_iff.mp h
    unfold IPv6.ofGroups at hAddress
    split at hAddress
    · obtain rfl := Option.some.inj hAddress
      exact ⟨hZone, hGroups⟩
    · cases hAddress
  · cases h

theorem parseIPv4_eq_some {text : JsString} {address : IPv4} :
    parseIPv4 text = some address ↔ dotted text = some address.octets := by
  constructor
  · intro h
    obtain ⟨octets, hOctets, hAddress⟩ := Option.bind_eq_some_iff.mp h
    unfold IPv4.ofOctets at hAddress
    split at hAddress
    · obtain rfl := Option.some.inj hAddress
      exact hOctets
    · cases hAddress
  · intro h
    rw [parseIPv4, h, Option.bind_some, IPv4.ofOctets,
      dif_pos ⟨address.length_octets, address.octets_lt⟩]

theorem IPv6.ofGroups_groups (address : IPv6) :
    IPv6.ofGroups address.groups = some address := by
  rw [IPv6.ofGroups, dif_pos ⟨address.length_groups, address.groups_lt⟩]

/-- A literal has no unit outside those of bodies and zones. -/
theorem isLiteralUnit_of_parseAddress {text : JsString} {address : Address}
    (h : parseAddress text = some address) :
    ∀ u ∈ text, isLiteralUnit u = true := by
  unfold parseAddress at h
  split at h
  · rename_i v4 hFour
    intro u hu
    exact isLiteralUnit_of_dotted
      (mem_of_dotted (parseIPv4_eq_some.mp hFour) u hu)
  · obtain ⟨v6, hSix, -⟩ := Option.map_eq_some_iff.mp h
    obtain ⟨hZone, hGroups⟩ := parseIPv6_eq_some hSix
    intro u hu
    rw [← List.takeWhile_append_dropWhile (p := (· ≠ unit '%')) (l := text)]
      at hu
    rcases List.mem_append.mp hu with hBody | hTail
    · exact isLiteralUnit_of_groupsOfBody hGroups u hBody
    · exact isLiteralUnit_of_isZone hZone u hTail

/-! ## The first group -/

/-- The most significant group. -/
def IPv6.first (address : IPv6) : Nat := address.groups.headD 0

theorem breakDouble_eq_some {text before after : JsString}
    (h : breakDouble text = some (before, after)) :
    text = before ++ unit ':' :: unit ':' :: after := by
  fun_induction breakDouble text generalizing before with
  | case1 => cases h
  | case2 => cases h
  | case3 u v rest hDouble =>
      obtain ⟨rfl, rfl⟩ := Prod.mk.inj (Option.some.inj h)
      rw [hDouble.1, hDouble.2]
      rfl
  | case4 u v rest hDouble ih =>
      obtain ⟨sides, hSides, hEq⟩ := Option.map_eq_some_iff.mp h
      obtain ⟨rfl, rfl⟩ := Prod.mk.inj hEq
      rw [ih hSides]
      rfl

/-- A piece that is not the last one is a group. -/
theorem groupsOf_cons_eq_some {last : Bool} {piece : JsString}
    {rest : List JsString} {groups : List Nat}
    (h : groupsOf last (piece :: rest) = some groups)
    (hQuad : last = false ∨ rest ≠ []) :
    ∃ group others, hexGroup piece = some group ∧
      groupsOf last rest = some others ∧ groups = group :: others := by
  cases rest with
  | nil =>
      rw [groupsOf] at h
      split at h
      · rename_i group hGroup
        exact ⟨group, [], hGroup, rfl, (Option.some.inj h).symm⟩
      · rcases hQuad with rfl | hRest
        · cases h
        · exact absurd rfl hRest
  | cons next rest =>
      rw [groupsOf] at h
      · split at h
        · rename_i group others hGroup hOthers
          exact ⟨group, others, hGroup, hOthers, (Option.some.inj h).symm⟩
        · cases h
      · simp

theorem groupsOf_singleton_length {piece : JsString} {groups : List Nat}
    (h : groupsOf true [piece] = some groups) : groups.length ≤ 2 := by
  rw [groupsOf] at h
  split at h
  · obtain rfl := Option.some.inj h
    simp
  · obtain ⟨a, b, c, d, -, rfl⟩ := quadGroups_eq_some h
    simp

theorem not_hexGroup_nil {group : Nat} : hexGroup [] ≠ some group := by
  simp [hexGroup]

/-- A body starts with the text of its first group, which is empty exactly
where the body starts with `::`. -/
theorem groupsOfBody_first {body : JsString} {groups : List Nat}
    (h : groupsOfBody body = some groups) (hLength : groups.length = 8) :
    ∃ group rest, body = group ++ unit ':' :: rest ∧ unit ':' ∉ group ∧
      (group = [] ∧ groups.headD 0 = 0 ∨
        hexGroup group = some (groups.headD 0)) := by
  cases hBreak : breakDouble body with
  | none =>
      simp only [groupsOfBody, hBreak] at h
      by_cases hColon : unit ':' ∈ body
      · obtain ⟨group, rest, rfl, hGroup⟩ := List.eq_append_cons_of_mem hColon
        rw [List.splitOn_append_cons_self_of_not_mem hGroup] at h
        obtain ⟨first, others, hFirst, -, rfl⟩ :=
          groupsOf_cons_eq_some h (Or.inr (List.splitOn_ne_nil _ _))
        exact ⟨group, rest, rfl, hGroup, Or.inr hFirst⟩
      · rw [List.splitOn_eq_singleton hColon] at h
        have hShort := groupsOf_singleton_length h
        omega
  | some sides =>
      obtain ⟨before, after⟩ := sides
      obtain ⟨left, right, hLeft, -, hLe, rfl⟩ := groupsOfBody_double hBreak h
      have hBody := breakDouble_eq_some hBreak
      by_cases hBefore : before = []
      · subst hBefore
        obtain rfl : left = [] := by simpa [pieces, groupsOf] using hLeft.symm
        refine ⟨[], unit ':' :: after, hBody, by simp, Or.inl ⟨rfl, ?_⟩⟩
        simp only [List.length_nil, Nat.zero_add] at hLe
        obtain ⟨n, hn⟩ : ∃ n, 8 - right.length = n + 1 :=
          ⟨7 - right.length, by omega⟩
        simp [hn, List.replicate_succ]
      · rw [pieces, if_neg hBefore] at hLeft
        by_cases hColon : unit ':' ∈ before
        · obtain ⟨group, rest, rfl, hGroup⟩ :=
            List.eq_append_cons_of_mem hColon
          rw [List.splitOn_append_cons_self_of_not_mem hGroup] at hLeft
          obtain ⟨first, others, hFirst, -, rfl⟩ :=
            groupsOf_cons_eq_some hLeft (Or.inl rfl)
          refine ⟨group, rest ++ unit ':' :: unit ':' :: after, ?_, hGroup,
            Or.inr hFirst⟩
          rw [hBody, List.append_assoc, List.cons_append]
        · rw [List.splitOn_eq_singleton hColon] at hLeft
          obtain ⟨first, others, hFirst, -, rfl⟩ :=
            groupsOf_cons_eq_some hLeft (Or.inl rfl)
          exact ⟨before, unit ':' :: after, hBody, hColon, Or.inr hFirst⟩

/-- The same for a whole literal: a zone only follows the body. -/
theorem parseIPv6_first {text : JsString} {address : IPv6}
    (h : parseIPv6 text = some address) :
    ∃ group rest, text = group ++ unit ':' :: rest ∧ unit ':' ∉ group ∧
      (group = [] ∧ address.first = 0 ∨
        hexGroup group = some address.first) := by
  obtain ⟨-, hGroups⟩ := parseIPv6_eq_some h
  obtain ⟨group, rest, hBody, hColon, hFirst⟩ :=
    groupsOfBody_first hGroups address.length_groups
  refine ⟨group, rest ++ text.dropWhile (· ≠ unit '%'), ?_, hColon, hFirst⟩
  calc text
      = text.takeWhile (· ≠ unit '%') ++ text.dropWhile (· ≠ unit '%') :=
        List.takeWhile_append_dropWhile.symm
    _ = group ++ unit ':' :: (rest ++ text.dropWhile (· ≠ unit '%')) := by
        rw [hBody, List.append_assoc, List.cons_append]

theorem not_mem_of_dotted {text : JsString} {octets : List Nat}
    (h : dotted text = some octets) {c : CodeUnit} (hDigit : isDigit c = false)
    (hDot : c ≠ unit '.') : c ∉ text := by
  intro hMem
  rcases mem_of_dotted h c hMem with h | h
  · exact Bool.false_ne_true (hDigit.symm.trans h)
  · exact hDot h

/-- The two families share no text: only one of them has colons. -/
theorem parseAddress_eq_v6_iff {text : JsString} {address : IPv6} :
    parseAddress text = some (.v6 address) ↔
      parseIPv6 text = some address := by
  constructor
  · intro h
    unfold parseAddress at h
    split at h
    · cases h
    · obtain ⟨v6, hSix, hEq⟩ := Option.map_eq_some_iff.mp h
      rwa [Address.v6.inj hEq] at hSix
  · intro h
    obtain ⟨group, rest, hText, -⟩ := parseIPv6_first h
    unfold parseAddress
    split
    · rename_i v4 hFour
      have hColon := not_mem_of_dotted (parseIPv4_eq_some.mp hFour)
        (c := unit ':') (by decide) (by decide)
      exact absurd (by simp [hText]) hColon
    · rw [h]
      rfl

theorem parseAddress_eq_v4_iff {text : JsString} {address : IPv4} :
    parseAddress text = some (.v4 address) ↔
      parseIPv4 text = some address := by
  unfold parseAddress
  split
  · rename_i v4 hFour
    simp [hFour]
  · rename_i hNone
    simp [hNone]

/-! ## Embedded dotted quads -/

/-- The groups of `::ffff:a.b.c.d`. -/
def mappedGroups (a b c d : Nat) : List Nat :=
  [0, 0, 0, 0, 0, 0xffff, 256 * a + b, 256 * c + d]

theorem hexGroup_eq_none_of_dot {text : JsString} (hDot : unit '.' ∈ text) :
    hexGroup text = none := by
  cases hGroup : hexGroup text with
  | none => rfl
  | some group =>
      exact absurd (isHexDigit_of_hexGroup hGroup _ hDot) (by decide)

theorem takeWhile_eq_self_of_not_mem {c : CodeUnit} {text : JsString}
    (h : c ∉ text) : text.takeWhile (· ≠ c) = text := by
  rw [List.takeWhile_eq_self_iff]
  intro u hu
  have hNe : u ≠ c := fun hEq => h (hEq ▸ hu)
  simpa using hNe

private theorem dropWhile_eq_nil_of_not_mem {c : CodeUnit} {text : JsString}
    (h : c ∉ text) : text.dropWhile (· ≠ c) = [] := by
  rw [List.dropWhile_eq_nil_iff]
  intro u hu
  have hNe : u ≠ c := fun hEq => h (hEq ▸ hu)
  simpa using hNe

/-- A text without `%` is a body. -/
theorem parseIPv6_of_not_mem {text : JsString} (h : unit '%' ∉ text) :
    parseIPv6 text = (groupsOfBody text).bind IPv6.ofGroups := by
  rw [parseIPv6, dropWhile_eq_nil_of_not_mem h, if_pos (by rfl),
    takeWhile_eq_self_of_not_mem h]

/-- The groups of a text `::ffff:…` that ends in a dotted quad. -/
theorem groupsOfBody_mapped {quad : JsString} (hColon : unit ':' ∉ quad)
    (hDot : unit '.' ∈ quad) {groups : List Nat} :
    groupsOfBody (js "::ffff:" ++ quad) = some groups ↔
      ∃ a b c d, dotted quad = some [a, b, c, d] ∧
        groups = mappedGroups a b c d := by
  have hBreak : breakDouble (js "::ffff:" ++ quad) =
      some ([], js "ffff" ++ unit ':' :: quad) := rfl
  have hPieces : pieces (js "ffff" ++ unit ':' :: quad) =
      [js "ffff", quad] := by
    rw [pieces, if_neg (by simp),
      List.splitOn_append_cons_self_of_not_mem (by decide),
      List.splitOn_eq_singleton hColon]
  have hGroup : hexGroup (js "ffff") = some 0xffff := by decide
  have hNil : groupsOf false (pieces []) = some [] := rfl
  constructor
  · intro h
    obtain ⟨left, right, hLeft, hRight, -, rfl⟩ :=
      groupsOfBody_double hBreak h
    obtain rfl := Option.some.inj (hNil.symm.trans hLeft)
    rw [hPieces] at hRight
    obtain ⟨group, others, hFirst, hOthers, rfl⟩ :=
      groupsOf_cons_eq_some hRight (Or.inr (by simp))
    obtain rfl := Option.some.inj (hGroup.symm.trans hFirst)
    simp only [groupsOf, hexGroup_eq_none_of_dot hDot, if_true] at hOthers
    obtain ⟨a, b, c, d, hDotted, rfl⟩ := quadGroups_eq_some hOthers
    exact ⟨a, b, c, d, hDotted, rfl⟩
  · rintro ⟨a, b, c, d, hDotted, rfl⟩
    simp only [groupsOfBody, hBreak, hNil, hPieces, groupsOf, hGroup,
      hexGroup_eq_none_of_dot hDot, if_true, quadGroups, hDotted]
    rfl

/-! ## Numbers and blocks -/

theorem IPv4.octets_eq (address : IPv4) : ∃ a b c d,
    address.octets = [a, b, c, d] ∧ a < 256 ∧ b < 256 ∧ c < 256 ∧ d < 256 := by
  obtain ⟨octets, hLength, hLt⟩ := address
  match octets, hLength with
  | [a, b, c, d], _ =>
      exact ⟨a, b, c, d, rfl, hLt a (by simp), hLt b (by simp),
        hLt c (by simp), hLt d (by simp)⟩

theorem IPv6.groups_eq (address : IPv6) : ∃ a b c d e f g h,
    address.groups = [a, b, c, d, e, f, g, h] ∧ a < 65536 ∧ b < 65536 ∧
      c < 65536 ∧ d < 65536 ∧ e < 65536 ∧ f < 65536 ∧ g < 65536 ∧
        h < 65536 := by
  obtain ⟨groups, hLength, hLt⟩ := address
  match groups, hLength with
  | [a, b, c, d, e, f, g, h], _ =>
      exact ⟨a, b, c, d, e, f, g, h, rfl, hLt a (by simp), hLt b (by simp),
        hLt c (by simp), hLt d (by simp), hLt e (by simp), hLt f (by simp),
        hLt g (by simp), hLt h (by simp)⟩

/-- A routing block: the addresses that share the first `len` bits of
`base`. -/
structure Block where
  base : Nat
  len : Nat
  deriving DecidableEq

/-- `number`, of `width` bits, lies in the block. -/
def Block.contains (block : Block) (width number : Nat) : Bool :=
  number / 2 ^ (width - block.len) == block.base / 2 ^ (width - block.len)

theorem IPv6.first_eq (address : IPv6) :
    address.first = address.number / 2 ^ 112 := by
  obtain ⟨a, b, c, d, e, f, g, h, hGroups, ha, hb, hc, hd, he, hf, hg, hh⟩ :=
    address.groups_eq
  simp only [first, number, hGroups, List.headD_cons, List.foldl_cons,
    List.foldl_nil]
  omega

theorem IPv6.first_lt (address : IPv6) : address.first < 65536 := by
  obtain ⟨a, b, c, d, e, f, g, h, hGroups, ha, -⟩ := address.groups_eq
  simpa [first, hGroups] using ha

theorem IPv4.number_lt (address : IPv4) : address.number < 2 ^ 32 := by
  obtain ⟨a, b, c, d, hOctets, ha, hb, hc, hd⟩ := address.octets_eq
  simp only [number, hOctets, List.foldl_cons, List.foldl_nil]
  omega

/-- A block no longer than a group is decided by the first group. -/
theorem IPv6.contains_first (address : IPv6) {group len : Nat}
    (hLen : len ≤ 16) :
    (Block.mk (group * 2 ^ 112) len).contains 128 address.number = true ↔
      address.first / 2 ^ (16 - len) = group / 2 ^ (16 - len) := by
  have hWidth : 128 - len = 112 + (16 - len) := by omega
  rw [Block.contains, beq_iff_eq, hWidth, Nat.pow_add,
    ← Nat.div_div_eq_div_mul, ← Nat.div_div_eq_div_mul, ← address.first_eq,
    Nat.mul_div_cancel _ (Nat.two_pow_pos 112)]

end OpenApe.Verified.IpLiteral
