import OpenApe.Verified.IpLiteral

/-!
# The text a URL prints for an address

Of all the spellings of an address a URL keeps one.  An IPv4 host is a
dotted quad; an IPv6 host stands in brackets, its groups in lower case
without leading zeros and with `::` for the first longest run of two zero
groups or more.  No IPv6 host is printed with a dotted quad in it.  Both
texts are literals, and they denote the address they were printed from.
-/

namespace OpenApe.Verified.IpSerializer

open JsText Unicode IpLiteral

/-! ## Digits -/

/-- The lower-case unit of a digit. -/
def digitUnit (digit : Nat) : CodeUnit :=
  if digit < 10 then UInt16.ofNat (48 + digit)
  else UInt16.ofNat (87 + digit)

/-- `Number.prototype.toString(16)` of a group. -/
def groupDigits (group : Nat) : List Nat :=
  if group < 16 then [group]
  else if group < 256 then [group / 16, group % 16]
  else if group < 4096 then [group / 256, group / 16 % 16, group % 16]
  else [group / 4096, group / 256 % 16, group / 16 % 16, group % 16]

/-- All four digits of a group. -/
def paddedDigits (group : Nat) : List Nat :=
  [group / 4096, group / 256 % 16, group / 16 % 16, group % 16]

/-- The decimal digits of a byte. -/
def octetDigits (octet : Nat) : List Nat :=
  if octet < 10 then [octet]
  else if octet < 100 then [octet / 10, octet % 10]
  else [octet / 100, octet / 10 % 10, octet % 10]

def groupText (group : Nat) : JsString := (groupDigits group).map digitUnit

def paddedText (group : Nat) : JsString := (paddedDigits group).map digitUnit

def octetText (octet : Nat) : JsString := (octetDigits octet).map digitUnit

theorem digitUnit_toNat {digit : Nat} (h : digit < 16) :
    (digitUnit digit).toNat =
      if digit < 10 then 48 + digit else 87 + digit := by
  unfold digitUnit
  split <;> rw [UInt16.toNat_ofNat'] <;> omega

theorem digitValue_digitUnit {digit : Nat} (h : digit < 16) :
    digitValue (digitUnit digit) = digit := by
  rw [digitValue, digitUnit_toNat h]
  split_ifs <;> omega

theorem isHexDigit_digitUnit {digit : Nat} (h : digit < 16) :
    isHexDigit (digitUnit digit) = true := by
  rw [isHexDigit_iff, digitUnit_toNat h]
  split <;> omega

private theorem foldl_digitValue (base : Nat) {digits : List Nat}
    (hDigits : ∀ d ∈ digits, d < 16) (value : Nat) :
    (digits.map digitUnit).foldl (fun v u => base * v + digitValue u) value =
      digits.foldl (fun v d => base * v + d) value := by
  induction digits generalizing value with
  | nil => rfl
  | cons d rest ih =>
      simp only [List.map_cons, List.foldl_cons]
      rw [digitValue_digitUnit (hDigits d (by simp))]
      exact ih (fun e he => hDigits e (by simp [he])) _

/-- Up to four digits are read back as their value. -/
theorem hexGroup_digits {digits : List Nat} (hNe : digits ≠ [])
    (hLength : digits.length ≤ 4) (hDigits : ∀ d ∈ digits, d < 16) :
    hexGroup (digits.map digitUnit) =
      some (digits.foldl (fun v d => 16 * v + d) 0) := by
  have hText : ∀ u ∈ digits.map digitUnit, isHexDigit u = true := by
    intro u hu
    obtain ⟨d, hd, rfl⟩ := List.mem_map.mp hu
    exact isHexDigit_digitUnit (hDigits d hd)
  refine hexGroup_eq_some.mpr
    ⟨by simpa using hNe, by simpa using hLength, hText, ?_⟩
  rw [hexadecimal, foldl_digitValue 16 hDigits]

theorem groupDigits_lt {group : Nat} (h : group < 65536) :
    ∀ d ∈ groupDigits group, d < 16 := by
  unfold groupDigits
  split_ifs <;> simp <;> omega

theorem paddedDigits_lt {group : Nat} (h : group < 65536) :
    ∀ d ∈ paddedDigits group, d < 16 := by
  simp [paddedDigits]
  omega

theorem hexGroup_groupText {group : Nat} (h : group < 65536) :
    hexGroup (groupText group) = some group := by
  have hLt := groupDigits_lt h
  rw [groupText, hexGroup_digits ?_ ?_ hLt, Option.some.injEq]
  · unfold groupDigits
    split_ifs <;> simp only [List.foldl_cons, List.foldl_nil] <;> omega
  · unfold groupDigits
    split_ifs <;> simp
  · unfold groupDigits
    split_ifs <;> simp

theorem hexGroup_paddedText {group : Nat} (h : group < 65536) :
    hexGroup (paddedText group) = some group := by
  rw [paddedText, hexGroup_digits (by simp [paddedDigits])
    (by simp [paddedDigits]) (paddedDigits_lt h), Option.some.injEq]
  simp only [paddedDigits, List.foldl_cons, List.foldl_nil]
  omega

theorem octetDigits_lt {octet : Nat} (h : octet < 256) :
    ∀ d ∈ octetDigits octet, d < 10 := by
  unfold octetDigits
  split_ifs <;> simp <;> omega

/-- A byte is printed without a leading zero, and is read back. -/
theorem octet_octetText {value : Nat} (h : value < 256) :
    octet (octetText value) = some value := by
  have hLt := octetDigits_lt h
  have hDigits : ∀ u ∈ octetText value, isDigit u = true := by
    intro u hu
    obtain ⟨d, hd, rfl⟩ := List.mem_map.mp hu
    have hd := hLt d hd
    rw [isDigit_iff, digitUnit_toNat (by omega), if_pos hd]
    omega
  have hValue : decimal (octetText value) = value := by
    rw [decimal, octetText,
      foldl_digitValue 10 (fun d hd => (hLt d hd).trans (by omega))]
    unfold octetDigits
    split_ifs <;> simp only [List.foldl_cons, List.foldl_nil] <;> omega
  have hZero : (octetText value).head? = some (unit '0') →
      (octetText value).length = 1 := by
    have hHead : ∀ d, d < 10 → digitUnit d = unit '0' → d = 0 := by decide
    unfold octetText octetDigits
    split_ifs
    · simp
    · intro hUnit
      have hZero := hHead _ (by omega) (Option.some.inj hUnit)
      omega
    · intro hUnit
      have hZero := hHead _ (by omega) (Option.some.inj hUnit)
      omega
  have hNe : octetText value ≠ [] := by
    unfold octetText octetDigits
    split_ifs <;> simp
  exact octet_eq_some.mpr ⟨hNe, hDigits, hZero, h, hValue⟩

/-! ## Joined texts -/

/-- `texts.join(separator)` -/
def join (separator : CodeUnit) (texts : List JsString) : JsString :=
  [separator].intercalate texts

theorem mem_join {separator u : CodeUnit} {texts : List JsString}
    (hMem : u ∈ join separator texts) :
    u = separator ∨ ∃ text ∈ texts, u ∈ text := by
  induction texts with
  | nil => simp [join] at hMem
  | cons text rest ih =>
      cases rest with
      | nil => exact Or.inr ⟨text, by simp, by simpa [join] using hMem⟩
      | cons next rest =>
          rw [join, List.intercalate_cons_cons, List.append_assoc,
            List.mem_append, List.mem_append, List.mem_singleton] at hMem
          rcases hMem with hText | hSeparator | hRest
          · exact Or.inr ⟨text, by simp, hText⟩
          · exact Or.inl hSeparator
          · rcases ih hRest with h | ⟨other, hOther, hu⟩
            · exact Or.inl h
            · exact Or.inr ⟨other, by simp [hOther], hu⟩

/-- The text of an IPv4 host. -/
def ipv4Text (address : IPv4) : JsString :=
  join (unit '.') (address.octets.map octetText)

theorem not_mem_octetText {value : Nat} (h : value < 256) {c : CodeUnit}
    (hc : isDigit c = false) : c ∉ octetText value := by
  intro hMem
  rw [isDigit_of_octet (octet_octetText h) c hMem] at hc
  cases hc

theorem parseIPv4_ipv4Text (address : IPv4) :
    parseIPv4 (ipv4Text address) = some address := by
  rw [parseIPv4_eq_some]
  obtain ⟨a, b, c, d, hOctets, ha, hb, hc, hd⟩ := address.octets_eq
  have hSplit : (ipv4Text address).splitOn (unit '.') =
      [octetText a, octetText b, octetText c, octetText d] := by
    rw [ipv4Text, join, List.splitOn_intercalate, hOctets]
    · rfl
    · intro text hText
      obtain ⟨value, hValue, rfl⟩ := List.mem_map.mp hText
      exact not_mem_octetText (address.octets_lt value hValue) (by decide)
    · simp [hOctets]
  simp [dotted, hSplit, octet_octetText, ha, hb, hc, hd, hOctets]

section Spelling

/-! A way to write single groups, and the groups it is used on. -/

variable {spelling : Nat → JsString} {groups : List Nat}
  (hSpell : ∀ g ∈ groups, hexGroup (spelling g) = some g)

include hSpell

theorem not_mem_spelling {c : CodeUnit} (hc : isHexDigit c = false) :
    ∀ text ∈ groups.map spelling, c ∉ text := by
  intro text hText hMem
  obtain ⟨g, hg, rfl⟩ := List.mem_map.mp hText
  rw [isHexDigit_of_hexGroup (hSpell g hg) c hMem] at hc
  cases hc

theorem nil_not_mem_spelling : [] ∉ groups.map spelling := by
  intro hText
  obtain ⟨g, hg, hNil⟩ := List.mem_map.mp hText
  have hGroup := hSpell g hg
  rw [hNil] at hGroup
  exact not_hexGroup_nil hGroup

theorem groupsOf_spelling (last : Bool) :
    groupsOf last (groups.map spelling) = some groups := by
  induction groups with
  | nil => rfl
  | cons g rest ih =>
      have hFirst := hSpell g (by simp)
      have hRest := ih (fun x hx => hSpell x (by simp [hx]))
      cases rest with
      | nil => simp [groupsOf, hFirst]
      | cons next rest =>
          simp only [List.map_cons] at hRest ⊢
          simp [groupsOf, hFirst, hRest]

theorem splitOn_join_spelling (hNe : groups ≠ []) :
    (join (unit ':') (groups.map spelling)).splitOn (unit ':') =
      groups.map spelling :=
  List.splitOn_intercalate _
    (not_mem_spelling hSpell (by decide)) (by simpa using hNe)

theorem pieces_join_spelling :
    pieces (join (unit ':') (groups.map spelling)) =
      groups.map spelling := by
  by_cases hNe : groups = []
  · subst hNe
    rfl
  · have hSplit := splitOn_join_spelling hSpell hNe
    rw [pieces, if_neg, hSplit]
    intro hNil
    rw [hNil, List.splitOn_nil] at hSplit
    exact nil_not_mem_spelling hSpell (by simp [← hSplit])

/-- No piece is empty, so no two colons meet. -/
theorem breakDouble_join_spelling :
    breakDouble (join (unit ':') (groups.map spelling)) = none := by
  cases hBreak : breakDouble (join (unit ':') (groups.map spelling)) with
  | none => rfl
  | some sides =>
      obtain ⟨before, after⟩ := sides
      have hJoin := breakDouble_eq_some hBreak
      have hNe : groups ≠ [] := by
        rintro rfl
        simp [join] at hJoin
      have hSplit := splitOn_join_spelling hSpell hNe
      rw [hJoin, List.splitOn_append_cons_self,
        List.splitOn_cons_eq_if_modifyHead] at hSplit
      exact absurd (by simp [← hSplit]) (nil_not_mem_spelling hSpell)

theorem not_mem_join_spelling {c : CodeUnit} (hc : isHexDigit c = false)
    (hColon : c ≠ unit ':') :
    c ∉ join (unit ':') (groups.map spelling) := by
  intro hMem
  rcases mem_join hMem with h | ⟨text, hText, hu⟩
  · exact hColon h
  · exact not_mem_spelling hSpell hc text hText hu

end Spelling

/-- `::` after a text that neither contains it nor ends in a colon. -/
theorem breakDouble_append {before : JsString} (after : JsString)
    (hNone : breakDouble before = none)
    (hLast : before.getLast? ≠ some (unit ':')) :
    breakDouble (before ++ unit ':' :: unit ':' :: after) =
      some (before, after) := by
  fun_induction breakDouble before with
  | case1 => simp [breakDouble]
  | case2 u =>
      have hu : u ≠ unit ':' := by simpa using hLast
      simp [breakDouble, hu]
  | case3 => cases hNone
  | case4 u v rest hDouble ih =>
      have hTail := ih (by simpa using hNone) (by simpa using hLast)
      simp only [List.cons_append] at hTail ⊢
      rw [breakDouble, if_neg hDouble, hTail]
      rfl

/-- All eight groups, each written in any way that is read back. -/
theorem parseIPv6_join {spelling : Nat → JsString} {address : IPv6}
    (hSpell : ∀ g ∈ address.groups, hexGroup (spelling g) = some g) :
    parseIPv6 (join (unit ':') (address.groups.map spelling)) =
      some address := by
  have hNe : address.groups ≠ [] := by
    intro hNil
    have hLength := address.length_groups
    simp [hNil] at hLength
  rw [parseIPv6_of_not_mem
      (not_mem_join_spelling hSpell (by decide) (by decide)),
    groupsOfBody, breakDouble_join_spelling hSpell]
  simp only [splitOn_join_spelling hSpell hNe, groupsOf_spelling hSpell,
    Option.bind_some, IPv6.ofGroups_groups]

/-! ## The printed text -/

/-- The zeros a list of groups starts with. -/
def zeroRun (groups : List Nat) : Nat := (groups.takeWhile (· = 0)).length

/-- The first longest run of zero groups: the groups before it, its length
and the groups after it. -/
def longestZeros : List Nat → List Nat × Nat × List Nat
  | [] => ([], 0, [])
  | group :: rest =>
      let run := zeroRun (group :: rest)
      let (before, zeros, after) := longestZeros rest
      if zeros ≤ run then ([], run, (group :: rest).drop run)
      else (group :: before, zeros, after)

/-- The text of an IPv6 host, between its brackets. -/
def ipv6Text (address : IPv6) : JsString :=
  let (before, zeros, after) := longestZeros address.groups
  if 2 ≤ zeros then
    join (unit ':') (before.map groupText) ++
      unit ':' :: unit ':' :: join (unit ':') (after.map groupText)
  else join (unit ':') (address.groups.map groupText)

private theorem zeroRun_append (groups : List Nat) :
    List.replicate (zeroRun groups) 0 ++ groups.drop (zeroRun groups) =
      groups := by
  induction groups with
  | nil => rfl
  | cons group rest ih =>
      unfold zeroRun at ih ⊢
      by_cases hZero : group = 0
      · simp [hZero, List.replicate_succ, ih]
      · simp [hZero]

theorem longestZeros_append (groups : List Nat) :
    (longestZeros groups).1 ++
        (List.replicate (longestZeros groups).2.1 0 ++
          (longestZeros groups).2.2) = groups := by
  induction groups with
  | nil => rfl
  | cons group rest ih =>
      simp only [longestZeros]
      split
      · exact zeroRun_append (group :: rest)
      · rw [List.cons_append, ih]

theorem getLast?_join_spelling {spelling : Nat → JsString}
    {groups : List Nat}
    (hSpell : ∀ g ∈ groups, hexGroup (spelling g) = some g) :
    (join (unit ':') (groups.map spelling)).getLast? ≠ some (unit ':') := by
  intro hLast
  obtain ⟨front, hJoin⟩ := List.getLast?_eq_some_iff.mp hLast
  have hNe : groups ≠ [] := by
    rintro rfl
    simp [join] at hJoin
  have hSplit := splitOn_join_spelling hSpell hNe
  rw [hJoin, List.splitOn_append_cons_self] at hSplit
  exact nil_not_mem_spelling hSpell (by simp [← hSplit])

/-- Printing an address and reading the text back changes nothing. -/
theorem parseIPv6_ipv6Text (address : IPv6) :
    parseIPv6 (ipv6Text address) = some address := by
  have hSpell : ∀ g ∈ address.groups, hexGroup (groupText g) = some g :=
    fun g hg => hexGroup_groupText (address.groups_lt g hg)
  have hSplit := longestZeros_append address.groups
  have hLength := address.length_groups
  unfold ipv6Text
  generalize longestZeros address.groups = run at hSplit ⊢
  obtain ⟨before, zeros, after⟩ := run
  simp only at hSplit ⊢
  split
  · rename_i hZeros
    have hBefore : ∀ g ∈ before, hexGroup (groupText g) = some g :=
      fun g hg => hSpell g (by simp [← hSplit, hg])
    have hAfter : ∀ g ∈ after, hexGroup (groupText g) = some g :=
      fun g hg => hSpell g (by simp [← hSplit, hg])
    have hSum : before.length + (zeros + after.length) = 8 := by
      rw [← hLength, ← hSplit]
      simp
    have hRun : 8 - (before.length + after.length) = zeros := by omega
    have hPercent : unit '%' ∉ join (unit ':') (before.map groupText) ++
        unit ':' :: unit ':' :: join (unit ':') (after.map groupText) := by
      intro hMem
      simp only [List.mem_append, List.mem_cons] at hMem
      rcases hMem with hMem | hMem | hMem | hMem
      · exact not_mem_join_spelling hBefore (by decide) (by decide) hMem
      · exact absurd hMem (by decide)
      · exact absurd hMem (by decide)
      · exact not_mem_join_spelling hAfter (by decide) (by decide) hMem
    rw [parseIPv6_of_not_mem hPercent, groupsOfBody,
      breakDouble_append _ (breakDouble_join_spelling hBefore)
        (getLast?_join_spelling hBefore)]
    simp only [pieces_join_spelling hBefore, pieces_join_spelling hAfter,
      groupsOf_spelling hBefore, groupsOf_spelling hAfter, hRun]
    rw [if_pos (by omega), List.append_assoc, hSplit, Option.bind_some,
      IPv6.ofGroups_groups]
  · exact parseIPv6_join hSpell

/-! ## The units of a printed text -/

theorem asciiLower_digitUnit {digit : Nat} (h : digit < 16) :
    asciiLower (digitUnit digit) = digitUnit digit := by
  rw [asciiLower, if_neg]
  rw [digitUnit_toNat h]
  split <;> omega

/-- Colons and lower-case digits only. -/
def IsPlain (text : JsString) : Prop :=
  ∀ u ∈ text, u = unit ':' ∨ ∃ digit, digit < 16 ∧ u = digitUnit digit

theorem IsPlain.lower {text : JsString} (h : IsPlain text) :
    text.map asciiLower = text := by
  rw [map_asciiLower_eq_self_iff]
  intro u hu
  rcases h u hu with rfl | ⟨digit, hDigit, rfl⟩
  · rfl
  · exact asciiLower_digitUnit hDigit

theorem IsPlain.not_mem {text : JsString} (h : IsPlain text) {c : CodeUnit}
    (hColon : c ≠ unit ':') (hHex : isHexDigit c = false) : c ∉ text := by
  intro hMem
  rcases h c hMem with hEq | ⟨digit, hDigit, rfl⟩
  · exact hColon hEq
  · rw [isHexDigit_digitUnit hDigit] at hHex
    cases hHex

theorem isPlain_join {digits : Nat → List Nat} {groups : List Nat}
    (hDigits : ∀ g ∈ groups, ∀ d ∈ digits g, d < 16) :
    IsPlain (join (unit ':')
      (groups.map fun g => (digits g).map digitUnit)) := by
  intro u hMem
  rcases mem_join hMem with h | ⟨text, hText, hu⟩
  · exact Or.inl h
  · obtain ⟨g, hg, rfl⟩ := List.mem_map.mp hText
    obtain ⟨d, hd, rfl⟩ := List.mem_map.mp hu
    exact Or.inr ⟨d, hDigits g hg d hd, rfl⟩

/-- No dotted quad and no upper case is printed, whichever address it is. -/
theorem isPlain_ipv6Text (address : IPv6) : IsPlain (ipv6Text address) := by
  have hSplit := longestZeros_append address.groups
  have hJoin : ∀ groups : List Nat, (∀ g ∈ groups, g ∈ address.groups) →
      IsPlain (join (unit ':') (groups.map groupText)) :=
    fun groups hGroups => isPlain_join fun g hg =>
      groupDigits_lt (address.groups_lt g (hGroups g hg))
  unfold ipv6Text
  generalize longestZeros address.groups = run at hSplit ⊢
  obtain ⟨before, zeros, after⟩ := run
  simp only at hSplit ⊢
  split
  · have hBefore := hJoin before (fun g hg => by simp [← hSplit, hg])
    have hAfter := hJoin after (fun g hg => by simp [← hSplit, hg])
    intro u hMem
    simp only [List.mem_append, List.mem_cons] at hMem
    rcases hMem with hMem | hMem | hMem | hMem
    · exact hBefore u hMem
    · exact Or.inl hMem
    · exact Or.inl hMem
    · exact hAfter u hMem
  · exact hJoin address.groups (fun _ h => h)

/-- All eight groups, one by one. -/
def fullText (digits : Nat → List Nat) (address : IPv6) : JsString :=
  join (unit ':') (address.groups.map fun g => (digits g).map digitUnit)

/-! ## Groups in lower case -/

theorem digitValue_lt {u : CodeUnit} (h : isHexDigit u = true) :
    digitValue u < 16 := by
  rw [isHexDigit_iff] at h
  unfold digitValue
  split_ifs <;> omega

/-- A lower-case digit is the unit of its value. -/
theorem digitUnit_digitValue {u : CodeUnit} (h : isHexDigit u = true)
    (hLower : asciiLower u = u) : digitUnit (digitValue u) = u := by
  have hLt := digitValue_lt h
  have hNat := congrArg UInt16.toNat hLower
  rw [isHexDigit_iff] at h
  rw [asciiLower_toNat] at hNat
  rw [← UInt16.toNat_inj, digitUnit_toNat hLt]
  unfold digitValue
  split_ifs at hNat ⊢ <;> omega

/-- A lower-case group is a list of digits. -/
theorem digits_of_hexGroup {text : JsString} {group : Nat}
    (h : hexGroup text = some group)
    (hLower : ∀ u ∈ text, asciiLower u = u) :
    ∃ digits : List Nat, text = digits.map digitUnit ∧ digits ≠ [] ∧
      digits.length ≤ 4 ∧ (∀ d ∈ digits, d < 16) ∧
        group = digits.foldl (fun v d => 16 * v + d) 0 := by
  have hHex := isHexDigit_of_hexGroup h
  have hText : text = (text.map digitValue).map digitUnit := by
    rw [List.map_map]
    refine ((List.map_congr_left (g := id) ?_).trans (List.map_id _)).symm
    exact fun u hu => digitUnit_digitValue (hHex u hu) (hLower u hu)
  have hDigits : ∀ d ∈ text.map digitValue, d < 16 := by
    intro d hd
    obtain ⟨u, hu, rfl⟩ := List.mem_map.mp hd
    exact digitValue_lt (hHex u hu)
  obtain ⟨hTextNe, hTextLength, -⟩ := hexGroup_eq_some.mp h
  have hNe : text.map digitValue ≠ [] := by simpa using hTextNe
  have hLength : (text.map digitValue).length ≤ 4 := by
    simpa using hTextLength
  refine ⟨text.map digitValue, hText, hNe, hLength, hDigits, ?_⟩
  rw [hText, hexGroup_digits hNe hLength hDigits] at h
  exact (Option.some.inj h).symm

/-! ## Hosts -/

/-- The host of a parsed URL. -/
inductive Host where
  | domain (name : JsString)
  | ipv4 (address : IPv4)
  | ipv6 (address : IPv6)
  deriving DecidableEq

/-- `URL.prototype.hostname` -/
def Host.hostname : Host → JsString
  | .domain name => name
  | .ipv4 address => ipv4Text address
  | .ipv6 address => unit '[' :: (ipv6Text address ++ [unit ']'])

/-- The address a host literal denotes. -/
def Host.address : Host → Option Address
  | .domain _ => none
  | .ipv4 address => some (.v4 address)
  | .ipv6 address => some (.v6 address)

end OpenApe.Verified.IpSerializer
