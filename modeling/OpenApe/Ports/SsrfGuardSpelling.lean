import OpenApe.Ports.SsrfGuard

/-!
# The address guard judges spellings

`blocked` is what the guard is for: membership of the number of an address
in a list of blocks, whatever text spells it.  `isBlockedAddress` is right
on every dotted quad.  On the other family it looks at the text, so that
what it answers depends on the spelling; the main result says for which
texts, for which addresses and for which URLs it is right.
-/

namespace OpenApe.Ports.SsrfGuardSpelling

open Verified.JsText Verified.Unicode Verified.IpLiteral Verified.IpSerializer
open SsrfGuard

/-! ## What the guard is for -/

/-- 0/8, 10/8, 127/8, 100.64/10, 169.254/16, 172.16/12 and 192.168/16. -/
def blockedBlocks4 : List Block :=
  [⟨0, 8⟩, ⟨10 * 2 ^ 24, 8⟩, ⟨127 * 2 ^ 24, 8⟩,
    ⟨(256 * 100 + 64) * 2 ^ 16, 10⟩, ⟨(256 * 169 + 254) * 2 ^ 16, 16⟩,
    ⟨(256 * 172 + 16) * 2 ^ 16, 12⟩, ⟨(256 * 192 + 168) * 2 ^ 16, 16⟩]

/-- `::`, `::1`, fe80::/10 and fc00::/7. -/
def blockedBlocks6 : List Block :=
  [⟨0, 128⟩, ⟨1, 128⟩, ⟨0xfe80 * 2 ^ 112, 10⟩, ⟨0xfc00 * 2 ^ 112, 7⟩]

/-- ::ffff:0:0/96, where the low 32 bits are an IPv4 address. -/
def mappedBlock : Block := ⟨0xffff * 2 ^ 32, 96⟩

def blocked4 (number : Nat) : Bool :=
  blockedBlocks4.any (·.contains 32 number)

def blocked6 (number : Nat) : Bool :=
  blockedBlocks6.any (·.contains 128 number) ||
    (mappedBlock.contains 128 number && blocked4 (number % 2 ^ 32))

/-- The address is loopback, private, link-local, CGNAT, ULA or
unspecified, or maps such an address. -/
def blocked : Address → Bool
  | .v4 address => blocked4 address.number
  | .v6 address => blocked6 address.number

theorem blockedBlocks6_iff (address : IPv6) :
    blockedBlocks6.any (·.contains 128 address.number) = true ↔
      address.number = 0 ∨ address.number = 1 ∨
        (0xfe80 ≤ address.first ∧ address.first ≤ 0xfebf) ∨
        (0xfc00 ≤ address.first ∧ address.first ≤ 0xfdff) := by
  have hFirst := address.first_lt
  have hZero : (Block.mk 0 128).contains 128 address.number = true ↔
      address.number = 0 := by simp [Block.contains]
  have hOne : (Block.mk 1 128).contains 128 address.number = true ↔
      address.number = 1 := by simp [Block.contains]
  have hLink : (Block.mk (0xfe80 * 2 ^ 112) 10).contains 128
      address.number = true ↔
        0xfe80 ≤ address.first ∧ address.first ≤ 0xfebf := by
    rw [address.contains_first (by omega)]
    omega
  have hLocal : (Block.mk (0xfc00 * 2 ^ 112) 7).contains 128
      address.number = true ↔
        0xfc00 ≤ address.first ∧ address.first ≤ 0xfdff := by
    rw [address.contains_first (by omega)]
    omega
  simp only [blockedBlocks6, List.any_cons, List.any_nil, Bool.or_false,
    Bool.or_eq_true, hZero, hOne, hLink, hLocal]

theorem mappedBlock_iff (number : Nat) :
    mappedBlock.contains 128 number = true ↔ number / 2 ^ 32 = 0xffff := by
  simp [mappedBlock, Block.contains]

theorem blocked6_iff (address : IPv6) :
    blocked6 address.number = true ↔
      address.number = 0 ∨ address.number = 1 ∨
        (0xfe80 ≤ address.first ∧ address.first ≤ 0xfebf) ∨
        (0xfc00 ≤ address.first ∧ address.first ≤ 0xfdff) ∨
        (address.number / 2 ^ 32 = 0xffff ∧
          blocked4 (address.number % 2 ^ 32) = true) := by
  simp only [blocked6, Bool.or_eq_true, Bool.and_eq_true,
    blockedBlocks6_iff, mappedBlock_iff, or_assoc]

/-- The blocks of IPv6 hold no mapped address. -/
theorem blocked6_of_mapped {address : IPv6}
    (h : mappedBlock.contains 128 address.number = true) :
    blocked6 address.number = blocked4 (address.number % 2 ^ 32) := by
  have hFirst := address.first_eq
  have hNumber := (mappedBlock_iff _).mp h
  have hBlocks : ¬blockedBlocks6.any (·.contains 128 address.number) = true
      := by
    have hZero : address.first = 0 := by
      rw [hFirst, show 2 ^ 112 = 2 ^ 32 * 2 ^ 80 from rfl,
        ← Nat.div_div_eq_div_mul, hNumber]
      exact Nat.div_eq_of_lt (by decide)
    have hLarge : 2 ^ 32 ≤ address.number := by
      by_contra hSmall
      rw [Nat.div_eq_of_lt (Nat.lt_of_not_le hSmall)] at hNumber
      exact absurd hNumber (by decide)
    clear hFirst hNumber
    rw [blockedBlocks6_iff, hZero]
    omega
  rw [blocked6, h, Bool.eq_false_iff.mpr hBlocks, Bool.false_or,
    Bool.true_and]

/-! ## Dotted quads -/

/-- The branch for family 4 is right on every literal. -/
theorem isBlockedQuad_eq {ip : JsString} {address : IPv4}
    (h : parseIPv4 ip = some address) :
    isBlockedQuad ip = blocked4 address.number := by
  have hOctet : ∀ {text value}, octet text = some value →
      decimal text = value := fun hValue => (octet_eq_some.mp hValue).2.2.2.2
  obtain ⟨a, b, c, d, va, vb, vc, vd, hSplit, ha, hb, hc, hd, hOctets⟩ :=
    dotted_eq_some (parseIPv4_eq_some.mp h)
  have hLt := address.octets_lt
  rw [hOctets] at hLt
  simp only [List.mem_cons, List.not_mem_nil, or_false, forall_eq_or_imp,
    forall_eq] at hLt
  rw [Bool.eq_iff_iff]
  simp [isBlockedQuad, hSplit, hOctet ha, hOctet hb, blocked4,
    blockedBlocks4, Block.contains, IPv4.number, hOctets]
  -- the blocks read the first two octets only
  have hHalf : (256 * (256 * (256 * va + vb) + vc) + vd) / 65536 =
      256 * va + vb := by
    omega
  have hFirst : (256 * (256 * (256 * va + vb) + vc) + vd) / 16777216 =
      va := by
    rw [show 16777216 = 65536 * 256 from rfl, ← Nat.div_div_eq_div_mul, hHalf]
    omega
  have hTen : (256 * (256 * (256 * va + vb) + vc) + vd) / 4194304 =
      (256 * va + vb) / 64 := by
    rw [show 4194304 = 65536 * 64 from rfl, ← Nat.div_div_eq_div_mul, hHalf]
  have hTwelve : (256 * (256 * (256 * va + vb) + vc) + vd) / 1048576 =
      (256 * va + vb) / 16 := by
    rw [show 1048576 = 65536 * 16 from rfl, ← Nat.div_div_eq_div_mul, hHalf]
  have hZero : 256 * (256 * (256 * va + vb) + vc) + vd < 16777216 ↔
      va = 0 := by
    omega
  rw [hZero, hFirst, hTen, hHalf, hTwelve]
  omega

/-! ## The tests on the start of the text -/

/-- What stands before the first colon. -/
def firstText (low : JsString) : JsString := low.takeWhile (· ≠ unit ':')

/-- The text of the first group has the two letters of a unique-local
address, and is shorter than the four digits of one. -/
def shortLocal (low : JsString) : Bool :=
  (js "fc" <+: low || js "fd" <+: low) && (firstText low).length < 4

/-- What the tests on the start of a text say about its first group. -/
structure StartTests (low : JsString) (first : Nat) : Prop where
  link : js "fe80" <+: low ↔ first = 0xfe80
  uniqueLocal : js "fc" <+: low ∨ js "fd" <+: low ↔
    (0xfc00 ≤ first ∧ first ≤ 0xfdff) ∨ shortLocal low = true
  short : shortLocal low = true ↔
    ((firstText low).length = 2 ∧ 0xfc ≤ first ∧ first ≤ 0xfd) ∨
      ((firstText low).length = 3 ∧ 0xfc0 ≤ first ∧ first ≤ 0xfdf)

private theorem digitUnit_eq_iff : ∀ d, d < 16 →
    (unit 'f' = digitUnit d ↔ d = 15) ∧ (unit 'e' = digitUnit d ↔ d = 14) ∧
      (unit '8' = digitUnit d ↔ d = 8) ∧ (unit '0' = digitUnit d ↔ d = 0) ∧
      (unit 'c' = digitUnit d ↔ d = 12) ∧ (unit 'd' = digitUnit d ↔ d = 13) ∧
      digitUnit d ≠ unit ':' := by
  decide

private theorem startTests_of_digits {digits : List Nat}
    (hNe : digits ≠ []) (hLength : digits.length ≤ 4)
    (hDigits : ∀ d ∈ digits, d < 16) (rest : JsString) :
    StartTests (digits.map digitUnit ++ unit ':' :: rest)
      (digits.foldl (fun v d => 16 * v + d) 0) := by
  have hLink : js "fe80" = [unit 'f', unit 'e', unit '8', unit '0'] := rfl
  have hC : js "fc" = [unit 'f', unit 'c'] := rfl
  have hD : js "fd" = [unit 'f', unit 'd'] := rfl
  have hColon : unit 'e' ≠ unit ':' ∧ unit 'c' ≠ unit ':' ∧
      unit 'd' ≠ unit ':' ∧ unit '8' ≠ unit ':' ∧ unit '0' ≠ unit ':' := by
    decide
  match digits with
  | [a] =>
      have hA := hDigits a (by simp)
      constructor <;> simp [hLink, hC, hD, shortLocal, firstText,
        digitUnit_eq_iff a hA, hColon] <;> omega
  | [a, b] =>
      have hA := hDigits a (by simp)
      have hB := hDigits b (by simp)
      constructor <;> simp [hLink, hC, hD, shortLocal, firstText,
        digitUnit_eq_iff a hA,
        digitUnit_eq_iff b hB, hColon] <;> omega
  | [a, b, c] =>
      have hA := hDigits a (by simp)
      have hB := hDigits b (by simp)
      have hC' := hDigits c (by simp)
      constructor <;> simp [hLink, hC, hD, shortLocal, firstText,
        digitUnit_eq_iff a hA,
        digitUnit_eq_iff b hB, digitUnit_eq_iff c hC', hColon] <;> omega
  | [a, b, c, d] =>
      have hA := hDigits a (by simp)
      have hB := hDigits b (by simp)
      have hC' := hDigits c (by simp)
      have hD' := hDigits d (by simp)
      constructor <;> simp [hLink, hC, hD, shortLocal, firstText,
        digitUnit_eq_iff a hA,
        digitUnit_eq_iff b hB, digitUnit_eq_iff c hC',
        digitUnit_eq_iff d hD'] <;> omega

/-- The tests on the start of a literal in lower case are tests on its
first group, but for the short ones. -/
theorem startTests_of_parseIPv6 {low : JsString} {address : IPv6}
    (h : parseIPv6 low = some address)
    (hLower : low.map asciiLower = low) : StartTests low address.first := by
  obtain ⟨group, rest, hText, hColon, ⟨rfl, hZero⟩ | hGroup⟩ :=
    parseIPv6_first h
  · have hLink : js "fe80" = [unit 'f', unit 'e', unit '8', unit '0'] := rfl
    have hC : js "fc" = [unit 'f', unit 'c'] := rfl
    have hD : js "fd" = [unit 'f', unit 'd'] := rfl
    have hF : unit 'f' ≠ unit ':' := by decide
    constructor <;> simp [hText, hZero, hLink, hC, hD, hF, shortLocal]
  · have hUnits : ∀ u ∈ group, asciiLower u = u := fun u hu =>
      map_asciiLower_eq_self_iff.mp hLower u (by simp [hText, hu])
    obtain ⟨digits, hDigitsText, hNe, hLength, hDigits, hValue⟩ :=
      digits_of_hexGroup hGroup hUnits
    rw [hText, hDigitsText, hValue]
    exact startTests_of_digits hNe hLength hDigits rest

theorem stripBrackets_of_not_mem {text : JsString}
    (hOpen : unit '[' ∉ text) (hClose : unit ']' ∉ text) :
    stripBrackets text = text := by
  have hHead : text.head? ≠ some (unit '[') :=
    fun h => hOpen (List.mem_of_head? h)
  have hLast : text.getLast? ≠ some (unit ']') :=
    fun h => hClose (List.mem_of_getLast? h)
  rw [stripBrackets, if_neg hHead, if_neg hLast]

/-- What follows `::ffff:` in a literal, where it is of digits and dots, is a
dotted quad, and the address is in `mappedBlock` with the quad in its low
bits. -/
theorem embedded_of_parseIPv6 {quad : JsString} {address : IPv6}
    (h : parseIPv6 (mappedStart ++ quad) = some address)
    (hUnits : ∀ u ∈ quad, isDigit u = true ∨ u = unit '.')
    (hDot : unit '.' ∈ quad) :
    ∃ embedded : IPv4, parseIPv4 quad = some embedded ∧
      address.number / 2 ^ 32 = 0xffff ∧
        address.number % 2 ^ 32 = embedded.number := by
  have hNot : ∀ {u : CodeUnit}, isDigit u = false → u ≠ unit '.' →
      u ∉ quad := by
    intro u hDigit hNe hMem
    rcases hUnits u hMem with h | h
    · rw [hDigit] at h
      cases h
    · exact hNe h
  have hPercent : unit '%' ∉ mappedStart ++ quad := by
    intro hMem
    rcases List.mem_append.mp hMem with hMem | hMem
    · exact absurd hMem (by decide)
    · exact hNot (by decide) (by decide) hMem
  obtain ⟨-, hGroups⟩ := parseIPv6_eq_some h
  rw [takeWhile_eq_self_of_not_mem hPercent] at hGroups
  obtain ⟨a, b, c, d, hDotted, hMapped⟩ :=
    (groupsOfBody_mapped (hNot (by decide) (by decide)) hDot).mp hGroups
  have hLt := octets_lt_of_dotted hDotted
  refine ⟨⟨[a, b, c, d], rfl, hLt⟩, parseIPv4_eq_some.mpr hDotted, ?_⟩
  simp only [List.mem_cons, List.not_mem_nil, or_false, forall_eq_or_imp,
    forall_eq] at hLt
  simp only [IPv6.number, IPv4.number, hMapped, mappedGroups,
    List.foldl_cons, List.foldl_nil]
  omega

/-- Four parts are separated by dots. -/
theorem dot_mem_of_length {text : JsString}
    (h : (text.splitOn (unit '.')).length = 4) : unit '.' ∈ text := by
  by_contra hDot
  rw [List.splitOn_eq_singleton hDot] at h
  cases h

/-- On a literal `mappedQuad` captures a dotted quad. -/
theorem mappedQuad_of_parseIPv6 {low quad : JsString} {address : IPv6}
    (h : parseIPv6 low = some address) (hQuad : mappedQuad low = some quad) :
    ∃ embedded : IPv4, parseIPv4 quad = some embedded ∧
      address.number / 2 ^ 32 = 0xffff ∧
        address.number % 2 ^ 32 = embedded.number := by
  obtain ⟨rfl, hIsQuad⟩ := mappedQuad_eq_some hQuad
  refine embedded_of_parseIPv6 h (isDigit_of_isQuad hIsQuad)
    (dot_mem_of_length ?_)
  simp only [isQuad, Bool.and_eq_true, decide_eq_true_eq] at hIsQuad
  exact hIsQuad.1

/-! ## Spellings -/

/-- A blocked address whose text passes the tests of the guard. -/
def Missed (low : JsString) (address : IPv6) : Prop :=
  (address.number = 0 ∧ low ≠ js "::") ∨
    (address.number = 1 ∧ low ≠ js "::1") ∨
    (0xfe81 ≤ address.first ∧ address.first ≤ 0xfebf) ∨
    (address.number / 2 ^ 32 = 0xffff ∧
      blocked4 (address.number % 2 ^ 32) = true ∧ mappedQuad low = none)

theorem number_of_unspecified {address : IPv6}
    (h : parseIPv6 (js "::") = some address) : address.number = 0 := by
  have hParse : (parseIPv6 (js "::")).map IPv6.number = some 0 := by
    decide
  rw [h] at hParse
  exact Option.some.inj hParse

theorem number_of_loopback {address : IPv6}
    (h : parseIPv6 (js "::1") = some address) : address.number = 1 := by
  have hParse : (parseIPv6 (js "::1")).map IPv6.number = some 1 := by
    decide
  rw [h] at hParse
  exact Option.some.inj hParse

/-! ## Hosts -/

theorem stripBrackets_hostname {host : Host} {address : Address}
    (h : host.address = some address) :
    parseAddress (stripBrackets host.hostname) = some address := by
  cases host with
  | domain name => cases h
  | ipv4 v4 =>
      obtain rfl := Option.some.inj h
      have hParse := parseIPv4_ipv4Text v4
      have hUnits := isLiteralUnit_of_parseAddress
        (parseAddress_eq_v4_iff.mpr hParse)
      rw [Host.hostname, stripBrackets_of_not_mem
        (fun hMem => absurd (hUnits _ hMem) (by decide))
        (fun hMem => absurd (hUnits _ hMem) (by decide))]
      exact parseAddress_eq_v4_iff.mpr hParse
  | ipv6 v6 =>
      obtain rfl := Option.some.inj h
      have hStrip : stripBrackets (Host.ipv6 v6).hostname = ipv6Text v6 := by
        simp [stripBrackets, Host.hostname]
      rw [hStrip]
      exact parseAddress_eq_v6_iff.mpr (parseIPv6_ipv6Text v6)

/-- No dotted quad is captured from a text a URL prints. -/
theorem mappedQuad_of_isPlain {low : JsString} (h : IsPlain low) :
    mappedQuad low = none := by
  cases hQuad : mappedQuad low with
  | none => rfl
  | some quad =>
      obtain ⟨rfl, hIsQuad⟩ := mappedQuad_eq_some hQuad
      have hDot : unit '.' ∉ quad := fun hMem =>
        h.not_mem (by decide) (by decide) (List.mem_append_right _ hMem)
      have hParts := List.splitOn_eq_singleton hDot
      simp [isQuad, hParts] at hIsQuad

theorem ipv6Text_of_number_eq_zero {address : IPv6}
    (h : address.number = 0) : ipv6Text address = js "::" := by
  obtain ⟨a, b, c, d, e, f, g, k, hGroups, -⟩ := address.groups_eq
  have hZero : [a, b, c, d, e, f, g, k] = [0, 0, 0, 0, 0, 0, 0, 0] := by
    simp only [IPv6.number, hGroups, List.foldl_cons, List.foldl_nil] at h
    simp only [List.cons.injEq, and_true]
    omega
  rw [ipv6Text, hGroups, hZero]
  decide

theorem ipv6Text_of_number_eq_one {address : IPv6}
    (h : address.number = 1) : ipv6Text address = js "::1" := by
  obtain ⟨a, b, c, d, e, f, g, k, hGroups, -⟩ := address.groups_eq
  have hOne : [a, b, c, d, e, f, g, k] = [0, 0, 0, 0, 0, 0, 0, 1] := by
    simp only [IPv6.number, hGroups, List.foldl_cons, List.foldl_nil] at h
    simp only [List.cons.injEq, and_true]
    omega
  rw [ipv6Text, hGroups, hOne]
  decide

section Tests

variable [CaseMapping]

theorem toLowerCase_literal {ip : JsString} {address : Address}
    (h : parseAddress ip = some address) :
    CaseMapping.toLowerCase ip = ip.map asciiLower := by
  refine CaseMapping.toLowerCase_ascii ip (fun u hu => ?_)
  have hUnit := isLiteralUnit_of_parseAddress h u hu
  rw [isLiteralUnit_iff] at hUnit
  omega

theorem isBlockedAddress_v4 {ip : JsString} {address : IPv4}
    (h : parseIPv4 ip = some address) :
    isBlockedAddress ip = blocked4 address.number := by
  have hFamily : isIP ip = 4 := by
    simp [isIP, parseAddress_eq_v4_iff.mpr h]
  rw [isBlockedAddress, if_pos hFamily, isBlockedQuad_eq h]

/-- What the guard tests on a literal of family 6. -/
theorem isBlockedAddress_v6 {ip : JsString} {address : IPv6}
    (h : parseIPv6 ip = some address) :
    isBlockedAddress ip = true ↔
      ip.map asciiLower = js "::" ∨ ip.map asciiLower = js "::1" ∨
        address.first = 0xfe80 ∨
        (0xfc00 ≤ address.first ∧ address.first ≤ 0xfdff) ∨
        shortLocal (ip.map asciiLower) = true ∨
        (mappedQuad (ip.map asciiLower) ≠ none ∧
          address.number / 2 ^ 32 = 0xffff ∧
          blocked4 (address.number % 2 ^ 32) = true) := by
  have hParse := parseAddress_eq_v6_iff.mpr h
  have hFamily : isIP ip ≠ 4 := by simp [isIP, hParse]
  have hLow : parseIPv6 (ip.map asciiLower) = some address := by
    rw [parseIPv6_map_asciiLower, h]
  have hLower : (ip.map asciiLower).map asciiLower = ip.map asciiLower := by
    simp
  have hStrip : stripBrackets (ip.map asciiLower) = ip.map asciiLower := by
    have hUnits := isLiteralUnit_of_parseAddress
      (parseAddress_eq_v6_iff.mpr hLow)
    exact stripBrackets_of_not_mem
      (fun hMem => absurd (hUnits _ hMem) (by decide))
      (fun hMem => absurd (hUnits _ hMem) (by decide))
  have hStart := startTests_of_parseIPv6 hLow hLower
  rw [isBlockedAddress, if_neg hFamily, toLowerCase_literal hParse, hStrip]
  simp only [hStart.link, hStart.uniqueLocal]
  clear hStart
  generalize ip.map asciiLower = low at *
  split_ifs with hText hFirst hRange
  · refine iff_of_true rfl ?_
    rcases hText with hText | hText
    · exact Or.inl hText
    · exact Or.inr (Or.inl hText)
  · exact iff_of_true rfl (Or.inr (Or.inr (Or.inl hFirst)))
  · refine iff_of_true rfl (Or.inr (Or.inr (Or.inr ?_)))
    rcases hRange with hRange | hShort
    · exact Or.inl hRange
    · exact Or.inr (Or.inl hShort)
  · simp only [not_or] at hText hRange
    simp only [hText, hFirst, hRange, Bool.false_eq_true, false_or]
    split
    · rename_i quad hQuad
      obtain ⟨embedded, hEmbedded, hMapped, hNumber⟩ :=
        mappedQuad_of_parseIPv6 hLow hQuad
      rw [isBlockedAddress_v4 hEmbedded, ← hNumber, hQuad]
      exact ⟨fun hFour => ⟨Option.some_ne_none quad, hMapped, hFour⟩,
        fun h => h.2.2⟩
    · rename_i hQuad
      simp [hQuad]

/-- The guard is right about an IPv6 literal unless it misses the text or
takes a short first group for the start of a unique-local address. -/
theorem isBlockedAddress_eq_blocked6_iff {ip : JsString} {address : IPv6}
    (h : parseIPv6 ip = some address) :
    isBlockedAddress ip = blocked6 address.number ↔
      ¬(Missed (ip.map asciiLower) address ∨
        shortLocal (ip.map asciiLower) = true) := by
  have hLow : parseIPv6 (ip.map asciiLower) = some address := by
    rw [parseIPv6_map_asciiLower, h]
  have hShort := (startTests_of_parseIPv6 hLow (by simp)).short
  have hZero : ip.map asciiLower = js "::" → address.number = 0 :=
    fun hText => number_of_unspecified (hText ▸ hLow)
  have hOne : ip.map asciiLower = js "::1" → address.number = 1 :=
    fun hText => number_of_loopback (hText ▸ hLow)
  have hFirst := address.first_eq
  -- how the tests exclude each other
  have hLink : 0xfe80 ≤ address.first ∧ address.first ≤ 0xfebf ↔
      address.first = 0xfe80 ∨
        (0xfe81 ≤ address.first ∧ address.first ≤ 0xfebf) := by
    omega
  have hSmall : address.number = 0 ∨ address.number = 1 ∨
      address.number / 2 ^ 32 = 0xffff → address.first = 0 := by
    omega
  have hOnce : ¬(address.number = 0 ∧ address.number = 1) ∧
      ¬(address.number = 0 ∧ address.number / 2 ^ 32 = 0xffff) ∧
        ¬(address.number = 1 ∧ address.number / 2 ^ 32 = 0xffff) := by
    omega
  rw [Bool.eq_iff_iff, isBlockedAddress_v6 h, blocked6_iff, Missed, hLink]
  generalize (address.number / 2 ^ 32 = 0xffff) = inMapped at *
  generalize (blocked4 (address.number % 2 ^ 32) = true) = four at *
  generalize ip.map asciiLower = low at *
  generalize (address.number = 0) = isZero at *
  generalize (address.number = 1) = isOne at *
  generalize address.first = first at *
  clear h hLow hFirst
  by_cases hLocal : shortLocal low = true
  · have hRange := hShort.mp hLocal
    have hFirst : first ≠ 0 ∧ first ≠ 0xfe80 ∧
        ¬(0xfe81 ≤ first ∧ first ≤ 0xfebf) ∧
          ¬(0xfc00 ≤ first ∧ first ≤ 0xfdff) := by
      omega
    have hNot := mt hSmall hFirst.1
    simp only [not_or] at hNot
    simp [hLocal, hFirst, hNot]
  by_cases hN0 : isZero
  · have hNot := hSmall (Or.inl hN0)
    have hN1 : ¬isOne := fun h => hOnce.1 ⟨hN0, h⟩
    have hMapped : ¬inMapped := fun h => hOnce.2.1 ⟨hN0, h⟩
    simp [hLocal, hN0, hN1, hMapped, hNot, mt hOne hN1]
  by_cases hN1 : isOne
  · have hNot := hSmall (Or.inr (Or.inl hN1))
    have hMapped : ¬inMapped := fun h => hOnce.2.2 ⟨hN1, h⟩
    simp [hLocal, hN0, hN1, hMapped, hNot, mt hZero hN0]
  by_cases hMapped : inMapped
  · have hNot := hSmall (Or.inr (Or.inr hMapped))
    simp [hLocal, hN0, hN1, hNot, hMapped, mt hZero hN0, mt hOne hN1]
  · simp only [hLocal, hN0, hN1, hMapped, mt hZero hN0, mt hOne hN1,
      Bool.false_eq_true, false_and, and_false, or_false, false_or]
    omega

/-- A literal that prints all eight groups is judged by its first group. -/
theorem isBlockedAddress_fullText {digits : Nat → List Nat} (address : IPv6)
    (hDigits : ∀ g < 65536, ∀ d ∈ digits g, d < 16)
    (hSpell : ∀ g < 65536, hexGroup ((digits g).map digitUnit) = some g) :
    parseIPv6 (fullText digits address) = some address ∧
      (isBlockedAddress (fullText digits address) = true ↔
        address.first = 0xfe80 ∨
          (0xfc00 ≤ address.first ∧ address.first ≤ 0xfdff) ∨
          ((digits address.first).length = 2 ∧
            0xfc ≤ address.first ∧ address.first ≤ 0xfd) ∨
          ((digits address.first).length = 3 ∧
            0xfc0 ≤ address.first ∧ address.first ≤ 0xfdf)) := by
  have hGroups : ∀ g ∈ address.groups,
      hexGroup ((digits g).map digitUnit) = some g :=
    fun g hg => hSpell g (address.groups_lt g hg)
  have hParse : parseIPv6 (fullText digits address) = some address :=
    parseIPv6_join hGroups
  have hPlain : IsPlain (fullText digits address) :=
    isPlain_join fun g hg => hDigits g (address.groups_lt g hg)
  have hBreak : breakDouble (fullText digits address) = none :=
    breakDouble_join_spelling hGroups
  have hUnspecified : fullText digits address ≠ js "::" := fun hText => by
    rw [hText] at hBreak
    exact absurd hBreak (by decide)
  have hLoopback : fullText digits address ≠ js "::1" := fun hText => by
    rw [hText] at hBreak
    exact absurd hBreak (by decide)
  have hQuad := mappedQuad_of_isPlain hPlain
  have hFirst : firstText (fullText digits address) =
      (digits address.first).map digitUnit := by
    obtain ⟨a, b, c, d, e, f, g, h, hEq, ha, -⟩ := address.groups_eq
    have hColon : unit ':' ∉ (digits a).map digitUnit :=
      fun hMem => absurd (isHexDigit_of_hexGroup (hSpell a ha) _ hMem)
        (by decide)
    have hText : fullText digits address = (digits a).map digitUnit ++
        unit ':' :: join (unit ':')
          ([b, c, d, e, f, g, h].map fun g => (digits g).map digitUnit) := by
      simp [fullText, join, hEq, List.intercalate_cons_cons]
    rw [hText, firstText, List.takeWhile_append_of_pos]
    · simp [IPv6.first, hEq]
    · intro u hu
      simpa using fun hEq : u = unit ':' => hColon (hEq ▸ hu)
  have hStart := startTests_of_parseIPv6 hParse hPlain.lower
  refine ⟨hParse, ?_⟩
  rw [isBlockedAddress_v6 hParse, hPlain.lower, hStart.short, hFirst,
    List.length_map]
  simp only [hUnspecified, hLoopback, hQuad, false_or, ne_eq,
    not_true_eq_false, false_and, or_false]

theorem isBlockedAddress_padded (address : IPv6) :
    parseIPv6 (fullText paddedDigits address) = some address ∧
      (isBlockedAddress (fullText paddedDigits address) = true ↔
        address.first = 0xfe80 ∨
          (0xfc00 ≤ address.first ∧ address.first ≤ 0xfdff)) := by
  obtain ⟨hParse, hBlocked⟩ := isBlockedAddress_fullText address
    (fun g hg => paddedDigits_lt hg) (fun g hg => hexGroup_paddedText hg)
  refine ⟨hParse, ?_⟩
  rw [hBlocked]
  simp [paddedDigits]

/-! ## Addresses -/

/-- The answers on all spellings of an address are one verdict, `true` for
the blocks and the verdict on the embedded address for a mapped one. -/
def JudgedByAddress (address : Address) : Prop :=
  ∃ verdict : Bool,
    (∀ ip, parseAddress ip = some address →
      isBlockedAddress ip = verdict) ∧
    match address with
    | .v4 address => blocked4 address.number = true → verdict = true
    | .v6 address =>
        (blockedBlocks6.any (·.contains 128 address.number) = true →
          verdict = true) ∧
        (mappedBlock.contains 128 address.number = true →
          (verdict = true ↔ blocked4 (address.number % 2 ^ 32) = true))

/-- The addresses whose spellings the guard tells apart or misses all of. -/
def SpellingMatters (address : Address) : Prop :=
  ∃ v6, address = .v6 v6 ∧
    (v6.number = 0 ∨ v6.number = 1 ∨
      (0xfe81 ≤ v6.first ∧ v6.first ≤ 0xfebf) ∨
      (v6.number / 2 ^ 32 = 0xffff ∧
        blocked4 (v6.number % 2 ^ 32) = true) ∨
      (0xfc ≤ v6.first ∧ v6.first ≤ 0xfd) ∨
      (0xfc0 ≤ v6.first ∧ v6.first ≤ 0xfdf))

theorem judgedByAddress_of_not {address : Address}
    (h : ¬SpellingMatters address) : JudgedByAddress address := by
  refine ⟨blocked address, ?_⟩
  cases address with
  | v4 address =>
      refine ⟨fun ip hParse => ?_, id⟩
      exact isBlockedAddress_v4 (parseAddress_eq_v4_iff.mp hParse)
  | v6 address =>
      have hNot := fun hMatters => h ⟨address, rfl, hMatters⟩
      refine ⟨fun ip hParse => ?_, fun hBlock => ?_, fun hMapped => ?_⟩
      · have hSix := parseAddress_eq_v6_iff.mp hParse
        refine (isBlockedAddress_eq_blocked6_iff hSix).mpr ?_
        have hLow : parseIPv6 (ip.map asciiLower) = some address := by
          rw [parseIPv6_map_asciiLower, hSix]
        rw [(startTests_of_parseIPv6 hLow (by simp)).short]
        rintro ((⟨hZero, -⟩ | ⟨hOne, -⟩ | hRange | ⟨hMapped, hFour, -⟩) |
          ⟨-, hShort⟩ | ⟨-, hShort⟩)
        · exact hNot (Or.inl hZero)
        · exact hNot (Or.inr (Or.inl hOne))
        · exact hNot (Or.inr (Or.inr (Or.inl hRange)))
        · exact hNot (Or.inr (Or.inr (Or.inr (Or.inl ⟨hMapped, hFour⟩))))
        · exact hNot (Or.inr (Or.inr (Or.inr (Or.inr (Or.inl hShort)))))
        · exact hNot (Or.inr (Or.inr (Or.inr (Or.inr (Or.inr hShort)))))
      · simp [blocked, blocked6, hBlock]
      · rw [blocked, blocked6_of_mapped hMapped]

theorem not_judgedByAddress_of {address : Address}
    (h : SpellingMatters address) : ¬JudgedByAddress address := by
  rintro ⟨verdict, hAll, hRule⟩
  obtain ⟨v6, rfl, hMatters⟩ := h
  obtain ⟨hBlock, hMapped⟩ := hRule
  obtain ⟨hPadded, hPaddedBlocked⟩ := isBlockedAddress_padded v6
  obtain ⟨hShort, hShortBlocked⟩ := isBlockedAddress_fullText v6
    (fun g hg => groupDigits_lt hg) (fun g hg => hexGroup_groupText hg)
  rw [hAll _ (parseAddress_eq_v6_iff.mpr hPadded)] at hPaddedBlocked
  rw [hAll _ (parseAddress_eq_v6_iff.mpr hShort)] at hShortBlocked
  rw [blockedBlocks6_iff] at hBlock
  rw [mappedBlock_iff] at hMapped
  have hFirst := v6.first_eq
  rcases hMatters with hZero | hOne | hLink | ⟨hRange, hFour⟩ | hTwo | hThree
  · have hVerdict := hPaddedBlocked.mp (hBlock (Or.inl hZero))
    omega
  · have hVerdict := hPaddedBlocked.mp (hBlock (Or.inr (Or.inl hOne)))
    omega
  · have hVerdict := hPaddedBlocked.mp
      (hBlock (Or.inr (Or.inr (Or.inl (by omega)))))
    omega
  · have hVerdict := hPaddedBlocked.mp ((hMapped hRange).mpr hFour)
    omega
  · have hLength : (groupDigits v6.first).length = 2 := by
      unfold groupDigits
      rw [if_neg (by omega), if_pos (by omega)]
      rfl
    have hVerdict := hPaddedBlocked.mp
      (hShortBlocked.mpr (Or.inr (Or.inr (Or.inl ⟨hLength, hTwo⟩))))
    omega
  · have hLength : (groupDigits v6.first).length = 3 := by
      unfold groupDigits
      rw [if_neg (by omega), if_neg (by omega), if_pos (by omega)]
      rfl
    have hVerdict := hPaddedBlocked.mp
      (hShortBlocked.mpr (Or.inr (Or.inr (Or.inr ⟨hLength, hThree⟩))))
    omega

/-! ## URLs -/

/-- The blocked addresses the printed text of which passes the guard. -/
def MissedWhenPrinted (address : IPv6) : Prop :=
  (0xfe81 ≤ address.first ∧ address.first ≤ 0xfebf) ∨
    (address.number / 2 ^ 32 = 0xffff ∧
      blocked4 (address.number % 2 ^ 32) = true)

theorem isBlockedAddress_ipv6Text {address : IPv6}
    (hBlocked : blocked6 address.number = true) :
    isBlockedAddress (ipv6Text address) = true ↔
      ¬MissedWhenPrinted address := by
  have hParse := parseIPv6_ipv6Text address
  have hPlain := isPlain_ipv6Text address
  have hJudged := isBlockedAddress_eq_blocked6_iff hParse
  have hShort : ¬shortLocal (ipv6Text address) = true := by
    rw [(startTests_of_parseIPv6 hParse hPlain.lower).short]
    have hFirst := address.first_eq
    rcases (blocked6_iff address).mp hBlocked with h | h | h | h | ⟨h, -⟩ <;>
      omega
  rw [hBlocked, hPlain.lower] at hJudged
  rw [hJudged, Missed, MissedWhenPrinted]
  refine not_congr ?_
  constructor
  · rintro ((⟨hZero, hText⟩ | ⟨hOne, hText⟩ | hLink | ⟨hMapped, hFour, -⟩) |
      hLocal)
    · exact absurd (ipv6Text_of_number_eq_zero hZero) hText
    · exact absurd (ipv6Text_of_number_eq_one hOne) hText
    · exact Or.inl hLink
    · exact Or.inr ⟨hMapped, hFour⟩
    · exact absurd hLocal hShort
  · rintro (hLink | ⟨hMapped, hFour⟩)
    · exact Or.inl (Or.inr (Or.inr (Or.inl hLink)))
    · exact Or.inl (Or.inr (Or.inr (Or.inr
        ⟨hMapped, hFour, mappedQuad_of_isPlain hPlain⟩)))

/-- A URL whose host is an address is judged by the text of that host. -/
theorem assertPublicUrl_literal {network : Network} {rawUrl : JsString}
    {opts : AssertPublicUrlOptions} {url : Url} {address : Address}
    (hUrl : network.parseUrl rawUrl = some url)
    (hScheme : url.protocol ∈ allowedSchemes opts)
    (hHost : url.host.address = some address) :
    assertPublicUrl network rawUrl opts =
      if isBlockedAddress (stripBrackets url.hostname) then
        .error (privateAddress (stripBrackets url.hostname) rawUrl)
      else .ok url := by
  have hParse := stripBrackets_hostname hHost
  have hFamily : isIP (stripBrackets url.hostname) ≠ 0 := by
    unfold isIP Url.hostname
    rw [hParse]
    cases address <;> simp
  have hAddresses : addressesOf network (stripBrackets url.hostname) =
      .ok [stripBrackets url.hostname] := by
    rw [addressesOf, if_pos hFamily]
  rw [assertPublicUrl, hUrl]
  simp only [hScheme, not_true_eq_false, if_false, hAddresses]
  cases hBlocked : isBlockedAddress (stripBrackets url.hostname) <;>
    simp [bind, Except.bind, List.find?, hBlocked]

/-- No URL with a blocked address for a host gets past `assertPublicUrl`. -/
def RefusesBlockedHost (network : Network) (rawUrl : JsString)
    (opts : AssertPublicUrlOptions) : Prop :=
  ∀ url address, network.parseUrl rawUrl = some url →
    url.protocol ∈ allowedSchemes opts →
    url.host.address = some address → blocked address = true →
    ∃ text, assertPublicUrl network rawUrl opts =
      .error (privateAddress text rawUrl)

def HostIsMissed (network : Network) (rawUrl : JsString)
    (opts : AssertPublicUrlOptions) : Prop :=
  ∃ url address, network.parseUrl rawUrl = some url ∧
    url.protocol ∈ allowedSchemes opts ∧ url.host = .ipv6 address ∧
    MissedWhenPrinted address

theorem refusesBlockedHost_iff (network : Network) (rawUrl : JsString)
    (opts : AssertPublicUrlOptions) :
    RefusesBlockedHost network rawUrl opts ↔
      ¬HostIsMissed network rawUrl opts := by
  constructor
  · rintro hRefuses ⟨url, address, hUrl, hScheme, hHost, hMissed⟩
    have hAddress : url.host.address = some (.v6 address) := by
      rw [hHost]
      rfl
    have hBlocked : blocked6 address.number = true := by
      rw [blocked6_iff]
      rcases hMissed with hLink | hMapped
      · exact Or.inr (Or.inr (Or.inl (by omega)))
      · exact Or.inr (Or.inr (Or.inr (Or.inr hMapped)))
    obtain ⟨text, hError⟩ :=
      hRefuses url (.v6 address) hUrl hScheme hAddress hBlocked
    have hText : stripBrackets url.hostname = ipv6Text address := by
      simp [Url.hostname, hHost, stripBrackets, Host.hostname]
    have hPass : isBlockedAddress (ipv6Text address) = false := by
      rw [Bool.eq_false_iff]
      exact fun hTrue =>
        (isBlockedAddress_ipv6Text hBlocked).mp hTrue hMissed
    rw [assertPublicUrl_literal hUrl hScheme hAddress, hText, hPass] at hError
    cases hError
  · intro hNot url address hUrl hScheme hAddress hBlocked
    rw [assertPublicUrl_literal hUrl hScheme hAddress]
    have hTrue : isBlockedAddress (stripBrackets url.hostname) = true := by
      cases hHost : url.host with
      | domain name =>
          rw [hHost] at hAddress
          cases hAddress
      | ipv4 v4 =>
          have hParse := stripBrackets_hostname hAddress
          rw [hHost] at hAddress
          obtain rfl := Option.some.inj hAddress
          rw [Url.hostname, isBlockedAddress_v4
            (parseAddress_eq_v4_iff.mp hParse)]
          exact hBlocked
      | ipv6 v6 =>
          have hText : stripBrackets url.hostname = ipv6Text v6 := by
            simp [Url.hostname, hHost, stripBrackets, Host.hostname]
          rw [hHost] at hAddress
          obtain rfl := Option.some.inj hAddress
          rw [hText]
          exact (isBlockedAddress_ipv6Text hBlocked).mpr
            (fun hMissed => hNot ⟨url, v6, hUrl, hScheme, hHost, hMissed⟩)
    exact ⟨stripBrackets url.hostname, by rw [hTrue]; rfl⟩

/-! ## The guard -/

/-- The guard's answer on a text is the one its address should get. -/
def JudgedRight (ip : JsString) : Prop :=
  ∀ address, parseAddress ip = some address →
    isBlockedAddress ip = blocked address

/-- A literal the tests on the text get wrong. -/
def Misjudged (ip : JsString) : Prop :=
  ∃ address, parseIPv6 ip = some address ∧
    (Missed (ip.map asciiLower) address ∨
      shortLocal (ip.map asciiLower) = true)

theorem judgedRight_iff (ip : JsString) :
    JudgedRight ip ↔ ¬Misjudged ip := by
  constructor
  · rintro hRight ⟨address, hParse, hWrong⟩
    have hEq := hRight (.v6 address) (parseAddress_eq_v6_iff.mpr hParse)
    exact (isBlockedAddress_eq_blocked6_iff hParse).mp hEq hWrong
  · intro hNot address hParse
    cases address with
    | v4 v4 => exact isBlockedAddress_v4 (parseAddress_eq_v4_iff.mp hParse)
    | v6 v6 =>
        have hSix := parseAddress_eq_v6_iff.mp hParse
        exact (isBlockedAddress_eq_blocked6_iff hSix).mpr
          (fun hWrong => hNot ⟨v6, hSix, hWrong⟩)

theorem judgedByAddress_iff (address : Address) :
    JudgedByAddress address ↔ ¬SpellingMatters address :=
  ⟨fun hJudged hMatters => not_judgedByAddress_of hMatters hJudged,
    judgedByAddress_of_not⟩

/-- **The guard judges addresses, not spellings,** on exactly these texts,
for exactly these addresses and behind exactly these URLs. -/
theorem guard_judgesAddresses_iff :
    (∀ ip, JudgedRight ip ↔ ¬Misjudged ip) ∧
      (∀ address, JudgedByAddress address ↔ ¬SpellingMatters address) ∧
      (∀ network rawUrl opts, RefusesBlockedHost network rawUrl opts ↔
        ¬HostIsMissed network rawUrl opts) :=
  ⟨judgedRight_iff, judgedByAddress_iff, refusesBlockedHost_iff⟩

end Tests

/-- `::ffff:127.0.0.1` in the groups a URL prints. -/
private def mappedLoopback : IPv6 where
  groups := [0, 0, 0, 0, 0, 0xffff, 0x7f00, 1]
  length_groups := rfl
  groups_lt := by decide

/-- The text of the mapped loopback address, as a URL prints it, passes; so
do the address itself, read from another spelling than the tests use, and
a URL with it. -/
theorem not_guard_judgesAddresses_mappedLoopback :
    letI := asciiCaseMapping
    parseAddress (js "::ffff:7f00:1") = parseAddress (js "::ffff:127.0.0.1") ∧
      isBlockedAddress (js "::ffff:7f00:1") = false ∧
      isBlockedAddress (js "::ffff:127.0.0.1") = true ∧
      ¬RefusesBlockedHost
        { parseUrl := fun _ => some
            { protocol := js "https:", host := .ipv6 mappedLoopback }
          lookup := fun _ => .ok [] }
        (js "https://[::ffff:127.0.0.1]/") {} := by
  let _ := asciiCaseMapping
  have hSpelled : parseIPv6 (js "::ffff:7f00:1") = some mappedLoopback := by
    decide
  have hDotted : parseIPv6 (js "::ffff:127.0.0.1") = some mappedLoopback := by
    decide
  refine ⟨?_, ?_, ?_, ?_⟩
  · rw [parseAddress_eq_v6_iff.mpr hSpelled,
      parseAddress_eq_v6_iff.mpr hDotted]
  · rw [Bool.eq_false_iff, ne_eq, isBlockedAddress_v6 hSpelled]
    decide
  · rw [isBlockedAddress_v6 hDotted]
    decide
  · rw [refusesBlockedHost_iff, not_not]
    exact ⟨_, mappedLoopback, rfl, by decide, rfl, Or.inr (by decide)⟩

end OpenApe.Ports.SsrfGuardSpelling
