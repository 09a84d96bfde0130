import OpenApe.Ports.SsrfGuardSpelling
import OpenApe.Verified.WordMask

/-!
# The proxy's address check (`packages/proxy/src/ssrf.ts`)

The proxy classifies addresses on its own: dotted ones with a table of
32-bit masks, the others by the start of their text.  The table test is
exact for every prefix length; against the guard of the other packages the
check misses two kinds of addresses.
-/

namespace OpenApe.Ports.ProxySsrf

open Verified.JsText Verified.Unicode Verified.IpLiteral Verified.WordMask
open GrantTypes SsrfGuard SsrfGuardSpelling

/-! ## Dotted addresses -/

structure PrivateRange where
  base : Nat
  mask : Nat
  deriving DecidableEq

/-- `PRIVATE_RANGES_V4` -/
def privateRangesV4 : List PrivateRange :=
  [⟨0x7F000000, 0xFF000000⟩, ⟨0x0A000000, 0xFF000000⟩,
    ⟨0xAC100000, 0xFFF00000⟩, ⟨0xC0A80000, 0xFFFF0000⟩,
    ⟨0xA9FE0000, 0xFFFF0000⟩, ⟨0x00000000, 0xFF000000⟩]

/-- `ip.split('.').map(Number)`, shifted into 32 bits; the parts are texts of
digits. -/
def ipv4ToNumber (ip : JsString) : Except JsError Nat :=
  match ip.splitOn (unit '.') with
  | a :: b :: c :: d :: _ =>
      .ok (packed (decimal a) (decimal b) (decimal c) (decimal d)).toNat
  | _ => .error (plainError (js "Invalid IPv4 address: " ++ ip))

/-- `((num & r.mask) >>> 0) === r.prefix` -/
def inRange (num : Nat) (r : PrivateRange) : Bool :=
  (BitVec.ofNat 32 num &&& BitVec.ofNat 32 r.mask).toNat = r.base

def isPrivateIPv4 (ip : JsString) : Except JsError Bool :=
  match ipv4ToNumber ip with
  | .error error => .error error
  | .ok num => .ok (privateRangesV4.any (inRange num))

/-! ## Other addresses -/

/-- `\d+\.\d+\.\d+\.\d+` -/
def isLongQuad (text : JsString) : Bool :=
  let parts := text.splitOn (unit '.')
  parts.length = 4 && parts.all (fun part => part ≠ [] && part.all isDigit)

/-- `normalized.match(/^::ffff:(\d+\.\d+\.\d+\.\d+)$/)`: what it captures. -/
def v4mapped (normalized : JsString) : Option JsString :=
  if mappedStart <+: normalized ∧
      isLongQuad (normalized.drop mappedStart.length) then
    some (normalized.drop mappedStart.length)
  else none

section Address

variable [CaseMapping]

def isPrivateIPv6 (ip : JsString) : Except JsError Bool :=
  let normalized := CaseMapping.toLowerCase ip
  if normalized = js "::1" then .ok true
  else if normalized = js "::" then .ok true
  else if js "fe8" <+: normalized ∨ js "fe9" <+: normalized ∨
      js "fea" <+: normalized ∨ js "feb" <+: normalized then .ok true
  else if js "fd" <+: normalized then .ok true
  else
    match v4mapped normalized with
    | some quad => isPrivateIPv4 quad
    | none => .ok false

def isPrivateIP (ip : JsString) : Except JsError Bool :=
  if isIP ip = 4 then isPrivateIPv4 ip
  else if isIP ip = 6 then isPrivateIPv6 ip
  else .ok false

end Address

/-! ## The mask test -/

/-- The range of a routing block. -/
def rangeOf (block : Block) : PrivateRange :=
  ⟨block.base, (prefixMask 32 block.len).toNat⟩

/-- **The mask test is exact** for every base and prefix length. -/
theorem inRange_rangeOf {block : Block} {num : Nat} (hNum : num < 2 ^ 32)
    (hBase : block.base % 2 ^ (32 - block.len) = 0) :
    inRange num (rangeOf block) = block.contains 32 num := by
  have hMask : BitVec.ofNat 32 (prefixMask 32 block.len).toNat =
      prefixMask 32 block.len := BitVec.ofNat_toNat _ _
  have hWord : (BitVec.ofNat 32 num).toNat = num := by
    rw [BitVec.toNat_ofNat, Nat.mod_eq_of_lt hNum]
  rw [Bool.eq_iff_iff, inRange, decide_eq_true_iff, rangeOf, hMask,
    and_prefixMask_eq_iff hBase, hWord, Block.contains, beq_iff_eq]

/-- The blocks of the table. -/
def privateBlocks4 : List Block :=
  [⟨0x7F000000, 8⟩, ⟨0x0A000000, 8⟩, ⟨0xAC100000, 12⟩, ⟨0xC0A80000, 16⟩,
    ⟨0xA9FE0000, 16⟩, ⟨0x00000000, 8⟩]

theorem privateRangesV4_eq :
    privateRangesV4 = privateBlocks4.map rangeOf := by
  decide

def private4 (number : Nat) : Bool :=
  privateBlocks4.any (fun block => block.contains 32 number)

theorem ipv4ToNumber_eq {ip : JsString} {address : IPv4}
    (h : parseIPv4 ip = some address) :
    ipv4ToNumber ip = .ok address.number := by
  obtain ⟨a, b, c, d, va, vb, vc, vd, hSplit, ha, hb, hc, hd, hOctets⟩ :=
    dotted_eq_some (parseIPv4_eq_some.mp h)
  obtain ⟨-, -, -, ha, rfl⟩ := octet_eq_some.mp ha
  obtain ⟨-, -, -, hb, rfl⟩ := octet_eq_some.mp hb
  obtain ⟨-, -, -, hc, rfl⟩ := octet_eq_some.mp hc
  obtain ⟨-, -, -, hd, rfl⟩ := octet_eq_some.mp hd
  simp [ipv4ToNumber, hSplit, packed_eq ha hb hc hd, IPv4.number, hOctets]

/-- A dotted address is private exactly when it lies in a block of the
table. -/
theorem isPrivateIPv4_eq {ip : JsString} {address : IPv4}
    (h : parseIPv4 ip = some address) :
    isPrivateIPv4 ip = .ok (private4 address.number) := by
  have hAligned : ∀ block ∈ privateBlocks4,
      block.base % 2 ^ (32 - block.len) = 0 := by decide
  have hRanges : privateRangesV4.any (inRange address.number) =
      private4 address.number := by
    rw [privateRangesV4_eq, List.any_map, private4, Bool.eq_iff_iff,
      List.any_eq_true, List.any_eq_true]
    refine exists_congr (fun block => and_congr_right (fun hBlock => ?_))
    rw [Function.comp_apply,
      inRange_rangeOf address.number_lt (hAligned block hBlock)]
  rw [isPrivateIPv4, ipv4ToNumber_eq h]
  exact congrArg Except.ok hRanges

/-! ## Against the guard of the other packages -/

/-- 100.64/10, the space shared by carriers. -/
def sharedBlock : Block := ⟨(256 * 100 + 64) * 2 ^ 16, 10⟩

def isShared (number : Nat) : Bool := sharedBlock.contains 32 number

theorem blocked4_iff (number : Nat) : blocked4 number = true ↔
    private4 number = true ∨ isShared number = true := by
  simp only [blocked4, blockedBlocks4, private4, privateBlocks4, isShared,
    sharedBlock, List.any_cons, List.any_nil, Bool.or_eq_true,
    Bool.false_eq_true, or_false, Block.contains, beq_iff_eq]
  omega

theorem not_private4_of_isShared {number : Nat}
    (h : isShared number = true) : private4 number = false := by
  rw [Bool.eq_false_iff]
  simp only [isShared, sharedBlock, Block.contains, beq_iff_eq] at h
  simp only [private4, privateBlocks4, List.any_cons, List.any_nil,
    Bool.or_eq_true, Bool.false_eq_true, or_false, Block.contains,
    beq_iff_eq, ne_eq]
  omega

/-- The text is `::ffff:` and a dotted address of which `p` holds. -/
def EndsIn (p : Nat → Bool) (low : JsString) : Prop :=
  ∃ quad, ∃ embedded : IPv4, low = mappedStart ++ quad ∧
    parseIPv4 quad = some embedded ∧ p embedded.number = true

theorem EndsIn.mono {p q : Nat → Bool} {low : JsString} (h : EndsIn p low)
    (hpq : ∀ number, p number = true → q number = true) : EndsIn q low := by
  obtain ⟨quad, embedded, hLow, hEmbedded, hNumber⟩ := h
  exact ⟨quad, embedded, hLow, hEmbedded, hpq _ hNumber⟩

/-- A literal that the guard blocks and the proxy takes for public. -/
def MissedByProxy (ip : JsString) : Prop :=
  (∃ address, parseIPv4 ip = some address ∧
    isShared address.number = true) ∨
  (∃ address, parseIPv6 ip = some address ∧
    (js "fc" <+: ip.map asciiLower ∨
      EndsIn isShared (ip.map asciiLower)))

theorem isQuad_of_parseIPv4 {quad : JsString} {embedded : IPv4}
    (h : parseIPv4 quad = some embedded) : isQuad quad = true := by
  obtain ⟨a, b, c, d, va, vb, vc, vd, hSplit, ha, hb, hc, hd, -⟩ :=
    dotted_eq_some (parseIPv4_eq_some.mp h)
  have hPart : ∀ {text value}, octet text = some value →
      text ≠ [] ∧ text.length ≤ 3 ∧ text.all isDigit = true := by
    intro text value hOctet
    obtain ⟨hNe, hDigits, -⟩ := octet_eq_some.mp hOctet
    exact ⟨hNe, length_le_of_octet hOctet, List.all_eq_true.mpr hDigits⟩
  simp [isQuad, hSplit, hPart ha, hPart hb, hPart hc, hPart hd]

theorem isLongQuad_of_isQuad {text : JsString} (h : isQuad text = true) :
    isLongQuad text = true := by
  simp only [isQuad, Bool.and_eq_true, decide_eq_true_eq,
    List.all_eq_true] at h
  simp only [isLongQuad, Bool.and_eq_true, decide_eq_true_eq,
    List.all_eq_true]
  exact ⟨h.1, fun part hPart => ⟨(h.2 part hPart).1.1, (h.2 part hPart).2⟩⟩

theorem units_of_isLongQuad {text : JsString} (h : isLongQuad text = true) :
    (∀ u ∈ text, isDigit u = true ∨ u = unit '.') ∧ unit '.' ∈ text := by
  simp only [isLongQuad, Bool.and_eq_true, decide_eq_true_eq,
    List.all_eq_true] at h
  refine ⟨fun u hu => ?_, dot_mem_of_length h.1⟩
  rcases mem_splitOn (c := unit '.') hu with hDot | ⟨part, hPart, hMem⟩
  · exact Or.inr hDot
  · exact Or.inl ((h.2 part hPart).2 u hMem)

/-- On a literal the two expressions for mapped addresses capture the same. -/
theorem v4mapped_eq_some_iff {low quad : JsString} {address : IPv6}
    (h : parseIPv6 low = some address) :
    v4mapped low = some quad ↔ mappedQuad low = some quad := by
  constructor
  · intro hMapped
    unfold v4mapped at hMapped
    split at hMapped
    · rename_i hLow
      obtain ⟨⟨rest, rfl⟩, hLong⟩ := hLow
      rw [List.drop_left] at hMapped hLong
      obtain rfl := Option.some.inj hMapped
      obtain ⟨hUnits, hDot⟩ := units_of_isLongQuad hLong
      obtain ⟨embedded, hEmbedded, -⟩ := embedded_of_parseIPv6 h hUnits hDot
      simp [mappedQuad, isQuad_of_parseIPv4 hEmbedded]
    · cases hMapped
  · intro hMapped
    obtain ⟨rfl, hQuad⟩ := mappedQuad_eq_some hMapped
    simp [v4mapped, isLongQuad_of_isQuad hQuad]

theorem mappedQuad_append {quad : JsString} (h : isQuad quad = true) :
    mappedQuad (mappedStart ++ quad) = some quad := by
  simp [mappedQuad, h]

/-- What makes the proxy take a text for private. -/
def PrivateText (low : JsString) : Prop :=
  low = js "::1" ∨ low = js "::" ∨
    (js "fe8" <+: low ∨ js "fe9" <+: low ∨ js "fea" <+: low ∨
      js "feb" <+: low) ∨
    js "fd" <+: low ∨ EndsIn private4 low

/-- A text does not start with a word that differs from it in a unit. -/
private theorem not_startsWith_of_head {word start rest : JsString}
    (hDiffer : ¬(word <+: start ∨ start <+: word)) :
    ¬word <+: start ++ rest := by
  intro hWord
  exact hDiffer (List.prefix_or_prefix_of_prefix hWord
    (List.prefix_append start rest))

theorem public_of_fc {low : JsString} (h : js "fc" <+: low) :
    ¬PrivateText low := by
  obtain ⟨rest, rfl⟩ := h
  rintro (hText | hText | (hText | hText | hText | hText) | hText |
    ⟨quad, -, hText, -⟩)
  · cases hText
  · cases hText
  · exact not_startsWith_of_head (by decide) hText
  · exact not_startsWith_of_head (by decide) hText
  · exact not_startsWith_of_head (by decide) hText
  · exact not_startsWith_of_head (by decide) hText
  · exact not_startsWith_of_head (by decide) hText
  · cases hText

theorem public_of_shared {low : JsString} (h : EndsIn isShared low) :
    ¬PrivateText low := by
  obtain ⟨quad, embedded, rfl, hEmbedded, hShared⟩ := h
  rintro (hText | hText | (hText | hText | hText | hText) | hText |
    ⟨other, found, hText, hFound, hPrivate⟩)
  · cases hText
  · have hStart : mappedStart <+: js "::" := ⟨quad, hText⟩
    exact absurd hStart (by decide)
  · exact not_startsWith_of_head (by decide) hText
  · exact not_startsWith_of_head (by decide) hText
  · exact not_startsWith_of_head (by decide) hText
  · exact not_startsWith_of_head (by decide) hText
  · exact not_startsWith_of_head (by decide) hText
  · obtain rfl := List.append_cancel_left hText
    obtain rfl := Option.some.inj (hEmbedded.symm.trans hFound)
    rw [not_private4_of_isShared hShared] at hPrivate
    cases hPrivate

section Compare

variable [CaseMapping]

/-- What the guard tests on the text of a literal of family 6. -/
theorem isBlockedAddress_text {ip : JsString} {address : IPv6}
    (h : parseIPv6 ip = some address) :
    isBlockedAddress ip = true ↔
      ip.map asciiLower = js "::" ∨ ip.map asciiLower = js "::1" ∨
        js "fe80" <+: ip.map asciiLower ∨ js "fc" <+: ip.map asciiLower ∨
        js "fd" <+: ip.map asciiLower ∨
        EndsIn blocked4 (ip.map asciiLower) := by
  have hParse := parseAddress_eq_v6_iff.mpr h
  have hFamily : isIP ip ≠ 4 := by simp [isIP, hParse]
  have hLow : parseIPv6 (ip.map asciiLower) = some address := by
    rw [parseIPv6_map_asciiLower, h]
  have hStrip : stripBrackets (ip.map asciiLower) = ip.map asciiLower := by
    have hUnits := isLiteralUnit_of_parseAddress
      (parseAddress_eq_v6_iff.mpr hLow)
    exact stripBrackets_of_not_mem
      (fun hMem => absurd (hUnits _ hMem) (by decide))
      (fun hMem => absurd (hUnits _ hMem) (by decide))
  rw [isBlockedAddress, if_neg hFamily, toLowerCase_literal hParse, hStrip]
  generalize ip.map asciiLower = low at *
  dsimp only
  split_ifs with hText hLink hRange
  · tauto
  · tauto
  · tauto
  · have hEnds : EndsIn blocked4 low ↔ low = js "::" ∨ low = js "::1" ∨
        js "fe80" <+: low ∨ js "fc" <+: low ∨ js "fd" <+: low ∨
        EndsIn blocked4 low := by
      tauto
    rw [← hEnds]
    constructor
    · intro hTrue
      split at hTrue
      · rename_i quad hQuad
        obtain ⟨embedded, hEmbedded, -⟩ := mappedQuad_of_parseIPv6 hLow hQuad
        rw [isBlockedAddress_v4 hEmbedded] at hTrue
        exact ⟨quad, embedded, (mappedQuad_eq_some hQuad).1, hEmbedded, hTrue⟩
      · cases hTrue
    · rintro ⟨quad, embedded, rfl, hEmbedded, hBlocked⟩
      have hQuad := mappedQuad_append (isQuad_of_parseIPv4 hEmbedded)
      split
      · rename_i found hFound
        obtain rfl := Option.some.inj (hQuad.symm.trans hFound)
        rw [isBlockedAddress_v4 hEmbedded]
        exact hBlocked
      · rename_i hNone
        rw [hQuad] at hNone
        cases hNone

/-- What the proxy tests on it. -/
theorem isPrivateIPv6_text {ip : JsString} {address : IPv6}
    (h : parseIPv6 ip = some address) :
    isPrivateIPv6 ip = .ok true ↔
      ip.map asciiLower = js "::1" ∨ ip.map asciiLower = js "::" ∨
        (js "fe8" <+: ip.map asciiLower ∨ js "fe9" <+: ip.map asciiLower ∨
          js "fea" <+: ip.map asciiLower ∨
          js "feb" <+: ip.map asciiLower) ∨
        js "fd" <+: ip.map asciiLower ∨
        EndsIn private4 (ip.map asciiLower) := by
  have hLow : parseIPv6 (ip.map asciiLower) = some address := by
    rw [parseIPv6_map_asciiLower, h]
  unfold isPrivateIPv6
  rw [toLowerCase_literal (parseAddress_eq_v6_iff.mpr h)]
  generalize ip.map asciiLower = low at *
  have hMapped : (match v4mapped low with
      | some quad => isPrivateIPv4 quad
      | none => .ok false) = .ok true ↔ EndsIn private4 low := by
    constructor
    · intro hTrue
      split at hTrue
      · rename_i quad hQuad
        have hQuad' := (v4mapped_eq_some_iff hLow).mp hQuad
        obtain ⟨embedded, hEmbedded, -⟩ :=
          mappedQuad_of_parseIPv6 hLow hQuad'
        rw [isPrivateIPv4_eq hEmbedded] at hTrue
        exact ⟨quad, embedded, (mappedQuad_eq_some hQuad').1, hEmbedded,
          Except.ok.inj hTrue⟩
      · cases hTrue
    · rintro ⟨quad, embedded, rfl, hEmbedded, hPrivate⟩
      have hQuad := (v4mapped_eq_some_iff hLow).mpr
        (mappedQuad_append (isQuad_of_parseIPv4 hEmbedded))
      rw [hQuad]
      exact (isPrivateIPv4_eq hEmbedded).trans (congrArg Except.ok hPrivate)
  dsimp only
  split_ifs with hLoopback hZero hLink hLocal
  · exact iff_of_true rfl (Or.inl hLoopback)
  · exact iff_of_true rfl (Or.inr (Or.inl hZero))
  · exact iff_of_true rfl (Or.inr (Or.inr (Or.inl hLink)))
  · exact iff_of_true rfl (Or.inr (Or.inr (Or.inr (Or.inl hLocal))))
  · rw [hMapped]
    simp only [hLoopback, hZero, hLink, hLocal, false_or]

/-- The proxy takes every address for private that the guard blocks, and its
masks test each routing block exactly. -/
structure AtLeastAsStrict (ip : JsString) : Prop where
  blocked : isBlockedAddress ip = true → isPrivateIP ip = .ok true
  exact : ∀ address, parseIPv4 ip = some address →
    ∃ num, ipv4ToNumber ip = .ok num ∧
      isPrivateIPv4 ip = .ok (private4 address.number) ∧
      ∀ block : Block, block.base % 2 ^ (32 - block.len) = 0 →
        inRange num (rangeOf block) = block.contains 32 address.number

theorem atLeastAsStrict_v4 {ip : JsString} {address : IPv4}
    (h : parseIPv4 ip = some address) :
    AtLeastAsStrict ip ↔ ¬MissedByProxy ip := by
  have hParse := parseAddress_eq_v4_iff.mpr h
  have hFamily : isIP ip = 4 := by simp [isIP, hParse]
  have hPrivate : isPrivateIP ip = .ok (private4 address.number) := by
    rw [isPrivateIP, if_pos hFamily, isPrivateIPv4_eq h]
  have hMissed : MissedByProxy ip ↔ isShared address.number = true := by
    constructor
    · rintro (⟨found, hFound, hShared⟩ | ⟨found, hFound, -⟩)
      · rw [h] at hFound
        cases hFound
        exact hShared
      · have hSix := parseAddress_eq_v6_iff.mpr hFound
        rw [hParse] at hSix
        cases hSix
    · exact fun hShared => Or.inl ⟨address, h, hShared⟩
  rw [hMissed]
  constructor
  · intro hStrict hShared
    have hBlocked : isBlockedAddress ip = true := by
      rw [isBlockedAddress_v4 h, blocked4_iff]
      exact Or.inr hShared
    have hTrue := hStrict.blocked hBlocked
    rw [hPrivate, not_private4_of_isShared hShared] at hTrue
    cases hTrue
  · intro hNot
    refine ⟨fun hBlocked => ?_, fun found hFound => ?_⟩
    · rw [isBlockedAddress_v4 h, blocked4_iff] at hBlocked
      rw [hPrivate, hBlocked.resolve_right hNot]
    · rw [h] at hFound
      cases hFound
      exact ⟨address.number, ipv4ToNumber_eq h, isPrivateIPv4_eq h,
        fun block hBase => inRange_rangeOf address.number_lt hBase⟩

theorem atLeastAsStrict_v6 {ip : JsString} {address : IPv6}
    (h : parseIPv6 ip = some address) :
    AtLeastAsStrict ip ↔ ¬MissedByProxy ip := by
  have hParse := parseAddress_eq_v6_iff.mpr h
  have hFour : isIP ip ≠ 4 := by simp [isIP, hParse]
  have hSix : isIP ip = 6 := by simp [isIP, hParse]
  have hPrivate : isPrivateIP ip = isPrivateIPv6 ip := by
    rw [isPrivateIP, if_neg hFour, if_pos hSix]
  have hNoQuad : ∀ found, parseIPv4 ip ≠ some found := by
    intro found hFound
    have hFamily := parseAddress_eq_v4_iff.mpr hFound
    rw [hParse] at hFamily
    cases hFamily
  have hMissed : MissedByProxy ip ↔ js "fc" <+: ip.map asciiLower ∨
      EndsIn isShared (ip.map asciiLower) := by
    constructor
    · rintro (⟨found, hFound, -⟩ | ⟨-, -, hText⟩)
      · exact absurd hFound (hNoQuad found)
      · exact hText
    · exact fun hText => Or.inr ⟨address, h, hText⟩
  have hBoth : AtLeastAsStrict ip ↔
      (isBlockedAddress ip = true → isPrivateIPv6 ip = .ok true) := by
    rw [← hPrivate]
    exact ⟨AtLeastAsStrict.blocked, fun hStrict =>
      ⟨hStrict, fun found hFound => absurd hFound (hNoQuad found)⟩⟩
  rw [hBoth, hMissed, isBlockedAddress_text h, isPrivateIPv6_text h]
  generalize ip.map asciiLower = low
  constructor
  · rintro hStrict (hText | hShared)
    · have hPublic := hStrict (Or.inr (Or.inr (Or.inr (Or.inl hText))))
      exact public_of_fc hText hPublic
    · have hBlocked : EndsIn blocked4 low := hShared.mono
        (fun number hNumber => (blocked4_iff number).mpr (Or.inr hNumber))
      have hPublic := hStrict
        (Or.inr (Or.inr (Or.inr (Or.inr (Or.inr hBlocked)))))
      exact public_of_shared hShared hPublic
  · intro hNot hBlocked
    simp only [not_or] at hNot
    rcases hBlocked with hZero | hLoopback | hLink | hUnique | hLocal | hEnds
    · exact Or.inr (Or.inl hZero)
    · exact Or.inl hLoopback
    · refine Or.inr (Or.inr (Or.inl (Or.inl ?_)))
      exact List.IsPrefix.trans ⟨js "0", rfl⟩ hLink
    · exact absurd hUnique hNot.1
    · exact Or.inr (Or.inr (Or.inr (Or.inl hLocal)))
    · refine Or.inr (Or.inr (Or.inr (Or.inr ?_)))
      obtain ⟨quad, embedded, hLow, hEmbedded, hNumber⟩ := hEnds
      refine ⟨quad, embedded, hLow, hEmbedded, ?_⟩
      exact ((blocked4_iff _).mp hNumber).resolve_right
        (fun hShared => hNot.2 ⟨quad, embedded, hLow, hEmbedded, hShared⟩)

/-- **The proxy's check against the guard**: on every literal it is as strict
but for the carriers' space and texts that start with `fc`. -/
theorem atLeastAsStrict_iff (ip : JsString) (hLiteral : isIP ip ≠ 0) :
    AtLeastAsStrict ip ↔ ¬MissedByProxy ip := by
  cases hParse : parseAddress ip with
  | none => simp [isIP, hParse] at hLiteral
  | some address =>
      cases address with
      | v4 address =>
          exact atLeastAsStrict_v4 (parseAddress_eq_v4_iff.mp hParse)
      | v6 address =>
          exact atLeastAsStrict_v6 (parseAddress_eq_v6_iff.mp hParse)

end Compare

theorem atLeastAsStrict_loopback :
    letI := asciiCaseMapping
    isIP (js "127.0.0.1") ≠ 0 ∧ AtLeastAsStrict (js "127.0.0.1") := by
  have hFour : (parseIPv4 (js "127.0.0.1")).map IPv4.number =
      some 0x7F000001 := by decide
  have hSix : parseIPv6 (js "127.0.0.1") = none := by decide
  have hFamily : isIP (js "127.0.0.1") ≠ 0 := by decide
  refine ⟨hFamily, (@atLeastAsStrict_iff asciiCaseMapping _ hFamily).mpr ?_⟩
  rintro (⟨address, hAddress, hShared⟩ | ⟨address, hAddress, -⟩)
  · rw [hAddress, Option.map_some, Option.some.injEq] at hFour
    rw [hFour] at hShared
    exact absurd hShared (by decide)
  · rw [hSix] at hAddress
    cases hAddress

/-- The carriers' space and `fc00::/8` are blocked by the guard and public
for the proxy. -/
theorem not_atLeastAsStrict_shared :
    letI := asciiCaseMapping
    ¬AtLeastAsStrict (js "100.64.0.1") ∧ ¬AtLeastAsStrict (js "fc00::1") := by
  have hShared : ¬@AtLeastAsStrict asciiCaseMapping (js "100.64.0.1") := by
    intro hStrict
    have hNumber : (parseIPv4 (js "100.64.0.1")).any
        (fun address => isShared address.number) = true := by decide
    obtain ⟨address, hAddress, hIn⟩ := (Option.any_eq_true _ _).mp hNumber
    exact (@atLeastAsStrict_v4 asciiCaseMapping _ _ hAddress).mp hStrict
      (Or.inl ⟨address, hAddress, hIn⟩)
  have hUnique : ¬@AtLeastAsStrict asciiCaseMapping (js "fc00::1") := by
    intro hStrict
    have hSome : (parseIPv6 (js "fc00::1")).isSome = true := by
      decide
    obtain ⟨address, hAddress⟩ := Option.isSome_iff_exists.mp hSome
    exact (@atLeastAsStrict_v6 asciiCaseMapping _ _ hAddress).mp hStrict
      (Or.inr ⟨address, hAddress, Or.inl (by decide)⟩)
  exact ⟨hShared, hUnique⟩

end OpenApe.Ports.ProxySsrf
