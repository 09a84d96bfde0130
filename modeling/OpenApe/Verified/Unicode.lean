import OpenApe.Verified.JsText

/-!
# Code points of a JavaScript string

Iterating a string, a regular expression with the `u` flag and the UTF-8
encoder all read code points: a high surrogate followed by a low one is one
code point, and every other unit is one of its own.
-/

namespace OpenApe.Verified.Unicode

open JsText

def isHighSurrogate (u : CodeUnit) : Bool := 0xD800 ≤ u && u ≤ 0xDBFF

def isLowSurrogate (u : CodeUnit) : Bool := 0xDC00 ≤ u && u ≤ 0xDFFF

/-- White space is no surrogate. -/
theorem surrogate_of_isTrimmed {u : CodeUnit} (h : isTrimmed u = true) :
    isHighSurrogate u = false ∧ isLowSurrogate u = false := by
  have hBound : u < 0xD800 ∨ u = 0xFEFF := by
    by_contra hOther
    rw [not_or, UInt16.not_lt] at hOther
    have hAbove : ∀ v : CodeUnit, v < 0xD800 → u ≠ v := by
      rintro v hv rfl
      exact absurd hOther.1 (UInt16.not_le.mpr hv)
    have hRange : ¬u ≤ 0x200A := fun hLess =>
      absurd (UInt16.le_trans hOther.1 hLess) (by decide)
    simp only [isTrimmed, isLineTerminator, Bool.or_eq_true, beq_iff_eq,
      Bool.and_eq_true, decide_eq_true_eq] at h
    simp [hAbove, hOther.2, hRange] at h
  rcases hBound with hLess | rfl
  · have hHigh : ¬(0xD800 : CodeUnit) ≤ u := UInt16.not_le.mpr hLess
    have hLow : ¬(0xDC00 : CodeUnit) ≤ u := fun hLe =>
      hHigh (UInt16.le_trans (by decide) hLe)
    simp [isHighSurrogate, isLowSurrogate, hHigh, hLow]
  · decide

/-- `[...text]`, as code points. -/
def codePoints : JsString → List Nat
  | [] => []
  | [u] => [u.toNat]
  | u :: v :: rest =>
      if isHighSurrogate u && isLowSurrogate v then
        (0x10000 + (u.toNat - 0xD800) * 0x400 + (v.toNat - 0xDC00)) ::
          codePoints rest
      else u.toNat :: codePoints (v :: rest)

/-- The bytes `TextEncoder` writes for a code point; an unpaired surrogate
is replaced by U+FFFD. -/
def utf8Width (c : Nat) : Nat :=
  if c < 0x80 then 1 else if c < 0x800 then 2
  else if c < 0x10000 then 3 else 4

/-- `new TextEncoder().encode(text).length` -/
def utf8Length (text : JsString) : Nat :=
  ((codePoints text).map utf8Width).sum

/-! ## Lower case -/

/-- `A`–`Z` to `a`–`z`; every other unit is left alone. -/
def asciiLower (u : CodeUnit) : CodeUnit :=
  if 65 ≤ u.toNat ∧ u.toNat ≤ 90 then u + 32 else u

theorem asciiLower_toNat (u : CodeUnit) :
    (asciiLower u).toNat =
      if 65 ≤ u.toNat ∧ u.toNat ≤ 90 then u.toNat + 32 else u.toNat := by
  unfold asciiLower
  split
  · rw [UInt16.toNat_add, show (32 : UInt16).toNat = 32 from rfl]
    omega
  · rfl

theorem map_asciiLower_eq_self_iff {text : JsString} :
    text.map asciiLower = text ↔ ∀ u ∈ text, asciiLower u = u := by
  simpa using List.map_inj_left (l := text) (f := asciiLower) (g := id)

@[simp] theorem asciiLower_asciiLower (u : CodeUnit) :
    asciiLower (asciiLower u) = asciiLower u := by
  rw [← UInt16.toNat_inj, asciiLower_toNat, asciiLower_toNat]
  split_ifs <;> omega

/-- `String.prototype.toLowerCase`.  The runtime ships the case tables as
data; ASCII text is lowered unit by unit under all of them. -/
class CaseMapping where
  toLowerCase : JsString → JsString
  toLowerCase_ascii (s : JsString) (hAscii : ∀ u ∈ s, u.toNat < 0x80) :
    toLowerCase s = s.map asciiLower

/-- The case mapping that knows ASCII only. -/
@[reducible] def asciiCaseMapping : CaseMapping where
  toLowerCase s := s.map asciiLower
  toLowerCase_ascii _ _ := rfl

/-! ## General categories -/

/-- `\p{Cc}` -/
def isControl (c : Nat) : Bool := c ≤ 0x1F || (0x7F ≤ c && c ≤ 0x9F)

/-- The ranges of the format characters. -/
def formatRanges : List (Nat × Nat) :=
  [(0xAD, 0xAD), (0x600, 0x605), (0x61C, 0x61C), (0x6DD, 0x6DD),
    (0x70F, 0x70F), (0x890, 0x891), (0x8E2, 0x8E2), (0x180E, 0x180E),
    (0x200B, 0x200F), (0x202A, 0x202E), (0x2060, 0x2064), (0x2066, 0x206F),
    (0xFEFF, 0xFEFF), (0xFFF9, 0xFFFB), (0x110BD, 0x110BD),
    (0x110CD, 0x110CD), (0x13430, 0x1343F), (0x1BCA0, 0x1BCA3),
    (0x1D173, 0x1D17A), (0xE0001, 0xE0001), (0xE0020, 0xE007F)]

/-- `\p{Cf}` -/
def isFormat (c : Nat) : Bool :=
  formatRanges.any (fun range => range.1 ≤ c && c ≤ range.2)

/-- `\p{Cs}` -/
def isSurrogate (c : Nat) : Bool := 0xD800 ≤ c && c ≤ 0xDFFF

end OpenApe.Verified.Unicode
