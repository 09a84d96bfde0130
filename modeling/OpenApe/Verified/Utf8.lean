import OpenApe.Verified.Json

/-!
# UTF-8

The bytes that `createHash(…).update(text)` and `TextEncoder` read of a
text.  Unpaired surrogates are all replaced by U+FFFD; a well-paired text has
none.
-/

namespace OpenApe.Verified.Utf8

open JsText Unicode

/-- The bytes of a code point, as numbers. -/
def pointBytes (c : Nat) : List Nat :=
  if c < 0x80 then [c]
  else if c < 0x800 then [0xC0 + c / 0x40, 0x80 + c % 0x40]
  else if 0xD800 ≤ c ∧ c ≤ 0xDFFF then [0xEF, 0xBF, 0xBD]
  else if c < 0x10000 then
    [0xE0 + c / 0x1000, 0x80 + c / 0x40 % 0x40, 0x80 + c % 0x40]
  else
    [0xF0 + c / 0x40000, 0x80 + c / 0x1000 % 0x40, 0x80 + c / 0x40 % 0x40,
      0x80 + c % 0x40]

/-- `new TextEncoder().encode(text)` -/
def utf8 (text : JsString) : List UInt8 :=
  ((codePoints text).flatMap pointBytes).map UInt8.ofNat

/-! ## Code points -/

/-- The units of a code point. -/
def pointUnits (c : Nat) : JsString :=
  if c < 0x10000 then [c.toUInt16]
  else [(0xD800 + (c - 0x10000) / 0x400).toUInt16,
    (0xDC00 + (c - 0x10000) % 0x400).toUInt16]

private theorem pointUnits_unit (u : CodeUnit) : pointUnits u.toNat = [u] := by
  have hBound := u.toNat_lt
  rw [pointUnits, if_pos hBound]
  exact congrArg (· :: []) (UInt16.ofNat_toNat)

private theorem pointUnits_pair {u v : CodeUnit}
    (hu : isHighSurrogate u = true) (hv : isLowSurrogate v = true) :
    pointUnits (0x10000 + (u.toNat - 0xD800) * 0x400 + (v.toNat - 0xDC00)) =
      [u, v] := by
  obtain ⟨huLow, huHigh⟩ := Bool.and_eq_true_iff.mp hu
  obtain ⟨hvLow, hvHigh⟩ := Bool.and_eq_true_iff.mp hv
  have huLow : 0xD800 ≤ u.toNat := of_decide_eq_true huLow
  have huHigh : u.toNat ≤ 0xDBFF := of_decide_eq_true huHigh
  have hvLow : 0xDC00 ≤ v.toNat := of_decide_eq_true hvLow
  have hvHigh : v.toNat ≤ 0xDFFF := of_decide_eq_true hvHigh
  have hFirst : 0xD800 + (0x10000 + (u.toNat - 0xD800) * 0x400 +
      (v.toNat - 0xDC00) - 0x10000) / 0x400 = u.toNat := by omega
  have hSecond : 0xDC00 + (0x10000 + (u.toNat - 0xD800) * 0x400 +
      (v.toNat - 0xDC00) - 0x10000) % 0x400 = v.toNat := by omega
  rw [pointUnits, if_neg (by omega), hFirst, hSecond]
  exact congrArg₂ (fun a b => [a, b]) UInt16.ofNat_toNat UInt16.ofNat_toNat

/-- The code points give the text back. -/
theorem flatMap_pointUnits (text : JsString) :
    (codePoints text).flatMap pointUnits = text := by
  induction text using codePoints.induct with
  | case1 => rfl
  | case2 u => rw [codePoints, List.flatMap_singleton, pointUnits_unit]
  | case3 u v rest hPair ih =>
      obtain ⟨hu, hv⟩ := Bool.and_eq_true_iff.mp hPair
      rw [codePoints, if_pos hPair, List.flatMap_cons, ih,
        pointUnits_pair hu hv]
      rfl
  | case4 u v rest hPair ih =>
      rw [codePoints, if_neg hPair, List.flatMap_cons, ih, pointUnits_unit]
      rfl

theorem codePoints_injective : Function.Injective codePoints := by
  intro a b h
  rw [← flatMap_pointUnits a, h, flatMap_pointUnits]

/-! ## Well-paired texts -/

/-- Whether every surrogate of the text is half of a pair. -/
def wellPaired : JsString → Bool
  | [] => true
  | [u] => !isHighSurrogate u && !isLowSurrogate u
  | u :: v :: rest =>
      if isHighSurrogate u && isLowSurrogate v then wellPaired rest
      else !isHighSurrogate u && !isLowSurrogate u && wellPaired (v :: rest)

/-- A unit that is no surrogate, before a text. -/
theorem wellPaired_cons {u : CodeUnit} (hHigh : isHighSurrogate u = false)
    (hLow : isLowSurrogate u = false) (text : JsString) :
    wellPaired (u :: text) = wellPaired text := by
  cases text with
  | nil => simp [wellPaired, hHigh, hLow]
  | cons v rest => simp [wellPaired, hHigh, hLow]

/-- What stands before a unit that is no second half is well-paired too. -/
theorem wellPaired_of_append_cons {a b : JsString} {u : CodeUnit}
    (hLow : isLowSurrogate u = false)
    (h : wellPaired (a ++ u :: b) = true) : wellPaired a = true := by
  induction a using wellPaired.induct with
  | case1 => rfl
  | case2 v =>
      rw [List.singleton_append, wellPaired, hLow, Bool.and_false,
        if_neg Bool.false_ne_true] at h
      exact (Bool.and_eq_true_iff.mp h).1
  | case3 v w rest hPair ih =>
      rw [List.cons_append, List.cons_append, wellPaired, if_pos hPair] at h
      rw [wellPaired, if_pos hPair]
      exact ih h
  | case4 v w rest hPair ih =>
      rw [List.cons_append, List.cons_append, wellPaired, if_neg hPair,
        Bool.and_eq_true_iff] at h
      rw [wellPaired, if_neg hPair, Bool.and_eq_true_iff]
      exact ⟨h.1, ih h.2⟩

theorem wellPaired_of_forall {text : JsString}
    (h : ∀ u ∈ text, isHighSurrogate u = false ∧ isLowSurrogate u = false) :
    wellPaired text = true := by
  induction text with
  | nil => rfl
  | cons u rest ih =>
      obtain ⟨hHigh, hLow⟩ := h u List.mem_cons_self
      rw [wellPaired_cons hHigh hLow]
      exact ih (fun v hv => h v (List.mem_cons_of_mem u hv))

/-- A code point that the encoder writes as itself. -/
def IsScalar (c : Nat) : Prop :=
  c < 0x110000 ∧ ¬(0xD800 ≤ c ∧ c ≤ 0xDFFF)

private theorem isScalar_unit {u : CodeUnit}
    (hHigh : isHighSurrogate u = false) (hLow : isLowSurrogate u = false) :
    IsScalar u.toNat := by
  have hBound := u.toNat_lt
  have hHigh : ¬(0xD800 ≤ u.toNat ∧ u.toNat ≤ 0xDBFF) := by
    rintro ⟨h, h'⟩
    rw [isHighSurrogate, Bool.and_eq_false_iff] at hHigh
    exact hHigh.elim (fun hFalse => of_decide_eq_false hFalse h)
      (fun hFalse => of_decide_eq_false hFalse h')
  have hLow : ¬(0xDC00 ≤ u.toNat ∧ u.toNat ≤ 0xDFFF) := by
    rintro ⟨h, h'⟩
    rw [isLowSurrogate, Bool.and_eq_false_iff] at hLow
    exact hLow.elim (fun hFalse => of_decide_eq_false hFalse h)
      (fun hFalse => of_decide_eq_false hFalse h')
  exact ⟨by omega, by omega⟩

theorem isScalar_of_wellPaired {text : JsString}
    (h : wellPaired text = true) : ∀ c ∈ codePoints text, IsScalar c := by
  induction text using codePoints.induct with
  | case1 => exact fun c hc => nomatch hc
  | case2 u =>
      simp only [wellPaired, Bool.and_eq_true, Bool.not_eq_true'] at h
      intro c hc
      rw [codePoints, List.mem_singleton] at hc
      rw [hc]
      exact isScalar_unit h.1 h.2
  | case3 u v rest hPair ih =>
      rw [wellPaired, if_pos hPair] at h
      obtain ⟨hu, hv⟩ := Bool.and_eq_true_iff.mp hPair
      obtain ⟨-, huHigh⟩ := Bool.and_eq_true_iff.mp hu
      obtain ⟨-, hvHigh⟩ := Bool.and_eq_true_iff.mp hv
      have huHigh : u.toNat ≤ 0xDBFF := of_decide_eq_true huHigh
      have hvHigh : v.toNat ≤ 0xDFFF := of_decide_eq_true hvHigh
      intro c hc
      rw [codePoints, if_pos hPair, List.mem_cons] at hc
      rcases hc with hPoint | hRest
      · rw [hPoint]
        unfold IsScalar
        constructor <;> omega
      · exact ih h c hRest
  | case4 u v rest hPair ih =>
      rw [wellPaired, if_neg hPair] at h
      simp only [Bool.and_eq_true, Bool.not_eq_true'] at h
      intro c hc
      rw [codePoints, if_neg hPair, List.mem_cons] at hc
      rcases hc with rfl | hRest
      · exact isScalar_unit h.1.1 h.1.2
      · exact ih h.2 c hRest

/-! ## Bytes -/

theorem pointBytes_lt {c : Nat} (h : IsScalar c) :
    ∀ b ∈ pointBytes c, b < 256 := by
  obtain ⟨hBound, -⟩ := h
  intro b hb
  unfold pointBytes at hb
  split_ifs at hb <;>
    simp only [List.mem_cons, List.not_mem_nil, or_false] at hb <;> omega

end OpenApe.Verified.Utf8
