import OpenApe.Verified.Utf8

/-!
# Decoding UTF-8

`TextDecoder` in fatal mode.  Bytes that it accepts are the encoding of the
text that it gives (`utf8_decodeUtf8`), and of no other bytes
(`decodeUtf8_inj`).  A byte order mark at the start is dropped before the
decoding, so the text of a decoder determines its bytes only up to the mark.
-/

namespace OpenApe.Verified.Utf8Decode

open JsText Unicode Utf8

/-! ## Code points of bytes -/

/-- A byte that continues a code point. -/
def isTail (b : Nat) : Bool := 0x80 ≤ b && b ≤ 0xBF

def isSecondOfThree (a b : Nat) : Bool :=
  (if a = 0xE0 then 0xA0 else 0x80) ≤ b &&
    b ≤ (if a = 0xED then 0x9F else 0xBF)

def isSecondOfFour (a b : Nat) : Bool :=
  (if a = 0xF0 then 0x90 else 0x80) ≤ b &&
    b ≤ (if a = 0xF4 then 0x8F else 0xBF)

/-- The code points of bytes; none where the bytes are no UTF-8. -/
def decodePoints : List Nat → Option (List Nat)
  | [] => some []
  | a :: rest =>
      if a < 0x80 then (decodePoints rest).map (a :: ·)
      else match rest with
        | [] => none
        | b :: rest =>
            if 0xC2 ≤ a ∧ a ≤ 0xDF then
              if isTail b then
                (decodePoints rest).map
                  (((a - 0xC0) * 0x40 + (b - 0x80)) :: ·)
              else none
            else match rest with
              | [] => none
              | c :: rest =>
                  if 0xE0 ≤ a ∧ a ≤ 0xEF then
                    if isSecondOfThree a b && isTail c then
                      (decodePoints rest).map
                        (((a - 0xE0) * 0x1000 + (b - 0x80) * 0x40 +
                          (c - 0x80)) :: ·)
                    else none
                  else match rest with
                    | [] => none
                    | d :: rest =>
                        if 0xF0 ≤ a ∧ a ≤ 0xF4 ∧ isSecondOfFour a b ∧
                            isTail c ∧ isTail d then
                          (decodePoints rest).map
                            (((a - 0xF0) * 0x40000 + (b - 0x80) * 0x1000 +
                              (c - 0x80) * 0x40 + (d - 0x80)) :: ·)
                        else none

/-- Bytes that are accepted are those of scalar code points. -/
def Encodes (cs : List Nat) (bytes : List Nat) : Prop :=
  cs.flatMap pointBytes = bytes ∧ ∀ c ∈ cs, IsScalar c

theorem encodes_nil : Encodes [] [] :=
  ⟨rfl, fun _ h => nomatch h⟩

theorem Encodes.cons {c : Nat} {cs bytes : List Nat} (hScalar : IsScalar c)
    (h : Encodes cs bytes) : Encodes (c :: cs) (pointBytes c ++ bytes) := by
  refine ⟨?_, List.forall_mem_cons.mpr ⟨hScalar, h.2⟩⟩
  rw [List.flatMap_cons, h.1]

theorem pointBytes_one {a : Nat} (h : a < 0x80) :
    IsScalar a ∧ pointBytes a = [a] := by
  refine ⟨⟨by omega, by omega⟩, ?_⟩
  rw [pointBytes, if_pos h]

theorem pointBytes_two {a b : Nat} (hLeast : 0xC2 ≤ a) (hMost : a ≤ 0xDF)
    (hb : isTail b = true) :
    IsScalar ((a - 0xC0) * 0x40 + (b - 0x80)) ∧
      pointBytes ((a - 0xC0) * 0x40 + (b - 0x80)) = [a, b] := by
  simp only [isTail, Bool.and_eq_true, decide_eq_true_eq] at hb
  refine ⟨⟨by omega, by omega⟩, ?_⟩
  have hHead : 0xC0 + ((a - 0xC0) * 0x40 + (b - 0x80)) / 0x40 = a := by omega
  have hTail : 0x80 + ((a - 0xC0) * 0x40 + (b - 0x80)) % 0x40 = b := by omega
  rw [pointBytes, if_neg (by omega), if_pos (by omega), hHead, hTail]

theorem pointBytes_three {a b c : Nat} (hLeast : 0xE0 ≤ a) (hMost : a ≤ 0xEF)
    (hb : isSecondOfThree a b = true) (hc : isTail c = true) :
    IsScalar ((a - 0xE0) * 0x1000 + (b - 0x80) * 0x40 + (c - 0x80)) ∧
      pointBytes ((a - 0xE0) * 0x1000 + (b - 0x80) * 0x40 + (c - 0x80)) =
        [a, b, c] := by
  simp only [isSecondOfThree, isTail, Bool.and_eq_true, decide_eq_true_eq]
    at hb hc
  obtain ⟨hbLeast, hbMost⟩ := hb
  have hFirst : a = 0xE0 → 0xA0 ≤ b := fun h => by rwa [if_pos h] at hbLeast
  have hLast : a = 0xED → b ≤ 0x9F := fun h => by rwa [if_pos h] at hbMost
  have hbBounds : 0x80 ≤ b ∧ b ≤ 0xBF := by
    split_ifs at hbLeast hbMost <;> omega
  have hScalar : IsScalar
      ((a - 0xE0) * 0x1000 + (b - 0x80) * 0x40 + (c - 0x80)) := by
    refine ⟨by omega, ?_⟩
    by_cases hSurrogates : a = 0xED
    · have := hLast hSurrogates
      omega
    · omega
  refine ⟨hScalar, ?_⟩
  have hLarge :
      ¬(a - 0xE0) * 0x1000 + (b - 0x80) * 0x40 + (c - 0x80) < 0x800 := by
    by_cases hZero : a = 0xE0
    · have := hFirst hZero
      omega
    · omega
  generalize hPoint :
    (a - 0xE0) * 0x1000 + (b - 0x80) * 0x40 + (c - 0x80) = p at *
  have hHead : 0xE0 + p / 0x1000 = a := by omega
  have hMiddle : 0x80 + p / 0x40 % 0x40 = b := by omega
  have hTail : 0x80 + p % 0x40 = c := by omega
  rw [pointBytes, if_neg (by omega), if_neg hLarge, if_neg hScalar.2,
    if_pos (by omega), hHead, hMiddle, hTail]

theorem pointBytes_four {a b c d : Nat} (hLeast : 0xF0 ≤ a) (hMost : a ≤ 0xF4)
    (hb : isSecondOfFour a b = true) (hc : isTail c = true)
    (hd : isTail d = true) :
    IsScalar ((a - 0xF0) * 0x40000 + (b - 0x80) * 0x1000 +
        (c - 0x80) * 0x40 + (d - 0x80)) ∧
      pointBytes ((a - 0xF0) * 0x40000 + (b - 0x80) * 0x1000 +
        (c - 0x80) * 0x40 + (d - 0x80)) = [a, b, c, d] := by
  simp only [isSecondOfFour, isTail, Bool.and_eq_true, decide_eq_true_eq]
    at hb hc hd
  obtain ⟨hbLeast, hbMost⟩ := hb
  have hFirst : a = 0xF0 → 0x90 ≤ b := fun h => by rwa [if_pos h] at hbLeast
  have hLast : a = 0xF4 → b ≤ 0x8F := fun h => by rwa [if_pos h] at hbMost
  have hbBounds : 0x80 ≤ b ∧ b ≤ 0xBF := by
    split_ifs at hbLeast hbMost <;> omega
  have hSmall : (a - 0xF0) * 0x40000 + (b - 0x80) * 0x1000 +
      (c - 0x80) * 0x40 + (d - 0x80) < 0x110000 := by
    by_cases hTop : a = 0xF4
    · have := hLast hTop
      omega
    · omega
  have hLarge : ¬(a - 0xF0) * 0x40000 + (b - 0x80) * 0x1000 +
      (c - 0x80) * 0x40 + (d - 0x80) < 0x10000 := by
    by_cases hZero : a = 0xF0
    · have := hFirst hZero
      omega
    · omega
  refine ⟨⟨hSmall, by omega⟩, ?_⟩
  generalize hPoint : (a - 0xF0) * 0x40000 + (b - 0x80) * 0x1000 +
    (c - 0x80) * 0x40 + (d - 0x80) = p at *
  have hHead : 0xF0 + p / 0x40000 = a := by omega
  have hSecond : 0x80 + p / 0x1000 % 0x40 = b := by omega
  have hThird : 0x80 + p / 0x40 % 0x40 = c := by omega
  have hTail : 0x80 + p % 0x40 = d := by omega
  rw [pointBytes, if_neg (by omega), if_neg (by omega), if_neg (by omega),
    if_neg hLarge, hHead, hSecond, hThird, hTail]

/-- The bytes are those of the code points that are read from them. -/
theorem encodes_decodePoints {bytes cs : List Nat}
    (h : decodePoints bytes = some cs) : Encodes cs bytes := by
  fun_induction decodePoints bytes generalizing cs with
  | case1 =>
      cases h
      exact encodes_nil
  | case2 a rest hOne ih =>
      obtain ⟨cs, hRest, rfl⟩ := Option.map_eq_some_iff.mp h
      obtain ⟨hScalar, hBytes⟩ := pointBytes_one hOne
      have hAll := (ih hRest).cons hScalar
      rwa [hBytes] at hAll
  | case4 a hNot b rest hLead hTail ih =>
      obtain ⟨cs, hRest, rfl⟩ := Option.map_eq_some_iff.mp h
      obtain ⟨hScalar, hBytes⟩ := pointBytes_two hLead.1 hLead.2 hTail
      have hAll := (ih hRest).cons hScalar
      rwa [hBytes] at hAll
  | case7 a hNot b hNotTwo c rest hLead hTails ih =>
      obtain ⟨cs, hRest, rfl⟩ := Option.map_eq_some_iff.mp h
      rw [Bool.and_eq_true] at hTails
      obtain ⟨hScalar, hBytes⟩ :=
        pointBytes_three hLead.1 hLead.2 hTails.1 hTails.2
      have hAll := (ih hRest).cons hScalar
      rwa [hBytes] at hAll
  | case10 a hNot b hNotTwo c hNotThree d rest hTails ih =>
      obtain ⟨cs, hRest, rfl⟩ := Option.map_eq_some_iff.mp h
      obtain ⟨hLeast, hMost, hb, hc, hd⟩ := hTails
      obtain ⟨hScalar, hBytes⟩ := pointBytes_four hLeast hMost hb hc hd
      have hAll := (ih hRest).cons hScalar
      rwa [hBytes] at hAll
  | case3 | case5 | case6 | case8 | case9 | case11 => cases h

/-- Scalar code points are read from their bytes. -/
theorem decodePoints_append {c : Nat} (h : IsScalar c) (rest : List Nat) :
    decodePoints (pointBytes c ++ rest) =
      (decodePoints rest).map (c :: ·) := by
  obtain ⟨hBound, hScalar⟩ := h
  rw [pointBytes]
  split_ifs with hOne hTwo hThree
  · rw [List.singleton_append, decodePoints.eq_def]
    exact if_pos hOne
  · have hLead : 0xC2 ≤ 0xC0 + c / 0x40 ∧ 0xC0 + c / 0x40 ≤ 0xDF := by omega
    have hTail : isTail (0x80 + c % 0x40) = true := by
      simp only [isTail, Bool.and_eq_true, decide_eq_true_eq]
      omega
    have hPoint : (0xC0 + c / 0x40 - 0xC0) * 0x40 +
        (0x80 + c % 0x40 - 0x80) = c := by omega
    simp only [List.cons_append, List.nil_append]
    rw [decodePoints.eq_def]
    dsimp only
    rw [if_neg (by omega), if_pos hLead, if_pos hTail, hPoint]
  · have hLead : 0xE0 ≤ 0xE0 + c / 0x1000 ∧ 0xE0 + c / 0x1000 ≤ 0xEF := by
      omega
    have hSecond : isSecondOfThree (0xE0 + c / 0x1000)
        (0x80 + c / 0x40 % 0x40) = true := by
      simp only [isSecondOfThree, Bool.and_eq_true, decide_eq_true_eq]
      split_ifs <;> omega
    have hTail : isTail (0x80 + c % 0x40) = true := by
      simp only [isTail, Bool.and_eq_true, decide_eq_true_eq]
      omega
    have hPoint : (0xE0 + c / 0x1000 - 0xE0) * 0x1000 +
        (0x80 + c / 0x40 % 0x40 - 0x80) * 0x40 +
        (0x80 + c % 0x40 - 0x80) = c := by omega
    simp only [List.cons_append, List.nil_append]
    rw [decodePoints.eq_def]
    dsimp only
    rw [if_neg (by omega), if_neg (by omega), if_pos hLead, hSecond, hTail,
      hPoint]
    rfl
  · have hSecond : isSecondOfFour (0xF0 + c / 0x40000)
        (0x80 + c / 0x1000 % 0x40) = true := by
      simp only [isSecondOfFour, Bool.and_eq_true, decide_eq_true_eq]
      split_ifs <;> omega
    have hTail : ∀ n, isTail (0x80 + n % 0x40) = true := by
      intro n
      simp only [isTail, Bool.and_eq_true, decide_eq_true_eq]
      omega
    have hPoint : (0xF0 + c / 0x40000 - 0xF0) * 0x40000 +
        (0x80 + c / 0x1000 % 0x40 - 0x80) * 0x1000 +
        (0x80 + c / 0x40 % 0x40 - 0x80) * 0x40 +
        (0x80 + c % 0x40 - 0x80) = c := by omega
    simp only [List.cons_append, List.nil_append]
    rw [decodePoints.eq_def]
    dsimp only
    rw [if_neg (by omega), if_neg (by omega), if_neg (by omega),
      if_pos ⟨by omega, by omega, hSecond, hTail _, hTail _⟩, hPoint]

/-! ## Texts of bytes -/

theorem toNat_toUInt16 {n : Nat} (h : n < 0x10000) : n.toUInt16.toNat = n :=
  Nat.mod_eq_of_lt h

theorem codePoints_cons {u : CodeUnit} (h : isHighSurrogate u = false)
    (text : JsString) :
    codePoints (u :: text) = u.toNat :: codePoints text := by
  cases text with
  | nil => rfl
  | cons v rest => rw [codePoints, h, Bool.false_and, if_neg Bool.false_ne_true]

/-- Scalar code points are those of the text that their units make. -/
theorem codePoints_flatMap {cs : List Nat} (h : ∀ c ∈ cs, IsScalar c) :
    codePoints (cs.flatMap pointUnits) = cs := by
  induction cs with
  | nil => rfl
  | cons c cs ih =>
      obtain ⟨hBound, hScalar⟩ := h c List.mem_cons_self
      have hRest := ih fun d hd => h d (List.mem_cons_of_mem c hd)
      rw [List.flatMap_cons, pointUnits]
      split_ifs with hUnit
      · have hValue : c.toUInt16.toNat = c := toNat_toUInt16 hUnit
        have hHigh : isHighSurrogate c.toUInt16 = false := by
          rw [isHighSurrogate, Bool.and_eq_false_iff]
          simp only [decide_eq_false_iff_not, UInt16.le_iff_toNat_le, hValue,
            UInt16.reduceToNat]
          omega
        rw [List.singleton_append, codePoints_cons hHigh, hValue, hRest]
      · generalize hTop : (c - 0x10000) / 0x400 = a
        generalize hLow : (c - 0x10000) % 0x400 = b
        have ha : a < 0x400 := by omega
        have hb : b < 0x400 := by omega
        have haValue : (0xD800 + a).toUInt16.toNat = 0xD800 + a :=
          toNat_toUInt16 (by omega)
        have hbValue : (0xDC00 + b).toUInt16.toNat = 0xDC00 + b :=
          toNat_toUInt16 (by omega)
        have hPair : (isHighSurrogate (0xD800 + a).toUInt16 &&
            isLowSurrogate (0xDC00 + b).toUInt16) = true := by
          simp only [isHighSurrogate, isLowSurrogate, Bool.and_eq_true,
            decide_eq_true_eq, UInt16.le_iff_toNat_le, haValue, hbValue,
            UInt16.reduceToNat]
          omega
        have hPoint : 0x10000 + (0xD800 + a - 0xD800) * 0x400 +
            (0xDC00 + b - 0xDC00) = c := by omega
        rw [List.cons_append, List.singleton_append, codePoints, if_pos hPair,
          haValue, hbValue, hPoint, hRest]

/-- `TextDecoder`, after a byte order mark. -/
def decodeUtf8 (bytes : List UInt8) : Option JsString :=
  (decodePoints (bytes.map UInt8.toNat)).map fun cs => cs.flatMap pointUnits

/-- The bytes that are read are the encoding of the text. -/
theorem utf8_decodeUtf8 {bytes : List UInt8} {text : JsString}
    (h : decodeUtf8 bytes = some text) : utf8 text = bytes := by
  obtain ⟨cs, hPoints, rfl⟩ := Option.map_eq_some_iff.mp h
  obtain ⟨hBytes, hScalar⟩ := encodes_decodePoints hPoints
  rw [utf8, codePoints_flatMap hScalar, hBytes, List.map_map]
  refine (List.map_congr_left (g := id) fun b _ => ?_).trans (List.map_id bytes)
  exact UInt8.ofNat_toNat

/-- Scalar code points are read from their bytes, one after the other. -/
theorem decodePoints_flatMap {cs : List Nat} (h : ∀ c ∈ cs, IsScalar c) :
    decodePoints (cs.flatMap pointBytes) = some cs := by
  induction cs with
  | nil => rfl
  | cons c cs ih =>
      rw [List.forall_mem_cons] at h
      rw [List.flatMap_cons, decodePoints_append h.1, ih h.2]
      rfl

/-- A text without unpaired surrogates is read from its encoding. -/
theorem decodeUtf8_utf8 {text : JsString} (h : wellPaired text = true) :
    decodeUtf8 (utf8 text) = some text := by
  have hScalar := isScalar_of_wellPaired h
  have hBytes : (utf8 text).map UInt8.toNat =
      (codePoints text).flatMap pointBytes := by
    rw [utf8, List.map_map]
    refine (List.map_congr_left fun b hb => ?_).trans (List.map_id _)
    obtain ⟨c, hc, hb⟩ := List.mem_flatMap.mp hb
    exact Nat.mod_eq_of_lt (pointBytes_lt (hScalar c hc) b hb)
  rw [decodeUtf8, hBytes, decodePoints_flatMap hScalar, Option.map_some,
    flatMap_pointUnits]

/-- A unit of ASCII. -/
def isAscii (u : CodeUnit) : Bool := decide (u.toNat < 0x80)

theorem not_surrogate_of_isAscii {u : CodeUnit} (h : isAscii u = true) :
    isHighSurrogate u = false ∧ isLowSurrogate u = false := by
  have hBound := of_decide_eq_true h
  simp only [isHighSurrogate, isLowSurrogate, Bool.and_eq_false_iff,
    decide_eq_false_iff_not, UInt16.le_iff_toNat_le, UInt16.reduceToNat]
  omega

theorem wellPaired_of_ascii {text : JsString}
    (h : text.all isAscii = true) : wellPaired text = true :=
  wellPaired_of_forall fun u hu =>
    not_surrogate_of_isAscii (List.all_eq_true.mp h u hu)

/-- A text of ASCII has a byte for each unit. -/
theorem utf8_length_of_ascii {text : JsString}
    (h : text.all isAscii = true) : (utf8 text).length = text.length := by
  rw [utf8, List.length_map]
  induction text with
  | nil => rfl
  | cons u text ih =>
      rw [List.all_cons, Bool.and_eq_true] at h
      rw [codePoints_cons (not_surrogate_of_isAscii h.1).1, List.flatMap_cons,
        pointBytes, if_pos (of_decide_eq_true h.1), List.length_append, ih h.2,
        List.length_singleton, List.length_cons]
      omega

theorem decodeUtf8_inj {bytes bytes' : List UInt8} {text : JsString}
    (h : decodeUtf8 bytes = some text) (h' : decodeUtf8 bytes' = some text) :
    bytes = bytes' :=
  (utf8_decodeUtf8 h).symm.trans (utf8_decodeUtf8 h')

/-- The byte order mark. -/
def byteOrderMark : List UInt8 := [0xEF, 0xBB, 0xBF]

def dropMark (bytes : List UInt8) : List UInt8 :=
  if byteOrderMark.isPrefixOf bytes then bytes.drop 3 else bytes

/-- `new TextDecoder('utf-8', fatal).decode(bytes)` -/
def textDecode (bytes : List UInt8) : Option JsString :=
  decodeUtf8 (dropMark bytes)

end OpenApe.Verified.Utf8Decode
