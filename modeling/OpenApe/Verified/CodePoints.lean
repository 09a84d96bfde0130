import OpenApe.Verified.Unicode
import Mathlib.Data.List.Chain

/-!
# Code points and the units that spell them

A string is a list of 16-bit units, and programs that iterate over it see
code points.  Going back, a list of code points is spelled by the units of
each.  The two agree on the lists in which no high surrogate is followed by a
low one: on any other list the spelling joins the two into a code point that
the list did not hold.
-/

namespace OpenApe.Verified.CodePoints

open JsText Unicode

/-! ## Surrogates -/

theorem isHighSurrogate_iff {u : CodeUnit} :
    isHighSurrogate u = true ↔ 0xD800 ≤ u.toNat ∧ u.toNat ≤ 0xDBFF := by
  rw [isHighSurrogate, Bool.and_eq_true, decide_eq_true_iff,
    decide_eq_true_iff, UInt16.le_iff_toNat_le, UInt16.le_iff_toNat_le]
  rfl

theorem isLowSurrogate_iff {u : CodeUnit} :
    isLowSurrogate u = true ↔ 0xDC00 ≤ u.toNat ∧ u.toNat ≤ 0xDFFF := by
  rw [isLowSurrogate, Bool.and_eq_true, decide_eq_true_iff,
    decide_eq_true_iff, UInt16.le_iff_toNat_le, UInt16.le_iff_toNat_le]
  rfl

/-- Two code points that join when their units meet. -/
def Pairs (a b : Nat) : Prop :=
  (0xD800 ≤ a ∧ a ≤ 0xDBFF) ∧ 0xDC00 ≤ b ∧ b ≤ 0xDFFF

instance (a b : Nat) : Decidable (Pairs a b) :=
  inferInstanceAs (Decidable (_ ∧ _))

/-- The code point of a pair. -/
def joined (a b : Nat) : Nat := 0x10000 + (a - 0xD800) * 0x400 + (b - 0xDC00)

theorem pairs_toNat {u v : CodeUnit} :
    (isHighSurrogate u && isLowSurrogate v) = true ↔
      Pairs u.toNat v.toNat := by
  rw [Bool.and_eq_true, isHighSurrogate_iff, isLowSurrogate_iff, Pairs]

theorem codePoints_pair {u v : CodeUnit} (h : Pairs u.toNat v.toNat)
    (rest : JsString) :
    codePoints (u :: v :: rest) =
      joined u.toNat v.toNat :: codePoints rest := by
  unfold joined
  rw [codePoints, if_pos (pairs_toNat.mpr h)]

theorem codePoints_single {u v : CodeUnit} (h : ¬Pairs u.toNat v.toNat)
    (rest : JsString) :
    codePoints (u :: v :: rest) = u.toNat :: codePoints (v :: rest) := by
  rw [codePoints, if_neg (mt pairs_toNat.mp h)]

/-! ## Spelling -/

/-- `String.fromCodePoint(c)` -/
def encodePoint (c : Nat) : JsString :=
  if c < 0x10000 then [c.toUInt16]
  else [(0xD800 + (c - 0x10000) / 0x400).toUInt16,
    (0xDC00 + (c - 0x10000) % 0x400).toUInt16]

/-- Code points joined to a string. -/
def encodePoints (points : List Nat) : JsString := points.flatMap encodePoint

@[simp] theorem encodePoints_nil : encodePoints [] = [] := rfl

@[simp] theorem encodePoints_cons (c : Nat) (points : List Nat) :
    encodePoints (c :: points) = encodePoint c ++ encodePoints points := rfl

theorem encodePoints_append (xs ys : List Nat) :
    encodePoints (xs ++ ys) = encodePoints xs ++ encodePoints ys :=
  List.flatMap_append

theorem encodePoint_unit (u : CodeUnit) : encodePoint u.toNat = [u] := by
  have hBound : u.toNat < 0x10000 := u.toNat_lt
  rw [encodePoint, if_pos hBound]
  simp

theorem encodePoint_joined {u v : CodeUnit} (h : Pairs u.toNat v.toNat) :
    encodePoint (joined u.toNat v.toNat) = [u, v] := by
  obtain ⟨⟨hu, hu'⟩, hv, hv'⟩ := h
  have hBound : ¬joined u.toNat v.toNat < 0x10000 := by
    unfold joined
    omega
  have hHigh : 0xD800 + (joined u.toNat v.toNat - 0x10000) / 0x400 =
      u.toNat := by
    unfold joined
    omega
  have hLow : 0xDC00 + (joined u.toNat v.toNat - 0x10000) % 0x400 =
      v.toNat := by
    unfold joined
    omega
  rw [encodePoint, if_neg hBound, hHigh, hLow]
  simp

/-- A string is spelled by its code points. -/
theorem encodePoints_codePoints (s : JsString) :
    encodePoints (codePoints s) = s := by
  induction s using codePoints.induct with
  | case1 => rfl
  | case2 u =>
      rw [codePoints, encodePoints_cons, encodePoint_unit]
      rfl
  | case3 u v rest h ih =>
      have hPair := pairs_toNat.mp h
      rw [codePoints_pair hPair, encodePoints_cons, ih,
        encodePoint_joined hPair]
      rfl
  | case4 u v rest h ih =>
      rw [codePoints_single (mt pairs_toNat.mpr h), encodePoints_cons, ih,
        encodePoint_unit]
      rfl

theorem length_codePoints_le (s : JsString) :
    (codePoints s).length ≤ s.length := by
  induction s using codePoints.induct with
  | case1 => exact le_rfl
  | case2 u => exact le_rfl
  | case3 u v rest h ih =>
      rw [codePoints_pair (pairs_toNat.mp h)]
      simp only [List.length_cons]
      omega
  | case4 u v rest h ih =>
      rw [codePoints_single (mt pairs_toNat.mpr h)]
      exact Nat.succ_le_succ ih

/-! ## Strings read one after the other -/

/-- Where two strings join, no pair of surrogates meets. -/
def Apart (a b : JsString) : Prop :=
  ∀ u v, a.getLast? = some u → b.head? = some v → ¬Pairs u.toNat v.toNat

theorem codePoints_append {a b : JsString} (h : Apart a b) :
    codePoints (a ++ b) = codePoints a ++ codePoints b := by
  induction a using codePoints.induct with
  | case1 => rfl
  | case2 u =>
      cases b with
      | nil => rfl
      | cons v b => exact codePoints_single (h u v rfl rfl) b
  | case3 u v rest hPair ih =>
      have hRest : Apart rest b := by
        intro x y hx
        refine h x y ?_
        rw [List.getLast?_cons_cons, List.getLast?_cons, hx]
        rfl
      show codePoints (u :: v :: (rest ++ b)) = _
      rw [codePoints_pair (pairs_toNat.mp hPair),
        codePoints_pair (pairs_toNat.mp hPair), ih hRest]
      rfl
  | case4 u v rest hSingle ih =>
      have hRest : Apart (v :: rest) b := by
        intro x y hx
        refine h x y ?_
        rw [List.getLast?_cons_cons]
        exact hx
      have hNot := mt pairs_toNat.mpr hSingle
      show codePoints (u :: v :: (rest ++ b)) = _
      rw [codePoints_single hNot, codePoints_single hNot, ← List.cons_append,
        ih hRest]
      rfl

theorem apart_of_last {a b : JsString}
    (h : ∀ u, a.getLast? = some u → isHighSurrogate u = false) : Apart a b := by
  intro u v hu _ hPair
  have hHigh := h u hu
  rw [isHighSurrogate_iff.mpr hPair.1] at hHigh
  cases hHigh

theorem apart_of_head {a b : JsString}
    (h : ∀ v, b.head? = some v → isLowSurrogate v = false) : Apart a b := by
  intro u v _ hv hPair
  have hLow := h v hv
  rw [isLowSurrogate_iff.mpr hPair.2] at hLow
  cases hLow

/-- A unit that is no surrogate parts a string. -/
theorem codePoints_middle (a : JsString) {u : CodeUnit} (b : JsString)
    (h : isHighSurrogate u = false ∧ isLowSurrogate u = false) :
    codePoints (a ++ u :: b) = codePoints a ++ u.toNat :: codePoints b := by
  have hHead : Apart a (u :: b) := by
    refine apart_of_head fun v hv => ?_
    rw [← Option.some.inj hv]
    exact h.2
  have hLast : Apart [u] b := by
    refine apart_of_last fun v hv => ?_
    rw [← Option.some.inj hv]
    exact h.1
  rw [codePoints_append hHead, ← List.singleton_append,
    codePoints_append hLast]
  rfl

/-! ## Separate code points -/

/-- Code points that stay as they are when they are spelled out. -/
def Separate (points : List Nat) : Prop :=
  (∀ c ∈ points, c < 0x110000) ∧ points.IsChain (fun a b => ¬Pairs a b)

theorem Separate.nil : Separate [] :=
  ⟨fun _ h => absurd h List.not_mem_nil, List.isChain_nil⟩

theorem Separate.of_isInfix {xs ys : List Nat} (h : Separate ys)
    (hInfix : xs <:+: ys) : Separate xs :=
  ⟨fun c hc => h.1 c (hInfix.subset hc), List.IsChain.infix h.2 hInfix⟩

/-- Without surrogates any code points are separate. -/
theorem Separate.of_scalars {points : List Nat}
    (h : ∀ c ∈ points, c < 0x110000 ∧ isSurrogate c = false) :
    Separate points := by
  refine ⟨fun c hc => (h c hc).1, ?_⟩
  induction points with
  | nil => exact List.isChain_nil
  | cons c points ih =>
      refine List.isChain_cons.mpr
        ⟨fun d _ hPair => ?_, ih fun d hd => h d (List.mem_cons_of_mem _ hd)⟩
      have hScalar := (h c List.mem_cons_self).2
      rw [isSurrogate, Bool.and_eq_false_iff, decide_eq_false_iff_not,
        decide_eq_false_iff_not] at hScalar
      obtain ⟨⟨hc, hc'⟩, -⟩ := hPair
      omega

/-- Whatever reads first, no pair meets it that does not meet the first
unit. -/
theorem not_pairs_head {a : Nat} {s : JsString} {c : Nat}
    (hUnit : ∀ u, s.head? = some u → ¬Pairs a u.toNat)
    (h : (codePoints s).head? = some c) : ¬Pairs a c := by
  match s with
  | [] => cases h
  | [u] =>
      rw [← Option.some.inj h]
      exact hUnit u rfl
  | u :: v :: rest =>
      by_cases hPair : Pairs u.toNat v.toNat
      · rw [codePoints_pair hPair] at h
        rw [← Option.some.inj h]
        rintro ⟨-, -, hLow⟩
        unfold joined at hLow
        omega
      · rw [codePoints_single hPair] at h
        rw [← Option.some.inj h]
        exact hUnit u rfl

theorem joined_bounds {a b : Nat} (h : Pairs a b) :
    0x10000 ≤ joined a b ∧ joined a b < 0x110000 := by
  obtain ⟨⟨ha, ha'⟩, hb, hb'⟩ := h
  unfold joined
  omega

/-- What a string reads as is separate. -/
theorem separate_codePoints (s : JsString) : Separate (codePoints s) := by
  induction s using codePoints.induct with
  | case1 => exact Separate.nil
  | case2 u =>
      have hBound : u.toNat < 0x10000 := u.toNat_lt
      refine ⟨fun c hc => ?_, List.isChain_singleton _⟩
      rw [List.mem_singleton.mp hc]
      omega
  | case3 u v rest h ih =>
      have hPair := pairs_toNat.mp h
      have hJoined := joined_bounds hPair
      rw [codePoints_pair hPair]
      refine ⟨fun c hc => ?_, List.isChain_cons.mpr ⟨?_, ih.2⟩⟩
      · rcases List.mem_cons.mp hc with hEq | hc
        · rw [hEq]
          exact hJoined.2
        · exact ih.1 c hc
      · rintro c - ⟨⟨-, hHigh⟩, -⟩
        omega
  | case4 u v rest h ih =>
      have hNot := mt pairs_toNat.mpr h
      have hBound : u.toNat < 0x10000 := u.toNat_lt
      rw [codePoints_single hNot]
      refine ⟨fun c hc => ?_, List.isChain_cons.mpr ⟨fun c hc => ?_, ih.2⟩⟩
      · rcases List.mem_cons.mp hc with rfl | hc
        · omega
        · exact ih.1 c hc
      · refine not_pairs_head (fun w hw => ?_) hc
        rw [← Option.some.inj hw]
        exact hNot

theorem codePoints_encodePoint {c : Nat} (h : c < 0x110000) :
    codePoints (encodePoint c) = [c] := by
  rw [encodePoint]
  split
  · rename_i hUnit
    rw [codePoints, UInt16.toNat_ofNat_of_lt' hUnit]
  · rename_i hLarge
    have hHigh : ((0xD800 + (c - 0x10000) / 0x400).toUInt16).toNat =
        0xD800 + (c - 0x10000) / 0x400 :=
      UInt16.toNat_ofNat_of_lt' (by simp only [UInt16.size]; omega)
    have hLow : ((0xDC00 + (c - 0x10000) % 0x400).toUInt16).toNat =
        0xDC00 + (c - 0x10000) % 0x400 :=
      UInt16.toNat_ofNat_of_lt' (by simp only [UInt16.size]; omega)
    rw [codePoints_pair (by rw [hHigh, hLow, Pairs]; omega), hHigh, hLow]
    have hJoined : joined (0xD800 + (c - 0x10000) / 0x400)
        (0xDC00 + (c - 0x10000) % 0x400) = c := by
      unfold joined
      omega
    rw [hJoined]
    rfl

/-- The last unit of a code point is high only where the code point is that
unit. -/
theorem last_encodePoint {c : Nat} {u : CodeUnit}
    (h : (encodePoint c).getLast? = some u)
    (hHigh : 0xD800 ≤ u.toNat ∧ u.toNat ≤ 0xDBFF) : c = u.toNat := by
  rw [encodePoint] at h
  split at h
  · rename_i hUnit
    rw [← Option.some.inj h]
    exact (UInt16.toNat_ofNat_of_lt' hUnit).symm
  · have hLow : ((0xDC00 + (c - 0x10000) % 0x400).toUInt16).toNat =
        0xDC00 + (c - 0x10000) % 0x400 :=
      UInt16.toNat_ofNat_of_lt' (by simp only [UInt16.size]; omega)
    have hUnit : (0xDC00 + (c - 0x10000) % 0x400).toUInt16 = u :=
      Option.some.inj h
    rw [← hUnit, hLow] at hHigh
    omega

/-- The first unit of a code point is low only where the code point is that
unit. -/
theorem head_encodePoint {c : Nat} {u : CodeUnit} (hBound : c < 0x110000)
    (h : (encodePoint c).head? = some u)
    (hLow : 0xDC00 ≤ u.toNat ∧ u.toNat ≤ 0xDFFF) : c = u.toNat := by
  rw [encodePoint] at h
  split at h
  · rename_i hUnit
    rw [← Option.some.inj h]
    exact (UInt16.toNat_ofNat_of_lt' hUnit).symm
  · have hHigh : ((0xD800 + (c - 0x10000) / 0x400).toUInt16).toNat =
        0xD800 + (c - 0x10000) / 0x400 :=
      UInt16.toNat_ofNat_of_lt' (by simp only [UInt16.size]; omega)
    have hUnit : (0xD800 + (c - 0x10000) / 0x400).toUInt16 = u :=
      Option.some.inj h
    rw [← hUnit, hHigh] at hLow
    omega

/-- A code point is its one unit or has surrogates for units. -/
theorem mem_encodePoint {c : Nat} {u : CodeUnit} (hBound : c < 0x110000)
    (h : u ∈ encodePoint c) : u.toNat = c ∨ isSurrogate u.toNat = true := by
  rw [encodePoint] at h
  split at h
  · rename_i hUnit
    rw [List.mem_singleton.mp h]
    exact Or.inl (UInt16.toNat_ofNat_of_lt' hUnit)
  · right
    rw [isSurrogate, Bool.and_eq_true, decide_eq_true_iff, decide_eq_true_iff]
    have hHigh : ((0xD800 + (c - 0x10000) / 0x400).toUInt16).toNat =
        0xD800 + (c - 0x10000) / 0x400 :=
      UInt16.toNat_ofNat_of_lt' (by simp only [UInt16.size]; omega)
    have hLow : ((0xDC00 + (c - 0x10000) % 0x400).toUInt16).toNat =
        0xDC00 + (c - 0x10000) % 0x400 :=
      UInt16.toNat_ofNat_of_lt' (by simp only [UInt16.size]; omega)
    rcases List.mem_cons.mp h with hEq | hRest
    · rw [hEq, hHigh]
      omega
    · rw [List.mem_singleton.mp hRest, hLow]
      omega

theorem encodePoint_ne_nil (c : Nat) : encodePoint c ≠ [] := by
  rw [encodePoint]
  split <;> exact List.cons_ne_nil _ _

theorem head_encodePoints {c : Nat} (points : List Nat) :
    (encodePoints (c :: points)).head? = (encodePoint c).head? := by
  rw [encodePoints_cons, List.head?_append_of_ne_nil _ (encodePoint_ne_nil c)]

/-- Separate code points read back. -/
theorem codePoints_encodePoints {points : List Nat} (h : Separate points) :
    codePoints (encodePoints points) = points := by
  induction points with
  | nil => rfl
  | cons c points ih =>
      have hRest : Separate points :=
        h.of_isInfix (List.suffix_cons c points).isInfix
      have hBound := h.1 c List.mem_cons_self
      have hApart : Apart (encodePoint c) (encodePoints points) := by
        intro u v hu hv hPair
        cases points with
        | nil => cases hv
        | cons d points =>
            rw [head_encodePoints] at hv
            have hc := last_encodePoint hu hPair.1
            have hd := head_encodePoint
              (h.1 d (List.mem_cons_of_mem _ List.mem_cons_self)) hv hPair.2
            rw [← hc, ← hd] at hPair
            exact (List.isChain_cons.mp h.2).1 d rfl hPair
      rw [encodePoints_cons, codePoints_append hApart,
        codePoints_encodePoint hBound, ih hRest]
      rfl

/-- Part of what a string reads as reads back. -/
theorem codePoints_infix {points : List Nat} {s : JsString}
    (h : points <:+: codePoints s) :
    codePoints (encodePoints points) = points :=
  codePoints_encodePoints ((separate_codePoints s).of_isInfix h)

/-! ## Characters of a string, by its units -/

/-- A code point of a string is a unit of it, or two units side by side. -/
theorem mem_codePoints_cases {s : JsString} {c : Nat}
    (h : c ∈ codePoints s) :
    (∃ u ∈ s, c = u.toNat) ∨
      ∃ u v, [u, v] <:+: s ∧ Pairs u.toNat v.toNat ∧
        c = joined u.toNat v.toNat := by
  induction s using codePoints.induct with
  | case1 => cases h
  | case2 u =>
      exact Or.inl ⟨u, List.mem_singleton_self u, List.mem_singleton.mp h⟩
  | case3 u v rest hPair ih =>
      rw [codePoints_pair (pairs_toNat.mp hPair)] at h
      rcases List.mem_cons.mp h with hEq | hRest
      · exact Or.inr ⟨u, v, (List.prefix_append [u, v] rest).isInfix,
          pairs_toNat.mp hPair, hEq⟩
      · have hInfix : rest <:+: u :: v :: rest :=
          (List.suffix_append [u, v] rest).isInfix
        rcases ih hRest with ⟨w, hw, hEq⟩ | ⟨w, x, hMeet, hRead⟩
        · exact Or.inl ⟨w, hInfix.subset hw, hEq⟩
        · exact Or.inr ⟨w, x, hMeet.trans hInfix, hRead⟩
  | case4 u v rest hSingle ih =>
      rw [codePoints_single (mt pairs_toNat.mpr hSingle)] at h
      rcases List.mem_cons.mp h with hEq | hRest
      · exact Or.inl ⟨u, List.mem_cons_self, hEq⟩
      · have hInfix : v :: rest <:+: u :: v :: rest :=
          (List.suffix_cons u (v :: rest)).isInfix
        rcases ih hRest with ⟨w, hw, hEq⟩ | ⟨w, x, hMeet, hRead⟩
        · exact Or.inl ⟨w, hInfix.subset hw, hEq⟩
        · exact Or.inr ⟨w, x, hMeet.trans hInfix, hRead⟩

theorem joined_mem_codePoints {s : JsString} {u v : CodeUnit}
    (hMeet : [u, v] <:+: s) (hPair : Pairs u.toNat v.toNat) :
    joined u.toNat v.toNat ∈ codePoints s := by
  obtain ⟨before, after, hText⟩ := hMeet
  have hApart : Apart before (u :: v :: after) := by
    intro x y _ hy hBefore
    rw [← Option.some.inj hy] at hBefore
    obtain ⟨⟨-, hu⟩, -⟩ := hPair
    obtain ⟨-, hLow, -⟩ := hBefore
    omega
  rw [← hText, List.append_assoc]
  show _ ∈ codePoints (before ++ u :: v :: after)
  rw [codePoints_append hApart, codePoints_pair hPair]
  exact List.mem_append_right _ List.mem_cons_self

/-- Two units side by side that read as one character of a kind. -/
def MeetsIn (p : Nat → Bool) (s : JsString) : Prop :=
  ∃ u v, [u, v] <:+: s ∧ Pairs u.toNat v.toNat ∧
    p (joined u.toNat v.toNat) = true

/-- A string holds a character of a kind if a unit is one or two units side by
side are one. -/
theorem any_codePoints_iff {p : Nat → Bool}
    (hScalar : ∀ c, p c = true → isSurrogate c = false) (s : JsString) :
    (codePoints s).any p = true ↔
      (∃ u ∈ s, p u.toNat = true) ∨ MeetsIn p s := by
  rw [List.any_eq_true]
  constructor
  · rintro ⟨c, hMem, hc⟩
    rcases mem_codePoints_cases hMem with ⟨u, hu, hEq⟩ | hMeet
    · exact Or.inl ⟨u, hu, hEq ▸ hc⟩
    · obtain ⟨u, v, hInfix, hPair, hEq⟩ := hMeet
      exact Or.inr ⟨u, v, hInfix, hPair, by rw [← hEq]; exact hc⟩
  · rintro (⟨u, hu, hp⟩ | ⟨u, v, hInfix, hPair, hp⟩)
    · obtain ⟨before, after, hText⟩ := List.append_of_mem hu
      have hNot := hScalar _ hp
      have hUnit : isHighSurrogate u = false ∧ isLowSurrogate u = false := by
        rw [isSurrogate, Bool.and_eq_false_iff, decide_eq_false_iff_not,
          decide_eq_false_iff_not] at hNot
        rw [Bool.eq_false_iff, Bool.eq_false_iff, Ne, Ne, isHighSurrogate_iff,
          isLowSurrogate_iff]
        omega
      refine ⟨u.toNat, ?_, hp⟩
      rw [hText, codePoints_middle before after hUnit]
      exact List.mem_append_right _ List.mem_cons_self
    · exact ⟨_, joined_mem_codePoints hInfix hPair, hp⟩

/-! ## Trimming -/

/-- `trimEnd` takes white space off the end. -/
theorem trimEnd_split (s : JsString) : ∃ after,
    s = trimEnd s ++ after ∧ ∀ u ∈ after, isTrimmed u = true := by
  refine ⟨(s.reverse.takeWhile isTrimmed).reverse, ?_, fun u hu => ?_⟩
  · rw [trimEnd, ← List.reverse_append, List.takeWhile_append_dropWhile,
      List.reverse_reverse]
  · exact List.all_eq_true.mp List.all_takeWhile u (List.mem_reverse.mp hu)

/-- `trim` takes white space off both ends. -/
theorem trim_split (s : JsString) : ∃ before after,
    s = before ++ (trim s ++ after) ∧ (∀ u ∈ before, isTrimmed u = true) ∧
      ∀ u ∈ after, isTrimmed u = true := by
  obtain ⟨after, hAfter, hTrimmed⟩ := trimEnd_split (s.dropWhile isTrimmed)
  refine ⟨s.takeWhile isTrimmed, after, ?_,
    fun u hu => List.all_eq_true.mp List.all_takeWhile u hu, hTrimmed⟩
  rw [trim, ← hAfter, List.takeWhile_append_dropWhile]

/-- Trimmed text is empty or begins with a visible unit. -/
theorem trim_cases (s : JsString) :
    trim s = [] ∨ ∃ u rest, isTrimmed u = false ∧ trim s = u :: rest := by
  rw [trim]
  cases hText : s.dropWhile isTrimmed with
  | nil => exact Or.inl rfl
  | cons u rest =>
      have hVisible : isTrimmed u = false := by
        have hHead := List.head?_dropWhile_not isTrimmed s
        rw [hText, List.head?_cons] at hHead
        exact hHead
      exact Or.inr ⟨u, trimEnd rest, hVisible,
        trimEnd_append_cons hVisible [] rest⟩

theorem apart_of_trimmed_after {a b : JsString}
    (h : ∀ u ∈ b, isTrimmed u = true) : Apart a b :=
  apart_of_head fun u hu =>
    (surrogate_of_isTrimmed (h u (List.mem_of_head? hu))).2

theorem apart_of_trimmed_before {a b : JsString}
    (h : ∀ u ∈ a, isTrimmed u = true) : Apart a b :=
  apart_of_last fun u hu =>
    (surrogate_of_isTrimmed (h u (List.mem_of_getLast? hu))).1

theorem codePoints_trimEnd (s : JsString) :
    codePoints (trimEnd s) <+: codePoints s := by
  obtain ⟨after, hText, hAfter⟩ := trimEnd_split s
  refine ⟨codePoints after, ?_⟩
  rw [← codePoints_append (apart_of_trimmed_after hAfter), ← hText]

theorem codePoints_trim (s : JsString) :
    codePoints (trim s) <:+: codePoints s := by
  obtain ⟨before, after, hText, hBefore, hAfter⟩ := trim_split s
  refine ⟨codePoints before, codePoints after, ?_⟩
  rw [List.append_assoc, ← codePoints_append (apart_of_trimmed_after hAfter),
    ← codePoints_append (apart_of_trimmed_before hBefore), ← hText]

end OpenApe.Verified.CodePoints
