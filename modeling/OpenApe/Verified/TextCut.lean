import OpenApe.Verified.CodePoints

/-!
# Text cut at a number of units

A cut by code units falls between two characters or inside a surrogate pair
(`take_encodePoints`); which of the two shows in the last unit
(`isHighSurrogate_last`).  Runs of units or characters of one kind can be
replaced by a single one (`replaceRuns`).
-/

namespace OpenApe.Verified.TextCut

open JsText Unicode CodePoints

/-! ## Runs -/

section Runs

variable {α : Type*}

/-- `text.replace(/[…]+/g, d)`: every run of matching symbols becomes `d`; the
flag says that a run has started. -/
def replaceRuns (p : α → Bool) (d : α) : Bool → List α → List α
  | _, [] => []
  | inRun, a :: s =>
      if p a then
        if inRun then replaceRuns p d true s else d :: replaceRuns p d true s
      else a :: replaceRuns p d false s

theorem mem_replaceRuns {p : α → Bool} {d a : α} {inRun : Bool} {s : List α}
    (h : a ∈ replaceRuns p d inRun s) : a = d ∨ (a ∈ s ∧ p a = false) := by
  induction s generalizing inRun with
  | nil => cases h
  | cons b s ih =>
      have hRest : ∀ {run : Bool}, a ∈ replaceRuns p d run s →
          a = d ∨ (a ∈ b :: s ∧ p a = false) := fun hMem =>
        (ih hMem).imp_right (And.imp_left (List.mem_cons_of_mem b))
      rw [replaceRuns] at h
      split at h
      · split at h
        · exact hRest h
        · rcases List.mem_cons.mp h with hEq | hMem
          · exact Or.inl hEq
          · exact hRest hMem
      · rename_i hb
        rcases List.mem_cons.mp h with rfl | hMem
        · exact Or.inr ⟨List.mem_cons_self, Bool.eq_false_iff.mpr hb⟩
        · exact hRest hMem

/-- Without a matching symbol nothing is replaced. -/
theorem replaceRuns_eq_self {p : α → Bool} {d : α} {s : List α}
    (h : ∀ a ∈ s, p a = false) (inRun : Bool) :
    replaceRuns p d inRun s = s := by
  induction s generalizing inRun with
  | nil => rfl
  | cons a s ih =>
      have ha : ¬p a = true := Bool.eq_false_iff.mp (h a List.mem_cons_self)
      rw [replaceRuns, if_neg ha,
        ih fun b hb => h b (List.mem_cons_of_mem a hb)]

end Runs

/-! ## Characters without surrogates -/

/-- Every member can be spelled and is no surrogate. -/
def Scalars (points : List Nat) : Prop :=
  ∀ c ∈ points, c < 0x110000 ∧ isSurrogate c = false

theorem Scalars.read {points : List Nat} (h : Scalars points) :
    codePoints (encodePoints points) = points :=
  codePoints_encodePoints (Separate.of_scalars h)

theorem Scalars.take {points : List Nat} (h : Scalars points) (k : Nat) :
    Scalars (points.take k) := fun c hc => h c (List.mem_of_mem_take hc)

theorem encodePoint_small {c : Nat} (h : c < 0x10000) :
    encodePoint c = [c.toUInt16] := if_pos h

/-- The first unit of a pair. -/
theorem encodePoint_large {c : Nat} (h : ¬c < 0x10000) (hBound : c < 0x110000) :
    ∃ u v, encodePoint c = [u, v] ∧ isHighSurrogate u = true := by
  refine ⟨_, _, if_neg h, isHighSurrogate_iff.mpr ?_⟩
  have hUnit : 0xD800 + (c - 0x10000) / 0x400 < UInt16.size := by
    show _ < 65536
    omega
  rw [UInt16.toNat_ofNat_of_lt' hUnit]
  omega

/-- A cut leaves whole characters, or half a pair behind them. -/
theorem take_encodePoints {points : List Nat} (h : Scalars points) (n : Nat) :
    ∃ k, (encodePoints points).take n = encodePoints (points.take k) ∨
      ∃ u, isHighSurrogate u = true ∧
        (encodePoints points).take n = encodePoints (points.take k) ++ [u] := by
  induction points generalizing n with
  | nil => exact ⟨0, Or.inl List.take_nil⟩
  | cons c points ih =>
      have hRest : Scalars points := fun d hd => h d (List.mem_cons_of_mem c hd)
      have hMore : ∀ m, ∃ k,
          encodePoint c ++ (encodePoints points).take m =
            encodePoints ((c :: points).take (k + 1)) ∨
          ∃ u, isHighSurrogate u = true ∧
            encodePoint c ++ (encodePoints points).take m =
              encodePoints ((c :: points).take (k + 1)) ++ [u] := by
        intro m
        obtain ⟨k, hWhole | ⟨u, hu, hHalf⟩⟩ := ih hRest m
        · exact ⟨k, Or.inl (by rw [hWhole]; rfl)⟩
        · refine ⟨k, Or.inr ⟨u, hu, ?_⟩⟩
          rw [hHalf, List.take_succ_cons, encodePoints_cons, List.append_assoc]
      by_cases hSmall : c < 0x10000
      · have hUnit := encodePoint_small hSmall
        cases n with
        | zero => exact ⟨0, Or.inl rfl⟩
        | succ n =>
            obtain ⟨k, hk⟩ := hMore n
            rw [hUnit] at hk
            rw [encodePoints_cons, hUnit]
            exact ⟨k + 1, hk⟩
      · obtain ⟨u, v, hPair, hu⟩ :=
          encodePoint_large hSmall (h c List.mem_cons_self).1
        match n with
        | 0 => exact ⟨0, Or.inl rfl⟩
        | 1 =>
            rw [encodePoints_cons, hPair]
            exact ⟨0, Or.inr ⟨u, hu, rfl⟩⟩
        | n + 2 =>
            obtain ⟨k, hk⟩ := hMore n
            rw [hPair] at hk
            rw [encodePoints_cons, hPair]
            exact ⟨k + 1, hk⟩

/-- Whole characters do not end with half a pair. -/
theorem isHighSurrogate_last {points : List Nat} (h : Scalars points)
    {u : CodeUnit} (hLast : (encodePoints points).getLast? = some u) :
    isHighSurrogate u = false := by
  cases points using List.reverseRecOn with
  | nil => cases hLast
  | append_singleton points c =>
      rw [encodePoints_append, encodePoints_cons, encodePoints_nil,
        List.append_nil,
        List.getLast?_append_of_ne_nil _ (encodePoint_ne_nil c)] at hLast
      rw [← Bool.not_eq_true]
      intro hHigh
      have hRange := isHighSurrogate_iff.mp hHigh
      have hPoint := last_encodePoint hLast hRange
      have hScalar := (h c (by simp)).2
      rw [isSurrogate, Bool.and_eq_false_iff, decide_eq_false_iff_not,
        decide_eq_false_iff_not] at hScalar
      omega

/-! ## Single units -/

theorem isSurrogate_of_isHighSurrogate {u : CodeUnit}
    (h : isHighSurrogate u = true) : isSurrogate u.toNat = true := by
  have hRange := isHighSurrogate_iff.mp h
  rw [isSurrogate, Bool.and_eq_true, decide_eq_true_iff, decide_eq_true_iff]
  omega

/-- Half a pair at the end is a character of its own. -/
theorem codePoints_half {text : JsString} {u : CodeUnit}
    (hu : isHighSurrogate u = true) :
    codePoints (text ++ [u]) = codePoints text ++ [u.toNat] := by
  have hApart : Apart text [u] := by
    refine apart_of_head fun v hv => ?_
    rw [← Option.some.inj hv, ← Bool.not_eq_true]
    intro hLow
    have hHigh := isHighSurrogate_iff.mp hu
    have hRange := isLowSurrogate_iff.mp hLow
    omega
  exact codePoints_append hApart

/-- A unit that belongs to no pair is a character. -/
theorem mem_codePoints_of_mem {s : JsString} {u : CodeUnit} (hMem : u ∈ s)
    (hUnit : isHighSurrogate u = false ∧ isLowSurrogate u = false) :
    u.toNat ∈ codePoints s := by
  obtain ⟨before, after, rfl⟩ := List.append_of_mem hMem
  rw [codePoints_middle before after hUnit]
  exact List.mem_append_right _ List.mem_cons_self

/-- A character below the surrogates is one unit. -/
theorem mem_of_mem_codePoints {s : JsString} {u : CodeUnit}
    (h : u.toNat ∈ codePoints s) : u ∈ s := by
  rcases mem_codePoints_cases h with ⟨v, hv, hSame⟩ | ⟨v, w, -, hPair, hSame⟩
  · rwa [UInt16.toNat_inj.mp hSame]
  · have hLarge := (joined_bounds hPair).1
    have hSmall : u.toNat < 0x10000 := u.toNat_lt
    omega

end OpenApe.Verified.TextCut
