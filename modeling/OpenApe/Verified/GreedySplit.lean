import Mathlib.Data.List.Basic

/-!
# A text split at the last separator

The expression `(.+)word(.+)` is greedy: its first group reads up to the last
place where the word stands with something before and behind it.
-/

namespace OpenApe.Verified.GreedySplit

variable {α : Type*} [DecidableEq α]

/-- The two groups, none where the word does not stand inside the text. -/
def greedySplit (word : List α) : List α → Option (List α × List α)
  | [] => none
  | a :: s =>
      match greedySplit word s with
      | some (x, y) => some (a :: x, y)
      | none =>
          if word <+: s ∧ s.drop word.length ≠ [] then
            some ([a], s.drop word.length)
          else none

/-- The word stands between two parts that are not empty. -/
def SplitsAt (word s x y : List α) : Prop :=
  s = x ++ (word ++ y) ∧ x ≠ [] ∧ y ≠ []

omit [DecidableEq α] in
theorem splitsAt_cons {word s x y : List α} {a : α} :
    SplitsAt word (a :: s) x y ↔
      (x = [a] ∧ s = word ++ y ∧ y ≠ []) ∨
        ∃ x', x = a :: x' ∧ SplitsAt word s x' y := by
  constructor
  · rintro ⟨hText, hx, hy⟩
    cases x with
    | nil => exact absurd rfl hx
    | cons b x =>
        rw [List.cons_append, List.cons.injEq] at hText
        obtain ⟨rfl, hText⟩ := hText
        by_cases hNil : x = []
        · rw [hNil, List.nil_append] at hText
          exact Or.inl ⟨by rw [hNil], hText, hy⟩
        · exact Or.inr ⟨x, rfl, hText, hNil, hy⟩
  · rintro (⟨rfl, rfl, hy⟩ | ⟨x', rfl, rfl, -, hy⟩)
    · exact ⟨rfl, List.cons_ne_nil _ _, hy⟩
    · exact ⟨rfl, List.cons_ne_nil _ _, hy⟩

theorem greedySplit_eq_none {word s : List α} :
    greedySplit word s = none ↔ ∀ x y, ¬SplitsAt word s x y := by
  induction s with
  | nil =>
      refine iff_of_true rfl fun x y h => ?_
      exact h.2.1 (List.append_eq_nil_iff.mp h.1.symm).1
  | cons a s ih =>
      simp only [splitsAt_cons]
      rw [greedySplit]
      cases hRest : greedySplit word s with
      | some pair =>
          rw [hRest] at ih
          refine iff_of_false (Option.some_ne_none _) fun hNone => ?_
          have hMissing : greedySplit word s = none := by
            rw [hRest]
            exact ih.mpr fun x y h => hNone (a :: x) y (Or.inr ⟨x, rfl, h⟩)
          rw [hRest] at hMissing
          cases hMissing
      | none =>
          have hNone := ih.mp hRest
          show (if _ then _ else _) = none ↔ _
          split
          · rename_i hHere
            refine iff_of_false (Option.some_ne_none _) fun hFree => ?_
            obtain ⟨⟨y, hy⟩, hSome⟩ := hHere
            have hDrop : s.drop word.length = y := by
              rw [← hy, List.drop_left]
            rw [hDrop] at hSome
            exact hFree [a] y (Or.inl ⟨rfl, hy.symm, hSome⟩)
          · rename_i hHere
            refine iff_of_true rfl fun x y hSplit => ?_
            rcases hSplit with ⟨-, hText, hy⟩ | ⟨x', -, hLater⟩
            · refine hHere ⟨⟨y, hText.symm⟩, ?_⟩
              rw [hText, List.drop_left]
              exact hy
            · exact hNone x' y hLater

/-- What is found is the last place. -/
theorem last_of_greedySplit {word s x y : List α}
    (h : greedySplit word s = some (x, y)) :
    SplitsAt word s x y ∧
      ∀ x' y', SplitsAt word s x' y' → x'.length ≤ x.length := by
  induction s generalizing x with
  | nil => cases h
  | cons a s ih =>
      rw [greedySplit] at h
      cases hRest : greedySplit word s with
      | some pair =>
          obtain ⟨front, back⟩ := pair
          rw [hRest] at h
          cases h
          obtain ⟨hSplit, hLast⟩ := ih hRest
          refine ⟨splitsAt_cons.mpr (Or.inr ⟨front, rfl, hSplit⟩), ?_⟩
          intro x' y' hOther
          rcases splitsAt_cons.mp hOther with ⟨rfl, -, -⟩ | ⟨x', rfl, hLater⟩
          · show 1 ≤ front.length + 1
            omega
          · exact Nat.succ_le_succ (hLast x' y' hLater)
      | none =>
          rw [hRest] at h
          have hNone := greedySplit_eq_none.mp hRest
          by_cases hHere : word <+: s ∧ s.drop word.length ≠ []
          · rw [if_pos hHere] at h
            cases h
            obtain ⟨⟨y, hy⟩, hSome⟩ := hHere
            have hDrop : s.drop word.length = y := by
              rw [← hy, List.drop_left]
            rw [hDrop] at hSome ⊢
            refine ⟨splitsAt_cons.mpr (Or.inl ⟨rfl, hy.symm, hSome⟩), ?_⟩
            intro x' y' hOther
            rcases splitsAt_cons.mp hOther with ⟨rfl, -, -⟩ | ⟨x', rfl, hLater⟩
            · exact Nat.le_refl 1
            · exact absurd hLater (hNone x' y')
          · rw [if_neg hHere] at h
            cases h

/-- The split is at the last place of the word. -/
theorem greedySplit_eq_some {word s x y : List α} :
    greedySplit word s = some (x, y) ↔ SplitsAt word s x y ∧
      ∀ x' y', SplitsAt word s x' y' → x'.length ≤ x.length := by
  refine ⟨last_of_greedySplit, fun ⟨hSplit, hLast⟩ => ?_⟩
  cases hFound : greedySplit word s with
  | none => exact absurd hSplit (greedySplit_eq_none.mp hFound x y)
  | some pair =>
      obtain ⟨front, back⟩ := pair
      obtain ⟨hOther, hOtherLast⟩ := last_of_greedySplit hFound
      have hLength : front.length = x.length :=
        Nat.le_antisymm (hLast front back hOther) (hOtherLast x y hSplit)
      obtain ⟨rfl, hBack⟩ :=
        List.append_inj (hOther.1.symm.trans hSplit.1) hLength
      rw [List.append_cancel_left hBack]

end OpenApe.Verified.GreedySplit
