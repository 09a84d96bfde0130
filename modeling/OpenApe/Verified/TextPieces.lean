import Mathlib.Data.List.Infix
import Mathlib.Data.List.Basic

/-!
# The pieces of a text between the occurrences of a word

A global replacement walks over a text once and takes the occurrences of a
word that it meets, none of which overlap.  `pieces` is what stands between
them: joined by the word they are the text (`join_pieces`), and no piece holds
the word itself (`not_infix_of_mem_pieces`).

`Leftmost` says what it is to take the occurrences from the left, without a
walk.  Where no two occurrences overlap, every occurrence is taken.
-/

namespace OpenApe.Verified.TextPieces

variable {α : Type} [DecidableEq α]

/-- The pieces from here on: `current` is read of the first one, and `skip`
units belong to the last occurrence. -/
def piecesFrom (word current : List α) (skip : Nat) :
    List α → List (List α)
  | [] => [current]
  | u :: rest =>
      match skip with
      | n + 1 => piecesFrom word current n rest
      | 0 =>
          if word.isPrefixOf (u :: rest) then
            current :: piecesFrom word [] (word.length - 1) rest
          else piecesFrom word (current ++ [u]) 0 rest

/-- What stands between the occurrences of the word, from left to right. -/
def pieces (word text : List α) : List (List α) := piecesFrom word [] 0 text

/-- The pieces joined, each occurrence by what `fill` makes of the text before
and after it. -/
def fillPieces (word : List α) (fill : List α → List α → List α)
    (before : List α) : List (List α) → List α
  | [] => []
  | [piece] => piece
  | piece :: next :: rest =>
      piece ++ fill (before ++ piece) (List.intercalate word (next :: rest)) ++
        fillPieces word fill (before ++ piece ++ word) (next :: rest)

theorem piecesFrom_skip (word current : List α) (skip : Nat)
    (text : List α) :
    piecesFrom word current skip text =
      piecesFrom word current 0 (text.drop skip) := by
  induction skip generalizing text with
  | zero => rw [List.drop_zero]
  | succ skip ih =>
      cases text with
      | nil => rfl
      | cons u rest => rw [piecesFrom, ih, List.drop_succ_cons]

theorem piecesFrom_ne_nil (word current : List α) (text : List α) :
    piecesFrom word current 0 text ≠ [] := by
  induction text generalizing current with
  | nil => exact List.cons_ne_nil _ _
  | cons u rest ih =>
      rw [piecesFrom]
      split
      · exact List.cons_ne_nil _ _
      · exact ih _

/-- Behind an occurrence a new piece starts. -/
theorem piecesFrom_occurrence {word : List α} (hWord : word ≠ [])
    (current rest : List α) :
    piecesFrom word current 0 (word ++ rest) =
      current :: piecesFrom word [] 0 rest := by
  obtain ⟨u, more, rfl⟩ := List.exists_cons_of_ne_nil hWord
  have hPrefix : (u :: more).isPrefixOf (u :: (more ++ rest)) = true :=
    List.isPrefixOf_iff_prefix.mpr (List.prefix_append (u :: more) rest)
  rw [List.cons_append, piecesFrom, if_pos hPrefix, piecesFrom_skip,
    List.length_cons, Nat.add_sub_cancel, List.drop_left]

/-- A text either starts with the word or its first unit is passed over. -/
theorem join_piecesFrom {word : List α} (hWord : word ≠ []) (n : Nat)
    (current text : List α) (hLength : text.length ≤ n) :
    List.intercalate word (piecesFrom word current 0 text) =
      current ++ text := by
  induction n generalizing current text with
  | zero =>
      rw [List.eq_nil_of_length_eq_zero (Nat.le_zero.mp hLength),
        List.append_nil]
      exact List.intercalate_singleton
  | succ n ih =>
      cases text with
      | nil =>
          rw [List.append_nil]
          exact List.intercalate_singleton
      | cons u rest =>
          by_cases hHere : word.isPrefixOf (u :: rest) = true
          · obtain ⟨after, hAfter⟩ := List.isPrefixOf_iff_prefix.mp hHere
            have hShorter : after.length ≤ n := by
              have hCount := congrArg List.length hAfter
              have hPositive := List.length_pos_iff.mpr hWord
              rw [List.length_append, List.length_cons] at hCount
              rw [List.length_cons] at hLength
              omega
            have hRest := ih [] after hShorter
            rw [← hAfter, piecesFrom_occurrence hWord]
            cases hPieces : piecesFrom word [] 0 after with
            | nil => exact absurd hPieces (piecesFrom_ne_nil _ _ _)
            | cons next more =>
                rw [hPieces, List.nil_append] at hRest
                rw [List.intercalate_cons_cons, hRest, List.append_assoc]
          · rw [piecesFrom, if_neg hHere, ih _ _ (Nat.le_of_succ_le_succ hLength),
              List.append_assoc, List.singleton_append]

/-- The pieces joined by the word are the text. -/
theorem join_pieces {word : List α} (hWord : word ≠ []) (text : List α) :
    List.intercalate word (pieces word text) = text :=
  join_piecesFrom hWord text.length [] text (le_refl _)

omit [DecidableEq α] in
theorem passed_nil (word text : List α) (i : Nat)
    (hi : i < ([] : List α).length) :
    ¬word <+: ([] : List α).drop i ++ text :=
  absurd hi (Nat.not_lt_zero i)

omit [DecidableEq α] in
/-- Where the word starts nowhere in what was passed over, it is not part of
it. -/
theorem not_infix_of_passed {word current text : List α} (hWord : word ≠ [])
    (h : ∀ i, i < current.length → ¬word <+: current.drop i ++ text) :
    ¬word <:+: current := by
  intro hInfix
  obtain ⟨before, after, rfl⟩ := hInfix
  have hPositive := List.length_pos_iff.mpr hWord
  refine h before.length ?_ ?_
  · rw [List.length_append, List.length_append]
    omega
  · rw [List.append_assoc, List.drop_left, List.append_assoc]
    exact List.prefix_append _ _

theorem not_infix_of_mem_piecesFrom {word : List α} (hWord : word ≠ [])
    (n : Nat) {current text piece : List α} (hLength : text.length ≤ n)
    (h : ∀ i, i < current.length → ¬word <+: current.drop i ++ text)
    (hMem : piece ∈ piecesFrom word current 0 text) : ¬word <:+: piece := by
  induction n generalizing current text with
  | zero =>
      have hEmpty := List.eq_nil_of_length_eq_zero (Nat.le_zero.mp hLength)
      rw [hEmpty] at hMem
      rw [List.mem_singleton.mp hMem]
      exact not_infix_of_passed hWord h
  | succ n ih =>
      cases text with
      | nil =>
          rw [List.mem_singleton.mp hMem]
          exact not_infix_of_passed hWord h
      | cons u rest =>
          by_cases hHere : word.isPrefixOf (u :: rest) = true
          · obtain ⟨after, hAfter⟩ := List.isPrefixOf_iff_prefix.mp hHere
            rw [← hAfter, piecesFrom_occurrence hWord] at hMem
            cases List.mem_cons.mp hMem with
            | inl hFirst =>
                rw [hFirst]
                exact not_infix_of_passed hWord h
            | inr hRest =>
                have hCount := congrArg List.length hAfter
                have hPositive := List.length_pos_iff.mpr hWord
                rw [List.length_append, List.length_cons] at hCount
                rw [List.length_cons] at hLength
                exact ih (by omega) (passed_nil word after) hRest
          · rw [piecesFrom, if_neg hHere] at hMem
            refine ih (Nat.le_of_succ_le_succ hLength) (fun i hi => ?_) hMem
            rw [List.length_append, List.length_singleton] at hi
            by_cases hLast : i < current.length
            · rw [List.drop_append_of_le_length hLast.le, List.append_assoc]
              exact h i hLast
            · have hEnd : i = current.length := by omega
              rw [hEnd, List.drop_left, List.singleton_append]
              exact fun hPrefix =>
                hHere (List.isPrefixOf_iff_prefix.mpr hPrefix)

/-- No piece holds the word. -/
theorem not_infix_of_mem_pieces {word text piece : List α} (hWord : word ≠ [])
    (h : piece ∈ pieces word text) : ¬word <:+: piece :=
  not_infix_of_mem_piecesFrom hWord text.length (le_refl _)
    (passed_nil word text) h

omit [DecidableEq α] in
/-- Filling every occurrence with the same text joins the pieces by it. -/
theorem fillPieces_const {word value : List α}
    {fill : List α → List α → List α}
    (h : ∀ before after, fill before after = value) (before : List α)
    (parts : List (List α)) :
    fillPieces word fill before parts = List.intercalate value parts := by
  induction parts generalizing before with
  | nil => rfl
  | cons piece parts ih =>
      cases parts with
      | nil => exact List.intercalate_singleton.symm
      | cons next rest =>
          rw [fillPieces, h, ih, List.intercalate_cons_cons]

/-! ## Occurrences -/

/-- The word stands in the text at this position. -/
def OccursAt (word text : List α) (i : Nat) : Prop := word <+: text.drop i

/-- Two occurrences that share a unit. -/
def Overlaps (word text : List α) : Prop :=
  ∃ i j, i < j ∧ j < i + word.length ∧ OccursAt word text i ∧
    OccursAt word text j

/-- The pieces between occurrences, each of which is the first one in the rest
of the text. -/
inductive Leftmost (word : List α) : List α → List (List α) → Prop
  | last {text : List α} (h : ∀ i, ¬OccursAt word text i) :
      Leftmost word text [text]
  | first {gap rest : List α} {gaps : List (List α)}
      (h : ∀ i, i < gap.length → ¬OccursAt word (gap ++ word ++ rest) i)
      (hRest : Leftmost word rest gaps) :
      Leftmost word (gap ++ word ++ rest) (gap :: gaps)

omit [DecidableEq α] in
theorem occursAt_le {word text : List α} {i : Nat} (h : OccursAt word text i) :
    word.length ≤ text.length - i := by
  have hLength := h.length_le
  rwa [List.length_drop] at hLength

omit [DecidableEq α] in
theorem occursAt_append_right {word front text : List α} {i : Nat} :
    OccursAt word (front ++ text) (front.length + i) ↔
      OccursAt word text i := by
  rw [OccursAt, OccursAt, List.drop_append, List.drop_eq_nil_of_le (by omega),
    List.nil_append, Nat.add_sub_cancel_left]

omit [DecidableEq α] in
theorem infix_of_occursAt {word text : List α} {i : Nat}
    (h : OccursAt word text i) : word <:+: text :=
  h.isInfix.trans (List.drop_suffix i text).isInfix

theorem leftmost_piecesFrom {word : List α} (hWord : word ≠ []) (n : Nat)
    {current text : List α} (hLength : text.length ≤ n)
    (h : ∀ i, i < current.length → ¬OccursAt word (current ++ text) i) :
    Leftmost word (current ++ text) (piecesFrom word current 0 text) := by
  have hPositive := List.length_pos_iff.mpr hWord
  induction n generalizing current text with
  | zero =>
      have hEmpty := List.eq_nil_of_length_eq_zero (Nat.le_zero.mp hLength)
      subst hEmpty
      rw [List.append_nil] at h ⊢
      refine Leftmost.last fun i hOccurs => ?_
      have hBound := occursAt_le hOccurs
      exact h i (by omega) hOccurs
  | succ n ih =>
      cases text with
      | nil =>
          rw [List.append_nil] at h ⊢
          refine Leftmost.last fun i hOccurs => ?_
          have hBound := occursAt_le hOccurs
          exact h i (by omega) hOccurs
      | cons u rest =>
          by_cases hHere : word.isPrefixOf (u :: rest) = true
          · obtain ⟨after, hAfter⟩ := List.isPrefixOf_iff_prefix.mp hHere
            have hShorter : after.length ≤ n := by
              have hCount := congrArg List.length hAfter
              rw [List.length_append, List.length_cons] at hCount
              rw [List.length_cons] at hLength
              omega
            rw [← hAfter] at h ⊢
            rw [piecesFrom_occurrence hWord, ← List.append_assoc]
            refine Leftmost.first (fun i hi => ?_) ?_
            · rw [List.append_assoc]
              exact h i hi
            · show Leftmost word ([] ++ after) _
              exact ih hShorter fun i hi => absurd hi (Nat.not_lt_zero i)
          · have hText : current ++ u :: rest = (current ++ [u]) ++ rest := by
              rw [List.append_assoc, List.singleton_append]
            rw [piecesFrom, if_neg hHere, hText]
            refine ih (Nat.le_of_succ_le_succ hLength) fun i hi hOccurs => ?_
            rw [← hText] at hOccurs
            rw [List.length_append, List.length_singleton] at hi
            by_cases hLast : i < current.length
            · exact h i hLast hOccurs
            · have hEnd : i = current.length + 0 := by omega
              rw [hEnd, occursAt_append_right] at hOccurs
              exact hHere (List.isPrefixOf_iff_prefix.mpr hOccurs)

/-- The pieces are those between the leftmost occurrences. -/
theorem leftmost_pieces {word : List α} (hWord : word ≠ []) (text : List α) :
    Leftmost word text (pieces word text) := by
  show Leftmost word ([] ++ text) _
  exact leftmost_piecesFrom hWord text.length (le_refl _)
    fun i hi => absurd hi (Nat.not_lt_zero i)

/-- Where nothing overlaps, two pieces mean that there is one occurrence. -/
theorem occursAt_single {word text front back : List α} (hWord : word ≠ [])
    (hPieces : pieces word text = [front, back])
    (hApart : ¬Overlaps word text) (i : Nat) :
    OccursAt word text i ↔ i = front.length := by
  have hText : front ++ (word ++ back) = text := by
    have hJoin := join_pieces hWord text
    rwa [hPieces, List.intercalate_cons_cons, List.intercalate_singleton,
      List.append_assoc] at hJoin
  have hHere : OccursAt word text front.length := by
    rw [← hText]
    have hStart : OccursAt word (word ++ back) 0 := List.prefix_append _ _
    exact occursAt_append_right.mpr hStart
  have hFree : ∀ piece ∈ [front, back], ¬word <:+: piece := by
    intro piece hMem
    exact not_infix_of_mem_pieces hWord (hPieces ▸ hMem)
  have hPositive := List.length_pos_iff.mpr hWord
  refine ⟨fun hOccurs => ?_, fun hSame => hSame ▸ hHere⟩
  rcases Nat.lt_trichotomy i front.length with hBefore | hSame | hBehind
  · by_cases hMeets : front.length < i + word.length
    · exact absurd ⟨i, front.length, hBefore, hMeets, hOccurs, hHere⟩ hApart
    · -- the whole occurrence stands in the first piece
      have hFront : word <+: front.drop i := by
        rw [← hText, OccursAt, List.drop_append_of_le_length hBefore.le]
          at hOccurs
        refine List.prefix_of_prefix_length_le hOccurs
          (List.prefix_append _ _) ?_
        rw [List.length_drop]
        omega
      exact absurd (infix_of_occursAt hFront) (hFree front List.mem_cons_self)
  · exact hSame
  · by_cases hMeets : i < front.length + word.length
    · exact absurd ⟨front.length, i, hBehind, hMeets, hHere, hOccurs⟩ hApart
    · obtain ⟨k, rfl⟩ := Nat.exists_eq_add_of_le (Nat.not_lt.mp hMeets)
      rw [← hText, Nat.add_assoc, occursAt_append_right,
        occursAt_append_right] at hOccurs
      exact absurd (infix_of_occursAt hOccurs)
        (hFree back (List.mem_cons_of_mem _ List.mem_cons_self))

end OpenApe.Verified.TextPieces
