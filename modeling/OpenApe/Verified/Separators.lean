import Mathlib.Data.List.TakeWhile

/-!
# Texts around a separator

A text that is split at one symbol, or joined by it: where the first separator
stands, and what the pieces before and after it are.
-/

namespace OpenApe.Verified.Separators

variable {α : Type} [DecidableEq α]

/-- The first piece, and the pieces after the first separator. -/
theorem splitOn_eq (c : α) (text : List α) :
    text.splitOn c = text.takeWhile (· != c) ::
      match text.dropWhile (· != c) with
      | [] => []
      | _ :: rest => rest.splitOn c := by
  induction text with
  | nil => rfl
  | cons u text ih =>
      rw [List.splitOn, List.splitOnP_cons_eq_if_modifyHead]
      by_cases hEq : u = c
      · simp [hEq, List.splitOn]
      · have hNe : (u == c) = false := by simpa using hEq
        rw [List.splitOn] at ih
        simp [hNe, hEq, ih]

/-- No piece holds the separator. -/
theorem not_mem_of_mem_splitOn {c : α} {text part : List α}
    (h : part ∈ text.splitOn c) : c ∉ part := by
  induction text generalizing part with
  | nil =>
      rw [List.splitOn_nil, List.mem_singleton] at h
      rw [h]
      exact List.not_mem_nil
  | cons u text ih =>
      rw [List.splitOn_cons_eq_if_modifyHead] at h
      split_ifs at h with hUnit
      · rcases List.mem_cons.mp h with rfl | hRest
        · exact List.not_mem_nil
        · exact ih hRest
      · cases hParts : text.splitOn c with
        | nil => exact absurd hParts (List.splitOn_ne_nil c text)
        | cons first parts =>
            rw [hParts, List.modifyHead_cons, List.mem_cons] at h
            rcases h with rfl | hRest
            · rw [List.mem_cons, not_or]
              have hFirst : first ∈ text.splitOn c := by
                rw [hParts]
                exact List.mem_cons_self
              refine ⟨fun hEq => hUnit ?_, ih hFirst⟩
              rw [hEq]
              exact BEq.rfl
            · apply ih
              rw [hParts]
              exact List.mem_cons_of_mem first hRest

/-- Nothing is cut off a text without the separator. -/
theorem takeWhile_eq_self {c : α} {text : List α} :
    text.takeWhile (· != c) = text ↔ c ∉ text := by
  rw [List.takeWhile_eq_self_iff]
  simp only [bne_iff_ne, ne_eq]
  exact ⟨fun h hMem => h c hMem rfl, fun h u hu hSame => h (hSame ▸ hu)⟩

/-- A text falls apart at its first separator. -/
theorem append_at_separator {c : α} {text : List α} (h : c ∈ text) :
    text.takeWhile (· != c) ++ c :: (text.dropWhile (· != c)).drop 1 =
      text := by
  induction text with
  | nil => cases h
  | cons u text ih =>
      by_cases hEq : u = c
      · simp [hEq]
      · have hMem : c ∈ text := by
          rcases List.mem_cons.mp h with hSame | hRest
          · exact absurd hSame.symm hEq
          · exact hRest
        have hTake : (u :: text).takeWhile (· != c) =
            u :: text.takeWhile (· != c) :=
          List.takeWhile_cons_of_pos (by simpa using hEq)
        have hDrop : (u :: text).dropWhile (· != c) =
            text.dropWhile (· != c) :=
          List.dropWhile_cons_of_pos (by simpa using hEq)
        rw [hTake, hDrop, List.cons_append, ih hMem]

omit [DecidableEq α] in
/-- Joining two lists of pieces joins the joined texts. -/
theorem intercalate_append {c : α} {front back : List (List α)}
    (hFront : front ≠ []) (hBack : back ≠ []) :
    [c].intercalate (front ++ back) =
      [c].intercalate front ++ c :: [c].intercalate back := by
  induction front with
  | nil => exact absurd rfl hFront
  | cons part front ih =>
      cases front with
      | nil =>
          rw [List.singleton_append, List.intercalate_cons_of_ne_nil hBack,
            List.intercalate_singleton]
          simp
      | cons next front =>
          rw [List.cons_append, List.cons_append, List.intercalate_cons_cons,
            List.intercalate_cons_cons, ← List.cons_append,
            ih (List.cons_ne_nil _ _)]
          simp

/-- Closed lines fall apart again, with nothing behind the last one. -/
theorem splitOn_flatMap {c : α} {lines : List (List α)}
    (h : ∀ line ∈ lines, c ∉ line) :
    (lines.flatMap (· ++ [c])).splitOn c = lines ++ [[]] := by
  induction lines with
  | nil => rfl
  | cons line lines ih =>
      obtain ⟨hFirst, hRest⟩ := List.forall_mem_cons.mp h
      have hUnits : ∀ u ∈ line, (u != c) = true := fun u hu =>
        bne_iff_ne.mpr fun hSame => hFirst (hSame ▸ hu)
      rw [List.flatMap_cons, List.append_assoc, splitOn_eq,
        List.takeWhile_append_of_pos hUnits,
        List.dropWhile_append_of_pos hUnits]
      simp [ih hRest]

end OpenApe.Verified.Separators
