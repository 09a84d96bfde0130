import Mathlib.Data.List.Basic

/-!
# Frames

Items written one after the other, each behind a label that tells its length.
Labels of one width that tell lengths apart make the items readable again, so
no two lists of items give the same text (`framed_injective`).
-/

namespace OpenApe.Verified.Frames

variable {β : Type}

/-- The items, each behind the label of its length. -/
def framed (label : Nat → List β) (items : List (List β)) : List β :=
  items.flatMap fun item => label item.length ++ item

theorem framed_cons (label : Nat → List β) (item : List β)
    (items : List (List β)) :
    framed label (item :: items) =
      label item.length ++ (item ++ framed label items) := by
  rw [framed, List.flatMap_cons, List.append_assoc]
  rfl

/-- Labels of one width tell the lengths apart that are in use. -/
structure Telling (label : Nat → List β) (used : Nat → Prop) : Prop where
  width : ∃ w, 0 < w ∧ ∀ n, (label n).length = w
  apart : ∀ m n, used m → used n → label m = label n → m = n

variable {label : Nat → List β} {used : Nat → Prop}

/-- A frame is never empty. -/
theorem framed_cons_ne_nil (h : Telling label used) (item : List β)
    (items : List (List β)) : framed label (item :: items) ≠ [] := by
  obtain ⟨w, hPos, hWidth⟩ := h.width
  intro hNil
  have hLength := congrArg List.length hNil
  rw [framed_cons, List.length_append, hWidth, List.length_nil] at hLength
  omega

/-- **Frames can be read again.** -/
theorem framed_injective (h : Telling label used) {items items' : List (List β)}
    (hUsed : ∀ item ∈ items, used item.length)
    (hUsed' : ∀ item ∈ items', used item.length)
    (hSame : framed label items = framed label items') : items = items' := by
  induction items generalizing items' with
  | nil =>
      cases items' with
      | nil => rfl
      | cons item' items' => exact absurd hSame.symm (framed_cons_ne_nil h _ _)
  | cons item items ih =>
      cases items' with
      | nil => exact absurd hSame (framed_cons_ne_nil h _ _)
      | cons item' items' =>
          obtain ⟨w, -, hWidth⟩ := h.width
          rw [framed_cons, framed_cons] at hSame
          obtain ⟨hLabel, hRest⟩ := List.append_inj hSame
            ((hWidth _).trans (hWidth _).symm)
          -- equal labels give equal lengths, so the items end together
          have hLength := h.apart _ _ (hUsed item List.mem_cons_self)
            (hUsed' item' List.mem_cons_self) hLabel
          obtain ⟨rfl, hItems⟩ := List.append_inj hRest hLength
          rw [ih (fun other hMem => hUsed other (List.mem_cons_of_mem _ hMem))
            (fun other hMem => hUsed' other (List.mem_cons_of_mem _ hMem))
            hItems]

end OpenApe.Verified.Frames
