import Mathlib.Data.List.Infix

/-!
# Chunks of a list

Where a list is written as chunks one after the other, each chunk stands at the
position that the lengths before it add up to.
-/

namespace OpenApe.Verified.Chunks

variable {α : Type} {xs chunk a b : List α} {i : Nat}

/-- The chunk stands in the list at the position. -/
def Placed (xs : List α) (i : Nat) (chunk : List α) : Prop :=
  chunk <+: xs.drop i

theorem placed_whole (xs : List α) : Placed xs 0 xs := by
  rw [Placed, List.drop_zero]

theorem Placed.left (h : Placed xs i (a ++ b)) : Placed xs i a :=
  (List.prefix_append a b).trans h

theorem Placed.right (h : Placed xs i (a ++ b)) :
    Placed xs (i + a.length) b := by
  obtain ⟨rest, hRest⟩ := h
  refine ⟨rest, ?_⟩
  rw [← List.drop_drop, ← hRest, List.append_assoc, List.drop_left]

/-- The elements from a chunk's position up to its end are the chunk. -/
theorem Placed.take_drop (h : Placed xs i chunk) :
    (xs.take (i + chunk.length)).drop i = chunk := by
  rw [List.drop_take, Nat.add_sub_cancel_left]
  exact List.prefix_iff_eq_take.mp h |>.symm

theorem Placed.getElem? (h : Placed xs i chunk) {j : Nat}
    (hj : j < chunk.length) : xs[i + j]? = chunk[j]? := by
  obtain ⟨rest, hRest⟩ := h
  rw [← List.getElem?_drop, ← hRest, List.getElem?_append_left hj]

end OpenApe.Verified.Chunks
