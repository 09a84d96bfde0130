import Mathlib.Data.List.Basic

/-!
# Tilings

Spans of positions that follow each other without a gap and without an
overlap.
-/

namespace OpenApe.Verified.Tiling

/-- A span of positions: from its first one up to its stop. -/
abbrev Span := Nat × Nat

/-- The spans lead from a start to an end, each from where the last stops. -/
def Tiles (start : Nat) : List Span → Nat → Prop
  | [], stop => start = stop
  | span :: spans, stop =>
      span.1 = start ∧ span.1 ≤ span.2 ∧ Tiles span.2 spans stop

end OpenApe.Verified.Tiling
