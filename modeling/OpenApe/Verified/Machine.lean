/-!
# Machines

A machine takes turns on a state and answers each of them.  `Reached` are
the states it can be in after turns that each met a condition, in any order
and number; the rules below carry an invariant, or a relation between the
earlier and the later state, from one turn to all of them.
-/

namespace OpenApe.Verified.Machine

/-- What one turn answers, and the state after it. -/
abbrev Machine (σ τ ρ : Type) := τ → σ → ρ × σ

variable {σ τ ρ : Type}

/-- The states that turns reach from `start`, each turn meeting `ok`. -/
inductive Reached (m : Machine σ τ ρ) (ok : σ → τ → Prop) (start : σ) :
    σ → Prop where
  | refl : Reached m ok start start
  | turn {s : σ} (h : Reached m ok start s) (t : τ) (hOk : ok s t) :
      Reached m ok start (m t s).2

/-- The condition that every turn meets. -/
def anyTurn : σ → τ → Prop := fun _ _ => True

/-- The state after a list of turns. -/
def run (m : Machine σ τ ρ) (turns : List τ) (s : σ) : σ :=
  turns.foldl (fun s t => (m t s).2) s

/-- The answers to a list of turns. -/
def answers (m : Machine σ τ ρ) : List τ → σ → List ρ
  | [], _ => []
  | t :: turns, s => (m t s).1 :: answers m turns (m t s).2

namespace Reached

variable {m : Machine σ τ ρ} {ok : σ → τ → Prop} {start : σ}

theorem trans {s s' : σ} (h : Reached m ok start s)
    (h' : Reached m ok s s') : Reached m ok start s' := by
  induction h' with
  | refl => exact h
  | turn _ t hOk ih => exact ih.turn t hOk

/-- An invariant of the turns holds of all states they reach. -/
theorem invariant (inv : σ → Prop) (hStart : inv start)
    (hTurn : ∀ s t, inv s → ok s t → inv (m t s).2) {s : σ}
    (h : Reached m ok start s) : inv s := by
  induction h with
  | refl => exact hStart
  | turn _ t hOk ih => exact hTurn _ t ih hOk

/-- A relation between the states around each turn holds between the first
and the last state. -/
theorem related {inv : σ → Prop} {R : σ → σ → Prop} (hStart : inv start)
    (hInv : ∀ s t, inv s → ok s t → inv (m t s).2) (hRefl : ∀ s, R s s)
    (hTrans : ∀ a b c, R a b → R b c → R a c)
    (hTurn : ∀ s t, inv s → ok s t → R s (m t s).2) {s : σ}
    (h : Reached m ok start s) : R start s := by
  have hBoth : inv s ∧ R start s := by
    induction h with
    | refl => exact ⟨hStart, hRefl start⟩
    | turn _ t hOk ih =>
        exact ⟨hInv _ t ih.1 hOk,
          hTrans _ _ _ ih.2 (hTurn _ t ih.1 hOk)⟩
  exact hBoth.2

end Reached

theorem reached_run {m : Machine σ τ ρ} (turns : List τ) (s : σ) :
    Reached m anyTurn s (run m turns s) := by
  induction turns generalizing s with
  | nil => exact .refl
  | cons t turns ih =>
      have hFirst : Reached m anyTurn s (m t s).2 := .turn .refl t trivial
      exact hFirst.trans (ih (m t s).2)

end OpenApe.Verified.Machine
