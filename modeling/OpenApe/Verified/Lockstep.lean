import Mathlib.Data.List.Infix

/-!
# Scanners in lockstep

A character scanner is a step function folded over the input.  Two scanners
that read the same input are compared through a relation of their states: as
long as every symbol is read in a state from which both steps keep the
relation, the states after the whole input are related.  `Guarded` says that
every symbol is read in such a state, and `exists_unguarded` finds the first
symbol that is not.
-/

namespace OpenApe.Verified.Lockstep

variable {σ τ α : Type}

/-- Every symbol of the input is read in a state that `ok` allows. -/
def Guarded (step : σ → α → σ) (ok : σ → α → Prop) (s : σ) : List α → Prop
  | [] => True
  | a :: rest => ok s a ∧ Guarded step ok (step s a) rest

instance decidableGuarded (step : σ → α → σ) (ok : σ → α → Prop)
    [∀ s a, Decidable (ok s a)] (s : σ) :
    (input : List α) → Decidable (Guarded step ok s input)
  | [] => .isTrue trivial
  | a :: rest =>
      have := decidableGuarded step ok (step s a) rest
      inferInstanceAs (Decidable (ok s a ∧ Guarded step ok (step s a) rest))

theorem guarded_append (step : σ → α → σ) (ok : σ → α → Prop) (s : σ)
    (input tail : List α) :
    Guarded step ok s (input ++ tail) ↔
      Guarded step ok s input ∧
        Guarded step ok (input.foldl step s) tail := by
  induction input generalizing s with
  | nil => simp [Guarded]
  | cons a rest ih => simp only [List.cons_append, Guarded, ih,
      List.foldl_cons, and_assoc]

/-- An input that is not guarded has a first symbol that is not. -/
theorem exists_unguarded {step : σ → α → σ} {ok : σ → α → Prop} {s : σ}
    {input : List α} (h : ¬Guarded step ok s input) :
    ∃ before a after, input = before ++ a :: after ∧
      Guarded step ok s before ∧ ¬ok (before.foldl step s) a := by
  induction input generalizing s with
  | nil => exact absurd trivial h
  | cons a rest ih =>
      by_cases hok : ok s a
      · have hrest : ¬Guarded step ok (step s a) rest :=
          fun hrest => h ⟨hok, hrest⟩
        obtain ⟨before, b, after, rfl, hbefore, hb⟩ := ih hrest
        exact ⟨a :: before, b, after, rfl, ⟨hok, hbefore⟩, hb⟩
      · exact ⟨[], a, rest, rfl, trivial, hok⟩

/-- **The lockstep rule**: a relation kept by every allowed step holds after
every guarded input. -/
theorem lockstep {stepS : σ → α → σ} {stepT : τ → α → τ}
    {ok : σ → α → Prop} (related : σ → τ → Prop)
    (hstep : ∀ s t a, related s t → ok s a →
      related (stepS s a) (stepT t a))
    {s : σ} {t : τ} (hst : related s t) {input : List α}
    (hinput : Guarded stepS ok s input) :
    related (input.foldl stepS s) (input.foldl stepT t) := by
  induction input generalizing s t with
  | nil => exact hst
  | cons a rest ih => exact ih (hstep s t a hst hinput.1) hinput.2

end OpenApe.Verified.Lockstep
