import OpenApe.Verified.Programs

/-!
# Reliance and guarantee over states

A program runs beside an environment.  Between two of its calls the
environment changes the state as `rely` allows; each call is answered by a
relation, since what is outside may answer in several ways, or fail; and each
answered call has to satisfy `guarantee`.  `Safe` follows a program through
every answer, to a postcondition that the environment cannot undo.

The rules take a program apart as it is written.
-/

namespace OpenApe.Verified.RelyGuarantee

open Programs Programs.Program

variable {I : Interface} {ε α β σ : Type}

/-- What a program relies on and what it guarantees. -/
structure Rules (I : Interface) (ε σ : Type) where
  rely : σ → σ → Prop
  answer : (call : I.Call) → σ → Except ε (I.Reply call) → σ → Prop
  guarantee : (call : I.Call) → σ → Except ε (I.Reply call) → σ → Prop
  rely_refl : ∀ s, rely s s
  rely_trans : ∀ {s s' s''}, rely s s' → rely s' s'' → rely s s''

variable {R : Rules I ε σ} {post : Except ε α → σ → Prop}

/-- Every answered call satisfies the guarantee, and the end satisfies
`post`. -/
def Safe (R : Rules I ε σ) (post : Except ε α → σ → Prop) :
    Program I ε α → σ → Prop
  | .done value, s => ∀ s', R.rely s s' → post (.ok value) s'
  | .fail error, s => ∀ s', R.rely s s' → post (.error error) s'
  | .ask call next, s => ∀ s', R.rely s s' → ∀ reply s'',
      R.answer call s' reply s'' →
        R.guarantee call s' reply s'' ∧ Safe R post (next reply) s''

/-- What the environment does does not matter. -/
theorem Safe.later {p : Program I ε α} {s s' : σ} (h : Safe R post p s)
    (hRely : R.rely s s') : Safe R post p s' := by
  cases p with
  | done value => exact fun s'' hNext => h s'' (R.rely_trans hRely hNext)
  | fail error => exact fun s'' hNext => h s'' (R.rely_trans hRely hNext)
  | ask call next =>
      exact fun s'' hNext => h s'' (R.rely_trans hRely hNext)

/-- At its end the postcondition holds. -/
theorem Safe.post_of_done {value : α} {s : σ}
    (h : Safe R post (.done value) s) : post (.ok value) s :=
  h s (R.rely_refl s)

theorem Safe.post_of_fail {error : ε} {s : σ}
    (h : Safe R post (.fail error) s) : post (.error error) s :=
  h s (R.rely_refl s)

/-- A weaker postcondition. -/
theorem Safe.mono {post' : Except ε α → σ → Prop} {p : Program I ε α} {s : σ}
    (h : Safe R post p s) (hPost : ∀ r s, post r s → post' r s) :
    Safe R post' p s := by
  induction p generalizing s with
  | done value => exact fun s' hRely => hPost _ _ (h s' hRely)
  | fail error => exact fun s' hRely => hPost _ _ (h s' hRely)
  | ask call next ih =>
      intro s' hRely reply s'' hAnswer
      have hNext := h s' hRely reply s'' hAnswer
      exact ⟨hNext.1, ih reply hNext.2⟩

theorem safe_ask {call : I.Call}
    {next : Except ε (I.Reply call) → Program I ε α} {s : σ}
    (h : ∀ s', R.rely s s' → ∀ reply s'', R.answer call s' reply s'' →
      R.guarantee call s' reply s'' ∧ Safe R post (next reply) s'') :
    Safe R post (.ask call next) s := h

/-- The sequence rule: an error goes past the second part. -/
theorem safe_bind {p : Program I ε β} {f : β → Program I ε α} {s : σ}
    {mid : Except ε β → σ → Prop} (hp : Safe R mid p s)
    (hOk : ∀ value s, mid (.ok value) s → Safe R post (f value) s)
    (hError : ∀ error s, mid (.error error) s → post (.error error) s) :
    Safe R post (p >>= f) s := by
  change Safe R post (p.bind f) s
  induction p generalizing s with
  | done value => exact hOk value s hp.post_of_done
  | fail error => exact fun s' hRely => hError error s' (hp s' hRely)
  | ask call next ih =>
      intro s' hRely reply s'' hAnswer
      have hNext := hp s' hRely reply s'' hAnswer
      exact ⟨hNext.1, ih reply hNext.2⟩

/-! ## Programs that may fail -/

/-- A postcondition of what is returned, and what holds when the program
throws. -/
def Returns (thrown : Prop) (P : α → σ → Prop) : Except ε α → σ → Prop
  | .ok value, s => P value s
  | .error _, _ => thrown

section Returns

variable {thrown : Prop} {P : α → σ → Prop}

theorem safe_return {value : α} {s : σ}
    (h : ∀ s', R.rely s s' → P value s') :
    Safe R (Returns thrown P) (pure value : Program I ε α) s := h

theorem safe_then {p : Program I ε β} {f : β → Program I ε α} {s : σ}
    {Q : β → σ → Prop} (hp : Safe R (Returns thrown Q) p s)
    (hf : ∀ value s, Q value s → Safe R (Returns thrown P) (f value) s) :
    Safe R (Returns thrown P) (p >>= f) s :=
  safe_bind hp hf (fun _ _ hThrown => hThrown)

/-- A call, and what follows on its reply. -/
theorem safe_perform_then {call : I.Call} {f : I.Reply call → Program I ε α}
    {s : σ}
    (hThrown : ∀ {s' error s''}, R.answer call s' (.error error) s'' → thrown)
    (hGuarantee : ∀ s', R.rely s s' → ∀ reply s'',
      R.answer call s' reply s'' → R.guarantee call s' reply s'')
    (hf : ∀ s', R.rely s s' → ∀ reply s'',
      R.answer call s' (.ok reply) s'' →
        Safe R (Returns thrown P) (f reply) s'') :
    Safe R (Returns thrown P) (perform call >>= f) s := by
  rw [perform_bind]
  intro s' hRely reply s'' hAnswer
  refine ⟨hGuarantee s' hRely reply s'' hAnswer, ?_⟩
  cases reply with
  | ok reply => exact hf s' hRely reply s'' hAnswer
  | error error => exact fun _ _ => hThrown hAnswer

/-- The last call of a program. -/
theorem safe_perform {call : I.Call} {Q : I.Reply call → σ → Prop} {s : σ}
    (hThrown : ∀ {s' error s''}, R.answer call s' (.error error) s'' → thrown)
    (hGuarantee : ∀ s', R.rely s s' → ∀ reply s'',
      R.answer call s' reply s'' → R.guarantee call s' reply s'')
    (hQ : ∀ s', R.rely s s' → ∀ reply s'',
      R.answer call s' (.ok reply) s'' → ∀ s₁, R.rely s'' s₁ → Q reply s₁) :
    Safe R (Returns thrown Q) (perform call) s := by
  intro s' hRely reply s'' hAnswer
  refine ⟨hGuarantee s' hRely reply s'' hAnswer, ?_⟩
  cases reply with
  | ok reply => exact hQ s' hRely reply s'' hAnswer
  | error error => exact fun _ _ => hThrown hAnswer

/-- What is returned is weaker. -/
theorem safe_weaken {Q : α → σ → Prop} {p : Program I ε α} {s : σ}
    (h : Safe R (Returns thrown P) p s)
    (hQ : ∀ value s, P value s → Q value s) :
    Safe R (Returns thrown Q) p s := by
  refine h.mono fun result s hPost => ?_
  cases result with
  | ok value => exact hQ value s hPost
  | error error => exact hPost

end Returns

end OpenApe.Verified.RelyGuarantee
