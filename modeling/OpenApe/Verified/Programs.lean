import Mathlib.Tactic.TypeStar

/-!
# Programs over an interface

An asynchronous program is a tree: it is done, it has failed, or it makes one
call of an interface and goes on with the reply.  Everything between two
calls is pure, so a call is the unit of interleaving.  A handler executes one
call atomically on a shared state; `exec` runs a program alone, and the pools
of `Interleaving` run several.
-/

namespace OpenApe.Verified.Programs

/-- The calls of an environment and the type of each reply. -/
structure Interface where
  Call : Type
  Reply : Call → Type

/-- A program that makes calls of `I`, throws `ε` and returns `α`. -/
inductive Program (I : Interface) (ε α : Type) where
  | done (value : α)
  | fail (error : ε)
  | ask (call : I.Call) (next : Except ε (I.Reply call) → Program I ε α)

namespace Program

variable {I : Interface} {ε α β : Type}

/-- Runs `f` on what `p` returns. -/
def bind (p : Program I ε α) (f : α → Program I ε β) : Program I ε β :=
  match p with
  | done value => f value
  | fail error => fail error
  | ask call next => ask call (fun reply => (next reply).bind f)

instance : Monad (Program I ε) where
  pure := done
  bind := bind

/-- One call, whose error is thrown. -/
def perform (call : I.Call) : Program I ε (I.Reply call) :=
  ask call (fun
    | .ok reply => done reply
    | .error error => fail error)

/-- `if (condition) throw error`. -/
def throwIf (condition : Bool) (error : ε) : Program I ε Unit :=
  if condition then fail error else done ()

/-- Throws the reason to refuse, when there is one. -/
def refuse : Option ε → Program I ε Unit
  | none => done ()
  | some error => fail error

/-- Returns or throws a result that needs no call. -/
def ofExcept : Except ε α → Program I ε α
  | .ok value => done value
  | .error error => fail error

/-- `try { … } catch (err) { throw f(err) }` -/
def mapError (f : ε → ε) : Program I ε α → Program I ε α
  | done value => done value
  | fail error => fail (f error)
  | ask call next => ask call (fun reply => (next reply).mapError f)

theorem bind_assoc {γ : Type} (p : Program I ε α) (f : α → Program I ε β)
    (g : β → Program I ε γ) :
    p >>= f >>= g = p >>= fun value => f value >>= g := by
  change (p.bind f).bind g = p.bind (fun value => (f value).bind g)
  induction p with
  | done value => rfl
  | fail error => rfl
  | ask call next ih =>
      simp only [Program.bind]
      congr 1
      funext reply
      exact ih reply

theorem throwIf_bind (condition : Bool) (error : ε)
    (f : Unit → Program I ε α) :
    throwIf condition error >>= f =
      if condition then fail error else f () := by
  cases condition <;> rfl

theorem perform_bind (call : I.Call) (f : I.Reply call → Program I ε α) :
    perform call >>= f = ask call (fun
      | .ok reply => f reply
      | .error error => fail error) := by
  change ask call _ = ask call _
  congr 1
  funext reply
  cases reply <;> rfl

/-- The result of a sequence, mapped. -/
theorem map_perform_bind (g : α → β) (call : I.Call)
    (f : I.Reply call → Program I ε α) :
    g <$> (perform call >>= f) = ask call (fun
      | .ok reply => g <$> f reply
      | .error error => fail error) := by
  change perform call >>= f >>= (fun value => pure (g value)) = _
  rw [bind_assoc, perform_bind]
  rfl

/-! ## Execution alone -/

/-- Executes one call atomically. -/
def Handler (I : Interface) (ε σ : Type) :=
  (call : I.Call) → σ → Except ε (I.Reply call) × σ

variable {σ : Type}

/-- Runs a program to its end. -/
def exec (h : Handler I ε σ) : Program I ε α → σ → Except ε α × σ
  | done value, s => (.ok value, s)
  | fail error, s => (.error error, s)
  | ask call next, s => exec h (next (h call s).1) (h call s).2

/-- One call of a program; a program that has ended stays as it is. -/
def step (h : Handler I ε σ) : Program I ε α → σ → Program I ε α × σ
  | done value, s => (done value, s)
  | fail error, s => (fail error, s)
  | ask call next, s => (next (h call s).1, (h call s).2)

/-- The first call of a mapped sequence. -/
theorem step_map_perform_bind (h : Handler I ε σ) (g : α → β)
    (call : I.Call) (f : I.Reply call → Program I ε α) (s : σ) :
    step h (g <$> (perform call >>= f)) s =
      (match (h call s).1 with
        | .ok value => g <$> f value
        | .error error => fail error, (h call s).2) := by
  rw [map_perform_bind, step]

@[simp] theorem exec_pure (h : Handler I ε σ) (value : α) (s : σ) :
    exec h (pure value : Program I ε α) s = (.ok value, s) := rfl

@[simp] theorem exec_done (h : Handler I ε σ) (value : α) (s : σ) :
    exec h (done value : Program I ε α) s = (.ok value, s) := rfl

@[simp] theorem exec_fail (h : Handler I ε σ) (error : ε) (s : σ) :
    exec h (fail error : Program I ε α) s = (.error error, s) := rfl

theorem exec_perform (h : Handler I ε σ) (call : I.Call) (s : σ) :
    exec h (perform call) s = h call s := by
  simp only [perform, exec]
  cases hReply : (h call s).1 with
  | ok reply => rw [exec_done, ← hReply]
  | error error => rw [exec_fail, ← hReply]

/-- A sequence runs its first part, and its second on what that returns. -/
theorem exec_bind (h : Handler I ε σ) (p : Program I ε α)
    (f : α → Program I ε β) (s : σ) :
    exec h (p >>= f) s =
      match exec h p s with
      | (.ok value, s') => exec h (f value) s'
      | (.error error, s') => (.error error, s') := by
  change exec h (p.bind f) s = _
  induction p generalizing s with
  | done value => rfl
  | fail error => rfl
  | ask call next ih => exact ih _ _

/-- A sequence whose first part returns. -/
theorem exec_bind_ok {h : Handler I ε σ} {p : Program I ε α} {s s' : σ}
    {value : α} (hp : exec h p s = (.ok value, s'))
    (f : α → Program I ε β) :
    exec h (p >>= f) s = exec h (f value) s' := by
  rw [exec_bind, hp]

/-- A sequence whose first part throws. -/
theorem exec_bind_error {h : Handler I ε σ} {p : Program I ε α} {s s' : σ}
    {error : ε} (hp : exec h p s = (.error error, s'))
    (f : α → Program I ε β) :
    exec h (p >>= f) s = (.error error, s') := by
  rw [exec_bind, hp]

/-- A sequence returns when both parts do. -/
theorem exec_bind_eq_ok {h : Handler I ε σ} {p : Program I ε α}
    {f : α → Program I ε β} {s s' : σ} {b : β}
    (hRun : exec h (p >>= f) s = (.ok b, s')) :
    ∃ a s₁, exec h p s = (.ok a, s₁) ∧ exec h (f a) s₁ = (.ok b, s') := by
  rw [exec_bind] at hRun
  cases hFirst : exec h p s with
  | mk result s₁ =>
      cases result with
      | ok a =>
          rw [hFirst] at hRun
          exact ⟨a, s₁, rfl, hRun⟩
      | error error =>
          rw [hFirst] at hRun
          cases hRun

@[simp] theorem exec_throwIf_bind (h : Handler I ε σ) (condition : Bool)
    (error : ε) (f : Unit → Program I ε α) (s : σ) :
    exec h (throwIf condition error >>= f) s =
      if condition then (.error error, s) else exec h (f ()) s := by
  cases condition <;> rfl

@[simp] theorem exec_refuse_bind (h : Handler I ε σ) (reason : Option ε)
    (f : Unit → Program I ε α) (s : σ) :
    exec h (refuse reason >>= f) s =
      match reason with
      | some error => (.error error, s)
      | none => exec h (f ()) s := by
  cases reason <;> rfl

@[simp] theorem exec_ofExcept (h : Handler I ε σ) (result : Except ε α)
    (s : σ) : exec h (ofExcept result : Program I ε α) s = (result, s) := by
  cases result <;> rfl

/-- A program whose result is mapped without further calls. -/
theorem exec_bind_ofExcept (h : Handler I ε σ) (p : Program I ε α)
    (f : α → Except ε β) (s : σ) :
    exec h (p >>= fun value => ofExcept (f value)) s =
      ((exec h p s).1.bind f, (exec h p s).2) := by
  rw [exec_bind]
  cases hRun : exec h p s with
  | mk result s' =>
      cases result with
      | ok value => exact exec_ofExcept h (f value) s'
      | error error => rfl

theorem exec_map (h : Handler I ε σ) (f : α → β) (p : Program I ε α)
    (s : σ) :
    exec h (f <$> p) s = ((exec h p s).1.map f, (exec h p s).2) := by
  change exec h (p >>= fun value => pure (f value)) s = _
  rw [exec_bind]
  cases hRun : exec h p s with
  | mk result s' => cases result <;> rfl

/-- A caught error is thrown on after the same calls. -/
theorem exec_mapError (h : Handler I ε σ) (f : ε → ε) (p : Program I ε α)
    (s : σ) :
    exec h (p.mapError f) s =
      ((exec h p s).1.mapError f, (exec h p s).2) := by
  induction p generalizing s with
  | done value => rfl
  | fail error => rfl
  | ask call next ih => exact ih _ _

/-! ## The calls of a program -/

/-- Every call the program can make satisfies `P`. -/
def Asks (P : I.Call → Prop) : Program I ε α → Prop
  | done _ => True
  | fail _ => True
  | ask call next => P call ∧ ∀ reply, Asks P (next reply)

theorem asks_pure (P : I.Call → Prop) (value : α) :
    Asks P (pure value : Program I ε α) := trivial

theorem asks_perform {P : I.Call → Prop} {call : I.Call} (h : P call) :
    Asks P (perform call : Program I ε (I.Reply call)) := by
  refine ⟨h, fun reply => ?_⟩
  cases reply <;> trivial

theorem asks_throwIf (P : I.Call → Prop) (condition : Bool) (error : ε) :
    Asks P (throwIf condition error : Program I ε Unit) := by
  cases condition <;> trivial

theorem asks_refuse (P : I.Call → Prop) (reason : Option ε) :
    Asks P (refuse reason : Program I ε Unit) := by
  cases reason <;> trivial

theorem asks_ofExcept (P : I.Call → Prop) (result : Except ε α) :
    Asks P (ofExcept result : Program I ε α) := by
  cases result <;> trivial

theorem asks_mapError {P : I.Call → Prop} {p : Program I ε α}
    (hp : Asks P p) (f : ε → ε) : Asks P (p.mapError f) := by
  induction p with
  | done value => trivial
  | fail error => trivial
  | ask call next ih => exact ⟨hp.1, fun reply => ih reply (hp.2 reply)⟩

theorem asks_bind {P : I.Call → Prop} {p : Program I ε α}
    {f : α → Program I ε β} (hp : Asks P p) (hf : ∀ value, Asks P (f value)) :
    Asks P (p >>= f) := by
  change Asks P (p.bind f)
  induction p with
  | done value => exact hf value
  | fail error => trivial
  | ask call next ih => exact ⟨hp.1, fun reply => ih reply (hp.2 reply)⟩

theorem asks_map {P : I.Call → Prop} {p : Program I ε α} (hp : Asks P p)
    (f : α → β) : Asks P (f <$> p) :=
  asks_bind hp (fun value => asks_pure P (f value))

/-- An invariant that the calls of a program keep is kept by the program. -/
theorem exec_preserves {P : I.Call → Prop} {h : Handler I ε σ}
    {inv : σ → Prop} (hCall : ∀ call s, P call → inv s → inv (h call s).2)
    {p : Program I ε α} (hp : Asks P p) {s : σ} (hs : inv s) :
    inv (exec h p s).2 := by
  induction p generalizing s with
  | done value => exact hs
  | fail error => exact hs
  | ask call next ih => exact ih _ (hp.2 _) (hCall _ _ hp.1 hs)

/-! ## Reliance and guarantee -/

/-- Answered as `rely` says, the program makes calls that satisfy `calls` and
returns values that satisfy `returns`. -/
def Guarantees (rely : (call : I.Call) → Except ε (I.Reply call) → Prop)
    (calls : I.Call → Prop) (returns : α → Prop) : Program I ε α → Prop
  | done value => returns value
  | fail _ => True
  | ask call next =>
      calls call ∧
        ∀ reply, rely call reply → Guarantees rely calls returns (next reply)

section Guarantees

variable {rely : (call : I.Call) → Except ε (I.Reply call) → Prop}
  {calls : I.Call → Prop} {returns : α → Prop}

theorem guarantees_of_asks {P : I.Call → Prop} {p : Program I ε α}
    (hp : Asks P p) :
    Guarantees (fun _ _ => True) P (fun _ => True) p := by
  induction p with
  | done value => trivial
  | fail error => trivial
  | ask call next ih => exact ⟨hp.1, fun reply _ => ih reply (hp.2 reply)⟩

theorem guarantees_pure {value : α} (h : returns value) :
    Guarantees rely calls returns (pure value : Program I ε α) := h

theorem guarantees_perform {call : I.Call} {returns : I.Reply call → Prop}
    (hCall : calls call)
    (hReply : ∀ reply, rely call (.ok reply) → returns reply) :
    Guarantees rely calls returns
      (perform call : Program I ε (I.Reply call)) := by
  refine ⟨hCall, fun reply hRely => ?_⟩
  cases reply with
  | ok reply => exact hReply reply hRely
  | error error => trivial

theorem guarantees_mono {returns' : α → Prop} {p : Program I ε α}
    (hp : Guarantees rely calls returns p)
    (h : ∀ value, returns value → returns' value) :
    Guarantees rely calls returns' p := by
  induction p with
  | done value => exact h value hp
  | fail error => trivial
  | ask call next ih =>
      exact ⟨hp.1, fun reply hRely => ih reply (hp.2 reply hRely)⟩

/-- The sequence rule. -/
theorem guarantees_bind {returns' : β → Prop} {p : Program I ε α}
    {f : α → Program I ε β} (hp : Guarantees rely calls returns p)
    (hf : ∀ value, returns value →
      Guarantees rely calls returns' (f value)) :
    Guarantees rely calls returns' (p >>= f) := by
  change Guarantees rely calls returns' (p.bind f)
  induction p with
  | done value => exact hf value hp
  | fail error => trivial
  | ask call next ih =>
      exact ⟨hp.1, fun reply hRely => ih reply (hp.2 reply hRely)⟩

/-- A call, and what follows on its reply. -/
theorem guarantees_perform_bind {call : I.Call}
    {f : I.Reply call → Program I ε β} {returns' : β → Prop} (hCall : calls call)
    (hf : ∀ reply, rely call (.ok reply) →
      Guarantees rely calls returns' (f reply)) :
    Guarantees rely calls returns' (perform call >>= f) :=
  guarantees_bind (guarantees_perform hCall (fun _ hRely => hRely)) hf

theorem guarantees_throwIf_bind {condition : Bool} {error : ε}
    {f : Unit → Program I ε β} {returns' : β → Prop}
    (hf : condition = false → Guarantees rely calls returns' (f ())) :
    Guarantees rely calls returns' (throwIf condition error >>= f) := by
  cases condition with
  | true => trivial
  | false => exact hf rfl

theorem guarantees_refuse_bind {reason : Option ε}
    {f : Unit → Program I ε β} {returns' : β → Prop}
    (hf : reason = none → Guarantees rely calls returns' (f ())) :
    Guarantees rely calls returns' (refuse reason >>= f) := by
  cases reason with
  | none => exact hf rfl
  | some error => trivial

theorem guarantees_ofExcept_bind {result : Except ε α}
    {f : α → Program I ε β} {returns' : β → Prop}
    (hf : ∀ value, result = .ok value →
      Guarantees rely calls returns' (f value)) :
    Guarantees rely calls returns' (ofExcept result >>= f) := by
  cases result with
  | ok value => exact hf value rfl
  | error error => trivial

theorem guarantees_refuse {reason : Option ε} :
    Guarantees rely calls (fun _ => reason = none)
      (refuse reason : Program I ε Unit) := by
  cases reason with
  | none => exact rfl
  | some error => trivial

/-- What is done with the result makes no calls. -/
theorem guarantees_map {p : Program I ε α} {f : α → β}
    (hp : Guarantees rely calls (fun _ => True) p) :
    Guarantees rely calls (fun _ => True) (f <$> p) :=
  guarantees_bind hp (fun _ _ => guarantees_pure trivial)

theorem guarantees_mapError {p : Program I ε α}
    (hp : Guarantees rely calls returns p) (f : ε → ε) :
    Guarantees rely calls returns (p.mapError f) := by
  induction p with
  | done value => exact hp
  | fail error => trivial
  | ask call next ih =>
      exact ⟨hp.1, fun reply hRely => ih reply (hp.2 reply hRely)⟩

/-- Alone on a state that answers as the program relies on, it returns what
it guarantees. -/
theorem exec_guarantees {h : Handler I ε σ} {inv : σ → Prop}
    (hCall : ∀ call s, calls call → inv s →
      rely call (h call s).1 ∧ inv (h call s).2)
    {p : Program I ε α} (hp : Guarantees rely calls returns p) {s s' : σ}
    (hs : inv s) {value : α} (hRun : exec h p s = (.ok value, s')) :
    returns value ∧ inv s' := by
  induction p generalizing s with
  | done value' =>
      cases hRun
      exact ⟨hp, hs⟩
  | fail error => cases hRun
  | ask call next ih =>
      obtain ⟨hRely, hInv⟩ := hCall call s hp.1 hs
      exact ih _ (hp.2 _ hRely) hInv hRun

end Guarantees

/-! ## Invariants along a run -/

/-- The invariant holds at every point of a run of the program from `s`. -/
def Along (h : Handler I ε σ) (inv : σ → Prop) : Program I ε α → σ → Prop
  | done _, s => inv s
  | fail _, s => inv s
  | ask call next, s =>
      inv s ∧ Along h inv (next (h call s).1) (h call s).2

section Along

variable {h : Handler I ε σ} {inv inv' : σ → Prop}

theorem Along.start {p : Program I ε α} {s : σ} (hp : Along h inv p s) :
    inv s := by
  cases p with
  | done value => exact hp
  | fail error => exact hp
  | ask call next => exact hp.1

theorem Along.finish {p : Program I ε α} {s : σ} (hp : Along h inv p s) :
    inv (exec h p s).2 := by
  induction p generalizing s with
  | done value => exact hp
  | fail error => exact hp
  | ask call next ih => exact ih _ hp.2

/-- An invariant that the calls of a program keep holds along it. -/
theorem along_of_asks {P : I.Call → Prop}
    (hCall : ∀ call s, P call → inv s → inv (h call s).2)
    {p : Program I ε α} (hp : Asks P p) {s : σ} (hs : inv s) :
    Along h inv p s := by
  induction p generalizing s with
  | done value => exact hs
  | fail error => exact hs
  | ask call next ih =>
      exact ⟨hs, ih _ (hp.2 _) (hCall call s hp.1 hs)⟩

theorem along_perform {call : I.Call} {s : σ} (hs : inv s)
    (hCall : inv (h call s).2) :
    Along h inv (perform call : Program I ε (I.Reply call)) s := by
  refine ⟨hs, ?_⟩
  cases (h call s).1 <;> exact hCall

/-- The sequence rule. -/
theorem along_bind {p : Program I ε α} {f : α → Program I ε β} {s : σ}
    (hp : Along h inv p s)
    (hf : ∀ a s', exec h p s = (.ok a, s') → Along h inv (f a) s') :
    Along h inv (p >>= f) s := by
  change Along h inv (p.bind f) s
  induction p generalizing s with
  | done value => exact hf value s rfl
  | fail error => exact hp
  | ask call next ih => exact ⟨hp.1, ih _ hp.2 hf⟩

theorem along_map {p : Program I ε α} (f : α → β) {s : σ}
    (hp : Along h inv p s) : Along h inv (f <$> p) s := by
  refine along_bind hp (fun a s' hRun => ?_)
  have hFinish := hp.finish
  rw [hRun] at hFinish
  exact hFinish

end Along

end Program

end OpenApe.Verified.Programs
