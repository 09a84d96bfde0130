import Mathlib.Logic.Relation
import OpenApe.Verified.Interleaving

/-!
# One program among others

What a program achieves when the calls of other programs may come between any
two of its own.  `Later` is what the others can do to the shared state.
`Amid` follows the program through every answer it can get: where it ends, its
result satisfies a postcondition, which may speak of the events of the program
itself, and which the others cannot undo.

The rules take a program apart call by call, and `run_amid` says that a thread
of a pool is such a program, whatever the schedule.
-/

namespace OpenApe.Verified.Interference

open Programs Programs.Program Interleaving

variable {I : Interface} {ε α β σ : Type}

/-- The second state comes after the first by calls of the given kind. -/
def Later (h : Handler I ε σ) (P : I.Call → Prop) : σ → σ → Prop :=
  Relation.ReflTransGen (fun s s' => ∃ call, P call ∧ s' = (h call s).2)

/-- What every call keeps is kept. -/
theorem Later.keeps {h : Handler I ε σ} {P : I.Call → Prop} {inv : σ → Prop}
    (hCall : ∀ call s, P call → inv s → inv (h call s).2) {s s' : σ}
    (hLater : Later h P s s') (hs : inv s) : inv s' := by
  induction hLater with
  | refl => exact hs
  | tail _ hStep ih =>
      obtain ⟨call, hP, rfl⟩ := hStep
      exact hCall call _ hP ih

/-- The events of one thread, in order. -/
def traceOf (h : Handler I ε σ) (i : Nat) :
    List Nat → Pool I ε α σ → List (Event I ε σ)
  | [], _ => []
  | j :: schedule, pool =>
      (if j = i then (turn h j pool).2.toList else []) ++
        traceOf h i schedule (turn h j pool).1

/-! ## Following a program -/

section Rules

variable {h : Handler I ε σ} {P : I.Call → Prop}
  {post : List (Event I ε σ) → σ → α → Prop}

/-- Whatever calls come between, what the program returns satisfies `post`,
given the events of the program so far and the state. -/
def Amid (h : Handler I ε σ) (P : I.Call → Prop)
    (post : List (Event I ε σ) → σ → α → Prop) :
    Program I ε α → List (Event I ε σ) → σ → Prop
  | .done value, own, s => ∀ s', Later h P s s' → post own s' value
  | .fail _, _, _ => True
  | .ask call next, own, s => ∀ s', Later h P s s' →
      Amid h P post (next (h call s').1) (own ++ [eventOf h call s'])
        (h call s').2

/-- The calls of others do not matter. -/
theorem Amid.later {program : Program I ε α} {own : List (Event I ε σ)}
    {s s' : σ} (hAmid : Amid h P post program own s)
    (hLater : Later h P s s') : Amid h P post program own s' := by
  cases program with
  | done value => exact fun s'' hNext => hAmid s'' (hLater.trans hNext)
  | fail error => trivial
  | ask call next => exact fun s'' hNext => hAmid s'' (hLater.trans hNext)

theorem amid_pure {value : α} {own : List (Event I ε σ)} {s : σ}
    (hPost : ∀ s', Later h P s s' → post own s' value) :
    Amid h P post (pure value : Program I ε α) own s := hPost

theorem amid_bind {p : Program I ε β} {f : β → Program I ε α}
    {own : List (Event I ε σ)} {s : σ}
    (hp : Amid h P (fun own s value => Amid h P post (f value) own s) p
      own s) : Amid h P post (p >>= f) own s := by
  change Amid h P post (p.bind f) own s
  induction p generalizing own s with
  | done value => exact hp s .refl
  | fail error => trivial
  | ask call next ih => exact fun s' hLater => ih _ (hp s' hLater)

theorem amid_map {p : Program I ε β} {f : β → α}
    {own : List (Event I ε σ)} {s : σ}
    (hp : Amid h P (fun own s value => post own s (f value)) p own s) :
    Amid h P post (f <$> p) own s := by
  change Amid h P post (p.bind (fun value => pure (f value))) own s
  induction p generalizing own s with
  | done value => exact hp
  | fail error => trivial
  | ask call next ih => exact fun s' hLater => ih _ (hp s' hLater)

theorem amid_throwIf_bind {condition : Bool} {error : ε}
    {f : Unit → Program I ε α} {own : List (Event I ε σ)} {s : σ}
    (hf : condition = false → Amid h P post (f ()) own s) :
    Amid h P post (throwIf condition error >>= f) own s := by
  rw [throwIf_bind]
  cases condition with
  | false => exact hf rfl
  | true => trivial

/-- A call goes on from its answer; others came before it. -/
theorem amid_perform_bind {call : I.Call}
    {f : I.Reply call → Program I ε α} {own : List (Event I ε σ)} {s : σ}
    (hf : ∀ s' reply, Later h P s s' → (h call s').1 = .ok reply →
      Amid h P post (f reply) (own ++ [eventOf h call s']) (h call s').2) :
    Amid h P post (perform call >>= f) own s := by
  rw [perform_bind]
  intro s' hLater
  cases hReply : (h call s').1 with
  | ok reply => exact hf s' reply hLater hReply
  | error error => trivial

theorem amid_perform {call : I.Call}
    {post : List (Event I ε σ) → σ → I.Reply call → Prop}
    {own : List (Event I ε σ)} {s : σ}
    (hPost : ∀ s' s'' reply, Later h P s s' → (h call s').1 = .ok reply →
      Later h P (h call s').2 s'' →
      post (own ++ [eventOf h call s']) s'' reply) :
    Amid h P post (perform call) own s := by
  intro s' hLater
  cases hReply : (h call s').1 with
  | ok reply => exact fun s'' => hPost s' s'' reply hLater hReply
  | error error => trivial

end Rules

/-! ## Threads -/

variable {h : Handler I ε σ} {P : I.Call → Prop}
  {post : List (Event I ε σ) → σ → α → Prop}

/-- **The thread rule**: a thread of a pool is followed along every run, with
the events it had before and those of the run. -/
theorem run_amid {schedule : List Nat} {pool : Pool I ε α σ}
    (hPool : PoolAsks P pool) {i : Nat} {program : Program I ε α}
    (hThread : pool.threads[i]? = some program) {own : List (Event I ε σ)}
    (hAmid : Amid h P post program own pool.state) :
    ∃ program', (run h schedule pool).threads[i]? = some program' ∧
      Amid h P post program' (own ++ traceOf h i schedule pool)
        (run h schedule pool).state := by
  induction schedule generalizing pool program own with
  | nil => exact ⟨program, hThread, by simpa [traceOf, run] using hAmid⟩
  | cons j schedule ih =>
      have hNext : PoolAsks P (turn h j pool).1 :=
        poolAsks_run [j] hPool
      simp only [run, traceOf]
      rw [← List.append_assoc]
      rcases turn_thread h j pool with hTurn | ⟨call, next, hAsk, hTurn⟩
      · rw [hTurn] at hNext ⊢
        have hOwn : own ++ (if j = i then (none : Option (Event I ε σ)).toList
            else []) = own := by
          split <;> simp
        rw [hOwn]
        exact ih hPool hThread hAmid
      · rw [hTurn] at hNext ⊢
        by_cases hSame : j = i
        · subst hSame
          obtain rfl : program = .ask call next :=
            Option.some.inj (hThread.symm.trans hAsk)
          rw [if_pos rfl]
          refine ih hNext ?_ (hAmid pool.state .refl)
          exact List.getElem?_set_self
            (List.getElem?_eq_some_iff.mp hThread).1
        · rw [if_neg hSame, List.append_nil]
          refine ih hNext ?_ (hAmid.later (.single ⟨call, ?_, rfl⟩))
          · rw [List.getElem?_set_ne hSame]
            exact hThread
          · exact (hPool _ (List.mem_of_getElem? hAsk)).1

/-- What a thread that has ended returned. -/
theorem post_of_done {schedule : List Nat} {pool : Pool I ε α σ}
    (hPool : PoolAsks P pool) {i : Nat} {program : Program I ε α}
    (hThread : pool.threads[i]? = some program)
    (hAmid : Amid h P post program [] pool.state) {value : α}
    (hDone : (run h schedule pool).threads[i]? = some (.done value)) :
    post (traceOf h i schedule pool) (run h schedule pool).state value := by
  obtain ⟨program', hThread', hAmid'⟩ := run_amid hPool hThread hAmid
  obtain rfl : program' = .done value :=
    Option.some.inj (hThread'.symm.trans hDone)
  exact hAmid' _ .refl

/-- A run is something the others do. -/
theorem later_run {pool : Pool I ε α σ} (hPool : PoolAsks P pool)
    (schedule : List Nat) :
    Later h P pool.state (run h schedule pool).state :=
  run_preserves (fun _ => True) (Later h P pool.state)
    (fun call _ hP _ hLater => hLater.tail ⟨call, hP, rfl⟩) hPool
    (fun _ _ => trivial) .refl

end OpenApe.Verified.Interference
