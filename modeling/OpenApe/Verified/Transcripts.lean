import OpenApe.Verified.Programs

/-!
# What a program was answered before a call

The environment may answer each call in any way, also by an error.  A
transcript is the list of calls with their answers; `Reaches` says that a
program, answered so, makes a call next.  The rules read a sequence from its
front: the transcript begins with the first call of the sequence, answered
with a value, unless that is the call that is reached.

`reachedBy` computes the transcript for a given environment.
-/

namespace OpenApe.Verified.Transcripts

open Programs Programs.Program

variable {I : Interface} {ε α β : Type}

/-- A call and its answer. -/
structure Event (I : Interface) (ε : Type) where
  call : I.Call
  reply : Except ε (I.Reply call)

/-- Answered as the events say, the program makes the call `goal`. -/
inductive Reaches (goal : I.Call) : Program I ε α → List (Event I ε) → Prop
  | here (next : Except ε (I.Reply goal) → Program I ε α) :
      Reaches goal (ask goal next) []
  | after {call : I.Call} {next : Except ε (I.Reply call) → Program I ε α}
      {reply : Except ε (I.Reply call)} {events : List (Event I ε)}
      (h : Reaches goal (next reply) events) :
      Reaches goal (ask call next) (⟨call, reply⟩ :: events)

theorem not_reaches_pure {goal : I.Call} {value : α}
    {events : List (Event I ε)} :
    ¬Reaches goal (pure value : Program I ε α) events := fun h => by
  change Reaches goal (done value) events at h
  cases h

theorem not_reaches_fail {goal : I.Call} {error : ε}
    {events : List (Event I ε)} :
    ¬Reaches goal (fail error : Program I ε α) events := fun h => by
  cases h

/-- A call that is made first is reached, or its answer is a value with which
the sequence goes on. -/
theorem reaches_perform_bind {goal call : I.Call}
    {f : I.Reply call → Program I ε β} {events : List (Event I ε)}
    (h : Reaches goal (perform call >>= f) events) :
    (call = goal ∧ events = []) ∨ ∃ reply rest,
      events = ⟨call, .ok reply⟩ :: rest ∧ Reaches goal (f reply) rest := by
  rw [perform_bind] at h
  cases h with
  | here => exact .inl ⟨rfl, rfl⟩
  | @after _ _ reply rest h =>
      cases reply with
      | ok value => exact .inr ⟨value, rest, rfl, h⟩
      | error error => exact absurd h not_reaches_fail

/-- A call before the one that is reached. -/
theorem reaches_perform_bind_ne {goal call : I.Call}
    {f : I.Reply call → Program I ε β} {events : List (Event I ε)}
    (hOther : call ≠ goal) (h : Reaches goal (perform call >>= f) events) :
    ∃ reply rest, events = ⟨call, .ok reply⟩ :: rest ∧
      Reaches goal (f reply) rest :=
  (reaches_perform_bind h).resolve_left fun hSame => hOther hSame.1

theorem reaches_ofExcept_bind {goal : I.Call} {result : Except ε α}
    {f : α → Program I ε β} {events : List (Event I ε)}
    (h : Reaches goal (ofExcept result >>= f) events) :
    ∃ value, result = .ok value ∧ Reaches goal (f value) events := by
  cases result with
  | ok value => exact ⟨value, rfl, h⟩
  | error error => exact absurd h not_reaches_fail

/-- A program that may return early. -/
theorem reaches_of_early {goal : I.Call} {condition : Prop}
    [Decidable condition] {value : α} {rest : Program I ε α}
    {events : List (Event I ε)}
    (h : Reaches goal (if condition then pure value else rest) events) :
    ¬condition ∧ Reaches goal rest events := by
  by_cases hCondition : condition
  · rw [if_pos hCondition] at h
    exact absurd h not_reaches_pure
  · rw [if_neg hCondition] at h
    exact ⟨hCondition, h⟩

/-- The transcript up to the first call that `goal` marks. -/
def reachedBy (answer : (call : I.Call) → Except ε (I.Reply call))
    (goal : I.Call → Bool) :
    Program I ε α → Option (List (Event I ε) × I.Call)
  | done _ => none
  | fail _ => none
  | ask call next =>
      if goal call then some ([], call)
      else (reachedBy answer goal (next (answer call))).map fun found =>
        (⟨call, answer call⟩ :: found.1, found.2)

theorem reaches_of_reachedBy
    {answer : (call : I.Call) → Except ε (I.Reply call)}
    {goal : I.Call → Bool} {p : Program I ε α} {events : List (Event I ε)}
    {call : I.Call} (h : reachedBy answer goal p = some (events, call)) :
    Reaches call p events := by
  induction p generalizing events with
  | done value => cases h
  | fail error => cases h
  | ask first next ih =>
      rw [reachedBy] at h
      split at h
      · cases h
        exact .here next
      · obtain ⟨⟨rest, last⟩, hRest, hFound⟩ := Option.map_eq_some_iff.mp h
        cases hFound
        exact .after (ih _ hRest)

/-- The answers of the transcript are the environment's. -/
theorem reply_of_mem_reachedBy
    {answer : (call : I.Call) → Except ε (I.Reply call)}
    {goal : I.Call → Bool} {p : Program I ε α} {events : List (Event I ε)}
    {call : I.Call} (h : reachedBy answer goal p = some (events, call)) :
    goal call = true ∧ ∀ event ∈ events, event.reply = answer event.call := by
  induction p generalizing events with
  | done value => cases h
  | fail error => cases h
  | ask first next ih =>
      rw [reachedBy] at h
      split at h
      · rename_i hGoal
        cases h
        exact ⟨hGoal, fun event hEvent => (nomatch hEvent)⟩
      · obtain ⟨⟨rest, last⟩, hRest, hFound⟩ := Option.map_eq_some_iff.mp h
        cases hFound
        obtain ⟨hGoal, hReplies⟩ := ih _ hRest
        exact ⟨hGoal, List.forall_mem_cons.mpr ⟨rfl, hReplies⟩⟩

end OpenApe.Verified.Transcripts
