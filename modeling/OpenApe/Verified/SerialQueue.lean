import OpenApe.Verified.Programs

/-!
# Programs run one at a time

Calls may be issued at any time; each is a program, and the queue runs them
in the order of their issue, the next one only after the last has ended.
The queue keeps for every call the states it began and ended in.  `serial_run`
says that every call has run as if it were alone, each from the state the one
before left, and `run_along` carries an invariant of the calls through every
point of a run.
-/

namespace OpenApe.Verified.SerialQueue

open Programs Programs.Program

variable {κ ε α σ : Type} {I : Interface}

/-- A call that has ended. -/
structure Settled (κ ε α σ : Type) where
  call : κ
  before : σ
  result : Except ε α
  after : σ

/-- The call that runs, what it began in, and what is left of it. -/
structure Running (κ : Type) (I : Interface) (ε α σ : Type) where
  call : κ
  begun : σ
  rest : Program I ε α

structure Queue (κ : Type) (I : Interface) (ε α σ : Type) where
  settled : List (Settled κ ε α σ)
  running : Option (Running κ I ε α σ)
  waiting : List κ
  state : σ

inductive Turn (κ : Type) where
  | issue (call : κ)
  | advance

/-- The queue before the first call. -/
def start (κ : Type) (I : Interface) (ε α : Type) (s : σ) :
    Queue κ I ε α σ := ⟨[], none, [], s⟩

section Runs

variable (h : Handler I ε σ) (body : κ → Program I ε α)

/-- One turn: a call is issued, or the queue goes on with the call that runs,
ends it, or begins the next. -/
def turn : Turn κ → Queue κ I ε α σ → Queue κ I ε α σ
  | .issue call, q => { q with waiting := q.waiting ++ [call] }
  | .advance, q =>
      match q.running with
      | some running =>
          match running.rest with
          | .done value =>
              { q with
                running := none
                settled := q.settled ++
                  [⟨running.call, running.begun, .ok value, q.state⟩] }
          | .fail error =>
              { q with
                running := none
                settled := q.settled ++
                  [⟨running.call, running.begun, .error error, q.state⟩] }
          | .ask call next =>
              { q with
                running := some
                  { running with rest := next (h call q.state).1 }
                state := (h call q.state).2 }
      | none =>
          match q.waiting with
          | [] => q
          | call :: waiting =>
              { q with
                running := some ⟨call, q.state, body call⟩
                waiting := waiting }

def run (turns : List (Turn κ)) (q : Queue κ I ε α σ) : Queue κ I ε α σ :=
  turns.foldl (fun q t => turn h body t q) q

/-! ## Each call runs as if alone -/

/-- Each call began where the one before ended. -/
def Linked : σ → List (Settled κ ε α σ) → σ → Prop
  | first, [], last => first = last
  | first, e :: settled, last =>
      e.before = first ∧ Linked e.after settled last

omit h body in
theorem linked_append {first last : σ} {settled : List (Settled κ ε α σ)}
    {e : Settled κ ε α σ} (hLinked : Linked first settled last)
    (hBefore : e.before = last) :
    Linked first (settled ++ [e]) e.after := by
  induction settled generalizing first with
  | nil => exact ⟨hBefore.trans hLinked.symm, rfl⟩
  | cons e' settled ih => exact ⟨hLinked.1, ih hLinked.2⟩

/-- The call ran from its first state to its last. -/
def RanAlone (e : Settled κ ε α σ) : Prop :=
  exec h (body e.call) e.before = (e.result, e.after)

/-- The calls that have ended ran one after the other, and the one that runs
is on its way. -/
structure Serial (first : σ) (q : Queue κ I ε α σ) : Prop where
  alone : ∀ e ∈ q.settled, RanAlone h body e
  linked : Linked first q.settled
    (match q.running with
      | some running => running.begun
      | none => q.state)
  underway : ∀ running ∈ q.running,
    exec h running.rest q.state = exec h (body running.call) running.begun

theorem serial_turn {first : σ} {q : Queue κ I ε α σ}
    (hq : Serial h body first q) (t : Turn κ) :
    Serial h body first (turn h body t q) := by
  obtain ⟨hAlone, hLinked, hUnderway⟩ := hq
  cases t with
  | issue call => exact ⟨hAlone, hLinked, hUnderway⟩
  | advance =>
      cases hRunning : q.running with
      | none =>
          cases hWaiting : q.waiting with
          | nil =>
              simp only [turn, hRunning, hWaiting]
              exact ⟨hAlone, hLinked, hUnderway⟩
          | cons call waiting =>
              simp only [hRunning] at hLinked
              simp only [turn, hRunning, hWaiting]
              refine ⟨hAlone, hLinked, ?_⟩
              rintro running ⟨⟩
              rfl
      | some running =>
          simp only [hRunning] at hLinked
          have hRest := hUnderway running (by rw [hRunning]; rfl)
          simp only [turn, hRunning]
          cases hProgram : running.rest with
          | done value =>
              rw [hProgram] at hRest
              refine ⟨fun e he => ?_, linked_append hLinked rfl, nofun⟩
              rcases List.mem_append.mp he with hOld | hNew
              · exact hAlone e hOld
              · cases List.mem_singleton.mp hNew
                exact hRest.symm
          | fail error =>
              rw [hProgram] at hRest
              refine ⟨fun e he => ?_, linked_append hLinked rfl, nofun⟩
              rcases List.mem_append.mp he with hOld | hNew
              · exact hAlone e hOld
              · cases List.mem_singleton.mp hNew
                exact hRest.symm
          | ask call next =>
              rw [hProgram] at hRest
              refine ⟨hAlone, hLinked, ?_⟩
              rintro running ⟨⟩
              exact hRest

/-- **Serialization**: every call that has ended ran alone, from the state in
which the one before ended. -/
theorem serial_run (turns : List (Turn κ)) (s : σ) :
    Serial h body s (run h body turns (start κ I ε α s)) := by
  have hRun : ∀ q : Queue κ I ε α σ, Serial h body s q →
      Serial h body s (run h body turns q) := by
    induction turns with
    | nil => exact fun q hq => hq
    | cons t turns ih => exact fun q hq => ih _ (serial_turn h body hq t)
  exact hRun _ ⟨nofun, rfl, nofun⟩

/-- **Invariants**: what holds along every call that begins where it holds,
holds at every point of a run. -/
theorem run_along (inv : σ → Prop)
    (hBody : ∀ call s, inv s → Along h inv (body call) s)
    (turns : List (Turn κ)) (s : σ) (hs : inv s) :
    inv (run h body turns (start κ I ε α s)).state := by
  have hRun : ∀ q : Queue κ I ε α σ,
      inv q.state ∧
        (∀ running ∈ q.running, Along h inv running.rest q.state) →
      inv (run h body turns q).state := by
    induction turns with
    | nil => exact fun q hq => hq.1
    | cons t turns ih =>
        intro q hq
        refine ih (turn h body t q) ?_
        obtain ⟨hState, hUnderway⟩ := hq
        cases t with
        | issue call => exact ⟨hState, hUnderway⟩
        | advance =>
            cases hRunning : q.running with
            | none =>
                cases hWaiting : q.waiting with
                | nil =>
                    simp only [turn, hRunning, hWaiting]
                    exact ⟨hState, nofun⟩
                | cons call waiting =>
                    simp only [turn, hRunning, hWaiting]
                    refine ⟨hState, ?_⟩
                    rintro running ⟨⟩
                    exact hBody call q.state hState
            | some running =>
                have hRest := hUnderway running (by rw [hRunning]; rfl)
                simp only [turn, hRunning]
                cases hProgram : running.rest with
                | done value => exact ⟨hState, nofun⟩
                | fail error => exact ⟨hState, nofun⟩
                | ask call next =>
                    rw [hProgram] at hRest
                    refine ⟨hRest.2.start, ?_⟩
                    rintro running ⟨⟩
                    exact hRest.2
  exact hRun _ ⟨hs, nofun⟩

end Runs

end OpenApe.Verified.SerialQueue
