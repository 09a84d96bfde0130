import OpenApe.Verified.Programs

/-!
# Interleaved programs

A pool is a list of programs over one shared state.  A schedule names, turn
by turn, the program that makes its next call; a turn of a program that has
ended changes nothing.  `trace` records every call with its reply and the
states around it, so a property of a run can speak of what a call did.

An invariant of the calls is an invariant of the run, and an event that can
only happen outside an invariant it establishes happens at most once.
-/

namespace OpenApe.Verified.Interleaving

open Programs Programs.Program

variable {I : Interface} {ε α σ : Type}

/-- Programs that share a state. -/
structure Pool (I : Interface) (ε α σ : Type) where
  threads : List (Program I ε α)
  state : σ

/-- One executed call: its reply, and the state before and after. -/
structure Event (I : Interface) (ε σ : Type) where
  call : I.Call
  reply : Except ε (I.Reply call)
  before : σ
  after : σ

/-- The event of a call in a state. -/
def eventOf (h : Handler I ε σ) (call : I.Call) (s : σ) : Event I ε σ :=
  ⟨call, (h call s).1, s, (h call s).2⟩

/-- The turn of one thread. -/
def turn (h : Handler I ε σ) (i : Nat) (pool : Pool I ε α σ) :
    Pool I ε α σ × Option (Event I ε σ) :=
  match pool.threads[i]? with
  | some (.ask call next) =>
      (⟨pool.threads.set i (next (h call pool.state).1),
        (h call pool.state).2⟩,
        some (eventOf h call pool.state))
  | _ => (pool, none)

/-- The pool after a schedule. -/
def run (h : Handler I ε σ) : List Nat → Pool I ε α σ → Pool I ε α σ
  | [], pool => pool
  | i :: schedule, pool => run h schedule (turn h i pool).1

/-- The events of a schedule, in order. -/
def trace (h : Handler I ε σ) :
    List Nat → Pool I ε α σ → List (Event I ε σ)
  | [], _ => []
  | i :: schedule, pool =>
      (turn h i pool).2.toList ++ trace h schedule (turn h i pool).1

theorem run_append (h : Handler I ε σ) (first second : List Nat)
    (pool : Pool I ε α σ) :
    run h (first ++ second) pool = run h second (run h first pool) := by
  induction first generalizing pool with
  | nil => rfl
  | cons i first ih => exact ih _

theorem trace_append (h : Handler I ε σ) (first second : List Nat)
    (pool : Pool I ε α σ) :
    trace h (first ++ second) pool =
      trace h first pool ++ trace h second (run h first pool) := by
  induction first generalizing pool with
  | nil => rfl
  | cons i first ih =>
      simp only [List.cons_append, trace, run, ih, List.append_assoc]

/-- Every thread of the pool only makes calls that satisfy `P`. -/
def PoolAsks (P : I.Call → Prop) (pool : Pool I ε α σ) : Prop :=
  ∀ thread ∈ pool.threads, Asks P thread

/-- What a turn does: nothing, or one call of a thread of the pool. -/
theorem turn_cases (h : Handler I ε σ) {P : I.Call → Prop} (i : Nat)
    {pool : Pool I ε α σ} (hPool : PoolAsks P pool) :
    turn h i pool = (pool, none) ∨
      ∃ call threads, P call ∧
        turn h i pool = (⟨threads, (h call pool.state).2⟩,
          some (eventOf h call pool.state)) ∧
        PoolAsks P (⟨threads, (h call pool.state).2⟩ : Pool I ε α σ) := by
  unfold turn
  split
  · rename_i call next hThread
    obtain ⟨hCall, hNext⟩ :=
      hPool _ (List.mem_of_getElem? hThread)
    refine .inr ⟨call, _, hCall, rfl, ?_⟩
    intro thread hMem
    rcases List.mem_or_eq_of_mem_set hMem with hMem | rfl
    · exact hPool thread hMem
    · exact hNext _
  · exact .inl rfl

/-- A thread after one thread was replaced: the new one, or another. -/
theorem getElem?_set_cases {τ : Type} {threads : List τ} {i j : Nat}
    {thread thread' : τ} (h : (threads.set i thread)[j]? = some thread') :
    (j = i ∧ thread' = thread) ∨ (j ≠ i ∧ threads[j]? = some thread') := by
  rw [List.getElem?_set] at h
  split at h
  · rename_i hSame
    split at h
    · exact .inl ⟨hSame.symm, (Option.some.inj h).symm⟩
    · cases h
  · rename_i hNe
    exact .inr ⟨fun hSame => hNe hSame.symm, h⟩

/-- The turn of a thread is its step. -/
theorem turn_of_getElem? (h : Handler I ε σ) {i : Nat}
    {pool : Pool I ε α σ} {thread : Program I ε α}
    (hThread : pool.threads[i]? = some thread) :
    (turn h i pool).1 =
      ⟨pool.threads.set i (step h thread pool.state).1,
        (step h thread pool.state).2⟩ := by
  have hSame : pool.threads.set i thread = pool.threads := by
    obtain ⟨hLength, rfl⟩ := List.getElem?_eq_some_iff.mp hThread
    exact List.set_getElem_self hLength
  unfold turn
  rw [hThread]
  cases thread with
  | done value => exact congrArg (Pool.mk · pool.state) hSame.symm
  | fail error => exact congrArg (Pool.mk · pool.state) hSame.symm
  | ask call next => rfl

theorem turn_of_getElem?_none (h : Handler I ε σ) {i : Nat}
    {pool : Pool I ε α σ} (hThread : pool.threads[i]? = none) :
    (turn h i pool).1 = pool := by
  unfold turn
  rw [hThread]

/-- What a turn does to the thread it names: nothing, or its next call. -/
theorem turn_thread (h : Handler I ε σ) (i : Nat) (pool : Pool I ε α σ) :
    turn h i pool = (pool, none) ∨
      ∃ call next, pool.threads[i]? = some (.ask call next) ∧
        turn h i pool =
          (⟨pool.threads.set i (next (h call pool.state).1),
            (h call pool.state).2⟩, some (eventOf h call pool.state)) := by
  unfold turn
  split
  · rename_i call next hThread
    exact .inr ⟨call, next, hThread, rfl⟩
  · exact .inl rfl

/-- The event of a turn is that of a call in the state of the pool. -/
theorem turn_event {h : Handler I ε σ} {i : Nat} {pool : Pool I ε α σ}
    {event : Event I ε σ} (hEvent : (turn h i pool).2 = some event) :
    event = eventOf h event.call pool.state ∧
      (turn h i pool).1.state = event.after := by
  unfold turn at hEvent ⊢
  split at hEvent
  · obtain rfl := Option.some.inj hEvent
    exact ⟨rfl, rfl⟩
  · cases hEvent

/-- Every event of a run is the turn of some thread after a beginning of the
schedule. -/
theorem exists_turn_of_mem_trace {h : Handler I ε σ} {event : Event I ε σ}
    {schedule : List Nat} {pool : Pool I ε α σ}
    (hEvent : event ∈ trace h schedule pool) :
    ∃ early i late, schedule = early ++ i :: late ∧
      (turn h i (run h early pool)).2 = some event := by
  induction schedule generalizing pool with
  | nil => cases hEvent
  | cons i schedule ih =>
      rcases List.mem_append.mp hEvent with hTurn | hLater
      · exact ⟨[], i, schedule, rfl, Option.mem_toList.mp hTurn⟩
      · obtain ⟨early, j, late, rfl, hTurn⟩ := ih hLater
        exact ⟨i :: early, j, late, rfl, hTurn⟩

/-! ## Rules -/

/-- **The rely-guarantee rule**: where every allowed call of the threads keeps
the invariant and is answered as the threads rely on, the invariant holds
along every run whose events are all allowed. -/
theorem run_guarantees {h : Handler I ε σ}
    {rely : (call : I.Call) → Except ε (I.Reply call) → Prop}
    {calls : I.Call → Prop} {returns : α → Prop}
    (allowed : Event I ε σ → Prop) (inv : σ → Prop)
    (hCall : ∀ call s, calls call → allowed (eventOf h call s) → inv s →
      rely call (h call s).1 ∧ inv (h call s).2)
    {schedule : List Nat} {pool : Pool I ε α σ}
    (hPool : ∀ thread ∈ pool.threads, Guarantees rely calls returns thread)
    (hAllowed : ∀ event ∈ trace h schedule pool, allowed event)
    (hInv : inv pool.state) : inv (run h schedule pool).state := by
  induction schedule generalizing pool with
  | nil => exact hInv
  | cons i schedule ih =>
      rcases turn_thread h i pool with hTurn | ⟨call, next, hThread, hTurn⟩
      · simp only [trace, run, hTurn] at hAllowed ⊢
        exact ih hPool (by simpa using hAllowed) hInv
      · simp only [trace, run, hTurn, Option.toList_some,
          List.singleton_append, List.mem_cons, forall_eq_or_imp]
          at hAllowed ⊢
        obtain ⟨hGuarantee, hNext⟩ :=
          hPool _ (List.mem_of_getElem? hThread)
        obtain ⟨hRely, hKept⟩ :=
          hCall call pool.state hGuarantee hAllowed.1 hInv
        refine ih (fun thread hMem => ?_) hAllowed.2 hKept
        rcases List.mem_or_eq_of_mem_set hMem with hOld | rfl
        · exact hPool thread hOld
        · exact hNext _ hRely

/-- **The invariant rule**: a property of the state that every allowed call
of the pool keeps is kept by every run whose events are all allowed. -/
theorem run_preserves {h : Handler I ε σ} {P : I.Call → Prop}
    (allowed : Event I ε σ → Prop) (inv : σ → Prop)
    (hCall : ∀ call s, P call → allowed (eventOf h call s) → inv s →
      inv (h call s).2)
    {schedule : List Nat} {pool : Pool I ε α σ} (hPool : PoolAsks P pool)
    (hAllowed : ∀ event ∈ trace h schedule pool, allowed event)
    (hInv : inv pool.state) : inv (run h schedule pool).state :=
  run_guarantees allowed inv
    (fun call s hP hEvent hs => ⟨trivial, hCall call s hP hEvent hs⟩)
    (fun thread hThread => guarantees_of_asks (hPool thread hThread))
    hAllowed hInv

/-- The threads of a pool keep to their calls along a run. -/
theorem poolAsks_run {h : Handler I ε σ} {P : I.Call → Prop}
    (schedule : List Nat) {pool : Pool I ε α σ} (hPool : PoolAsks P pool) :
    PoolAsks P (run h schedule pool) := by
  induction schedule generalizing pool with
  | nil => exact hPool
  | cons i schedule ih =>
      rcases turn_cases h i hPool with hTurn | ⟨call, threads, _, hTurn, hNext⟩
      · simpa only [run, hTurn] using ih hPool
      · simpa only [run, hTurn] using ih hNext

/-- Every event of a run starts in a state that satisfies the invariants of
the calls. -/
theorem inv_before_of_mem_trace {h : Handler I ε σ} {P : I.Call → Prop}
    (inv : σ → Prop) (hCall : ∀ call s, P call → inv s → inv (h call s).2)
    {schedule : List Nat} {pool : Pool I ε α σ} (hPool : PoolAsks P pool)
    (hInv : inv pool.state) {event : Event I ε σ}
    (hEvent : event ∈ trace h schedule pool) : inv event.before := by
  obtain ⟨early, i, late, rfl, hTurn⟩ := exists_turn_of_mem_trace hEvent
  rw [(turn_event hTurn).1]
  exact run_preserves (fun _ => True) inv
    (fun call s hP _ hs => hCall call s hP hs) hPool (fun _ _ => trivial) hInv

/-- Where an invariant excludes an event, a run from it has none. -/
theorem filter_trace_eq_nil {h : Handler I ε σ} {P : I.Call → Prop}
    (allowed : Event I ε σ → Prop) (inv : σ → Prop)
    {hit : Event I ε σ → Bool}
    (hCall : ∀ call s, P call → allowed (eventOf h call s) → inv s →
      inv (h call s).2)
    (hExcluded : ∀ call s, inv s → hit (eventOf h call s) = false)
    {schedule : List Nat} {pool : Pool I ε α σ} (hPool : PoolAsks P pool)
    (hAllowed : ∀ event ∈ trace h schedule pool, allowed event)
    (hInv : inv pool.state) : (trace h schedule pool).filter hit = [] := by
  rw [List.filter_eq_nil_iff]
  intro event hEvent
  obtain ⟨early, i, late, rfl, hTurn⟩ := exists_turn_of_mem_trace hEvent
  have hBefore : inv (run h early pool).state := by
    refine run_preserves allowed inv hCall hPool (fun e he => ?_) hInv
    exact hAllowed e (trace_append h early _ pool ▸ List.mem_append_left _ he)
  rw [(turn_event hTurn).1, hExcluded _ _ hBefore]
  exact Bool.false_ne_true

/-- **At most once**: an event that establishes an invariant which excludes
it happens at most once in a run. -/
theorem filter_trace_length_le_one {h : Handler I ε σ}
    {P : I.Call → Prop} (allowed : Event I ε σ → Prop) (inv : σ → Prop)
    {hit : Event I ε σ → Bool}
    (hCall : ∀ call s, P call → allowed (eventOf h call s) → inv s →
      inv (h call s).2)
    (hExcluded : ∀ call s, inv s → hit (eventOf h call s) = false)
    (hHit : ∀ call s, hit (eventOf h call s) = true → inv (h call s).2)
    {schedule : List Nat} {pool : Pool I ε α σ} (hPool : PoolAsks P pool)
    (hAllowed : ∀ event ∈ trace h schedule pool, allowed event) :
    ((trace h schedule pool).filter hit).length ≤ 1 := by
  induction schedule generalizing pool with
  | nil => simp [trace]
  | cons i schedule ih =>
      rcases turn_cases h i hPool with hTurn | ⟨call, threads, hP, hTurn, hNext⟩
      · simp only [trace, hTurn] at hAllowed ⊢
        exact ih hPool (by simpa using hAllowed)
      · simp only [trace, hTurn, Option.toList_some, List.cons_append,
          List.nil_append, List.mem_cons, forall_eq_or_imp] at hAllowed ⊢
        by_cases hEvent : hit (eventOf h call pool.state) = true
        · rw [List.filter_cons_of_pos hEvent,
            filter_trace_eq_nil allowed inv hCall hExcluded hNext hAllowed.2
              (hHit call pool.state hEvent)]
          simp
        · rw [List.filter_cons_of_neg hEvent]
          exact ih hNext hAllowed.2

/-! ## Monitored runs -/

section Monitor

variable {M : Type}

/-- A monitor reads the events of a run one by one and stops at an event it
does not allow. -/
def Accepts (step : M → Event I ε σ → Option M) (m : M)
    (events : List (Event I ε σ)) : Prop :=
  (events.foldlM step m).isSome = true

instance (step : M → Event I ε σ → Option M) (m : M)
    (events : List (Event I ε σ)) : Decidable (Accepts step m events) :=
  inferInstanceAs (Decidable (_ = true))

theorem accepts_cons {step : M → Event I ε σ → Option M} {m : M}
    {event : Event I ε σ} {events : List (Event I ε σ)} :
    Accepts step m (event :: events) ↔
      ∃ m', step m event = some m' ∧ Accepts step m' events := by
  simp only [Accepts, List.foldlM_cons]
  cases step m event with
  | none => simp
  | some m' => simp

/-- **The monitored rule**: what every allowed call of a thread keeps, between
the pool and the monitor, holds at the end of a run the monitor accepts. -/
theorem run_monitored {h : Handler I ε σ}
    (step : M → Event I ε σ → Option M) (inv : M → Pool I ε α σ → Prop)
    (hTurn : ∀ m m' i (pool : Pool I ε α σ) call next,
      pool.threads[i]? = some (.ask call next) →
      step m (eventOf h call pool.state) = some m' → inv m pool →
      inv m' ⟨pool.threads.set i (next (h call pool.state).1),
        (h call pool.state).2⟩)
    {schedule : List Nat} {m : M} {pool : Pool I ε α σ}
    (hAccepts : Accepts step m (trace h schedule pool))
    (hInv : inv m pool) : ∃ m', inv m' (run h schedule pool) := by
  induction schedule generalizing m pool with
  | nil => exact ⟨m, hInv⟩
  | cons i schedule ih =>
      rcases turn_thread h i pool with hTurnEq | ⟨call, next, hThread, hTurnEq⟩
      · simp only [trace, run, hTurnEq] at hAccepts ⊢
        exact ih hAccepts hInv
      · simp only [trace, run, hTurnEq, Option.toList_some,
          List.singleton_append, accepts_cons] at hAccepts ⊢
        obtain ⟨m', hStep, hRest⟩ := hAccepts
        exact ih hRest (hTurn m m' i pool call next hThread hStep hInv)

end Monitor

end OpenApe.Verified.Interleaving
