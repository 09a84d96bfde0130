import OpenApe.Verified.Interleaving
import OpenApe.Verified.RelyGuarantee

/-!
# Jobs that run one after another

Every trigger makes a job that waits for the job triggered before it, and one
cell holds the last of them; when that one has ended, the cell is emptied.
Between any two steps the rest of the world may change the state.  `Chain`
says what the cell and the waiting come to: the jobs before one that has
started have ended, so two are never active at a time.

`sound_path` follows the active job by reliance and guarantee along a run,
and `post_of_quiet` a job that nothing interferes with.
-/

namespace OpenApe.Verified.SerialJobs

open Programs
open Interleaving (getElem?_set_cases)
open RelyGuarantee

variable {I : Interface} {ε α σ : Type}

/-- A job waits for another, runs, or has ended. -/
inductive Job (I : Interface) (ε α : Type) where
  | waiting (previous : Option Nat)
  | active (program : Program I ε α)
  | settled

/-- The jobs in the order of their triggers, and the cell with the last. -/
structure System (I : Interface) (ε α σ : Type) where
  world : σ
  running : Option Nat
  jobs : List (Job I ε α)

/-- What every job runs, and what there is around it. -/
structure Setting (I : Interface) (ε α σ : Type) where
  program : Program I ε α
  /-- What a job does to the state when it starts. -/
  enter : σ → σ
  /-- What others do. -/
  env : σ → σ → Prop
  answer : (call : I.Call) → σ → Except ε (I.Reply call) → σ → Prop

inductive Label (I : Interface) (ε : Type) where
  | trigger
  | start (i : Nat)
  | call (i : Nat) (call : I.Call) (reply : Except ε (I.Reply call))
  | settle (i : Nat)
  | cleanup (i : Nat)
  | other

def Ended : Program I ε α → Prop
  | .done _ => True
  | .fail _ => True
  | .ask _ _ => False

/-- One step of the system. -/
inductive Step (S : Setting I ε α σ) :
    System I ε α σ → Label I ε → System I ε α σ → Prop where
  | trigger (s : System I ε α σ) :
      Step S s .trigger
        { s with
          running := some s.jobs.length
          jobs := s.jobs ++ [.waiting s.running] }
  | start {s : System I ε α σ} {i : Nat} {previous : Option Nat}
      (hJob : s.jobs[i]? = some (.waiting previous))
      (hPrevious : ∀ p, previous = some p → s.jobs[p]? = some .settled) :
      Step S s (.start i)
        { s with
          world := S.enter s.world
          jobs := s.jobs.set i (.active S.program) }
  | call {s : System I ε α σ} {i : Nat} {call : I.Call}
      {next : Except ε (I.Reply call) → Program I ε α}
      {reply : Except ε (I.Reply call)} {world : σ}
      (hJob : s.jobs[i]? = some (.active (.ask call next)))
      (hAnswer : S.answer call s.world reply world) :
      Step S s (.call i call reply)
        { s with
          world := world
          jobs := s.jobs.set i (.active (next reply)) }
  | settle {s : System I ε α σ} {i : Nat} {p : Program I ε α}
      (hJob : s.jobs[i]? = some (.active p)) (hEnded : Ended p) :
      Step S s (.settle i) { s with jobs := s.jobs.set i .settled }
  | cleanup {s : System I ε α σ} {i : Nat}
      (hJob : s.jobs[i]? = some .settled) :
      Step S s (.cleanup i)
        { s with running := if s.running = some i then none else s.running }
  | other {s : System I ε α σ} {world : σ} (hEnv : S.env s.world world) :
      Step S s .other { s with world := world }

/-- A run whose steps all satisfy `ok`. -/
inductive Path (S : Setting I ε α σ) (ok : σ → Label I ε → Prop) :
    System I ε α σ → List (Label I ε) → System I ε α σ → Prop where
  | nil (s : System I ε α σ) : Path S ok s [] s
  | cons {s s' s'' : System I ε α σ} {label : Label I ε}
      {labels : List (Label I ε)} (hStep : Step S s label s')
      (hOk : ok s.world label) (hRest : Path S ok s' labels s'') :
      Path S ok s (label :: labels) s''

/-- A run cut in two. -/
theorem Path.split {S : Setting I ε α σ} {ok : σ → Label I ε → Prop}
    {s s'' : System I ε α σ} {first second : List (Label I ε)}
    (h : Path S ok s (first ++ second) s'') :
    ∃ s', Path S ok s first s' ∧ Path S ok s' second s'' := by
  induction first generalizing s with
  | nil => exact ⟨s, .nil s, h⟩
  | cons label first ih =>
      cases h with
      | cons hStep hOk hRest =>
          obtain ⟨s', hFirst, hSecond⟩ := ih hRest
          exact ⟨s', .cons hStep hOk hFirst, hSecond⟩

/-- What each step keeps is kept. -/
theorem Path.keeps {S : Setting I ε α σ} {ok : σ → Label I ε → Prop}
    {inv : System I ε α σ → Prop}
    (hStep : ∀ {s s' label}, Step S s label s' → ok s.world label → inv s →
      inv s')
    {s s' : System I ε α σ} {labels : List (Label I ε)}
    (h : Path S ok s labels s') (hs : inv s) : inv s' := by
  induction h with
  | nil s => exact hs
  | cons hFirst hOk _ ih => exact ih (hStep hFirst hOk hs)

/-- Nothing has been triggered. -/
def initial (world : σ) : System I ε α σ := ⟨world, none, []⟩

/-! ## One at a time -/

def SettledBelow (jobs : List (Job I ε α)) (n : Nat) : Prop :=
  ∀ j, j < n → jobs[j]? = some .settled

/-- The jobs before one that has started have ended; one that waits waits for
its predecessor, and the cell holds the last job until that has ended. -/
structure Chain (s : System I ε α σ) : Prop where
  waiting : ∀ i previous, s.jobs[i]? = some (.waiting previous) →
    match previous with
    | some p => p + 1 = i
    | none => SettledBelow s.jobs i
  active : ∀ i p, s.jobs[i]? = some (.active p) → SettledBelow s.jobs i
  settled : ∀ i, s.jobs[i]? = some .settled → SettledBelow s.jobs i
  running : match s.running with
    | some i => i + 1 = s.jobs.length
    | none => SettledBelow s.jobs s.jobs.length

theorem chain_initial (world : σ) :
    Chain (initial world : System I ε α σ) where
  waiting := fun i previous h => by simp [initial] at h
  active := fun i p h => by simp [initial] at h
  settled := fun i h => by simp [initial] at h
  running := fun j h => by simp [initial] at h

/-- When a job may start, the jobs before it have ended. -/
theorem Chain.settledBelow_of_start {s : System I ε α σ} (h : Chain s)
    {i : Nat} {previous : Option Nat}
    (hJob : s.jobs[i]? = some (.waiting previous))
    (hPrevious : ∀ p, previous = some p → s.jobs[p]? = some .settled) :
    SettledBelow s.jobs i := by
  have hWaiting := h.waiting i previous hJob
  cases previous with
  | none => exact hWaiting
  | some p =>
      have hSettled : s.jobs[p]? = some .settled := hPrevious p rfl
      intro j hj
      by_cases hLast : j = p
      · rw [hLast]
        exact hSettled
      · have hLess : j < p := by
          have hSucc : p + 1 = i := hWaiting
          omega
        exact h.settled p hSettled j hLess

/-- Two jobs are never active at a time. -/
theorem Chain.alone {s : System I ε α σ} (h : Chain s) {i j : Nat}
    {p q : Program I ε α} (hi : s.jobs[i]? = some (.active p))
    (hj : s.jobs[j]? = some (.active q)) : i = j := by
  rcases Nat.lt_trichotomy i j with hLess | hSame | hMore
  · have hEnded := h.active j q hj i hLess
    rw [hi] at hEnded
    cases hEnded
  · exact hSame
  · have hEnded := h.active i p hi j hMore
    rw [hj] at hEnded
    cases hEnded

/-- No job starts while one is active. -/
theorem Chain.not_start {s : System I ε α σ} (h : Chain s) {i j : Nat}
    {p : Program I ε α} (hi : s.jobs[i]? = some (.active p))
    {previous : Option Nat} (hJob : s.jobs[j]? = some (.waiting previous))
    (hPrevious : ∀ k, previous = some k → s.jobs[k]? = some .settled) :
    False := by
  rcases Nat.lt_trichotomy i j with hLess | hSame | hMore
  · have hEnded := h.settledBelow_of_start hJob hPrevious i hLess
    rw [hi] at hEnded
    cases hEnded
  · rw [hSame, hJob] at hi
    cases hi
  · have hEnded := h.active i p hi j hMore
    rw [hJob] at hEnded
    cases hEnded

/-- A job that has started or ended is replaced by another such. -/
theorem Chain.set {s : System I ε α σ} (h : Chain s) {i : Nat}
    (hBelow : SettledBelow s.jobs i) {job : Job I ε α}
    (hOpen : s.jobs[i]? ≠ some .settled)
    (hJob : ∀ previous, job ≠ .waiting previous) (world : σ) :
    Chain { s with world := world, jobs := s.jobs.set i job } := by
  -- what has ended stays ended: the job that changes had not
  have hKept : ∀ n, SettledBelow s.jobs n →
      SettledBelow (s.jobs.set i job) n := by
    intro n hn j hj
    have hEnded := hn j hj
    have hNe : i ≠ j := by
      intro hSame
      rw [hSame] at hOpen
      exact hOpen hEnded
    rw [List.getElem?_set_ne hNe]
    exact hEnded
  constructor
  · intro k previous hk
    rcases getElem?_set_cases hk with ⟨rfl, rfl⟩ | ⟨_, hk⟩
    · exact absurd rfl (hJob previous)
    · have hWaiting := h.waiting k previous hk
      cases previous with
      | some p => exact hWaiting
      | none => exact hKept k hWaiting
  · intro k p hk
    rcases getElem?_set_cases hk with ⟨rfl, _⟩ | ⟨_, hk⟩
    · exact hKept _ hBelow
    · exact hKept k (h.active k p hk)
  · intro k hk
    rcases getElem?_set_cases hk with ⟨rfl, _⟩ | ⟨_, hk⟩
    · exact hKept _ hBelow
    · exact hKept k (h.settled k hk)
  · have hRunning := h.running
    revert hRunning
    cases s.running with
    | some k => simp
    | none =>
        intro hAll
        rw [List.length_set]
        exact hKept _ hAll

/-- The jobs after a trigger: one of those before, or the new one. -/
theorem getElem?_append_job {jobs : List (Job I ε α)} {last job : Job I ε α}
    {i : Nat} (h : (jobs ++ [last])[i]? = some job) :
    jobs[i]? = some job ∨ i = jobs.length ∧ job = last := by
  rw [List.getElem?_append] at h
  split at h
  · exact .inl h
  · cases hAt : i - jobs.length with
    | zero =>
        rw [hAt] at h
        exact .inr ⟨by omega, (Option.some.inj h).symm⟩
    | succ k =>
        rw [hAt, List.getElem?_cons_succ] at h
        simp at h

/-- The last job waits for the one before it. -/
theorem Chain.trigger {s : System I ε α σ} (h : Chain s) :
    Chain
      { s with
        running := some s.jobs.length
        jobs := s.jobs ++ [.waiting s.running] } := by
  have hKept : ∀ n, SettledBelow s.jobs n →
      SettledBelow (s.jobs ++ [.waiting s.running]) n := by
    intro n hn j hj
    have hEnded := hn j hj
    have hLess : j < s.jobs.length :=
      (List.getElem?_eq_some_iff.mp hEnded).1
    rw [List.getElem?_append_left hLess]
    exact hEnded
  constructor
  · intro i previous hi
    rcases getElem?_append_job hi with hi | ⟨rfl, hLast⟩
    · have hWaiting := h.waiting i previous hi
      cases previous with
      | some p => exact hWaiting
      | none => exact hKept i hWaiting
    · obtain rfl : previous = s.running := Job.waiting.inj hLast
      have hRunning := h.running
      cases hLast' : s.running with
      | some p =>
          rw [hLast'] at hRunning
          exact hRunning
      | none =>
          rw [hLast'] at hRunning hKept
          exact hKept s.jobs.length hRunning
  · intro i p hi
    rcases getElem?_append_job hi with hi | ⟨_, hLast⟩
    · exact hKept i (h.active i p hi)
    · cases hLast
  · intro i hi
    rcases getElem?_append_job hi with hi | ⟨_, hLast⟩
    · exact hKept i (h.settled i hi)
    · cases hLast
  · simp

/-- When the last job has ended, all have. -/
theorem Chain.cleanup {s : System I ε α σ} (h : Chain s) {i : Nat}
    (hJob : s.jobs[i]? = some .settled) :
    Chain
      { s with running := if s.running = some i then none else s.running } := by
  refine ⟨h.waiting, h.active, h.settled, ?_⟩
  have hRunning := h.running
  by_cases hLast : s.running = some i
  · rw [if_pos hLast]
    rw [hLast] at hRunning
    have hLength : i + 1 = s.jobs.length := hRunning
    intro j hj
    by_cases hSame : j = i
    · rw [hSame]
      exact hJob
    · have hLess : j < i := by
        have hj' : j < s.jobs.length := hj
        omega
      exact h.settled i hJob j hLess
  · rw [if_neg hLast]
    exact hRunning

/-- **One at a time**: what each step keeps of the jobs. -/
theorem chain_step {S : Setting I ε α σ} {s s' : System I ε α σ}
    {label : Label I ε} (hStep : Step S s label s') (h : Chain s) :
    Chain s' := by
  cases hStep with
  | trigger => exact h.trigger
  | start hJob hPrevious =>
      refine h.set (h.settledBelow_of_start hJob hPrevious) ?_ ?_ _
      · rw [hJob]
        simp
      · simp
  | call hJob hAnswer =>
      refine h.set (h.active _ _ hJob) ?_ ?_ _
      · rw [hJob]
        simp
      · simp
  | settle hJob hEnded =>
      refine h.set (h.active _ _ hJob) ?_ ?_ s.world
      · rw [hJob]
        simp
      · simp
  | cleanup hJob => exact h.cleanup hJob
  | other hEnv => exact ⟨h.waiting, h.active, h.settled, h.running⟩

/-! ## Every run -/

/-- What is needed of a program and a condition on steps, that every run
keeps an invariant and every call the guarantee. -/
structure Discipline (S : Setting I ε α σ) (ok : σ → Label I ε → Prop)
    (R : Rules I ε σ) (inv : σ → Prop) : Prop where
  env : ∀ {w w'}, S.env w w' → ok w .other → R.rely w w'
  answer : ∀ {i call w reply w'}, S.answer call w reply w' →
    ok w (.call i call reply) → R.answer call w reply w'
  program : ∀ {w}, inv w → Safe R (fun _ _ => True) S.program (S.enter w)
  enter : ∀ {w}, inv w → inv (S.enter w)
  rely : ∀ {w w'}, R.rely w w' → inv w → inv w'
  guarantee : ∀ {call w reply w'}, R.guarantee call w reply w' → inv w →
    inv w'

/-- The jobs form a chain, the world keeps its invariant, and what is left of
the active job is safe. -/
structure Sound (R : Rules I ε σ) (inv : σ → Prop) (s : System I ε α σ) :
    Prop where
  chain : Chain s
  world : inv s.world
  active : ∀ (i : Nat) (p : Program I ε α), s.jobs[i]? = some (.active p) →
    Safe R (fun _ _ => True) p s.world

section Runs

variable {S : Setting I ε α σ} {ok : σ → Label I ε → Prop} {R : Rules I ε σ}
  {inv : σ → Prop}

theorem sound_initial {world : σ} (h : inv world) :
    Sound R inv (initial world : System I ε α σ) where
  chain := chain_initial world
  world := h
  active := fun i p hi => by simp [initial] at hi

/-- A call of the active job is answered within the guarantee. -/
theorem Sound.call (hD : Discipline S ok R inv) {s s' : System I ε α σ}
    (h : Sound R inv s) {i : Nat} {call : I.Call}
    {reply : Except ε (I.Reply call)}
    (hStep : Step S s (.call i call reply) s')
    (hOk : ok s.world (.call i call reply)) :
    R.guarantee call s.world reply s'.world ∧
      ∃ next : Program I ε α, s'.jobs = s.jobs.set i (.active next) ∧
        Safe R (fun _ _ => True) next s'.world := by
  cases hStep with
  | call hJob hAnswer =>
      have hSafe := h.active i _ hJob s.world (R.rely_refl _) reply _
        (hD.answer hAnswer hOk)
      exact ⟨hSafe.1, _, rfl, hSafe.2⟩

/-- What a step keeps of a sound system. -/
theorem sound_step (hD : Discipline S ok R inv) {s s' : System I ε α σ}
    {label : Label I ε} (hStep : Step S s label s') (hOk : ok s.world label)
    (h : Sound R inv s) : Sound R inv s' := by
  refine ⟨chain_step hStep h.chain, ?_, ?_⟩
  · cases hStep with
    | trigger => exact h.world
    | start hJob hPrevious => exact hD.enter h.world
    | call hJob hAnswer =>
        exact hD.guarantee (h.call hD (.call hJob hAnswer) hOk).1 h.world
    | settle hJob hEnded => exact h.world
    | cleanup hJob => exact h.world
    | other hEnv => exact hD.rely (hD.env hEnv hOk) h.world
  · intro k p hk
    cases hStep with
    | trigger =>
        rcases getElem?_append_job hk with hk | ⟨_, hNew⟩
        · exact h.active k p hk
        · cases hNew
    | start hJob hPrevious =>
        rcases getElem?_set_cases hk with ⟨_, hNew⟩ | ⟨_, hk⟩
        · obtain rfl : p = S.program := Job.active.inj hNew
          exact hD.program h.world
        · exact (h.chain.not_start hk hJob hPrevious).elim
    | call hJob hAnswer =>
        rcases getElem?_set_cases hk with ⟨rfl, hNew⟩ | ⟨hNe, hk⟩
        · obtain rfl := Job.active.inj hNew
          exact (h.active _ _ hJob s.world (R.rely_refl _) _ _
            (hD.answer hAnswer hOk)).2
        · exact absurd (h.chain.alone hk hJob) hNe
    | settle hJob hEnded =>
        rcases getElem?_set_cases hk with ⟨_, hNew⟩ | ⟨_, hk⟩
        · cases hNew
        · exact h.active k p hk
    | cleanup hJob => exact h.active k p hk
    | other hEnv => exact (h.active k p hk).later (hD.env hEnv hOk)

/-- **Along every run** the system stays sound. -/
theorem sound_path (hD : Discipline S ok R inv) {s s' : System I ε α σ}
    {labels : List (Label I ε)} (hPath : Path S ok s labels s')
    (h : Sound R inv s) : Sound R inv s' :=
  hPath.keeps (fun hStep hOk hs => sound_step hD hStep hOk hs) h

end Runs

/-! ## A job left alone -/

/-- What is left of a job is safe, or it has ended. -/
structure Quiet (R : Rules I ε σ) (post : Except ε α → σ → Prop) (i : Nat)
    (s : System I ε α σ) : Prop where
  chain : Chain s
  job : (∃ p, s.jobs[i]? = some (.active p) ∧ Safe R post p s.world) ∨
    s.jobs[i]? = some .settled

section Alone

variable {S : Setting I ε α σ} {ok : σ → Label I ε → Prop}
  {R : Rules I ε σ} {post : Except ε α → σ → Prop}

/-- While a job is active only its own calls change the world. -/
theorem quiet_step
    (hAnswer : ∀ {i call w reply w'}, S.answer call w reply w' →
      ok w (.call i call reply) → R.answer call w reply w')
    (hOther : ∀ w, ¬ok w .other) {i : Nat} {s s' : System I ε α σ}
    {label : Label I ε} (hStep : Step S s label s') (hOk : ok s.world label)
    (h : Quiet R post i s) : Quiet R post i s' := by
  refine ⟨chain_step hStep h.chain, ?_⟩
  have hChain := h.chain
  rcases h.job with ⟨p, hp, hSafe⟩ | hEnd
  · cases hStep with
    | trigger =>
        refine .inl ⟨p, ?_, hSafe⟩
        rw [List.getElem?_append_left (List.getElem?_eq_some_iff.mp hp).1]
        exact hp
    | start hJob hPrevious => exact (hChain.not_start hp hJob hPrevious).elim
    | call hJob hReply =>
        obtain rfl := hChain.alone hp hJob
        rw [hJob] at hp
        obtain rfl := Job.active.inj (Option.some.inj hp)
        refine .inl ⟨_, ?_, (hSafe _ (R.rely_refl _) _ _
          (hAnswer hReply hOk)).2⟩
        exact List.getElem?_set_self (List.getElem?_eq_some_iff.mp hJob).1
    | settle hJob hEnded =>
        obtain rfl := hChain.alone hp hJob
        exact .inr
          (List.getElem?_set_self (List.getElem?_eq_some_iff.mp hJob).1)
    | cleanup hJob => exact .inl ⟨p, hp, hSafe⟩
    | other hEnv => exact absurd hOk (hOther _)
  · refine .inr ?_
    cases hStep with
    | trigger =>
        rw [List.getElem?_append_left (List.getElem?_eq_some_iff.mp hEnd).1]
        exact hEnd
    | @start k previous hJob hPrevious =>
        have hNe : k ≠ i := by
          intro hSame
          rw [hSame, hEnd] at hJob
          cases hJob
        rw [List.getElem?_set_ne hNe]
        exact hEnd
    | @call k call next reply world hJob hReply =>
        have hNe : k ≠ i := by
          intro hSame
          rw [hSame, hEnd] at hJob
          cases hJob
        rw [List.getElem?_set_ne hNe]
        exact hEnd
    | @settle k p hJob hEnded =>
        have hNe : k ≠ i := by
          intro hSame
          rw [hSame, hEnd] at hJob
          cases hJob
        rw [List.getElem?_set_ne hNe]
        exact hEnd
    | cleanup hJob => exact hEnd
    | other hEnv => exact absurd hOk (hOther _)

/-- **A job left alone** from its start to its end reaches its
postcondition. -/
theorem post_of_quiet
    (hAnswer : ∀ {i call w reply w'}, S.answer call w reply w' →
      ok w (.call i call reply) → R.answer call w reply w')
    (hOther : ∀ w, ¬ok w .other) {i : Nat} {s s' : System I ε α σ}
    {labels : List (Label I ε)} (hChain : Chain s)
    (hSafe : Safe R post S.program (S.enter s.world))
    (hPath : Path S ok s (.start i :: labels ++ [.settle i]) s') :
    ∃ result, post result s'.world := by
  cases hPath with
  | cons hStart hOk hRest =>
      obtain ⟨s₂, hMiddle, hLast⟩ := hRest.split
      cases hStart with
      | start hJob hPrevious =>
          have hLength := (List.getElem?_eq_some_iff.mp hJob).1
          have hBegin : Quiet R post i _ :=
            ⟨chain_step (.start hJob hPrevious) hChain,
              .inl ⟨S.program, List.getElem?_set_self hLength, hSafe⟩⟩
          have hEnd : Quiet R post i s₂ :=
            hMiddle.keeps (quiet_step hAnswer hOther) hBegin
          cases hLast with
          | cons hSettle hOk hNil =>
              cases hNil with
              | nil =>
                  cases hSettle with
                  | @settle _ p hJob' hEnded =>
                      rcases hEnd.job with ⟨q, hq, hSafe'⟩ | hSettled
                      · rw [hJob'] at hq
                        obtain rfl := Job.active.inj (Option.some.inj hq)
                        cases p with
                        | done value => exact ⟨_, hSafe'.post_of_done⟩
                        | fail error => exact ⟨_, hSafe'.post_of_fail⟩
                        | ask call next => exact hEnded.elim
                      · rw [hJob'] at hSettled
                        cases hSettled

end Alone

end OpenApe.Verified.SerialJobs
