import OpenApe.Ports.WorkspaceStore
import OpenApe.Verified.Machine

/-!
# Runs of the workspace store

The calls of `WorkspaceStore` as the turns of a machine, and what each of
them has done when it returned.  Every call is atomic: one that throws leaves
all tables as they were (`atomic_perform`).
-/

namespace OpenApe.Ports.WorkspaceRuns

open Verified.Fallible Verified.JsText Verified.Json Verified.KeyedTable
  Verified.Machine Verified.Transactions Verified.Transactions.Action
open CentralValues CentralCommands CentralParts WorkspaceStore

/-! ## The machine -/

/-- A call with its arguments; `begin` carries the lease it draws. -/
inductive WorkspaceCall where
  | begin (lease : JsString) (actor : WorkspaceActor)
  | heartbeat (actor : WorkspaceActor) (lease hash : JsString)
  | disconnect (actor : WorkspaceActor) (lease : JsString)
  | stage (actor : WorkspaceActor) (lease : JsString)
      (entries : List (JsString × JsonValue))
  | putArtifact (actor : WorkspaceActor) (lease podId hash : JsString)
      (content : List UInt8)
  | publishParts (actor : WorkspaceActor) (lease id : JsString)
      (expected : JsonNumber) (changes : List (JsString × Option JsString))
      (hash : JsString) (completion : Option Completion)
  | submit (owner : Owner) (runtimeId : JsString) (revision : JsonNumber)
      (command : Unknown) (id : JsString) (trustedRuntime : Bool)
  | submitDecision (owner : Owner) (runtimeId : JsString) (command : Unknown)
      (id : JsString)
  | claim (actor : WorkspaceActor) (lease : JsString)

/-- A call at its readings of the clock. -/
structure Turn where
  call : WorkspaceCall
  now : Clock

inductive Answer where
  | begun (answer : BeginAnswer)
  | done
  | published (answer : PublishAnswer)
  | submitted (operation : CentralOperation)
  | claimed (operation : Option CentralOperation)

/-- A call with its result read as an answer. -/
def answering {α : Type} (f : α → Answer) (call : Call α) : Call Answer :=
  call >>= fun a => pure (f a)

def perform (runtime : WorkspaceRuntime) (turn : Turn) : Call Answer :=
  match turn.call with
  | .begin lease actor => answering .begun (begin turn.now lease actor)
  | .heartbeat actor lease hash =>
      answering (fun _ => .done) (heartbeat turn.now actor lease hash)
  | .disconnect actor lease =>
      answering (fun _ => .done) (disconnect turn.now actor lease)
  | .stage actor lease entries =>
      answering (fun _ => .done) (stage runtime actor lease entries)
  | .putArtifact actor lease podId hash content =>
      answering (fun _ => .done)
        (putArtifact runtime actor lease podId hash content)
  | .publishParts actor lease id expected changes hash completion =>
      answering .published (publishParts runtime turn.now actor lease id
        expected changes hash completion)
  | .submit owner runtimeId revision command id trustedRuntime =>
      answering .submitted (submit runtime turn.now owner runtimeId revision
        command id trustedRuntime)
  | .submitDecision owner runtimeId command id =>
      answering .submitted
        (submitDecision runtime turn.now owner runtimeId command id)
  | .claim actor lease => answering .claimed (claim turn.now actor lease)

/-- The store as a machine: a turn is one call. -/
def workspace (runtime : WorkspaceRuntime) :
    Machine Db Turn (Except WorkspaceError Answer) :=
  fun turn db => perform runtime turn db

theorem returns_answering {α : Type} {f : α → Answer} {call : Call α}
    {db db' : Db} {answer : Answer} :
    Returns (answering f call) db answer db' ↔
      ∃ a, Returns call db a db' ∧ answer = f a := by
  simp [answering]

/-! ## Atomicity -/

theorem atomic_answering {α : Type} {f : α → Answer} {call : Call α}
    (h : Atomic call) : Atomic (answering f call) := h.map f

theorem total_changed (row : RuntimeRow) (now : Int) :
    Total (changed row now) := total_write _

theorem total_changedUnless (b : Bool) (row : RuntimeRow) (now : Int) :
    Total (changedUnless b row now) := by
  unfold changedUnless
  split
  · exact total_pure ()
  · exact total_changed row now

theorem atomic_enqueue (runtime : PartsRuntime) (now : Clock) (owner : Owner)
    (runtimeId : JsString) (revision : JsonNumber) (command : CentralCommand)
    (id : JsString) (trustedRuntime : Bool) :
    Atomic (enqueue runtime now owner runtimeId revision command id
      trustedRuntime) :=
  atomic_check_bind fun _ => atomic_transaction _

/-- **A call that throws leaves all tables as they were.** -/
theorem atomic_perform (runtime : WorkspaceRuntime) (turn : Turn) :
    Atomic (perform runtime turn) := by
  unfold perform
  cases turn.call with
  | begin lease actor => exact atomic_answering (atomic_transaction _)
  | heartbeat actor lease hash =>
      refine atomic_answering ?_
      exact atomic_query_bind fun _ => atomic_query_bind fun _ =>
        (total_bind (total_write _) fun _ =>
          total_changedUnless _ _ _).atomic
  | disconnect actor lease =>
      refine atomic_answering ?_
      exact atomic_query_bind fun _ =>
        (total_bind (total_write _) fun _ => total_changed _ _).atomic
  | stage actor lease entries =>
      refine atomic_answering ?_
      exact atomic_query_bind fun _ => atomic_check_bind fun _ =>
        atomic_transaction _
  | putArtifact actor lease podId hash content =>
      refine atomic_answering ?_
      exact atomic_query_bind fun _ => atomic_check_bind fun _ =>
        atomic_check_bind fun _ => atomic_check_bind fun _ =>
          (total_write _).atomic
  | publishParts actor lease id expected changes hash completion =>
      exact atomic_answering (atomic_check_bind fun _ => atomic_transaction _)
  | submit owner runtimeId revision command id trustedRuntime =>
      exact atomic_answering (atomic_check_bind fun _ =>
        atomic_enqueue _ _ _ _ _ _ _ _)
  | submitDecision owner runtimeId command id =>
      refine atomic_answering (atomic_check_bind fun _ =>
        atomic_check_bind fun _ => atomic_query_bind fun prior => ?_)
      cases prior with
      | none =>
          exact atomic_query_bind fun _ => atomic_enqueue _ _ _ _ _ _ _ _
      | some prior =>
          intro db e db' hThrow
          exact (Prod.mk.inj hThrow).2.symm
  | claim actor lease => exact atomic_answering (atomic_transaction _)

/-- A turn returned, or it threw and changed nothing. -/
theorem outcome (runtime : WorkspaceRuntime) (turn : Turn) (db : Db) :
    (∃ answer db', Returns (perform runtime turn) db answer db' ∧
      workspace runtime turn db = (.ok answer, db')) ∨
      ∃ e, workspace runtime turn db = (.error e, db) :=
  (atomic_perform runtime turn).outcome db

/-- A relation that every store has to itself and every returned call
establishes holds around each turn. -/
theorem turn_rel {runtime : WorkspaceRuntime} {R : Db → Db → Prop}
    (hRefl : ∀ db, R db db)
    (hReturn : ∀ turn db answer db',
      Returns (perform runtime turn) db answer db' → R db db')
    (turn : Turn) (db : Db) : R db (workspace runtime turn db).2 := by
  rcases outcome runtime turn db with ⟨answer, db', hReturns, hRun⟩ |
    ⟨e, hRun⟩
  · rw [hRun]
    exact hReturn turn db answer db' hReturns
  · rw [hRun]
    exact hRefl db

/-! ## The rows of runtimes -/

theorem row_eq_ok {db : Db} {owner : Owner} {id : JsString}
    {found : RuntimeRow} :
    row db owner id = .ok found ↔
      isUuid id = true ∧ db.runtimes.find? id = some found ∧
        found.owner = ownerKey owner := by
  simp only [row, bind_eq_ok, centralId_eq_ok, Option.some.injEq,
    JsonValue.string.injEq]
  constructor
  · rintro ⟨_, ⟨rfl, hUuid⟩, h⟩
    cases hFound : db.runtimes.find? id with
    | none =>
        rw [hFound] at h
        cases h
    | some stored =>
        rw [hFound] at h
        dsimp only at h
        split_ifs at h with hOwner
        cases h
        exact ⟨hUuid, rfl, hOwner⟩
  · rintro ⟨hUuid, hFound, hOwner⟩
    exact ⟨id, ⟨rfl, hUuid⟩, by rw [hFound]; exact if_pos hOwner⟩

theorem runtimeRow_eq_ok {db : Db} {actor : WorkspaceActor} {lease : JsString}
    {found : RuntimeRow} :
    runtimeRow db actor lease = .ok found ↔
      row db actor.owner actor.id = .ok found ∧
        found.generation = actor.generation ∧ found.lease = lease := by
  simp only [runtimeRow, bind_eq_ok, throwIf_eq_ok, Bool.or_eq_false_iff,
    decide_eq_false_iff_not, ne_eq, not_not, pure, Except.pure,
    Except.ok.injEq]
  constructor
  · rintro ⟨_, hRow, _, hLease, rfl⟩
    exact ⟨hRow, hLease⟩
  · rintro ⟨hRow, hLease⟩
    exact ⟨found, hRow, (), hLease, rfl⟩

/-! ## What a returned call has done -/

section Changes

variable (owner runtimeId : JsString) (now : Int) (db : Db)

@[simp] theorem recordChange_operations :
    (recordChange owner runtimeId now db).operations = db.operations := rfl

end Changes

/-- Two stores that differ in nothing but the feed of changes and the
artifacts. -/
structure SameTables (db db' : Db) : Prop where
  runtimes : db'.runtimes = db.runtimes
  operations : db'.operations = db.operations
  publications : db'.publications = db.publications
  parts : db'.parts = db.parts
  stagedParts : db'.stagedParts = db.stagedParts

theorem SameTables.refl (db : Db) : SameTables db db :=
  ⟨rfl, rfl, rfl, rfl, rfl⟩

theorem SameTables.trans {a b c : Db} (h : SameTables a b)
    (h' : SameTables b c) : SameTables a c where
  runtimes := h'.runtimes.trans h.runtimes
  operations := h'.operations.trans h.operations
  publications := h'.publications.trans h.publications
  parts := h'.parts.trans h.parts
  stagedParts := h'.stagedParts.trans h.stagedParts

theorem sameTables_changed {row : RuntimeRow} {now : Int} {db db' : Db}
    {u : Unit} (h : Returns (changed row now) db u db') :
    SameTables db db' := by
  rw [returns_write.mp h]
  exact ⟨rfl, rfl, rfl, rfl, rfl⟩

theorem sameTables_changedUnless {b : Bool} {row : RuntimeRow} {now : Int}
    {db db' : Db} {u : Unit} (h : Returns (changedUnless b row now) db u db') :
    SameTables db db' := by
  unfold changedUnless at h
  split at h
  · rw [(returns_pure.mp h).2]
    exact .refl db
  · exact sameTables_changed h

/-- The operations of a runtime after it has connected again. -/
def reconnected (runtimeId : JsString) (operations : Operations) :
    Operations :=
  (operations.update (OperationRow.isIn runtimeId .started)
    OperationRow.disconnected OperationRow.disconnected_id).update
    (OperationRow.isIn runtimeId .accepted) OperationRow.unstarted
    OperationRow.unstarted_id

/-- What `begin` has done. -/
structure Begun (now : Clock) (lease : JsString) (actor : WorkspaceActor)
    (db db' : Db) : Prop where
  allowed : checkPrevious (db.runtimes.find? actor.id) actor (now 0) = .ok ()
  runtimes : db'.runtimes =
    db.runtimes.put (connectedRow (db.runtimes.find? actor.id) actor lease)
  operations : db'.operations = reconnected actor.id db.operations
  publications : db'.publications = db.publications
  parts : db'.parts = db.parts
  stagedParts : db'.stagedParts =
    db.stagedParts.keep (fun row => row.runtimeId ≠ actor.id)

theorem returns_begin {now : Clock} {lease : JsString}
    {actor : WorkspaceActor} {db db' : Db} {answer : BeginAnswer}
    (h : Returns (begin now lease actor) db answer db') :
    Begun now lease actor db db' := by
  simp only [begin, returns_transaction, returns_query_bind,
    returns_check_bind, returns_write_bind, returns_pure, updateOperations,
    clearStaged, changed, Except.ok.injEq, exists_eq_left'] at h
  obtain ⟨_, hAllowed, _, _, _, _, _, rfl⟩ := h
  exact ⟨hAllowed, rfl, rfl, rfl, rfl, rfl⟩

/-- What `heartbeat` and `disconnect` have done: the row of the lease has
another `heartbeat` and `seenAt`. -/
structure Beaten (actor : WorkspaceActor) (lease : JsString) (db db' : Db) :
    Prop where
  runtimes : ∃ found, runtimeRow db actor lease = .ok found ∧
    ((∃ heartbeat seenAt, db'.runtimes =
        db.runtimes.update (fun row => row.id = found.id)
          (RuntimeRow.beat heartbeat seenAt)
          (RuntimeRow.beat_id heartbeat seenAt)) ∨
      db'.runtimes = db.runtimes.update (fun row => row.id = found.id)
        RuntimeRow.silent RuntimeRow.silent_id)
  operations : db'.operations = db.operations
  publications : db'.publications = db.publications
  parts : db'.parts = db.parts
  stagedParts : db'.stagedParts = db.stagedParts

theorem returns_heartbeat {now : Clock} {lease hash : JsString}
    {actor : WorkspaceActor} {db db' : Db} {u : Unit}
    (h : Returns (heartbeat now actor lease hash) db u db') :
    Beaten actor lease db db' := by
  simp only [heartbeat, returns_query_bind, updateRuntime,
    returns_write_bind] at h
  obtain ⟨found, hFound, _, _, hRest⟩ := h
  obtain ⟨hRuntimes, hOperations, hPublications, hParts, hStaged⟩ :=
    sameTables_changedUnless hRest
  exact ⟨⟨found, hFound, .inl ⟨now 1, now 2, hRuntimes⟩⟩, hOperations,
    hPublications, hParts, hStaged⟩

theorem returns_disconnect {now : Clock} {lease : JsString}
    {actor : WorkspaceActor} {db db' : Db} {u : Unit}
    (h : Returns (disconnect now actor lease) db u db') :
    Beaten actor lease db db' := by
  simp only [disconnect, returns_query_bind, updateRuntime,
    returns_write_bind] at h
  obtain ⟨found, hFound, hRest⟩ := h
  obtain ⟨hRuntimes, hOperations, hPublications, hParts, hStaged⟩ :=
    sameTables_changed hRest
  exact ⟨⟨found, hFound, .inr hRuntimes⟩, hOperations, hPublications, hParts,
    hStaged⟩

/-- What `stage` has done: its entries, which passed their checks, are
staged. -/
structure Staged (runtime : PartsRuntime) (actor : WorkspaceActor)
    (lease : JsString) (entries : List (JsString × JsonValue)) (db db' : Db) :
    Prop where
  checked : entries.forM (checkStagedEntry runtime) = .ok ()
  stagedParts : ∃ found, runtimeRow db actor lease = .ok found ∧
    db'.stagedParts = entries.foldl (fun staged entry =>
      staged.putNew ⟨found.id, entry.1, entry.2⟩) db.stagedParts
  runtimes : db'.runtimes = db.runtimes
  operations : db'.operations = db.operations
  publications : db'.publications = db.publications
  parts : db'.parts = db.parts

theorem returns_stage {runtime : WorkspaceRuntime} {actor : WorkspaceActor}
    {lease : JsString} {entries : List (JsString × JsonValue)} {db db' : Db}
    {u : Unit} (h : Returns (stage runtime actor lease entries) db u db') :
    Staged runtime.toPartsRuntime actor lease entries db db' := by
  simp only [stage, returns_query_bind, returns_check_bind,
    returns_transaction] at h
  obtain ⟨found, hFound, _, hChecked, _, _, hLoop⟩ := h
  rw [returns_each_write hLoop]
  have hFold : ∀ (entries : List (JsString × JsonValue)) (db : Db),
      entries.foldl (fun db entry =>
        { db with
          stagedParts :=
            db.stagedParts.putNew ⟨found.id, entry.1, entry.2⟩ }) db =
        { db with
          stagedParts := entries.foldl (fun staged entry =>
            staged.putNew ⟨found.id, entry.1, entry.2⟩) db.stagedParts } := by
    intro entries
    induction entries with
    | nil => exact fun db => rfl
    | cons entry entries ih => exact fun db => ih _
  rw [hFold]
  exact ⟨hChecked, ⟨found, hFound, rfl⟩, rfl, rfl, rfl, rfl⟩

theorem returns_putArtifact {runtime : WorkspaceRuntime}
    {actor : WorkspaceActor} {lease podId hash : JsString}
    {content : List UInt8} {db db' : Db} {u : Unit}
    (h : Returns (putArtifact runtime actor lease podId hash content) db u
      db') : SameTables db db' := by
  simp only [putArtifact, returns_query_bind, returns_check_bind,
    returns_write] at h
  obtain ⟨_, _, _, _, _, _, _, _, rfl⟩ := h
  exact ⟨rfl, rfl, rfl, rfl, rfl⟩

/-! ## Submitting and claiming -/

/-- The states in which an operation holds its runtime. -/
def activeStates : List OperationState := [.accepted, .started, .unknown]

/-- A new operation of a runtime that had none in an active state. -/
structure Accepted (owner : Owner) (runtimeId id requestHash : JsString)
    (command : CentralCommand) (db : Db) (answer : CentralOperation)
    (db' : Db) : Prop where
  fresh : db.operations.find? id = none
  free : inStates db runtimeId activeStates = []
  owned : ∃ found, WorkspaceStore.row db owner runtimeId = .ok found
  row : ∃ revision now,
    answer = (acceptedRow owner runtimeId revision command id requestHash
      now).operation ∧
    db'.operations = db.operations.put
      (acceptedRow owner runtimeId revision command id requestHash now)
  runtimes : db'.runtimes = db.runtimes
  publications : db'.publications = db.publications
  parts : db'.parts = db.parts
  stagedParts : db'.stagedParts = db.stagedParts

/-- The operation that a request has already created. -/
structure Repeated (owner : Owner) (id : JsString) (prior : OperationRow)
    (db : Db) (answer : CentralOperation) (db' : Db) : Prop where
  found : db.operations.find? id = some prior
  owned : prior.owner = ownerKey owner
  answer : answer = prior.operation
  same : db' = db

theorem operation_eq_ok {db : Db} {owner : Owner} {id : JsString}
    {found : CentralOperation} :
    operation db owner id = .ok found ↔
      ∃ row, db.operations.find? id = some row ∧
        row.owner = ownerKey owner ∧ found = row.operation := by
  unfold operation
  cases hFind : db.operations.find? id with
  | none => simp
  | some row =>
      by_cases hOwner : row.owner = ownerKey owner
      · simp [hOwner, eq_comm]
      · simp [hOwner]

theorem returns_enqueueNew {now : Clock} {owner : Owner}
    {runtimeId id requestHash : JsString} {revision : Nat}
    {command : CentralCommand} {trustedRuntime : Bool} {db db' : Db}
    {answer : CentralOperation} (hFresh : db.operations.find? id = none)
    (h : Returns (enqueueNew now owner runtimeId revision command id
      requestHash trustedRuntime) db answer db') :
    Accepted owner runtimeId id requestHash command db answer db' := by
  simp only [enqueueNew, returns_query_bind, returns_write_bind, changed,
    returns_query] at h
  obtain ⟨found, hCheck, hAnswer, rfl⟩ := h
  have hChecked : inStates db runtimeId activeStates = [] ∧
      ∃ found, WorkspaceStore.row db owner runtimeId = .ok found := by
    simp only [checkSubmission, ready, bind_eq_ok, throwIf_eq_ok,
      Bool.not_eq_false', List.isEmpty_iff] at hCheck
    obtain ⟨_, ⟨row, hRow, _⟩, _, _, _, _, _, _, _, _, _, _, _, _, _, hFree,
      _⟩ := hCheck
    exact ⟨hFree, row, hRow⟩
  obtain ⟨row, hRow, -, rfl⟩ := operation_eq_ok.mp hAnswer
  rw [recordChange_operations] at hRow
  have hSelf := Table.find?_put_self db.operations
    (acceptedRow owner runtimeId revision command id requestHash (now 2))
  rw [show (acceptedRow owner runtimeId revision command id requestHash
    (now 2)).id = id from rfl, hRow] at hSelf
  exact ⟨hFresh, hChecked.1, hChecked.2,
    ⟨revision, now 2, by rw [Option.some.inj hSelf], rfl⟩, rfl, rfl, rfl, rfl⟩

theorem returns_enqueue {runtime : PartsRuntime} {now : Clock} {owner : Owner}
    {runtimeId id : JsString} {revision : JsonNumber}
    {command : CentralCommand} {trustedRuntime : Bool} {db db' : Db}
    {answer : CentralOperation}
    (h : Returns (enqueue runtime now owner runtimeId revision command id
      trustedRuntime) db answer db') :
    Accepted owner runtimeId id
        (requestHashOf runtime runtimeId revision command) command db answer
        db' ∨
      ∃ prior, Repeated owner id prior db answer db' ∧
        prior.requestHash =
          requestHashOf runtime runtimeId revision command := by
  simp only [enqueue, returns_check_bind, returns_query_bind,
    returns_transaction, Except.ok.injEq, exists_eq_left'] at h
  obtain ⟨number, hNumber, h⟩ := h
  cases hPrior : db.operations.find? id with
  | none =>
      rw [hPrior] at h
      exact .inl (returns_enqueueNew hPrior h)
  | some prior =>
      rw [hPrior] at h
      simp only [enqueueUnless, returns_check, priorOperation] at h
      obtain ⟨hAnswer, rfl⟩ := h
      split_ifs at hAnswer with hOther
      cases hAnswer
      obtain ⟨hOwner, hHash⟩ := not_or.mp hOther
      exact .inr ⟨prior, ⟨hPrior, not_not.mp hOwner, rfl, rfl⟩,
        not_not.mp hHash⟩

theorem returns_submit {runtime : WorkspaceRuntime} {now : Clock}
    {owner : Owner} {runtimeId id : JsString} {revision : JsonNumber}
    {command : Unknown} {trustedRuntime : Bool} {db db' : Db}
    {answer : CentralOperation}
    (h : Returns (submit runtime now owner runtimeId revision command id
      trustedRuntime) db answer db') :
    ∃ parsed, parseSubmitted runtime command trustedRuntime = .ok parsed ∧
      (Accepted owner runtimeId id (requestHashOf runtime.toPartsRuntime
          runtimeId revision parsed) parsed db answer db' ∨
        ∃ prior, Repeated owner id prior db answer db' ∧
          prior.requestHash = requestHashOf runtime.toPartsRuntime runtimeId
            revision parsed) := by
  simp only [submit, returns_check_bind] at h
  obtain ⟨parsed, hParsed, h⟩ := h
  exact ⟨parsed, hParsed, returns_enqueue h⟩

theorem returns_submitDecision {runtime : WorkspaceRuntime} {now : Clock}
    {owner : Owner} {runtimeId id : JsString} {command : Unknown}
    {db db' : Db} {answer : CentralOperation}
    (h : Returns (submitDecision runtime now owner runtimeId command id) db
      answer db') :
    ∃ parsed, parseInboxCentralCommand runtime.parsers command = .ok parsed ∧
      ((∃ requestHash, Accepted owner runtimeId id requestHash parsed db
          answer db') ∨
        ∃ prior, Repeated owner id prior db answer db' ∧
          stringify prior.command.json = stringify parsed.json) := by
  simp only [submitDecision, returns_check_bind, returns_query_bind,
    Except.ok.injEq, exists_eq_left'] at h
  obtain ⟨parsed, hParsed, _, _, h⟩ := h
  refine ⟨parsed, hParsed, ?_⟩
  cases hPrior : db.operations.find? id with
  | none =>
      rw [hPrior] at h
      simp only [decideUnless, returns_query_bind] at h
      obtain ⟨found, _, h⟩ := h
      rcases returns_enqueue h with hNew | ⟨prior, hRepeated, -⟩
      · exact .inl ⟨_, hNew⟩
      · rw [hRepeated.found] at hPrior
        cases hPrior
  | some prior =>
      rw [hPrior] at h
      simp only [decideUnless, returns_check, priorDecision] at h
      obtain ⟨hAnswer, rfl⟩ := h
      split_ifs at hAnswer with hOther
      cases hAnswer
      obtain ⟨hOwner, hCommand⟩ := not_or.mp hOther
      exact .inr ⟨prior, ⟨hPrior, not_not.mp hOwner, rfl, rfl⟩,
        not_not.mp hCommand⟩

/-- What `claim` has done: nothing, or it let an accepted operation expire,
or it started and returned one. -/
inductive Claimed (db : Db) : Option CentralOperation → Db → Prop where
  | idle {db' : Db} (hSame : SameTables db db') : Claimed db none db'
  | expired {db' : Db} (row : OperationRow)
      (hFound : db.operations.find? row.id = some row)
      (hState : row.state = .accepted)
      (hSame : SameTables { db with
        operations := db.operations.update (fun other => other.id = row.id)
          OperationRow.expired OperationRow.expired_id } db') :
      Claimed db none db'
  | started {db' : Db} (row : OperationRow)
      (hFound : db.operations.find? row.id = some row)
      (hState : row.state = .accepted)
      (hSame : SameTables { db with
        operations := db.operations.update (fun other => other.id = row.id)
          OperationRow.start OperationRow.start_id } db') :
      Claimed db (some row.start.operation) db'

theorem mem_inStates {db : Db} {runtimeId : JsString}
    {states : List OperationState} {row : OperationRow} :
    row ∈ inStates db runtimeId states ↔
      row ∈ db.operations.rows ∧ row.runtimeId = runtimeId ∧
        row.state ∈ states := by
  simp [inStates]

theorem returns_claimRow {now : Clock} {actor : WorkspaceActor}
    {found : RuntimeRow} {row : OperationRow} {db db' : Db}
    {answer : Option CentralOperation}
    (hFound : db.operations.find? row.id = some row)
    (hState : row.state = .accepted)
    (h : Returns (claimRow now actor found row) db answer db') :
    Claimed db answer db' := by
  unfold claimRow at h
  split at h
  · simp only [updateOperations, changed, returns_write_bind,
      returns_pure] at h
    obtain ⟨rfl, rfl⟩ := h
    exact .expired row hFound hState ⟨rfl, rfl, rfl, rfl, rfl⟩
  · simp only [updateOperations, changed, returns_write_bind,
      returns_query_bind, returns_check_bind, returns_pure] at h
    obtain ⟨_, _, _, _, _, _, started, hStarted, rfl, rfl⟩ := h
    obtain ⟨row', hRow', -, rfl⟩ := operation_eq_ok.mp hStarted
    rw [recordChange_operations] at hRow'
    simp only [Table.find?_update, hFound, Option.map_some, decide_true,
      if_true, Option.some.injEq] at hRow'
    subst hRow'
    exact .started row hFound hState ⟨rfl, rfl, rfl, rfl, rfl⟩

theorem returns_claim {now : Clock} {actor : WorkspaceActor}
    {lease : JsString} {db db' : Db} {answer : Option CentralOperation}
    (h : Returns (claim now actor lease) db answer db') :
    Claimed db answer db' := by
  simp only [claim, returns_transaction, returns_query_bind,
    Except.ok.injEq, exists_eq_left'] at h
  obtain ⟨found, _, _, _, h⟩ := h
  cases hAccepted : inStates db found.id [.accepted] with
  | nil =>
      rw [hAccepted] at h
      obtain ⟨rfl, rfl⟩ := returns_pure.mp h
      exact .idle (.refl db')
  | cons row rows =>
      have hMem : row ∈ inStates db found.id [.accepted] := by
        rw [hAccepted]
        exact List.mem_cons_self
      obtain ⟨hRow, -, hState⟩ := mem_inStates.mp hMem
      rw [hAccepted] at h
      simp only [claimPending, returns_query_bind] at h
      obtain ⟨_, _, h⟩ := h
      exact returns_claimRow (Table.find?_of_mem hRow)
        (List.mem_singleton.mp hState) h

/-! ## Publishing -/

/-- What a completion has done: nothing without one, else it settled an
operation of the runtime that was started or unknown. -/
inductive Completed (found : RuntimeRow) (revision : Nat) (db : Db) :
    Option Completion → Db → Prop where
  | none {db' : Db} (hSame : SameTables db db') :
      Completed found revision db none db'
  | settled {db' : Db} (completion : Completion) (result : JsonValue)
      (row : OperationRow)
      (hFound : db.operations.find? row.id = some row)
      (hRuntime : row.runtimeId = found.id)
      (hState : row.state = .started ∨ row.state = .unknown)
      (hSame : SameTables { db with
        operations := db.operations.update (fun other => other.id = row.id)
          (OperationRow.settled result completion.error revision)
          (OperationRow.settled_id result completion.error revision) } db') :
      Completed found revision db (some completion) db'

theorem returns_removePodArtifacts {runtimeId : JsString}
    {podId : Option JsString} {db db' : Db} {u : Unit}
    (h : Returns (removePodArtifacts runtimeId podId) db u db') :
    SameTables db db' := by
  cases podId with
  | none =>
      rw [(returns_pure.mp h).2]
      exact .refl db
  | some podId =>
      rw [returns_write.mp h]
      exact ⟨rfl, rfl, rfl, rfl, rfl⟩

theorem completedOperation_eq_ok {db : Db} {actor : WorkspaceActor}
    {found : RuntimeRow} {completion : Completion} {op : CentralOperation}
    (h : completedOperation db actor found completion = .ok op) :
    ∃ row, db.operations.find? row.id = some row ∧ op = row.operation ∧
      row.runtimeId = found.id ∧
      (row.state = .started ∨ row.state = .unknown) := by
  simp only [completedOperation, bind_eq_ok, throwIf_eq_ok, pure, Except.pure,
    Except.ok.injEq] at h
  obtain ⟨id, -, op', hOp, _, hGuard, rfl⟩ := h
  obtain ⟨row, hRow, -, rfl⟩ := operation_eq_ok.mp hOp
  have hId := Table.key_of_find? hRow
  have hAllowed : row.runtimeId = found.id ∧
      (row.state = .started ∨ row.state = .unknown) := by
    rw [Bool.or_eq_false_iff, Bool.and_eq_false_iff] at hGuard
    obtain ⟨hRuntime, hState⟩ := hGuard
    exact ⟨not_not.mp (of_decide_eq_false hRuntime),
      hState.imp (fun h => not_not.mp (of_decide_eq_false h))
        (fun h => not_not.mp (of_decide_eq_false h))⟩
  exact ⟨row, hId ▸ hRow, rfl, hAllowed⟩

theorem returns_complete {actor : WorkspaceActor} {found : RuntimeRow}
    {revision : Nat} {completion : Option Completion} {db db' : Db} {u : Unit}
    (h : Returns (complete actor found revision completion) db u db') :
    Completed found revision db completion db' := by
  cases completion with
  | none =>
      rw [(returns_pure.mp h).2]
      exact .none (.refl db)
  | some completion =>
      simp only [complete, returns_check_bind, returns_query_bind,
        updateOperations, returns_write_bind] at h
      obtain ⟨result, _, op, hOp, podId, _, hRemove⟩ := h
      obtain ⟨row, hRow, rfl, hRuntime, hState⟩ :=
        completedOperation_eq_ok hOp
      exact .settled completion result row hRow hRuntime hState
        (returns_removePodArtifacts hRemove)

/-- The runtime rows after a publication. -/
def publishedRuntimes (found : RuntimeRow) (hash : JsString)
    (runtimes : Runtimes) : Runtimes :=
  if found.hash ≠ hash then
    runtimes.update (fun row => row.id = found.id)
      (RuntimeRow.published hash) (RuntimeRow.published_id hash)
  else
    runtimes.update (fun row => row.id = found.id)
      (RuntimeRow.confirmed hash) (RuntimeRow.confirmed_id hash)

theorem returns_publishHash {found : RuntimeRow} {hash : JsString}
    {db db' : Db} {u : Unit}
    (h : Returns (publishHash found hash) db u db') :
    db' = { db with
      runtimes := publishedRuntimes found hash db.runtimes } := by
  unfold publishHash at h
  unfold publishedRuntimes
  split at h
  · rename_i hHash
    rw [if_pos hHash]
    exact returns_write.mp h
  · rename_i hHash
    rw [if_neg hHash]
    exact returns_write.mp h

/-- What `commitPublication` has done. -/
structure Committed (actor : WorkspaceActor) (found : RuntimeRow)
    (id hash requestHash : JsString) (completion : Option Completion)
    (db : Db) (answer : PublishAnswer) (db' : Db) : Prop where
  answered : answer.hash = hash
  runtimes : db'.runtimes = publishedRuntimes found hash db.runtimes
  operations : ∃ before after, before.operations = db.operations ∧
    Completed found answer.revision before completion after ∧
    db'.operations = after.operations
  publications : db'.publications =
    db.publications.put ⟨id, found.id, requestHash, answer.revision⟩
  parts : db'.parts = db.parts
  stagedParts : db'.stagedParts =
    db.stagedParts.keep (fun row => row.runtimeId ≠ found.id)

/-- A completion touches operations and artifacts only. -/
theorem Completed.frame {found : RuntimeRow} {revision : Nat} {db db' : Db}
    {completion : Option Completion}
    (h : Completed found revision db completion db') :
    db'.runtimes = db.runtimes ∧ db'.publications = db.publications ∧
      db'.parts = db.parts ∧ db'.stagedParts = db.stagedParts := by
  cases h with
  | none hSame =>
      exact ⟨hSame.runtimes, hSame.publications, hSame.parts,
        hSame.stagedParts⟩
  | settled completion result row _ _ _ hSame =>
      exact ⟨hSame.runtimes, hSame.publications, hSame.parts,
        hSame.stagedParts⟩

theorem returns_commitPublication {now : Int} {actor : WorkspaceActor}
    {found : RuntimeRow} {id hash requestHash : JsString}
    {completion : Option Completion} {db db' : Db} {answer : PublishAnswer}
    (h : Returns (commitPublication now actor found id hash requestHash
      completion) db answer db') :
    Committed actor found id hash requestHash completion db answer db' := by
  simp only [commitPublication, returns_query_bind, clearStaged] at h
  obtain ⟨_, _, h⟩ := h
  obtain ⟨_, db₁, hPublish, h⟩ := returns_bind.mp h
  rw [returns_query_bind] at h
  obtain ⟨after, _, h⟩ := h
  obtain ⟨_, db₂, hComplete, h⟩ := returns_bind.mp h
  simp only [returns_write_bind] at h
  obtain ⟨_, db₃, hChanged, h⟩ := returns_bind.mp h
  obtain ⟨rfl, rfl⟩ := returns_pure.mp h
  have hDb₁ := returns_publishHash hPublish
  have hCompleted := returns_complete hComplete
  obtain ⟨hRuntimes, hPublications, hParts, hStaged⟩ := hCompleted.frame
  have hSame := sameTables_changedUnless hChanged
  subst hDb₁
  refine ⟨rfl, hSame.runtimes.trans hRuntimes,
    ⟨_, db₂, ?_, hCompleted, hSame.operations⟩, ?_,
    hSame.parts.trans hParts, ?_⟩
  · rfl
  · rw [hSame.publications, hPublications]
  · rw [hSame.stagedParts, hStaged]

/-- The loop over the changed parts writes parts only. -/
theorem parts_of_returns_changes {runtime : PartsRuntime}
    {runtimeId : JsString} {current : CentralManifest}
    {changes : List (JsString × Option JsString)} {db db' : Db} {u : Unit}
    (h : Returns (each changes (applyChange runtime runtimeId current)) db u
      db') : db' = { db with parts := db'.parts } := by
  refine returns_each (fun s => s = { db with parts := s.parts }) h rfl ?_
  intro entry _ s s' hInv hTurn
  unfold applyChange at hTurn
  cases hHash : entry.2 with
  | none =>
      rw [hHash] at hTurn
      rw [returns_write.mp hTurn]
      exact congrArg (fun t : Db => { t with
        parts := s.parts.remove (runtimeId, entry.1) }) hInv
  | some hash =>
      simp only [hHash] at hTurn
      split at hTurn
      · rw [(returns_pure.mp hTurn).2]
        exact hInv
      · simp only [returns_query_bind, returns_write] at hTurn
        obtain ⟨value, -, rfl⟩ := hTurn
        exact congrArg (fun t : Db => { t with
          parts := s.parts.put ⟨runtimeId, entry.1, hash, value⟩ }) hInv

theorem returns_removeArtifacts {runtimeId : JsString}
    {files : List JsonValue} {db db' : Db} {u : Unit}
    (h : Returns (each files (removeArtifact runtimeId)) db u db') :
    SameTables db db' := by
  refine returns_each (SameTables db) h (.refl db) ?_
  intro file _ s s' hInv hTurn
  refine hInv.trans ?_
  rw [returns_write.mp hTurn]
  exact ⟨rfl, rfl, rfl, rfl, rfl⟩

/-- What a new publication has done: `changed` is the store after the loop
over its parts, which it has checked as a whole. -/
structure Published (runtime : PartsRuntime) (actor : WorkspaceActor)
    (found : RuntimeRow) (id : JsString)
    (changes : List (JsString × Option JsString)) (hash requestHash : JsString)
    (completion : Option Completion) (db : Db) (answer : PublishAnswer)
    (changed db' : Db) : Prop where
  applied : Returns (each changes
    (applyChange runtime found.id (manifest db found.id))) db () changed
  digest : manifestDigest runtime (manifest changed found.id) = hash
  valid : validateManifest (partKeys changed found.id)
    (reader changed found.id) = .ok ()
  committed : ∃ after, Committed actor found id hash requestHash completion
    changed answer after ∧ SameTables after db'

theorem returns_newPublication {runtime : PartsRuntime} {now : Int}
    {actor : WorkspaceActor} {found : RuntimeRow}
    {id hash requestHash : JsString}
    {changes : List (JsString × Option JsString)}
    {completion : Option Completion} {db db' : Db} {answer : PublishAnswer}
    (h : Returns (newPublication runtime now actor found id changes hash
      requestHash completion) db answer db') :
    ∃ changed, Published runtime actor found id changes hash requestHash
      completion db answer changed db' := by
  simp only [newPublication, returns_query_bind, Except.ok.injEq,
    exists_eq_left'] at h
  obtain ⟨prior, -, h⟩ := h
  obtain ⟨_, changed, hLoop, h⟩ := returns_bind.mp h
  simp only [returns_query_bind] at h
  obtain ⟨_, hDigest, _, hValid, h⟩ := h
  obtain ⟨result, after, hCommit, h⟩ := returns_bind.mp h
  rw [returns_query_bind] at h
  obtain ⟨retired, -, h⟩ := h
  obtain ⟨_, last, hRemove, h⟩ := returns_bind.mp h
  obtain ⟨rfl, rfl⟩ := returns_pure.mp h
  rw [throwIf_eq_ok] at hDigest
  exact ⟨changed, hLoop, not_not.mp (of_decide_eq_false hDigest), hValid,
    after, returns_commitPublication hCommit, returns_removeArtifacts hRemove⟩

/-- The publication that a request has already made. -/
structure RepeatedPublication (found : RuntimeRow)
    (id hash requestHash : JsString) (db : Db) (answer : PublishAnswer)
    (db' : Db) : Prop where
  prior : ∃ prior, db.publications.find? id = some prior ∧
    prior.runtimeId = found.id ∧ prior.hash = requestHash ∧
    answer = ⟨prior.revision, hash⟩
  same : db' = db

theorem returns_publishParts {runtime : WorkspaceRuntime} {now : Clock}
    {actor : WorkspaceActor} {lease id hash : JsString}
    {expected : JsonNumber} {changes : List (JsString × Option JsString)}
    {completion : Option Completion} {db db' : Db} {answer : PublishAnswer}
    (h : Returns (publishParts runtime now actor lease id expected changes
      hash completion) db answer db') :
    ∃ found, runtimeRow db actor lease = .ok found ∧
      (RepeatedPublication found id hash
          (publishHashOf runtime.toPartsRuntime expected hash completion) db
          answer db' ∨
        db.publications.find? id = none ∧ ∃ changed,
          Published runtime.toPartsRuntime actor found id changes hash
            (publishHashOf runtime.toPartsRuntime expected hash completion)
            completion db answer changed db') := by
  simp only [publishParts, returns_check_bind, returns_transaction,
    returns_query_bind] at h
  obtain ⟨revision, -, found, hFound, prior, hPrior, h⟩ := h
  refine ⟨found, hFound, ?_⟩
  unfold begunPublication at hPrior
  cases hRow : db.publications.find? id with
  | some row =>
      rw [hRow] at hPrior
      dsimp only at hPrior
      split_ifs at hPrior with hOther
      cases hPrior
      obtain ⟨hRuntime, hHash⟩ := not_or.mp hOther
      obtain ⟨rfl, rfl⟩ := returns_pure.mp h
      exact .inl ⟨⟨row, hRow, not_not.mp hRuntime, not_not.mp hHash, rfl⟩,
        rfl⟩
  | none =>
      rw [hRow] at hPrior
      simp only [bind_eq_ok, pure, Except.pure, Except.ok.injEq] at hPrior
      obtain ⟨_, _, _, _, rfl⟩ := hPrior
      exact .inr ⟨rfl, returns_newPublication h⟩

/-! ## The effect of a turn -/

/-- What a call that returned has done to the tables. -/
inductive Effect (runtime : PartsRuntime) (db db' : Db) : Prop where
  | begun (now : Clock) (lease : JsString) (actor : WorkspaceActor)
      (h : Begun now lease actor db db')
  | beaten (actor : WorkspaceActor) (lease : JsString)
      (h : Beaten actor lease db db')
  | staged (actor : WorkspaceActor) (lease : JsString)
      (entries : List (JsString × JsonValue))
      (h : Staged runtime actor lease entries db db')
  | same (h : SameTables db db')
  | accepted {owner : Owner} {runtimeId id requestHash : JsString}
      {command : CentralCommand} {answer : CentralOperation}
      (h : Accepted owner runtimeId id requestHash command db answer db')
  | claimed {answer : Option CentralOperation} (h : Claimed db answer db')
  | published {actor : WorkspaceActor} {found : RuntimeRow}
      {id hash requestHash : JsString}
      {changes : List (JsString × Option JsString)}
      {completion : Option Completion} {answer : PublishAnswer} {changed : Db}
      (hFound : db.runtimes.find? found.id = some found)
      (hFresh : db.publications.find? id = none)
      (h : Published runtime actor found id changes hash requestHash
        completion db answer changed db')

theorem effect_of_repeated {runtime : PartsRuntime} {db db' : Db}
    (h : db' = db) : Effect runtime db db' :=
  .same (h ▸ .refl db)

theorem effect_of_returns {runtime : WorkspaceRuntime} {turn : Turn}
    {db db' : Db} {answer : Answer}
    (h : Returns (perform runtime turn) db answer db') :
    Effect runtime.toPartsRuntime db db' := by
  unfold perform at h
  cases hCall : turn.call with
  | «begin» lease actor =>
      rw [hCall] at h
      obtain ⟨_, hBegin, -⟩ := returns_answering.mp h
      exact .begun turn.now lease actor (returns_begin hBegin)
  | heartbeat actor lease hash =>
      rw [hCall] at h
      obtain ⟨_, hBeat, -⟩ := returns_answering.mp h
      exact .beaten actor lease (returns_heartbeat hBeat)
  | disconnect actor lease =>
      rw [hCall] at h
      obtain ⟨_, hBeat, -⟩ := returns_answering.mp h
      exact .beaten actor lease (returns_disconnect hBeat)
  | stage actor lease entries =>
      rw [hCall] at h
      obtain ⟨_, hStage, -⟩ := returns_answering.mp h
      exact .staged actor lease entries (returns_stage hStage)
  | putArtifact actor lease podId hash content =>
      rw [hCall] at h
      obtain ⟨_, hPut, -⟩ := returns_answering.mp h
      exact .same (returns_putArtifact hPut)
  | publishParts actor lease id expected changes hash completion =>
      rw [hCall] at h
      obtain ⟨_, hPublish, -⟩ := returns_answering.mp h
      obtain ⟨found, hFound, hRepeated | ⟨hFresh, changed, hPublished⟩⟩ :=
        returns_publishParts hPublish
      · exact effect_of_repeated hRepeated.same
      · obtain ⟨-, hStored, -⟩ := row_eq_ok.mp (runtimeRow_eq_ok.mp hFound).1
        rw [← Table.key_of_find? hStored] at hStored
        exact .published hStored hFresh hPublished
  | submit owner runtimeId revision command id trustedRuntime =>
      rw [hCall] at h
      obtain ⟨_, hSubmit, -⟩ := returns_answering.mp h
      obtain ⟨parsed, -, hAccepted | ⟨prior, hRepeated, -⟩⟩ :=
        returns_submit hSubmit
      · exact .accepted hAccepted
      · exact effect_of_repeated hRepeated.same
  | submitDecision owner runtimeId command id =>
      rw [hCall] at h
      obtain ⟨_, hSubmit, -⟩ := returns_answering.mp h
      obtain ⟨parsed, -, ⟨requestHash, hAccepted⟩ | ⟨prior, hRepeated, -⟩⟩ :=
        returns_submitDecision hSubmit
      · exact .accepted hAccepted
      · exact effect_of_repeated hRepeated.same
  | claim actor lease =>
      rw [hCall] at h
      obtain ⟨_, hClaim, -⟩ := returns_answering.mp h
      exact .claimed (returns_claim hClaim)

/-- A relation that every effect establishes holds around each turn. -/
theorem turn_effect {runtime : WorkspaceRuntime} {R : Db → Db → Prop}
    (h : ∀ db db', Effect runtime.toPartsRuntime db db' → R db db')
    (turn : Turn) (db : Db) : R db (workspace runtime turn db).2 :=
  turn_rel (fun db => h db db (effect_of_repeated rfl))
    (fun _ _ _ _ hReturns => h _ _ (effect_of_returns hReturns)) turn db

/-- What every effect keeps holds in every store of a run. -/
theorem run_invariant {runtime : WorkspaceRuntime} {inv : Db → Prop}
    (hStart : inv {})
    (h : ∀ db db', Effect runtime.toPartsRuntime db db' → inv db → inv db')
    (turns : List Turn) : inv (run (workspace runtime) turns {}) := by
  have hReached : Reached (workspace runtime) anyTurn {}
      (run (workspace runtime) turns {}) := reached_run turns _
  refine hReached.invariant inv hStart ?_
  intro db turn hInv _
  exact turn_effect (R := fun db db' => inv db → inv db') h turn db hInv

end OpenApe.Ports.WorkspaceRuns
