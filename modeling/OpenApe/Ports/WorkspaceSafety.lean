import OpenApe.Ports.WorkspaceOperations

/-!
# Leases, repeated requests, and the operations of the workspace

A call without its runtime's lease, or of an owner whose runtime it is not,
changes nothing; a request that comes again finds the operation, or the
publication, that it made the first time.
-/

namespace OpenApe.Ports.WorkspaceSafety

open Verified.Fallible Verified.JsText Verified.Json Verified.KeyedTable
  Verified.Machine Verified.Transactions Verified.Transactions.Action
open CentralValues CentralCommands CentralParts WorkspaceStore WorkspaceRuns
  WorkspaceOperations

/-! ## Leases and owners -/

/-- The runtime of the actor is stored under its owner, generation and this
lease. -/
def HoldsLease (db : Db) (actor : WorkspaceActor) (lease : JsString) : Prop :=
  ∃ found, db.runtimes.find? actor.id = some found ∧
    found.owner = ownerKey actor.owner ∧
    found.generation = actor.generation ∧ found.lease = lease

theorem holdsLease_of_runtimeRow {db : Db} {actor : WorkspaceActor}
    {lease : JsString} {found : RuntimeRow}
    (h : runtimeRow db actor lease = .ok found) :
    HoldsLease db actor lease := by
  obtain ⟨hRow, hGeneration, hLease⟩ := runtimeRow_eq_ok.mp h
  obtain ⟨-, hFound, hOwner⟩ := row_eq_ok.mp hRow
  exact ⟨found, hFound, hOwner, hGeneration, hLease⟩

/-- Whether a call comes from its runtime's owner, under its lease where it
names one.  A `begin` may also make a new runtime. -/
def Entitled (db : Db) : WorkspaceCall → Prop
  | .begin _ actor => ∀ found, db.runtimes.find? actor.id = some found →
      found.owner = ownerKey actor.owner ∧
        found.generation = actor.generation
  | .heartbeat actor lease _ => HoldsLease db actor lease
  | .disconnect actor lease => HoldsLease db actor lease
  | .stage actor lease _ => HoldsLease db actor lease
  | .putArtifact actor lease _ _ _ => HoldsLease db actor lease
  | .publishParts actor lease _ _ _ _ _ => HoldsLease db actor lease
  | .submit owner runtimeId _ _ _ _ =>
      ∃ found, row db owner runtimeId = .ok found
  | .submitDecision owner runtimeId _ _ =>
      ∃ found, row db owner runtimeId = .ok found
  | .claim actor lease => HoldsLease db actor lease

/-- A call that returned was entitled, or it repeated an earlier request. -/
theorem entitled_of_returns {runtime : WorkspaceRuntime} {turn : Turn}
    {db db' : Db} {answer : Answer}
    (h : Returns (perform runtime turn) db answer db') :
    Entitled db turn.call ∨ db' = db := by
  unfold perform at h
  cases hCall : turn.call with
  | «begin» lease actor =>
      rw [hCall] at h
      obtain ⟨_, hBegin, -⟩ := returns_answering.mp h
      have hAllowed := (returns_begin hBegin).allowed
      refine .inl fun found hFound => ?_
      simp only [checkPrevious, hFound, bind_eq_ok, throwIf_eq_ok,
        Bool.or_eq_false_iff, decide_eq_false_iff_not, ne_eq,
        not_not] at hAllowed
      obtain ⟨_, hBound, -⟩ := hAllowed
      exact hBound
  | heartbeat actor lease hash =>
      rw [hCall] at h
      obtain ⟨_, hBeat, -⟩ := returns_answering.mp h
      obtain ⟨found, hFound, -⟩ := (returns_heartbeat hBeat).runtimes
      exact .inl (holdsLease_of_runtimeRow hFound)
  | disconnect actor lease =>
      rw [hCall] at h
      obtain ⟨_, hBeat, -⟩ := returns_answering.mp h
      obtain ⟨found, hFound, -⟩ := (returns_disconnect hBeat).runtimes
      exact .inl (holdsLease_of_runtimeRow hFound)
  | stage actor lease entries =>
      rw [hCall] at h
      obtain ⟨_, hStage, -⟩ := returns_answering.mp h
      obtain ⟨found, hFound, -⟩ := (returns_stage hStage).stagedParts
      exact .inl (holdsLease_of_runtimeRow hFound)
  | putArtifact actor lease podId hash content =>
      rw [hCall] at h
      obtain ⟨_, hPut, -⟩ := returns_answering.mp h
      obtain ⟨found, hFound, -⟩ := returns_query_bind.mp hPut
      exact .inl (holdsLease_of_runtimeRow hFound)
  | publishParts actor lease id expected changes hash completion =>
      rw [hCall] at h
      obtain ⟨_, hPublish, -⟩ := returns_answering.mp h
      obtain ⟨found, hFound, -⟩ := returns_publishParts hPublish
      exact .inl (holdsLease_of_runtimeRow hFound)
  | submit owner runtimeId revision command id trustedRuntime =>
      rw [hCall] at h
      obtain ⟨_, hSubmit, -⟩ := returns_answering.mp h
      obtain ⟨parsed, -, hAccepted | ⟨prior, hRepeated, -⟩⟩ :=
        returns_submit hSubmit
      · exact .inl hAccepted.owned
      · exact .inr hRepeated.same
  | submitDecision owner runtimeId command id =>
      rw [hCall] at h
      obtain ⟨_, hSubmit, -⟩ := returns_answering.mp h
      obtain ⟨parsed, -, ⟨requestHash, hAccepted⟩ | ⟨prior, hRepeated, -⟩⟩ :=
        returns_submitDecision hSubmit
      · exact .inl hAccepted.owned
      · exact .inr hRepeated.same
  | claim actor lease =>
      rw [hCall] at h
      obtain ⟨_, hClaim, -⟩ := returns_answering.mp h
      simp only [claim, returns_transaction, returns_query_bind] at hClaim
      obtain ⟨found, hFound, -⟩ := hClaim
      exact .inl (holdsLease_of_runtimeRow hFound)

/-- **A stale lease or another owner changes nothing.** -/
theorem unchanged_of_not_entitled {runtime : WorkspaceRuntime} {turn : Turn}
    {db : Db} (h : ¬Entitled db turn.call) :
    (workspace runtime turn db).2 = db := by
  rcases outcome runtime turn db with ⟨answer, db', hReturns, hRun⟩ |
    ⟨e, hRun⟩
  · rw [hRun]
    exact (entitled_of_returns hReturns).resolve_left h
  · rw [hRun]

/-! ## Repeated submissions -/

/-- After the call has created or found an operation, the same call finds
that operation again, however often it has moved, and changes nothing. -/
def RetryFindsOperation (runtime : WorkspaceRuntime) (call : WorkspaceCall)
    (id : JsString) (db : Db) : Prop :=
  ∀ (now : Clock) (answer : CentralOperation) (db₁ : Db),
    workspace runtime ⟨call, now⟩ db = (.ok (.submitted answer), db₁) →
      ∀ (later : List Turn) (now' : Clock), ∃ row row',
        db₁.operations.find? id = some row ∧ answer = row.operation ∧
        Relation.ReflTransGen RowStep row row' ∧
        workspace runtime ⟨call, now'⟩ (run (workspace runtime) later db₁) =
          (.ok (.submitted row'.operation),
            run (workspace runtime) later db₁)

/-- The row that a first submission leaves under its id. -/
theorem stored_of_accepted {owner : Owner}
    {runtimeId id requestHash : JsString} {command : CentralCommand}
    {db db' : Db} {answer : CentralOperation}
    (h : Accepted owner runtimeId id requestHash command db answer db') :
    ∃ row, db'.operations.find? id = some row ∧ answer = row.operation ∧
      row.owner = ownerKey owner ∧ row.requestHash = requestHash ∧
      row.command = command := by
  obtain ⟨revision, now, rfl, hOperations⟩ := h.row
  refine ⟨_, ?_, rfl, rfl, rfl, rfl⟩
  rw [hOperations]
  exact Table.find?_put_self db.operations
    (acceptedRow owner runtimeId revision command id requestHash now)

/-- A stored request is found again. -/
theorem returns_enqueue_again {runtime : PartsRuntime} {now : Clock}
    {owner : Owner} {runtimeId id : JsString} {revision : JsonNumber}
    {command : CentralCommand} {trustedRuntime : Bool} {db : Db}
    {number : Nat} {row : OperationRow}
    (hChecked : checkRequest id revision = .ok number)
    (hRow : db.operations.find? id = some row)
    (hOwner : row.owner = ownerKey owner)
    (hHash : row.requestHash =
      requestHashOf runtime runtimeId revision command) :
    Returns (enqueue runtime now owner runtimeId revision command id
      trustedRuntime) db row.operation db := by
  rw [enqueue, returns_check_bind]
  refine ⟨number, hChecked, ?_⟩
  rw [returns_transaction, returns_query_bind]
  refine ⟨some row, by rw [hRow], ?_⟩
  rw [enqueueUnless, returns_check]
  exact ⟨if_neg (by simp [hOwner, hHash]), rfl⟩

/-- **A repeated `submit` returns the operation that it created.** -/
theorem retry_submit (runtime : WorkspaceRuntime) (owner : Owner)
    (runtimeId : JsString) (revision : JsonNumber) (command : Unknown)
    (id : JsString) (trustedRuntime : Bool) (db : Db) :
    RetryFindsOperation runtime
      (.submit owner runtimeId revision command id trustedRuntime) id db := by
  intro now answer db₁ hFirst later now'
  obtain ⟨_, hSubmit, hAnswer⟩ := returns_answering.mp
    (show Returns (answering .submitted (submit runtime now owner runtimeId
      revision command id trustedRuntime)) db (.submitted answer) db₁ from
      hFirst)
  cases hAnswer
  obtain ⟨parsed, hParsed, hEnqueue⟩ := returns_check_bind.mp hSubmit
  obtain ⟨number, hChecked, -⟩ := returns_check_bind.mp hEnqueue
  have hStored : ∃ row, db₁.operations.find? id = some row ∧
      answer = row.operation ∧ row.owner = ownerKey owner ∧
      row.requestHash = requestHashOf runtime.toPartsRuntime runtimeId
        revision parsed := by
    rcases returns_enqueue hEnqueue with hAccepted | ⟨prior, hPrior, hHash⟩
    · obtain ⟨row, hRow, hEq, hOwner, hHash, -⟩ :=
        stored_of_accepted hAccepted
      exact ⟨row, hRow, hEq, hOwner, hHash⟩
    · exact ⟨prior, hPrior.same ▸ hPrior.found, hPrior.answer, hPrior.owned,
        hHash⟩
  obtain ⟨row, hRow, hEq, hOwner, hHash⟩ := hStored
  obtain ⟨row', hRow', hSteps⟩ := stored_run runtime later hRow
  have hSame := sameRequest_of_steps hSteps
  refine ⟨row, row', hRow, hEq, hSteps, ?_⟩
  refine returns_answering.mpr ⟨_, ?_, rfl⟩
  exact returns_check_bind.mpr ⟨parsed, hParsed,
    returns_enqueue_again hChecked hRow' (hSame.owner.trans hOwner)
      (hSame.requestHash.trans hHash)⟩

/-- **A repeated `submitDecision` returns the operation that it created.** -/
theorem retry_submitDecision (runtime : WorkspaceRuntime) (owner : Owner)
    (runtimeId : JsString) (command : Unknown) (id : JsString) (db : Db) :
    RetryFindsOperation runtime
      (.submitDecision owner runtimeId command id) id db := by
  intro now answer db₁ hFirst later now'
  obtain ⟨_, hSubmit, hAnswer⟩ := returns_answering.mp
    (show Returns (answering .submitted (submitDecision runtime now owner
      runtimeId command id)) db (.submitted answer) db₁ from hFirst)
  cases hAnswer
  obtain ⟨parsed, hParsed, hRest⟩ := returns_check_bind.mp hSubmit
  obtain ⟨id', hId, -⟩ := returns_check_bind.mp hRest
  have hStored : ∃ row, db₁.operations.find? id = some row ∧
      answer = row.operation ∧ row.owner = ownerKey owner ∧
      stringify row.command.json = stringify parsed.json := by
    obtain ⟨parsed', hParsed', hCase⟩ := returns_submitDecision hSubmit
    obtain rfl : parsed' = parsed := Except.ok.inj (hParsed'.symm.trans hParsed)
    rcases hCase with ⟨requestHash, hAccepted⟩ | ⟨prior, hPrior, hCommand⟩
    · obtain ⟨row, hRow, hEq, hOwner, -, hCommand⟩ :=
        stored_of_accepted hAccepted
      exact ⟨row, hRow, hEq, hOwner, by rw [hCommand]⟩
    · exact ⟨prior, hPrior.same ▸ hPrior.found, hPrior.answer, hPrior.owned,
        hCommand⟩
  obtain ⟨row, hRow, hEq, hOwner, hCommand⟩ := hStored
  obtain ⟨row', hRow', hSteps⟩ := stored_run runtime later hRow
  have hSame := sameRequest_of_steps hSteps
  refine ⟨row, row', hRow, hEq, hSteps, ?_⟩
  refine returns_answering.mpr ⟨_, ?_, rfl⟩
  refine returns_check_bind.mpr ⟨parsed, hParsed, returns_check_bind.mpr
    ⟨id', hId, returns_query_bind.mpr ⟨some row', by rw [hRow'], ?_⟩⟩⟩
  rw [decideUnless, returns_check]
  exact ⟨if_neg (by simp [hSame.owner, hOwner, hSame.command, hCommand]), rfl⟩

/-! ## Repeated publications -/

/-- A stored publication stays as it is. -/
theorem publication_of_effect {runtime : PartsRuntime} {db db' : Db}
    (h : Effect runtime db db') {id : JsString} {row : PublicationRow}
    (hRow : db.publications.find? id = some row) :
    db'.publications.find? id = some row := by
  cases h with
  | begun _ _ _ h => rw [h.publications, hRow]
  | beaten _ _ h => rw [h.publications, hRow]
  | staged _ _ _ h => rw [h.publications, hRow]
  | same h => rw [h.publications, hRow]
  | accepted h => rw [h.publications, hRow]
  | claimed h =>
      cases h with
      | idle hSame => rw [hSame.publications, hRow]
      | expired _ _ _ hSame => rw [hSame.publications]; exact hRow
      | started _ _ _ hSame => rw [hSame.publications]; exact hRow
  | published _ hFresh h =>
      obtain ⟨after, hCommitted, hSame⟩ := h.committed
      rw [hSame.publications, hCommitted.publications, Table.find?_put_ne,
        parts_of_returns_changes h.applied, hRow]
      rintro rfl
      rw [hFresh] at hRow
      cases hRow

theorem publications_run (runtime : WorkspaceRuntime) (turns : List Turn)
    {db : Db} {id : JsString} {row : PublicationRow}
    (hRow : db.publications.find? id = some row) :
    (run (workspace runtime) turns db).publications.find? id = some row := by
  induction turns generalizing db with
  | nil => exact hRow
  | cons turn turns ih =>
      refine ih ?_
      exact turn_effect
        (R := fun db db' => db.publications.find? id = some row →
          db'.publications.find? id = some row)
        (fun _ _ hEffect hRow => publication_of_effect hEffect hRow)
        turn db hRow

/-- After a publication, the same request under a valid lease finds it again
and changes nothing. -/
def RetryFindsPublication (runtime : WorkspaceRuntime) (db : Db) : Prop :=
  ∀ (actor : WorkspaceActor) (lease id : JsString) (expected : JsonNumber)
    (changes : List (JsString × Option JsString)) (hash : JsString)
    (completion : Option Completion) (now : Clock) (answer : PublishAnswer)
    (db₁ : Db),
    workspace runtime ⟨.publishParts actor lease id expected changes hash
        completion, now⟩ db = (.ok (.published answer), db₁) →
      ∀ (later : List Turn) (lease' : JsString) (now' : Clock),
        HoldsLease (run (workspace runtime) later db₁) actor lease' →
          workspace runtime ⟨.publishParts actor lease' id expected changes
              hash completion, now'⟩ (run (workspace runtime) later db₁) =
            (.ok (.published answer), run (workspace runtime) later db₁)

/-- The row that a first publication leaves under its id. -/
theorem stored_of_publishParts {runtime : WorkspaceRuntime} {now : Clock}
    {actor : WorkspaceActor} {lease id hash : JsString}
    {expected : JsonNumber} {changes : List (JsString × Option JsString)}
    {completion : Option Completion} {db db' : Db} {answer : PublishAnswer}
    (h : Returns (publishParts runtime now actor lease id expected changes
      hash completion) db answer db') :
    answer.hash = hash ∧ db'.publications.find? id =
      some ⟨id, actor.id, publishHashOf runtime.toPartsRuntime expected hash
        completion, answer.revision⟩ := by
  obtain ⟨found, hFound, hCase⟩ := returns_publishParts h
  have hId : found.id = actor.id :=
    Table.key_of_find? (row_eq_ok.mp (runtimeRow_eq_ok.mp hFound).1).2.1
  rcases hCase with hRepeated | ⟨hFresh, changed, hPublished⟩
  · obtain ⟨prior, hPrior, hRuntime, hHash, rfl⟩ := hRepeated.prior
    refine ⟨rfl, ?_⟩
    have hKey := Table.key_of_find? hPrior
    rw [hRepeated.same, hPrior, ← hHash, ← hId, ← hRuntime, ← hKey]
  · obtain ⟨after, hCommitted, hSame⟩ := hPublished.committed
    refine ⟨hCommitted.answered, ?_⟩
    rw [hSame.publications, hCommitted.publications, hId]
    exact Table.find?_put_self changed.publications
      ⟨id, actor.id, _, answer.revision⟩

/-- **A repeated `publishParts` returns the first answer.** -/
theorem retry_publishParts (runtime : WorkspaceRuntime) (db : Db) :
    RetryFindsPublication runtime db := by
  intro actor lease id expected changes hash completion now answer db₁ hFirst
    later lease' now' hLease
  obtain ⟨_, hPublish, hAnswer⟩ := returns_answering.mp
    (show Returns (answering .published (publishParts runtime now actor lease
      id expected changes hash completion)) db (.published answer) db₁ from
      hFirst)
  cases hAnswer
  obtain ⟨hHash, hStored⟩ := stored_of_publishParts hPublish
  have hRow := publications_run runtime later hStored
  obtain ⟨number, hChecked, hRest⟩ := returns_check_bind.mp hPublish
  rw [returns_transaction, returns_query_bind] at hRest
  obtain ⟨first, hFirstRow, -⟩ := hRest
  obtain ⟨hUuid, -, -⟩ := row_eq_ok.mp (runtimeRow_eq_ok.mp hFirstRow).1
  obtain ⟨found, hFound, hOwner, hGeneration, hValid⟩ := hLease
  have hId : found.id = actor.id := Table.key_of_find? hFound
  refine returns_answering.mpr ⟨_, ?_, rfl⟩
  refine returns_check_bind.mpr ⟨number, hChecked, ?_⟩
  rw [returns_transaction, returns_query_bind]
  refine ⟨found, runtimeRow_eq_ok.mpr
    ⟨row_eq_ok.mpr ⟨hUuid, hFound, hOwner⟩, hGeneration, hValid⟩, ?_⟩
  refine returns_query_bind.mpr ⟨some answer.revision, ?_, ?_⟩
  · rw [begunPublication, hRow]
    exact if_neg (by simp [hId])
  · rw [publishNew, returns_pure]
    exact ⟨by rw [← hHash], rfl⟩

/-! ## The operations of every run -/

/-- **The operations of the workspace are a safe state machine.**  In every
run of calls, at any readings of the clock:

* a runtime has at most one operation that is accepted, started or unknown;
* a call moves a stored operation along `Moves` or leaves it as it is, an
  applied or failed one always, and a new operation is accepted;
* each operation is handed out by `claim` at most once;
* a call without its lease, or of another owner, changes nothing;
* a repeated `submit`, `submitDecision` or `publishParts` returns the
  operation, or the revision, of the first and changes nothing. -/
theorem operations_safe (runtime : WorkspaceRuntime) (turns : List Turn) :
    let db := run (workspace runtime) turns {}
    SingleActive db.operations ∧
    (∀ turn id row, db.operations.find? id = some row →
      ∃ row', (workspace runtime turn db).2.operations.find? id = some row' ∧
        RowStep row row' ∧ (row.state ∉ activeStates → row' = row)) ∧
    (∀ turn id row', db.operations.find? id = none →
      (workspace runtime turn db).2.operations.find? id = some row' →
        row'.state = .accepted) ∧
    (claimedIds (answers (workspace runtime) turns {})).Nodup ∧
    (∀ turn, ¬Entitled db turn.call → (workspace runtime turn db).2 = db) ∧
    (∀ owner runtimeId revision command id trustedRuntime,
      RetryFindsOperation runtime
        (.submit owner runtimeId revision command id trustedRuntime) id db) ∧
    (∀ owner runtimeId command id, RetryFindsOperation runtime
      (.submitDecision owner runtimeId command id) id db) ∧
    RetryFindsPublication runtime db := by
  intro db
  refine ⟨singleActive_run runtime turns, ?_, ?_,
    nodup_claimedIds runtime turns {}, ?_, ?_, ?_,
    retry_publishParts runtime db⟩
  · intro turn id row hRow
    obtain ⟨row', hRow', hStep⟩ :=
      (operations_turn runtime turn db).stored hRow
    exact ⟨row', hRow', hStep, hStep.eq_of_settled⟩
  · intro turn id row' hRow hRow'
    exact (operations_turn runtime turn db).fresh hRow hRow'
  · intro turn hEntitled
    exact unchanged_of_not_entitled hEntitled
  · intro owner runtimeId revision command id trustedRuntime
    exact retry_submit runtime owner runtimeId revision command id
      trustedRuntime db
  · intro owner runtimeId command id
    exact retry_submitDecision runtime owner runtimeId command id db

end OpenApe.Ports.WorkspaceSafety
