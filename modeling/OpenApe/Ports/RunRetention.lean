import Mathlib.Data.Prod.Lex
import Mathlib.Data.Set.Finite.Lemmas
import OpenApe.Verified.SqlLogic
import OpenApe.Verified.Transactions
import OpenApe.Verified.UniqueRows

/-!
# Retention of runs

`removeHistory` chooses a batch of finished runs with one query and deletes
them, row by row, in one transaction.  A run is chosen only where nothing
waits for it and no approval in it is the newest of its kind; the evidence
for that is read before the first deletion, so the main result must see that
it is not in the batch itself.
-/

namespace OpenApe.Ports.RunRetention

open Verified.JsText Verified.Json Verified.KeyedTable Verified.SqlLogic
  Verified.SqlLogic.Truth Verified.Transactions Verified.Transactions.Action

/-! ## Tables -/

structure RunRow where
  rowid : Int
  id : JsString
  podId : JsString
  scriptHash : JsString
  state : JsString
  startedAt : Int
  finishedAt : Option Int
  summary : JsString
  error : Option JsString
  checkpointRevision : Int
  assignmentRevision : Int
  deriving DecidableEq

structure RunEvent where
  runId : JsString
  sequence : Int
  type : JsString
  data : JsonValue
  time : Int

structure RunInput where
  runId : JsString
  reason : JsString
  eventIds : JsonValue
  retryAt : Option Int
  retryAttempt : Int
  retryEpoch : Option Int

structure AcceptedEvent where
  sequence : Int
  id : JsString
  podId : JsString
  source : JsString
  dedupeKey : JsString
  payload : JsString
  acceptedAt : Int
  state : JsString
  runId : Option JsString
  error : Option JsString

structure RunLease where
  podId : JsString
  runId : JsString
  bootId : JsString
  heartbeat : Int
  processId : Option Int

structure ExecutionDomain where
  path : JsString
  runId : JsString
  ownerPid : Int

structure RecoveryReview where
  runId : JsString
  state : JsString
  error : Option JsString
  checkedAt : Int
  requestEventId : Option JsString

structure Effect where
  podId : JsString
  effectKey : JsString
  operation : JsString
  inputHash : JsString
  runId : Option JsString
  state : JsString
  result : Option JsString

structure ControlRun where
  id : JsString
  runId : JsString
  kind : JsString

structure DeletionJob where
  runId : JsString
  error : Option JsString

/-- The tables that know of runs.  A run has an id of its own, and a row
number of its own. -/
structure Database where
  runs : Rows RunRow.id RunRow.rowid
  events : List RunEvent
  inputs : List RunInput
  accepted : List AcceptedEvent
  leases : List RunLease
  domains : List ExecutionDomain
  reviews : List RecoveryReview
  effects : List Effect
  controlRuns : List ControlRun
  jobs : List DeletionJob

/-! ## The query -/

def retainedRunCount : Nat := 50

def runRetentionBatch : Nat := 25

/-- `ORDER BY started_at DESC, rowid DESC` -/
def startKey (run : RunRow) : Int ×ₗ Int := toLex (run.startedAt, run.rowid)

/-- The run's number among the runs of its Pod. -/
def runPosition (db : Database) (run : RunRow) : Nat :=
  rowNumber startKey (db.runs.rows.filter (fun r => r.podId = run.podId)) run

/-- `text = 'value'` in a column that is not NULL. -/
def textIs (text value : JsString) : Truth := equal (some text) (some value)

/-- `state NOT IN ('processed','failed')` -/
def unsettled (input : AcceptedEvent) : Truth :=
  negate (isIn (some input.state) [js "processed", js "failed"])

def leased (db : Database) (run : RunRow) : Truth :=
  existsRow db.leases (fun lease => textIs lease.runId run.id)

def holdsInput (db : Database) (run : RunRow) : Truth :=
  existsRow db.accepted (fun input =>
    both (equal input.runId (some run.id)) (unsettled input))

/-- An input the run's `event_ids` name. -/
def namesInput (db : Database) (run : RunRow) : Truth :=
  existsRow db.inputs (fun i =>
    both (textIs i.runId run.id)
      (existsRow (jsonEach (some i.eventIds)) (fun value =>
        existsRow db.accepted (fun input =>
          both (equal (some (.text input.id)) value) (unsettled input)))))

def isApproval (event : RunEvent) : Truth := textIs event.type (js "approval")

/-- `json_extract(a.data,'$.key') = json_extract(b.data,'$.key')` -/
def sameMember (key : JsString) (a b : RunEvent) : Truth :=
  equal (jsonExtract a.data key) (jsonExtract b.data key)

/-- `json_extract(data,'$.key') IS NOT NULL` -/
def hasMember (key : JsString) (event : RunEvent) : Truth :=
  some (jsonExtract event.data key).isSome

/-- A later approval of the run speaks of the same grant. -/
def answered (db : Database) (event : RunEvent) : Truth :=
  existsRow db.events (fun newer =>
    both (textIs newer.runId event.runId)
      (both (isApproval newer)
      (both (some (decide (event.sequence < newer.sequence)))
      (sameMember (js "grantId") newer event))))

def waitsForApproval (db : Database) (run : RunRow) : Truth :=
  existsRow db.events (fun event =>
    both (textIs event.runId run.id)
      (both (isApproval event)
      (both (equal (jsonExtract event.data (js "state"))
        (some (.text (js "pending"))))
      (negate (answered db event)))))

/-- `newer.at>e.at OR (newer.at=e.at AND newer.sequence>e.sequence)` -/
def later (newer event : RunEvent) : Truth :=
  either (some (decide (event.time < newer.time)))
    (both (some (decide (newer.time = event.time)))
      (some (decide (event.sequence < newer.sequence))))

/-- A later approval in the owner's Pod has the same permission, issuer and
subject. -/
def superseded (db : Database) (owner : RunRow) (event : RunEvent) : Truth :=
  existsRow db.events (fun newer =>
    existsRow db.runs.rows (fun other =>
      both (textIs other.id newer.runId)
        (both (textIs other.podId owner.podId)
        (both (isApproval newer)
        (both (sameMember (js "permission") newer event)
        (both (sameMember (js "issuer") newer event)
        (both (sameMember (js "subject") newer event)
        (later newer event))))))))

def holdsNewestApproval (db : Database) (run : RunRow) : Truth :=
  existsRow db.events (fun event =>
    existsRow db.runs.rows (fun owner =>
      both (textIs owner.id event.runId)
        (both (textIs event.runId run.id)
        (both (isApproval event)
        (both (hasMember (js "permission") event)
        (both (hasMember (js "issuer") event)
        (both (hasMember (js "subject") event)
        (negate (superseded db owner event)))))))))

/-- The condition on a ranked run. -/
def prunable (db : Database) (run : RunRow) : Truth :=
  both (some (decide (retainedRunCount < runPosition db run)))
    (both (some run.finishedAt.isSome)
    (both (negate (textIs run.state (js "running")))
    (both (negate (leased db run))
    (both (negate (holdsInput db run))
    (both (negate (namesInput db run))
    (both (negate (waitsForApproval db run))
    (negate (holdsNewestApproval db run))))))))

/-- The order in which the query gives its rows, which it leaves open. -/
structure ScanOrder where
  visit : List RunRow → List RunRow
  perm : ∀ rows, (visit rows).Perm rows

def candidates (scan : ScanOrder) (db : Database) : List JsString :=
  (((scan.visit db.runs.rows).filter (fun run =>
    (prunable db run).holds)).take runRetentionBatch).map RunRow.id

/-! ## The deletions -/

/-- A statement's failure, or the error thrown for an id, by its message. -/
abbrev Call := Action Database JsString

def isIdUnit (u : CodeUnit) : Bool :=
  (unit 'a' ≤ u && u ≤ unit 'f') || (unit '0' ≤ u && u ≤ unit '9') ||
    u == unit '-'

/-- `/^[a-f0-9-]{36}$/` -/
def isRunId (id : JsString) : Bool := id.length = 36 && id.all isIdUnit

def insertJob (id : JsString) : Call Unit := do
  query fun db =>
    if db.jobs.any (fun job => job.runId = id) then
      .error (js "UNIQUE constraint failed: run_deletion_jobs.run_id")
    else .ok ()
  write fun db => { db with jobs := db.jobs ++ [⟨id, none⟩] }

def isOf (id : JsString) (runId : Option JsString) : Bool := runId = some id

/-- Completed effects stay, without their run; the others go. -/
def releaseEffects (id : JsString) (effects : List Effect) : List Effect :=
  (effects.map (fun effect =>
    if isOf id effect.runId && effect.state = js "completed" then
      { effect with runId := none }
    else effect)).filter (fun effect =>
      !(isOf id effect.runId && effect.state ≠ js "completed"))

def releaseInput (id : JsString) (input : AcceptedEvent) : AcceptedEvent :=
  if isOf id input.runId &&
      (input.state = js "processed" || input.state = js "failed") then
    { input with runId := none }
  else input

/-- A row still refers to the run. -/
def referenced (db : Database) (id : JsString) : Bool :=
  db.events.any (fun row => row.runId = id) ||
    db.inputs.any (fun row => row.runId = id) ||
    db.leases.any (fun row => row.runId = id) ||
    db.domains.any (fun row => row.runId = id) ||
    db.reviews.any (fun row => row.runId = id) ||
    db.effects.any (fun row => isOf id row.runId)

def deleteRun (id : JsString) : Call Unit := do
  query fun db =>
    if referenced db id then .error (js "FOREIGN KEY constraint failed")
    else .ok ()
  write fun db => { db with runs := db.runs.keep (fun run => run.id ≠ id) }

/-- One turn of the loop over the candidates. -/
def removeRun (id : JsString) : Call Unit := do
  check (if isRunId id then .ok ()
    else .error (js "Invalid run deletion identity"))
  insertJob id
  write fun db => { db with effects := releaseEffects id db.effects }
  write fun db => { db with accepted := db.accepted.map (releaseInput id) }
  write fun db => { db with
    controlRuns := db.controlRuns.filter (fun row =>
      !(row.kind = js "pod" && row.runId = id)) }
  write fun db => { db with
    events := db.events.filter (fun row => row.runId ≠ id)
    inputs := db.inputs.filter (fun row => row.runId ≠ id)
    domains := db.domains.filter (fun row => row.runId ≠ id)
    reviews := db.reviews.filter (fun row => row.runId ≠ id) }
  deleteRun id

def removeHistory (scan : ScanOrder) : Call Unit :=
  transaction do
    let chosen ← query fun db => .ok (candidates scan db)
    each chosen removeRun

/-! ## What must stay -/

/-- Fewer than fifty runs of its Pod were started after it. -/
def AmongNewest (db : Database) (run : RunRow) : Prop :=
  (db.runs.rows.filter (fun other => other.podId = run.podId &&
    startKey run < startKey other)).length < retainedRunCount

def Leased (db : Database) (run : RunRow) : Prop :=
  ∃ lease ∈ db.leases, lease.runId = run.id

def Settled (input : AcceptedEvent) : Prop :=
  input.state = js "processed" ∨ input.state = js "failed"

/-- The input is the run's, or the run's inputs name it. -/
def Referenced (db : Database) (run : RunRow) (input : AcceptedEvent) :
    Prop :=
  input.runId = some run.id ∨
    ∃ i ∈ db.inputs, i.runId = run.id ∧
      ∃ items, i.eventIds = .array items ∧ .string input.id ∈ items

/-- Two approvals of one run that speak of the same grant. -/
def SameGrant (a b : RunEvent) : Prop :=
  ∃ grant, jsonExtract a.data (js "grantId") = some grant ∧
    jsonExtract b.data (js "grantId") = some grant

/-- A pending approval of the run has no later answer. -/
def AwaitsApproval (db : Database) (run : RunRow) : Prop :=
  ∃ event ∈ db.events, event.runId = run.id ∧ event.type = js "approval" ∧
    event.data.field? (js "state") = some (.string (js "pending")) ∧
    ∀ newer ∈ db.events, newer.runId = run.id → newer.type = js "approval" →
      event.sequence < newer.sequence → ¬SameGrant newer event

/-- A run the pruning must leave alone. -/
def Protected (db : Database) (run : RunRow) : Prop :=
  run.state = js "running" ∨ run.finishedAt = none ∨ Leased db run ∨
    AmongNewest db run ∨
    (∃ input ∈ db.accepted, ¬Settled input ∧ Referenced db run input) ∨
    AwaitsApproval db run

/-- Permission, issuer and subject of an approval. -/
structure ApprovalKey where
  permission : Scalar
  issuer : Scalar
  subject : Scalar

structure ApprovalOf (db : Database) (pod : JsString) (key : ApprovalKey)
    (event : RunEvent) : Prop where
  stored : event ∈ db.events
  approval : event.type = js "approval"
  owned : ∃ owner ∈ db.runs.rows, owner.id = event.runId ∧ owner.podId = pod
  permission : jsonExtract event.data (js "permission") = some key.permission
  issuer : jsonExtract event.data (js "issuer") = some key.issuer
  subject : jsonExtract event.data (js "subject") = some key.subject

/-- The order of approvals: by time, then by sequence. -/
def eventKey (event : RunEvent) : Int ×ₗ Int :=
  toLex (event.time, event.sequence)

structure NewestApproval (db : Database) (pod : JsString) (key : ApprovalKey)
    (event : RunEvent) : Prop extends ApprovalOf db pod key event where
  newest : ∀ newer, ApprovalOf db pod key newer →
    eventKey newer ≤ eventKey event

/-- The rows of one run, over all tables. -/
structure RunRows where
  run : List RunRow
  events : List RunEvent
  inputs : List RunInput
  accepted : List AcceptedEvent
  leases : List RunLease
  domains : List ExecutionDomain
  reviews : List RecoveryReview
  effects : List Effect
  controlRuns : List ControlRun

def rowsOf (db : Database) (id : JsString) : RunRows where
  run := db.runs.rows.filter (fun row => row.id = id)
  events := db.events.filter (fun row => row.runId = id)
  inputs := db.inputs.filter (fun row => row.runId = id)
  accepted := db.accepted.filter (fun row => isOf id row.runId)
  leases := db.leases.filter (fun row => row.runId = id)
  domains := db.domains.filter (fun row => row.runId = id)
  reviews := db.reviews.filter (fun row => row.runId = id)
  effects := db.effects.filter (fun row => isOf id row.runId)
  controlRuns := db.controlRuns.filter (fun row => row.runId = id)

/-- What a pruning leaves of a database. -/
structure Spared (db after : Database) : Prop where
  protected_runs : ∀ run ∈ db.runs.rows, Protected db run →
    run ∈ after.runs.rows
  newest_approvals : ∀ pod key event, NewestApproval db pod key event →
    event ∈ after.events
  evidence : ∀ pod key event, ApprovalOf db pod key event →
    ∃ newest ∈ after.events, NewestApproval db pod key newest
  completed_effects : ∀ effect ∈ db.effects, effect.state = js "completed" →
    effect ∈ after.effects ∨ { effect with runId := none } ∈ after.effects
  rows : ∀ run ∈ after.runs.rows, rowsOf after run.id = rowsOf db run.id

/-! ## One candidate -/

@[simp] theorem holds_textIs (text value : JsString) :
    (textIs text value).holds = decide (text = value) := by
  rw [textIs, holds_equal_some]
  simp

theorem holds_unsettled (input : AcceptedEvent) :
    (unsettled input).holds = true ↔ ¬Settled input := by
  rw [unsettled, isIn, Option.map_some]
  simp [Truth.negate, Settled]

theorem holds_later (newer event : RunEvent) :
    (later newer event).holds = true ↔ eventKey event < eventKey newer := by
  rw [later, eventKey, eventKey, Prod.Lex.toLex_lt_toLex]
  simp only [holds_either, holds_both, holds_some, Bool.or_eq_true,
    Bool.and_eq_true, decide_eq_true_eq]
  exact or_congr Iff.rfl (and_congr eq_comm Iff.rfl)

theorem runPosition_eq {db : Database} {run : RunRow}
    (hRun : run ∈ db.runs.rows) :
    runPosition db run =
      (db.runs.rows.filter (fun other => other.podId = run.podId &&
        startKey run < startKey other)).length + 1 := by
  have hNodup : db.runs.rows.Nodup := db.runs.nodup.of_map _
  have hKey : ∀ other ∈ db.runs.rows.filter (fun r => r.podId = run.podId),
      startKey other = startKey run → other = run := by
    intro other hOther hSame
    refine Rows.eq_of_other (List.mem_filter.mp hOther).1 hRun ?_
    exact (Prod.mk.inj (toLex.injective hSame)).2
  rw [runPosition, rowNumber_eq (hNodup.filter _) hKey
    (List.mem_filter.mpr ⟨hRun, by simp⟩), List.filter_filter]
  simp only [Bool.and_comm]

theorem leased_iff (db : Database) (run : RunRow) :
    (leased db run).holds = true ↔ Leased db run := by
  simp [leased, Leased]

/-- An input the run refers to is seen by one of the two conditions. -/
theorem input_seen {db : Database} {run : RunRow} {input : AcceptedEvent}
    (hInput : input ∈ db.accepted) (hUnsettled : ¬Settled input)
    (hReferenced : Referenced db run input) :
    (holdsInput db run).holds = true ∨ (namesInput db run).holds = true := by
  have hHolds := (holds_unsettled input).mpr hUnsettled
  rcases hReferenced with hRun | ⟨i, hI, hOf, items, hItems, hId⟩
  · left
    rw [holdsInput, holds_existsRow]
    refine ⟨input, hInput, ?_⟩
    rw [holds_both, hHolds, holds_equal_some, hRun]
    simp
  · right
    rw [namesInput, holds_existsRow]
    refine ⟨i, hI, ?_⟩
    rw [holds_both, holds_textIs, decide_eq_true hOf, Bool.true_and,
      holds_existsRow]
    have hEach : some (.text input.id) ∈ jsonEach (some i.eventIds) := by
      rw [hItems]
      exact List.mem_map.mpr ⟨_, hId, rfl⟩
    refine ⟨_, hEach, (holds_existsRow _ _).mpr ⟨input, hInput, ?_⟩⟩
    rw [holds_both, hHolds, holds_equal_some]
    simp

theorem answered_fails {db : Database} {run : RunRow} {event : RunEvent}
    (hOf : event.runId = run.id)
    (hNone : ∀ newer ∈ db.events, newer.runId = run.id →
      newer.type = js "approval" → event.sequence < newer.sequence →
      ¬SameGrant newer event) : (answered db event).fails = true := by
  rw [answered, fails_existsRow]
  intro newer hNewer
  rw [← Bool.not_eq_true]
  simp only [holds_both, isApproval, holds_textIs, holds_some, sameMember,
    Bool.and_eq_true, decide_eq_true_eq, holds_equal]
  rintro ⟨hRun, hType, hSequence, hGrant⟩
  exact hNone newer hNewer (hRun.trans hOf) hType hSequence hGrant

theorem waitsForApproval_of_awaits {db : Database} {run : RunRow}
    (h : AwaitsApproval db run) :
    (waitsForApproval db run).holds = true := by
  obtain ⟨event, hEvent, hOf, hType, hState, hNone⟩ := h
  rw [waitsForApproval, holds_existsRow]
  refine ⟨event, hEvent, ?_⟩
  have hPending : jsonExtract event.data (js "state") =
      some (.text (js "pending")) := by
    rw [jsonExtract, hState]
    rfl
  have hUnanswered := answered_fails hOf hNone
  simp [isApproval, hOf, hType, hPending, holds_equal_some, hUnanswered]

/-- An approval without a later one of its kind is not superseded. -/
theorem superseded_fails {db : Database} {pod : JsString} {key : ApprovalKey}
    {event : RunEvent} {owner : RunRow} (hPod : owner.podId = pod)
    (h : NewestApproval db pod key event) :
    (superseded db owner event).fails = true := by
  rw [superseded, fails_existsRow]
  intro newer hNewer
  rw [← Bool.not_eq_true, holds_existsRow]
  rintro ⟨other, hOther, hHolds⟩
  simp only [holds_both, isApproval, holds_textIs, sameMember,
    Bool.and_eq_true, decide_eq_true_eq, holds_equal, holds_later] at hHolds
  obtain ⟨hOwns, hSamePod, hType, ⟨_, hPermission, hPermission'⟩,
    ⟨_, hIssuer, hIssuer'⟩, ⟨_, hSubject, hSubject'⟩, hLater⟩ := hHolds
  have hApproval : ApprovalOf db pod key newer :=
    { stored := hNewer
      approval := hType
      owned := ⟨other, hOther, hOwns, hSamePod.trans hPod⟩
      permission := by rw [hPermission, ← hPermission', h.permission]
      issuer := by rw [hIssuer, ← hIssuer', h.issuer]
      subject := by rw [hSubject, ← hSubject', h.subject] }
  exact absurd hLater (not_lt.mpr (h.newest newer hApproval))

/-- The run of a newest approval is not a candidate. -/
theorem holdsNewestApproval_of_newest {db : Database} {pod : JsString}
    {key : ApprovalKey} {event : RunEvent} {run : RunRow}
    (h : NewestApproval db pod key event) (hRun : run.id = event.runId) :
    (holdsNewestApproval db run).holds = true := by
  obtain ⟨owner, hOwner, hOwns, hPod⟩ := h.owned
  have hFails := superseded_fails hPod h
  rw [holdsNewestApproval, holds_existsRow]
  refine ⟨event, h.stored, (holds_existsRow _ _).mpr ⟨owner, hOwner, ?_⟩⟩
  simp [isApproval, hasMember, h.approval, h.permission, h.issuer, h.subject,
    hOwns, hRun, hFails]

/-- No run that must stay is a candidate. -/
theorem prunable_of_protected {db : Database} {run : RunRow}
    (hRun : run ∈ db.runs.rows) (h : Protected db run) :
    (prunable db run).holds = false := by
  rw [← Bool.not_eq_true]
  simp only [prunable, holds_both, holds_negate, Bool.and_eq_true, holds_some,
    decide_eq_true_eq]
  rintro ⟨hPosition, hFinished, hState, hLease, hHolds, hNames, hWaits, -⟩
  have hNot : ∀ t : Truth, t.fails = true → t.holds ≠ true := by
    intro t hFails
    rcases t with _ | _ | _ <;> simp_all [Truth.holds, Truth.fails]
  rcases h with hRunning | hOpen | hLeased | hNewest | hInput | hAwaits
  · refine hNot _ hState ?_
    rw [holds_textIs]
    exact decide_eq_true hRunning
  · rw [hOpen] at hFinished
    cases hFinished
  · exact hNot _ hLease ((leased_iff db run).mpr hLeased)
  · rw [runPosition_eq hRun] at hPosition
    unfold AmongNewest at hNewest
    omega
  · obtain ⟨input, hInput, hUnsettled, hReferenced⟩ := hInput
    cases input_seen hInput hUnsettled hReferenced with
    | inl hSeen => exact hNot _ hHolds hSeen
    | inr hSeen => exact hNot _ hNames hSeen
  · exact hNot _ hWaits (waitsForApproval_of_awaits hAwaits)

theorem mem_candidates {scan : ScanOrder} {db : Database} {id : JsString}
    (h : id ∈ candidates scan db) :
    ∃ run ∈ db.runs.rows, run.id = id ∧ (prunable db run).holds = true := by
  obtain ⟨run, hRun, rfl⟩ := List.mem_map.mp h
  obtain ⟨hVisited, hPrunable⟩ :=
    List.mem_filter.mp (List.mem_of_mem_take hRun)
  exact ⟨run, (scan.perm _).mem_iff.mp hVisited, rfl, hPrunable⟩

/-- The id of a run that must stay is not chosen. -/
theorem notMem_candidates_of_protected {scan : ScanOrder} {db : Database}
    {run : RunRow} (hRun : run ∈ db.runs.rows) (h : Protected db run) :
    run.id ∉ candidates scan db := by
  intro hChosen
  obtain ⟨other, hOther, hId, hPrunable⟩ := mem_candidates hChosen
  obtain rfl : other = run := Rows.eq_of_key hOther hRun hId
  rw [prunable_of_protected hRun h] at hPrunable
  cases hPrunable

/-- The run of a newest approval is not chosen, whatever else is: the
approval that supersedes another is never itself in the batch where it is
the newest. -/
theorem notMem_candidates_of_newest {scan : ScanOrder} {db : Database}
    {pod : JsString} {key : ApprovalKey} {event : RunEvent}
    (h : NewestApproval db pod key event) :
    event.runId ∉ candidates scan db := by
  intro hChosen
  obtain ⟨run, -, hId, hPrunable⟩ := mem_candidates hChosen
  have hHolds := holdsNewestApproval_of_newest h hId
  have hFails : (holdsNewestApproval db run).fails = true := by
    simp only [prunable, holds_both, holds_negate, Bool.and_eq_true]
      at hPrunable
    exact hPrunable.2.2.2.2.2.2.2
  rw [holds, beq_iff_eq] at hHolds
  rw [hHolds] at hFails
  cases hFails

/-- Among approvals of one kind there is a newest. -/
theorem exists_newest {db : Database} {pod : JsString} {key : ApprovalKey}
    {event : RunEvent} (h : ApprovalOf db pod key event) :
    ∃ newest, NewestApproval db pod key newest := by
  have hFinite : {e | ApprovalOf db pod key e}.Finite :=
    (List.finite_toSet db.events).subset (fun e he => he.stored)
  obtain ⟨newest, hNewest, hMax⟩ :=
    Set.exists_max_image _ eventKey hFinite ⟨event, h⟩
  exact ⟨newest, { hNewest with newest := hMax }⟩

/-! ## One deletion -/

/-- The database without one run. -/
def withoutRun (id : JsString) (db : Database) : Database :=
  { runs := db.runs.keep (fun run => run.id ≠ id)
    events := db.events.filter (fun row => row.runId ≠ id)
    inputs := db.inputs.filter (fun row => row.runId ≠ id)
    accepted := db.accepted.map (releaseInput id)
    leases := db.leases
    domains := db.domains.filter (fun row => row.runId ≠ id)
    reviews := db.reviews.filter (fun row => row.runId ≠ id)
    effects := releaseEffects id db.effects
    controlRuns := db.controlRuns.filter (fun row =>
      !(row.kind = js "pod" && row.runId = id))
    jobs := db.jobs ++ [⟨id, none⟩] }

theorem returns_removeRun {id : JsString} {db after : Database}
    (h : Returns (removeRun id) db () after) : after = withoutRun id db := by
  unfold removeRun insertJob deleteRun at h
  simp only [returns_bind, returns_check, returns_query, returns_write] at h
  obtain ⟨_, _, ⟨-, rfl⟩, _, _, ⟨_, _, ⟨-, rfl⟩, rfl⟩, _, _, rfl, _, _, rfl, _, _,
    rfl, _, _, rfl, _, _, ⟨-, rfl⟩, rfl⟩ := h
  rfl

theorem filter_filter_of_imp {α : Type} {p q : α → Bool} {rows : List α}
    (h : ∀ row, p row = true → q row = true) :
    (rows.filter q).filter p = rows.filter p := by
  rw [List.filter_filter]
  refine List.filter_congr (fun row _ => ?_)
  cases hp : p row with
  | false => rfl
  | true => rw [h row hp]; rfl

/-- A change of rows a filter does not pass leaves what it passes. -/
theorem filter_map_of_fixed {α : Type} {p : α → Bool} {f : α → α}
    {rows : List α} (hSame : ∀ row, p (f row) = p row)
    (hFixed : ∀ row, p row = true → f row = row) :
    (rows.map f).filter p = rows.filter p := by
  induction rows with
  | nil => rfl
  | cons row rows ih =>
      rw [List.map_cons, List.filter_cons, List.filter_cons, hSame, ih]
      split_ifs with hRow
      · rw [hFixed row hRow]
      · rfl

theorem isOf_iff (id : JsString) (runId : Option JsString) :
    isOf id runId = true ↔ runId = some id := by
  simp [isOf]

section Turn

variable {id other : JsString}

theorem releaseInput_of_other (hNe : other ≠ id) (input : AcceptedEvent) :
    isOf other (releaseInput id input).runId = isOf other input.runId ∧
      (isOf other input.runId = true → releaseInput id input = input) := by
  unfold releaseInput
  split_ifs with hReleased
  · rw [Bool.and_eq_true, isOf_iff] at hReleased
    have hFalse : isOf other input.runId = false := by
      rw [← Bool.not_eq_true, isOf_iff, hReleased.1]
      exact fun h => hNe (Option.some.inj h).symm
    rw [hFalse]
    exact ⟨rfl, fun h => nomatch h⟩
  · exact ⟨rfl, fun _ => rfl⟩

/-- The effects of another run are neither released nor deleted. -/
theorem filter_releaseEffects (hNe : other ≠ id) (effects : List Effect) :
    (releaseEffects id effects).filter (fun row => isOf other row.runId) =
      effects.filter (fun row => isOf other row.runId) := by
  have hFalse : ∀ effect : Effect, isOf other effect.runId = true →
      isOf id effect.runId = false := by
    intro effect hOther
    rw [isOf_iff] at hOther
    rw [← Bool.not_eq_true, isOf_iff, hOther]
    exact fun h => hNe (Option.some.inj h)
  rw [releaseEffects, filter_filter_of_imp
    (fun effect hOther => by rw [hFalse effect hOther]; rfl)]
  refine filter_map_of_fixed (fun effect => ?_) (fun effect hOther => ?_)
  · split_ifs with hReleased
    · rw [Bool.and_eq_true] at hReleased
      cases hOther : isOf other effect.runId with
      | false => rfl
      | true => rw [hFalse effect hOther] at hReleased; cases hReleased.1
    · rfl
  · rw [hFalse effect hOther]
    rfl

/-- A deletion leaves the rows of every other run. -/
theorem rowsOf_withoutRun (hNe : other ≠ id) (db : Database) :
    rowsOf (withoutRun id db) other = rowsOf db other := by
  have hKeep : ∀ runId : JsString, decide (runId = other) = true →
      decide (runId ≠ id) = true := by
    intro runId hOther
    rw [decide_eq_true_eq] at hOther ⊢
    exact hOther ▸ hNe
  unfold rowsOf withoutRun
  congr 1
  · exact filter_filter_of_imp (fun row => hKeep row.id)
  · exact filter_filter_of_imp (fun row => hKeep row.runId)
  · exact filter_filter_of_imp (fun row => hKeep row.runId)
  · exact filter_map_of_fixed (fun row => (releaseInput_of_other hNe row).1)
      (fun row => (releaseInput_of_other hNe row).2)
  · exact filter_filter_of_imp (fun row => hKeep row.runId)
  · exact filter_filter_of_imp (fun row => hKeep row.runId)
  · exact filter_releaseEffects hNe db.effects
  · refine filter_filter_of_imp (fun row hOther => ?_)
    have hFalse : decide (row.runId = id) = false := by
      simpa using hKeep row.runId hOther
    rw [hFalse, Bool.and_false]
    rfl

end Turn

/-- A completed effect outlives the run, at most without its run. -/
theorem mem_releaseEffects {id : JsString} {effects : List Effect}
    {effect : Effect} (hEffect : effect ∈ effects)
    (hState : effect.state = js "completed") :
    effect ∈ releaseEffects id effects ∨
      { effect with runId := none } ∈ releaseEffects id effects := by
  unfold releaseEffects
  cases hOf : isOf id effect.runId with
  | false =>
      left
      refine List.mem_filter.mpr ⟨List.mem_map.mpr ⟨effect, hEffect, ?_⟩, ?_⟩
      · rw [hOf]
        rfl
      · rw [hOf]
        rfl
  | true =>
      right
      refine List.mem_filter.mpr ⟨List.mem_map.mpr ⟨effect, hEffect, ?_⟩, rfl⟩
      rw [hOf, hState]
      rfl

/-! ## The batch -/

/-- What every turn of the loop keeps of the first database. -/
structure Rest (chosen : List JsString) (db now : Database) : Prop where
  rows : ∀ id, id ∉ chosen → rowsOf now id = rowsOf db id
  effects : ∀ effect ∈ db.effects, effect.state = js "completed" →
    effect ∈ now.effects ∨ { effect with runId := none } ∈ now.effects

theorem rest_withoutRun {chosen : List JsString} {db now : Database}
    {id : JsString} (hChosen : id ∈ chosen) (h : Rest chosen db now) :
    Rest chosen db (withoutRun id now) where
  rows other hOther := by
    have hNe : other ≠ id := fun hSame => hOther (hSame ▸ hChosen)
    rw [rowsOf_withoutRun hNe, h.rows other hOther]
  effects effect hEffect hState := by
    cases h.effects effect hEffect hState with
    | inl hKept => exact mem_releaseEffects hKept hState
    | inr hReleased =>
        right
        cases mem_releaseEffects hReleased hState with
        | inl hKept => exact hKept
        | inr hAgain => exact hAgain

/-- After the loop no chosen run is left. -/
theorem id_notMem_of_each {ids : List JsString} {db after : Database}
    (h : Returns (each ids removeRun) db () after) :
    ∀ run ∈ after.runs.rows, run ∈ db.runs.rows ∧ run.id ∉ ids := by
  induction ids generalizing db with
  | nil =>
      obtain ⟨-, rfl⟩ := returns_pure.mp h
      exact fun run hRun => ⟨hRun, List.not_mem_nil⟩
  | cons id ids ih =>
      obtain ⟨_, first, hFirst, hRest⟩ := returns_bind.mp h
      obtain rfl := returns_removeRun hFirst
      intro run hRun
      obtain ⟨hLeft, hNotMem⟩ := ih hRest run hRun
      obtain ⟨hRun', hKept⟩ := Rows.mem_keep.mp hLeft
      have hNe : run.id ≠ id := by simpa using hKept
      exact ⟨hRun', fun hMem => (List.mem_cons.mp hMem).elim hNe hNotMem⟩

theorem rest_of_each {ids : List JsString} {db after : Database}
    (h : Returns (each ids removeRun) db () after) : Rest ids db after := by
  refine returns_each (Rest ids db) h
    { rows := fun _ _ => rfl
      effects := fun effect hEffect _ => Or.inl hEffect } ?_
  intro id hId now next hNow hTurn
  obtain rfl := returns_removeRun hTurn
  exact rest_withoutRun hId hNow

/-- A row of a run whose rows are the same in both databases. -/
theorem mem_runs_of_rowsOf {db after : Database} {run : RunRow}
    (hRows : rowsOf after run.id = rowsOf db run.id)
    (hRun : run ∈ db.runs.rows) : run ∈ after.runs.rows := by
  have hMem : run ∈ (rowsOf db run.id).run :=
    List.mem_filter.mpr ⟨hRun, by simp⟩
  rw [← hRows] at hMem
  exact (List.mem_filter.mp hMem).1

theorem mem_events_of_rowsOf {db after : Database} {event : RunEvent}
    (hRows : rowsOf after event.runId = rowsOf db event.runId)
    (hEvent : event ∈ db.events) : event ∈ after.events := by
  have hMem : event ∈ (rowsOf db event.runId).events :=
    List.mem_filter.mpr ⟨hEvent, by simp⟩
  rw [← hRows] at hMem
  exact (List.mem_filter.mp hMem).1

/-- Every call of `removeHistory`, whatever order the query scans the runs
in and whether it returns or throws, deletes settled history only. -/
theorem removeHistory_spares (scan : ScanOrder) (db : Database) :
    Spared db (removeHistory scan db).2 := by
  have hSame : Spared db db :=
    { protected_runs := fun run hRun _ => hRun
      newest_approvals := fun _ _ event h => h.stored
      evidence := fun _ _ event h =>
        (exists_newest h).imp (fun newest hNewest =>
          ⟨hNewest.stored, hNewest⟩)
      completed_effects := fun effect hEffect _ => Or.inl hEffect
      rows := fun _ _ => rfl }
  have hOutcome : Atomic (removeHistory scan) := atomic_transaction _
  cases hOutcome.outcome db with
  | inr hThrow =>
      obtain ⟨error, hRun⟩ := hThrow
      rw [hRun]
      exact hSame
  | inl hReturn =>
      obtain ⟨_, after, hReturns, hRun⟩ := hReturn
      rw [hRun]
      obtain ⟨chosen, hChosen, hEach⟩ :=
        returns_query_bind.mp (returns_transaction.mp hReturns)
      obtain rfl : candidates scan db = chosen := Except.ok.inj hChosen
      have hRest := rest_of_each hEach
      have hNewest : ∀ pod key event, NewestApproval db pod key event →
          event ∈ after.events := fun pod key event h =>
        mem_events_of_rowsOf
          (hRest.rows _ (notMem_candidates_of_newest h)) h.stored
      exact
        { protected_runs := fun run hRun hProtected =>
            mem_runs_of_rowsOf (hRest.rows _
              (notMem_candidates_of_protected hRun hProtected)) hRun
          newest_approvals := hNewest
          evidence := fun pod key event h =>
            (exists_newest h).imp (fun newest hMax =>
              ⟨hNewest pod key newest hMax, hMax⟩)
          completed_effects := hRest.effects
          rows := fun run hRun =>
            hRest.rows _ (id_notMem_of_each hEach run hRun).2 }

end OpenApe.Ports.RunRetention
