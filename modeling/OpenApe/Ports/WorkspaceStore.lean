import OpenApe.Ports.CentralParts
import OpenApe.Verified.KeyedTable
import OpenApe.Verified.Transactions

/-!
# The workspace store of the relay (`workspace-store.ts`)

The tables of the database and every call that writes them.  A call runs to
its end before the next one starts; a throw inside `transaction` puts the
tables back.

A stored part is kept as the value whose `JSON.stringify` is its text, as
`JSON.parse` gives it back; so are commands and results.  Each call reads
the clock where the source writes `this.now()`: `now i` is its reading number
`i`, and readings may be anything.  `randomUUID()` is an argument of `begin`.
-/

namespace OpenApe.Ports.WorkspaceStore

open Verified.JsText Verified.Json Verified.KeyedTable Verified.Transactions
  Verified.Transactions.Action Verified.Unicode
open CentralValues CentralCommands CentralParts

/-- The parts' runtime and the parsers of commands. -/
structure WorkspaceRuntime extends PartsRuntime where
  parsers : ChannelParsers

/-! ## Rows -/

structure Owner where
  issuer : JsString
  subject : JsString
  deriving DecidableEq

/-- `JSON.stringify([owner.issuer, owner.subject])` -/
def ownerKey (owner : Owner) : JsString :=
  stringify (.array [.string owner.issuer, .string owner.subject])

structure WorkspaceActor where
  id : JsString
  generation : JsString
  owner : Owner

structure RuntimeRow where
  id : JsString
  owner : JsString
  generation : JsString
  lease : JsString
  heartbeat : Int := 0
  revision : Nat := 0
  hash : JsString := []
  previousHash : JsString := []
  seenAt : Int := 0
  partsHash : JsString := []

inductive OperationState where
  | accepted
  | started
  | applied
  | failed
  | unknown
  deriving DecidableEq

structure OperationRow where
  id : JsString
  owner : JsString
  runtimeId : JsString
  requestHash : JsString
  command : CentralCommand
  state : OperationState
  result : Option JsonValue
  error : Option JsString
  revision : Nat
  expires : Int

structure PublicationRow where
  id : JsString
  runtimeId : JsString
  hash : JsString
  revision : Nat

structure ChangeRow where
  sequence : Nat
  owner : JsString
  runtimeId : JsString
  time : Int

structure ArtifactRow where
  runtimeId : JsString
  podId : JsString
  hash : JsString
  content : List UInt8

structure PartRow where
  runtimeId : JsString
  key : JsString
  hash : JsString
  value : JsonValue

structure StagedRow where
  runtimeId : JsString
  hash : JsString
  value : JsonValue

abbrev Runtimes := Table RuntimeRow.id
abbrev Operations := Table OperationRow.id
abbrev Publications := Table PublicationRow.id
abbrev Artifacts :=
  Table (fun row : ArtifactRow => (row.runtimeId, row.podId, row.hash))
abbrev Parts := Table (fun row : PartRow => (row.runtimeId, row.key))
abbrev StagedParts := Table (fun row : StagedRow => (row.runtimeId, row.hash))

/-- The database; operations stand in `rowid` order, and `lastSequence` is
the counter behind `AUTOINCREMENT`. -/
structure Db where
  runtimes : Runtimes := Table.empty
  operations : Operations := Table.empty
  publications : Publications := Table.empty
  changes : List ChangeRow := []
  lastSequence : Nat := 0
  artifacts : Artifacts := Table.empty
  parts : Parts := Table.empty
  stagedParts : StagedParts := Table.empty

abbrev Call (α : Type) := Action Db WorkspaceError α

/-- The readings of the clock during one call. -/
abbrev Clock := Nat → Int

def conflict (code : String) : WorkspaceError := .protocol (js code) 409

def tooLarge (code : String) : WorkspaceError := .protocol (js code) 413

def stagedLimit : Nat := 256 * 1024 * 1024

/-! ## Reading -/

def row (db : Db) (owner : Owner) (id : JsString) :
    Except WorkspaceError RuntimeRow := do
  let id ← centralId (some (.string id))
  match db.runtimes.find? id with
  | some row =>
      if row.owner = ownerKey owner then .ok row
      else .error (.protocol (js "workspace_not_found") 404)
  | none => .error (.protocol (js "workspace_not_found") 404)

def hasData (row : RuntimeRow) : Bool :=
  row.hash ≠ [] && row.partsHash = row.hash

def partsOf (db : Db) (runtimeId : JsString) : List PartRow :=
  db.parts.rows.filter (fun part => part.runtimeId = runtimeId)

def manifest (db : Db) (runtimeId : JsString) : CentralManifest :=
  (partsOf db runtimeId).map fun part => (part.key, part.hash)

/-- `Object.keys(this.manifest(runtimeId))` -/
def partKeys (db : Db) (runtimeId : JsString) : List JsString :=
  (partsOf db runtimeId).map PartRow.key

def missingPart : WorkspaceError :=
  .error (js "Committed workspace part is missing")

def reader (db : Db) (runtimeId : JsString) : Reader := fun key =>
  match db.parts.find? (runtimeId, key) with
  | some part => .ok part.value
  | none => .error missingPart

def online (row : RuntimeRow) (now : Int) : Bool :=
  0 < row.heartbeat && now < row.heartbeat + centralLeaseMs

/-- `pods.some(pod => pod.id === podId)` -/
def somePod (podId : Unknown) : List JsonValue → Except WorkspaceError Bool
  | [] => .ok false
  | pod :: pods => do
      let id ← property (some pod) "id"
      if strictEq id podId then .ok true else somePod podId pods

/-- One turn of the loop of `ready` over the Pods. -/
def readyPod (db : Db) (runtimeId : JsString) (workspace : JsonValue)
    (podId : Unknown) : Except WorkspaceError Unit := do
  let pods ← property (some workspace) "pods"
  let items ← arrayItems pods
  let found ← somePod podId items
  throwIf (!found) (.protocol (js "pod_not_found") 404)
  let view ← reader db runtimeId (podKey (textOf podId))
  let isReady ← property (some view) "ready"
  throwIf (!truthy isReady) (conflict "pod_offline")

def ready (db : Db) (owner : Owner) (id : JsString) (podIds : List Unknown)
    (now : Int) : Except WorkspaceError RuntimeRow := do
  let found ← row db owner id
  throwIf (!online found now || !hasData found) (conflict "pod_offline")
  let workspace ← reader db found.id (js "workspace")
  podIds.forM (readyPod db found.id workspace)
  return found

/-- `this.scope(row).workspace` -/
def scope (db : Db) (row : RuntimeRow) : Except WorkspaceError JsonValue :=
  reader db row.id (js "workspace")

/-- `this.runtime(actor, lease)`, and `assertLease`. -/
def runtimeRow (db : Db) (actor : WorkspaceActor) (lease : JsString) :
    Except WorkspaceError RuntimeRow := do
  let found ← row db actor.owner actor.id
  throwIf (found.generation ≠ actor.generation || found.lease ≠ lease)
    (conflict "stale_workspace_runtime")
  return found

structure CentralOperation where
  id : JsString
  runtimeId : JsString
  command : CentralCommand
  state : OperationState
  result : JsonValue
  error : Option JsString
  revision : Nat

def OperationRow.operation (row : OperationRow) : CentralOperation where
  id := row.id
  runtimeId := row.runtimeId
  command := row.command
  state := row.state
  result := row.result.getD .null
  error := row.error
  revision := row.revision

def operation (db : Db) (owner : Owner) (id : JsString) :
    Except WorkspaceError CentralOperation :=
  match db.operations.find? id with
  | some row =>
      if row.owner = ownerKey owner then .ok row.operation
      else .error (.protocol (js "workspace_operation_not_found") 404)
  | none => .error (.protocol (js "workspace_operation_not_found") 404)

/-- The operations of a runtime in one of some states. -/
def inStates (db : Db) (runtimeId : JsString) (states : List OperationState) :
    List OperationRow :=
  db.operations.rows.filter fun row =>
    row.runtimeId = runtimeId ∧ row.state ∈ states

/-! ## Single writes -/

/-- `INSERT INTO changes …`, and the removal of old ones. -/
def recordChange (owner runtimeId : JsString) (now : Int) (db : Db) : Db :=
  let sequence := db.lastSequence + 1
  let changes := db.changes ++ [⟨sequence, owner, runtimeId, now⟩]
  { db with
    lastSequence := sequence
    changes := changes.filter fun change =>
      change.owner ≠ owner ∨ sequence ≤ change.sequence + 1000 }

def changed (row : RuntimeRow) (now : Int) : Call Unit :=
  write (recordChange row.owner row.id now)

/-- `UPDATE runtimes SET … WHERE id=?` -/
def updateRuntime (id : JsString) (f : RuntimeRow → RuntimeRow)
    (hf : ∀ row, (f row).id = row.id) : Call Unit :=
  write fun db =>
    { db with
      runtimes := db.runtimes.update (fun row => row.id = id) f hf }

/-- `UPDATE operations SET … WHERE p` -/
def updateOperations (p : OperationRow → Bool)
    (f : OperationRow → OperationRow) (hf : ∀ row, (f row).id = row.id) :
    Call Unit :=
  write fun db => { db with operations := db.operations.update p f hf }

/-- `DELETE FROM staged_parts WHERE runtime_id=?` -/
def clearStaged (runtimeId : JsString) : Call Unit :=
  write fun db =>
    { db with
      stagedParts := db.stagedParts.keep fun row => row.runtimeId ≠ runtimeId }

/-- `DELETE FROM artifacts WHERE p` -/
def removeArtifacts (p : ArtifactRow → Bool) : Call Unit :=
  write fun db => { db with artifacts := db.artifacts.keep fun row => !p row }

/-! ## Connecting -/

def OperationRow.disconnected (row : OperationRow) : OperationRow :=
  { row with
    state := .unknown
    error := some (js "Runtime disconnected; reconcile before retrying") }

def OperationRow.unstarted (row : OperationRow) : OperationRow :=
  { row with
    state := .failed
    error := some (js "Pod went offline before execution") }

theorem OperationRow.disconnected_id (row : OperationRow) :
    row.disconnected.id = row.id := rfl

theorem OperationRow.unstarted_id (row : OperationRow) :
    row.unstarted.id = row.id := rfl

def OperationRow.isIn (runtimeId : JsString) (state : OperationState)
    (row : OperationRow) : Bool :=
  row.runtimeId = runtimeId ∧ row.state = state

/-- `INSERT INTO runtimes … ON CONFLICT(id) DO UPDATE SET lease, heartbeat` -/
def connectedRow (previous : Option RuntimeRow) (actor : WorkspaceActor)
    (lease : JsString) : RuntimeRow :=
  match previous with
  | some row => { row with lease := lease, heartbeat := 0 }
  | none =>
      { id := actor.id
        owner := ownerKey actor.owner
        generation := actor.generation
        lease := lease }

structure BeginAnswer where
  lease : JsString
  revision : Nat
  hash : JsString
  pending : List CentralOperation
  format : Nat
  runtimeId : JsString
  manifest : CentralManifest

def centralFormat : Nat := 2

/-- The two refusals of `begin`. -/
def checkPrevious (previous : Option RuntimeRow) (actor : WorkspaceActor)
    (now : Int) : Except WorkspaceError Unit :=
  match previous with
  | none => .ok ()
  | some row => do
      throwIf (row.owner ≠ ownerKey actor.owner ||
          row.generation ≠ actor.generation)
        (conflict "workspace_binding_changed")
      throwIf (online row now) (conflict "workspace_already_connected")

/-- The operations that wait for reconciliation. -/
def pendingOperations (db : Db) (actor : WorkspaceActor) :
    Except WorkspaceError (List CentralOperation) :=
  (inStates db actor.id [.unknown]).mapM fun row =>
    operation db actor.owner row.id

def begin (now : Clock) (lease : JsString) (actor : WorkspaceActor) :
    Call BeginAnswer :=
  transaction do
    let previous ← query fun db => .ok (db.runtimes.find? actor.id)
    check (checkPrevious previous actor (now 0))
    write fun db =>
      { db with
        runtimes := db.runtimes.put (connectedRow previous actor lease) }
    updateOperations (OperationRow.isIn actor.id .started)
      OperationRow.disconnected OperationRow.disconnected_id
    updateOperations (OperationRow.isIn actor.id .accepted)
      OperationRow.unstarted OperationRow.unstarted_id
    clearStaged actor.id
    let found ← query fun db => row db actor.owner actor.id
    changed found (now 1)
    let pending ← query fun db => pendingOperations db actor
    let parts ← query fun db => .ok (manifest db found.id)
    return {
      lease, revision := found.revision, hash := found.hash, pending,
      format := centralFormat, runtimeId := found.id,
      manifest := if hasData found then parts else [] }

/-- The refusals of `heartbeat`. -/
def checkHeartbeat (db : Db) (row : RuntimeRow) (hash : JsString) :
    Except WorkspaceError Unit := do
  throwIf (!(inStates db row.id [.unknown]).isEmpty)
    (conflict "workspace_operation_unresolved")
  throwIf (!hasData row || (row.hash ≠ hash && row.previousHash ≠ hash))
    (conflict "workspace_reconciliation_required")

/-- `if (!previouslyOnline) this.changed(row)` -/
def changedUnless (previouslyOnline : Bool) (row : RuntimeRow) (now : Int) :
    Call Unit :=
  if previouslyOnline then pure () else changed row now

/-- `heartbeat=?,seen_at=?` -/
def RuntimeRow.beat (heartbeat seenAt : Int) (row : RuntimeRow) :
    RuntimeRow :=
  { row with heartbeat := heartbeat, seenAt := seenAt }

theorem RuntimeRow.beat_id (heartbeat seenAt : Int) (row : RuntimeRow) :
    (row.beat heartbeat seenAt).id = row.id := rfl

/-- `heartbeat=0` -/
def RuntimeRow.silent (row : RuntimeRow) : RuntimeRow :=
  { row with heartbeat := 0 }

theorem RuntimeRow.silent_id (row : RuntimeRow) : row.silent.id = row.id :=
  rfl

def heartbeat (now : Clock) (actor : WorkspaceActor) (lease hash : JsString) :
    Call Unit := do
  let found ← query fun db => runtimeRow db actor lease
  query fun db => checkHeartbeat db found hash
  updateRuntime found.id (RuntimeRow.beat (now 1) (now 2))
    (RuntimeRow.beat_id (now 1) (now 2))
  changedUnless (online found (now 0)) found (now 3)

def disconnect (now : Clock) (actor : WorkspaceActor) (lease : JsString) :
    Call Unit := do
  let found ← query fun db => runtimeRow db actor lease
  updateRuntime found.id RuntimeRow.silent RuntimeRow.silent_id
  changed found (now 0)

/-! ## Publishing -/

structure Completion where
  id : JsString
  result : Unknown
  error : Option JsString

/-- A text or `null`. -/
def nullable : Option JsString → JsonValue
  | some text => .string text
  | none => .null

/-- `completion ?? null`; an undefined result is no member. -/
def completionJson : Option Completion → JsonValue
  | none => .null
  | some completion =>
      .object ((js "id", .string completion.id) ::
        (completion.result.map fun result => (js "result", result)).toList ++
          [(js "error", nullable completion.error)])

/-- The states that hold a publication up. -/
def blockingStates (completion : Option Completion) : List OperationState :=
  if completion.isSome then [.started] else [.started, .unknown]

/-- `begunPublication`: the revision of the publication when it is a
repetition. -/
def begunPublication (db : Db) (row : RuntimeRow) (id : JsString)
    (expected : Nat) (requestHash : JsString) (completion : Option Completion) :
    Except WorkspaceError (Option Nat) :=
  match db.publications.find? id with
  | some prior =>
      if prior.runtimeId ≠ row.id ∨ prior.hash ≠ requestHash then
        .error (conflict "publication_conflict")
      else .ok (some prior.revision)
  | none => do
      throwIf (row.revision ≠ expected)
        (conflict "workspace_revision_conflict")
      throwIf ((inStates db row.id (blockingStates completion)).any
          fun other => other.id ≠ (completion.map Completion.id).getD [])
        (conflict "workspace_operation_unresolved")
      return none

/-- Whether a file of the artifacts part is stored with its size. -/
def checkStored (db : Db) (runtimeId : JsString) (file : JsonValue) :
    Except WorkspaceError Unit := do
  let podId ← property (some file) "podId"
  let stored := match text? podId, text? (file.field? (js "hash")) with
    | some podId, some hash => db.artifacts.find? (runtimeId, podId, hash)
    | _, _ => none
  throwIf (!stored.any fun row =>
      safeInteger? (file.field? (js "size")) == some (row.content.length : Int))
    (conflict "workspace_artifact_missing")

def checkArtifacts (db : Db) (row : RuntimeRow) :
    Except WorkspaceError Unit := do
  let artifacts ← reader db row.id (js "artifacts")
  let files ← iterate (some artifacts)
  files.forM (checkStored db row.id)

/-- `previous_hash=hash,hash=?,parts_hash=?,revision=revision+1` -/
def RuntimeRow.published (hash : JsString) (row : RuntimeRow) : RuntimeRow :=
  { row with
    previousHash := row.hash
    hash := hash
    partsHash := hash
    revision := row.revision + 1 }

theorem RuntimeRow.published_id (hash : JsString) (row : RuntimeRow) :
    (row.published hash).id = row.id := rfl

/-- `parts_hash=?` -/
def RuntimeRow.confirmed (hash : JsString) (row : RuntimeRow) : RuntimeRow :=
  { row with partsHash := hash }

theorem RuntimeRow.confirmed_id (hash : JsString) (row : RuntimeRow) :
    (row.confirmed hash).id = row.id := rfl

/-- The update of the runtime that a publication makes. -/
def publishHash (row : RuntimeRow) (hash : JsString) : Call Unit :=
  if row.hash ≠ hash then
    updateRuntime row.id (RuntimeRow.published hash)
      (RuntimeRow.published_id hash)
  else
    updateRuntime row.id (RuntimeRow.confirmed hash)
      (RuntimeRow.confirmed_id hash)

def OperationRow.settled (result : JsonValue) (error : Option JsString)
    (revision : Nat) (row : OperationRow) : OperationRow :=
  { row with
    state := if (error.getD []).isEmpty then .applied else .failed
    result := some result
    error := error
    revision := revision }

theorem OperationRow.settled_id (result : JsonValue) (error : Option JsString)
    (revision : Nat) (row : OperationRow) :
    (row.settled result error revision).id = row.id := rfl

/-- The result of a completion, where it is JSON of bearable size. -/
def completionResult (completion : Completion) :
    Except WorkspaceError JsonValue :=
  match completion.result with
  | none => .error (.typeError (js "Received undefined"))
  | some result =>
      if centralMaxBytes < utf8Length (stringify result) then
        .error (tooLarge "workspace_result_too_large")
      else .ok result

/-- The operation that a completion settles. -/
def completedOperation (db : Db) (actor : WorkspaceActor) (row : RuntimeRow)
    (completion : Completion) : Except WorkspaceError CentralOperation := do
  let id ← centralId (some (.string completion.id))
  let found ← operation db actor.owner id
  throwIf (found.runtimeId ≠ row.id ||
      (found.state ≠ .started && found.state ≠ .unknown))
    (conflict "workspace_operation_conflict")
  return found

def isDeletePod (command : CentralCommand) : Bool :=
  command.channel == js "data" &&
    isText (command.body.field? (js "type")) (js "deletePod")

/-- The Pod that the command deleted, when the workspace no longer lists
it. -/
def deletedPod (db : Db) (row : RuntimeRow) (command : CentralCommand) :
    Except WorkspaceError (Option JsString) :=
  if isDeletePod command then do
    let podId ← centralId (command.body.field? (js "podId"))
    let workspace ← scope db row
    let pods ← property (some workspace) "pods"
    let items ← arrayItems pods
    let found ← somePod (some (.string podId)) items
    return if found then none else some podId
  else .ok none

/-- `DELETE FROM artifacts WHERE runtime_id=? AND pod_id=?` -/
def removePodArtifacts (runtimeId : JsString) : Option JsString → Call Unit
  | none => pure ()
  | some podId =>
      removeArtifacts fun row => row.runtimeId = runtimeId ∧ row.podId = podId

def complete (actor : WorkspaceActor) (row : RuntimeRow) (revision : Nat) :
    Option Completion → Call Unit
  | none => pure ()
  | some completion => do
      let result ← check (completionResult completion)
      let found ← query fun db => completedOperation db actor row completion
      updateOperations (fun other => other.id = found.id)
        (OperationRow.settled result completion.error revision)
        (OperationRow.settled_id result completion.error revision)
      let podId ← query fun db => deletedPod db row found.command
      removePodArtifacts row.id podId

structure PublishAnswer where
  revision : Nat
  hash : JsString
  deriving DecidableEq

def commitPublication (now : Int) (actor : WorkspaceActor) (found : RuntimeRow)
    (id hash requestHash : JsString) (completion : Option Completion) :
    Call PublishAnswer := do
  query fun db => checkArtifacts db found
  publishHash found hash
  let after ← query fun db => row db actor.owner actor.id
  complete actor found after.revision completion
  write fun db =>
    { db with
      publications :=
        db.publications.put ⟨id, found.id, requestHash, after.revision⟩ }
  clearStaged found.id
  changedUnless (found.hash = hash && completion.isNone) found now
  return ⟨after.revision, hash⟩

/-- One entry of what is staged. -/
def checkStagedEntry (runtime : PartsRuntime) (entry : JsString × JsonValue) :
    Except WorkspaceError Unit := do
  throwIf (!isHash entry.1 ||
      partHash runtime (stringify entry.2) ≠ entry.1)
    (protocolError (js "part_hash_mismatch"))
  throwIf (decide (centralMaxBytes < utf8Length (stringify entry.2)))
    (tooLarge "workspace_too_large")

/-- `SELECT sum(length(value))`, in characters. -/
def stagedSize (db : Db) (runtimeId : JsString) : Nat :=
  ((db.stagedParts.rows.filter fun row => row.runtimeId = runtimeId).map
    fun row => (codePoints (stringify row.value)).length).sum

def checkStagedSize (db : Db) (runtimeId : JsString)
    (entries : List (JsString × JsonValue)) : Except WorkspaceError Unit :=
  throwIf (decide (stagedLimit < stagedSize db runtimeId +
      (entries.map fun entry => utf8Length (stringify entry.2)).sum))
    (tooLarge "workspace_too_large")

def stage (runtime : WorkspaceRuntime) (actor : WorkspaceActor)
    (lease : JsString) (entries : List (JsString × JsonValue)) :
    Call Unit := do
  let found ← query fun db => runtimeRow db actor lease
  check (entries.forM (checkStagedEntry runtime.toPartsRuntime))
  transaction do
    query fun db => checkStagedSize db found.id entries
    each entries fun entry => write fun db =>
      { db with
        stagedParts := db.stagedParts.putNew ⟨found.id, entry.1, entry.2⟩ }

/-- `key NOT LIKE 'table/%'` -/
def isNotTable (key : JsString) : Bool :=
  !(js "table/").isPrefixOf (key.map asciiLower)

/-- The staged part of a hash, or a stored one. -/
def partContent (db : Db) (runtimeId hash : JsString) :
    Except WorkspaceError JsonValue :=
  match db.stagedParts.find? (runtimeId, hash) with
  | some row => .ok row.value
  | none =>
      match (partsOf db runtimeId).find? (fun part =>
          part.hash = hash ∧ isNotTable part.key = true) with
      | some part => .ok part.value
      | none => .error (conflict "workspace_part_missing")

/-- The value that a changed part is stored with. -/
def newContent (runtime : PartsRuntime) (db : Db)
    (runtimeId key hash : JsString) : Except WorkspaceError JsonValue := do
  let part ← parsePartKey key
  if part.table.isSome then .ok .null else do
    let value ← partContent db runtimeId hash
    validatePart runtime key value
    return value

/-- One turn of the loop over the changed parts; `current` is the manifest
before it. -/
def applyChange (runtime : PartsRuntime) (runtimeId : JsString)
    (current : CentralManifest) (entry : JsString × Option JsString) :
    Call Unit :=
  match entry.2 with
  | none => write fun db =>
      { db with parts := db.parts.remove (runtimeId, entry.1) }
  | some hash =>
      if current.lookup entry.1 = some hash then pure ()
      else do
        let value ← query fun db => newContent runtime db runtimeId entry.1 hash
        write fun db =>
          { db with parts := db.parts.put ⟨runtimeId, entry.1, hash, value⟩ }

/-- The arguments of `publishParts` that are checked before the store. -/
def checkEntry (entry : JsString × Option JsString) :
    Except WorkspaceError Unit := do
  let _ ← parsePartKey entry.1
  throwIf (entry.2.any fun hash => !isHash hash)
    (protocolError (js "invalid_workspace_request"))

def checkPublish (id : JsString) (expected : JsonNumber)
    (changes : List (JsString × Option JsString)) (hash : JsString) :
    Except WorkspaceError Nat := do
  let _ ← centralId (some (.string id))
  let expected ← centralRevision (some (.number expected))
  throwIf (!isHash hash) (protocolError (js "invalid_workspace_request"))
  throwIf (decide (300000 < changes.length)) (tooLarge "workspace_too_large")
  changes.forM checkEntry
  return expected

def publishHashOf (runtime : PartsRuntime) (expected : JsonNumber)
    (hash : JsString) (completion : Option Completion) : JsString :=
  partHash runtime (stringify (.array [.number expected, .string hash,
    completionJson completion]))

/-- `current.artifacts ? this.reader(row.id)('artifacts') : []` -/
def priorArtifacts (db : Db) (runtimeId : JsString)
    (current : CentralManifest) : Except WorkspaceError JsonValue :=
  if (current.lookup (js "artifacts")).any fun hash => !hash.isEmpty then
    reader db runtimeId (js "artifacts")
  else .ok (.array [])

/-- `${file.podId}:${file.hash}` -/
def retainedKey (file : JsonValue) : Except WorkspaceError JsString := do
  let podId ← property (some file) "podId"
  return textOf podId ++ js ":" ++ textOf (file.field? (js "hash"))

/-- `generated.test(file.path)`: an output that a program wrote. -/
def isGenerated (file : JsonValue) : Bool :=
  let path := textOf (file.field? (js "path"))
  match path.dropPrefix? (js "workspace/.program-output-") with
  | none => false
  | some rest => isUuid (rest.take 36) && rest.drop 36 == js ".json"

/-- The artifacts that the publication has retired. -/
def retiredArtifacts (db : Db) (runtimeId : JsString) (prior : JsonValue) :
    Except WorkspaceError (List JsonValue) := do
  let artifacts ← reader db runtimeId (js "artifacts")
  let files ← arrayItems (some artifacts)
  let kept ← files.mapM retainedKey
  let priorFiles ← iterate (some prior)
  let priorKept ← (priorFiles.filter fun file => !isGenerated file).mapM
    retainedKey
  let generated := priorFiles.filter isGenerated
  let keys ← generated.mapM retainedKey
  return (generated.zip keys).filterMap fun item =>
    if (kept ++ priorKept).contains item.2 then none else some item.1

/-- `DELETE FROM artifacts WHERE runtime_id=? AND pod_id=? AND hash=?` -/
def removeArtifact (runtimeId : JsString) (file : JsonValue) : Call Unit :=
  removeArtifacts fun row =>
    row.runtimeId = runtimeId ∧
      text? (file.field? (js "podId")) = some row.podId ∧
      text? (file.field? (js "hash")) = some row.hash

/-- What follows `begunPublication` where the publication is new. -/
def newPublication (runtime : PartsRuntime) (now : Int)
    (actor : WorkspaceActor) (found : RuntimeRow)
    (id : JsString) (changes : List (JsString × Option JsString))
    (hash requestHash : JsString) (completion : Option Completion) :
    Call PublishAnswer := do
  let current ← query fun db => .ok (manifest db found.id)
  let prior ← query fun db => priorArtifacts db found.id current
  each changes (applyChange runtime found.id current)
  query fun db => throwIf (manifestDigest runtime (manifest db found.id) ≠ hash)
    (conflict "workspace_manifest_mismatch")
  query fun db =>
    validateManifest (partKeys db found.id) (reader db found.id)
  let result ← commitPublication now actor found id hash requestHash completion
  let retired ← query fun db => retiredArtifacts db found.id prior
  each retired (removeArtifact found.id)
  return result

/-- The answer to a repeated publication, or the new one. -/
def publishNew (runtime : PartsRuntime) (now : Int) (actor : WorkspaceActor)
    (found : RuntimeRow) (id : JsString)
    (changes : List (JsString × Option JsString)) (hash requestHash : JsString)
    (completion : Option Completion) : Option Nat → Call PublishAnswer
  | some revision => pure ⟨revision, hash⟩
  | none =>
      newPublication runtime now actor found id changes hash requestHash
        completion

def publishParts (runtime : WorkspaceRuntime) (now : Clock)
    (actor : WorkspaceActor) (lease id : JsString) (expected : JsonNumber)
    (changes : List (JsString × Option JsString)) (hash : JsString)
    (completion : Option Completion) : Call PublishAnswer := do
  let revision ← check (checkPublish id expected changes hash)
  transaction do
    let found ← query fun db => runtimeRow db actor lease
    let prior ← query fun db => begunPublication db found id revision
      (publishHashOf runtime.toPartsRuntime expected hash completion)
      completion
    publishNew runtime.toPartsRuntime (now 0) actor found id changes hash
      (publishHashOf runtime.toPartsRuntime expected hash completion)
      completion prior

def putArtifact (runtime : WorkspaceRuntime) (actor : WorkspaceActor)
    (lease podId hash : JsString) (content : List UInt8) : Call Unit := do
  let _ ← query fun db => runtimeRow db actor lease
  let _ ← check (centralId (some (.string podId)))
  check (throwIf (decide (centralMaxBytes < content.length))
    (tooLarge "artifact_too_large"))
  check (throwIf (runtime.sha256 content ≠ hash)
    (protocolError (js "artifact_hash_mismatch")))
  write fun db =>
    { db with artifacts := db.artifacts.putNew ⟨actor.id, podId, hash, content⟩ }

/-! ## Operations -/

def requestHashOf (runtime : PartsRuntime) (runtimeId : JsString)
    (revision : JsonNumber) (command : CentralCommand) : JsString :=
  partHash runtime (stringify (.array [.string runtimeId, .number revision,
    command.json]))

/-- `targets.some(id => read(`pod/${id}`).localOnly)` -/
def someLocalOnly (db : Db) (runtimeId : JsString) :
    List Unknown → Except WorkspaceError Bool
  | [] => .ok false
  | podId :: podIds => do
      let pod ← reader db runtimeId (podKey (textOf podId))
      let localOnly ← property (some pod) "localOnly"
      if truthy localOnly then .ok true else someLocalOnly db runtimeId podIds

/-- `!trustedRuntime && targets.some(…)` -/
def localOnlyTarget (db : Db) (runtimeId : JsString) (trustedRuntime : Bool)
    (targets : List Unknown) : Except WorkspaceError Bool :=
  if trustedRuntime then .ok false else someLocalOnly db runtimeId targets

/-- The checks of a new operation, whose runtime they return. -/
def checkSubmission (db : Db) (now : Clock) (owner : Owner)
    (runtimeId : JsString) (revision : Nat) (command : CentralCommand)
    (trustedRuntime : Bool) : Except WorkspaceError RuntimeRow := do
  let found ← ready db owner runtimeId [] (now 0)
  let workspace ← scope db found
  let targets ← commandPodIds command (some workspace)
  let _ ← ready db owner runtimeId targets (now 1)
  let localOnly ← localOnlyTarget db found.id trustedRuntime targets
  throwIf localOnly (.protocol (js "local_pod_requires_desktop") 403)
  throwIf (found.revision ≠ revision) (conflict "workspace_revision_conflict")
  throwIf (!(inStates db runtimeId [.accepted, .started, .unknown]).isEmpty)
    (conflict "workspace_busy")
  return found

/-- The operation under an id when it is the same request's. -/
def priorOperation (prior : OperationRow) (owner : Owner)
    (requestHash : JsString) : Except WorkspaceError CentralOperation :=
  if prior.owner ≠ ownerKey owner ∨ prior.requestHash ≠ requestHash then
    .error (conflict "workspace_operation_conflict")
  else .ok prior.operation

/-- The row that `INSERT INTO operations` writes. -/
def acceptedRow (owner : Owner) (runtimeId : JsString) (revision : Nat)
    (command : CentralCommand) (id requestHash : JsString) (now : Int) :
    OperationRow where
  id := id
  owner := ownerKey owner
  runtimeId := runtimeId
  requestHash := requestHash
  command := command
  state := .accepted
  result := none
  error := none
  revision := revision
  expires := now + centralLeaseMs

/-- What follows in `enqueue` where no operation has the id. -/
def enqueueNew (now : Clock) (owner : Owner) (runtimeId : JsString)
    (revision : Nat) (command : CentralCommand) (id requestHash : JsString)
    (trustedRuntime : Bool) : Call CentralOperation := do
  let found ← query fun db =>
    checkSubmission db now owner runtimeId revision command trustedRuntime
  write fun db =>
    { db with
      operations := db.operations.put
        (acceptedRow owner runtimeId revision command id requestHash (now 2)) }
  changed found (now 3)
  query fun db => operation db owner id

/-- The answer to a repeated request, or the new operation. -/
def enqueueUnless (now : Clock) (owner : Owner) (runtimeId : JsString)
    (revision : Nat) (command : CentralCommand) (id requestHash : JsString)
    (trustedRuntime : Bool) : Option OperationRow → Call CentralOperation
  | some prior => check (priorOperation prior owner requestHash)
  | none =>
      enqueueNew now owner runtimeId revision command id requestHash
        trustedRuntime

/-- `centralId(id); centralRevision(revision)` -/
def checkRequest (id : JsString) (revision : JsonNumber) :
    Except WorkspaceError Nat := do
  let _ ← centralId (some (.string id))
  centralRevision (some (.number revision))

def enqueue (runtime : PartsRuntime) (now : Clock) (owner : Owner)
    (runtimeId : JsString) (revision : JsonNumber) (command : CentralCommand)
    (id : JsString) (trustedRuntime : Bool) : Call CentralOperation := do
  let number ← check (checkRequest id revision)
  transaction do
    let prior ← query fun db => .ok (db.operations.find? id)
    enqueueUnless now owner runtimeId number command id
      (requestHashOf runtime runtimeId revision command) trustedRuntime prior

def parseSubmitted (runtime : WorkspaceRuntime) (command : Unknown)
    (trustedRuntime : Bool) : Except WorkspaceError CentralCommand :=
  if trustedRuntime then parseRuntimeCentralCommand runtime.parsers command
  else parseCentralCommand runtime.parsers command

def submit (runtime : WorkspaceRuntime) (now : Clock) (owner : Owner)
    (runtimeId : JsString) (revision : JsonNumber) (command : Unknown)
    (id : JsString) (trustedRuntime : Bool) : Call CentralOperation := do
  let parsed ← check (parseSubmitted runtime command trustedRuntime)
  enqueue runtime.toPartsRuntime now owner runtimeId revision parsed id
    trustedRuntime

/-- The decision operation under an id when it is the same command's. -/
def priorDecision (prior : OperationRow) (owner : Owner)
    (command : CentralCommand) : Except WorkspaceError CentralOperation :=
  if prior.owner ≠ ownerKey owner ∨
      stringify prior.command.json ≠ stringify command.json then
    .error (conflict "workspace_operation_conflict")
  else .ok prior.operation

/-- The answer to a repeated decision, or the new operation. -/
def decideUnless (runtime : PartsRuntime) (now : Clock) (owner : Owner)
    (runtimeId : JsString) (command : CentralCommand) (id : JsString) :
    Option OperationRow → Call CentralOperation
  | some prior => check (priorDecision prior owner command)
  | none => do
      let found ← query fun db => row db owner runtimeId
      enqueue runtime now owner runtimeId (.ofNat found.revision) command id
        true

def submitDecision (runtime : WorkspaceRuntime) (now : Clock) (owner : Owner)
    (runtimeId : JsString) (command : Unknown) (id : JsString) :
    Call CentralOperation := do
  let parsed ← check (parseInboxCentralCommand runtime.parsers command)
  let _ ← check (centralId (some (.string id)))
  let prior ← query fun db => .ok (db.operations.find? id)
  decideUnless runtime.toPartsRuntime now owner runtimeId parsed id prior

def OperationRow.expired (row : OperationRow) : OperationRow :=
  { row with
    state := .failed
    error := some (js "Workspace changed or command expired") }

def OperationRow.start (row : OperationRow) : OperationRow :=
  { row with state := .started }

theorem OperationRow.expired_id (row : OperationRow) :
    row.expired.id = row.id := rfl

theorem OperationRow.start_id (row : OperationRow) : row.start.id = row.id :=
  rfl

/-- What `claim` does with the oldest accepted operation. -/
def claimRow (now : Clock) (actor : WorkspaceActor) (found : RuntimeRow)
    (pending : OperationRow) : Call (Option CentralOperation) :=
  if pending.expires ≤ now 1 then do
    updateOperations (fun other => other.id = pending.id)
      OperationRow.expired OperationRow.expired_id
    changed found (now 2)
    return none
  else do
    let workspace ← query fun db => scope db found
    let targets ← check (commandPodIds pending.command (some workspace))
    let _ ← query fun db => ready db actor.owner found.id targets (now 2)
    updateOperations (fun other => other.id = pending.id)
      OperationRow.start OperationRow.start_id
    changed found (now 3)
    let started ← query fun db => operation db actor.owner pending.id
    return some started

/-- The same for the oldest accepted operation, if there is one. -/
def claimPending (now : Clock) (actor : WorkspaceActor) (found : RuntimeRow) :
    List OperationRow → Call (Option CentralOperation)
  | [] => pure none
  | pending :: _ => do
      let _ ← query fun db => operation db actor.owner pending.id
      claimRow now actor found pending

def claim (now : Clock) (actor : WorkspaceActor) (lease : JsString) :
    Call (Option CentralOperation) :=
  transaction do
    let found ← query fun db => runtimeRow db actor lease
    let _ ← query fun db => ready db actor.owner actor.id [] (now 0)
    let accepted ← query fun db => .ok (inStates db found.id [.accepted])
    claimPending now actor found accepted

end OpenApe.Ports.WorkspaceStore
