import OpenApe.Ports.WorkspaceStore
import OpenApe.Verified.UniqueRows

/-!
# The inbox store of the relay (`inbox-store.ts`)

The items of the account inboxes, the outbox of their pushes and the sync
sequence, with every call that writes them and the calls that read them for
a client's cache and for the push dispatcher.

A call reads the clock where the source writes `this.now()` and draws an id
where it writes `randomUUID()`: `now i` and `ids i` are its readings and
draws in order, and may be anything.  `INSERT` throws where a unique key is
taken.  Rows that SQL returns in no stated order come in the table's.
-/

namespace OpenApe.Ports.InboxStore

open Verified.JsText Verified.Json Verified.KeyedTable Verified.Transactions
  Verified.Transactions.Action Verified.Utf8
open WorkspaceStore (Owner ownerKey)

/-! ## Values -/

/-- `Date.now()`: milliseconds since 1970. -/
structure Time where
  ms : Int
  pos : 0 < ms
  deriving DecidableEq

structure InboxLink where
  title : JsString
  url : JsString
  deriving DecidableEq

structure InboxPublication where
  eventId : JsString
  title : JsString
  body : JsString
  podId : Option JsString
  podName : Option JsString
  podTags : Option (List JsString)
  runId : Option JsString
  links : List InboxLink
  deriving DecidableEq

inductive InboxDecisionType where
  | question
  | work
  | approval
  | effect
  | secret
  deriving DecidableEq

inductive InboxAuthority where
  | pods
  | idp
  | secrets
  deriving DecidableEq

inductive InboxOptionInput where
  | evidence
  | value
  deriving DecidableEq

structure InboxDecisionOption where
  key : JsString
  title : JsString
  input : Option InboxOptionInput
  deriving DecidableEq

structure InboxDecision where
  sourceId : JsString
  type : InboxDecisionType
  digest : JsString
  podId : Option JsString
  podName : Option JsString
  podTags : Option (List JsString)
  title : JsString
  body : JsString
  authority : InboxAuthority
  options : List InboxDecisionOption
  link : Option InboxLink
  deriving DecidableEq

structure InboxDecisionData where
  sourceId : JsString
  digest : JsString
  type : InboxDecisionType
  authority : InboxAuthority
  options : List InboxDecisionOption
  runtimeId : JsString
  deriving DecidableEq

inductive InboxKind where
  | message
  | decision
  deriving DecidableEq

/-- `'open'` and `'resolved'`. -/
inductive ItemState where
  | opened
  | resolved
  deriving DecidableEq

structure ItemRow where
  id : JsString
  owner : JsString
  runtimeId : JsString
  eventId : JsString
  digest : JsString
  kind : InboxKind
  state : ItemState
  title : JsString
  body : JsString
  podId : Option JsString
  podName : Option JsString
  podTags : Option (List JsString)
  runId : Option JsString
  links : List InboxLink
  created : Time
  sequence : Nat
  read : Option Time := none
  archived : Option Time := none
  deleted : Option Time := none
  decision : Option InboxDecisionData := none
  deriving DecidableEq

/-- The columns of `UNIQUE(owner,runtime_id,event_id)`. -/
abbrev EventKey := JsString × JsString × JsString

def ItemRow.event (row : ItemRow) : EventKey :=
  (row.owner, row.runtimeId, row.eventId)

inductive PushState where
  | pending
  | sent
  | failed
  deriving DecidableEq

structure OutboxRow where
  id : JsString
  owner : JsString
  itemId : JsString
  created : Time
  state : PushState
  attempts : Nat := 0
  next : Int
  result : Option JsString := none
  deriving DecidableEq

abbrev Items := Rows ItemRow.id ItemRow.event
abbrev Outbox := Table OutboxRow.id

/-- The database; `sequence` is the counter of `meta`. -/
structure Db where
  sequence : Nat := 0
  items : Items := Rows.empty
  outbox : Outbox := Table.empty

inductive InboxError where
  | protocol (code : JsString) (status : Nat)
  | constraint
  deriving DecidableEq

abbrev Call (α : Type) := Action Db InboxError α

abbrev Clock := Nat → Time

/-- The ids that a call draws. -/
abbrev Draws := Nat → JsString

/-- SHA-256 in hexadecimal, and the quota of the store. -/
structure InboxRuntime where
  sha256 : List UInt8 → JsString
  itemsPerOwner : Nat

/-- `if (condition) throw new ProtocolError(code, status)` -/
def throwIf (condition : Bool) (code : String) (status : Nat) :
    Except InboxError Unit :=
  if condition then .error (.protocol (js code) status) else .ok ()

/-! ## The limits -/

def dayMs : Int := 86400000
def retentionMs : Int := 90 * dayMs
def tombstoneMs : Int := 30 * dayMs
def pushAgeMs : Int := dayMs
def idpPushDelayMs : Int := 60000
def decisionQuietMs : Int := 120000
def decisionMaxMs : Int := 600000
def page : Nat := 50

/-! ## Single writes -/

def nextSequence : Call Nat := do
  write fun db => { db with sequence := db.sequence + 1 }
  query fun db => .ok db.sequence

/-- `INSERT INTO items` -/
def insertItem (row : ItemRow) : Call Unit := do
  let items ← query fun db =>
    match db.items.insert? row with
    | some items => .ok items
    | none => .error .constraint
  write fun db => { db with items := items }

/-- `INSERT INTO outbox` -/
def insertOutbox (row : OutboxRow) : Call Unit := do
  query fun db =>
    if (db.outbox.find? row.id).isSome then .error .constraint else .ok ()
  write fun db => { db with outbox := db.outbox.put row }

/-- `UPDATE items SET … WHERE id=?` -/
def updateItem (id : JsString) (f : ItemRow → ItemRow)
    (hf : ∀ row, (f row).id = row.id)
    (hEvent : ∀ row, (f row).event = row.event) : Call Unit :=
  write fun db =>
    { db with items := db.items.update (fun row => row.id = id) f hf hEvent }

/-- `DELETE FROM outbox WHERE item_id=? AND state='pending'` -/
def dropPending (itemId : JsString) : Call Unit :=
  write fun db =>
    { db with
      outbox := db.outbox.keep fun row =>
        !(decide (row.itemId = itemId) && decide (row.state = .pending)) }

/-! ## Publishing -/

/-- The object that `JSON.stringify(publication)` prints. -/
def InboxPublication.json (publication : InboxPublication) : JsonValue :=
  let text := fun value : Option JsString =>
    match value with
    | some value => JsonValue.string value
    | none => .null
  .object ([(js "eventId", .string publication.eventId),
      (js "kind", .string (js "message")),
      (js "title", .string publication.title),
      (js "body", .string publication.body),
      (js "podId", text publication.podId),
      (js "podName", text publication.podName)] ++
    (publication.podTags.map fun tags =>
      (js "podTags", JsonValue.array (tags.map .string))).toList ++
    [(js "runId", text publication.runId),
      (js "links", .array (publication.links.map fun link =>
        .object [(js "title", .string link.title),
          (js "url", .string link.url)]))])

def publicationDigest (runtime : InboxRuntime)
    (publication : InboxPublication) : JsString :=
  runtime.sha256 (utf8 (stringify publication.json))

/-- `tags?.length ? JSON.stringify(tags) : null` -/
def storedTags (tags : Option (List JsString)) : Option (List JsString) :=
  tags.filter fun tags => !tags.isEmpty

/-- `SELECT count(*) FROM items WHERE owner=? AND deleted IS NULL` -/
def keptCount (db : Db) (owner : JsString) : Nat :=
  (db.items.rows.filter fun row =>
    row.owner = owner ∧ row.deleted = none).length

def isFull (runtime : InboxRuntime) (db : Db) (owner : JsString) : Bool :=
  runtime.itemsPerOwner ≤ keptCount db owner

/-- The row of a published message. -/
def messageRow (runtime : InboxRuntime) (now : Clock) (id owner : JsString)
    (runtimeId : JsString) (publication : InboxPublication) (sequence : Nat) :
    ItemRow where
  id := id
  owner := owner
  runtimeId := runtimeId
  eventId := publication.eventId
  digest := publicationDigest runtime publication
  kind := .message
  state := .opened
  title := publication.title
  body := publication.body
  podId := publication.podId
  podName := publication.podName
  podTags := storedTags publication.podTags
  runId := publication.runId
  links := publication.links
  created := now 0
  sequence := sequence

/-- A new entry of the outbox. -/
def pendingRow (id owner itemId : JsString) (created : Time) (next : Int) :
    OutboxRow where
  id := id
  owner := owner
  itemId := itemId
  created := created
  state := .pending
  next := next

structure Receipt where
  id : JsString
  created : Bool
  deriving DecidableEq

/-- What follows in `publish` where no item has the event id. -/
def publishNew (runtime : InboxRuntime) (now : Clock) (ids : Draws)
    (owner : Owner) (runtimeId : JsString) (publication : InboxPublication) :
    Call Receipt := do
  query fun db =>
    throwIf (isFull runtime db (ownerKey owner)) "inbox_quota" 507
  let sequence ← nextSequence
  insertItem (messageRow runtime now (ids 0) (ownerKey owner) runtimeId
    publication sequence)
  insertOutbox
    (pendingRow (ids 1) (ownerKey owner) (ids 0) (now 1) (now 2).ms)
  return ⟨ids 0, true⟩

/-- The receipt of a repeated publication, or a new item. -/
def publishUnless (runtime : InboxRuntime) (now : Clock) (ids : Draws)
    (owner : Owner) (runtimeId : JsString) (publication : InboxPublication) :
    Option ItemRow → Call Receipt
  | some existing => do
      check (throwIf (existing.digest ≠ publicationDigest runtime publication)
        "inbox_event_conflict" 409)
      return ⟨existing.id, false⟩
  | none => publishNew runtime now ids owner runtimeId publication

def publish (runtime : InboxRuntime) (now : Clock) (ids : Draws)
    (owner : Owner) (runtimeId : JsString) (publication : InboxPublication) :
    Call Receipt :=
  transaction do
    let existing ← query fun db => .ok
      (db.items.byOther? (ownerKey owner, runtimeId, publication.eventId))
    publishUnless runtime now ids owner runtimeId publication existing

/-! ## Decisions -/

def InboxDecision.data (decision : InboxDecision) (runtimeId : JsString) :
    InboxDecisionData where
  sourceId := decision.sourceId
  digest := decision.digest
  type := decision.type
  authority := decision.authority
  options := decision.options
  runtimeId := runtimeId

/-- The columns that a decision sets when it is new or has changed. -/
def ItemRow.decided (decision : InboxDecision) (runtimeId : JsString)
    (sequence : Nat) (row : ItemRow) : ItemRow :=
  { row with
    digest := decision.digest
    state := .opened
    title := decision.title
    body := decision.body
    podId := decision.podId
    podName := decision.podName
    podTags := storedTags decision.podTags
    links := decision.link.toList
    decision := some (decision.data runtimeId)
    sequence := sequence }

theorem ItemRow.decided_id (decision : InboxDecision) (runtimeId : JsString)
    (sequence : Nat) (row : ItemRow) :
    (row.decided decision runtimeId sequence).id = row.id := rfl

theorem ItemRow.decided_event (decision : InboxDecision)
    (runtimeId : JsString) (sequence : Nat) (row : ItemRow) :
    (row.decided decision runtimeId sequence).event = row.event := rfl

/-- The row of a new decision. -/
def decisionRow (created : Time) (id owner runtimeId : JsString)
    (decision : InboxDecision) (sequence : Nat) : ItemRow where
  id := id
  owner := owner
  runtimeId := runtimeId
  eventId := decision.sourceId
  digest := decision.digest
  kind := .decision
  state := .opened
  title := decision.title
  body := decision.body
  podId := decision.podId
  podName := decision.podName
  podTags := storedTags decision.podTags
  runId := none
  links := decision.link.toList
  created := created
  sequence := sequence
  decision := some (decision.data runtimeId)

/-- `SELECT … WHERE owner=? AND runtime_id=? AND event_id=? AND
kind='decision'` -/
def storedDecision (db : Db) (owner runtimeId sourceId : JsString) :
    Option ItemRow :=
  (db.items.byOther? (owner, runtimeId, sourceId)).filter
    fun row => row.kind = .decision

structure SyncCounts where
  created : Nat := 0
  updated : Nat := 0
  resolved : Nat := 0
  skipped : Nat := 0
  deriving DecidableEq

/-- `authority === 'idp' ? inboxLimits.idpPushDelayMs : 0` -/
def pushDelay : InboxAuthority → Int
  | .idp => idpPushDelayMs
  | _ => 0

/-- A decision that is not stored yet, in an inbox that is full or not. -/
def createDecision (now : Clock) (ids : Draws) (owner runtimeId : JsString)
    (decision : InboxDecision) (counts : SyncCounts) (full : Bool) :
    Call SyncCounts :=
  if full then pure { counts with skipped := counts.skipped + 1 }
  else do
    let sequence ← nextSequence
    insertItem
      (decisionRow (now 0) (ids 0) owner runtimeId decision sequence)
    insertOutbox (pendingRow (ids 1) owner (ids 0) (now 2)
      ((now 1).ms + pushDelay decision.authority))
    return { counts with created := counts.created + 1 }

/-- `existing.digest === decision.digest && existing.state === 'open'` -/
def isCurrent (existing : ItemRow) (decision : InboxDecision) : Bool :=
  existing.digest = decision.digest ∧ existing.state = .opened

/-- A decision that is stored already. -/
def updateDecision (runtimeId : JsString) (decision : InboxDecision)
    (counts : SyncCounts) (existing : ItemRow) : Call SyncCounts :=
  if existing.deleted.isSome || isCurrent existing decision then pure counts
  else do
    let sequence ← nextSequence
    updateItem existing.id (ItemRow.decided decision runtimeId sequence)
      (ItemRow.decided_id decision runtimeId sequence)
      (ItemRow.decided_event decision runtimeId sequence)
    return { counts with updated := counts.updated + 1 }

/-- One turn of the loop over the published decisions. -/
def syncDecision (runtime : InboxRuntime) (now : Clock) (ids : Draws)
    (owner runtimeId : JsString) (decision : InboxDecision)
    (counts : SyncCounts) : Call SyncCounts := do
  let existing ← query fun db => .ok
    (storedDecision db owner runtimeId decision.sourceId)
  match existing with
  | some existing => updateDecision runtimeId decision counts existing
  | none => do
      let full ← query fun db => .ok (isFull runtime db owner)
      createDecision now ids owner runtimeId decision counts full

/-- The loop; a turn reads the clock and draws ids from where the one before
it may have stopped. -/
def syncLoop (runtime : InboxRuntime) (owner runtimeId : JsString) :
    Clock → Draws → List InboxDecision → SyncCounts → Call SyncCounts
  | _, _, [], counts => pure counts
  | now, ids, decision :: decisions, counts => do
      let counts ← syncDecision runtime now ids owner runtimeId decision counts
      syncLoop runtime owner runtimeId (fun i => now (i + 3))
        (fun i => ids (i + 2)) decisions counts

def ItemRow.resolve (sequence : Nat) (row : ItemRow) : ItemRow :=
  { row with state := .resolved, sequence := sequence }

theorem ItemRow.resolve_id (sequence : Nat) (row : ItemRow) :
    (row.resolve sequence).id = row.id := rfl

theorem ItemRow.resolve_event (sequence : Nat) (row : ItemRow) :
    (row.resolve sequence).event = row.event := rfl

/-- One turn of the loop over the vanished decisions. -/
def resolveDecision (row : ItemRow) : Call Unit := do
  let sequence ← nextSequence
  updateItem row.id (ItemRow.resolve sequence) (ItemRow.resolve_id sequence)
    (ItemRow.resolve_event sequence)
  dropPending row.id

/-- The open decisions of a runtime that the published set no longer has. -/
def vanished (db : Db) (owner runtimeId : JsString)
    (decisions : List InboxDecision) : List ItemRow :=
  db.items.rows.filter fun row =>
    row.owner = owner ∧ row.runtimeId = runtimeId ∧ row.kind = .decision ∧
      row.state = .opened ∧
      row.eventId ∉ decisions.map InboxDecision.sourceId

def syncDecisions (runtime : InboxRuntime) (now : Clock) (ids : Draws)
    (owner : Owner) (runtimeId : JsString) (decisions : List InboxDecision) :
    Call SyncCounts :=
  transaction do
    let counts ← syncLoop runtime (ownerKey owner) runtimeId now ids decisions
      {}
    let rows ← query fun db => .ok
      (vanished db (ownerKey owner) runtimeId decisions)
    each rows resolveDecision
    return { counts with resolved := rows.length }

/-! ## What a client sees -/

structure PodLabel where
  id : JsString
  name : Option JsString
  tags : Option (List JsString)
  deriving DecidableEq

structure InboxItem where
  id : JsString
  kind : InboxKind
  state : ItemState
  decision : Option InboxDecisionData
  title : JsString
  body : JsString
  pod : Option PodLabel
  runId : Option JsString
  links : List InboxLink
  created : Time
  sequence : Nat
  read : Option Time
  archived : Option Time
  deleted : Option Time
  deriving DecidableEq

/-- `item(row)` -/
def ItemRow.item (row : ItemRow) : InboxItem where
  id := row.id
  kind := row.kind
  state := row.state
  decision := row.decision
  title := row.title
  body := row.body
  pod := (row.podId.filter fun id => !id.isEmpty).map fun id =>
    ⟨id, row.podName, row.podTags⟩
  runId := row.runId
  links := row.links
  created := row.created
  sequence := row.sequence
  read := row.read
  archived := row.archived
  deleted := row.deleted

/-- `SELECT * FROM items WHERE id=? AND owner=? AND deleted IS NULL` -/
def item (db : Db) (owner : Owner) (itemId : JsString) :
    Except InboxError InboxItem :=
  match db.items.toTable.find? itemId with
  | some row =>
      if row.owner = ownerKey owner ∧ row.deleted = none then .ok row.item
      else .error (.protocol (js "not_found") 404)
  | none => .error (.protocol (js "not_found") 404)

structure ChangesPage where
  items : List InboxItem
  cursor : Int
  more : Bool
  deriving DecidableEq

/-- The rows of an owner after a cursor, in the order of their sequence. -/
def rowsAfter (db : Db) (owner : Owner) (after : Int) : List ItemRow :=
  (db.items.rows.filter fun row =>
    row.owner = ownerKey owner ∧ max 0 after < row.sequence).insertionSort
      (fun a b => a.sequence ≤ b.sequence)

def changes (db : Db) (owner : Owner) (after : Int) : ChangesPage :=
  let rows := (rowsAfter db owner after).take (page + 1)
  let shown := rows.take page
  { items := shown.map ItemRow.item
    cursor := (shown.getLast?.map fun row => (row.sequence : Int)).getD
      (max 0 after)
    more := decide (page < rows.length) }

/-! ## Marking -/

structure MarkChange where
  read : Option Bool := none
  archived : Option Bool := none
  deleted : Bool := false

/-- The columns of a tombstone. -/
def ItemRow.tombstone (moment : Time) (sequence : Nat) (row : ItemRow) :
    ItemRow :=
  { row with
    deleted := some moment
    title := []
    body := []
    links := []
    decision := none
    sequence := sequence }

theorem ItemRow.tombstone_id (moment : Time) (sequence : Nat) (row : ItemRow) :
    (row.tombstone moment sequence).id = row.id := rfl

theorem ItemRow.tombstone_event (moment : Time) (sequence : Nat)
    (row : ItemRow) : (row.tombstone moment sequence).event = row.event := rfl

/-- `coalesce(column, at)`, `NULL`, or the column as it is. -/
def setFlag (moment : Time) (column : Option Time) :
    Option Bool → Option Time
  | none => column
  | some true => some (column.getD moment)
  | some false => none

def ItemRow.flagged (moment : Time) (change : MarkChange) (sequence : Nat)
    (row : ItemRow) : ItemRow :=
  { row with
    read := setFlag moment row.read change.read
    archived := setFlag moment row.archived change.archived
    sequence := sequence }

theorem ItemRow.flagged_id (moment : Time) (change : MarkChange)
    (sequence : Nat) (row : ItemRow) :
    (row.flagged moment change sequence).id = row.id := rfl

theorem ItemRow.flagged_event (moment : Time) (change : MarkChange)
    (sequence : Nat) (row : ItemRow) :
    (row.flagged moment change sequence).event = row.event := rfl

/-- Makes an item a tombstone. -/
def deleteItem (moment : Time) (itemId : JsString) : Call Unit := do
  let sequence ← nextSequence
  updateItem itemId (ItemRow.tombstone moment sequence)
    (ItemRow.tombstone_id moment sequence) (ItemRow.tombstone_event moment sequence)

/-- `if (assignments) UPDATE items SET …` -/
def flagItem (moment : Time) (itemId : JsString) (change : MarkChange) :
    Call Unit :=
  if change.read.isNone && change.archived.isNone then pure ()
  else do
    let sequence ← nextSequence
    updateItem itemId (ItemRow.flagged moment change sequence)
      (ItemRow.flagged_id moment change sequence)
      (ItemRow.flagged_event moment change sequence)

/-- What `mark` does to an item that is there. -/
def markItem (moment : Time) (owner : Owner) (itemId : JsString)
    (change : MarkChange) : Call (Option InboxItem) :=
  if change.deleted then do
    deleteItem moment itemId
    dropPending itemId
    return none
  else do
    flagItem moment itemId change
    let marked ← query fun db => item db owner itemId
    return some marked

def mark (now : Clock) (owner : Owner) (itemId : JsString)
    (change : MarkChange) : Call (Option InboxItem) :=
  transaction do
    let _ ← query fun db => item db owner itemId
    markItem (now 0) owner itemId change

/-! ## Pushes -/

structure OutboxEntry where
  id : JsString
  owner : JsString
  itemId : JsString
  attempts : Nat
  created : Time
  deriving DecidableEq

def OutboxRow.entry (row : OutboxRow) : OutboxEntry where
  id := row.id
  owner := row.owner
  itemId := row.itemId
  attempts := row.attempts
  created := row.created

/-- `JOIN items i ON i.id=o.item_id`, where the item is of a kind. -/
def isOfKind (db : Db) (kind : InboxKind) (row : OutboxRow) : Bool :=
  (db.items.toTable.find? row.itemId).any fun item => item.kind = kind

def claimOutbox (db : Db) (now : Clock) (limit : Nat) (messagesOnly : Bool) :
    List OutboxEntry :=
  (((db.outbox.rows.filter fun row =>
      row.state = .pending ∧ row.next ≤ (now 0).ms ∧
        (db.items.toTable.find? row.itemId).isSome ∧
        (!messagesOnly || isOfKind db .message row)).insertionSort
      (fun a b => a.next ≤ b.next)).take limit).map OutboxRow.entry

/-- The pending entries of decisions. -/
def pendingDecisions (db : Db) : List OutboxRow :=
  db.outbox.rows.filter fun row =>
    row.state = .pending ∧ isOfKind db .decision row

/-- `HAVING …` over the pending decisions of one owner. -/
def isDue (now : Clock) (rows : List OutboxRow) : Bool :=
  let created := rows.map fun row => row.created.ms
  ((created.min?.any fun first => first + decisionMaxMs ≤ (now 0).ms) ||
    (created.max?.any fun last => last + decisionQuietMs ≤ (now 1).ms)) &&
  rows.all fun row => row.attempts = 0 || row.next ≤ (now 2).ms

/-- `min(o.created)` of one owner. -/
def firstCreated (rows : List OutboxRow) (owner : JsString) : Int :=
  (((rows.filter fun row => row.owner = owner).map
    fun row => row.created.ms).min?).getD 0

/-- `a.created < b.created`, or the same and `a.id ≤ b.id`. -/
def entryBefore (a b : OutboxRow) : Bool :=
  a.created.ms < b.created.ms ||
    (a.created.ms = b.created.ms && a.id ≤ b.id)

def decisionPushBatches (db : Db) (now : Clock) (limit : Nat) :
    List (List OutboxEntry) :=
  let rows := pendingDecisions db
  let owners := (rows.map OutboxRow.owner).dedup.filter fun owner =>
    isDue now (rows.filter fun row => row.owner = owner)
  ((owners.insertionSort fun a b =>
      firstCreated rows a ≤ firstCreated rows b).take limit).map fun owner =>
    ((rows.filter fun row => row.owner = owner).insertionSort
      (fun a b => entryBefore a b = true)).map OutboxRow.entry

structure PushOutcome where
  state : PushState
  next : Option Int := none
  result : JsString

def OutboxRow.settled (outcome : PushOutcome) (now : Time)
    (row : OutboxRow) : OutboxRow :=
  { row with
    state := outcome.state
    attempts := row.attempts + 1
    next := outcome.next.getD now.ms
    result := some (outcome.result.take 500) }

theorem OutboxRow.settled_id (outcome : PushOutcome) (now : Time)
    (row : OutboxRow) : (row.settled outcome now).id = row.id := rfl

/-- `UPDATE outbox SET … WHERE id=?` -/
def settleEntry (outcome : PushOutcome) (now : Time) (entryId : JsString) :
    Call Unit :=
  write fun db =>
    { db with
      outbox := db.outbox.update (fun row => row.id = entryId)
        (OutboxRow.settled outcome now) (OutboxRow.settled_id outcome now) }

def settleOutbox (now : Clock) (entryIds : List JsString)
    (outcome : PushOutcome) : Call Unit :=
  transaction do
    each entryIds.zipIdx fun entry => settleEntry outcome (now entry.2) entry.1

/-! ## Retention -/

/-- The messages and resolved decisions that have grown old. -/
def stale (db : Db) (cutoff : Int) : List ItemRow :=
  db.items.rows.filter fun row =>
    row.deleted = none ∧ row.created.ms < cutoff ∧
      (row.kind = .message ∨ row.state ≠ .opened)

/-- `DELETE FROM outbox WHERE created<? OR item_id IN (SELECT id FROM items
WHERE deleted IS NOT NULL)` -/
def dropOutbox (cutoff : Int) : Call Unit :=
  write fun db =>
    { db with
      outbox := db.outbox.keep fun row =>
        !(decide (row.created.ms < cutoff) ||
          (db.items.toTable.find? row.itemId).any
            fun item => item.deleted.isSome) }

/-- The tombstones that are purged. -/
def isPurged (cutoff : Int) (row : ItemRow) : Bool :=
  (row.deleted.any fun deleted => deleted.ms < cutoff) &&
    !(decide (row.kind = .decision) && decide (row.state = .opened))

/-- `DELETE FROM items WHERE deleted IS NOT NULL AND deleted<? AND NOT (…)` -/
def purge (cutoff : Int) : Call Unit :=
  write fun db =>
    { db with items := db.items.keep fun row => !isPurged cutoff row }

structure RetainCounts where
  expired : Nat
  purged : Nat
  deriving DecidableEq

def retain (now : Clock) : Call RetainCounts :=
  transaction do
    let rows ← query fun db => .ok (stale db ((now 0).ms - retentionMs))
    each rows.zipIdx fun row => deleteItem (now (row.2 + 1)) row.1.id
    dropOutbox ((now (rows.length + 1)).ms - pushAgeMs)
    let purged ← query fun db => .ok (db.items.rows.filter
      (isPurged ((now (rows.length + 2)).ms - tombstoneMs))).length
    purge ((now (rows.length + 2)).ms - tombstoneMs)
    return ⟨rows.length, purged⟩

end OpenApe.Ports.InboxStore
