import OpenApe.Verified.Transactions
import OpenApe.Verified.UniqueRows
import OpenApe.Ports.ReportContracts

/-!
# The Reports store (`html-store.ts`, `plans-store.ts`)

Documents with their versions, receipts and access policies.  Every
operation is one transaction; what it draws at random (document and version
ids) is an argument, and an insertion under a taken id fails.  The policy
journal is written after the commit, so an operation may throw although its
changes stay.
-/

namespace OpenApe.Ports.HtmlStore

open Verified.JsText Verified.Json Verified.KeyedTable Verified.Transactions
  Verified.Transactions.Action Verified.Unicode
open CentralValues (Unknown textOf isText isNull strictEq)
open ReportContracts

/-! ## Tables -/

structure ReportIdentity where
  subject : JsString
  actor : JsString
  publisherOnly : Bool := false
  deriving DecidableEq

structure HtmlDocument where
  id : JsString
  owner : JsString
  seriesId : Option JsString := none
  teamId : Option JsString := none
  audience : JsString := js "private"
  readers : List JsString := []
  accessRevision : Nat := 1
  retentionRevision : Nat := 1
  expiresAt : Option Int := none
  removedAt : Option Int := none
  purgedAt : Option Int := none
  latestVersion : Nat := 1
  createdAt : Int
  updatedAt : Int
  legacyPlanId : Option JsString := none
  deriving DecidableEq

structure HtmlPublication extends HtmlMetadata where
  html : JsString
  externalImages : List JsString
  externalLinks : List JsString
  deriving DecidableEq

structure HtmlVersion where
  id : JsString
  documentId : JsString
  version : Nat
  publication : HtmlPublication
  source : Option JsString
  author : JsString
  createdAt : Int
  artifactDigest : JsString
  policyVersion : JsString
  deriving DecidableEq

/-- What a publication answers. -/
structure PublishReceipt where
  title : JsString
  language : Option JsString
  category : Option JsString
  tags : List JsString
  metadata : List (JsString × JsString)
  documentId : JsString
  publicationId : JsString
  version : Nat
  url : JsString
  versionUrl : JsString
  digest : JsString
  artifactDigest : JsString
  policyVersion : JsString
  audience : JsString
  expiresAt : Option Int
  accessRevision : Nat
  retentionRevision : Nat
  deriving DecidableEq

/-- The receipt column: a publication's answer, or what is left of it. -/
inductive ReceiptBody where
  | published (receipt : PublishReceipt)
  | purged (documentId : JsString)
  | recoveryTombstone (documentId : JsString)
  deriving DecidableEq

structure HtmlReceipt where
  identity : JsString
  actor : JsString
  key : JsString
  digest : JsString
  documentId : JsString
  receipt : ReceiptBody
  deriving DecidableEq

/-- The primary key of a receipt. -/
abbrev ReceiptKey := JsString × JsString × JsString

def HtmlReceipt.primary (receipt : HtmlReceipt) : ReceiptKey :=
  (receipt.identity, receipt.actor, receipt.key)

structure Team where
  id : JsString
  name : JsString
  description : Option JsString
  createdBy : JsString
  createdAt : Int
  archivedAt : Option Int
  deriving DecidableEq

structure TeamMember where
  teamId : JsString
  userEmail : JsString
  role : JsString
  joinedAt : Int
  deriving DecidableEq

structure TeamInvite where
  id : JsString
  teamId : JsString
  createdBy : JsString
  note : Option JsString
  maxUses : Nat
  usedCount : Nat
  expiresAt : Int
  revokedAt : Option Int
  createdAt : Int
  deriving DecidableEq

structure ReportSeries where
  id : JsString
  owner : JsString
  name : JsString
  slug : JsString
  publisher : Option JsString
  revision : Nat
  createdAt : Int
  deriving DecidableEq

/-- The place of a version: its document and number. -/
def HtmlVersion.place (version : HtmlVersion) : JsString × Nat :=
  (version.documentId, version.version)

def TeamMember.primary (member : TeamMember) : JsString × JsString :=
  (member.teamId, member.userEmail)

structure Reports where
  instanceId : JsString
  revision : Nat
  documents : Table HtmlDocument.id
  versions : Rows HtmlVersion.place HtmlVersion.id
  receipts : Table HtmlReceipt.primary
  teams : Table Team.id
  members : Table TeamMember.primary
  invites : Table TeamInvite.id
  series : Table ReportSeries.id

abbrev Call := Action Reports ReportFailure

/-! ## Errors -/

def missing : ReportFailure := .report (js "NOT_FOUND") (js "Report not found") 404

def conflict (message : String) : ReportFailure :=
  .report (js "CONFLICT") (js message) 409

def denied : ReportFailure :=
  .report (js "FORBIDDEN")
    (js "This operation requires owner or team administrator access") 403

def gone (message : String) : ReportFailure :=
  .report (js "GONE") (js message) 410

/-- `if (condition) throw error` -/
def throwIf (condition : Bool) (error : ReportFailure) :
    Except ReportFailure Unit :=
  if condition then .error error else .ok ()

@[simp] theorem throwIf_eq_ok {condition : Bool} {error : ReportFailure}
    {u : Unit} : throwIf condition error = .ok u ↔ condition = false := by
  cases condition <;> simp [throwIf]

/-- `if (!value) throw error` -/
def required {α : Type} (value : Option α) (error : ReportFailure) :
    Except ReportFailure α :=
  match value with
  | some value => .ok value
  | none => .error error

@[simp] theorem required_eq_ok {α : Type} {value : Option α}
    {error : ReportFailure} {a : α} :
    required value error = .ok a ↔ value = some a := by
  cases value <;> simp [required]

/-! ## Reading a document -/

/-- `times.length ? Math.min(...times) : null`, of the ends that are past. -/
def removedAt (document : HtmlDocument) (now : Int) : Option Int :=
  let past := fun time : Option Int => time.filter (· ≤ now)
  match past document.removedAt, past document.expiresAt with
  | some removed, some expired => some (min removed expired)
  | some removed, none => some removed
  | none, expired => expired

def assertLive (document : HtmlDocument) (now : Int) :
    Except ReportFailure Unit :=
  throwIf (document.purgedAt.isSome || (removedAt document now).isSome)
    (gone "Report expired or removed; an explicit private restore is required")

/-- `WHERE id = ? OR legacy_plan_id = ?` -/
def documentRow (db : Reports) (id : JsString) :
    Except ReportFailure HtmlDocument :=
  match db.documents.rows.find? (fun document =>
    document.id = id || document.legacyPlanId = some id) with
  | none => .error missing
  | some document =>
      if document.purgedAt.isSome then .error missing else .ok document

inductive Role where
  | owner
  | admin
  | editor
  | reader
  deriving DecidableEq

def memberOf (db : Reports) (team : Option JsString) (email : JsString) :
    Option TeamMember :=
  team.bind (fun team => db.members.find? (team, email))

def memberRole (member : TeamMember) : Role :=
  if member.role = js "owner" then .admin
  else if member.role = js "editor" then .editor
  else .reader

/-- The role an audience gives to who is neither owner nor member. -/
def audienceRole (document : HtmlDocument) (identity : Option ReportIdentity) :
    Option Role :=
  if document.audience = js "public" then some .reader
  else if document.audience = js "readers" &&
      identity.any (fun identity => identity.subject ∈ document.readers) then
    some .reader
  else none

def role (db : Reports) (document : HtmlDocument)
    (identity : Option ReportIdentity) : Option Role :=
  if identity.any ReportIdentity.publisherOnly then none
  else if identity.any (fun identity => identity.subject = document.owner) then
    some .owner
  else
    let membership := if document.audience = js "team" then
      identity.bind (fun identity =>
        memberOf db document.teamId identity.subject) else none
    match membership with
    | some member => some (memberRole member)
    | none => audienceRole document identity

def seriesOf (db : Reports) (id : Option JsString) : Option ReportSeries :=
  id.bind db.series.find?

def assertEditor (db : Reports) (document : HtmlDocument)
    (identity : ReportIdentity) : Except ReportFailure Unit :=
  if identity.publisherOnly then
    throwIf (!(seriesOf db document.seriesId).any (fun series =>
      series.owner = document.owner &&
        series.publisher = some identity.actor)) denied
  else throwIf (role db document (some identity) ∉
    [some .owner, some .admin, some .editor]) denied

def assertAdmin (db : Reports) (document : HtmlDocument)
    (identity : ReportIdentity) : Except ReportFailure Unit :=
  throwIf (role db document (some identity) ∉ [some .owner, some .admin])
    denied

/-! ## Audiences -/

structure Access where
  mode : JsString
  readers : List JsString
  teamId : Option JsString
  deriving DecidableEq

/-- `/^[^\s@]+@[^\s@][^\s.@]*\.[^\s@]+$/u` -/
def isEmail (text : JsString) : Bool :=
  let box := text.takeWhile (· != unit '@')
  match text.dropWhile (· != unit '@') with
  | _ :: first :: domain =>
      box != [] && text.all (fun u => !isTrimmed u) &&
        (first :: domain).all (· != unit '@') &&
        2 ≤ (domain.dropWhile (· != unit '.')).length
  | _ => false

section Audience

variable [ReportRuntime] [CaseMapping]

def readerEmail (value : JsonValue) : Except ReportFailure JsString := do
  let email ← label (some value) 254 (js "reader email")
  if isEmail email then .ok (CaseMapping.toLowerCase email)
  else invalid (js "Invalid reader email")

def readerEmails (value : Unknown) : Except ReportFailure (List JsString) :=
  match value with
  | some (.array items) =>
      if items.length < 1 || 100 < items.length then
        invalid (js "Supply 1–100 reader email addresses")
      else (items.mapM readerEmail).map distinct
  | _ => invalid (js "Supply 1–100 reader email addresses")

/-- The team of an audience: the caller must be a member with more than
viewing rights. -/
def audienceTeam (db : Reports) (value : Unknown) (identity : ReportIdentity) :
    Except ReportFailure JsString := do
  let team ← label value 100 (js "team ID")
  let member := if (db.teams.find? team).isSome then
    db.members.find? (team, identity.subject) else none
  throwIf (member.all (fun member => member.role = js "viewer") ||
    identity.publisherOnly) denied
  .ok team

/-- `String(mode)` -/
def modeText : Unknown → JsString
  | some (.string text) => text
  | mode => textOf mode

def audience (db : Reports) (input : Unknown) (identity : ReportIdentity) :
    Except ReportFailure Access := do
  let policy ← object input ["mode", "readers", "teamId"]
  let mode := policy.field? (js "mode")
  if modeText mode ∉ [js "private", js "public", js "readers", js "team"] then
    invalid (js "Select private, public, readers or team access")
  else if !isText mode (js "readers") &&
      (policy.field? (js "readers")).isSome then
    invalid (js "Readers require the readers audience")
  else if !isText mode (js "team") && (policy.field? (js "teamId")).isSome then
    invalid (js "A team requires the team audience")
  else if isText mode (js "readers") then
    (readerEmails (policy.field? (js "readers"))).map (fun readers =>
      ⟨modeText mode, readers, none⟩)
  else if isText mode (js "team") then
    (audienceTeam db (policy.field? (js "teamId")) identity).map (fun team =>
      ⟨modeText mode, [], some team⟩)
  else .ok ⟨modeText mode, [], none⟩

end Audience

/-! ## Transactions -/

/-- The journal was not written; the changes are committed. -/
def journalUnavailable : ReportFailure :=
  .report (js "JOURNAL_UNAVAILABLE")
    (js ("Policy journal persistence failed; the write may have committed. " ++
      "Reconcile before retrying.")) 503

/-- An operation, committed with the next revision; then the journal, which
is written or not. -/
def reportTransaction {α : Type} (persisted : Bool) (operation : Call α) :
    Call α := do
  let result ← transaction do
    let result ← operation
    write fun db => { db with revision := db.revision + 1 }
    pure result
  check (throwIf (!persisted) journalUnavailable)
  pure result

/-- `createHash('sha256')`, and the page a plan is rendered to with the
external images and links found in it. -/
class HtmlRuntime where
  hash : JsString → JsString
  planPage : JsString → JsString → JsString × List JsString × List JsString

/-- The ids that an operation draws. -/
structure Draws where
  documentId : JsString
  versionId : JsString

/-- `UPDATE html_documents SET … WHERE id = ?` -/
def updateDocument (id : JsString) (f : HtmlDocument → HtmlDocument)
    (hf : ∀ document, (f document).id = document.id) : Call Unit :=
  write fun db => { db with
    documents := db.documents.update (fun document => document.id = id) f hf }

/-- `INSERT INTO html_documents`, under two unique columns. -/
def insertDocument (document : HtmlDocument) : Call Unit := do
  query fun db => throwIf
    ((db.documents.find? document.id).isSome ||
      db.documents.rows.any (fun other => document.legacyPlanId.isSome &&
        other.legacyPlanId = document.legacyPlanId))
    (.statement (js "UNIQUE constraint failed: html_documents"))
  write fun db => { db with documents := db.documents.put document }

def insertVersionRow (version : HtmlVersion) : Call Unit := do
  let versions ← query fun db => required (db.versions.insert? version)
    (.statement (js "UNIQUE constraint failed: html_versions"))
  write fun db => { db with versions := versions }

def insertReceipt (receipt : HtmlReceipt) : Call Unit := do
  query fun db => throwIf (db.receipts.find? receipt.primary).isSome
    (.statement (js "UNIQUE constraint failed: html_receipts"))
  write fun db => { db with receipts := db.receipts.put receipt }

section Operations

variable [HtmlRuntime] [ReportRuntime] [CaseMapping]

def versionRow (id documentId : JsString) (version : Nat)
    (publication : HtmlPublication) (author : JsString) (now : Int)
    (source : Option JsString) : HtmlVersion where
  id := id
  documentId := documentId
  version := version
  publication := publication
  source := source
  author := author
  createdAt := now
  artifactDigest := HtmlRuntime.hash publication.html
  policyVersion := htmlPolicy

def truthyText (text : Option JsString) : Bool := text.any (· != [])

/-- The publication a stored version holds; an empty language or category
reads as none. -/
def snapshot (version : HtmlVersion) : HtmlPublication :=
  { version.publication with
    language := version.publication.language.filter (· != [])
    category := version.publication.category.filter (· != []) }

/-! ## Publishing -/

structure PublishInput where
  publication : Option HtmlPublication := none
  changes : Option (List (JsString × JsonValue)) := none
  documentId : Option JsString := none
  expectedVersion : Unknown := none
  seriesId : Option JsString := none
  audience : Unknown := none
  lifetime : Unknown := none

/-- `value === n` -/
def isNumber (value : Unknown) (n : Nat) : Bool :=
  strictEq value (some (.number (.ofNat n)))

/-- `/^[\w:.-]{1,200}$/u` -/
def isIdempotencyKey (key : JsString) : Bool :=
  1 ≤ key.length && key.length ≤ 200 && key.all (fun u =>
    isLower u || (unit 'A' ≤ u && u ≤ unit 'Z') || isDigit u ||
      u == unit '_' || u == unit ':' || u == unit '.' || u == unit '-')

/-- What is to be stored, and under which document. -/
structure Draft where
  document : HtmlDocument
  version : Nat
  publication : Option HtmlPublication
  source : Option JsString

/-- `{ title: old.title, …, ...changes }` -/
def mergedMetadata (old : HtmlPublication)
    (changes : List (JsString × JsonValue)) : JsonValue :=
  let held := [(js "title", .string old.title)] ++
    (old.language.toList.map (fun text => (js "language", .string text))) ++
    (old.category.toList.map (fun text => (js "category", .string text))) ++
    [(js "tags", .array (old.tags.map .string)),
      (js "metadata", .object (old.metadata.map (fun m =>
        (m.1, .string m.2))))]
  .object (held.filter (fun m => m.1 ∉ changes.map Prod.fst) ++ changes)

/-- The publication of a change of metadata: the stored page, whose language
and category a change cannot take away. -/
def changedPublication (db : Reports) (document : HtmlDocument)
    (changes : List (JsString × JsonValue)) :
    Except ReportFailure (HtmlPublication × Option JsString) := do
  let previous ← required
    (db.versions.find? (document.id, document.latestVersion)) missing
  let old := snapshot previous
  let changed ← normalizeMetadata (some (mergedMetadata old changes))
  .ok ({ old with
    title := changed.title
    language := changed.language.or old.language
    category := changed.category.or old.category
    tags := changed.tags
    metadata := changed.metadata }, previous.source)

def newVersion (version : Nat) (now : Int) (document : HtmlDocument) :
    HtmlDocument :=
  { document with latestVersion := version, updatedAt := now }

/-- The publication that an update stores, and its source. -/
def updatedPublication (db : Reports) (document : HtmlDocument)
    (input : PublishInput) :
    Except ReportFailure (Option HtmlPublication × Option JsString) :=
  match input.changes with
  | some changes => (changedPublication db document changes).map
      (fun changed => (some changed.1, changed.2))
  | none => .ok (input.publication, none)

/-- The next version of a document that stands. -/
def updateTarget (input : PublishInput) (id : JsString)
    (identity : ReportIdentity) (now : Int) : Call Draft := do
  check (throwIf (input.audience.isSome || input.lifetime.isSome ||
    input.seriesId.isSome) (.report (js "VALIDATION")
      (js "Publication updates preserve audience, lifetime and series") 400))
  let document ← query fun db => documentRow db id
  query fun db => assertEditor db document identity
  check (assertLive document now)
  check (throwIf (!isNumber input.expectedVersion document.latestVersion)
    (conflict "Reload and reconcile the current document version"))
  let stored ← query fun db => updatedPublication db document input
  updateDocument document.id (newVersion (document.latestVersion + 1) now)
    (fun _ => rfl)
  pure ⟨document, document.latestVersion + 1, stored.1, stored.2⟩

/-- The series of a new document: the owner's, and for a publisher the one
it may publish to. -/
def assertSeries (db : Reports) (input : PublishInput)
    (identity : ReportIdentity) (access : Access) :
    Except ReportFailure Unit :=
  if truthyText input.seriesId then
    throwIf (!(seriesOf db input.seriesId).any (fun series =>
      series.owner = identity.subject &&
        !(identity.publisherOnly && series.publisher ≠ some identity.actor) &&
        access.mode = js "private")) denied
  else throwIf identity.publisherOnly denied

def newDocument (id : JsString) (input : PublishInput)
    (identity : ReportIdentity) (access : Access) (expiry : Option Int)
    (now : Int) : HtmlDocument where
  id := id
  owner := identity.subject
  seriesId := input.seriesId
  teamId := access.teamId
  audience := access.mode
  readers := access.readers
  expiresAt := expiry
  createdAt := now
  updatedAt := now

/-- The first version of a new document. -/
def createTarget (input : PublishInput) (id : JsString)
    (identity : ReportIdentity) (now : Int) : Call Draft := do
  check (throwIf (input.expectedVersion.isSome || input.changes.isSome)
    (.report (js "VALIDATION")
      (js "Updates require a document ID and expected version") 400))
  let access ← query fun db => audience db (orElse input.audience
    (.object [(js "mode", .string (js "private"))])) identity
  query fun db => assertSeries db input identity access
  let expiry ← check (lifetime (orElse input.lifetime
    (.object [(js "permanent", .bool true)])) now)
  insertDocument (newDocument id input identity access expiry now)
  let document ← query fun db => documentRow db id
  pure ⟨document, 1, input.publication, none⟩

structure PublishAnswer where
  receipt : ReceiptBody
  replayed : Bool
  deriving DecidableEq

/-- A key that was used before answers its receipt again. -/
def replay (receipt : HtmlReceipt) (digest : JsString)
    (identity : ReportIdentity) (now : Int) : Call PublishAnswer := do
  check (throwIf (receipt.digest ≠ digest)
    (conflict "Idempotency key already used with different bytes or policy"))
  let current ← query fun db => documentRow db receipt.documentId
  query fun db => assertEditor db current identity
  check (assertLive current now)
  pure ⟨receipt.receipt, true⟩

def publishReceipt (draft : Draft) (publication : HtmlPublication)
    (stored : HtmlVersion) (digest base : JsString) : PublishReceipt :=
  let url := base ++ js "/d/" ++ draft.document.id
  { title := publication.title
    language := publication.language
    category := publication.category
    tags := publication.tags
    metadata := publication.metadata
    documentId := draft.document.id
    publicationId := stored.id
    version := draft.version
    url := url
    versionUrl := url ++ js "?v=" ++ decimal draft.version
    digest := digest
    artifactDigest := stored.artifactDigest
    policyVersion := htmlPolicy
    audience := draft.document.audience
    expiresAt := draft.document.expiresAt
    accessRevision := draft.document.accessRevision
    retentionRevision := draft.document.retentionRevision }

/-- Stores the version of a draft, and the receipt of the key. -/
def storeDraft (draft : Draft) (publication : HtmlPublication)
    (digest : JsString) (identity : ReportIdentity) (key base : JsString)
    (versionId : JsString) (now : Int) : Call PublishAnswer := do
  let stored := versionRow versionId draft.document.id draft.version
    publication identity.actor now draft.source
  insertVersionRow stored
  let receipt := publishReceipt draft publication stored digest base
  insertReceipt ⟨identity.subject, identity.actor, key, digest,
    draft.document.id, .published receipt⟩
  pure ⟨.published receipt, false⟩

/-- What a publication is to become a version of. -/
def target (input : PublishInput) (draws : Draws) (identity : ReportIdentity)
    (now : Int) : Call Draft :=
  match input.documentId.filter (· != []) with
  | some id => updateTarget input id identity now
  | none => createTarget input draws.documentId identity now

def publishNew (input : PublishInput) (digest : JsString)
    (identity : ReportIdentity) (key base : JsString) (draws : Draws)
    (now : Int) : Call PublishAnswer := do
  let draft ← target input draws identity now
  let publication ← check (required draft.publication
    (.report (js "VALIDATION") (js "A complete HTML publication is required")
      400))
  storeDraft draft publication digest identity key base draws.versionId now

/-- The answer under a key, whose receipt is given where it was used. -/
def publishUnless (existing : Option HtmlReceipt) (input : PublishInput)
    (digest : JsString) (identity : ReportIdentity) (key base : JsString)
    (draws : Draws) (now : Int) : Call PublishAnswer :=
  match existing with
  | some receipt => replay receipt digest identity now
  | none => publishNew input digest identity key base draws now

def publishOnce (input : PublishInput) (digest : JsString)
    (identity : ReportIdentity) (key base : JsString) (draws : Draws)
    (now : Int) : Call PublishAnswer := do
  let existing ← query fun db =>
    .ok (db.receipts.find? (identity.subject, identity.actor, key))
  publishUnless existing input digest identity key base draws now

def publishHtml (input : PublishInput) (raw : JsString)
    (identity : ReportIdentity) (key base : JsString) (draws : Draws)
    (now : Int) (persisted : Bool) : Call PublishAnswer := do
  check (throwIf (!isIdempotencyKey key) (.report (js "VALIDATION")
    (js "A 1–200 character idempotency key is required") 400))
  reportTransaction persisted
    (publishOnce input (HtmlRuntime.hash raw) identity key base draws now)

/-! ## Reading and managing -/

structure HtmlReading where
  document : HtmlDocument
  version : HtmlVersion
  callerRole : Role

def readHtml (db : Reports) (id : JsString) (identity : Option ReportIdentity)
    (revision : Option Nat) (now : Int) : Except ReportFailure HtmlReading := do
  let document ← documentRow db id
  let callerRole ← required (role db document identity) missing
  assertLive document now
  let version ← required (db.versions.find? (document.id,
    revision.getD document.latestVersion)) missing
  .ok ⟨document, version, callerRole⟩

def recoveryUnavailable : ReportFailure := gone "Recovery is unavailable"

def restored (expiry : Option Int) (document : HtmlDocument) : HtmlDocument :=
  { document with
    audience := js "private"
    readers := []
    teamId := none
    expiresAt := expiry
    removedAt := none
    accessRevision := document.accessRevision + 1
    retentionRevision := document.retentionRevision + 1 }

def restoreDocument (document : HtmlDocument) (body : JsonValue)
    (identity : ReportIdentity) (now : Int) : Call Unit := do
  check (throwIf ((removedAt document now).all (fun removed =>
    removed + recoveryMs ≤ now)) recoveryUnavailable)
  check (throwIf (identity.subject ≠ document.owner) denied)
  query fun db => throwIf (truthyText document.seriesId &&
    (seriesOf db document.seriesId).all (fun series =>
      series.owner ≠ document.owner))
    (.report (js "RECOVERY_BINDING")
      (js "Series ownership must be reconciled before restoration") 409)
  let expiry ← check (lifetime (body.field? (js "lifetime")) now)
  updateDocument document.id (restored expiry) (fun _ => rfl)

def removed (now : Int) (document : HtmlDocument) : HtmlDocument :=
  { document with
    removedAt := some now
    retentionRevision := document.retentionRevision + 1 }

omit [HtmlRuntime] [ReportRuntime] [CaseMapping] in
theorem removed_id (now : Int) (document : HtmlDocument) :
    (removed now document).id = document.id := rfl

def removeDocument (document : HtmlDocument) (body : JsonValue) (now : Int) :
    Call Unit := do
  check (throwIf (!isNumber (body.field? (js "expectedVersion"))
    document.latestVersion)
    (conflict "Reload the current version before removal"))
  if (removedAt document now).isNone then
    updateDocument document.id (removed now) (removed_id now)
  else pure ()

def withAccess (access : Access) (document : HtmlDocument) : HtmlDocument :=
  { document with
    audience := access.mode
    readers := access.readers
    teamId := access.teamId
    accessRevision := document.accessRevision + 1 }

def changeAccess (document : HtmlDocument) (body : JsonValue)
    (identity : ReportIdentity) (now : Int) : Call Unit := do
  check (assertLive document now)
  check (throwIf (!isNumber (body.field? (js "expectedAccessRevision"))
    document.accessRevision) (conflict "Reload the current access revision"))
  check (throwIf (truthyText document.seriesId)
    (.report (js "SERIES_BINDING")
      (js "Series-bound documents must retain private owner access") 409))
  let access ← query fun db =>
    audience db (body.field? (js "audience")) identity
  updateDocument document.id (withAccess access) (fun _ => rfl)

def withExpiry (expiry : Option Int) (document : HtmlDocument) :
    HtmlDocument :=
  { document with
    expiresAt := expiry
    retentionRevision := document.retentionRevision + 1 }

def changeRetention (document : HtmlDocument) (body : JsonValue) (now : Int) :
    Call Unit := do
  check (assertLive document now)
  check (throwIf (!isNumber (body.field? (js "expectedRetentionRevision"))
    document.retentionRevision)
    (conflict "Reload the current retention revision"))
  let expiry ← check (lifetime (body.field? (js "lifetime")) now)
  updateDocument document.id (withExpiry expiry) (fun _ => rfl)

inductive HtmlAction where
  | restore
  | remove
  | access
  | retention
  deriving DecidableEq

/-- The fields an action takes. -/
def HtmlAction.fields : HtmlAction → List String
  | .restore => ["lifetime"]
  | .remove => ["expectedVersion"]
  | .access => ["audience", "expectedAccessRevision"]
  | .retention => ["lifetime", "expectedRetentionRevision"]

def htmlAction? (action : JsString) : Option HtmlAction :=
  if action = js "restore" then some .restore
  else if action = js "remove" then some .remove
  else if action = js "access" then some .access
  else if action = js "retention" then some .retention
  else none

def manageDocument (document : HtmlDocument) (identity : ReportIdentity)
    (action : HtmlAction) (body : JsonValue) (now : Int) : Call Unit :=
  match action with
  | .restore => restoreDocument document body identity now
  | .remove => removeDocument document body now
  | .access => changeAccess document body identity now
  | .retention => changeRetention document body now

def manageOnce (id : JsString) (identity : ReportIdentity) (action : JsString)
    (input : Unknown) (now : Int) : Call HtmlDocument := do
  let document ← query fun db => documentRow db id
  query fun db => assertAdmin db document identity
  let action ← check (required (htmlAction? action)
    (.report (js "VALIDATION") (js "Unknown lifecycle operation") 400))
  let body ← check (object input action.fields)
  manageDocument document identity action body now
  query fun db => documentRow db id

def manageHtml (id : JsString) (identity : ReportIdentity) (action : JsString)
    (input : Unknown) (now : Int) (persisted : Bool) : Call HtmlDocument :=
  reportTransaction persisted (manageOnce id identity action input now)

end Operations

/-! ## Purging -/

/-- An end at least thirty days ago. -/
def recoveryOver (time : Option Int) (now : Int) : Bool :=
  time.any (· ≤ now - recoveryMs)

def purgeable (document : HtmlDocument) (now : Int) : Bool :=
  document.purgedAt.isNone &&
    (recoveryOver document.removedAt now || recoveryOver document.expiresAt now)

def purged (now : Int) (document : HtmlDocument) : HtmlDocument :=
  { document with
    purgedAt := some now
    teamId := none
    readers := []
    audience := js "private"
    seriesId := none
    legacyPlanId := none }

def purgedReceipt (id : JsString) (receipt : HtmlReceipt) : HtmlReceipt :=
  { receipt with receipt := .purged id }

theorem purged_id (now : Int) (document : HtmlDocument) :
    (purged now document).id = document.id := rfl

theorem purgedReceipt_primary (id : JsString) (receipt : HtmlReceipt) :
    (purgedReceipt id receipt).primary = receipt.primary := rfl

def purgeDocument (now : Int) (id : JsString) : Call Unit := do
  write fun db => { db with
    versions := db.versions.keep (fun version => version.documentId ≠ id) }
  write fun db => { db with
    receipts := db.receipts.update (fun receipt => receipt.documentId = id)
      (purgedReceipt id) (purgedReceipt_primary id) }
  updateDocument id (purged now) (purged_id now)

def purgeOnce (now : Int) : Call Nat := do
  let candidates ← query fun db =>
    .ok (db.documents.rows.filter (fun document => purgeable document now))
  each (candidates.map HtmlDocument.id) (purgeDocument now)
  pure candidates.length

def purgeHtml (now : Int) (persisted : Bool) : Call Nat := do
  let pending ← query fun db =>
    .ok (db.documents.rows.any (fun document => purgeable document now))
  if pending then reportTransaction persisted (purgeOnce now)
  else pure 0

end OpenApe.Ports.HtmlStore
