import OpenApe.Ports.PlansStore

/-!
# The policy journal (`html-policy-journal.ts`)

A copy of all access policies beside the database.  When an older database is
put in place of the current one, `initializeHtmlPolicyJournal` brings its
policies up to those of the journal before anything is served, or refuses.
-/

namespace OpenApe.Ports.HtmlPolicyJournal

open Verified.JsText Verified.KeyedTable Verified.Transactions.Action
  Verified.Unicode
open CentralValues (maxSafeInteger)
open ReportContracts HtmlStore PlansStore

/-! ## Capturing -/

structure SavedReceipt where
  identity : JsString
  actor : JsString
  key : JsString
  digest : JsString
  documentId : JsString
  deriving DecidableEq

structure SavedPublisher where
  id : JsString
  owner : JsString
  publisher : Option JsString
  revision : Nat
  deriving DecidableEq

structure PolicyJournal where
  store : JsString
  revision : Nat
  policies : List HtmlDocument
  receipts : List SavedReceipt
  teams : List Team
  members : List TeamMember
  invites : List TeamInvite
  publishers : List SavedPublisher
  deriving DecidableEq

def savedReceipt (receipt : HtmlReceipt) : SavedReceipt :=
  ⟨receipt.identity, receipt.actor, receipt.key, receipt.digest,
    receipt.documentId⟩

def savedPublisher (series : ReportSeries) : SavedPublisher :=
  ⟨series.id, series.owner, series.publisher, series.revision⟩

/-- The columns that receipts are ordered by. -/
def SavedReceipt.order (receipt : SavedReceipt) : List (List Nat) :=
  [codePoints receipt.identity, codePoints receipt.actor,
    codePoints receipt.key]

def capture (db : Reports) : PolicyJournal where
  store := db.instanceId
  revision := db.revision
  policies := db.documents.rows.insertionSort
    (fun a b => codePoints a.id ≤ codePoints b.id)
  receipts := (db.receipts.rows.map savedReceipt).insertionSort
    (fun a b => a.order ≤ b.order)
  teams := db.teams.rows
  members := db.members.rows
  invites := db.invites.rows
  publishers := (db.series.rows.map savedPublisher).insertionSort
    (fun a b => codePoints a.id ≤ codePoints b.id)

/-! ## Applying -/

def lacksVersions : ReportFailure := .statement
  (js ("Restored database lacks newer immutable versions; recover the newer " ++
    "content before serving Reports"))

def lacksSeries : ReportFailure := .statement
  (js ("Restored database lacks the current publisher series; recover the " ++
    "newer database before serving Reports"))

/-- The row that a policy leaves of a document: all but its version and
times. -/
def withPolicy (policy current : HtmlDocument) : HtmlDocument :=
  { policy with
    id := current.id
    latestVersion := current.latestVersion
    createdAt := current.createdAt
    updatedAt := current.updatedAt }

/-- `UPDATE html_documents SET … WHERE id = ?`, under the unique column. -/
def updatePolicy (policy : HtmlDocument) : Call Unit := do
  query fun db => throwIf
    (db.documents.rows.any (fun other => other.id ≠ policy.id &&
      policy.legacyPlanId.isSome && other.legacyPlanId = policy.legacyPlanId))
    (.statement (js "UNIQUE constraint failed: html_documents"))
  updateDocument policy.id (withPolicy policy) (fun _ => rfl)

def storePolicy (policy : HtmlDocument) (current : Option HtmlDocument) :
    Call Unit :=
  match current with
  | none => insertDocument policy
  | some _ => updatePolicy policy

/-- A purged document has no versions and no receipts with content. -/
def emptyPurged (policy : HtmlDocument) : Call Unit :=
  if policy.purgedAt.isSome then do
    write fun db => { db with
      versions := db.versions.keep
        (fun version => version.documentId ≠ policy.id) }
    write fun db => { db with
      receipts := db.receipts.update
        (fun receipt => receipt.documentId = policy.id)
        (purgedReceipt policy.id) (fun _ => rfl) }
  else pure ()

def applyPolicy (policy : HtmlDocument) : Call Unit := do
  let current ← query fun db => .ok (db.documents.find? policy.id)
  check (throwIf (policy.purgedAt.isNone && current.all (fun current =>
    current.latestVersion < policy.latestVersion)) lacksVersions)
  check (throwIf (current.any (fun current => current.owner ≠ policy.owner))
    (.statement (js "Policy journal owner mismatch")))
  storePolicy policy current
  emptyPurged policy

def withPublisher (saved : SavedPublisher) (series : ReportSeries) :
    ReportSeries :=
  { series with publisher := saved.publisher, revision := saved.revision }

def applyPublisher (saved : SavedPublisher) : Call Unit := do
  query fun db => throwIf ((db.series.find? saved.id).all (fun current =>
    current.owner ≠ saved.owner)) lacksSeries
  write fun db => { db with
    series := db.series.update (fun series => series.id = saved.id)
      (withPublisher saved) (fun _ => rfl) }

/-- A receipt whose answer is lost. -/
def tombstone (saved : SavedReceipt) : HtmlReceipt :=
  ⟨saved.identity, saved.actor, saved.key, saved.digest, saved.documentId,
    .recoveryTombstone saved.documentId⟩

def applyReceipt (saved : SavedReceipt) : Call Unit := do
  let current ← query fun db =>
    .ok (db.receipts.find? (tombstone saved).primary)
  check (throwIf (current.any (fun current => current.digest ≠ saved.digest))
    (.statement (js "Policy journal receipt conflict")))
  if current.isNone then insertReceipt (tombstone saved) else pure ()

/-- The teams, members and invites of the journal, in place of all there
are. -/
def applyTeams (journal : PolicyJournal) : Call Unit := do
  write fun db => { db with
    invites := Table.empty, members := Table.empty, teams := Table.empty }
  each journal.teams insertTeam
  each journal.members insertMember
  each journal.invites insertInvite

def applyAll (journal : PolicyJournal) : Call Unit := do
  each journal.policies applyPolicy
  each journal.publishers applyPublisher
  each journal.receipts applyReceipt
  applyTeams journal
  write fun db => { db with revision := journal.revision }

def apply (journal : PolicyJournal) : Call Unit := transaction do
  query fun db => throwIf (journal.store ≠ db.instanceId) (.statement
    (js "Policy journal belongs to a different Reports database"))
  let current ← query fun db => .ok (decide (journal.revision ≤ db.revision))
  if current then pure () else applyAll journal

/-- The check at the start of the server.  The journal that it writes then
is part of the history below. -/
def initializeHtmlPolicyJournal (saved : Option PolicyJournal) : Call Unit :=
  match saved with
  | none => query fun db => throwIf (db.documents.rows.length ≠ 0) (.statement
      (js ("Missing Reports policy journal: restore the current journal " ++
        "before serving an existing HTML database")))
  | some journal => do
      check (throwIf (maxSafeInteger < journal.revision)
        (.statement (js "Invalid Reports policy journal")))
      apply journal

end OpenApe.Ports.HtmlPolicyJournal
