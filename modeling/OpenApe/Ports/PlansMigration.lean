import OpenApe.Ports.PlansStore

/-!
# The Plans migration (`apps/openape-testrun/server/utils/plans-migration.ts`)

A snapshot of the Plans database is imported into the Reports store once,
compared with it at any time, and exported again for a rollback.  The digest
of a snapshot says which one was imported.

The rows of a snapshot have the types of the schema: texts where it has
texts, whole numbers for times and counts.
-/

namespace OpenApe.Ports.PlansMigration

open Verified.JsText Verified.Json Verified.KeyedTable Verified.Transactions
  Verified.Transactions.Action Verified.Unicode
open ReportContracts HtmlStore PlansStore

/-! ## Snapshots -/

/-- A row of the table `plans`. -/
structure Plan where
  id : JsString
  teamId : Option JsString
  title : JsString
  bodyMd : JsString
  status : JsString
  ownerEmail : JsString
  createdAt : Int
  updatedAt : Int
  updatedBy : JsString
  deletedAt : Option Int
  deriving DecidableEq

structure PlansSnapshot where
  teams : List Team
  teamMembers : List TeamMember
  teamInvites : List TeamInvite
  plans : List Plan
  deriving DecidableEq

theorem intText_units (n : Nat) :
    (unit '-' :: decimal n).all isNumberUnit = true := by
  rw [List.all_cons, decimal_units]
  decide

theorem intText_leads (n : Nat) :
    ((unit '-' :: decimal n).head?.any fun u =>
      (48 ≤ u && u ≤ 57) || u == unit '-') = true := by
  rw [List.head?_cons]
  decide

/-- A whole number as JSON. -/
def intNumber : Int → JsonNumber
  | .ofNat n => .ofNat n
  | .negSucc n =>
      ⟨unit '-' :: decimal (n + 1), intText_units (n + 1),
        intText_leads (n + 1)⟩

def intCell (n : Int) : JsonValue := .number (intNumber n)

/-- `record[column] ?? null` -/
def cell {α : Type} (f : α → JsonValue) : Option α → JsonValue
  | none => .null
  | some value => f value

/-! The values of a row, in the order of `columns`. -/

def teamCells (team : Team) : List JsonValue :=
  [.string team.id, .string team.name, cell .string team.description,
    .string team.createdBy, intCell team.createdAt,
    cell intCell team.archivedAt]

def memberCells (member : TeamMember) : List JsonValue :=
  [.string member.teamId, .string member.userEmail, .string member.role,
    intCell member.joinedAt]

def inviteCells (invite : TeamInvite) : List JsonValue :=
  [.string invite.id, .string invite.teamId, .string invite.createdBy,
    cell .string invite.note, intCell invite.maxUses,
    intCell invite.usedCount, intCell invite.expiresAt,
    cell intCell invite.revokedAt, intCell invite.createdAt]

def planCells (plan : Plan) : List JsonValue :=
  [.string plan.id, cell .string plan.teamId, .string plan.title,
    .string plan.bodyMd, .string plan.status, .string plan.ownerEmail,
    intCell plan.createdAt, intCell plan.updatedAt, .string plan.updatedBy,
    cell intCell plan.deletedAt]

/-! ## The digest -/

section Digest

variable [Collation]

/-- `JSON.stringify(a).localeCompare(JSON.stringify(b))`, not positive. -/
def RowLe (a b : JsonValue) : Prop :=
  Collation.localeCompare (stringify a) (stringify b) ≠ .gt

instance : DecidableRel RowLe := fun _ _ => inferInstanceAs (Decidable (_ ≠ _))

/-- The rows of a table, sorted. -/
def canonicalRows {ρ : Type} (cells : ρ → List JsonValue) (rows : List ρ) :
    List JsonValue :=
  (rows.map fun record => .array (cells record)).insertionSort RowLe

def canonicalTable {ρ : Type} (table : String) (cells : ρ → List JsonValue)
    (rows : List ρ) : JsonValue :=
  .array [.string (js table), .array (canonicalRows cells rows)]

def canonical (snapshot : PlansSnapshot) : JsString :=
  stringify (.array
    [canonicalTable "teams" teamCells snapshot.teams,
      canonicalTable "team_members" memberCells snapshot.teamMembers,
      canonicalTable "team_invites" inviteCells snapshot.teamInvites,
      canonicalTable "plans" planCells snapshot.plans])

def plansSnapshotDigest [HtmlRuntime] (snapshot : PlansSnapshot) : JsString :=
  HtmlRuntime.hash (canonical snapshot)

end Digest

/-! ## Validation -/

/-- `${record.team_id}\0${record.user_email}` -/
def memberIdentity (member : TeamMember) : JsString :=
  member.teamId ++ 0 :: member.userEmail

/-- The loop over one table: `seen` holds the identities so far. -/
def checkIdentities (table : String) (seen : List JsString) :
    List JsString → Except ReportFailure Unit
  | [] => .ok ()
  | key :: keys =>
      if key ∈ seen then invalid (js s!"Duplicate {table} identity")
      else checkIdentities table (key :: seen) keys

/-- The teams that rows refer to; a deleted plan may refer to any. -/
def teamReferences (snapshot : PlansSnapshot) : List (Option JsString) :=
  snapshot.teamMembers.map (fun member => some member.teamId) ++
    snapshot.teamInvites.map (fun invite => some invite.teamId) ++
    (snapshot.plans.filter fun plan => plan.deletedAt = none).map Plan.teamId

def orphaned : ReportFailure :=
  .report (js "VALIDATION") (js ("Orphaned legacy team reference; reconcile " ++
    "the source before import")) 400

/-- `validatePlansSnapshot`, of rows that have the types of the schema. -/
def validatePlansSnapshot (snapshot : PlansSnapshot) :
    Except ReportFailure Unit := do
  checkIdentities "teams" [] (snapshot.teams.map Team.id)
  checkIdentities "team_members" [] (snapshot.teamMembers.map memberIdentity)
  checkIdentities "team_invites" [] (snapshot.teamInvites.map TeamInvite.id)
  checkIdentities "plans" [] (snapshot.plans.map Plan.id)
  throwIf ((teamReferences snapshot).any fun teamId =>
    teamId ∉ snapshot.teams.map fun team => some team.id) orphaned

/-! ## The store -/

/-- The row of `plans_migration`. -/
structure MigrationReceipt where
  sourceDigest : JsString
  importedAt : Int
  planCount : Nat
  deriving DecidableEq

/-- A row of `plans_imports`. -/
structure PlanImport where
  documentId : JsString
  sourceDigest : JsString
  artifactDigest : JsString
  deriving DecidableEq

/-- The Reports store with the two tables of the migration. -/
structure PlansDb where
  reports : Reports
  migration : Option MigrationReceipt
  imports : Table PlanImport.documentId

abbrev Migration := Action PlansDb ReportFailure

/-- A call on the Reports store. -/
def onReports {α : Type} (call : Call α) : Migration α := fun db =>
  let (result, reports) := call db.reports
  (result, { db with reports := reports })

/-- `transaction(client, operation)`, like `reportTransaction`. -/
def migrationTransaction {α : Type} (persisted : Bool)
    (operation : Migration α) : Migration α := do
  let result ← transaction do
    let result ← operation
    write fun db =>
      { db with
        reports := { db.reports with revision := db.reports.revision + 1 } }
    pure result
  check (throwIf (!persisted) journalUnavailable)
  pure result

/-! ## Import -/

structure ImportResult where
  digest : JsString
  imported : Nat
  replayed : Bool
  plans : Nat
  deriving DecidableEq

/-- `Number(time) * 1000` -/
def millis (time : Int) : Int := time * 1000

def importedDocument (plan : Plan) : HtmlDocument where
  id := plan.id
  legacyPlanId := some plan.id
  owner := plan.ownerEmail
  teamId := plan.teamId
  audience := js "team"
  createdAt := millis plan.createdAt
  updatedAt := millis plan.updatedAt
  removedAt := plan.deletedAt.map millis

def insertImport (row : PlanImport) : Migration Unit := do
  query fun db => throwIf (db.imports.find? row.documentId).isSome
    (.statement (js "UNIQUE constraint failed: plans_imports.document_id"))
  write fun db => { db with imports := db.imports.put row }

section Import

variable [HtmlRuntime] [ReportRuntime] [CaseMapping] [Collation]

/-- `hash(JSON.stringify(columns.plans.map(column => plan[column])))` -/
def planDigest (plan : Plan) : JsString :=
  HtmlRuntime.hash (stringify (.array (planCells plan)))

/-- The turn of the loop for one plan; `versionId` is what `ulid` draws. -/
def importPlan (plan : Plan) (versionId : JsString) : Migration Unit := do
  let publication ← check
    (planPublication plan.title plan.bodyMd plan.status none)
  onReports (insertDocument (importedDocument plan))
  onReports (insertVersionRow (versionRow versionId plan.id 1 publication
    plan.updatedBy (millis plan.updatedAt) (some plan.bodyMd)))
  insertImport ⟨plan.id, planDigest plan, HtmlRuntime.hash publication.html⟩

def otherImported : ReportFailure :=
  conflict ("A different Plans snapshot was already imported; reconcile " ++
    "the writer before proceeding")

/-- A snapshot that was imported before. -/
def replayImport (snapshot : PlansSnapshot) (previous : MigrationReceipt) :
    Migration ImportResult := do
  let digest := plansSnapshotDigest snapshot
  check (throwIf (previous.sourceDigest ≠ digest) otherImported)
  query fun db => throwIf
    (db.imports.rows.any fun row =>
      (db.reports.documents.find? row.documentId).isNone)
    (conflict "Imported document identities are missing")
  pure ⟨digest, 0, true, snapshot.plans.length⟩

def importFirst (versionIds : Nat → JsString) (snapshot : PlansSnapshot)
    (now : Int) : Migration ImportResult := do
  let digest := plansSnapshotDigest snapshot
  each snapshot.teams fun team => onReports (insertTeam team)
  each snapshot.teamMembers fun member => onReports (insertMember member)
  each snapshot.teamInvites fun invite => onReports (insertInvite invite)
  each snapshot.plans.zipIdx fun plan => importPlan plan.1 (versionIds plan.2)
  write fun db =>
    { db with migration := some ⟨digest, now, snapshot.plans.length⟩ }
  pure ⟨digest, snapshot.plans.length, false, snapshot.plans.length⟩

def importOnce (versionIds : Nat → JsString) (snapshot : PlansSnapshot)
    (now : Int) : Migration ImportResult := do
  let previous ← query fun db => .ok db.migration
  match previous with
  | some previous => replayImport snapshot previous
  | none => importFirst versionIds snapshot now

/-- `importPlans` -/
def importPlans (versionIds : Nat → JsString) (snapshot : PlansSnapshot)
    (now : Int) (persisted : Bool) : Migration ImportResult := do
  check (validatePlansSnapshot snapshot)
  migrationTransaction persisted (importOnce versionIds snapshot now)

/-! ## Reconciliation -/

structure Reconciliation where
  digest : JsString
  plans : Nat
  purged : Nat
  changed : Nat
  differences : List JsString
  reconciled : Bool
  deriving DecidableEq

/-- A row that is missing or not the same. -/
def drift {ρ : Type} [DecidableEq ρ] (table : String) (identity : JsString)
    (source : ρ) (actual : Option ρ) : List JsString :=
  if actual = some source then []
  else [js table ++ js ": " ++ identity ++
    js ": metadata or permission drift"]

/-- A difference of a plan, where the condition holds. -/
def difference (condition : Bool) (plan : Plan) (text : String) :
    List JsString :=
  if condition then [plan.id ++ js ": " ++ js text] else []

/-- `SELECT * FROM html_documents WHERE id=? OR legacy_plan_id=?` -/
def planDocument (db : PlansDb) (id : JsString) : Option HtmlDocument :=
  db.reports.documents.rows.find? fun document =>
    document.id = id || document.legacyPlanId = some id

/-- `JSON.parse(version.metadata)['plans.status']` -/
def storedStatus (version : HtmlVersion) : Option JsString :=
  (version.publication.metadata.find? fun m =>
    m.1 = js "plans.status").map Prod.snd

/-- What the comparison of one plan finds. -/
structure PlanFinding where
  purged : Bool := false
  changed : Bool := false
  differences : List JsString

/-- The first version of a plan's document, compared. -/
def versionDifferences (plan : Plan) (imported : PlanImport)
    (first : Option HtmlVersion) : List JsString :=
  difference (first.all fun first => first.source ≠ some plan.bodyMd ||
      first.artifactDigest ≠ imported.artifactDigest ||
      HtmlRuntime.hash first.publication.html ≠ imported.artifactDigest)
    plan "imported immutable version mismatch" ++
  difference (first.any fun first => first.publication.title ≠ plan.title ||
      first.author ≠ plan.updatedBy ||
      first.createdAt ≠ millis plan.updatedAt ||
      first.publication.category ≠ some (js "Plans") ||
      storedStatus first ≠ some plan.status)
    plan "imported metadata or attribution mismatch"

/-- A document that is still there, compared with its plan. -/
def documentDifferences (plan : Plan) (document : HtmlDocument) :
    List JsString :=
  difference (document.legacyPlanId ≠ some plan.id)
    plan "legacy identity mismatch" ++
  difference (document.accessRevision = 1 &&
      (document.audience ≠ js "team" || document.teamId ≠ plan.teamId ||
        document.readers ≠ []))
    plan "imported access mismatch" ++
  difference (document.retentionRevision = 1 &&
      (document.expiresAt ≠ none ||
        document.removedAt ≠ plan.deletedAt.map millis))
    plan "imported retention mismatch"

/-- The turn of the loop for one plan. -/
def comparePlan (db : PlansDb) (plan : Plan) : PlanFinding :=
  match planDocument db plan.id, db.imports.find? plan.id with
  | some document, some imported =>
      if imported.sourceDigest ≠ planDigest plan then
        { differences :=
            difference true plan "identity or source digest mismatch" }
      else
        let identity := difference (document.id ≠ plan.id ||
            document.owner ≠ plan.ownerEmail ||
            document.createdAt ≠ millis plan.createdAt)
          plan "identity, ownership or creation mismatch"
        if document.purgedAt.isSome then
          { purged := true, differences := identity }
        else
          { changed := 1 < document.latestVersion
            differences := identity ++ documentDifferences plan document ++
              versionDifferences plan imported
                (db.reports.versions.find? (document.id, 1)) }
  | _, _ =>
      { differences :=
          difference true plan "identity or source digest mismatch" }

def sourceMismatch : ReportFailure :=
  conflict "Source snapshot does not match the migration receipt"

/-- `reconcilePlans` -/
def reconcilePlans (snapshot : PlansSnapshot) (db : PlansDb) :
    Except ReportFailure Reconciliation := do
  validatePlansSnapshot snapshot
  let digest := plansSnapshotDigest snapshot
  let receipt ← required
    (db.migration.filter fun receipt => receipt.sourceDigest = digest)
    sourceMismatch
  let findings := snapshot.plans.map (comparePlan db)
  let differences :=
    (snapshot.teams.flatMap fun team =>
      drift "teams" team.id team (db.reports.teams.find? team.id)) ++
    (snapshot.teamMembers.flatMap fun member =>
      drift "team_members" member.userEmail member
        (db.reports.members.find? member.primary)) ++
    (snapshot.teamInvites.flatMap fun invite =>
      drift "team_invites" invite.id invite
        (db.reports.invites.find? invite.id)) ++
    (if receipt.planCount ≠ snapshot.plans.length then
      [js "Migration count mismatch"] else []) ++
    findings.flatMap PlanFinding.differences
  .ok
    { digest := digest
      plans := snapshot.plans.length
      purged := findings.countP PlanFinding.purged
      changed := findings.countP PlanFinding.changed
      differences := differences
      reconciled := differences.isEmpty }

end Import

/-! ## Rollback -/

def notRepresentable : ReportFailure :=
  conflict ("Rollback cannot represent an active HTML-only, non-team or " ++
    "finite-lifetime Plan; keep the writer frozen and reconcile explicitly")

def unknownStatus : ReportFailure :=
  conflict "Rollback cannot represent the current Plan status"

/-- The end of a document that is over. -/
def endOf (document : HtmlDocument) (expired : Bool) : Option Int :=
  match document.removedAt,
      if expired then document.expiresAt else none with
  | some removed, some expiry => some (min removed expiry)
  | some removed, none => some removed
  | none, expiry => expiry

/-- The plan a document goes back to; none where it was purged. -/
def rollbackDocument (db : PlansDb) (now : Int) (document : HtmlDocument) :
    Except ReportFailure (Option Plan) :=
  if document.purgedAt.isSome then .ok none
  else
    let expired := document.expiresAt.any fun expiresAt => expiresAt ≤ now
    let deleted := document.removedAt.isSome || expired
    match db.reports.versions.find? (document.id, document.latestVersion) with
    | none => .error notRepresentable
    | some version =>
        match version.source with
        | none => .error notRepresentable
        | some source =>
            if !deleted && (document.audience ≠ js "team" ||
                document.expiresAt ≠ none) then .error notRepresentable
            else
              match storedStatus version with
              | none => .error unknownStatus
              | some status =>
                  if status ∉ [js "draft", js "active", js "done",
                      js "archived"] then .error unknownStatus
                  else
                    .ok (some
                      { id := document.legacyPlanId.getD []
                        teamId := document.teamId
                        title := version.publication.title
                        bodyMd := source
                        status := status
                        ownerEmail := document.owner
                        createdAt := seconds document.createdAt
                        updatedAt := seconds document.updatedAt
                        updatedBy := version.author
                        deletedAt := if deleted then
                          (endOf document expired).map seconds else none })

/-- `rollbackPlansSnapshot` -/
def rollbackPlansSnapshot (db : PlansDb) (now : Int) :
    Except ReportFailure PlansSnapshot := do
  let plans ← (db.reports.documents.rows.filter fun document =>
    document.legacyPlanId.isSome).mapM (rollbackDocument db now)
  .ok
    { teams := db.reports.teams.rows
      teamMembers := db.reports.members.rows
      teamInvites := db.reports.invites.rows
      plans := plans.filterMap id }

end OpenApe.Ports.PlansMigration
