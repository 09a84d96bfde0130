import OpenApe.Verified.JsObject
import OpenApe.Ports.HtmlStore

/-!
# Plans and teams over the Reports store

A plan is a document shared with a team whose versions keep their Markdown
source (`plans-store.ts`).  Teams and invites (`plans-teams.ts`,
`plans-api.ts`), series and their publishers (`report-store.ts`,
`publisher.put.ts`) are the other transactions that write policies.
-/

namespace OpenApe.Ports.PlansStore

open Verified.JsText Verified.Json Verified.Transactions.Action Verified.Unicode
open CentralValues (Unknown isNull isSafeInteger)
open ReportContracts HtmlStore

/-! ## Reading a plan -/

def planMissing : ReportFailure :=
  .report (js "NOT_FOUND") (js "Plan not found") 404

def htmlOnly : ReportFailure :=
  conflict "This version is HTML-only; edit with ape-reports"

def forbidden (message : String) : ReportFailure :=
  .report (js "FORBIDDEN") (js message) 403

def upgradeRequired : ReportFailure :=
  .report (js "UPGRADE_REQUIRED")
    (js ("Upgrade ape-plans and submit expected_version from the plan you " ++
      "read")) 428

/-- The version a caller read must be the current one. -/
def planVersion (input : Unknown) (current : Nat) :
    Except ReportFailure Unit :=
  if input = none then .error upgradeRequired
  else throwIf (!isSafeInteger input || !isNumber input current) (conflict
    "The plan changed; reload and reconcile your source before retrying")

def member (db : Reports) (team : JsString) (identity : ReportIdentity)
    (edit : Bool) (owner : Bool) : Except ReportFailure TeamMember :=
  let found := if (db.teams.find? team).isSome then
    db.members.find? (team, identity.subject) else none
  match found with
  | none => .error (forbidden "Required team membership or role is missing")
  | some found =>
      if identity.publisherOnly || (edit && found.role = js "viewer") ||
          (owner && found.role ≠ js "owner") then
        .error (forbidden "Required team membership or role is missing")
      else .ok found

def planStatus (version : HtmlVersion) : JsString :=
  ((version.publication.metadata.find? (fun m =>
    m.1 = js "plans.status")).map Prod.snd).getD (js "draft")

structure PlanResult where
  id : JsString
  teamId : Option JsString
  title : JsString
  bodyMd : Option JsString
  status : JsString
  ownerEmail : JsString
  createdAt : Int
  updatedAt : Int
  updatedBy : JsString
  version : Nat
  callerRole : JsString
  deriving DecidableEq

def callerRoleText : Role → JsString
  | .owner => js "owner"
  | .admin => js "owner"
  | .editor => js "editor"
  | .reader => js "viewer"

def planResult (document : HtmlDocument) (version : HtmlVersion)
    (callerRole : Role) : PlanResult where
  id := document.legacyPlanId.getD document.id
  teamId := document.teamId
  title := version.publication.title
  bodyMd := version.source
  status := planStatus version
  ownerEmail := document.owner
  createdAt := document.createdAt / 1000
  updatedAt := document.updatedAt / 1000
  updatedBy := version.author
  version := document.latestVersion
  callerRole := callerRoleText callerRole

structure PlanReading where
  document : HtmlDocument
  version : HtmlVersion
  source : JsString
  callerRole : Role

def PlanReading.result (reading : PlanReading) : PlanResult :=
  planResult reading.document reading.version reading.callerRole

def readPlan (db : Reports) (id : JsString) (identity : ReportIdentity)
    (now : Int) : Except ReportFailure PlanReading := do
  let document ← documentRow db id
  throwIf (!truthyText document.legacyPlanId) planMissing
  let callerRole ← required (role db document (some identity)) planMissing
  assertLive document now
  let version ← required
    (db.versions.find? (document.id, document.latestVersion)) htmlOnly
  let source ← required version.source htmlOnly
  .ok ⟨document, version, source, callerRole⟩

/-! ## Writing plans -/

section Plans

variable [HtmlRuntime] [ReportRuntime] [CaseMapping]

/-- The page of a plan, with the labels of the version before it. -/
def planPublication (title source status : JsString)
    (previous : Option HtmlPublication) :
    Except ReportFailure HtmlPublication :=
  if status ∉ [js "draft", js "active", js "done", js "archived"] then
    invalid (js "Invalid plan status")
  else if 20 * 1024 * 1024 < utf8Length source then
    invalid (js "Plan source exceeds 20 MiB")
  else
    let page := HtmlRuntime.planPage title source
    let labelled := Record.putEntry
      ((previous.map fun p => p.metadata).getD []) (js "plans.status") status
    .ok
      { html := page.1
        title := title
        language := some (js "en")
        category := some ((previous.bind fun p => p.category).getD (js "Plans"))
        tags := (previous.map fun p => p.tags).getD []
        metadata := Record.putEntry labelled (js "plans.renderer")
          (js "legacy-markdown/1")
        externalImages := page.2.1
        externalLinks := page.2.2 }

/-- A text field, `undefined` where the fallback stands. -/
def textField (value : Unknown) (fallback : JsString) :
    Except ReportFailure JsString :=
  match value with
  | none => .ok fallback
  | some (.string text) => .ok text
  | some _ => invalid (js "Plan source and status must be strings")

/-- The title a plan keeps where none is given. -/
def planTitle (value : Unknown) (current : JsString) :
    Except ReportFailure JsString :=
  match value with
  | none => .ok current
  | some title => label (some title) 200 (js "title")

/-- The publication of a plan's next version. -/
def planChange (body : JsonValue) (current : PlanReading) :
    Except ReportFailure (JsString × HtmlPublication) := do
  let given := fun key => (body.field? (js key)).isSome
  throwIf (!(given "title" || given "body_md" || given "status"))
    (.report (js "VALIDATION") (js "No fields to update") 400)
  let title ← planTitle (body.field? (js "title"))
    current.version.publication.title
  let source ← textField (body.field? (js "body_md")) current.source
  let status ← textField (body.field? (js "status"))
    (planStatus current.version)
  let publication ← planPublication title source status
    (some (snapshot current.version))
  .ok (source, publication)

/-- The publication of a new plan; `null` leaves a field out as well. -/
def planStart (body : JsonValue) :
    Except ReportFailure (JsString × HtmlPublication) := do
  let title ← label (body.field? (js "title")) 200 (js "title")
  let source ← textField (orElse (body.field? (js "body_md")) (.string [])) []
  let status ← textField
    (orElse (body.field? (js "status")) (.string (js "draft"))) []
  let publication ← planPublication title source status none
  .ok (source, publication)

def assertPlanEditor (callerRole : Role) : Except ReportFailure Unit :=
  throwIf (callerRole ∉ [.owner, .admin, .editor])
    (forbidden "Viewers cannot edit plans")

def updatePlan (identity : ReportIdentity) (body : JsonValue) (id : JsString)
    (draws : Draws) (now : Int) : Call PlanResult := do
  let current ← query fun db => readPlan db id identity now
  check (assertPlanEditor current.callerRole)
  check (planVersion (body.field? (js "expected_version"))
    current.document.latestVersion)
  let change ← check (planChange body current)
  insertVersionRow (versionRow draws.versionId current.document.id
    (current.document.latestVersion + 1) change.2 identity.actor now
    (some change.1))
  updateDocument current.document.id
    (newVersion (current.document.latestVersion + 1) now) (fun _ => rfl)
  let after ← query fun db => readPlan db current.document.id identity now
  pure after.result

def newPlan (id team : JsString) (identity : ReportIdentity) (now : Int) :
    HtmlDocument where
  id := id
  legacyPlanId := some id
  owner := identity.subject
  teamId := some team
  audience := js "team"
  createdAt := now
  updatedAt := now

def createPlan (identity : ReportIdentity) (body : JsonValue)
    (team : Option JsString) (draws : Draws) (now : Int) : Call PlanResult :=
  match team.filter (· != []) with
  | none => check (invalid (js "Team is required"))
  | some team => do
      let _ ← query fun db => member db team identity true false
      let start ← check (planStart body)
      insertDocument (newPlan draws.documentId team identity now)
      insertVersionRow (versionRow draws.versionId draws.documentId 1 start.2
        identity.actor now (some start.1))
      let after ← query fun db => readPlan db draws.documentId identity now
      pure after.result

/-- Where a plan is written: an existing one, or a new one of a team. -/
structure PlanLocation where
  id : Option JsString := none
  team : Option JsString := none

def writeOnce (identity : ReportIdentity) (body : JsonValue)
    (location : PlanLocation) (draws : Draws) (now : Int) : Call PlanResult :=
  match location.id.filter (· != []) with
  | some id => updatePlan identity body id draws now
  | none => createPlan identity body location.team draws now

def writePlan (identity : ReportIdentity) (input : Unknown)
    (location : PlanLocation) (draws : Draws) (now : Int) (persisted : Bool) :
    Call PlanResult := do
  let body ← check (object input
    ["title", "body_md", "status", "expected_version"])
  reportTransaction persisted (writeOnce identity body location draws now)

end Plans

def deleteOnce (id : JsString) (identity : ReportIdentity) (expected : Unknown)
    (now : Int) : Call Unit := do
  let current ← query fun db => readPlan db id identity now
  check (throwIf (current.callerRole ∉ [.owner, .admin])
    (forbidden "Only plan or team owners may remove plans"))
  check (planVersion expected current.document.latestVersion)
  updateDocument current.document.id (removed now) (removed_id now)

/-- `deletePlan`, in the transaction its route opens. -/
def deletePlan (id : JsString) (identity : ReportIdentity)
    (expected : Unknown) (now : Int) (persisted : Bool) : Call Unit :=
  reportTransaction persisted (deleteOnce id identity expected now)

/-! ## Teams -/

def seconds (now : Int) : Int := now / 1000

def insertTeam (team : Team) : Call Unit := do
  query fun db => throwIf (db.teams.find? team.id).isSome
    (.statement (js "UNIQUE constraint failed: teams.id"))
  write fun db => { db with teams := db.teams.put team }

def insertMember (member : TeamMember) : Call Unit := do
  query fun db => throwIf (db.members.find? member.primary).isSome
    (.statement (js "UNIQUE constraint failed: team_members"))
  write fun db => { db with members := db.members.put member }

def insertInvite (invite : TeamInvite) : Call Unit := do
  query fun db => throwIf (db.invites.find? invite.id).isSome
    (.statement (js "UNIQUE constraint failed: team_invites.id"))
  write fun db => { db with invites := db.invites.put invite }

/-- `!!value` -/
def truthyValue : Unknown → Bool
  | none | some .null | some (.bool false) => false
  | some (.number value) => value ≠ .ofNat 0
  | some (.string text) => text ≠ []
  | some _ => true

section Teams

variable [ReportRuntime]

/-- An optional text, left out where it is falsy. -/
def optionalLabel (value : Unknown) (maximum : Nat) (name : String) :
    Except ReportFailure (Option JsString) :=
  if truthyValue value then (label value maximum (js name)).map some
  else .ok none

def createTeam (identity : ReportIdentity) (input : Unknown) (id : JsString)
    (now : Int) : Call Unit := do
  let body ← check (object input ["name", "description"])
  let name ← check (label (body.field? (js "name")) 120 (js "name"))
  let description ← check (optionalLabel (body.field? (js "description")) 500
    "description")
  insertTeam ⟨id, name, description, identity.subject, seconds now, none⟩
  insertMember ⟨id, identity.subject, js "owner", seconds now⟩

/-- A document of a team that stands at this time. -/
def standing (team : JsString) (document : HtmlDocument) (now : Int) : Bool :=
  document.teamId = some team && document.purgedAt.isNone &&
    document.removedAt.isNone &&
    document.expiresAt.all (fun expiresAt => now < expiresAt)

def sharedReport (team : JsString) (now : Int) (document : HtmlDocument) :
    Bool :=
  standing team document now && document.audience = js "team" &&
    document.legacyPlanId.isNone

def activePlan (team : JsString) (now : Int) (document : HtmlDocument) :
    Bool :=
  standing team document now && document.legacyPlanId.isSome

def removeTeam (id : JsString) (force : Bool) (now : Int) : Call Unit := do
  query fun db => throwIf (db.documents.rows.any (sharedReport id now))
    (conflict ("Team has shared reports that are still live; list reports by " ++
      "team and ask their owners to change access before deleting the team"))
  query fun db => throwIf
    (db.documents.rows.any (activePlan id now) && !force)
    (conflict "Team has plans; use force=true to remove them")
  write fun db => { db with
    documents := db.documents.update (activePlan id now) (removed now)
      (removed_id now) }
  write fun db => { db with
    members := db.members.keep (fun member => member.teamId ≠ id)
    invites := db.invites.keep (fun invite => invite.teamId ≠ id)
    teams := db.teams.keep (fun team => team.id ≠ id) }

def archivedTeam (archivedAt : Option Int) (team : Team) : Team :=
  { team with archivedAt := archivedAt }

def renamedTeam (name : JsString) (description : Option JsString)
    (team : Team) : Team :=
  { team with name := name, description := description }

/-- A text field that keeps its value where it is not given. -/
def renameTeam (input : Unknown) (id : JsString) : Call Unit := do
  let body ← check (object input ["name", "description"])
  let team ← query fun db => required (db.teams.find? id)
    (.statement (js "Cannot read properties of undefined"))
  check (throwIf (memberCount body = 0)
    (.report (js "VALIDATION") (js "No fields to update") 400))
  let name ← check (if (body.field? (js "name")).isNone then .ok team.name
    else label (body.field? (js "name")) 120 (js "name"))
  let description ← check
    (if (body.field? (js "description")).isNone then .ok team.description
    else optionalLabel (body.field? (js "description")) 500 "description")
  write fun db => { db with
    teams := db.teams.update (fun team => team.id = id)
      (renamedTeam name description) (fun _ => rfl) }

/-- A number of uses from 1 to 100. -/
def inviteUses (value : Unknown) : Except ReportFailure Nat :=
  match (List.range 100).find? (fun n => isNumber value (n + 1)) with
  | some n => .ok (n + 1)
  | none => invalid (js "max_uses must be 1–100")

/-- From a minute to ninety days. -/
def inviteExpiry (value : Unknown) (now : Int) : Except ReportFailure Int := do
  let expiry ← lifetime (some (.object [(js "expiresIn",
    ((orElse value (.string (js "7d"))).getD .null))])) now
  let expiry ← required expiry
    (.report (js "VALIDATION") (js "Invite lifetime must be 1m–90d") 400)
  throwIf (expiry - now < 60000 || 90 * 86400000 < expiry - now)
    (.report (js "VALIDATION") (js "Invite lifetime must be 1m–90d") 400)
  .ok expiry

def inviteMember (identity : ReportIdentity) (input : Unknown)
    (team id : JsString) (now : Int) : Call Unit := do
  let body ← check (object input ["max_uses", "expires_in", "note"])
  let uses ← check (inviteUses (orElse (body.field? (js "max_uses"))
    (.number (.ofNat 5))))
  let expiry ← check (inviteExpiry (body.field? (js "expires_in")) now)
  let note ← check (optionalLabel (body.field? (js "note")) 200 "note")
  insertInvite ⟨id, team, identity.subject, note, uses, 0, seconds expiry,
    none, seconds now⟩

/-- A route of `mutateTeam` on a team. -/
inductive TeamAction where
  | delete (force : Bool)
  | removeMember (email : JsString)
  | archive (archived : Bool)
  | rename (input : Unknown)
  | invite (input : Unknown) (id : JsString)
  | unknown

/-- Inviting takes an editor, leaving takes a member, and all else an
owner. -/
def teamRights (identity : ReportIdentity) : TeamAction → Bool × Bool
  | .invite .. => (true, false)
  | .removeMember email => (false, email ≠ identity.subject)
  | _ => (false, true)

def applyTeam (team : JsString) (identity : ReportIdentity)
    (action : TeamAction) (now : Int) : Call Unit :=
  match action with
  | .delete force => removeTeam team force now
  | .removeMember email => write fun db => { db with
      members := db.members.remove (team, email) }
  | .archive archived => write fun db => { db with
      teams := db.teams.update (fun row => row.id = team)
        (archivedTeam (if archived then some (seconds now) else none))
        (fun _ => rfl) }
  | .rename input => renameTeam input team
  | .invite input id => inviteMember identity input team id now
  | .unknown => check (.error (.report (js "NOT_FOUND")
      (js "Unknown team operation") 404))

def changeTeam (team : JsString) (identity : ReportIdentity)
    (action : TeamAction) (now : Int) : Call Unit := do
  let _ ← query fun db => member db team identity
    (teamRights identity action).1 (teamRights identity action).2
  applyTeam team identity action now

end Teams

/-! ## Invites -/

def inviteGone : ReportFailure := gone "Invite expired or revoked"

/-- The invite a verified token names. -/
def verifyPlanInvite (db : Reports) (id team : JsString) (now : Int) :
    Except ReportFailure TeamInvite := do
  let invite ← required ((db.invites.find? id).filter (fun invite =>
    invite.teamId = team && (db.teams.find? team).isSome)) inviteGone
  throwIf (invite.revokedAt.isSome || invite.expiresAt * 1000 ≤ now) inviteGone
  .ok invite

def usedInvite (invite : TeamInvite) : TeamInvite :=
  { invite with usedCount := invite.usedCount + 1 }

def joinTeam (invite : TeamInvite) (identity : ReportIdentity) (now : Int) :
    Call Unit := do
  check (throwIf (invite.maxUses ≤ invite.usedCount)
    (gone "Invite has no uses remaining"))
  insertMember ⟨invite.teamId, identity.subject, js "editor", seconds now⟩
  write fun db => { db with
    invites := db.invites.update (fun row => row.id = invite.id) usedInvite
      (fun _ => rfl) }

def acceptPlanInvite (id team : JsString) (identity : ReportIdentity)
    (now : Int) : Call Unit := do
  let invite ← query fun db => verifyPlanInvite db id team now
  let existing ← query fun db =>
    .ok (db.members.find? (invite.teamId, identity.subject))
  if existing.isSome then pure () else joinTeam invite identity now

def revokedInvite (time : Int) (invite : TeamInvite) : TeamInvite :=
  { invite with revokedAt := invite.revokedAt.or (some time) }

def revokeInvite (id : JsString) (identity : ReportIdentity) (now : Int) :
    Call Unit := do
  let invite ← query fun db => required (db.invites.find? id)
    (.report (js "NOT_FOUND") (js "Invite not found") 404)
  let _ ← query fun db => member db invite.teamId identity true false
  write fun db => { db with
    invites := db.invites.update (fun row => row.id = id)
      (revokedInvite (seconds now)) (fun _ => rfl) }

/-! ## Series -/

def insertSeries (series : ReportSeries) : Call Unit := do
  query fun db => throwIf ((db.series.find? series.id).isSome ||
    db.series.rows.any (fun other => other.slug = series.slug))
    (.statement (js "UNIQUE constraint failed: report_series"))
  write fun db => { db with series := db.series.put series }

/-- `INSERT … ON CONFLICT(owner, name) DO NOTHING` -/
def createReportSeries (owner name id slug : JsString) (now : Int) :
    Call Unit := do
  let taken ← query fun db => .ok (db.series.rows.any (fun series =>
    series.owner = owner && series.name = name))
  if taken then pure ()
  else insertSeries ⟨id, owner, name, slug, none, 1, now⟩

def boundSeries (publisher : Option JsString) (revision : Nat)
    (series : ReportSeries) : ReportSeries :=
  { series with publisher := publisher, revision := revision }

/-- The publisher of a series, by its owner. -/
def bindPublisher (id owner : JsString) (publisher : Option JsString)
    (expectedRevision : Unknown) : Call Unit := do
  let series ← query fun db => required
    ((db.series.find? id).filter (fun series => series.owner = owner))
    (.report (js "NOT_FOUND") (js "Report series not found") 404)
  check (throwIf (!isNumber expectedRevision series.revision)
    (conflict "Publisher binding changed; reload before editing"))
  write fun db => { db with
    series := db.series.update (fun row => row.id = id)
      (boundSeries publisher (series.revision + 1)) (fun _ => rfl) }

end OpenApe.Ports.PlansStore
