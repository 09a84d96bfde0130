import OpenApe.Ports.GrantStore

/-!
# The Drizzle grant store
(`apps/openape-free-idp/server/utils/drizzle-grant-store.ts`)

The database is the table of grant rows and the broker connections that
submissions are checked against.  Each store call is one transaction, after
the expiry of stale pending requests that most of them run first.

The audit rows of brokered grants, which nothing here reads, and the retry
on a busy database, which changes no outcome, are left out.  Where the
source leaves the order of rows with equal `created_at` to SQLite, rows keep
their insertion order.
-/

namespace OpenApe.Ports.DrizzleGrantStore

open Verified.JsText Verified.KeyedTable Verified.Programs Verified.Unicode
open GrantTypes GrantReference GrantStore

/-! ## Rows -/

structure GrantRow where
  id : JsString
  status : GrantStatus
  type : Option GrantCategory
  requester : JsString
  referenceKey : Option GrantReferenceKey
  brokered : Option BrokeredGrant
  brokerOwner : Option JsString
  targetHost : JsString
  audience : JsString
  grantType : GrantType
  request : OpenApeGrantRequest
  createdAt : Int
  decidedAt : Option Int
  decidedBy : Option JsString
  expiresAt : Option Int
  usedAt : Option Int
  withdrawReason : Option JsString
  decidedByStandingGrant : Option JsString
  autoApprovalKind : Option JsString
  deriving DecidableEq

def grantToRow (grant : OpenApeGrant) : GrantRow where
  id := grant.id
  status := grant.status
  type := grant.type
  requester := grant.request.requester
  referenceKey := referenceKeyOf grant
  brokered := grant.brokered
  brokerOwner := grant.brokered.map BrokeredGrant.owner
  targetHost := grant.request.targetHost
  audience := grant.request.audience
  grantType := grant.request.grantTypeOrOnce
  request := grant.request
  createdAt := grant.createdAt
  decidedAt := grant.decidedAt
  decidedBy := grant.decidedBy
  expiresAt := grant.expiresAt
  usedAt := grant.usedAt
  withdrawReason := grant.withdrawReason
  decidedByStandingGrant := grant.decidedByStandingGrant
  autoApprovalKind := grant.autoApprovalKind

/-- The columns override the stored request; an empty reason reads as
none. -/
def rowToGrant (row : GrantRow) : OpenApeGrant where
  brokered := row.brokered
  id := row.id
  type := row.type
  request :=
    { row.request with
      requester := row.requester
      targetHost := row.targetHost
      audience := row.audience
      grantType := some row.grantType }
  status := row.status
  createdAt := row.createdAt
  decidedAt := row.decidedAt
  decidedBy := row.decidedBy
  expiresAt := row.expiresAt
  usedAt := row.usedAt
  withdrawReason :=
    if truthy row.withdrawReason then row.withdrawReason else none
  decidedByStandingGrant := row.decidedByStandingGrant
  autoApprovalKind := row.autoApprovalKind

inductive ConnectionStatus where
  | active
  | revoked
  deriving DecidableEq

structure BrokerConnection where
  id : JsString
  owner : JsString
  status : ConnectionStatus
  deriving DecidableEq

abbrev GrantRows := Table GrantRow.id

structure Database where
  grants : GrantRows
  connections : Table BrokerConnection.id
  deriving DecidableEq

/-! ## Transactions -/

/-- `PENDING_REQUEST_TTL_SECONDS` -/
def pendingRequestTtlSeconds : Int := 48 * 3600

/-- `BROKER_PENDING_LIMIT` -/
def brokerPendingLimit : Nat := 300

/-- `UPDATE grants SET status = 'expired'` on the stale pending rows. -/
def expireRow (cutoff : Int) (row : GrantRow) : GrantRow :=
  if row.status = .pending ∧ row.createdAt < cutoff then
    { row with status := .expired }
  else row

@[simp] theorem expireRow_id (cutoff : Int) (row : GrantRow) :
    (expireRow cutoff row).id = row.id := by
  unfold expireRow
  split <;> rfl

def expireRequests (now : Int) (grants : GrantRows) : GrantRows :=
  grants.mapRows (expireRow (now - pendingRequestTtlSeconds))
    (expireRow_id _)

/-- `createError({ statusCode, statusMessage })` -/
def httpError (statusCode : Nat) (message : String) : JsError :=
  ⟨.http statusCode, js message⟩

/-- Whether a brokered submission comes over an active connection of its
owner. -/
def brokerConnectionActive (db : Database) (brokered : BrokeredGrant) :
    Bool :=
  match db.connections.find? brokered.connectionId with
  | none => false
  | some connection =>
      connection.status = .active && connection.owner = brokered.owner

def brokerInboxFull (grants : GrantRows) (brokered : BrokeredGrant) : Bool :=
  brokerPendingLimit ≤ (grants.rows.filter (fun row =>
    row.brokerOwner = some brokered.owner ∧ row.status = .pending)).length

def connectionMissing : JsError :=
  httpError 403 "Broker connection is missing or revoked"

def inboxFull : JsError :=
  httpError 429
    "Decide or dismiss existing broker requests before submitting more"

/-- `INSERT INTO grants`, refused when the primary key is taken. -/
def insertRow (grants : GrantRows) (row : GrantRow) :
    Except JsError Unit × GrantRows :=
  if (grants.find? row.id).isSome then
    (.error (plainError (js "UNIQUE constraint failed: grants.id")), grants)
  else (.ok (), grants.put row)

def createReferenced (db : Database) (grant : OpenApeGrant) :
    Except JsError (OpenApeGrant × Bool) × GrantRows :=
  let row := grantToRow grant
  if grant.brokered.any (fun b => !brokerConnectionActive db b) then
    (.error connectionMissing, db.grants)
  else match db.grants.rows.find?
      (fun existing => existing.referenceKey = row.referenceKey) with
    | some existing =>
        match assertSameReferencedGrant (rowToGrant existing) grant with
        | .error error => (.error error, db.grants)
        | .ok () => (.ok (rowToGrant existing, false), db.grants)
    | none =>
        if grant.brokered.any (brokerInboxFull db.grants) then
          (.error inboxFull, db.grants)
        else match insertRow db.grants row with
          | (.error error, grants) => (.error error, grants)
          | (.ok (), grants) => (.ok (grant, true), grants)

/-- `INSERT … ON CONFLICT (id) DO UPDATE`, which keeps the reference key and
the withdrawal reason of the row it updates. -/
def upsertRow (grants : GrantRows) (row : GrantRow) : GrantRows :=
  match grants.find? row.id with
  | none => grants.put row
  | some old =>
      grants.put { row with
        referenceKey := old.referenceKey
        withdrawReason := old.withdrawReason }

def save (db : Database) (grant : OpenApeGrant) :
    Except JsError Unit × GrantRows :=
  let row := grantToRow grant
  match grant.brokered with
  | some brokered =>
      if !brokerConnectionActive db brokered then
        (.error connectionMissing, db.grants)
      else if brokerInboxFull db.grants brokered then
        (.error inboxFull, db.grants)
      else insertRow db.grants row
  | none => (.ok (), upsertRow db.grants row)

def alreadyDecided : JsError := httpError 409 "Grant was already decided"

def grantWithdrawn : JsError :=
  httpError 409 "Grant was withdrawn by its requester"

/-- Whether a decision about the row is final for approvals and denials. -/
def keepsDecision (existing : GrantRow) : Bool :=
  existing.brokered.isSome || existing.referenceKey.isSome ||
    existing.status = .expired

/-- A referenced row takes only a request of the same binding. -/
def referenceRefused (existing : GrantRow) (extra : GrantUpdate) :
    Except JsError Unit :=
  match extra.request with
  | some request =>
      if truthy (rowToGrant existing).request.reference then
        assertSameReferencedGrant (rowToGrant existing)
          { rowToGrant existing with request := request }
      else .ok ()
  | none => .ok ()

/-- What `updateStatus` refuses, before it writes. -/
def updateRefused (existing : GrantRow) (status : GrantStatus)
    (extra : GrantUpdate) : Except JsError Unit :=
  match referenceRefused existing extra with
  | .error error => .error error
  | .ok () =>
      if keepsDecision existing && (status = .approved || status = .denied) &&
          existing.status ≠ .pending
      then .error alreadyDecided
      else if existing.status = .withdrawn then .error grantWithdrawn
      else .ok ()

def updatedRow (existing : GrantRow) (status : GrantStatus)
    (extra : GrantUpdate) : GrantRow :=
  { existing with
    status := status
    decidedBy := extra.decidedBy <|> existing.decidedBy
    decidedAt := extra.decidedAt <|> existing.decidedAt
    expiresAt := extra.expiresAt <|> existing.expiresAt
    usedAt := extra.usedAt <|> existing.usedAt
    decidedByStandingGrant :=
      extra.decidedByStandingGrant <|> existing.decidedByStandingGrant
    autoApprovalKind := extra.autoApprovalKind <|> existing.autoApprovalKind
    request := extra.request.getD existing.request
    grantType :=
      match extra.request with
      | some request => request.grantTypeOrOnce
      | none => existing.grantType }

def updateStatus (grants : GrantRows) (id : JsString) (status : GrantStatus)
    (extra : GrantUpdate) : Except JsError Unit × GrantRows :=
  match grants.find? id with
  | none => (.error (plainError (js "Grant not found: " ++ id)), grants)
  | some existing =>
      match updateRefused existing status extra with
      | .error error => (.error error, grants)
      | .ok () => (.ok (), grants.put (updatedRow existing status extra))

theorem updateStatus_of_refused {grants : GrantRows} {id : JsString}
    {status : GrantStatus} {extra : GrantUpdate} {existing : GrantRow}
    {error : JsError} (hRow : grants.find? id = some existing)
    (hRefused : updateRefused existing status extra = .error error) :
    updateStatus grants id status extra = (.error error, grants) := by
  simp only [updateStatus, hRow, hRefused]

theorem updateStatus_of_allowed {grants : GrantRows} {id : JsString}
    {status : GrantStatus} {extra : GrantUpdate} {existing : GrantRow}
    (hRow : grants.find? id = some existing)
    (hAllowed : updateRefused existing status extra = .ok ()) :
    updateStatus grants id status extra =
      (.ok (), grants.put (updatedRow existing status extra)) := by
  simp only [updateStatus, hRow, hAllowed]

/-- What a status write can do: nothing, or replace the row by its update
when no guard refuses it. -/
theorem updateStatus_cases (grants : GrantRows) (id : JsString)
    (status : GrantStatus) (extra : GrantUpdate) :
    (∃ error, updateStatus grants id status extra = (.error error, grants)) ∨
      ∃ existing, grants.find? id = some existing ∧
        updateRefused existing status extra = .ok () ∧
        updateStatus grants id status extra =
          (.ok (), grants.put (updatedRow existing status extra)) := by
  cases hRow : grants.find? id with
  | none =>
      exact .inl ⟨plainError (js "Grant not found: " ++ id), by
        simp only [updateStatus, hRow]⟩
  | some existing =>
      cases hRefused : updateRefused existing status extra with
      | error error =>
          exact .inl ⟨error, updateStatus_of_refused hRow hRefused⟩
      | ok _ =>
          exact .inr ⟨existing, rfl, hRefused,
            updateStatus_of_allowed hRow hRefused⟩

/-- An update that is allowed keeps the binding of a referenced row, and
overrides no protected decision and no withdrawal. -/
theorem guards_of_allowed {existing : GrantRow} {status : GrantStatus}
    {extra : GrantUpdate}
    (h : updateRefused existing status extra = .ok ()) :
    referenceRefused existing extra = .ok () ∧
      existing.status ≠ .withdrawn ∧
      (status = .approved ∨ status = .denied →
        keepsDecision existing = true → existing.status = .pending) := by
  unfold updateRefused at h
  cases hSame : referenceRefused existing extra with
  | error error =>
      rw [hSame] at h
      cases h
  | ok _ =>
      rw [hSame] at h
      simp only at h
      split_ifs at h with hGuard hWithdrawn
      refine ⟨rfl, hWithdrawn, fun hStatus hKeeps => ?_⟩
      by_contra hPending
      rcases hStatus with rfl | rfl <;> simp [hKeeps, hPending] at hGuard

def claimOnce (grants : GrantRows) (id : JsString) (usedAt : Int) :
    Bool × GrantRows :=
  match grants.find? id with
  | none => (false, grants)
  | some row =>
      if row.status ≠ .approved then (false, grants)
      else (true, grants.put { row with status := .used, usedAt := some usedAt })

def withdraw (grants : GrantRows) (id : JsString) (withdrawnAt : Int)
    (reason : Option JsString) : Option GrantStatus × GrantRows :=
  match grants.find? id with
  | none => (none, grants)
  | some previous =>
      if previous.status = .pending ∨
          (previous.status = .approved ∧ previous.grantType = .once)
      then (some previous.status, grants.put
        { previous with
          status := .withdrawn
          decidedAt := some withdrawnAt
          withdrawReason := reason })
      else (none, grants)

/-- A claim answers false and changes nothing, or spends an approved row. -/
theorem claimOnce_cases (grants : GrantRows) (id : JsString) (usedAt : Int) :
    claimOnce grants id usedAt = (false, grants) ∨
      ∃ row, grants.find? id = some row ∧ row.status = .approved ∧
        claimOnce grants id usedAt =
          (true, grants.put
            { row with status := .used, usedAt := some usedAt }) := by
  cases hRow : grants.find? id with
  | none => exact .inl (by simp only [claimOnce, hRow])
  | some row =>
      by_cases hStatus : row.status = .approved
      · exact .inr ⟨row, rfl, hStatus, by simp [claimOnce, hRow, hStatus]⟩
      · exact .inl (by simp [claimOnce, hRow, hStatus])

/-- A withdrawal answers nothing and changes nothing, or withdraws an open
row. -/
theorem withdraw_cases (grants : GrantRows) (id : JsString)
    (withdrawnAt : Int) (reason : Option JsString) :
    withdraw grants id withdrawnAt reason = (none, grants) ∨
      ∃ row, grants.find? id = some row ∧
        (row.status = .pending ∨
          (row.status = .approved ∧ row.grantType = .once)) ∧
        withdraw grants id withdrawnAt reason =
          (some row.status, grants.put
            { row with
              status := .withdrawn
              decidedAt := some withdrawnAt
              withdrawReason := reason }) := by
  cases hRow : grants.find? id with
  | none => exact .inl (by simp only [withdraw, hRow])
  | some row =>
      by_cases hOpen : row.status = .pending ∨
          (row.status = .approved ∧ row.grantType = .once)
      · exact .inr ⟨row, rfl, hOpen, by
          simp only [withdraw, hRow, if_pos hOpen]⟩
      · exact .inl (by simp only [withdraw, hRow, if_neg hOpen])

/-! ## Listing -/

/-- SQLite compares texts by their UTF-8 bytes, so by code points. -/
def textLe (a b : JsString) : Bool := decide (codePoints a ≤ codePoints b)

def textLt (a b : JsString) : Bool := decide (codePoints a < codePoints b)

def requesterMatches (params : GrantListParams) (row : GrantRow) : Bool :=
  let inRequesters (requesters : List JsString) : Bool :=
    row.requester ∈ requesters
  let visible (requesters : List JsString) : Bool :=
    match params.brokerOwner with
    | some none => row.brokered.isNone && inRequesters requesters
    | some (some owner) =>
        if owner.isEmpty then inRequesters requesters
        else (row.brokered.isNone && inRequesters requesters) ||
          row.brokerOwner = some owner
    | none => inRequesters requesters
  match params.requester with
  | none => true
  | some (.one requester) => requester.isEmpty || visible [requester]
  | some (.many requesters) => visible requesters

def listed (params : GrantListParams) (row : GrantRow) : Bool :=
  params.excludeStatus.all (fun status => row.status ≠ status) &&
    params.status.all (fun status => row.status = status) &&
    requesterMatches params row &&
    (!truthy params.requesterFilter ||
      params.requesterFilter = some row.requester) &&
    (!truthy params.batch ||
      params.batch = row.request.batch.map GrantBatch.id) &&
    (!truthy params.reference || params.reference = row.request.reference) &&
    params.referenceKey.all (fun key => row.referenceKey = some key)

def listedBefore (a b : GrantRow) : Bool :=
  b.createdAt < a.createdAt ||
    (a.createdAt = b.createdAt && textLe b.id a.id)

def behindCursor (position : GrantCursor) (row : GrantRow) : Bool :=
  row.createdAt < position.createdAt ||
    match position.id with
    | none => false
    | some id => row.createdAt = position.createdAt && textLt row.id id

def listGrants (grants : GrantRows) (params : GrantListParams) :
    Except JsError GrantPage :=
  let limit := (min (max (params.limit.getD 20) 1) 1000).toNat
  let page (rows : List GrantRow) : GrantPage :=
    MemoryStore.pageOf limit ((rows.insertionSort
      (fun a b => listedBefore a b)).map rowToGrant)
  if truthy params.cursor then
    match parseGrantCursor (params.cursor.getD []) with
    | .error error => .error error
    | .ok position => .ok (page (grants.rows.filter
        (fun row => listed params row && behindCursor position row)))
  else .ok (page (grants.rows.filter (listed params)))

def findByRequester (grants : GrantRows) (requester : JsString) :
    List OpenApeGrant :=
  ((grants.rows.filter (fun row => row.requester = requester)).insertionSort
    (fun a b => b.createdAt ≤ a.createdAt)).map rowToGrant

/-! ## The store -/

/-- Runs the expiry of stale requests, as most calls do first. -/
def expirePendingRequests (w : World Database) : World Database :=
  (w.setStore { w.store with
    grants := expireRequests w.now w.store.grants }).tick

/-- Replaces the grant rows. -/
def setGrants (w : World Database) (grants : GrantRows) : World Database :=
  w.setStore { w.store with grants := grants }

/-- `createDrizzleGrantStore()` -/
def drizzleStore : Program.Handler grantStore JsError (World Database) :=
  fun call w =>
    match call with
    | .createReferenced grant =>
        match assertGrantReferenceRequest grant.request with
        | .error error => (.error error, w)
        | .ok () =>
            if (referenceKeyOf grant).isNone then
              (.error (plainError (js "A reference is required")), w)
            else
              let w := expirePendingRequests w
              let (reply, grants) := createReferenced w.store grant
              (reply, setGrants w grants)
    | .save grant =>
        if grant.request.reference.isSome then
          (.error (plainError
            (js "Use atomic createReferenced for a referenced grant")), w)
        else
          let w := if grant.brokered.isSome then expirePendingRequests w else w
          let (reply, grants) := save w.store grant
          (reply, setGrants w grants)
    | .findById id =>
        let w := expirePendingRequests w
        (.ok ((w.store.grants.find? id).map rowToGrant), w)
    | .updateStatus id status extra =>
        let w := expirePendingRequests w
        let (reply, grants) := updateStatus w.store.grants id status extra
        (reply, setGrants w grants)
    | .findByRequester requester =>
        let w := expirePendingRequests w
        (.ok (findByRequester w.store.grants requester), w)
    | .listGrants params =>
        let w := expirePendingRequests w
        (listGrants w.store.grants params, w)
    | .claimOnce id usedAt =>
        let (reply, grants) := claimOnce w.store.grants id usedAt
        (.ok reply, setGrants w grants)
    | .withdraw id withdrawnAt reason =>
        let (reply, grants) := withdraw w.store.grants id withdrawnAt reason
        (.ok reply, setGrants w grants)
    | .now => (.ok w.now, w.tick)
    | .randomUUID =>
        (.ok (w.uuids 0), { w with uuids := fun n => w.uuids (n + 1) })

end OpenApe.Ports.DrizzleGrantStore
