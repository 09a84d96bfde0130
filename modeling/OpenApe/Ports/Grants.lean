import OpenApe.Ports.CliPermissions
import OpenApe.Ports.GrantStore

/-!
# Grant operations (`packages/grants/src/grants.ts`, `grant-withdraw.ts`)

Every operation reads a grant, checks it and writes over separate store
calls; between two calls anything may happen to the store.  A `throw` is a
`fail`, in the order of the source's checks.  An operation that ends with
`return updated!` returns what it read, which the assertion does not check.
-/

namespace OpenApe.Ports.Grants

open Verified.JsText Verified.Programs.Program
open GrantTypes GrantReference GrantStore

/-! ## Store calls -/

def storeCall (call : GrantStoreCall) : GrantProgram call.Reply :=
  perform (I := grantStore) call

/-- A store call guarantees what its reply is relied on for. -/
theorem guarantees_storeCall
    {rely : (call : GrantStoreCall) → Except JsError call.Reply → Prop}
    {calls : GrantStoreCall → Prop} {call : GrantStoreCall}
    {returns : call.Reply → Prop} (hCall : calls call)
    (hReply : ∀ reply, rely call (.ok reply) → returns reply) :
    @Guarantees grantStore JsError _ rely calls returns (storeCall call) :=
  guarantees_perform hCall hReply

def findById (id : JsString) : GrantProgram (Option OpenApeGrant) :=
  storeCall (.findById id)

def updateStatus (id : JsString) (status : GrantStatus)
    (extra : GrantUpdate) : GrantProgram Unit :=
  storeCall (.updateStatus id status extra)

/-- `Math.floor(Date.now() / 1000)` -/
def nowSeconds : GrantProgram Int := storeCall .now

def grantNotFound (id : JsString) : JsError :=
  plainError (js "Grant not found: " ++ id)

def grantNotPending (status : GrantStatus) : JsError :=
  plainError (js "Grant is not pending: " ++ status.text)

def grantNotRevocable (status : GrantStatus) : JsError :=
  plainError
    (js "Grant cannot be revoked (status: " ++ status.text ++ js ")")

/-- The calls that read: of the store, the clock and the random ids. -/
def IsRead : GrantStoreCall → Prop
  | .findById _ | .findByRequester _ | .listGrants _ | .now
  | .randomUUID => True
  | .createReferenced _ | .save _ | .updateStatus _ _ _ | .claimOnce _ _
  | .withdraw _ _ _ => False

/-! ## Requests -/

/-- The details of type `openape_cli`. -/
def cliDetails (details : Option (List AuthorizationDetail)) :
    List CliAuthorizationDetail :=
  (details.getD []).filterMap AuthorizationDetail.cli?

/-- Whether some CLI detail is constrained to a single use. -/
def singleUse (details : Option (List AuthorizationDetail)) : Bool :=
  (cliDetails details).any (fun detail =>
    (detail.constraints.bind CliConstraints.singleUse) == some true)

/-- A new pending grant. -/
def createGrant (store : GrantStoreMethods) (request : OpenApeGrantRequest) :
    GrantProgram OpenApeGrant := do
  let id ← storeCall .randomUUID
  let createdAt ← nowSeconds
  let grant : OpenApeGrant :=
    { id := id, request := request, status := .pending,
      createdAt := createdAt }
  if request.reference.isSome then
    match assertGrantReferenceRequest request with
    | .error error => fail error
    | .ok () =>
        throwIf (!store.createReferenced)
          (plainError (js "Grant references require an atomic store"))
        let created ← storeCall (.createReferenced grant)
        pure created.1
  else
    storeCall (.save grant)
    pure grant

section Guarantees

variable {rely : (call : GrantStoreCall) → Except JsError call.Reply → Prop}
  {calls : GrantStoreCall → Prop}

/-- Creating a grant reads and stores one pending grant. -/
theorem guarantees_createGrant {request : OpenApeGrantRequest}
    (hRead : ∀ call, IsRead call → calls call)
    (hNew : ∀ grant : OpenApeGrant, grant.status = .pending →
      grant.request = request →
      calls (.save grant) ∧ calls (.createReferenced grant)) :
    @Guarantees grantStore JsError _ rely calls (fun _ => True)
      (createGrant {} request) := by
  refine guarantees_perform_bind (hRead _ trivial) (fun id _ => ?_)
  refine guarantees_perform_bind (hRead _ trivial) (fun createdAt _ => ?_)
  have hGrant := hNew
    { id := id, request := request, status := .pending,
      createdAt := createdAt } rfl rfl
  dsimp only
  split
  · split
    · trivial
    · refine guarantees_throwIf_bind (fun _ => ?_)
      refine guarantees_perform_bind hGrant.2 (fun _ _ => ?_)
      exact guarantees_pure trivial
  · refine guarantees_perform_bind hGrant.1 (fun _ _ => ?_)
    exact guarantees_pure trivial

end Guarantees

def invalidGrantBatch (message : String) : JsError :=
  ⟨.invalidGrantBatch, js message⟩

/-- Whether a member of a batch announced what the request announces. -/
def sameBatch (member request : OpenApeGrantRequest) (batch : GrantBatch) :
    Bool :=
  member.audience = request.audience &&
    member.targetHost = request.targetHost &&
    member.waitsUntil = request.waitsUntil &&
    member.batch.bind GrantBatch.title = batch.title &&
    member.batch.bind GrantBatch.description = batch.description &&
    member.batch.bind GrantBatch.size = batch.size

/-- Why a request cannot join the members that were found, newest first. -/
def batchRefused (members : List OpenApeGrant)
    (request : OpenApeGrantRequest) (batch : GrantBatch) : Option JsError :=
  match members.getLast? with
  | none => none
  | some first =>
      if !sameBatch first.request request batch then
        some (invalidGrantBatch
          "batch members must share audience, target_host, waits_until, title, description and size")
      else if batch.size.any (fun size => size ≤ (members.length : Int)) then
        some (invalidGrantBatch "batch already has its announced size")
      else none

def assertGrantBatchMember (request : OpenApeGrantRequest) :
    GrantProgram Unit :=
  match request.batch with
  | none => pure ()
  | some batch => do
      throwIf (request.grantTypeOrOnce ≠ .once)
        (invalidGrantBatch "batch members must be once grants")
      throwIf (truthy request.runAs || truthy request.delegator ||
          truthy request.delegate || request.scopes.isSome)
        (invalidGrantBatch
          "batch members cannot carry run_as or delegation fields")
      let page ← storeCall (.listGrants
        { requester := some (.one request.requester)
          requesterFilter := some request.requester
          batch := some batch.id
          limit := some 100 })
      refuse (batchRefused page.data request batch)

/-- The check of a batch reads. -/
theorem guarantees_assertGrantBatchMember
    {rely : (call : GrantStoreCall) → Except JsError call.Reply → Prop}
    {calls : GrantStoreCall → Prop} (hRead : ∀ call, IsRead call → calls call)
    (request : OpenApeGrantRequest) :
    @Guarantees grantStore JsError _ rely calls (fun _ => True)
      (assertGrantBatchMember request) := by
  unfold assertGrantBatchMember
  split
  · exact guarantees_pure trivial
  · refine guarantees_throwIf_bind (fun _ => ?_)
    refine guarantees_throwIf_bind (fun _ => ?_)
    refine guarantees_perform_bind (hRead _ trivial) (fun _ _ => ?_)
    exact guarantees_mono guarantees_refuse (fun _ _ => trivial)

/-! ## Decisions -/

inductive ExtendMode where
  | widen
  | merge
  deriving DecidableEq

structure ApproveGrantOverrides where
  grantType : Option GrantType := none
  duration : Option Int := none
  extendMode : Option ExtendMode := none
  extendGrantIds : Option (List JsString) := none
  deriving DecidableEq

/-- `overrides?.grant_type ?? grant.request.grant_type ?? 'once'` -/
def effectiveType (request : OpenApeGrantRequest)
    (overrides : Option ApproveGrantOverrides) : GrantType :=
  (overrides.bind ApproveGrantOverrides.grantType).getD
    request.grantTypeOrOnce

/-- `overrides?.duration ?? grant.request.duration` -/
def effectiveDuration (request : OpenApeGrantRequest)
    (overrides : Option ApproveGrantOverrides) : Option Int :=
  overrides.bind ApproveGrantOverrides.duration <|> request.duration

/-- Whether the overrides would change the binding of a referenced grant. -/
def rebindsReference (request : OpenApeGrantRequest)
    (overrides : Option ApproveGrantOverrides) : Bool :=
  effectiveType request overrides ≠ .once ||
    (effectiveDuration request overrides).isSome ||
    (overrides.bind ApproveGrantOverrides.extendMode).isSome ||
    !((overrides.bind ApproveGrantOverrides.extendGrantIds).getD []).isEmpty

def referenceBound : JsError :=
  plainError (js "A referenced grant must retain its exact single-use binding")

def singleUseBound : JsError :=
  plainError (js "This operation requires one exact single-use approval")

def durationRequired : JsError :=
  plainError (js "Duration is required for timed grants")

/-- The request as it is approved. -/
def approvedRequest (request : OpenApeGrantRequest)
    (overrides : Option ApproveGrantOverrides) : OpenApeGrantRequest :=
  { request with
    grantType := some (effectiveType request overrides)
    duration := effectiveDuration request overrides <|> request.duration }

/-- What the approval writes besides the status. -/
def approvalUpdate (request : OpenApeGrantRequest)
    (overrides : Option ApproveGrantOverrides) (approver : JsString)
    (now : Int) : GrantUpdate :=
  let type := effectiveType request overrides
  let duration := effectiveDuration request overrides
  { decidedBy := some approver
    decidedAt := some now
    request := some (approvedRequest request overrides)
    expiresAt :=
      if type = .timed ∧ truthyNumber duration = true then
        duration.map (fun duration => now + duration)
      else none }

/-- Why a grant that was read cannot be approved. -/
def approvalRefused (grant : OpenApeGrant)
    (overrides : Option ApproveGrantOverrides) : Option JsError :=
  let type := effectiveType grant.request overrides
  if grant.status ≠ .pending then some (grantNotPending grant.status)
  else if truthy grant.request.reference &&
      rebindsReference grant.request overrides then some referenceBound
  else if singleUse grant.request.authorizationDetails && type ≠ .once then
    some singleUseBound
  else if type = .timed &&
      !truthyNumber (effectiveDuration grant.request overrides) then
    some durationRequired
  else none

def approveGrant (grantId approver : JsString)
    (overrides : Option ApproveGrantOverrides) :
    GrantProgram (Option OpenApeGrant) := do
  match ← findById grantId with
  | none => fail (grantNotFound grantId)
  | some grant =>
      match approvalRefused grant overrides with
      | some error => fail error
      | none =>
          let now ← nowSeconds
          updateStatus grantId .approved
            (approvalUpdate grant.request overrides approver now)
          findById grantId

def denyGrant (grantId denier : JsString) :
    GrantProgram (Option OpenApeGrant) := do
  match ← findById grantId with
  | none => fail (grantNotFound grantId)
  | some grant =>
      throwIf (grant.status ≠ .pending) (grantNotPending grant.status)
      let now ← nowSeconds
      updateStatus grantId .denied
        { decidedBy := some denier, decidedAt := some now }
      findById grantId

def revokeGrant (grantId : JsString) :
    GrantProgram (Option OpenApeGrant) := do
  match ← findById grantId with
  | none => fail (grantNotFound grantId)
  | some grant =>
      throwIf (grant.status ≠ .pending && grant.status ≠ .approved)
        (grantNotRevocable grant.status)
      updateStatus grantId .revoked {}
      findById grantId

/-! ## Delegation -/

/-- What a delegator asks for. -/
structure DelegationParams where
  delegator : JsString
  delegate : JsString
  audience : JsString
  scopes : Option (List JsString) := none
  grantType : GrantType
  duration : Option Int := none
  deriving DecidableEq

/-- The request of a delegation. -/
def DelegationParams.request (params : DelegationParams) :
    OpenApeGrantRequest where
  requester := params.delegator
  targetHost := params.audience
  audience := params.audience
  grantType := some params.grantType
  delegator := some params.delegator
  delegate := some params.delegate
  scopes := params.scopes
  duration := params.duration

/-- A delegation is approved by the delegator who creates it. -/
def createDelegation (params : DelegationParams) :
    GrantProgram (Option OpenApeGrant) := do
  let id ← storeCall .randomUUID
  let createdAt ← nowSeconds
  storeCall (.save
    { id, type := some .delegation, request := params.request
      status := .pending, createdAt })
  approveGrant id params.delegator none

/-! ## Use -/

/-- Whether a timed grant has outlived its `expires_at`. -/
def isGrantExpired (grant : OpenApeGrant) (nowSec : Int) : Bool :=
  grant.status = .approved &&
    grant.request.grantType = some .timed &&
    grant.expiresAt.any (fun expiresAt =>
      expiresAt ≠ 0 && expiresAt ≤ nowSec)

def introspectGrant (grantId : JsString) :
    GrantProgram (Option OpenApeGrant) := do
  match ← findById grantId with
  | none => pure none
  | some grant =>
      let now ← nowSeconds
      if isGrantExpired grant now then
        updateStatus grantId .expired {}
        findById grantId
      else pure (some grant)

/-- Spends an approved single-use grant, in one step where the store can. -/
def spendOnce (store : GrantStoreMethods) (grantId : JsString) (now : Int) :
    GrantProgram Unit :=
  if store.claimOnce then do
    let claimed ← storeCall (.claimOnce grantId now)
    throwIf (!claimed) (plainError
      (js "Grant is not approved: it changed while it was being used"))
  else updateStatus grantId .used { usedAt := some now }

def useGrant (store : GrantStoreMethods) (grantId : JsString) :
    GrantProgram (Option OpenApeGrant) := do
  match ← introspectGrant grantId with
  | none => fail (grantNotFound grantId)
  | some grant =>
      throwIf (grant.status ≠ .approved)
        (plainError (js "Grant is not approved: " ++ grant.status.text))
      if grant.request.grantType = some .once then
        let now ← nowSeconds
        spendOnce store grantId now
        findById grantId
      else pure (some grant)

/-! ## Withdrawal -/

/-- `OpenApeGrantWithdrawResult` -/
inductive GrantWithdrawResult where
  | unknown
  | withdrawn (grantId : JsString) (previousStatus : GrantStatus)
  | alreadyDecided (grantId : JsString) (status : GrantStatus)
  deriving DecidableEq

/-- The grant of a reference key. -/
def findReferenced (referenceKey : GrantReferenceKey) :
    GrantProgram (Option OpenApeGrant) := do
  let page ← storeCall (.listGrants
    { referenceKey := some referenceKey, limit := some 1 })
  pure page.data.head?

/-- Tries to withdraw a grant found open; the status that was replaced. -/
def withdrawOpen (grant : OpenApeGrant) (reason : Option JsString) :
    GrantProgram (Option GrantStatus) :=
  if grant.status = .pending ∨ grant.status = .approved then do
    let now ← nowSeconds
    storeCall (.withdraw grant.id now reason)
  else pure none

/-- The answer for a grant that was not withdrawn by this call. -/
def settledResult (grant : OpenApeGrant) : GrantProgram GrantWithdrawResult :=
  match grant.status with
  | .withdrawn => pure (.withdrawn grant.id .withdrawn)
  | .denied => pure (.alreadyDecided grant.id .denied)
  | .revoked => pure (.alreadyDecided grant.id .revoked)
  | .expired => pure (.alreadyDecided grant.id .expired)
  | .used => pure (.alreadyDecided grant.id .used)
  | .pending | .approved => fail (plainError
      (js "Grant could not be withdrawn (status: " ++ grant.status.text ++
        js ")"))

def withdrawReferencedGrant (store : GrantStoreMethods)
    (referenceKey : GrantReferenceKey) (reason : Option JsString) :
    GrantProgram GrantWithdrawResult := do
  throwIf (!store.withdraw)
    (plainError (js "This store does not support withdrawing grants"))
  match ← findReferenced referenceKey with
  | none => pure .unknown
  | some grant =>
      match ← withdrawOpen grant reason with
      | some previous => pure (.withdrawn grant.id previous)
      | none =>
          -- Another decision or the token issue may have landed first.
          match ← findReferenced referenceKey with
          | some grant => settledResult grant
          | none => fail (plainError
              (js "Cannot read properties of undefined (reading 'status')"))

end OpenApe.Ports.Grants
