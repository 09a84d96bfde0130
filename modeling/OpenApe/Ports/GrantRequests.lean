import OpenApe.Ports.CreateEndpoint

/-!
# Storing requests (`utils/grant-reference.ts`, `api/grants/index.post.ts`)

How a new request enters the store: as the one request of its reference, as
a pending request, or approved at once by a standing grant or a pre-approval
hook.  `RequestEnvironment` is what a call of the request endpoint reads from
outside the store; the hooks' answer is a function of the request, which may
be another one at every call.
-/

namespace OpenApe.Ports.GrantRequests

open Verified.JsText Verified.Programs.Program
open GrantTypes GrantReference GrantStore Grants StandingGrants CreateEndpoint

/-! ## Referenced requests -/

/-- The problem a reference or batch error is answered with. -/
def referenceProblem (error : JsError) : JsError :=
  match error.kind with
  | .grantReferenceConflict => ⟨.http 409, error.message⟩
  | .invalidGrantReference | .invalidGrantBatch => ⟨.http 400, error.message⟩
  | .error | .http _ => error

/-- The grant a referenced request would store. -/
def referencedCandidate (id : JsString) (createdAt : Int)
    (request : OpenApeGrantRequest) (brokered : Option BrokeredGrant) :
    OpenApeGrant :=
  { id, type := some .command, request, status := .pending, createdAt,
    brokered }

/-- The grant of the request's reference, and whether it is new. -/
def requestReferencedGrant (store : GrantStoreMethods)
    (request : OpenApeGrantRequest) (brokered : Option BrokeredGrant) :
    GrantProgram (OpenApeGrant × Bool) :=
  mapError referenceProblem (do
    ofExcept (assertGrantReferenceRequest request)
    throwIf (!truthy request.reference)
      (invalidGrantReference (js "A reference is required"))
    throwIf (!store.createReferenced)
      ⟨.http 501, js "This store does not support grant references"⟩
    let id ← storeCall .randomUUID
    let createdAt ← nowSeconds
    let candidate := referencedCandidate id createdAt request brokered
    let page ← storeCall (.listGrants
      { referenceKey := some (grantReferenceKey request.requester
          (request.reference.getD []) brokered)
        limit := some 1 })
    match page.data.head? with
    | some existing => do
        ofExcept (assertSameReferencedGrant existing candidate)
        pure (existing, false)
    | none => do
        assertGrantBatchMember request
        storeCall (.createReferenced candidate))

section Guarantees

variable {rely : (call : GrantStoreCall) → Except JsError call.Reply → Prop}
  {calls : GrantStoreCall → Prop}

/-- The grant of a reference is one that is listed under its key and binds
the same, or what the store answers for the candidate. -/
theorem guarantees_requestReferencedGrant
    {returns : OpenApeGrant × Bool → Prop} {request : OpenApeGrantRequest}
    {brokered : Option BrokeredGrant}
    (hRead : ∀ call, IsRead call → calls call)
    (hNew : ∀ id createdAt, calls (.createReferenced
      (referencedCandidate id createdAt request brokered)))
    (hListed : ∀ params page existing id createdAt,
      rely (.listGrants params) (.ok page) → existing ∈ page.data →
      assertSameReferencedGrant existing
        (referencedCandidate id createdAt request brokered) = .ok () →
      returns (existing, false))
    (hCreated : ∀ reply id createdAt,
      rely (.createReferenced
        (referencedCandidate id createdAt request brokered)) (.ok reply) →
      returns reply) :
    @Guarantees grantStore JsError _ rely calls returns
      (requestReferencedGrant {} request brokered) := by
  refine guarantees_mapError ?_ _
  refine guarantees_ofExcept_bind (fun _ _ => ?_)
  refine guarantees_throwIf_bind (fun _ => ?_)
  refine guarantees_throwIf_bind (fun _ => ?_)
  refine guarantees_perform_bind (hRead _ trivial) (fun id _ => ?_)
  refine guarantees_perform_bind (hRead _ trivial) (fun createdAt _ => ?_)
  refine guarantees_perform_bind (hRead _ trivial) (fun page hPage => ?_)
  split
  · rename_i existing hHead
    refine guarantees_ofExcept_bind (fun _ hSame => guarantees_pure ?_)
    exact hListed _ page existing id createdAt hPage
      (List.mem_of_head? hHead) hSame
  · refine guarantees_bind (guarantees_assertGrantBatchMember hRead request)
      (fun _ _ => ?_)
    exact guarantees_storeCall (hNew id createdAt)
      (fun reply hRely => hCreated reply id createdAt hRely)

end Guarantees

/-! ## New requests -/

/-- Stores the request as pending; one for a brokered identity keeps its
broker binding. -/
def createPendingGrant (request : OpenApeGrantRequest)
    (brokered : Option BrokeredGrant) : GrantProgram OpenApeGrant :=
  match brokered with
  | none => createGrant {} request
  | some brokered => do
      let id ← storeCall .randomUUID
      let createdAt ← nowSeconds
      let grant : OpenApeGrant :=
        { id, type := some .command, request, status := .pending, createdAt,
          brokered := some brokered }
      storeCall (.save grant)
      pure grant

/-- Stores the request and approves it without anybody's decision. -/
def approveAutomatically (request : OpenApeGrantRequest)
    (extra : GrantUpdate) : GrantProgram (Option OpenApeGrant) := do
  let pending ← createGrant {} request
  let now ← nowSeconds
  updateStatus pending.id .approved { extra with decidedAt := some now }
  findById pending.id

section Guarantees

variable {rely : (call : GrantStoreCall) → Except JsError call.Reply → Prop}
  {calls : GrantStoreCall → Prop}

theorem guarantees_createPendingGrant {request : OpenApeGrantRequest}
    (hRead : ∀ call, IsRead call → calls call)
    (hNew : ∀ grant : OpenApeGrant, grant.status = .pending →
      grant.request = request →
      calls (.save grant) ∧ calls (.createReferenced grant))
    (brokered : Option BrokeredGrant) :
    @Guarantees grantStore JsError _ rely calls (fun _ => True)
      (createPendingGrant request brokered) := by
  cases brokered with
  | none => exact guarantees_createGrant hRead hNew
  | some brokered =>
      refine guarantees_perform_bind (hRead _ trivial) (fun id _ => ?_)
      refine guarantees_perform_bind (hRead _ trivial) (fun createdAt _ => ?_)
      refine guarantees_perform_bind (hNew _ rfl rfl).1 (fun _ _ => ?_)
      exact guarantees_pure trivial

theorem guarantees_approveAutomatically {request : OpenApeGrantRequest}
    {extra : GrantUpdate} (hRead : ∀ call, IsRead call → calls call)
    (hNew : ∀ grant : OpenApeGrant, grant.status = .pending →
      grant.request = request →
      calls (.save grant) ∧ calls (.createReferenced grant))
    (hApprove : ∀ id now, calls
      (.updateStatus id .approved { extra with decidedAt := some now })) :
    @Guarantees grantStore JsError _ rely calls (fun _ => True)
      (approveAutomatically request extra) := by
  refine guarantees_bind (guarantees_createGrant hRead hNew)
    (fun pending _ => ?_)
  refine guarantees_perform_bind (hRead _ trivial) (fun now _ => ?_)
  refine guarantees_perform_bind (hApprove _ now) (fun _ _ => ?_)
  exact guarantees_storeCall (hRead _ trivial) (fun _ _ => trivial)

end Guarantees

structure PreApprovalResult where
  kind : JsString
  decidedBy : JsString
  deriving DecidableEq

/-- What an approval by a hook records. -/
def PreApprovalResult.update (result : PreApprovalResult) : GrantUpdate where
  decidedBy := some result.decidedBy
  autoApprovalKind := some result.kind

/-! ## The request endpoint -/

/-- What a call of the endpoint reads from outside the store. -/
structure RequestEnvironment where
  computeCmdHash : JsString → JsString
  computeArgvHash : List JsString → JsString
  actionOf : JsString → JsString
  summaryOrBatchRefused : OpenApeGrantRequest → Option JsError
  preApproval : OpenApeGrantRequest → Option PreApprovalResult

inductive CreatedGrant where
  | referenced (grant : OpenApeGrant) (created : Bool)
  | approvedAutomatically (grant : Option OpenApeGrant)
  | pending (grant : OpenApeGrant)

/-- What follows where no standing grant matched. -/
def undecidedRequest (env : RequestEnvironment)
    (request : OpenApeGrantRequest) : GrantProgram CreatedGrant :=
  match env.preApproval request with
  | some result => CreatedGrant.approvedAutomatically <$>
      approveAutomatically request result.update
  | none => CreatedGrant.pending <$> createPendingGrant request none

def RequestEnvironment.services (env : RequestEnvironment) :
    CreateServices CreatedGrant where
  computeCmdHash := env.computeCmdHash
  computeArgvHash := env.computeArgvHash
  actionOf := env.actionOf
  summaryOrBatchRefused := env.summaryOrBatchRefused
  referenced := fun request =>
    (fun result => CreatedGrant.referenced result.1 result.2) <$>
      requestReferencedGrant {} request none
  undecided := undecidedRequest env

section Endpoint

variable [Collation]

/-- `POST /api/grants` for a caller who is the requester. -/
def postGrants (env : RequestEnvironment)
    (detailSignature : AuthorizationDetail → JsString)
    (body : OpenApeGrantRequest) :
    GrantProgram (CreateResponse CreatedGrant) :=
  createEndpoint env.services detailSignature body

/-- `POST /api/grants` for a delegate, whose requests are left to the
delegator's decision. -/
def postGrantsAsDelegate (env : RequestEnvironment)
    (submitter : GrantSubmitter) (brokered : Option BrokeredGrant)
    (body : OpenApeGrantRequest) : GrantProgram OpenApeGrant := do
  let prepared ← ofExcept (prepareRequest env.services body)
  let request := { prepared with submittedBy := some submitter }
  if request.reference.isSome then
    Prod.fst <$> requestReferencedGrant {} request brokered
  else createPendingGrant request brokered

/-- What is stored of a body asks for the duration of the body. -/
theorem duration_of_prepareRequest {ρ : Type} {services : CreateServices ρ}
    {body request : OpenApeGrantRequest}
    (h : prepareRequest services body = .ok request) :
    request.duration = body.duration := by
  have hArgv : ∀ request, (withArgv services request).duration =
      request.duration := by
    intro request
    unfold withArgv
    split
    · rfl
    · split <;> rfl
  have hCmd : ∀ request, (withCmdHash services request).duration =
      request.duration := by
    intro request
    unfold withCmdHash
    split <;> rfl
  unfold prepareRequest at h
  split at h
  · cases h
  · dsimp only at h
    split at h
    · cases h
    · split at h
      · cases h
      · split at h
        · cases h
        · rw [← Except.ok.inj h, hCmd, hArgv]

/-! ## The calls of the endpoint -/

section Guarantees

variable {rely : (call : GrantStoreCall) → Except JsError call.Reply → Prop}
  {calls : GrantStoreCall → Prop} {env : RequestEnvironment}
  {body : OpenApeGrantRequest}

/-- The endpoint reads, stores the pending request, and approves it with
updates that leave the request as it is. -/
theorem guarantees_postGrants (hRead : ∀ call, IsRead call → calls call)
    (hNew : ∀ grant : OpenApeGrant, grant.status = .pending →
      prepareRequest env.services body = .ok grant.request →
      calls (.save grant) ∧ calls (.createReferenced grant))
    (hApprove : ∀ id extra, extra.request = none →
      calls (.updateStatus id .approved extra))
    (detailSignature : AuthorizationDetail → JsString) :
    @Guarantees grantStore JsError _ rely calls (fun _ => True)
      (postGrants env detailSignature body) := by
  refine guarantees_ofExcept_bind (fun request hRequest => ?_)
  have hNew' : ∀ grant : OpenApeGrant, grant.status = .pending →
      grant.request = request →
      calls (.save grant) ∧ calls (.createReferenced grant) :=
    fun grant hPending hEq => hNew grant hPending (hEq ▸ hRequest)
  split
  · refine guarantees_map ?_
    refine guarantees_map ?_
    exact guarantees_requestReferencedGrant hRead
      (fun _ _ => (hNew' _ rfl rfl).2) (fun _ _ _ _ _ _ _ _ => trivial)
      (fun _ _ _ _ => trivial)
  · refine guarantees_perform_bind (hRead _ trivial) (fun existing _ => ?_)
    refine guarantees_perform_bind (hRead _ trivial) (fun now _ => ?_)
    split
    · exact guarantees_pure trivial
    · refine guarantees_bind
        (guarantees_evaluateStandingGrants hRead request)
        (fun standingMatch _ => ?_)
      split
      · refine guarantees_map ?_
        refine guarantees_bind (guarantees_createGrant hRead hNew')
          (fun pending _ => ?_)
        refine guarantees_perform_bind (hRead _ trivial) (fun now _ => ?_)
        refine guarantees_perform_bind (hRead _ trivial) (fun owner _ => ?_)
        refine guarantees_perform_bind (hApprove _ _ rfl) (fun _ _ => ?_)
        exact guarantees_storeCall (hRead _ trivial) (fun _ _ => trivial)
      · refine guarantees_map ?_
        change Guarantees _ _ _ (undecidedRequest env request)
        unfold undecidedRequest
        split
        · refine guarantees_map ?_
          exact guarantees_approveAutomatically hRead hNew'
            (fun id now => hApprove id _ rfl)
        · refine guarantees_map ?_
          exact guarantees_createPendingGrant hRead hNew' none

end Guarantees

end Endpoint

end OpenApe.Ports.GrantRequests
