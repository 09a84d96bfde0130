import OpenApe.Ports.GrantRequests
import OpenApe.Ports.ProgramAuthorization

/-!
# Deciding program calls (`utils/program-authorize.ts`)

Port of `decideProgramCall` and its retries: the answer to one program call
is a command token for a grant that covers it, a pending request, or a
refusal.  What the handler reads from outside the grant store (the shapes an
owner sees, the digest, the signature, the pre-approval hooks and the audit of
issued tokens) is `AuthorizeServices`.
-/

namespace OpenApe.Ports.ProgramAuthorize

open Verified.JsText Verified.Programs Verified.Programs.Program
open GrantTypes GrantStore Grants GrantReuse StandingGrants AuthzJwt
  GrantRequests ProgramAuthorization

/-! ## Services and answers -/

structure AuthorizeServices where
  /-- The shapes that read the calls of a human owner. -/
  shapes : Option JsString → ShapeStore
  digest : JsString → List UInt8
  sign : AuthZClaims → JsString
  issuer : JsString
  preApproval : OpenApeGrantRequest → Option PreApprovalResult
  /-- Why the audit of an issued token failed. -/
  onToken : OpenApeGrant → Option JsError

structure ProgramAuthorizeInput where
  requester : JsString
  request : OpenApeProgramAuthorizeRequest
  brokered : Option BrokeredGrant := none
  shapeOwner : Option JsString := none
  deriving DecidableEq

/-- The approval page of a request, with the parameters of its query. -/
structure ApprovalUrl where
  issuer : JsString
  query : List (JsString × JsString)
  deriving DecidableEq

/-- The bodies of the answers 200, 202 and 403. -/
inductive ProgramAuthorizeResult where
  | approved (grantId authzJwt : JsString) (expiresAt : Int)
  | pending (grantId : JsString) (approvalUrl : ApprovalUrl)
  | refused (state : GrantStatus) (grantId : JsString)
  deriving DecidableEq

/-- `PROGRAM_AUTHORIZE_LIMITS.tokenChars` -/
def tokenChars : Nat := 120 * 1024

/-- `createProblemError` with a title. -/
def authorizeProblem (status : Nat) (title : JsString) : JsError :=
  ⟨.http status, title⟩

section Decide

variable [Collation]

/-! ## Requests -/

def computeCmdHash (digest : JsString → List UInt8) (command : JsString) :
    JsString :=
  hexText (digest command)

def grantRequestFor (digest : JsString → List UInt8) (requester : JsString)
    (request : OpenApeProgramAuthorizeRequest) (call : ResolvedProgramCall) :
    OpenApeGrantRequest where
  requester := requester
  targetHost := request.targetHost
  audience := request.audience
  grantType := some
    (if call.requiresOnce then .once else request.grantType.grantType)
  permissions := some [call.detail.permission]
  authorizationDetails := some [.openapeCli call.detail]
  command := some call.executionArgv
  cmdHash := some
    (computeCmdHash digest ((js " ").intercalate call.executionArgv))
  executionContext := some call.executionContext
  summary := request.summary
  batch := request.batch
  reference := request.reference

/-- What the grants of the requester are compared with. -/
def scopeOf (request : OpenApeProgramAuthorizeRequest)
    (call : ResolvedProgramCall) : ProgramCallScope where
  targetHost := request.targetHost
  audience := request.audience
  detail := call.detail
  argvHash := call.argvHash
  programSha256 := request.program.sha256
  requiresOnce := call.requiresOnce
  files := request.files
  adapterOwner := call.executionContext.adapterOwner
  adapterDomain := call.executionContext.adapterDomain
  adapterDigest := some call.executionContext.adapterDigest

def resolveCall (services : AuthorizeServices)
    (input : ProgramAuthorizeInput) : Except JsError ResolvedProgramCall :=
  let shapeOwner :=
    if input.brokered.isSome then none else input.shapeOwner
  match resolveProgramCall services.digest (services.shapes shapeOwner)
      input.request with
  | .ok call => .ok call
  | .error (.invalidProgramAuthorizeRequest message) =>
      .error (authorizeProblem 400 message)
  | .error (.other error) => .error error

/-! ## Answers -/

def tokenTooLarge : JsError :=
  authorizeProblem 413 (js
    "The command is too large to authorize: its command token would exceed 122880 characters; shorten its arguments")

/-- What a command token is issued for. -/
def commandTokenCall (call : ResolvedProgramCall) : CommandTokenCall where
  argvHash := call.argvHash
  programSha256 := call.executionContext.programSha256.getD []
  detail := call.detail
  executionContext := call.executionContext

/-- Spends a single-use grant; whether the grant was there to be used. -/
def spend (grant : OpenApeGrant) : GrantProgram Bool :=
  if grant.request.grantTypeOrOnce = .once then do
    let now ← nowSeconds
    storeCall (.claimOnce grant.id now)
  else pure true

/-- A command token for the grant, or nothing where another call spent the
grant first. -/
def approvedAnswer (services : AuthorizeServices) (grant : OpenApeGrant)
    (call : ResolvedProgramCall) :
    GrantProgram (Option ProgramAuthorizeResult) := do
  let now ← nowSeconds
  let jti ← storeCall .randomUUID
  let token ← ofExcept (issueCommandJWT services.sign grant
    (commandTokenCall call) services.issuer now jti)
  throwIf (tokenChars < token.1.length) tokenTooLarge
  refuse (services.onToken grant)
  let spent ← spend grant
  pure (if spent then some (.approved grant.id token.1 token.2) else none)

omit [Collation] in
/-- A token names the grant, which is approved. -/
theorem guarantees_approvedAnswer
    {rely : (call : GrantStoreCall) → Except JsError call.Reply → Prop}
    {calls : GrantStoreCall → Prop} (hRead : ∀ call, IsRead call → calls call)
    (hClaim : ∀ id now, calls (.claimOnce id now))
    (services : AuthorizeServices) (grant : OpenApeGrant)
    (call : ResolvedProgramCall) :
    @Guarantees grantStore JsError _ rely calls
      (fun result => ∀ grantId jwt expiresAt,
        result = some (.approved grantId jwt expiresAt) →
        grantId = grant.id ∧ grant.status = .approved)
      (approvedAnswer services grant call) := by
  refine guarantees_perform_bind (hRead _ trivial) (fun now _ => ?_)
  refine guarantees_perform_bind (hRead _ trivial) (fun jti _ => ?_)
  refine guarantees_ofExcept_bind (fun token hToken => ?_)
  have hStatus : grant.status = .approved := by
    refine ((issueCommandJWT_isOk_iff services.sign grant
      (commandTokenCall call) services.issuer now jti).mp ?_).1
    rw [hToken]
    rfl
  refine guarantees_throwIf_bind (fun _ => ?_)
  refine guarantees_refuse_bind (fun _ => ?_)
  have hSpend : @Guarantees grantStore JsError _ rely calls (fun _ => True)
      (spend grant) := by
    unfold spend
    split
    · refine guarantees_perform_bind (hRead _ trivial) (fun _ _ => ?_)
      exact guarantees_storeCall (hClaim _ _) (fun _ _ => trivial)
    · exact guarantees_pure trivial
  refine guarantees_bind hSpend (fun spent _ => guarantees_pure ?_)
  intro grantId jwt expiresAt hResult
  refine ⟨?_, hStatus⟩
  cases spent with
  | false => cases hResult
  | true =>
      cases hResult
      rfl

def pendingAnswer (services : AuthorizeServices) (grant : OpenApeGrant) :
    ProgramAuthorizeResult :=
  .pending grant.id
    { issuer := services.issuer
      query :=
        match grant.request.batch with
        | some batch =>
            [(js "requester", grant.request.requester),
              (js "batch", batch.id)]
        | none => [(js "grant_id", grant.id)] }

/-- An automatic approval and its token. -/
def approveAndAnswer (services : AuthorizeServices)
    (request : OpenApeGrantRequest) (extra : GrantUpdate)
    (call : ResolvedProgramCall) :
    GrantProgram (Option ProgramAuthorizeResult) := do
  match ← approveAutomatically request extra with
  | none => fail (plainError (js "Auto-approved grant disappeared"))
  | some approved => approvedAnswer services approved call

/-! ## The decision -/

/-- The answer for a referenced request. -/
def answerReferenced (services : AuthorizeServices)
    (request : OpenApeGrantRequest) (brokered : Option BrokeredGrant)
    (call : ResolvedProgramCall) :
    GrantProgram (Option ProgramAuthorizeResult) := do
  let result ← requestReferencedGrant {} request brokered
  match result.1.status with
  | .pending => pure (some (pendingAnswer services result.1))
  | .approved => approvedAnswer services result.1 call
  | status => pure (some (.refused status result.1.id))

/-- The standing grant that decides, unless a person has to. -/
def standingFor (request : OpenApeGrantRequest)
    (brokered : Option BrokeredGrant) (call : ResolvedProgramCall) :
    GrantProgram (Option StandingGrantMatch) :=
  if brokered.isNone && !call.requiresOnce then evaluateStandingGrants request
  else pure none

/-- The hooks' decision, unless a person has to decide. -/
def preApprovalFor (services : AuthorizeServices)
    (request : OpenApeGrantRequest) (brokered : Option BrokeredGrant)
    (call : ResolvedProgramCall) : Option PreApprovalResult :=
  if brokered.isNone && !call.requiresOnce then services.preApproval request
  else none

/-- Asks the hooks, and then a person. -/
def askForDecision (services : AuthorizeServices)
    (request : OpenApeGrantRequest) (brokered : Option BrokeredGrant)
    (call : ResolvedProgramCall) :
    GrantProgram (Option ProgramAuthorizeResult) :=
  match preApprovalFor services request brokered call with
  | some result => approveAndAnswer services request result.update call
  | none => do
      let grant ← createPendingGrant request brokered
      pure (some (pendingAnswer services grant))

/-- What follows where no approval and no standing grant covers the call. -/
def answerUndecided (services : AuthorizeServices)
    (request : OpenApeGrantRequest) (brokered : Option BrokeredGrant)
    (call : ResolvedProgramCall) (latest : Option OpenApeGrant) :
    GrantProgram (Option ProgramAuthorizeResult) :=
  match latest with
  | none => askForDecision services request brokered call
  | some latest =>
      match latest.status with
      | .pending => pure (some (pendingAnswer services latest))
      | .denied => pure (some (.refused .denied latest.id))
      | .revoked => pure (some (.refused .revoked latest.id))
      | _ => askForDecision services request brokered call

/-- The problem a batch error is answered with. -/
def batchProblem (error : JsError) : JsError :=
  if error.kind = .invalidGrantBatch then
    authorizeProblem 400 (js "Invalid batch: " ++ error.message)
  else error

/-- The answer where no approval covers the call. -/
def answerUncovered (services : AuthorizeServices)
    (request : OpenApeGrantRequest) (brokered : Option BrokeredGrant)
    (call : ResolvedProgramCall) (latest : Option OpenApeGrant) :
    GrantProgram (Option ProgramAuthorizeResult) := do
  match ← standingFor request brokered call with
  | some standing =>
      let owner ← findById standing.standingGrantId
      approveAndAnswer services request
        { decidedBy := owner.bind OpenApeGrant.decidedBy
          decidedByStandingGrant := some standing.standingGrantId
          autoApprovalKind := some (js "standing") } call
  | none => answerUndecided services request brokered call latest

/-- The answer for a request without a reference. -/
def answerUnreferenced (services : AuthorizeServices)
    (input : ProgramAuthorizeInput) (request : OpenApeGrantRequest)
    (call : ResolvedProgramCall) :
    GrantProgram (Option ProgramAuthorizeResult) := do
  mapError batchProblem (assertGrantBatchMember request)
  let existing ← storeCall (.findByRequester input.requester)
  let now ← nowSeconds
  let scope := scopeOf input.request call
  match findCoveringGrant existing scope input.brokered now with
  | some covering => approvedAnswer services covering call
  | none =>
      answerUncovered services request input.brokered call
        (findLatestRequest existing scope input.brokered)

/-- Nothing where a single-use grant was lost to another call. -/
def decideProgramCall (services : AuthorizeServices)
    (input : ProgramAuthorizeInput) :
    GrantProgram (Option ProgramAuthorizeResult) := do
  let call ← ofExcept (resolveCall services input)
  let request :=
    grantRequestFor services.digest input.requester input.request call
  if request.reference.isSome then
    answerReferenced services request input.brokered call
  else answerUnreferenced services input request call

/-- An error that no requester may read is reported as unexpected. -/
def reportUnexpected (error : JsError) : JsError :=
  match error.kind with
  | .http _ => error
  | _ => authorizeProblem 500
      (js "Program authorization failed unexpectedly")

/-- `attempts` decisions, until one is an answer. -/
def decideWithin (services : AuthorizeServices)
    (input : ProgramAuthorizeInput) :
    Nat → GrantProgram (Option ProgramAuthorizeResult)
  | 0 => pure none
  | attempts + 1 => do
      match ← decideProgramCall services input with
      | some result => pure (some result)
      | none => decideWithin services input attempts

def authorizeProgramCall (services : AuthorizeServices)
    (input : ProgramAuthorizeInput) :
    GrantProgram ProgramAuthorizeResult := do
  match ← mapError reportUnexpected (decideWithin services input 3) with
  | some result => pure result
  | none => fail (authorizeProblem 409 (js
      "Concurrent calls spent the single-use grants for this command; retry the call"))

/-! ## The calls of a decision -/

section Guarantees

variable {rely : (call : GrantStoreCall) → Except JsError call.Reply → Prop}
  {calls : GrantStoreCall → Prop} {services : AuthorizeServices}
  {input : ProgramAuthorizeInput} {request : OpenApeGrantRequest}

omit [Collation] in
theorem guarantees_approveAndAnswer {extra : GrantUpdate}
    (hRead : ∀ call, IsRead call → calls call)
    (hClaim : ∀ id now, calls (.claimOnce id now))
    (hNew : ∀ grant : OpenApeGrant, grant.status = .pending →
      grant.request = request →
      calls (.save grant) ∧ calls (.createReferenced grant))
    (hApprove : ∀ id now, calls
      (.updateStatus id .approved { extra with decidedAt := some now }))
    (call : ResolvedProgramCall) :
    @Guarantees grantStore JsError _ rely calls (fun _ => True)
      (approveAndAnswer services request extra call) := by
  refine guarantees_bind
    (guarantees_approveAutomatically hRead hNew hApprove)
    (fun approved _ => ?_)
  split
  · trivial
  · exact guarantees_mono
      (guarantees_approvedAnswer hRead hClaim services _ call)
      (fun _ _ => trivial)

theorem guarantees_answerUncovered
    (hRead : ∀ call, IsRead call → calls call)
    (hClaim : ∀ id now, calls (.claimOnce id now))
    (hNew : ∀ grant : OpenApeGrant, grant.status = .pending →
      grant.request = request →
      calls (.save grant) ∧ calls (.createReferenced grant))
    (hApprove : ∀ id extra, extra.request = none →
      calls (.updateStatus id .approved extra))
    (brokered : Option BrokeredGrant) (call : ResolvedProgramCall)
    (latest : Option OpenApeGrant) :
    @Guarantees grantStore JsError _ rely calls (fun _ => True)
      (answerUncovered services request brokered call latest) := by
  have hAutomatic : ∀ extra : GrantUpdate, extra.request = none →
      @Guarantees grantStore JsError _ rely calls (fun _ => True)
        (approveAndAnswer services request extra call) :=
    fun extra hExtra => guarantees_approveAndAnswer hRead hClaim hNew
      (fun id now => hApprove id _ hExtra) call
  have hStanding : @Guarantees grantStore JsError _ rely calls
      (fun _ => True) (standingFor request brokered call) := by
    unfold standingFor
    split
    · exact guarantees_evaluateStandingGrants hRead request
    · exact guarantees_pure trivial
  refine guarantees_bind hStanding (fun standing _ => ?_)
  split
  · refine guarantees_perform_bind (hRead _ trivial) (fun owner _ => ?_)
    exact hAutomatic _ rfl
  · have hAsk : @Guarantees grantStore JsError _ rely calls (fun _ => True)
        (askForDecision services request brokered call) := by
      unfold askForDecision
      split
      · exact hAutomatic _ rfl
      · exact guarantees_bind
          (guarantees_createPendingGrant hRead hNew brokered)
          (fun _ _ => guarantees_pure trivial)
    unfold answerUndecided
    split
    · exact hAsk
    · split
      · exact guarantees_pure trivial
      · exact guarantees_pure trivial
      · exact guarantees_pure trivial
      · exact hAsk

/-- A decision reads, stores the pending request, approves it with updates
that leave the request as it is, and spends grants. -/
theorem guarantees_decideProgramCall
    (hRead : ∀ call, IsRead call → calls call)
    (hClaim : ∀ id now, calls (.claimOnce id now))
    (hNew : ∀ (grant : OpenApeGrant) (call : ResolvedProgramCall),
      grant.status = .pending → resolveCall services input = .ok call →
      grant.request = grantRequestFor services.digest input.requester
        input.request call →
      calls (.save grant) ∧ calls (.createReferenced grant))
    (hApprove : ∀ id extra, extra.request = none →
      calls (.updateStatus id .approved extra)) :
    @Guarantees grantStore JsError _ rely calls (fun _ => True)
      (decideProgramCall services input) := by
  refine guarantees_ofExcept_bind (fun call hCall => ?_)
  have hNew' := fun grant hPending => hNew grant call hPending hCall
  dsimp only
  split
  · have hReferenced : @Guarantees grantStore JsError _ rely calls
        (fun _ => True) (requestReferencedGrant {} (grantRequestFor
          services.digest input.requester input.request call)
          input.brokered) :=
      guarantees_requestReferencedGrant hRead
        (fun _ _ => (hNew' _ rfl rfl).2) (fun _ _ _ _ _ _ _ _ => trivial)
        (fun _ _ _ _ => trivial)
    refine guarantees_bind hReferenced (fun result _ => ?_)
    split
    · exact guarantees_pure trivial
    · exact guarantees_mono
        (guarantees_approvedAnswer hRead hClaim services _ call)
        (fun _ _ => trivial)
    · exact guarantees_pure trivial
  · refine guarantees_bind (guarantees_mapError
      (guarantees_assertGrantBatchMember hRead _) _) (fun _ _ => ?_)
    refine guarantees_perform_bind (hRead _ trivial) (fun existing _ => ?_)
    refine guarantees_perform_bind (hRead _ trivial) (fun now _ => ?_)
    dsimp only
    split
    · exact guarantees_mono
        (guarantees_approvedAnswer hRead hClaim services _ call)
        (fun _ _ => trivial)
    · exact guarantees_answerUncovered hRead hClaim hNew' hApprove _ _ _

/-- The attempts of a call make the calls of its decisions. -/
theorem guarantees_authorizeProgramCall
    (h : @Guarantees grantStore JsError _ rely calls (fun _ => True)
      (decideProgramCall services input)) :
    @Guarantees grantStore JsError _ rely calls (fun _ => True)
      (authorizeProgramCall services input) := by
  have hAttempts : ∀ attempts,
      @Guarantees grantStore JsError _ rely calls (fun _ => True)
        (decideWithin services input attempts) := by
    intro attempts
    induction attempts with
    | zero => exact guarantees_pure trivial
    | succ attempts ih =>
        refine guarantees_bind h (fun result _ => ?_)
        split
        · exact guarantees_pure trivial
        · exact ih
  refine guarantees_bind (guarantees_mapError (hAttempts 3) _)
    (fun result _ => ?_)
  split
  · exact guarantees_pure trivial
  · trivial

end Guarantees

end Decide

end OpenApe.Ports.ProgramAuthorize
