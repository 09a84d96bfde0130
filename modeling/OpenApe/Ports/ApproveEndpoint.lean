import OpenApe.Ports.GrantsExtension

/-!
# The approve endpoint (`api/grants/[id]/approve.post.ts`)

Port of the handler and of `requireGrantActionAuthority`, which it shares
with the other grant endpoints.  What the endpoint learns from the user
store, the broker store, the shape store and the signing key is
`EndpointServices`.  The body is the parsed one: its JSON fields have the
types the handler reads them with.
-/

namespace OpenApe.Ports.ApproveEndpoint

open Verified.JsText Verified.Programs.Program
open GrantTypes GrantStore Grants GrantsExtension

/-- `createProblemError` -/
def problem (status : Nat) (title : String) : JsError :=
  ⟨.http status, js title⟩

/-! ## Authority -/

/-- What authority reads of a user. -/
structure User where
  email : JsString
  owner : Option JsString := none
  approver : Option JsString := none
  deriving DecidableEq

inductive GrantAction where
  | approve
  | deny
  | revoke
  deriving DecidableEq

/-- The answers of the other stores and services; a check answers with the
error it throws. -/
structure EndpointServices where
  findByEmail : JsString → Option User
  isAdmin : JsString → Bool
  requireBrokerGrantOwner : OpenApeGrant → Bool → Option JsError
  assertScopedShapeCurrent : OpenApeGrant → Option JsError
  issueAuthzJWT : OpenApeGrant → Except JsError JsString
  recordToken : OpenApeGrant → Option JsError

/-- Whether `identity` may approve a grant of `requesterUser`: its owner, its
approver, or the user itself when neither is set. -/
def mayApprove (requesterUser : User) (identity : JsString) : Bool :=
  requesterUser.owner == some identity ||
    requesterUser.approver == some identity ||
    (requesterUser.approver.isNone && requesterUser.owner.isNone &&
      requesterUser.email == identity)

/-- Why `identity` may not perform `action` on `grant`. -/
def requireGrantActionAuthority (services : EndpointServices)
    (grant : OpenApeGrant) (identity : JsString) (action : GrantAction) :
    Option JsError :=
  let requester := grant.request.requester
  let requesterUser := services.findByEmail requester
  if grant.brokered.isSome then
    services.requireBrokerGrantOwner grant (action = .approve)
  else if action = .approve ∧ identity = js "_management_" then none
  else if action = .deny ∧ requester = identity then none
  else if action = .revoke then
    if requester = identity ∨
        requesterUser.bind User.approver = some identity ∨
        services.isAdmin identity = true then none
    else some (problem 403
      "Only the requester, approver, or admin can revoke this grant")
  else
    match requesterUser with
    | none => some (problem 403 "Requester not found for this grant")
    | some requesterUser =>
        if action = .deny then
          if requesterUser.owner = some identity ∨
              requesterUser.approver = some identity then none
          else some (problem 403
            "Only the owner or approver can deny this grant")
        else if mayApprove requesterUser identity then none
        else some (problem 403
          "Only the owner or approver can approve this grant")

/-! ## The body -/

structure ApproveBody where
  grantType : Option JsString := none
  duration : Option Int := none
  extendMode : Option JsString := none
  extendGrantIds : Option (List JsString) := none
  widenedDetails : Option (List AuthorizationDetail) := none

/-- A member of `VALID_GRANT_TYPES`. -/
def grantTypeOf (text : JsString) : Option GrantType :=
  if text = js "once" then some .once
  else if text = js "timed" then some .timed
  else if text = js "always" then some .always
  else none

def extendModeOf (text : JsString) : Option ExtendMode :=
  if text = js "widen" then some .widen
  else if text = js "merge" then some .merge
  else none

/-- Why the overrides of a body are refused. -/
def overridesRefused (body : ApproveBody) : Option JsError :=
  match body.grantType with
  | none => none
  | some text =>
      match grantTypeOf text with
      | none => some (problem 400
          "Invalid grant_type. Must be one of: once, timed, always")
      | some .timed =>
          if body.duration.any (0 < ·) then none
          else some (problem 400
            "Duration must be a positive number for timed grants")
      | some _ => none

namespace ApproveBody

def hasWidenedDetails (body : ApproveBody) : Bool :=
  body.widenedDetails.any (fun details => !details.isEmpty)

def hasExtend (body : ApproveBody) : Bool :=
  truthy body.extendMode &&
    body.extendGrantIds.any (fun ids => !ids.isEmpty)

def type? (body : ApproveBody) : Option GrantType :=
  body.grantType.bind grantTypeOf

/-- The arguments of the extension the body asks for. -/
def extension? (body : ApproveBody) : Option ExtensionOverrides :=
  if body.hasExtend then
    (body.extendMode.bind extendModeOf).map (fun mode =>
      { grantType := body.type?
        duration := body.duration
        extendMode := mode
        extendGrantIds := body.extendGrantIds.getD [] })
  else none

theorem hasExtend_of_extension? {body : ApproveBody}
    {overrides : ExtensionOverrides}
    (h : body.extension? = some overrides) : body.hasExtend = true := by
  unfold ApproveBody.extension? at h
  split at h
  · assumption
  · cases h

end ApproveBody

/-! ## The handler -/

section Handler

variable [Collation]

/-- The three ways of approving. -/
def approveAs (id email : JsString) (body : ApproveBody) :
    GrantProgram (Option OpenApeGrant) :=
  if body.hasExtend then
    match body.extension? with
    | none => fail (problem 400
        "Invalid extend_mode. Must be \"widen\" or \"merge\"")
    | some overrides => approveGrantWithExtension id email overrides
  else if body.hasWidenedDetails then
    approveGrantWithWidening id email (body.widenedDetails.getD [])
      (some { grantType := body.type?, duration := body.duration })
  else
    approveGrant id email (body.type?.map (fun type =>
      { grantType := some type, duration := body.duration }))

/-- The token of the approved grant, which a brokered one also records. -/
def tokenOf (services : EndpointServices) (approved : Option OpenApeGrant) :
    Except JsError (OpenApeGrant × JsString) :=
  match approved with
  | none => .error (plainError
      (js "Cannot read properties of undefined (reading 'status')"))
  | some approved =>
      match services.issueAuthzJWT approved with
      | .error error => .error error
      | .ok authzJwt =>
          if approved.brokered.isSome then
            match services.recordToken approved with
            | some error => .error error
            | none => .ok (approved, authzJwt)
          else .ok (approved, authzJwt)

/-- What the endpoint throws for an error of an operation. -/
def asProblem (error : JsError) : JsError :=
  match error.kind with
  | .http _ => error
  | .error | .invalidGrantReference | .grantReferenceConflict
  | .invalidGrantBatch => ⟨.http 400, error.message⟩

/-- The checks of the handler on the grant it read. -/
def approveRefused (services : EndpointServices) (grant : OpenApeGrant)
    (email : JsString) (body : ApproveBody) : Option JsError :=
  requireGrantActionAuthority services grant email .approve <|>
    services.assertScopedShapeCurrent grant <|>
    (if body.hasWidenedDetails && body.hasExtend then
      some (problem 400
        "widened_details and extend_mode are mutually exclusive")
    else if grant.brokered.isSome &&
        (body.hasWidenedDetails || body.hasExtend) then
      some (problem 400
        "Brokered grants require a new request to change actions")
    else none)

/-- The handler, for a caller `requireAuth` identified as `email`. -/
def approveEndpoint (services : EndpointServices) (id email : JsString)
    (body : ApproveBody) : GrantProgram (OpenApeGrant × JsString) := do
  throwIf id.isEmpty (problem 400 "Grant ID is required")
  refuse (overridesRefused body)
  match ← findById id with
  | none => fail (problem 404 "Grant not found")
  | some grant =>
      refuse (approveRefused services grant email body)
      mapError asProblem (do
        let approved ← approveAs id email body
        ofExcept (tokenOf services approved))

end Handler

end OpenApe.Ports.ApproveEndpoint
