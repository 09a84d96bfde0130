import OpenApe.Ports.Grants

/-!
# Extending and widening a grant (`packages/grants/src/grants.ts`)

Both operations rewrite the pending request before they approve it:
`approveGrantWithExtension` joins its details with those of other grants,
which it revokes, and `approveGrantWithWidening` takes wider details from the
approver.  The checks of one extended grant and of one widened detail are
the functions `extendRefused` and `normalizeWidened`.
-/

namespace OpenApe.Ports.GrantsExtension

open Verified.JsText Verified.Programs.Program
open GrantTypes GrantStore CliPermissions Grants

variable [Collation]

def cannotBeWidened : JsError :=
  plainError (js
    "This operation requires one exact single-use approval and cannot be widened")

/-- `ApproveGrantOverrides` with the extension fields required. -/
structure ExtensionOverrides where
  grantType : Option GrantType := none
  duration : Option Int := none
  extendMode : ExtendMode
  extendGrantIds : List JsString
  deriving DecidableEq

/-- What the final approval gets of the overrides. -/
def ExtensionOverrides.approval (overrides : ExtensionOverrides) :
    ApproveGrantOverrides where
  grantType := overrides.grantType
  duration := overrides.duration

/-! ## Extension -/

/-- Why a grant cannot be joined with the pending one. -/
def extendRefused (pending old : OpenApeGrant) : Option JsError :=
  if old.status ≠ .approved then
    some (plainError (js "Extend grant is not approved: " ++ old.status.text))
  else if old.request.targetHost ≠ pending.request.targetHost then
    some (plainError (js "Extend grant target_host mismatch"))
  else if old.request.audience ≠ pending.request.audience then
    some (plainError (js "Extend grant audience mismatch"))
  else if !sameShapeTier (shapeTierFacts old.request.executionContext)
      (shapeTierFacts pending.request.executionContext) then
    some (plainError (js
      "Extend grant was resolved with another shape; personal and domain shape grants extend only grants of the same shape version"))
  else none

/-- The loop over `extend_grant_ids`. -/
def collectExtended (pending : OpenApeGrant) :
    List JsString → GrantProgram (List OpenApeGrant)
  | [] => pure []
  | oldId :: rest => do
      match ← findById oldId with
      | none => fail (plainError (js "Extend grant not found: " ++ oldId))
      | some old =>
          match extendRefused pending old with
          | some error => fail error
          | none =>
              let others ← collectExtended pending rest
              pure (old :: others)

/-- The details that are joined, in order, before duplicates are dropped. -/
def joinedDetails (mode : ExtendMode) (pending : OpenApeGrant)
    (oldGrants : List OpenApeGrant) : List CliAuthorizationDetail :=
  let pendingCliDetails := cliDetails pending.request.authorizationDetails
  let allOldDetails := oldGrants.flatMap (fun old =>
    cliDetails old.request.authorizationDetails)
  match mode with
  | .widen =>
      pendingCliDetails ++ allOldDetails.flatMap (fun existing =>
        (pendingCliDetails.filter
          (cliAuthorizationDetailIsSimilar existing)).map
            (widenCliAuthorizationDetail existing))
  | .merge => pendingCliDetails ++ allOldDetails

/-- The details of the extended grant. -/
def extendedDetails (mode : ExtendMode) (pending : OpenApeGrant)
    (oldGrants : List OpenApeGrant) : List CliAuthorizationDetail :=
  match mode with
  | .widen => mergeCliAuthorizationDetails
      [joinedDetails .widen pending oldGrants]
  | .merge => mergeCliAuthorizationDetails
      (cliDetails pending.request.authorizationDetails ::
        oldGrants.map (fun old =>
          cliDetails old.request.authorizationDetails))

/-- The pending request with the joined details. -/
def extendedRequest (mode : ExtendMode) (pending : OpenApeGrant)
    (oldGrants : List OpenApeGrant) : OpenApeGrantRequest :=
  let newDetails := extendedDetails mode pending oldGrants
  let request :=
    { pending.request with
      authorizationDetails := some (newDetails.map .openapeCli)
      permissions := some (newDetails.map canonicalPermission) }
  match mode with
  | .widen => { request with command := none, cmdHash := none }
  | .merge => request

/-- `for (const old of oldGrants) await revokeGrant(old.id, store)` -/
def revokeAll : List OpenApeGrant → GrantProgram Unit
  | [] => pure ()
  | old :: rest => do
      let _ ← revokeGrant old.id
      revokeAll rest

def approveGrantWithExtension (grantId approver : JsString)
    (overrides : ExtensionOverrides) :
    GrantProgram (Option OpenApeGrant) := do
  match ← findById grantId with
  | none => fail (grantNotFound grantId)
  | some pending =>
      throwIf (pending.status ≠ .pending) (grantNotPending pending.status)
      throwIf (truthy pending.request.reference ||
        singleUse pending.request.authorizationDetails) cannotBeWidened
      let oldGrants ← collectExtended pending overrides.extendGrantIds
      updateStatus grantId .pending
        { request :=
            some (extendedRequest overrides.extendMode pending oldGrants) }
      revokeAll oldGrants
      approveGrant grantId approver (some overrides.approval)

/-! ## Widening -/

def widenedError (idx : Nat) (message : JsString) : JsError :=
  plainError (js "widened_details[" ++ js (toString idx) ++ js "]: " ++
    message)

/-- Whether widening removed a selector of the original. -/
def selectorRemoved (original widened : CliAuthorizationDetail) : Bool :=
  original.resourceChain.mapIdx (fun i ref =>
    ref.selector.isSome &&
      (widened.resourceChain[i]?.bind CliResourceRef.selector).isNone)
    |>.any id

/-- The original detail with the selectors of the widened one. -/
def normalizedDetail (original widened : CliAuthorizationDetail) :
    CliAuthorizationDetail :=
  { original with
    resourceChain := widened.resourceChain
    permission := canonicalPermission widened
    display :=
      if widened.display.isEmpty then original.display else widened.display
    constraints :=
      if selectorRemoved original widened then none
      else original.constraints }

/-- Checks a widened detail against the original at its index. -/
def normalizeWidened (idx : Nat) (original : CliAuthorizationDetail)
    (widened : AuthorizationDetail) :
    Except JsError CliAuthorizationDetail :=
  match widened with
  | .openapeGrant _ | .other _ =>
      .error (widenedError idx (js "type must be 'openape_cli'"))
  | .openapeCli widened =>
      if widened.cliId ≠ original.cliId then
        .error (widenedError idx
          (js "cli_id mismatch (expected " ++ original.cliId ++ js ")"))
      else if widened.action ≠ original.action then
        .error (widenedError idx
          (js "action mismatch (expected " ++ original.action ++ js ")"))
      else if widened.operationId ≠ original.operationId then
        .error (widenedError idx
          (js "operation_id mismatch (expected " ++ original.operationId ++
            js ")"))
      else if !resourceChainsStructurallyMatch widened.resourceChain
          original.resourceChain then
        .error (widenedError idx (js "resource_chain structure mismatch"))
      else if !cliAuthorizationDetailCovers widened original then
        .error (widenedError idx
          (js "does not cover original — not a valid widening"))
      else .ok (normalizedDetail original widened)

/-- `widenedDetails.map(…)` from index `idx` on; the lists are equally
long. -/
def normalizeAll (idx : Nat) :
    List CliAuthorizationDetail → List AuthorizationDetail →
      Except JsError (List CliAuthorizationDetail)
  | original :: originals, widened :: widenedDetails =>
      match normalizeWidened idx original widened with
      | .error error => .error error
      | .ok normalized =>
          match normalizeAll (idx + 1) originals widenedDetails with
          | .error error => .error error
          | .ok rest => .ok (normalized :: rest)
  | _, _ => .ok []

/-- The checks of the widened details. -/
def widenedDetailsOf (pending : OpenApeGrant)
    (widenedDetails : List AuthorizationDetail) :
    Except JsError (List CliAuthorizationDetail) :=
  let originalDetails := cliDetails pending.request.authorizationDetails
  if originalDetails.length = 0 then
    .error (plainError
      (js "Grant has no CLI authorization details to widen"))
  else if widenedDetails.length ≠ originalDetails.length then
    .error (plainError (js "widened_details length mismatch: expected " ++
      js (toString originalDetails.length) ++ js ", got " ++
      js (toString widenedDetails.length)))
  else normalizeAll 0 originalDetails widenedDetails

/-- The pending request with the widened details. -/
def widenedRequest (pending : OpenApeGrant)
    (normalized : List CliAuthorizationDetail) : OpenApeGrantRequest :=
  { pending.request with
    authorizationDetails := some (normalized.map .openapeCli)
    permissions := some (normalized.map CliAuthorizationDetail.permission)
    command := none
    cmdHash := none }

def approveGrantWithWidening (grantId approver : JsString)
    (widenedDetails : List AuthorizationDetail)
    (overrides : Option ApproveGrantOverrides) :
    GrantProgram (Option OpenApeGrant) := do
  match ← findById grantId with
  | none => fail (grantNotFound grantId)
  | some pending =>
      throwIf (pending.status ≠ .pending) (grantNotPending pending.status)
      throwIf (truthy pending.request.reference ||
        singleUse pending.request.authorizationDetails) cannotBeWidened
      match widenedDetailsOf pending widenedDetails with
      | .error error => fail error
      | .ok normalized =>
          updateStatus grantId .pending
            { request := some (widenedRequest pending normalized) }
          approveGrant grantId approver overrides

end OpenApe.Ports.GrantsExtension
