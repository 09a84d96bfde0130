import OpenApe.Ports.GrantReuse
import OpenApe.Ports.StandingGrants

/-!
# The request endpoint (`api/grants/index.post.ts`)

Port of the handler from its checks of the body to the standing-grant
approval, for a caller who is not a delegate: the requester of the body is
the caller's.  The hashes, the checks of summary and batch, the path of
referenced requests and what follows a miss (hooks, the similarity check, a
pending grant) are `CreateServices`.
-/

namespace OpenApe.Ports.CreateEndpoint

open Verified.JsText Verified.Programs.Program
open GrantTypes GrantStore CliPermissions Grants GrantReuse StandingGrants

/-- `createProblemError` with a built title. -/
def badRequest (title : JsString) : JsError := ⟨.http 400, title⟩

/-- What the handler leaves to others; they answer with `ρ`. -/
structure CreateServices (ρ : Type) where
  computeCmdHash : JsString → JsString
  computeArgvHash : List JsString → JsString
  /-- The `action` member of an entry of another type. -/
  actionOf : JsString → JsString
  summaryOrBatchRefused : OpenApeGrantRequest → Option JsError
  referenced : OpenApeGrantRequest → GrantProgram ρ
  undecided : OpenApeGrantRequest → GrantProgram ρ

inductive CreateResponse (ρ : Type) where
  | reused (grant : OpenApeGrant)
  | approvedAutomatically (grant : Option OpenApeGrant)
  | other (answer : ρ)

section Create

variable [Collation]

/-- One entry of `normalizeAuthorizationDetails`. -/
def normalizeDetail (entry : AuthorizationDetail) :
    Except JsError AuthorizationDetail :=
  match entry with
  | .openapeGrant detail => .ok (.openapeGrant detail)
  | .other json => .ok (.other json)
  | .openapeCli detail =>
      let errors := validateCliAuthorizationDetail detail
      if errors ≠ [] then
        .error (badRequest (js "Invalid authorization_details entry: " ++
          (js "; ").intercalate errors))
      else .ok (.openapeCli
        { detail with permission := canonicalPermission detail })

def normalizeEntries :
    List AuthorizationDetail → Except JsError (List AuthorizationDetail)
  | [] => .ok []
  | entry :: rest =>
      match normalizeDetail entry with
      | .error error => .error error
      | .ok normalized =>
          match normalizeEntries rest with
          | .error error => .error error
          | .ok others => .ok (normalized :: others)

def normalizeAuthorizationDetails
    (details : Option (List AuthorizationDetail)) :
    Except JsError (Option (List AuthorizationDetail)) :=
  match details with
  | none | some [] => .ok none
  | some (entry :: rest) => (normalizeEntries (entry :: rest)).map some

variable {ρ : Type}

/-- The permission an entry is listed with. -/
def permissionOf (services : CreateServices ρ) :
    AuthorizationDetail → JsString
  | .openapeCli detail => canonicalPermission detail
  | .openapeGrant detail => detail.action
  | .other json => services.actionOf json

/-- Why the fields of a body are refused. -/
def fieldsRefused (body : OpenApeGrantRequest) : Option JsError :=
  if body.requester.isEmpty || body.targetHost.isEmpty ||
      body.audience.isEmpty then
    some (badRequest (js
      "Missing required fields: requester, target_host, audience"))
  else if body.grantType = some .timed && !truthyNumber body.duration then
    some (badRequest (js "Duration is required for timed grants"))
  else none

/-- Whether a client set what only the IdP sets. -/
def claimsResolution (context : Option ExecutionContext) : Bool :=
  context.any (fun context => context.programSha256.isSome ||
    context.versionTested.isSome || context.adapterOwner.isSome ||
    context.adapterDomain.isSome)

/-- The execution context with the server's argv hash, and the command. -/
def withArgv (services : CreateServices ρ) (request : OpenApeGrantRequest) :
    OpenApeGrantRequest :=
  match request.executionContext with
  | none => request
  | some context =>
      match context.argv with
      | none | some [] => request
      | some (executable :: rest) =>
          { request with
            executionContext := some
              { context with
                argvHash := some
                  (services.computeArgvHash (executable :: rest))
                resolvedExecutable :=
                  if context.resolvedExecutable.isEmpty then executable
                  else context.resolvedExecutable }
            command :=
              if (request.command.getD []).isEmpty then
                some (executable :: rest)
              else request.command }

/-- The hash of the command, never the client's. -/
def withCmdHash (services : CreateServices ρ)
    (request : OpenApeGrantRequest) : OpenApeGrantRequest :=
  match request.command with
  | none | some [] => request
  | some (word :: rest) =>
      { request with
        cmdHash := some
          (services.computeCmdHash ((js " ").intercalate (word :: rest))) }

/-- The request as it is stored. -/
def prepareRequest (services : CreateServices ρ)
    (body : OpenApeGrantRequest) : Except JsError OpenApeGrantRequest :=
  match fieldsRefused body with
  | some error => .error error
  | none =>
      let body := { body with
        submittedBy := none
        grantType := some body.grantTypeOrOnce }
      match services.summaryOrBatchRefused body with
      | some error => .error error
      | none =>
          match normalizeAuthorizationDetails body.authorizationDetails with
          | .error error => .error error
          | .ok details =>
              if claimsResolution body.executionContext then
                .error (badRequest (js
                  "execution_context.program_sha256, version_tested, adapter_owner and adapter_domain are set by the IdP; use POST /api/grants/authorize"))
              else .ok (withCmdHash services (withArgv services
                { body with
                  authorizationDetails := details
                  permissions :=
                    match details with
                    | none => body.permissions
                    | some entries =>
                        some (entries.map (permissionOf services)) }))

/-- The automatic approval by a standing grant. -/
def approveByStandingGrant (request : OpenApeGrantRequest)
    (standingMatch : StandingGrantMatch) :
    GrantProgram (Option OpenApeGrant) := do
  let pendingGrant ← createGrant {} request
  let now ← nowSeconds
  let standing ← findById standingMatch.standingGrantId
  updateStatus pendingGrant.id .approved
    { decidedAt := some now
      decidedBy := standing.bind OpenApeGrant.decidedBy
      decidedByStandingGrant := some standingMatch.standingGrantId
      autoApprovalKind := some (js "standing") }
  findById pendingGrant.id

def createEndpoint (services : CreateServices ρ)
    (detailSignature : AuthorizationDetail → JsString)
    (body : OpenApeGrantRequest) : GrantProgram (CreateResponse ρ) := do
  let request ← ofExcept (prepareRequest services body)
  if request.reference.isSome then
    CreateResponse.other <$> services.referenced request
  else do
    let existing ← storeCall (.findByRequester request.requester)
    let now ← nowSeconds
    match findReusableGrant detailSignature existing request none now with
    | some grant => pure (.reused grant)
    | none =>
        match ← evaluateStandingGrants request with
        | some standingMatch =>
            CreateResponse.approvedAutomatically <$>
              approveByStandingGrant request standingMatch
        | none => CreateResponse.other <$> services.undecided request

end Create

end OpenApe.Ports.CreateEndpoint
