import OpenApe.Ports.Grants

/-!
# Standing grants (`packages/grants/src/standing-grants.ts`)

A standing grant is a pattern its owner approved in advance for the requests
of one delegate.  `evaluateStandingGrants` looks for patterns that together
cover the CLI details of an incoming request.
-/

namespace OpenApe.Ports.StandingGrants

open Verified.JsText Verified.Programs
open GrantTypes GrantStore CliPermissions Grants

/-- What the evaluation reads of a stored request of `type: 'standing'`. -/
structure StandingGrantRequest where
  delegate : JsString
  audience : JsString
  targetHost : JsString
  cliId : Option JsString
  resourceChainTemplate : List CliResourceRef
  action : Option JsString
  maxRisk : Option RiskLevel
  reason : Option JsString
  deriving DecidableEq

/-- The standing request, when `isStandingGrantRequest` holds. -/
def standingGrantRequest? (request : OpenApeGrantRequest) :
    Option StandingGrantRequest :=
  match request.standing, request.delegate with
  | some pattern, some delegate => some
      { delegate := delegate
        audience := request.audience
        targetHost := request.targetHost
        cliId := pattern.cliId
        resourceChainTemplate := pattern.resourceChainTemplate
        action := pattern.action
        maxRisk := pattern.maxRisk
        reason := request.reason }
  | _, _ => none

structure StandingGrantMatch where
  standingGrantId : JsString
  derivedAuthorizationDetails : List CliAuthorizationDetail
  deriving DecidableEq

/-- `RISK_ORDER` -/
def riskOrder : RiskLevel → Nat
  | .low => 0
  | .medium => 1
  | .high => 2
  | .critical => 3

/-- Whether a standing grant of the requester applies to the request. -/
def applicable (incoming : OpenApeGrantRequest) (now : Int)
    (grant : OpenApeGrant) : Option StandingGrantRequest :=
  if grant.status ≠ .approved then none
  else
    match standingGrantRequest? grant.request with
    | none => none
    | some req =>
        if req.delegate ≠ incoming.requester then none
        else if req.audience ≠ incoming.audience then none
        else if !req.targetHost.isEmpty && req.targetHost ≠ js "*" &&
            req.targetHost ≠ incoming.targetHost then none
        else if grant.expiresAt.any (fun expiresAt =>
            expiresAt != 0 && expiresAt < now) then none
        else some req

theorem applicable_eq_some {incoming : OpenApeGrantRequest} {now : Int}
    {grant : OpenApeGrant} {req : StandingGrantRequest}
    (h : applicable incoming now grant = some req) :
    grant.status = .approved ∧
      standingGrantRequest? grant.request = some req ∧
      req.delegate = incoming.requester ∧ req.audience = incoming.audience ∧
      (req.targetHost = [] ∨ req.targetHost = js "*" ∨
        req.targetHost = incoming.targetHost) := by
  unfold applicable at h
  by_cases hStatus : grant.status = .approved
  · cases hReq : standingGrantRequest? grant.request with
    | none => simp [hStatus, hReq] at h
    | some found =>
        simp only [hStatus, hReq, ne_eq, not_true_eq_false, if_false] at h
        split_ifs at h with hDelegate hAudience hHost hExpired
        obtain rfl := Option.some.inj h
        refine ⟨hStatus, rfl, by simpa using hDelegate,
          by simpa using hAudience, ?_⟩
        by_contra hNone
        simp only [not_or] at hNone
        simp [hNone] at hHost
  · simp [hStatus] at h

section Evaluation

variable [Collation]

/-- The pattern as a granted detail. -/
def buildCoverageDetailFromStandingGrant (req : StandingGrantRequest)
    (incoming : CliAuthorizationDetail) : CliAuthorizationDetail :=
  let cliId := req.cliId.getD incoming.cliId
  let action := req.action.getD incoming.action
  { cliId := cliId
    operationId := incoming.operationId
    resourceChain := req.resourceChainTemplate
    action := action
    permission :=
      canonicalizeCliPermission cliId req.resourceChainTemplate action
    display := req.reason.getD (js "standing:" ++ req.delegate)
    risk := req.maxRisk.getD .critical }

/-- Whether a pattern covers one incoming detail. -/
def coversDetail (req : StandingGrantRequest)
    (incoming : CliAuthorizationDetail) : Bool :=
  if truthy req.cliId && req.cliId ≠ some incoming.cliId then false
  else if truthy req.action && req.action ≠ some incoming.action then false
  else if req.maxRisk.any (fun cap =>
      riskOrder cap < riskOrder incoming.risk) then false
  else cliAuthorizationDetailCovers
    (buildCoverageDetailFromStandingGrant req incoming) incoming

/-- The loop over the incoming details: the id of the pattern that covers the
first one, or nothing where some detail is covered by none. -/
def coverAll (candidates : List (JsString × StandingGrantRequest))
    (primaryId : Option JsString) :
    List CliAuthorizationDetail → Option (Option JsString)
  | [] => some primaryId
  | incomingDetail :: rest =>
      match candidates.find? (fun candidate =>
          coversDetail candidate.2 incomingDetail) with
      | none => none
      | some coverer => coverAll candidates (primaryId <|> some coverer.1) rest

/-- The evaluation on the grants of the requester. -/
def matchStandingGrants (incoming : OpenApeGrantRequest)
    (candidates : List OpenApeGrant) (now : Int) :
    Option StandingGrantMatch :=
  let incomingCli := cliDetails incoming.authorizationDetails
  let applicants := candidates.filterMap (fun grant =>
    (applicable incoming now grant).map (fun req => (grant.id, req)))
  if incomingCli.isEmpty then none
  else if applicants.isEmpty then none
  else (coverAll applicants none incomingCli).map (fun primaryId =>
    { standingGrantId := primaryId.getD []
      derivedAuthorizationDetails := incomingCli })

def evaluateStandingGrants (incoming : OpenApeGrantRequest) :
    GrantProgram (Option StandingGrantMatch) :=
  if (cliDetails incoming.authorizationDetails).isEmpty then pure none
  else do
    let candidates ← storeCall (.findByRequester incoming.requester)
    let now ← nowSeconds
    pure (matchStandingGrants incoming candidates now)

theorem guarantees_evaluateStandingGrants
    {rely : (call : GrantStoreCall) → Except JsError call.Reply → Prop}
    {calls : GrantStoreCall → Prop} (hRead : ∀ call, IsRead call → calls call)
    (incoming : OpenApeGrantRequest) :
    @Program.Guarantees grantStore JsError _ rely calls (fun _ => True)
      (evaluateStandingGrants incoming) := by
  unfold evaluateStandingGrants
  split
  · exact Program.guarantees_pure trivial
  · refine Program.guarantees_perform_bind (hRead _ trivial) (fun _ _ => ?_)
    refine Program.guarantees_perform_bind (hRead _ trivial) (fun _ _ => ?_)
    exact Program.guarantees_pure trivial

/-! ## What a match says -/

/-- Some applicable pattern among the grants covers the detail. -/
def Covered (incoming : OpenApeGrantRequest) (candidates : List OpenApeGrant)
    (now : Int) (detail : CliAuthorizationDetail) : Prop :=
  ∃ grant ∈ candidates, ∃ req,
    applicable incoming now grant = some req ∧ coversDetail req detail = true

theorem coverAll_isSome_iff
    (candidates : List (JsString × StandingGrantRequest))
    (primaryId : Option JsString) (details : List CliAuthorizationDetail) :
    (coverAll candidates primaryId details).isSome = true ↔
      ∀ detail ∈ details, ∃ candidate ∈ candidates,
        coversDetail candidate.2 detail = true := by
  induction details generalizing primaryId with
  | nil => simp [coverAll]
  | cons detail rest ih =>
      unfold coverAll
      cases hFound : candidates.find? (fun candidate =>
          coversDetail candidate.2 detail) with
      | none =>
          have hNone := List.find?_eq_none.mp hFound
          simp only [Option.isSome_none, Bool.false_eq_true, false_iff]
          intro hAll
          obtain ⟨candidate, hMem, hCovers⟩ :=
            hAll detail List.mem_cons_self
          exact hNone candidate hMem hCovers
      | some coverer =>
          simp only [ih, List.forall_mem_cons]
          refine (and_iff_right ?_).symm
          have hCovers := List.find?_some hFound
          exact ⟨coverer, List.mem_of_find?_eq_some hFound, hCovers⟩

/-- **What a match proves**: there are CLI details, and each of them is
covered by a pattern. -/
theorem matchStandingGrants_isSome_iff (incoming : OpenApeGrantRequest)
    (candidates : List OpenApeGrant) (now : Int) :
    (matchStandingGrants incoming candidates now).isSome = true ↔
      cliDetails incoming.authorizationDetails ≠ [] ∧
      ∀ detail ∈ cliDetails incoming.authorizationDetails,
        Covered incoming candidates now detail := by
  have hCandidates : ∀ detail, (∃ candidate ∈ candidates.filterMap
      (fun grant => (applicable incoming now grant).map
        (fun req => (grant.id, req))),
      coversDetail candidate.2 detail = true) ↔
      Covered incoming candidates now detail := by
    intro detail
    simp only [List.mem_filterMap, Option.map_eq_some_iff]
    constructor
    · rintro ⟨_, ⟨grant, hGrant, req, hReq, rfl⟩, hCovers⟩
      exact ⟨grant, hGrant, req, hReq, hCovers⟩
    · rintro ⟨grant, hGrant, req, hReq, hCovers⟩
      exact ⟨_, ⟨grant, hGrant, req, hReq, rfl⟩, hCovers⟩
  simp only [matchStandingGrants, List.isEmpty_iff]
  split
  · rename_i hEmpty
    simp [hEmpty]
  · rename_i hSome
    split
    · rename_i hNone
      obtain ⟨detail, rest, hDetails⟩ := List.exists_cons_of_ne_nil hSome
      simp only [Option.isSome_none, Bool.false_eq_true, false_iff, not_and,
        not_forall]
      refine fun _ => ⟨detail, by rw [hDetails]; exact List.mem_cons_self, ?_⟩
      rw [← hCandidates, hNone]
      simp
    · rw [Option.isSome_map, coverAll_isSome_iff]
      simp only [hCandidates, ne_eq, hSome, not_false_eq_true, true_and]

/-- The grant stands for the detail, within every limit of its pattern. -/
structure StandsFor (grant : OpenApeGrant) (req : StandingGrantRequest)
    (incoming : OpenApeGrantRequest) (detail : CliAuthorizationDetail) :
    Prop where
  approved : grant.status = .approved
  standing : standingGrantRequest? grant.request = some req
  delegate : req.delegate = incoming.requester
  audience : req.audience = incoming.audience
  targetHost : req.targetHost = [] ∨ req.targetHost = js "*" ∨
    req.targetHost = incoming.targetHost
  cliId : truthy req.cliId = true → req.cliId = some detail.cliId
  action : truthy req.action = true → req.action = some detail.action
  maxRisk : ∀ cap, req.maxRisk = some cap →
    riskOrder detail.risk ≤ riskOrder cap
  covers : cliAuthorizationDetailCovers
    (buildCoverageDetailFromStandingGrant req detail) detail = true

theorem standsFor_of_covered {incoming : OpenApeGrantRequest} {now : Int}
    {grant : OpenApeGrant} {req : StandingGrantRequest}
    {detail : CliAuthorizationDetail}
    (hApplies : applicable incoming now grant = some req)
    (hCovers : coversDetail req detail = true) :
    StandsFor grant req incoming detail := by
  obtain ⟨hStatus, hReq, hDelegate, hAudience, hHost⟩ :=
    applicable_eq_some hApplies
  unfold coversDetail at hCovers
  split_ifs at hCovers with hCli hAction hRisk
  refine ⟨hStatus, hReq, hDelegate, hAudience, hHost, ?_, ?_, ?_, hCovers⟩
  · simpa using hCli
  · simpa using hAction
  · intro cap hCap
    simpa [hCap] using hRisk

end Evaluation

end OpenApe.Ports.StandingGrants
