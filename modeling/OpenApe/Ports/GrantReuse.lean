import OpenApe.Ports.Grants

/-!
# Reusing and finding approvals (`utils/grant-reuse.ts`)

Which approved grant answers a new request (`findReusableGrant`) or a program
call the IdP resolved itself (`findCoveringGrant`).  `now` is the clock
reading in seconds each function takes at its start.  Entries of
`authorization_details` that are no CLI details are compared by their JSON
text, which is the parameter `detailSignature`.
-/

namespace OpenApe.Ports.GrantReuse

open Verified.JsText
open GrantTypes CliPermissions

/-- `GENERIC_OPERATION_ID` -/
def genericOperationId : JsString := js "_generic.exec"

/-- `expires_at && expires_at <= now` -/
def outlived (expiresAt : Option Int) (now : Int) : Bool :=
  expiresAt.any (fun expiresAt => expiresAt != 0 && expiresAt ≤ now)

/-- `list.toSorted().join(',')` -/
def sortedText (texts : List JsString) : JsString :=
  (js ",").intercalate (texts.insertionSort (fun a b => a ≤ b))

def hasExactStructuredDetail (request : OpenApeGrantRequest) : Bool :=
  (coverableCliDetails request.authorizationDetails).any
    isCliAuthorizationDetailExact

/-- The argv hash of a request's execution context. -/
def argvHashOf (request : OpenApeGrantRequest) : Option JsString :=
  request.executionContext.bind ExecutionContext.argvHash

/-- `context?.adapter_digest ?? undefined` -/
def adapterDigestOf (request : OpenApeGrantRequest) : Option JsString :=
  request.executionContext.map ExecutionContext.adapterDigest

section Reuse

variable [Collation]

/-- The comparison of two requests without CLI details. -/
def sameExactCommand (detailSignature : AuthorizationDetail → JsString)
    (granted request : OpenApeGrantRequest) : Bool :=
  if (truthy request.cmdHash || truthy granted.cmdHash) &&
      granted.cmdHash ≠ request.cmdHash then false
  else if (request.permissions.isSome || granted.permissions.isSome) &&
      sortedText (request.permissions.getD []) ≠
        sortedText (granted.permissions.getD []) then false
  else if (request.authorizationDetails.isSome ||
        granted.authorizationDetails.isSome) &&
      sortedText ((request.authorizationDetails.getD []).map
          detailSignature) ≠
        sortedText ((granted.authorizationDetails.getD []).map
          detailSignature) then false
  else true

/-- Whether an approved grant answers a request. -/
def reusable (detailSignature : AuthorizationDetail → JsString)
    (grant : OpenApeGrant) (request : OpenApeGrantRequest)
    (brokered : Option BrokeredGrant) (now : Int) : Bool :=
  let incoming := coverableCliDetails request.authorizationDetails
  let existing := coverableCliDetails grant.request.authorizationDetails
  if grant.status ≠ .approved then false
  else if (shapeTierFacts grant.request.executionContext).scoped then false
  else if grant.request.grantTypeOrOnce = .once then false
  else if outlived grant.expiresAt now then false
  else if !sameBrokeredGrant grant.brokered brokered then false
  else if grant.request.targetHost ≠ request.targetHost then false
  else if grant.request.audience ≠ request.audience then false
  else if grant.request.runAs ≠ request.runAs then false
  else if request.delegator ≠ grant.request.delegator then false
  else if request.delegate ≠ grant.request.delegate then false
  else if !incoming.isEmpty || !existing.isEmpty then
    if incoming.isEmpty || existing.isEmpty then false
    else if adapterDigestOf grant.request ≠ adapterDigestOf request then false
    else if !cliAuthorizationDetailsCover existing incoming then false
    else if (hasExactStructuredDetail request ||
          hasExactStructuredDetail grant.request) &&
        argvHashOf grant.request ≠ argvHashOf request then false
    else true
  else sameExactCommand detailSignature grant.request request

def findReusableGrant (detailSignature : AuthorizationDetail → JsString)
    (existing : List OpenApeGrant) (request : OpenApeGrantRequest)
    (brokered : Option BrokeredGrant) (now : Int) : Option OpenApeGrant :=
  existing.find? (fun grant =>
    reusable detailSignature grant request brokered now)

end Reuse

/-! ## Program calls -/

/-- One program call the IdP resolved itself. -/
structure ProgramCallScope where
  targetHost : JsString
  audience : JsString
  detail : CliAuthorizationDetail
  argvHash : JsString
  programSha256 : JsString
  requiresOnce : Bool := false
  files : Option (List ExecutionFile) := none
  adapterOwner : Option JsString := none
  adapterDomain : Option JsString := none
  adapterDigest : Option JsString := none
  deriving DecidableEq

/-- The shape that resolved a call. -/
def ProgramCallScope.shapeTier (call : ProgramCallScope) : ShapeTierFacts where
  adapterOwner := call.adapterOwner
  adapterDomain := call.adapterDomain
  adapterDigest := call.adapterDigest

def commandGrantFor (grant : OpenApeGrant) (call : ProgramCallScope)
    (brokered : Option BrokeredGrant) : Bool :=
  if grant.type.getD .command ≠ .command then false
  else if !sameBrokeredGrant grant.brokered brokered then false
  else if grant.request.targetHost ≠ call.targetHost ||
      grant.request.audience ≠ call.audience then false
  else !truthy grant.request.runAs && !truthy grant.request.delegator &&
    !truthy grant.request.delegate

/-- The files of a request's execution context. -/
def filesOf (request : OpenApeGrantRequest) : List ExecutionFile :=
  (request.executionContext.bind ExecutionContext.files).getD []

/-- Whether the program file is the approved one, where one is recorded. -/
def bindsProgram (request : OpenApeGrantRequest) (call : ProgramCallScope) :
    Bool :=
  let programSha256 :=
    request.executionContext.bind ExecutionContext.programSha256
  !(call.detail.operationId = genericOperationId && truthy programSha256 &&
    programSha256 ≠ some call.programSha256)

def bindsCall (grant : OpenApeGrant) (call : ProgramCallScope) : Bool :=
  if call.requiresOnce && (grant.request.grantTypeOrOnce ≠ .once ||
      truthy grant.autoApprovalKind ||
      truthy grant.decidedByStandingGrant) then false
  else if filesOf grant.request ≠ call.files.getD [] then false
  else if call.requiresOnce &&
      argvHashOf grant.request ≠ some call.argvHash then false
  else if (isCliAuthorizationDetailExact call.detail ||
        hasExactStructuredDetail grant.request) &&
      argvHashOf grant.request ≠ some call.argvHash then false
  else if !bindsProgram grant.request call then false
  else sameShapeTier (shapeTierFacts grant.request.executionContext)
    call.shapeTier

/-- What binds a call to a continuing grant. -/
theorem bindsCall_iff_of_continuing {grant : OpenApeGrant}
    (h : grant.request.grantTypeOrOnce ≠ .once) (call : ProgramCallScope) :
    bindsCall grant call = true ↔
      call.requiresOnce = false ∧
      filesOf grant.request = call.files.getD [] ∧
      (isCliAuthorizationDetailExact call.detail = true ∨
          hasExactStructuredDetail grant.request = true →
        argvHashOf grant.request = some call.argvHash) ∧
      bindsProgram grant.request call = true ∧
      sameShapeTier (shapeTierFacts grant.request.executionContext)
        call.shapeTier = true := by
  unfold bindsCall
  cases call.requiresOnce with
  | true => simp [h]
  | false =>
      simp only [Bool.false_and, Bool.false_eq_true, if_false, true_and,
        ne_eq, decide_not, Bool.not_eq_true', ite_not, Bool.and_eq_true,
        Bool.or_eq_true]
      split_ifs <;> simp_all

section Covering

variable [Collation]

/-- Whether an approved grant covers a call. -/
def coversCall (grant : OpenApeGrant) (call : ProgramCallScope)
    (brokered : Option BrokeredGrant) (now : Int) : Bool :=
  if grant.status ≠ .approved || outlived grant.expiresAt now then false
  else if !commandGrantFor grant call brokered then false
  else
    let granted := coverableCliDetails grant.request.authorizationDetails
    !granted.isEmpty && cliAuthorizationDetailsCover granted [call.detail] &&
      bindsCall grant call

theorem coversCall_iff (grant : OpenApeGrant) (call : ProgramCallScope)
    (brokered : Option BrokeredGrant) (now : Int) :
    coversCall grant call brokered now = true ↔
      grant.status = .approved ∧ outlived grant.expiresAt now = false ∧
      commandGrantFor grant call brokered = true ∧
      cliAuthorizationDetailsCover
        (coverableCliDetails grant.request.authorizationDetails)
        [call.detail] = true ∧
      bindsCall grant call = true := by
  have hNonempty : cliAuthorizationDetailsCover
      (coverableCliDetails grant.request.authorizationDetails)
      [call.detail] = true →
      (coverableCliDetails
        grant.request.authorizationDetails).isEmpty = false := by
    intro hCover
    cases hDetails : coverableCliDetails
        grant.request.authorizationDetails with
    | nil =>
        rw [hDetails] at hCover
        simp [cliAuthorizationDetailsCover] at hCover
    | cons detail rest => rfl
  unfold coversCall
  by_cases hStatus : grant.status = .approved <;>
    cases hExpired : outlived grant.expiresAt now <;>
    cases hCommand : commandGrantFor grant call brokered <;>
    simp [hStatus]
  intro _ hCover
  simpa using hNonempty hCover

/-- Continuing grants are preferred. -/
def findCoveringGrant (existing : List OpenApeGrant) (call : ProgramCallScope)
    (brokered : Option BrokeredGrant) (now : Int) : Option OpenApeGrant :=
  let covering := existing.filter (fun grant =>
    coversCall grant call brokered now)
  covering.find? (fun grant => grant.request.grantTypeOrOnce ≠ .once) <|>
    covering.head?

theorem mem_of_findCoveringGrant {existing : List OpenApeGrant}
    {call : ProgramCallScope} {brokered : Option BrokeredGrant} {now : Int}
    {grant : OpenApeGrant}
    (h : findCoveringGrant existing call brokered now = some grant) :
    grant ∈ existing ∧ coversCall grant call brokered now = true := by
  have hFilter : ∀ found ∈ existing.filter (fun grant =>
      coversCall grant call brokered now),
      found ∈ existing ∧ coversCall found call brokered now = true :=
    fun found hFound => List.mem_filter.mp hFound
  refine hFilter grant ?_
  simp only [findCoveringGrant, Option.orElse_eq_orElse, Option.orElse_eq_or,
    Option.or_eq_some_iff] at h
  rcases h with hContinuing | ⟨_, hFirst⟩
  · exact List.mem_of_find?_eq_some hContinuing
  · exact List.mem_of_mem_head? hFirst

/-- Some grant is found exactly when some grant covers the call. -/
theorem findCoveringGrant_isSome_iff (existing : List OpenApeGrant)
    (call : ProgramCallScope) (brokered : Option BrokeredGrant) (now : Int) :
    (findCoveringGrant existing call brokered now).isSome = true ↔
      ∃ grant ∈ existing, coversCall grant call brokered now = true := by
  constructor
  · intro h
    obtain ⟨grant, hGrant⟩ := Option.isSome_iff_exists.mp h
    exact ⟨grant, mem_of_findCoveringGrant hGrant⟩
  · rintro ⟨grant, hMem, hCovers⟩
    have hFiltered : grant ∈ existing.filter (fun grant =>
        coversCall grant call brokered now) :=
      List.mem_filter.mpr ⟨hMem, hCovers⟩
    have hHead : (existing.filter (fun grant =>
        coversCall grant call brokered now)).head?.isSome = true := by
      simpa using List.ne_nil_of_mem hFiltered
    simp only [findCoveringGrant, Option.orElse_eq_orElse,
      Option.orElse_eq_or, Option.isSome_or, hHead, Bool.or_true]

end Covering

/-! ## The newest request -/

section Latest

variable [Collation]

/-- `Object.entries(selector ?? {})` by key; the text is JSON. -/
def selectorKey (selector : Option Record) : List (JsString × JsString) :=
  match selector with
  | none => []
  | some selector => sortByKey selector.entries

/-- Same CLI, operation, action and resource chain. -/
def sameDetail (a b : CliAuthorizationDetail) : Bool :=
  a.cliId = b.cliId && a.operationId = b.operationId &&
    a.action = b.action &&
    a.resourceChain.map (fun r => (r.resource, selectorKey r.selector)) =
      b.resourceChain.map (fun r => (r.resource, selectorKey r.selector))

/-- Whether a grant was requested for exactly this call. -/
def requestedFor (call : ProgramCallScope) (brokered : Option BrokeredGrant)
    (grant : OpenApeGrant) : Bool :=
  commandGrantFor grant call brokered &&
    (coverableCliDetails grant.request.authorizationDetails).any
      (fun detail => sameDetail detail call.detail) &&
    bindsCall grant call

/-- The newest request for exactly this call. -/
def findLatestRequest (existing : List OpenApeGrant)
    (call : ProgramCallScope) (brokered : Option BrokeredGrant) :
    Option OpenApeGrant :=
  ((existing.filter (requestedFor call brokered)).insertionSort
    (fun a b => b.createdAt ≤ a.createdAt)).head?

end Latest

end OpenApe.Ports.GrantReuse
