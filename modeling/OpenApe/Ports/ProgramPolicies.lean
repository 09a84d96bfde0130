import OpenApe.Ports.GrantsMemory
import OpenApe.Ports.ProgramAuthorize

/-!
# Decision policies of the registry

A shape may declare for an operation that it never executes, or only with one
exact human decision.  The first result says what a resolved call of such a
shape is: an operation of the shape that is not denied.  The second follows a
call that requires one decision through `decideProgramCall`: the calls the
handler makes add no approval, so the token is for a grant that was approved
before, and that grant binds the call.
-/

namespace OpenApe.Ports.ProgramPolicies

open Verified Verified.JsText Verified.KeyedTable Verified.Programs.Program
open GrantTypes GrantReference GrantStore Grants GrantsMemory GrantReuse
  GrantRequests ShapeMatcher ShapeTiers ProgramAuthorization ProgramAuthorize

/-! ## Resolution -/

section Resolution

variable [Collation] {digest : JsString → List UInt8} {store : ShapeStore}

/-- The shapes of a store declare every operation id once. -/
def DistinctOperationIds (store : ShapeStore) : Prop :=
  ∀ shape ∈ store.rows,
    (shape.operations.map ShapeMatchOperation.id).Nodup

/-- The constraints of a call that one exact decision allows. -/
def exactSingleUse : CliConstraints where
  exactCommand := some true
  singleUse := some true

/-- The call was read by an operation of the shape that is not denied. -/
structure PolicyKept (shape : ServerShape) (operation : ShapeMatchOperation)
    (request : OpenApeProgramAuthorizeRequest)
    (call : ResolvedProgramCall) : Prop where
  declared : operation ∈ shape.operations
  reads : ∃ bindings,
    ReadsAs shape operation bindings request.argv call.detail
  /-- The context names the shape, as that of the fallback never does. -/
  noFallback : call.executionContext.adapterVersion = js "server"
  allowed : operation.decision ≠ some .deny
  once : operation.decision = some .once →
    call.requiresOnce = true ∧ call.detail.constraints = some exactSingleUse

omit [Collation] in
/-- With distinct ids, looking an operation up by its id finds it. -/
theorem policyOperation_eq (selection : ProgramShapeSelection)
    (resolved : ServerResolvedCommand) {operation : ShapeMatchOperation}
    (hIds : (selection.shape.operations.map ShapeMatchOperation.id).Nodup)
    (hMem : operation ∈ selection.shape.operations)
    (hId : resolved.operationId = operation.id) :
    policyOperation (some selection) (some resolved) = some operation := by
  have hFound : (⟨_, hIds⟩ : Table ShapeMatchOperation.id).find?
      operation.id = some operation := Table.find?_of_mem hMem
  simp only [policyOperation, Option.bind_some, hId]
  exact hFound

/-- **What the policies of a shape let through**: a call that resolves was
read by an operation that is not denied. -/
theorem policyKept_of_guarded {request : OpenApeProgramAuthorizeRequest}
    {call : ResolvedProgramCall} {selection : ProgramShapeSelection}
    (hIds : DistinctOperationIds store)
    (hSelection : selectProgramShape store request.program = some selection)
    (hGuarded : guarded (some selection) = true)
    (h : resolveProgramCall digest store request = .ok call) :
    ∃ operation, PolicyKept selection.shape operation request call := by
  obtain ⟨-, structured, hStructured, hPolicy, rfl⟩ :=
    resolveProgramCall_eq_ok.mp h
  rw [hSelection] at hStructured hPolicy ⊢
  obtain ⟨hNone, -⟩ | ⟨chosen, resolved, hChosen, rfl, hResolved⟩ :=
    structuredCommand_eq_ok hStructured
  · cases hNone
  cases hChosen
  have hStored := (mem_of_selectProgramShape hSelection).1
  -- Past the first test: no denied operation, and nothing synthetic.
  unfold policyRefusal at hPolicy
  dsimp only at hPolicy
  split at hPolicy
  · cases hPolicy
  rename_i hFirst
  split at hPolicy
  · cases hPolicy
  rename_i hSecond
  simp only [Bool.or_eq_true, Bool.and_eq_true, hGuarded, true_and,
    Option.any_some, Bool.not_eq_true', not_or, Bool.not_eq_false] at hFirst
  obtain ⟨hAllowed, hSynthetic, hUsable⟩ := hFirst
  rcases resolveServerShape_eq_ok hStored hResolved with
    rfl | ⟨operation, bindings, detail, hReads, rfl⟩
  · cases hSynthetic
  have hMem := (matchArgvToOperation_some hReads.selected).1
  have hOperation := policyOperation_eq selection
    (matchedCommand digest selection.shape operation bindings
      request.program.name request.argv detail) (hIds _ hStored) hMem rfl
  rw [hOperation] at hAllowed hSecond
  simp only [Option.any_some, decide_eq_true_eq] at hAllowed hSecond
  have hCommand : resolvedCommand digest (some selection)
      (some (matchedCommand digest selection.shape operation bindings
        request.program.name request.argv detail)) request =
      matchedCommand digest selection.shape operation bindings
        request.program.name request.argv detail := by
    simp [resolvedCommand, Option.filter, hUsable]
  refine ⟨operation, hMem, ⟨bindings, ?_⟩, ?_, hAllowed, fun hOnce => ⟨?_, ?_⟩⟩
  · simp only [resolvedCall, hCommand]
    exact hReads
  · simp only [resolvedCall, hCommand]
    rfl
  · simp only [resolvedCall, hOperation, Option.any_some, hOnce]
    rfl
  · have hExact : operation.exactCommand = some true := by
      by_contra hNot
      exact hSecond (by simp [hOnce, hNot])
    simp only [resolvedCall, hCommand]
    obtain ⟨-, -, hConstraints⟩ := hReads.fields
    rw [operationConstraints, if_pos hExact, if_pos hOnce] at hConstraints
    exact hConstraints

end Resolution

/-! ## Grants for one exact decision -/

/-- Nobody but a person approved the grant. -/
def NotAutomatic (grant : OpenApeGrant) : Prop :=
  truthy grant.autoApprovalKind = false ∧
    truthy grant.decidedByStandingGrant = false

/-- The grant is one exact decision for the call. -/
structure DecidedOnce (grant : OpenApeGrant) (argvHash : JsString) : Prop where
  once : grant.request.grantTypeOrOnce = .once
  sameArgv : argvHashOf grant.request = some argvHash
  byPerson : NotAutomatic grant

/-- What `bindsCall` asks of a grant for such a call. -/
theorem decidedOnce_of_bindsCall {grant : OpenApeGrant}
    {scope : ProgramCallScope} (hOnce : scope.requiresOnce = true)
    (h : bindsCall grant scope = true) : DecidedOnce grant scope.argvHash := by
  unfold bindsCall at h
  simp only [hOnce, Bool.true_and] at h
  split at h
  · cases h
  rename_i hFirst
  split at h
  · cases h
  split at h
  · cases h
  rename_i hHash
  simp only [ne_eq, Bool.or_eq_true, decide_eq_true_eq, not_or, not_not,
    Bool.not_eq_true] at hFirst hHash
  obtain ⟨⟨hType, hKind⟩, hStanding⟩ := hFirst
  exact ⟨hType, hHash, hKind, hStanding⟩

/-- The grant of a reference is for the same authority. -/
theorem decidedOnce_of_sameReference {existing candidate : OpenApeGrant}
    (hSame : assertSameReferencedGrant existing candidate = .ok ())
    (hOnce : candidate.request.grantType = some .once)
    {argvHash : JsString} (hArgv : argvHashOf candidate.request = some argvHash)
    (hPerson : NotAutomatic existing) : DecidedOnce existing argvHash := by
  unfold assertSameReferencedGrant at hSame
  split at hSame
  · cases hSame
  rename_i hEqual
  simp only [ne_eq, Bool.or_eq_true, decide_eq_true_eq, not_or, not_not]
    at hEqual
  obtain ⟨-, hBinding⟩ := hEqual
  have hType := congrArg OpenApeGrantRequest.grantType hBinding
  have hContext := congrArg argvHashOf hBinding
  have hHash : ∀ request : OpenApeGrantRequest,
      argvHashOf (grantReferenceBinding request) = argvHashOf request := by
    intro request
    unfold argvHashOf grantReferenceBinding
    cases request.executionContext <;> rfl
  rw [hHash, hHash, hArgv] at hContext
  refine ⟨?_, hContext, hPerson⟩
  rw [OpenApeGrantRequest.grantTypeOrOnce,
    show existing.request.grantType = some .once from hType.trans hOnce]
  rfl

theorem reference_eq_of_sameReference {existing candidate : OpenApeGrant}
    (hSame : assertSameReferencedGrant existing candidate = .ok ()) :
    existing.request.reference = candidate.request.reference := by
  unfold assertSameReferencedGrant at hSame
  split at hSame
  · cases hSame
  · rename_i hEqual
    simp only [ne_eq, Bool.or_eq_true, decide_eq_true_eq, not_or, not_not]
      at hEqual
    exact hEqual.1.1

/-! ## The calls of a decision -/

/-- No approval besides those of `approved`. -/
def NoNewApproval (approved : List OpenApeGrant) (w : MemoryWorld) : Prop :=
  ∀ grant ∈ w.store.rows, grant.status = .approved → grant ∈ approved

/-- The calls add pending grants and spend grants. -/
def AddsNoApproval : GrantStoreCall → Prop
  | .save grant | .createReferenced grant => grant.status = .pending
  | .updateStatus _ _ _ | .withdraw _ _ _ => False
  | .findById _ | .findByRequester _ | .listGrants _ | .claimOnce _ _
  | .now | .randomUUID => True

/-- The approved grants in a reply are among `approved`; a grant that is
returned for a reference is for the same authority. -/
def FromApproved (approved : List OpenApeGrant) :
    (call : GrantStoreCall) → Except JsError call.Reply → Prop
  | .findByRequester _, .ok grants =>
      ∀ grant ∈ grants, grant.status = .approved → grant ∈ approved
  | .listGrants _, .ok page =>
      ∀ grant ∈ page.data, grant.status = .approved → grant ∈ approved
  | .createReferenced candidate, .ok reply =>
      reply.1.status = .approved →
        reply.1 ∈ approved ∧
          assertSameReferencedGrant reply.1 candidate = .ok ()
  | _, _ => True

/-- Such a call approves nothing. -/
theorem noNewApproval_of_written {approved : List OpenApeGrant}
    {call : GrantStoreCall} {w : MemoryWorld} (hCall : AddsNoApproval call)
    (hInv : NoNewApproval approved w) :
    NoNewApproval approved (memoryStore call w).2 := by
  intro row hRow hApproved
  rcases mem_memoryStore hRow with hOld | hWritten
  · exact hInv row hOld hApproved
  · cases call with
    | createReferenced grant | save grant =>
        obtain rfl : row = grant := hWritten
        have hPending : row.status = .pending := hCall
        rw [hPending] at hApproved
        cases hApproved
    | claimOnce id usedAt =>
        obtain ⟨old, -, rfl⟩ := hWritten
        cases hApproved
    | updateStatus id status extra | withdraw id at' reason =>
        exact hCall.elim
    | findById id | findByRequester requester | listGrants params | now
    | randomUUID => exact hWritten.elim

/-- The in-memory store answers as a decision relies on. -/
theorem memoryStore_fromApproved {approved : List OpenApeGrant}
    (call : GrantStoreCall) (w : MemoryWorld) (hCall : AddsNoApproval call)
    (hInv : NoNewApproval approved w) :
    FromApproved approved call (memoryStore call w).1 ∧
      NoNewApproval approved (memoryStore call w).2 := by
  refine ⟨?_, noNewApproval_of_written hCall hInv⟩
  cases call with
  | createReferenced candidate =>
      have hPending : candidate.status = .pending := hCall
      simp only [memoryStore, MemoryStore.createReferenced]
      split
      · trivial
      · split
        · trivial
        · split
          · rename_i existing hFound
            split
            · trivial
            · rename_i hSame
              exact fun hApproved =>
                ⟨hInv _ (List.mem_of_find?_eq_some hFound) hApproved, hSame⟩
          · intro hApproved
            rw [hPending] at hApproved
            cases hApproved
  | findByRequester requester =>
      exact fun grant hGrant =>
        hInv grant (MemoryStore.mem_findByRequester.mp hGrant).1
  | listGrants params =>
      change FromApproved approved (.listGrants params)
        (MemoryStore.listGrants w.store params)
      cases hPage : MemoryStore.listGrants w.store params with
      | error error => trivial
      | ok page =>
          intro grant hGrant
          exact hInv grant (MemoryStore.mem_of_listGrants hPage hGrant).1
  | updateStatus id status extra | withdraw id at' reason =>
      exact hCall.elim
  | save grant | findById id | claimOnce id usedAt | now | randomUUID =>
      trivial

/-! ## The decision -/

section Answers

variable {approved : List OpenApeGrant}

/-- A token is for one of the approved grants, which decides the call. -/
def TokenDecided (approved : List OpenApeGrant) (argvHash : JsString)
    (result : Option ProgramAuthorizeResult) : Prop :=
  ∀ grantId jwt expiresAt,
    result = some (.approved grantId jwt expiresAt) →
    ∃ grant ∈ approved, grant.id = grantId ∧ DecidedOnce grant argvHash

private theorem addsNoApproval_of_isRead (call : GrantStoreCall)
    (h : IsRead call) : AddsNoApproval call := by
  cases call <;> trivial

private theorem addsNoApproval_of_pending (grant : OpenApeGrant)
    (h : grant.status = .pending) :
    AddsNoApproval (.save grant) ∧ AddsNoApproval (.createReferenced grant) :=
  ⟨h, h⟩

theorem approvedAnswer_tokenDecided (services : AuthorizeServices)
    {grant : OpenApeGrant} (call : ResolvedProgramCall) {argvHash : JsString}
    (h : grant.status = .approved →
      grant ∈ approved ∧ DecidedOnce grant argvHash) :
    Guarantees (FromApproved approved) AddsNoApproval
      (TokenDecided approved argvHash)
      (approvedAnswer services grant call) := by
  refine guarantees_mono (guarantees_approvedAnswer addsNoApproval_of_isRead
    (fun _ _ => trivial) services grant call) (fun result hResult => ?_)
  intro grantId jwt expiresAt hToken
  obtain ⟨rfl, hStatus⟩ := hResult grantId jwt expiresAt hToken
  obtain ⟨hMem, hDecided⟩ := h hStatus
  exact ⟨grant, hMem, rfl, hDecided⟩

/-- What the grant of a reference is, where it is approved. -/
theorem requestReferencedGrant_sameReference (request : OpenApeGrantRequest)
    (brokered : Option BrokeredGrant) :
    Guarantees (FromApproved approved) AddsNoApproval
      (fun result => result.1.status = .approved →
        result.1 ∈ approved ∧ ∃ id createdAt,
          assertSameReferencedGrant result.1
            (referencedCandidate id createdAt request brokered) = .ok ())
      (requestReferencedGrant {} request brokered) := by
  refine guarantees_requestReferencedGrant addsNoApproval_of_isRead
    (fun _ _ => rfl) ?_ ?_
  · intro params page existing id createdAt hPage hMem hSame hApproved
    exact ⟨hPage existing hMem hApproved, id, createdAt, hSame⟩
  · intro reply id createdAt hReply hApproved
    obtain ⟨hMem, hSame⟩ := hReply hApproved
    exact ⟨hMem, id, createdAt, hSame⟩

/-- No approved grant with a reference was approved automatically. -/
def ReferencedByPerson (grants : List OpenApeGrant) : Prop :=
  ∀ grant ∈ grants, grant.status = .approved →
    grant.request.reference.isSome = true → NotAutomatic grant

theorem answerReferenced_tokenDecided (services : AuthorizeServices)
    {request : OpenApeGrantRequest} (brokered : Option BrokeredGrant)
    (call : ResolvedProgramCall) {argvHash : JsString}
    (hPerson : ReferencedByPerson approved)
    (hReference : request.reference.isSome = true)
    (hOnce : request.grantType = some .once)
    (hArgv : argvHashOf request = some argvHash) :
    Guarantees (FromApproved approved) AddsNoApproval
      (TokenDecided approved argvHash)
      (answerReferenced services request brokered call) := by
  refine guarantees_bind
    (requestReferencedGrant_sameReference request brokered)
    (fun result hResult => ?_)
  split
  · refine guarantees_pure (fun _ _ _ hToken => ?_)
    cases hToken
  · rename_i hStatus
    refine approvedAnswer_tokenDecided services call (fun hApproved => ?_)
    obtain ⟨hMem, id, createdAt, hSame⟩ := hResult hApproved
    refine ⟨hMem, decidedOnce_of_sameReference hSame hOnce hArgv ?_⟩
    refine hPerson _ hMem hApproved ?_
    rw [reference_eq_of_sameReference hSame]
    exact hReference
  · refine guarantees_pure (fun _ _ _ hToken => ?_)
    cases hToken

end Answers

section Decision

variable [Collation] {approved : List OpenApeGrant}

theorem answerUncovered_tokenDecided (services : AuthorizeServices)
    (request : OpenApeGrantRequest) (brokered : Option BrokeredGrant)
    {call : ResolvedProgramCall} (latest : Option OpenApeGrant)
    (argvHash : JsString) (hOnce : call.requiresOnce = true) :
    Guarantees (FromApproved approved) AddsNoApproval
      (TokenDecided approved argvHash)
      (answerUncovered services request brokered call latest) := by
  have hStanding : standingFor request brokered call = pure none := by
    simp [standingFor, hOnce]
  have hPreApproval : preApprovalFor services request brokered call = none := by
    simp [preApprovalFor, hOnce]
  have hAsk : Guarantees (FromApproved approved) AddsNoApproval
      (TokenDecided approved argvHash)
      (askForDecision services request brokered call) := by
    unfold askForDecision
    rw [hPreApproval]
    refine guarantees_bind
      (guarantees_createPendingGrant addsNoApproval_of_isRead
        (fun grant hPending _ => addsNoApproval_of_pending grant hPending)
        brokered) (fun grant _ => guarantees_pure (fun _ _ _ hToken => ?_))
    cases hToken
  unfold answerUncovered
  rw [hStanding]
  change Guarantees _ _ _
    (answerUndecided services request brokered call latest)
  unfold answerUndecided
  split
  · exact hAsk
  · split
    · refine guarantees_pure (fun _ _ _ hToken => ?_)
      cases hToken
    · refine guarantees_pure (fun _ _ _ hToken => ?_)
      cases hToken
    · refine guarantees_pure (fun _ _ _ hToken => ?_)
      cases hToken
    · exact hAsk

theorem answerUnreferenced_tokenDecided (services : AuthorizeServices)
    (input : ProgramAuthorizeInput) (request : OpenApeGrantRequest)
    {call : ResolvedProgramCall} (hOnce : call.requiresOnce = true) :
    Guarantees (FromApproved approved) AddsNoApproval
      (TokenDecided approved call.argvHash)
      (answerUnreferenced services input request call) := by
  refine guarantees_bind
    (guarantees_mapError (guarantees_assertGrantBatchMember
      addsNoApproval_of_isRead request) _)
    (fun _ _ => ?_)
  refine guarantees_perform_bind trivial (fun existing hExisting => ?_)
  refine guarantees_perform_bind trivial (fun now _ => ?_)
  dsimp only
  split
  · rename_i covering hCovering
    obtain ⟨hMem, hCovers⟩ := mem_of_findCoveringGrant hCovering
    obtain ⟨hApproved, -, -, -, hBinds⟩ := (coversCall_iff _ _ _ _).mp hCovers
    exact approvedAnswer_tokenDecided services call (fun _ =>
      ⟨hExisting covering hMem hApproved,
        decidedOnce_of_bindsCall hOnce hBinds⟩)
  · exact answerUncovered_tokenDecided services request input.brokered _ _
      hOnce

/-- What a call is resolved by, and the hash its context carries. -/
theorem resolveCall_eq_ok {services : AuthorizeServices}
    {input : ProgramAuthorizeInput} {call : ResolvedProgramCall} :
    resolveCall services input = .ok call ↔
      resolveProgramCall services.digest
        (services.shapes
          (if input.brokered.isSome then none else input.shapeOwner))
        input.request = .ok call := by
  unfold resolveCall
  dsimp only
  split
  · rename_i call' hCall
    rw [hCall, Except.ok.injEq, Except.ok.injEq]
  · rename_i message hCall
    simp [hCall]
  · rename_i error hCall
    simp [hCall]

theorem argvHash_of_resolveCall {services : AuthorizeServices}
    {input : ProgramAuthorizeInput} {call : ResolvedProgramCall}
    (h : resolveCall services input = .ok call) :
    call.executionContext.argvHash = some call.argvHash := by
  obtain ⟨-, structured, -, -, rfl⟩ :=
    resolveProgramCall_eq_ok.mp (resolveCall_eq_ok.mp h)
  rfl

/-- **A call that requires one decision** is answered with a token for a grant
that is that decision only. -/
theorem decideProgramCall_tokenDecided (services : AuthorizeServices)
    {input : ProgramAuthorizeInput} {call : ResolvedProgramCall}
    (hCall : resolveCall services input = .ok call)
    (hOnce : call.requiresOnce = true)
    (hPerson : ReferencedByPerson approved) :
    Guarantees (FromApproved approved) AddsNoApproval
      (TokenDecided approved call.argvHash)
      (decideProgramCall services input) := by
  refine guarantees_ofExcept_bind (fun call' hCall' => ?_)
  obtain rfl : call = call' := Except.ok.inj (hCall.symm.trans hCall')
  dsimp only
  split
  · rename_i hReference
    refine answerReferenced_tokenDecided services input.brokered call hPerson
      hReference ?_ ?_
    · simp only [grantRequestFor, hOnce, if_true]
    · exact argvHash_of_resolveCall hCall
  · exact answerUnreferenced_tokenDecided services input _ hOnce

/-! ## The policy -/

/-- The shapes that read the calls of an input. -/
def shapesFor (services : AuthorizeServices) (input : ProgramAuthorizeInput) :
    ShapeStore :=
  services.shapes (if input.brokered.isSome then none else input.shapeOwner)

/-- The decision policies of the shape that reads a call are not bypassed. -/
structure PolicyEnforced (services : AuthorizeServices)
    (input : ProgramAuthorizeInput) (w : MemoryWorld) : Prop where
  resolution : ∀ selection call,
    selectProgramShape (shapesFor services input) input.request.program =
      some selection →
    guarded (some selection) = true →
    resolveProgramCall services.digest (shapesFor services input)
      input.request = .ok call →
    ∃ operation, PolicyKept selection.shape operation input.request call
  decision : ∀ shape operation call grantId jwt expiresAt w',
    resolveProgramCall services.digest (shapesFor services input)
      input.request = .ok call →
    PolicyKept shape operation input.request call →
    operation.decision = some .once →
    exec memoryStore (decideProgramCall services input) w =
      (.ok (some (.approved grantId jwt expiresAt)), w') →
    ∃ grant ∈ w.store.rows,
      grant.id = grantId ∧ DecidedOnce grant call.argvHash

/-- **Decision policies cannot be bypassed** in a store where no grant with a
reference was approved automatically. -/
theorem policyEnforced (services : AuthorizeServices)
    (input : ProgramAuthorizeInput) (w : MemoryWorld)
    (hIds : DistinctOperationIds (shapesFor services input))
    (hPerson : ReferencedByPerson w.store.rows) :
    PolicyEnforced services input w where
  resolution _ _ hSelection hGuarded hCall :=
    policyKept_of_guarded hIds hSelection hGuarded hCall
  decision _ _ call _ _ _ _ hCall hKept hDecision hRun := by
    have hGuarantee := decideProgramCall_tokenDecided services
      (resolveCall_eq_ok.mpr hCall) (hKept.once hDecision).1 hPerson
    have hInv : NoNewApproval w.store.rows w := fun _ hMem _ => hMem
    exact (exec_guarantees memoryStore_fromApproved hGuarantee hInv hRun).1
      _ _ _ rfl

end Decision

/-! ## A protected operation -/

/-- A shape whose operation needs one exact decision. -/
def deployShape : ServerShape where
  cliId := js "deploy"
  executable := js "deploy"
  description := js "Deploys"
  operations :=
    [{ id := js "deploy.run", command := [js "run"], display := js "Deploy"
       action := js "exec", risk := .high
       resourceChain := [js "app:name=web"]
       exactCommand := some true, decision := some .once }]
  source := .builtin
  digest := js "SHA-256:deploy"
  createdAt := 1000
  updatedAt := 1000

def deployServices : AuthorizeServices where
  shapes := fun _ => { rows := [deployShape], nodup := by simp }
  digest := codeUnitBytes
  sign := fun _ => []
  issuer := js "https://id"
  preApproval := fun _ => none
  onToken := fun _ => none

def deployInput : ProgramAuthorizeInput where
  requester := js "agent"
  request :=
    { targetHost := js "host", audience := js "shapes"
      program := { name := js "deploy", sha256 := js "00" }
      argv := [js "run"], grantType := .once, reference := some (js "r1") }

/-- An approved grant of the reference, with a mark. -/
def deployGrant [Collation] (mark : Option JsString)
    (call : ResolvedProgramCall) : OpenApeGrant where
  id := js "g1"
  type := some .command
  request := grantRequestFor codeUnitBytes (js "agent") deployInput.request
    call
  status := .approved
  createdAt := 1000
  decidedAt := some 1000
  autoApprovalKind := mark

def deployWorld [Collation] (mark : Option JsString) : MemoryWorld where
  store :=
    match resolveCall deployServices deployInput with
    | .ok call => ⟨[deployGrant mark call], by simp⟩
    | .error _ => ⟨[], by simp⟩
  clock := fun _ => 2000
  uuids := fun n => js (toString n)

/-- The grant that a token is issued for. -/
def tokenGrant [Collation] (services : AuthorizeServices)
    (input : ProgramAuthorizeInput) (w : MemoryWorld) : Option JsString :=
  match (exec memoryStore (decideProgramCall services input) w).1 with
  | .ok (some (.approved grantId _ _)) => some grantId
  | _ => none

theorem autoApprovalKind_of_mem_deployWorld [Collation]
    {mark : Option JsString} {grant : OpenApeGrant}
    (h : grant ∈ (deployWorld mark).store.rows) :
    grant.autoApprovalKind = mark ∧ grant.decidedByStandingGrant = none := by
  unfold deployWorld at h
  dsimp only at h
  split at h
  · rw [List.mem_singleton.mp h]
    exact ⟨rfl, rfl⟩
  · cases h

/-- The approval of a person answers the call, and keeps to the policy. -/
theorem policyEnforced_deploy :
    letI := codeUnitCollation
    PolicyEnforced deployServices deployInput (deployWorld none) ∧
      tokenGrant deployServices deployInput (deployWorld none) =
        some (js "g1") := by
  let _ := codeUnitCollation
  refine ⟨policyEnforced deployServices deployInput (deployWorld none) ?_ ?_,
    by decide⟩
  · intro shape hShape
    rw [List.mem_singleton.mp hShape]
    decide
  · intro grant hMem _ _
    obtain ⟨hKind, hStanding⟩ := autoApprovalKind_of_mem_deployWorld hMem
    exact ⟨by rw [hKind]; rfl, by rw [hStanding]; rfl⟩

/-- A referenced grant with the mark of a hook would answer the call too. -/
theorem not_policyEnforced_marked :
    letI := codeUnitCollation
    ¬PolicyEnforced deployServices deployInput
      (deployWorld (some (js "yolo"))) := by
  let _ := codeUnitCollation
  intro hEnforced
  have hToken : tokenGrant deployServices deployInput
      (deployWorld (some (js "yolo"))) = some (js "g1") := by decide
  have hResolved : (resolveProgramCall codeUnitBytes
      (shapesFor deployServices deployInput) deployInput.request).isOk =
        true := by decide
  obtain ⟨call, hCall⟩ := Fallible.isOk_iff.mp hResolved
  obtain ⟨operation, hKept⟩ := hEnforced.resolution
    { shape := deployShape, versionTested := false } call (by decide)
    (by decide) hCall
  have hOnce : operation.decision = some .once := by
    rw [List.mem_singleton.mp hKept.declared]
  unfold tokenGrant at hToken
  split at hToken
  · rename_i grantId jwt expiresAt hResult
    obtain ⟨grant, hMem, -, hDecided⟩ := hEnforced.decision _ operation call
      grantId jwt expiresAt _ hCall hKept hOnce (Prod.ext hResult rfl)
    have hMark := hDecided.byPerson.1
    rw [(autoApprovalKind_of_mem_deployWorld hMem).1] at hMark
    cases hMark
  · cases hToken

end OpenApe.Ports.ProgramPolicies
