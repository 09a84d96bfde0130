import OpenApe.Ports.CliPermissionsCoverage
import OpenApe.Ports.ProgramAuthorization

/-!
# What an approved program call covers

The detail of a resolved call has no globs, so where it covers the detail of
another call the selectors agree literally.  An exact-command detail covers
the exact-command detail of the same argv only.  What is left is an operation
of a shape that renders the chain of an exact-command detail from the argv:
it has the hash of the approved argv as a selector value, though its own argv
is another.
-/

namespace OpenApe.Ports.ProgramCoverage

open Verified.JsText Verified.JsText.Record
open GrantTypes CliPermissions CliPermissionsCoverage ShapeMatcher
  ShapeTemplates ShapeDigest ShapeTiers ProgramAuthorization

/-- The chain of the detail has the resource at position `i`, with a selector
that has `value` under `key`. -/
def BindsAt (detail : CliAuthorizationDetail) (i : Nat)
    (resource key value : JsString) : Prop :=
  ∃ ref selector, detail.resourceChain[i]? = some ref ∧
    ref.resource = resource ∧ ref.selector = some selector ∧
    (key, value) ∈ selector.entries

/-- At every position every selector key has literally the same value. -/
def LiteralSelectors (granted required : CliAuthorizationDetail) : Prop :=
  ∀ i resource key value, BindsAt granted i resource key value →
    BindsAt required i resource key value

section Coverage

variable [Collation]

/-- A value without globs is covered by itself only. -/
theorem BindsAt.covered {granted required : CliAuthorizationDetail} {i : Nat}
    {resource key value : JsString}
    (h : BindsAt granted i resource key value) (hValue : value ≠ [])
    (hLiteral : unit '*' ∉ value)
    (hCovers : cliAuthorizationDetailCovers granted required = true) :
    BindsAt required i resource key value := by
  obtain ⟨ref, selector, hRef, rfl, hSelector, hMem⟩ := h
  obtain ⟨-, -, hChain⟩ :=
    (cliAuthorizationDetailCovers_iff granted required).mp hCovers
  obtain ⟨ref', hRef', hEntry⟩ := resourceChainCovers_getElem? hChain hRef
  obtain ⟨hResource, hValues⟩ := (resourceRefCovers_iff ref ref').mp hEntry
  obtain ⟨req, hReq, hMatches⟩ := hValues key value
    ((selectorValue_eq_some_iff _ _ _).mpr ⟨selector, hSelector, hMem, hValue⟩)
  have hSame : value = req := by
    rw [selectorValueMatches_eq_true_iff] at hMatches
    rcases hMatches with ⟨-, hEq⟩ | ⟨hGlob, -⟩
    · exact hEq
    · exact absurd hGlob hLiteral
  obtain ⟨selector', hSelector', hMem', -⟩ :=
    (selectorValue_eq_some_iff _ _ _).mp hReq
  exact ⟨ref', selector', hRef', hResource.symm, hSelector', hSame ▸ hMem'⟩

omit [Collation] in
/-- The selectors of a detail without globs have none. -/
theorem not_mem_of_hasWildcardSelector {detail : CliAuthorizationDetail}
    (h : hasWildcardSelector detail = false) {i : Nat}
    {resource key value : JsString}
    (hBinds : BindsAt detail i resource key value) : unit '*' ∉ value := by
  obtain ⟨ref, selector, hRef, -, hSelector, hMem⟩ := hBinds
  intro hGlob
  have hAny : hasWildcardSelector detail = true := by
    rw [hasWildcardSelector, List.any_eq_true]
    refine ⟨ref, List.mem_of_getElem? hRef, ?_⟩
    rw [hSelector, Option.getD_some, List.any_eq_true]
    exact ⟨_, hMem, by simpa using hGlob⟩
  rw [h] at hAny
  cases hAny

/-- A rendered detail binds no empty value. -/
theorem ne_nil_of_readsAs {shape : ServerShape} {operation : ShapeMatchOperation}
    {bindings : Record} {argv : List JsString}
    {detail : CliAuthorizationDetail}
    (h : ReadsAs shape operation bindings argv detail) {i : Nat}
    {resource key value : JsString}
    (hBinds : BindsAt detail i resource key value) : value ≠ [] := by
  obtain ⟨ref, selector, hRef, -, hSelector, hMem⟩ := hBinds
  have hBuilt := h.built
  rw [buildCliAuthDetail_eq] at hBuilt
  split at hBuilt
  · cases hBuilt
  · cases hBuilt
  · rename_i chain display hChain hDisplay
    cases Except.ok.inj hBuilt
    exact selector_ne_nil_of_parseResourceChain hChain
      (List.mem_of_getElem? hRef) hSelector hMem

/-! ## The detail of a resolved call -/

variable {digest : JsString → List UInt8} {store : ShapeStore}

/-- The call has the exact-command detail of its argv. -/
def IsExactCommand (digest : JsString → List UInt8)
    (request : OpenApeProgramAuthorizeRequest)
    (call : ResolvedProgramCall) : Prop :=
  call.detail = genericDetail digest call.detail.cliId request.program.name
    request.argv

instance (request : OpenApeProgramAuthorizeRequest)
    (call : ResolvedProgramCall) :
    Decidable (IsExactCommand digest request call) :=
  inferInstanceAs (Decidable (_ = _))

/-- **A resolved detail** is the exact-command detail of the argv, or was
read by an operation of a stored shape and has no globs. -/
theorem detail_cases {request : OpenApeProgramAuthorizeRequest}
    {call : ResolvedProgramCall}
    (h : resolveProgramCall digest store request = .ok call) :
    IsExactCommand digest request call ∨
      ∃ shape ∈ store.rows, ∃ operation bindings,
        ReadsAs shape operation bindings request.argv call.detail ∧
        hasWildcardSelector call.detail = false := by
  obtain ⟨-, structured, hStructured, -, rfl⟩ :=
    resolveProgramCall_eq_ok.mp h
  have hGeneric : ∀ cliId, (genericDetail digest cliId request.program.name
      request.argv).cliId = cliId := fun _ => rfl
  simp only [IsExactCommand, resolvedCall, resolvedCommand]
  split
  · rename_i resolved hUsable
    obtain ⟨hSome, hUse⟩ := Option.filter_eq_some_iff.mp hUsable
    obtain ⟨-, hNone⟩ | ⟨chosen, resolved', hChosen, hSome', hResolved⟩ :=
      structuredCommand_eq_ok hStructured
    · rw [hNone] at hSome
      cases hSome
    · obtain rfl : resolved' = resolved :=
        Option.some.inj (hSome'.symm.trans hSome)
      have hStored := (mem_of_selectProgramShape hChosen).1
      rcases resolveServerShape_eq_ok hStored hResolved with
        rfl | ⟨operation, bindings, detail, hReads, rfl⟩
      · exact .inl rfl
      · refine .inr ⟨_, hStored, operation, bindings, hReads, ?_⟩
        simpa [usable] using (Bool.and_eq_true_iff.mp hUse).2
  · exact .inl rfl

theorem argvHash_of_resolveProgramCall
    {request : OpenApeProgramAuthorizeRequest} {call : ResolvedProgramCall}
    (h : resolveProgramCall digest store request = .ok call) :
    call.argvHash = computeArgvHash digest request.executionArgv := by
  obtain ⟨-, structured, -, -, rfl⟩ := resolveProgramCall_eq_ok.mp h
  rfl

/-- What an exact-command detail binds. -/
theorem bindsAt_genericDetail_iff {cliId executable : JsString}
    {argv : List JsString} {i : Nat} {resource key value : JsString} :
    BindsAt (genericDetail digest cliId executable argv) i resource key
        value ↔
      (i = 0 ∧ resource = js "cli" ∧ key = js "name" ∧ value = cliId) ∨
      (i = 1 ∧ resource = js "argv" ∧ key = js "hash" ∧
        value = computeArgvHash digest (executable :: argv)) := by
  have hEntry : ∀ resource' k v : JsString,
      (∃ (ref : CliResourceRef) (selector : Record),
        some { resource := resource', selector := some (ofPairs [(k, v)]) } =
            some ref ∧
          ref.resource = resource ∧ ref.selector = some selector ∧
          (key, value) ∈ selector.entries) ↔
        resource = resource' ∧ key = k ∧ value = v := by
    intro resource' k v
    have hPair : (key, value) ∈ (ofPairs [(k, v)]).entries ↔
        key = k ∧ value = v := by
      change (key, value) ∈ (empty.put k v).entries ↔ _
      rw [mem_put]
      simp [empty]
    rw [← hPair]
    constructor
    · rintro ⟨ref, selector, hRef, rfl, hSelector, hMem⟩
      cases hRef
      cases hSelector
      exact ⟨rfl, hMem⟩
    · rintro ⟨rfl, hMem⟩
      exact ⟨_, _, rfl, rfl, rfl, hMem⟩
  unfold BindsAt genericDetail
  rcases i with _ | _ | i
  · simpa using hEntry (js "cli") (js "name") cliId
  · simpa using hEntry (js "argv") (js "hash") _
  · simp

/-! ## Covering calls -/

/-- What an approved exact command covers besides itself: the reading of an
operation that renders the chain of an exact-command detail with its argv
hash. -/
structure Mimics (store : ShapeStore) (granted required : ResolvedProgramCall) :
    Prop where
  operation : ∃ shape ∈ store.rows, ∃ operation ∈ shape.operations,
    operation.id = required.detail.operationId ∧
      operation.action = js "exec"
  argvHash : BindsAt required.detail 1 (js "argv") (js "hash")
    granted.argvHash
  cliId : granted.detail.cliId ≠ [] → unit '*' ∉ granted.detail.cliId →
    BindsAt required.detail 0 (js "cli") (js "name") granted.detail.cliId

/-- An approval of a call is no wildcard. -/
structure NoWildcard (digest : JsString → List UInt8) (store : ShapeStore)
    (approved asked : OpenApeProgramAuthorizeRequest)
    (granted required : ResolvedProgramCall) : Prop where
  literal : (IsExactCommand digest approved granted →
      IsExactCommand digest asked required) →
    LiteralSelectors granted.detail required.detail
  exact : IsExactCommand digest approved granted →
    IsExactCommand digest asked required →
    granted.detail.cliId = required.detail.cliId ∧
      approved.program.name = asked.program.name ∧
      approved.argv = asked.argv
  mimics : IsExactCommand digest approved granted →
    ¬IsExactCommand digest asked required → Mimics store granted required

/-- **An approval of a program call is no wildcard**: what it covers has its
selectors literally, and an exact command covers exact commands of the same
argv only, besides the operations that mimic its detail. -/
theorem covering_call_is_literal (digest : JsString → List UInt8)
    (hHash : Function.Injective (computeArgvHash digest))
    (store : ShapeStore)
    (approved asked : OpenApeProgramAuthorizeRequest)
    (granted required : ResolvedProgramCall)
    (hGranted : resolveProgramCall digest store approved = .ok granted)
    (hRequired : resolveProgramCall digest store asked = .ok required)
    (hCovers : cliAuthorizationDetailCovers granted.detail required.detail =
      true) :
    NoWildcard digest store approved asked granted required := by
  obtain ⟨hCliId, hAction, -⟩ :=
    (cliAuthorizationDetailCovers_iff _ _).mp hCovers
  -- The hash of an exact command is covered literally.
  have hArgvHash : IsExactCommand digest approved granted →
      BindsAt required.detail 1 (js "argv") (js "hash") granted.argvHash := by
    intro hExact
    rw [argvHash_of_resolveProgramCall hGranted]
    refine BindsAt.covered ?_ (computeArgvHash_ne_nil digest _)
      (not_mem_computeArgvHash digest _) hCovers
    rw [hExact]
    exact bindsAt_genericDetail_iff.mpr (.inr ⟨rfl, rfl, rfl, rfl⟩)
  have hSameArgv : IsExactCommand digest approved granted →
      IsExactCommand digest asked required →
      approved.executionArgv = asked.executionArgv := by
    intro hExact hExact'
    have hHashes := hArgvHash hExact
    rw [hExact', bindsAt_genericDetail_iff,
      argvHash_of_resolveProgramCall hGranted] at hHashes
    obtain ⟨hZero, -⟩ | ⟨-, -, -, hEq⟩ := hHashes
    · cases hZero
    · exact hHash hEq
  refine ⟨fun hBoth => ?_, fun hExact hExact' => ?_, fun hExact hOther => ?_⟩
  · by_cases hExact : IsExactCommand digest approved granted
    · have hExact' := hBoth hExact
      obtain ⟨hName, hArgv⟩ := List.cons.inj (hSameArgv hExact hExact')
      have hSame : granted.detail = required.detail := by
        rw [hExact, hExact', hCliId, hName, hArgv]
      exact fun i resource key value hBinds => hSame ▸ hBinds
    · obtain hExact' | ⟨shape, -, operation, bindings, hReads, hPlain⟩ :=
        detail_cases hGranted
      · exact absurd hExact' hExact
      · exact fun i resource key value hBinds => hBinds.covered
          (ne_nil_of_readsAs hReads hBinds)
          (not_mem_of_hasWildcardSelector hPlain hBinds) hCovers
  · obtain ⟨hName, hArgv⟩ := List.cons.inj (hSameArgv hExact hExact')
    exact ⟨hCliId, hName, hArgv⟩
  · refine ⟨?_, hArgvHash hExact, fun hCliId hPlain => ?_⟩
    · obtain hExact' | ⟨shape, hShape, operation, bindings, hReads, -⟩ :=
        detail_cases hRequired
      · exact absurd hExact' hOther
      · obtain ⟨hId, hOperation, -⟩ := hReads.fields
        refine ⟨shape, hShape, operation,
          (matchArgvToOperation_some hReads.selected).1, hId.symm, ?_⟩
        rw [← hOperation, ← hAction, hExact]
        rfl
    · refine BindsAt.covered ?_ hCliId hPlain hCovers
      rw [hExact]
      exact bindsAt_genericDetail_iff.mpr (.inl ⟨rfl, rfl, rfl, rfl⟩)

end Coverage

/-! ## A shape -/

/-- A shape with an operation that takes an argv hash. -/
def ghShape : ServerShape where
  cliId := js "gh"
  executable := js "gh"
  description := js "GitHub"
  operations :=
    [{ id := js "gh.repo.view", command := [js "repo", js "view"]
       positionals := some [js "repo"], display := js "View {repo}"
       action := js "read", risk := .low
       resourceChain :=
        [js "owner:name={repo|owner}", js "repo:name={repo|name}"] },
      { id := js "gh.run", command := [js "run"]
        positionals := some [js "hash"], display := js "Run {hash}"
        action := js "exec", risk := .low
        resourceChain := [js "cli:name=gh", js "argv:hash={hash}"] }]
  source := .builtin
  digest := js "SHA-256:gh"
  createdAt := 1000
  updatedAt := 1000

def ghStore : ShapeStore where
  rows := [ghShape]
  nodup := by simp

/-- A call of `gh`. -/
def ghCall (argv : List JsString) : OpenApeProgramAuthorizeRequest where
  targetHost := js "host"
  audience := js "shapes"
  program := { name := js "gh", sha256 := js "00" }
  argv := argv
  grantType := .always

/-- The first call's detail covers the second's, when both resolve. -/
def approvalCovers [Collation] (digest : JsString → List UInt8)
    (store : ShapeStore) (approved asked : OpenApeProgramAuthorizeRequest) :
    Bool :=
  match resolveProgramCall digest store approved,
      resolveProgramCall digest store asked with
  | .ok granted, .ok required =>
      cliAuthorizationDetailCovers granted.detail required.detail
  | _, _ => false

theorem exists_of_approvalCovers [Collation]
    {digest : JsString → List UInt8} {store : ShapeStore}
    {approved asked : OpenApeProgramAuthorizeRequest}
    (h : approvalCovers digest store approved asked = true) :
    ∃ granted required,
      resolveProgramCall digest store approved = .ok granted ∧
        resolveProgramCall digest store asked = .ok required ∧
        cliAuthorizationDetailCovers granted.detail required.detail =
          true := by
  unfold approvalCovers at h
  split at h
  · rename_i granted required hGranted hRequired
    exact ⟨granted, required, hGranted, hRequired, h⟩
  · cases h

/-- An approval of a view covers the view under another spelling, with the
same selectors. -/
theorem covering_call_is_literal_view :
    letI := codeUnitCollation
    ∃ granted required,
      resolveProgramCall codeUnitBytes ghStore
          (ghCall [js "repo", js "view", js "o/n"]) = .ok granted ∧
        resolveProgramCall codeUnitBytes ghStore
          (ghCall [js "repo", js "view", js "--json=name", js "o/n"]) =
            .ok required ∧
        NoWildcard codeUnitBytes ghStore
          (ghCall [js "repo", js "view", js "o/n"])
          (ghCall [js "repo", js "view", js "--json=name", js "o/n"])
          granted required := by
  let _ := codeUnitCollation
  obtain ⟨granted, required, hGranted, hRequired, hCovers⟩ :=
    exists_of_approvalCovers (by decide +kernel :
      approvalCovers codeUnitBytes ghStore
        (ghCall [js "repo", js "view", js "o/n"])
        (ghCall [js "repo", js "view", js "--json=name", js "o/n"]) = true)
  exact ⟨granted, required, hGranted, hRequired,
    covering_call_is_literal codeUnitBytes
      (computeArgvHash_injective codeUnitBytes_injective) ghStore _ _
      granted required hGranted hRequired hCovers⟩

/-- An approval of the first call is one of the second only where every
selector agrees, and is an exact command for that command only. -/
def ActsForOneCall [Collation] (digest : JsString → List UInt8)
    (store : ShapeStore) (approved asked : OpenApeProgramAuthorizeRequest) :
    Prop :=
  ∀ granted required,
    resolveProgramCall digest store approved = .ok granted →
    resolveProgramCall digest store asked = .ok required →
    cliAuthorizationDetailCovers granted.detail required.detail = true →
    LiteralSelectors granted.detail required.detail ∧
      (IsExactCommand digest approved granted →
        granted.detail.cliId = required.detail.cliId ∧
          approved.argv = asked.argv)

/-- `gh run` with the argv hash of `gh status` is covered by an approval of
`gh status`, which no operation of the shape describes. -/
theorem not_actsForOneCall_mimic :
    letI := codeUnitCollation
    Function.Injective (computeArgvHash codeUnitBytes) ∧
      ¬ActsForOneCall codeUnitBytes ghStore (ghCall [js "status"])
        (ghCall [js "run",
          computeArgvHash codeUnitBytes [js "gh", js "status"]]) := by
  let _ := codeUnitCollation
  refine ⟨computeArgvHash_injective codeUnitBytes_injective, fun hActs => ?_⟩
  obtain ⟨granted, required, hGranted, hRequired, hCovers⟩ :=
    exists_of_approvalCovers (by decide :
      approvalCovers codeUnitBytes ghStore (ghCall [js "status"])
        (ghCall [js "run",
          computeArgvHash codeUnitBytes [js "gh", js "status"]]) = true)
  have hExact : (resolveProgramCall codeUnitBytes ghStore
      (ghCall [js "status"])).toOption.any (fun call =>
        IsExactCommand codeUnitBytes (ghCall [js "status"]) call) = true := by
    decide
  rw [hGranted] at hExact
  have hArgv := ((hActs granted required hGranted hRequired hCovers).2
    (by simpa [Except.toOption] using hExact)).2
  exact absurd hArgv (by decide)

end OpenApe.Ports.ProgramCoverage
