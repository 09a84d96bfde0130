import OpenApe.Ports.AuthzJwt
import OpenApe.Ports.GrantReuse
import OpenApe.Ports.ShapeTiers

/-!
# Program calls (`program-authorization.ts`, `server-resolver.ts`)

The IdP resolves a program call itself: the shape of the program reads the
argv, and where no operation matches, or a selector value could be read as a
glob, the call becomes an exact-command detail bound to the hash of its argv.
A shape that declares a decision on any operation has no such fallback.

`digest` is the SHA-256 of a text.  A store lists its shapes and finds the
one of a `cli_id`; `resolveProgramCall_eq_ok` says once what a resolved call
has passed and which detail it carries.
-/

namespace OpenApe.Ports.ProgramAuthorization

open Verified.JsText Verified.JsText.Record Verified.Json Verified.KeyedTable
open GrantTypes CliPermissions AuthzJwt
open GrantReuse (genericOperationId)
open ShapeMatcher ShapeDigest ShapeTiers

/-! ## Requests -/

/-- `'always' | 'once'` -/
inductive ProgramGrantType where
  | always
  | once
  deriving DecidableEq

def ProgramGrantType.grantType : ProgramGrantType → GrantType
  | .always => .always
  | .once => .once

/-- The name and the file digest of an executable. -/
structure ProgramFile where
  name : JsString
  sha256 : JsString
  deriving DecidableEq

structure OpenApeProgramAuthorizeRequest where
  targetHost : JsString
  audience : JsString
  program : ProgramFile
  argv : List JsString
  files : Option (List ExecutionFile) := none
  grantType : ProgramGrantType
  summary : Option GrantSummary := none
  batch : Option GrantBatch := none
  reference : Option JsString := none
  deriving DecidableEq

/-- `[program.name, ...argv]` -/
def OpenApeProgramAuthorizeRequest.executionArgv
    (request : OpenApeProgramAuthorizeRequest) : List JsString :=
  request.program.name :: request.argv

/-- `!!request.files?.length` -/
def OpenApeProgramAuthorizeRequest.hasFiles
    (request : OpenApeProgramAuthorizeRequest) : Bool :=
  !(request.files.getD []).isEmpty

/-- What resolving a call throws: an `InvalidProgramAuthorizeRequestError`,
or an error of the code that it calls. -/
inductive ProgramCallError where
  | invalidProgramAuthorizeRequest (message : JsString)
  | other (error : JsError)
  deriving DecidableEq

/-! ## The argv hash -/

/-- `b.toString(16).padStart(2, '0')`, joined. -/
def hexText (bytes : List UInt8) : JsString :=
  bytes.flatMap (fun b =>
    [hexDigit (b.toNat / 16), hexDigit (b.toNat % 16)])

def computeArgvHash (digest : JsString → List UInt8) (argv : List JsString) :
    JsString :=
  js "SHA-256:" ++ hexText (digest (stringify (stringList argv)))

theorem not_mem_hexText (bytes : List UInt8) :
    unit '*' ∉ hexText bytes := by
  have hDigit : ∀ d < 16, hexDigit d ≠ unit '*' := by decide
  intro hMem
  obtain ⟨b, -, hUnit⟩ := List.mem_flatMap.mp hMem
  have hByte := UInt8.toNat_lt b
  rcases List.mem_pair.mp hUnit with hHigh | hLow
  · exact hDigit _ (by omega) hHigh.symm
  · exact hDigit _ (by omega) hLow.symm

/-- An argv hash is no glob. -/
theorem not_mem_computeArgvHash (digest : JsString → List UInt8)
    (argv : List JsString) : unit '*' ∉ computeArgvHash digest argv := by
  rw [computeArgvHash, List.mem_append, not_or]
  exact ⟨by decide, not_mem_hexText _⟩

theorem computeArgvHash_ne_nil (digest : JsString → List UInt8)
    (argv : List JsString) : computeArgvHash digest argv ≠ [] :=
  List.append_ne_nil_of_left_ne_nil (by decide) _

/-- Texts of two units per item determine the items, when the units do. -/
private theorem flatMap_pair_injective {α β : Type} {f g : α → β}
    (h : ∀ a a', f a = f a' → g a = g a' → a = a') :
    Function.Injective (fun items : List α =>
      items.flatMap (fun a => [f a, g a])) := by
  intro items items' hText
  induction items generalizing items' with
  | nil =>
      cases items' with
      | nil => rfl
      | cons a' rest' => cases hText
  | cons a rest ih =>
      cases items' with
      | nil => cases hText
      | cons a' rest' =>
          simp only [List.flatMap_cons, List.cons_append, List.nil_append,
            List.cons.injEq] at hText
          obtain ⟨hHigh, hLow, hRest⟩ := hText
          exact congrArg₂ List.cons (h a a' hHigh hLow) (ih hRest)

theorem hexText_injective : Function.Injective hexText := by
  refine flatMap_pair_injective (fun b b' hHigh hLow => ?_)
  have hByte := UInt8.toNat_lt b
  have hByte' := UInt8.toNat_lt b'
  have hDigit : ∀ d d', d < 16 → d' < 16 → hexDigit d = hexDigit d' →
      d = d' := by
    intro d d' hd hd' hEq
    exact Option.some.inj ((hexDigit?_hexDigit hd).symm.trans
      (hEq ▸ hexDigit?_hexDigit hd'))
  have hDiv := hDigit _ _ (by omega) (by omega) hHigh
  have hMod := hDigit _ _ (by omega) (by omega) hLow
  exact UInt8.toNat_inj.mp (by omega)

/-- The argv hash tells argvs apart where the digest tells texts apart. -/
theorem computeArgvHash_injective {digest : JsString → List UInt8}
    (hDigest : Function.Injective digest) :
    Function.Injective (computeArgvHash digest) := fun _ _ h =>
  stringList_injective (stringify_injective (hDigest
    (hexText_injective (List.append_cancel_left h))))

/-- A text as bytes, a digest that tells texts apart. -/
def codeUnitBytes (text : JsString) : List UInt8 :=
  text.flatMap (fun u => [(u.toNat / 256).toUInt8, u.toNat.toUInt8])

theorem codeUnitBytes_injective : Function.Injective codeUnitBytes := by
  refine flatMap_pair_injective (fun u u' hHigh hLow => ?_)
  have hUnit := UInt16.toNat_lt u
  have hUnit' := UInt16.toNat_lt u'
  have hHigh := congrArg UInt8.toNat hHigh
  have hLow := congrArg UInt8.toNat hLow
  simp only [Nat.toUInt8_eq, UInt8.toNat_ofNat'] at hHigh hLow
  exact UInt16.toNat_inj.mp (by omega)

/-! ## Resolution -/

/-- The shapes of a store, with `getShape` as `find?`. -/
abbrev ShapeStore := Table ServerShape.cliId

structure ServerResolvedCommand where
  cliId : JsString
  operationId : JsString
  executable : JsString
  commandArgv : List JsString
  bindings : Record
  detail : CliAuthorizationDetail
  executionContext : ExecutionContext
  permission : JsString
  synthetic : Bool
  deriving DecidableEq

section Resolution

variable [Collation] (digest : JsString → List UInt8)

/-- The detail of `buildGenericResolvedServer`. -/
def genericDetail (cliId executable : JsString) (commandArgv : List JsString) :
    CliAuthorizationDetail :=
  let argvHash := computeArgvHash digest (executable :: commandArgv)
  let resourceChain : List CliResourceRef :=
    [{ resource := js "cli"
       selector := some (Record.ofPairs [(js "name", cliId)]) },
      { resource := js "argv"
        selector := some (Record.ofPairs [(js "hash", argvHash)]) }]
  { cliId
    operationId := genericOperationId
    resourceChain
    action := js "exec"
    permission := canonicalizeCliPermission cliId resourceChain (js "exec")
    display := js "Execute (unshaped): `" ++ cliId ++ js " " ++
      (js " ").intercalate commandArgv ++ js "`"
    risk := .high
    constraints := some { exactCommand := some true } }

/-- On a full argv, which has the executable. -/
def buildGenericResolvedServer (cliId executable : JsString)
    (commandArgv : List JsString) : ServerResolvedCommand :=
  let detail := genericDetail digest cliId executable commandArgv
  { cliId
    operationId := genericOperationId
    executable
    commandArgv
    bindings := .empty
    detail
    executionContext :=
      { argv := some (executable :: commandArgv)
        argvHash :=
          some (computeArgvHash digest (executable :: commandArgv))
        adapterId := cliId
        adapterVersion := js "openape-shapes/v1"
        adapterDigest := js "synthetic"
        resolvedExecutable := executable
        contextBindings := some .empty }
    permission := detail.permission
    synthetic := true }

/-- A command that an operation of the shape matched. -/
def matchedCommand (shape : ServerShape) (operation : ShapeMatchOperation)
    (bindings : Record) (executable : JsString) (commandArgv : List JsString)
    (detail : CliAuthorizationDetail) : ServerResolvedCommand where
  cliId := shape.cliId
  operationId := operation.id
  executable := executable
  commandArgv := commandArgv
  bindings := bindings
  detail := detail
  executionContext :=
    { argv := some (executable :: commandArgv)
      argvHash := some (computeArgvHash digest (executable :: commandArgv))
      adapterId := shape.cliId
      adapterVersion := js "server"
      adapterDigest := shape.digest
      adapterOwner := ifTruthy shape.owner
      adapterDomain := ifTruthy shape.domain
      resolvedExecutable := executable
      contextBindings := some bindings }
  permission := detail.permission
  synthetic := false

def tryMatchShape (shape : ServerShape) (executable : JsString)
    (commandArgv : List JsString) :
    Except JsError (Option ServerResolvedCommand) :=
  if executable.isEmpty then .ok none
  else
    match matchArgvToOperation id shape.operations commandArgv with
    | none => .ok none
    | some (operation, bindings) =>
        match buildCliAuthDetail shape.cliId operation bindings with
        | .error error => .error error
        | .ok detail => .ok (some (matchedCommand digest shape operation
            bindings executable commandArgv detail))

def resolveServerShape (store : ShapeStore) (cliId executable : JsString)
    (commandArgv : List JsString) : Except JsError ServerResolvedCommand :=
  match store.find? cliId with
  | none => .ok (buildGenericResolvedServer digest cliId executable commandArgv)
  | some shape =>
      match tryMatchShape digest shape executable commandArgv with
      | .error error => .error error
      | .ok (some resolved) => .ok resolved
      | .ok none => .ok
          (buildGenericResolvedServer digest cliId executable commandArgv)

/-! ## Selection -/

/-- A shape for an operation that the Pods desktop performs itself. -/
def isVirtualShape (shape : ServerShape) : Bool :=
  shape.isVirtual == some true && shape.versions.isNone &&
    (shape.testedDigests.getD []).isEmpty

/-- The shape that reads a program. -/
structure ProgramShapeSelection where
  shape : ServerShape
  versionTested : Bool
  deriving DecidableEq

def selectProgramShape (store : ShapeStore) (program : ProgramFile) :
    Option ProgramShapeSelection :=
  let shapes := store.rows.filter (fun shape => !isVirtualShape shape)
  let tested := shapes.find? (fun shape =>
    (shape.testedDigests.getD []).contains (js "SHA-256:" ++ program.sha256))
  match tested with
  | some shape => some { shape, versionTested := true }
  | none =>
      (shapes.find? (fun shape => shape.executable = program.name)).map
        (fun shape => { shape, versionTested := false })

def hasWildcardSelector (detail : CliAuthorizationDetail) : Bool :=
  detail.resourceChain.any (fun resource =>
    (resource.selector.getD .empty).entries.any
      (fun entry => entry.2.contains (unit '*')))

/-! ## One program call -/

structure ResolvedProgramCall where
  executionArgv : List JsString
  requiresOnce : Bool
  argvHash : JsString
  detail : CliAuthorizationDetail
  executionContext : ExecutionContext
  deriving DecidableEq

/-- Whether the name is one of an operation of the Pods desktop. -/
def namesVirtualShape (store : ShapeStore) (program : ProgramFile) : Bool :=
  store.rows.any (fun shape => isVirtualShape shape &&
    (shape.executable == program.name || shape.cliId == program.name))

/-- What the selected shape reads the call as. -/
def structuredCommand (store : ShapeStore)
    (selection : Option ProgramShapeSelection)
    (request : OpenApeProgramAuthorizeRequest) :
    Except JsError (Option ServerResolvedCommand) :=
  match selection with
  | none => .ok none
  | some selection =>
      (resolveServerShape digest store selection.shape.cliId
        request.program.name request.argv).map some

/-- `operations.find(operation => operation.id === structured?.operation_id)`
-/
def policyOperation (selection : Option ProgramShapeSelection)
    (structured : Option ServerResolvedCommand) :
    Option ShapeMatchOperation :=
  selection.bind (fun selection => structured.bind (fun structured =>
    selection.shape.operations.find? (fun operation =>
      operation.id = structured.operationId)))

/-- Whether the shape declares a decision on any operation. -/
def guarded (selection : Option ProgramShapeSelection) : Bool :=
  selection.any (fun selection => selection.shape.operations.any
    (fun operation => operation.decision.isSome))

/-- `structured && !request.files?.length &&
!hasWildcardSelector(structured.detail)` -/
def usable (request : OpenApeProgramAuthorizeRequest)
    (structured : ServerResolvedCommand) : Bool :=
  !request.hasFiles && !hasWildcardSelector structured.detail

/-- What a shape's policies refuse. -/
def policyRefusal (selection : Option ProgramShapeSelection)
    (structured : Option ServerResolvedCommand)
    (request : OpenApeProgramAuthorizeRequest) : Option JsString :=
  let operation := policyOperation selection structured
  if operation.any (fun operation => operation.decision = some .deny) ||
      (guarded selection && !structured.any (fun structured =>
        !structured.synthetic && usable request structured)) then
    some (js "This program requires a registered protected operation; an exact-command fallback cannot bypass its policy")
  else if operation.any (fun operation =>
      operation.decision = some .once && operation.exactCommand ≠ some true)
    then some
      (js "Registry single-use policy is missing exact-command binding")
  else none

/-- The command that the call is resolved to. -/
def resolvedCommand (selection : Option ProgramShapeSelection)
    (structured : Option ServerResolvedCommand)
    (request : OpenApeProgramAuthorizeRequest) : ServerResolvedCommand :=
  match structured.filter (usable request) with
  | some structured => structured
  | none => buildGenericResolvedServer digest
      ((selection.map (fun selection => selection.shape.cliId)).getD
        request.program.name)
      request.program.name request.argv

/-- The call with the context that the IdP writes. -/
def resolvedCall (selection : Option ProgramShapeSelection)
    (structured : Option ServerResolvedCommand)
    (request : OpenApeProgramAuthorizeRequest) : ResolvedProgramCall :=
  let resolved := resolvedCommand digest selection structured request
  let argvHash := computeArgvHash digest request.executionArgv
  { executionArgv := request.executionArgv
    requiresOnce := (policyOperation selection structured).any
      (fun operation => operation.decision = some .once)
    argvHash
    detail := resolved.detail
    executionContext :=
      { resolved.executionContext with
        argv := some request.executionArgv
        argvHash := some argvHash
        programSha256 := some request.program.sha256
        versionTested := some
          (selection.any ProgramShapeSelection.versionTested)
        files := request.files } }

def resolveProgramCall (store : ShapeStore)
    (request : OpenApeProgramAuthorizeRequest) :
    Except ProgramCallError ResolvedProgramCall :=
  if namesVirtualShape store request.program then
    .error (.invalidProgramAuthorizeRequest (js "program.name " ++
      request.program.name ++
      js " names an operation of the Pods desktop, not a program"))
  else
    let selection := selectProgramShape store request.program
    match structuredCommand digest store selection request with
    | .error error => .error (.other error)
    | .ok structured =>
        match policyRefusal selection structured request with
        | some message => .error (.invalidProgramAuthorizeRequest message)
        | none => .ok (resolvedCall digest selection structured request)

end Resolution

/-! ## What a resolved call has passed -/

/-- The selected shape is a stored one that programs have. -/
theorem mem_of_selectProgramShape {store : ShapeStore}
    {program : ProgramFile}
    {selection : ProgramShapeSelection}
    (h : selectProgramShape store program = some selection) :
    selection.shape ∈ store.rows ∧
      isVirtualShape selection.shape = false := by
  have hFilter : ∀ shape ∈ store.rows.filter
      (fun shape => !isVirtualShape shape),
      shape ∈ store.rows ∧ isVirtualShape shape = false := by
    intro shape hMem
    simpa using List.mem_filter.mp hMem
  unfold selectProgramShape at h
  dsimp only at h
  split at h
  · rename_i shape hTested
    cases h
    exact hFilter _ (List.mem_of_find?_eq_some hTested)
  · obtain ⟨shape, hNamed, rfl⟩ := Option.map_eq_some_iff.mp h
    exact hFilter _ (List.mem_of_find?_eq_some hNamed)

section Resolved

variable [Collation] {digest : JsString → List UInt8} {store : ShapeStore}

/-- An operation of the shape reads the argv as the detail. -/
structure ReadsAs (shape : ServerShape) (operation : ShapeMatchOperation)
    (bindings : Record) (argv : List JsString)
    (detail : CliAuthorizationDetail) : Prop where
  selected : matchArgvToOperation id shape.operations argv =
    some (operation, bindings)
  built : buildCliAuthDetail shape.cliId operation bindings = .ok detail

/-- What a detail has from its operation. -/
theorem ReadsAs.fields {shape : ServerShape} {operation : ShapeMatchOperation}
    {bindings : Record} {argv : List JsString}
    {detail : CliAuthorizationDetail}
    (h : ReadsAs shape operation bindings argv detail) :
    detail.operationId = operation.id ∧
      detail.action = operation.action ∧
      detail.constraints = operationConstraints operation := by
  have hBuilt := h.built
  rw [buildCliAuthDetail_eq] at hBuilt
  split at hBuilt
  · cases hBuilt
  · cases hBuilt
  · cases Except.ok.inj hBuilt
    exact ⟨rfl, rfl, rfl⟩

/-- The outcomes of `resolveServerShape` for a stored shape. -/
theorem resolveServerShape_eq_ok {shape : ServerShape}
    (hShape : shape ∈ store.rows) {executable : JsString}
    {argv : List JsString} {resolved : ServerResolvedCommand}
    (h : resolveServerShape digest store shape.cliId executable argv =
      .ok resolved) :
    resolved =
        buildGenericResolvedServer digest shape.cliId executable argv ∨
      ∃ operation bindings detail,
        ReadsAs shape operation bindings argv detail ∧
        resolved = matchedCommand digest shape operation bindings executable
          argv detail := by
  rw [resolveServerShape, Table.find?_of_mem hShape] at h
  dsimp only [tryMatchShape] at h
  by_cases hExecutable : executable.isEmpty = true
  · rw [if_pos hExecutable] at h
    exact .inl (Except.ok.inj h).symm
  · rw [if_neg hExecutable] at h
    cases hSelected : matchArgvToOperation id shape.operations argv with
    | none =>
        rw [hSelected] at h
        exact .inl (Except.ok.inj h).symm
    | some found =>
        obtain ⟨operation, bindings⟩ := found
        rw [hSelected] at h
        dsimp only at h
        cases hBuilt : buildCliAuthDetail shape.cliId operation bindings with
        | error error =>
            rw [hBuilt] at h
            cases h
        | ok detail =>
            rw [hBuilt] at h
            exact .inr ⟨operation, bindings, detail, ⟨hSelected, hBuilt⟩,
              (Except.ok.inj h).symm⟩

/-- What the selected shape made of a call. -/
theorem structuredCommand_eq_ok {selection : Option ProgramShapeSelection}
    {request : OpenApeProgramAuthorizeRequest}
    {structured : Option ServerResolvedCommand}
    (h : structuredCommand digest store selection request = .ok structured) :
    (selection = none ∧ structured = none) ∨
      ∃ chosen resolved, selection = some chosen ∧
        structured = some resolved ∧
        resolveServerShape digest store chosen.shape.cliId
          request.program.name request.argv = .ok resolved := by
  cases selection with
  | none => exact .inl ⟨rfl, (Except.ok.inj h).symm⟩
  | some chosen =>
      cases hResolved : resolveServerShape digest store chosen.shape.cliId
          request.program.name request.argv with
      | error error =>
          rw [structuredCommand, hResolved] at h
          cases h
      | ok resolved =>
          rw [structuredCommand, hResolved] at h
          exact .inr
            ⟨chosen, resolved, rfl, (Except.ok.inj h).symm, hResolved⟩

/-- **A resolved call**: what the selected shape made of it, past every
policy. -/
theorem resolveProgramCall_eq_ok {request : OpenApeProgramAuthorizeRequest}
    {call : ResolvedProgramCall} :
    resolveProgramCall digest store request = .ok call ↔
      namesVirtualShape store request.program = false ∧
      ∃ structured,
        structuredCommand digest store
          (selectProgramShape store request.program) request =
            .ok structured ∧
        policyRefusal (selectProgramShape store request.program) structured
          request = none ∧
        call = resolvedCall digest
          (selectProgramShape store request.program) structured request := by
  unfold resolveProgramCall
  cases namesVirtualShape store request.program with
  | true => simp
  | false =>
      simp only [Bool.false_eq_true, if_false, true_and]
      cases structuredCommand digest store
          (selectProgramShape store request.program) request with
      | error error => simp
      | ok structured =>
          simp only [Except.ok.injEq, exists_eq_left']
          cases policyRefusal (selectProgramShape store request.program)
              structured request with
          | some message => simp
          | none => simp [eq_comm]

end Resolved

end OpenApe.Ports.ProgramAuthorization
