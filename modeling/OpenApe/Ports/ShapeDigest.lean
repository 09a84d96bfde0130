import OpenApe.Ports.ShapeMatcher
import OpenApe.Verified.JsonReading

/-!
# The semantic adapter digest (`packages/shapes/src/digest.ts`)

The digest that grants bind covers what decides which operation an argv
matches and which permission results.  `semantics` is an operation with
everything else erased: the canonical value determines it, and matching and
the permission read nothing more.  The display template is not covered, but
it is rendered on the same path, so a template that does not render makes the
call fail for one of two adapters with one digest.
-/

namespace OpenApe.Ports.ShapeDigest

open Verified.JsText Verified.JsText.Record Verified.Json
open GrantTypes CliPermissions ShapeMatcher

/-! ## Adapters -/

/-- The version fields, which are set together or not at all. -/
structure ShapeCliVersions where
  testedVersions : List JsString
  versionCommand : List JsString
  versionPattern : JsString
  deriving DecidableEq

structure AdapterCli where
  id : JsString
  executable : JsString
  audience : Option JsString := none
  version : Option JsString := none
  versions : Option ShapeCliVersions := none
  testedDigests : Option (List JsString) := none
  deriving DecidableEq

structure ShapesAdapter where
  schema : JsString
  cli : AdapterCli
  operations : List ShapeMatchOperation
  deriving DecidableEq

/-! ## The digest -/

def stringList (texts : List JsString) : JsonValue :=
  .array (texts.map .string)

def nullable (texts : Option (List JsString)) : JsonValue :=
  match texts with
  | none => .null
  | some texts => stringList texts

def riskText : RiskLevel → JsString
  | .low => js "low"
  | .medium => js "medium"
  | .high => js "high"
  | .critical => js "critical"

def decisionText : Decision → JsString
  | .once => js "once"
  | .deny => js "deny"

def decisionMembers (decision : Option Decision) :
    List (JsString × JsonValue) :=
  match decision with
  | none => []
  | some decision => [(js "decision", .string (decisionText decision))]

def canonicalOperation (operation : ShapeMatchOperation) : JsonValue :=
  .object
    ([(js "id", .string operation.id),
      (js "command", stringList operation.command),
      (js "positionals", stringList (operation.positionals.getD [])),
      (js "required_options",
        stringList (operation.requiredOptions.getD [])),
      -- Absent and empty differ: declaring either list rejects every other
      -- option.
      (js "value_options", nullable operation.valueOptions),
      (js "flag_options", nullable operation.flagOptions),
      (js "global_options", stringList (operation.globalOptions.getD [])),
      (js "action", .string operation.action),
      (js "risk", .string (riskText operation.risk)),
      (js "resource_chain", stringList operation.resourceChain),
      (js "exact_command", .bool (operation.exactCommand == some true))] ++
      decisionMembers operation.decision)

def canonicalAdapter (adapter : ShapesAdapter) : JsonValue :=
  .object
    [(js "form", .string (js "openape-shapes-semantic/v1")),
      (js "schema", .string adapter.schema),
      (js "cli", .object
        [(js "id", .string adapter.cli.id),
          (js "executable", .string adapter.cli.executable),
          (js "audience", match adapter.cli.audience with
            | none => .null
            | some audience => .string audience)]),
      (js "operations",
        .array (adapter.operations.map canonicalOperation))]

/-- `hash` is the hexadecimal SHA-256 of a text. -/
def semanticAdapterDigest (hash : JsString → JsString)
    (adapter : ShapesAdapter) : JsString :=
  js "SHA-256:" ++ hash (stringify (canonicalAdapter adapter))

/-! ## What the digest determines -/

/-- An operation as the matcher reads it, without its display. -/
def semantics (operation : ShapeMatchOperation) : ShapeMatchOperation :=
  { operation with
    positionals := some (operation.positionals.getD [])
    requiredOptions := some (operation.requiredOptions.getD [])
    globalOptions := some (operation.globalOptions.getD [])
    display := []
    exactCommand := some (operation.exactCommand == some true) }

theorem stringList_injective : Function.Injective stringList := by
  intro texts texts' h
  have hStrings : texts.map JsonValue.string = texts'.map .string :=
    JsonValue.array.inj h
  exact (List.map_injective_iff.mpr (fun _ _ => JsonValue.string.inj))
    hStrings

theorem nullable_injective : Function.Injective nullable := by
  rintro (_ | texts) (_ | texts') h
  · rfl
  · cases h
  · cases h
  · exact congrArg some (stringList_injective h)

theorem riskText_injective : Function.Injective riskText := by
  intro risk risk'
  cases risk <;> cases risk' <;> decide

theorem decisionText_injective : Function.Injective decisionText := by
  intro decision decision'
  cases decision <;> cases decision' <;> decide

theorem decisionMembers_injective : Function.Injective decisionMembers := by
  rintro (_ | decision) (_ | decision') h
  · rfl
  · cases h
  · cases h
  · simp only [decisionMembers, List.cons.injEq, Prod.mk.injEq,
      JsonValue.string.injEq, true_and, and_true] at h
    exact congrArg some (decisionText_injective h)

/-- The canonical operation determines what the matcher reads. -/
theorem semantics_eq {operation operation' : ShapeMatchOperation}
    (h : canonicalOperation operation = canonicalOperation operation') :
    semantics operation = semantics operation' := by
  have hMembers := JsonValue.object.inj h
  simp only [List.cons_append, List.nil_append, List.cons.injEq,
    Prod.mk.injEq, true_and, JsonValue.string.injEq, JsonValue.bool.injEq]
    at hMembers
  obtain ⟨hId, hCommand, hPositionals, hRequired, hValue, hFlag, hGlobal,
    hAction, hRisk, hChain, hExact, hDecision⟩ := hMembers
  simp only [semantics, ShapeMatchOperation.mk.injEq]
  exact ⟨hId, stringList_injective hCommand,
    congrArg some (stringList_injective hPositionals),
    congrArg some (stringList_injective hRequired),
    nullable_injective hValue, nullable_injective hFlag,
    congrArg some (stringList_injective hGlobal), trivial, hAction,
    riskText_injective hRisk, stringList_injective hChain,
    congrArg some hExact, decisionMembers_injective hDecision⟩

/-- The canonical adapter determines the program and its operations. -/
theorem canonicalAdapter_eq {adapter adapter' : ShapesAdapter}
    (h : canonicalAdapter adapter = canonicalAdapter adapter') :
    adapter.cli.id = adapter'.cli.id ∧
      adapter.operations.map semantics =
        adapter'.operations.map semantics := by
  have hMembers := JsonValue.object.inj h
  simp only [List.cons.injEq, Prod.mk.injEq, true_and, and_true,
    JsonValue.string.injEq, JsonValue.object.injEq, JsonValue.array.injEq]
    at hMembers
  obtain ⟨_, ⟨hId, _⟩, hOperations⟩ := hMembers
  refine ⟨hId, ?_⟩
  generalize adapter.operations = operations at hOperations
  generalize adapter'.operations = operations' at hOperations
  induction operations generalizing operations' with
  | nil =>
      cases operations' with
      | nil => rfl
      | cons _ _ => cases hOperations
  | cons operation rest ih =>
      cases operations' with
      | nil => cases hOperations
      | cons operation' rest' =>
          obtain ⟨hFirst, hRest⟩ := List.cons.inj hOperations
          exact congrArg₂ List.cons (semantics_eq hFirst) (ih rest' hRest)

theorem canonicalAdapter_of_digest {hash : JsString → JsString}
    (hHash : Function.Injective hash) {adapter adapter' : ShapesAdapter}
    (h : semanticAdapterDigest hash adapter =
      semanticAdapterDigest hash adapter') :
    canonicalAdapter adapter = canonicalAdapter adapter' :=
  stringify_injective (hHash (List.append_cancel_left h))

/-! ## Matching -/

theorem matchOperation_semantics (operation : ShapeMatchOperation)
    (argv : List JsString) :
    matchOperation (semantics operation) argv =
      matchOperation operation argv := by
  obtain ⟨id, command, positionals, required, value, flag, globals, display,
    action, risk, chain, exact, decision⟩ := operation
  rcases globals with _ | _ | _ <;> rfl

/-- An operation with its position. -/
abbrev PlacedOperation := ShapeMatchOperation × Nat

/-- The operation an argv selects, with its position and the bindings. -/
def selectedOperation (adapter : ShapesAdapter) (argv : List JsString) :
    Option (PlacedOperation × Record) :=
  matchArgvToOperation Prod.fst adapter.operations.zipIdx argv

/-- Forgetting the position gives what the matcher returns. -/
theorem selectedOperation_fst (adapter : ShapesAdapter)
    (argv : List JsString) :
    (selectedOperation adapter argv).map (Prod.map Prod.fst id) =
      matchArgvToOperation id adapter.operations argv := by
  have hOperations : adapter.operations =
      adapter.operations.zipIdx.map Prod.fst := by simp
  conv_rhs => rw [hOperations]
  exact (matchArgvToOperation_map Prod.fst id Prod.fst (fun _ _ => rfl)
    (fun _ => rfl) (fun _ => rfl) _ _).symm

/-- Adapters with the same semantics select at the same position and bind the
same. -/
theorem selectedOperation_congr {adapter adapter' : ShapesAdapter}
    (h : adapter.operations.map semantics =
      adapter'.operations.map semantics) (argv : List JsString) :
    (selectedOperation adapter argv).map
        (Prod.map (Prod.map semantics id) id) =
      (selectedOperation adapter' argv).map
        (Prod.map (Prod.map semantics id) id) := by
  have hSemantics : ∀ adapter : ShapesAdapter,
      (selectedOperation adapter argv).map
          (Prod.map (Prod.map semantics id) id) =
        matchArgvToOperation Prod.fst
          (adapter.operations.map semantics).zipIdx argv := by
    intro adapter
    rw [List.zipIdx_map]
    exact (matchArgvToOperation_map Prod.fst Prod.fst (Prod.map semantics id)
      (fun t argv => matchOperation_semantics t.1 argv) (fun _ => rfl)
      (fun _ => rfl) _ _).symm
  rw [hSemantics, hSemantics, h]

/-- The selected operation is the one at its position. -/
theorem getElem?_of_selected {adapter : ShapesAdapter}
    {argv : List JsString} {operation : ShapeMatchOperation} {index : Nat}
    {bindings : Record}
    (h : selectedOperation adapter argv =
      some ((operation, index), bindings)) :
    adapter.operations[index]? = some operation := by
  have hMem := (matchArgvToOperation_some h).1
  exact List.mem_zipIdx_iff_getElem?.mp hMem

/-- Two selections that agree but for the displays. -/
theorem selectedOperation_cases {adapter adapter' : ShapesAdapter}
    (h : adapter.operations.map semantics =
      adapter'.operations.map semantics) (argv : List JsString) :
    (selectedOperation adapter argv = none ∧
        selectedOperation adapter' argv = none) ∨
      ∃ operation operation' index bindings,
        selectedOperation adapter argv =
          some ((operation, index), bindings) ∧
        selectedOperation adapter' argv =
          some ((operation', index), bindings) ∧
        semantics operation = semantics operation' := by
  have hSame := selectedOperation_congr h argv
  cases hFirst : selectedOperation adapter argv with
  | none =>
      rw [hFirst] at hSame
      exact .inl ⟨rfl, Option.map_eq_none_iff.mp hSame.symm⟩
  | some selected =>
      obtain ⟨⟨operation, index⟩, bindings⟩ := selected
      rw [hFirst] at hSame
      obtain ⟨⟨⟨operation', index'⟩, bindings'⟩, hSecond, hParts⟩ :=
        Option.map_eq_some_iff.mp hSame.symm
      simp only [Prod.map_apply, Prod.mk.injEq, id_eq] at hParts
      obtain ⟨⟨hSemantics, rfl⟩, rfl⟩ := hParts
      exact .inr ⟨operation, operation', index', bindings', rfl, hSecond,
        hSemantics.symm⟩

/-! ## Permissions -/

section Details

variable [Collation]

/-- A detail is built when its chain and then its display render. -/
theorem buildCliAuthDetail_eq (cliId : JsString)
    (operation : ShapeMatchOperation) (bindings : Record) :
    buildCliAuthDetail cliId operation bindings =
      match parseResourceChain operation.resourceChain bindings,
        renderTemplate operation.display bindings with
      | .error error, _ => .error error
      | .ok _, .error error => .error error
      | .ok resourceChain, .ok display =>
          .ok
            { cliId
              operationId := operation.id
              resourceChain
              action := operation.action
              permission := canonicalizeCliPermission cliId resourceChain
                operation.action
              display
              risk := operation.risk
              constraints := operationConstraints operation } := by
  unfold buildCliAuthDetail
  cases parseResourceChain operation.resourceChain bindings with
  | error error => rfl
  | ok resourceChain =>
      cases renderTemplate operation.display bindings with
      | error error => rfl
      | ok display => rfl

/-- Both fail, or both give the same detail but for the display. -/
def SameOutcome :
    Except JsError CliAuthorizationDetail →
    Except JsError CliAuthorizationDetail → Prop
  | .ok detail, .ok detail' =>
      { detail with display := [] } = { detail' with display := [] }
  | .error _, .error _ => True
  | .ok _, .error _ => False
  | .error _, .ok _ => False

/-- The displays of two operations both render or both fail, unless the
chain fails. -/
def DisplaysAgree (operation operation' : ShapeMatchOperation)
    (bindings : Record) : Prop :=
  (parseResourceChain operation.resourceChain bindings).isOk = true →
    (renderTemplate operation.display bindings).isOk =
      (renderTemplate operation'.display bindings).isOk

/-- Details of operations with the same semantics differ in the display
alone, when there are both. -/
theorem sameOutcome_iff {operation operation' : ShapeMatchOperation}
    (h : semantics operation = semantics operation') (cliId : JsString)
    (bindings : Record) :
    SameOutcome (buildCliAuthDetail cliId operation bindings)
        (buildCliAuthDetail cliId operation' bindings) ↔
      DisplaysAgree operation operation' bindings := by
  simp only [semantics, ShapeMatchOperation.mk.injEq, Option.some.injEq] at h
  obtain ⟨hId, _, _, _, _, _, _, _, hAction, hRisk, hChain, hExact,
    hDecision⟩ := h
  have hConstraints : operationConstraints operation =
      operationConstraints operation' := by
    have hTrue : operation.exactCommand = some true ↔
        operation'.exactCommand = some true := by
      rw [← beq_iff_eq, hExact, beq_iff_eq]
    simp only [operationConstraints, hTrue, hDecision]
  rw [buildCliAuthDetail_eq, buildCliAuthDetail_eq, DisplaysAgree, ← hChain]
  cases parseResourceChain operation.resourceChain bindings with
  | error error => simp [SameOutcome, Except.isOk, Except.toBool]
  | ok resourceChain =>
      cases renderTemplate operation.display bindings <;>
        cases renderTemplate operation'.display bindings <;>
        simp [SameOutcome, Except.isOk, Except.toBool, hId, hAction, hRisk,
          hConstraints]

/-- The detail an argv is authorized with; none when nothing matches. -/
def authorize (adapter : ShapesAdapter) (argv : List JsString) :
    Option (Except JsError CliAuthorizationDetail) :=
  (selectedOperation adapter argv).map (fun selected =>
    buildCliAuthDetail adapter.cli.id selected.1.1 selected.2)

/-- The permission an argv results in, if any. -/
def permissionOf (adapter : ShapesAdapter) (argv : List JsString) :
    Option JsString :=
  (authorize adapter argv).bind (fun outcome =>
    outcome.toOption.map CliAuthorizationDetail.permission)

/-- Two adapters select at the same position with the same bindings and then
build the same detail but for the display, or both fail, or neither
selects. -/
def SameAuthorization (adapter adapter' : ShapesAdapter)
    (argv : List JsString) : Prop :=
  match selectedOperation adapter argv, selectedOperation adapter' argv with
  | none, none => True
  | some ((operation, index), bindings),
      some ((operation', index'), bindings') =>
      index = index' ∧ bindings = bindings' ∧
        SameOutcome (buildCliAuthDetail adapter.cli.id operation bindings)
          (buildCliAuthDetail adapter'.cli.id operation' bindings')
  | _, _ => False

/-- Where the first adapter selects, its display template and the one of the
second adapter's operation at that position agree. -/
def DisplaysAlike (adapter adapter' : ShapesAdapter)
    (argv : List JsString) : Prop :=
  ∀ operation index bindings operation',
    selectedOperation adapter argv = some ((operation, index), bindings) →
    adapter'.operations[index]? = some operation' →
    DisplaysAgree operation operation' bindings

/-- Adapters with one digest authorize an argv alike exactly when the
displays of the selected operations agree. -/
theorem sameAuthorization_iff {adapter adapter' : ShapesAdapter}
    (h : canonicalAdapter adapter = canonicalAdapter adapter')
    (argv : List JsString) :
    SameAuthorization adapter adapter' argv ↔
      DisplaysAlike adapter adapter' argv := by
  obtain ⟨hId, hOperations⟩ := canonicalAdapter_eq h
  rcases selectedOperation_cases hOperations argv with ⟨hNone, hNone'⟩ |
    ⟨operation, operation', index, bindings, hSome, hSome', hSemantics⟩
  · simp [SameAuthorization, DisplaysAlike, hNone, hNone']
  · have hPlace := getElem?_of_selected hSome'
    simp only [SameAuthorization, hSome, hSome', true_and, ← hId,
      sameOutcome_iff hSemantics]
    constructor
    · intro hAgree op i b op' hSelected hOp'
      rw [hSome] at hSelected
      cases hSelected
      rw [hPlace] at hOp'
      cases hOp'
      exact hAgree
    · intro hAlike
      exact hAlike operation index bindings operation' hSome hPlace

theorem permissionOf_congr {adapter adapter' : ShapesAdapter}
    {argv : List JsString} (h : SameAuthorization adapter adapter' argv) :
    permissionOf adapter argv = permissionOf adapter' argv := by
  unfold SameAuthorization at h
  unfold permissionOf authorize
  split at h
  · rename_i hNone hNone'
    rw [hNone, hNone']
    rfl
  · rename_i operation index bindings operation' index' bindings' hSome hSome'
    obtain ⟨_, _, hOutcome⟩ := h
    rw [hSome, hSome']
    simp only [Option.map_some, Option.bind_some]
    revert hOutcome
    cases buildCliAuthDetail adapter.cli.id operation bindings <;>
      cases buildCliAuthDetail adapter'.cli.id operation' bindings' <;>
      intro hOutcome
    · rfl
    · exact hOutcome.elim
    · exact hOutcome.elim
    · exact congrArg (fun detail => some detail.permission) hOutcome
  · exact h.elim

/-- **Adapters with one digest authorize alike** for an argv, up to the
display, exactly when the display templates of the selected operations both
render or both fail; and adapters that result in different permissions for
an argv for which they agree so have different digests. -/
theorem digest_determines_authorization (hash : JsString → JsString)
    (hHash : Function.Injective hash) (adapter adapter' : ShapesAdapter) :
    (semanticAdapterDigest hash adapter =
        semanticAdapterDigest hash adapter' →
      ∀ argv, SameAuthorization adapter adapter' argv ↔
        DisplaysAlike adapter adapter' argv) ∧
    (∀ argv, DisplaysAlike adapter adapter' argv →
      permissionOf adapter argv ≠ permissionOf adapter' argv →
      semanticAdapterDigest hash adapter ≠
        semanticAdapterDigest hash adapter') := by
  refine ⟨fun hDigest argv =>
    sameAuthorization_iff (canonicalAdapter_of_digest hHash hDigest) argv,
    fun argv hAlike hPermission hDigest => hPermission ?_⟩
  exact permissionOf_congr ((sameAuthorization_iff
    (canonicalAdapter_of_digest hHash hDigest) argv).mpr hAlike)

end Details

/-! ## A display that does not render -/

/-- An operation that shows a repository. -/
def viewOperation (display : String) : ShapeMatchOperation where
  id := js "repo.view"
  command := [js "view"]
  positionals := some [js "repo"]
  display := js display
  action := js "read"
  risk := .low
  resourceChain := [js "repo:name={repo}"]

def viewAdapter (display : String) : ShapesAdapter where
  schema := js "openape-shapes/v1"
  cli := { id := js "gh", executable := js "gh" }
  operations := [viewOperation display]

/-- The display is not part of the digest. -/
theorem digest_viewAdapter (hash : JsString → JsString)
    (display display' : String) :
    semanticAdapterDigest hash (viewAdapter display) =
      semanticAdapterDigest hash (viewAdapter display') := by
  have hCanonical : canonicalAdapter (viewAdapter display) =
      canonicalAdapter (viewAdapter display') := rfl
  rw [semanticAdapterDigest, semanticAdapterDigest, hCanonical]

theorem selectedOperation_view :
    selectedOperation (viewAdapter "View {repo}") [js "view", js "api"] =
      some ((viewOperation "View {repo}", 0),
        Record.ofPairs [(js "repo", js "api")]) := by
  decide

/-- The theorem at work: another display that renders changes nothing. -/
theorem digest_determines_authorization_view :
    letI := codeUnitCollation
    SameAuthorization (viewAdapter "View {repo}") (viewAdapter "Show {repo}")
      [js "view", js "api"] := by
  let := codeUnitCollation
  refine ((digest_determines_authorization id Function.injective_id
    (viewAdapter "View {repo}") (viewAdapter "Show {repo}")).1
      (digest_viewAdapter id _ _) _).mpr ?_
  intro operation index bindings operation' hSelected hPlace _
  rw [selectedOperation_view] at hSelected
  cases hSelected
  cases hPlace
  decide

/-- A display that asks for the owner fails on a repository without one, and
with it the call, although the digest is the same. -/
theorem not_sameAuthorization_owner :
    letI := codeUnitCollation
    semanticAdapterDigest id (viewAdapter "View {repo}") =
        semanticAdapterDigest id (viewAdapter "View {repo|owner}") ∧
      ¬SameAuthorization (viewAdapter "View {repo}")
        (viewAdapter "View {repo|owner}") [js "view", js "api"] := by
  let := codeUnitCollation
  have hDigest := digest_viewAdapter id "View {repo}" "View {repo|owner}"
  refine ⟨hDigest, fun hSame => ?_⟩
  have hAlike := (sameAuthorization_iff
    (canonicalAdapter_of_digest Function.injective_id hDigest) _).mp hSame
  have hAgree := hAlike _ 0 _ _ selectedOperation_view rfl (by decide)
  exact absurd hAgree (by decide)

end OpenApe.Ports.ShapeDigest
