import OpenApe.Ports.ShapeTemplates
import OpenApe.Ports.ShapeToml

/-!
# Publishing shapes (`shape-tiers.ts`)

`parseTierShape` accepts an adapter for one of the three tiers.  For a
personal or domain shape it renders the templates of every operation once,
with `owner/name` for each binding that every match sets.  What that check
leaves open is exactly the bound values (`published_resolves_iff`): the chain
is well formed and every transform is supported, but a positional may be
bound to an empty text, and a value may have no owner and name.
-/

namespace OpenApe.Ports.ShapeTiers

open Verified.JsText Verified.JsText.Record Verified.Fallible Verified.Json
  Verified.Unicode
open GrantTypes ShapeMatcher ShapeTemplates ShapeDigest ShapeToml

/-! ## Shapes -/

inductive ShapeTier where
  | instanceTier
  | domain
  | personal
  deriving DecidableEq

inductive ShapeSource where
  | builtin
  | custom
  deriving DecidableEq

structure ServerShape where
  cliId : JsString
  executable : JsString
  description : JsString
  operations : List ShapeMatchOperation
  source : ShapeSource
  owner : Option JsString := none
  domain : Option JsString := none
  toml : Option JsString := none
  digest : JsString
  versions : Option ShapeCliVersions := none
  testedDigests : Option (List JsString) := none
  isVirtual : Option Bool := none
  createdAt : Int
  updatedAt : Int
  deriving DecidableEq

/-- The operations that the Pods desktop performs itself. -/
def desktopOwnShapeIds : List JsString :=
  [js "pod-runtime", js "pod-http", js "pod-ssh"]

/-! ## The checks -/

/-- `SHAPE_LIMITS.tomlBytes` -/
def tomlBytes : Nat := 64 * 1024

/-- `/^[a-z0-9][\w.-]{0,63}$/i` -/
def isCliName (name : JsString) : Bool :=
  match name with
  | [] => false
  | first :: rest =>
      (isDigit first || isLetter first) && decide (rest.length ≤ 63) &&
        rest.all (fun u => isNameUnit u || u == unit '.')

/-- `fail(title, status)` -/
def problem (title : JsString) (status : Nat := 400) : JsError :=
  ⟨.http status, title⟩

def tierText : ShapeTier → JsString
  | .instanceTier => js "instance"
  | .domain => js "domain"
  | .personal => js "personal"

/-- Checks a name of the program. -/
def checkName (scope : ShapeTier) (name : JsString) : Except JsError Unit :=
  if !isCliName name || name.contains (unit '/') then
    throw (problem (quote name ++ js " must be a plain program name"))
  else if scope ≠ .instanceTier ∧ name ∈ desktopOwnShapeIds then
    throw (problem (name ++ js " is reserved for the Pods desktop") 409)
  else pure ()

/-- The names every match of an operation binds. -/
def alwaysBound (operation : ShapeMatchOperation) : List JsString :=
  (operation.positionals.getD []).filter
    (fun name => !startsWith name "=") ++
    operation.requiredOptions.getD []

/-- The bindings the publish-time check renders with. -/
def publishBindings (operation : ShapeMatchOperation) : Record :=
  Record.ofPairs ((alwaysBound operation).map
    (fun name => (name, js "owner/name")))

/-- The check of an operation's templates. -/
def checkTemplates [Collation] (cliId : JsString)
    (operation : ShapeMatchOperation) : Except JsError Unit := do
  assertResourceChainTemplates operation.resourceChain
  let _ ← buildCliAuthDetail cliId operation (publishBindings operation)
  pure ()

/-- The checks of one operation, after those whose ids are `taken`. -/
def checkOperation [Collation] (scope : ShapeTier) (cliId : JsString)
    (taken : List JsString) (operation : ShapeMatchOperation) :
    Except JsError Unit :=
  if startsWith operation.id "_" then
    throw (problem (cliId ++ js ": operation id " ++ operation.id ++
      js " is reserved"))
  else if operation.id ∈ taken then
    throw (problem (cliId ++ js ": operation id " ++ operation.id ++
      js " is declared twice"))
  else if scope = .instanceTier then pure ()
  else
    match checkTemplates cliId operation with
    | .ok () => pure ()
    | .error error =>
        throw (problem (cliId ++ js ": operation " ++ operation.id ++
          js ": " ++ error.message ++
          js " (templates may use positionals and required options)"))

def checkOperations [Collation] (scope : ShapeTier) (cliId : JsString) :
    List JsString → List ShapeMatchOperation → Except JsError Unit
  | _, [] => pure ()
  | taken, operation :: operations => do
      checkOperation scope cliId taken operation
      checkOperations scope cliId (operation.id :: taken) operations

/-- The adapter text; `none` stands for a value that is no string. -/
def tomlText (toml : Option JsString) : Except JsError JsString :=
  match toml.filter (fun toml => trim toml ≠ []) with
  | none =>
      throw (problem
        (js "Each shape must be \x7b\"toml\": \"<adapter.toml content>\"\x7d"))
  | some toml =>
      if utf8Length toml > tomlBytes then
        throw (problem (js "An adapter exceeds " ++ js (toString tomlBytes) ++
          js " bytes") 413)
      else pure toml

def descriptionText (description : Option JsString) :
    Except JsError JsString :=
  match description.filter (fun description => description.length ≤ 2000) with
  | none =>
      throw (problem
        (js "description must be a string of at most 2000 characters"))
  | some description => pure description

def parseAdapter (parser : TomlParser) (toml : JsString) :
    Except JsError ShapesAdapter :=
  match parseAdapterToml parser toml with
  | .ok adapter => pure adapter
  | .error error => throw (problem (js "Invalid adapter: " ++ error.message))

/-- The checks of an adapter as a whole. -/
def checkCli (scope : ShapeTier) (adapter : ShapesAdapter) :
    Except JsError Unit := do
  let cli := adapter.cli
  checkName scope cli.id
  checkName scope cli.executable
  if scope ≠ .instanceTier ∧
      (cli.testedDigests.isSome ∨ cli.versions.isSome) then
    throw (problem (cli.id ++ js ": tested_digests and tested versions are " ++
      js "registry facts; remove them from a " ++ tierText scope ++
      js " shape"))
  else if adapter.operations.isEmpty then
    throw (problem (cli.id ++ js ": the adapter declares no operation"))
  else pure ()

/-- The shape that is stored for an adapter. -/
def tierShape (hash : JsString → JsString) (scope : ShapeTier)
    (toml description : JsString) (adapter : ShapesAdapter) : ServerShape where
  cliId := adapter.cli.id
  executable := adapter.cli.executable
  description := if scope = .personal then [] else description
  operations := adapter.operations
  source := if scope = .instanceTier then .builtin else .custom
  digest := semanticAdapterDigest hash adapter
  toml := some toml
  versions := if scope = .instanceTier then adapter.cli.versions else none
  testedDigests :=
    if scope = .instanceTier then adapter.cli.testedDigests else none
  isVirtual :=
    if scope = .instanceTier ∧ adapter.cli.id ∈ desktopOwnShapeIds then
      some true
    else none
  createdAt := 0
  updatedAt := 0

def parseTierShape [Collation] (parser : TomlParser)
    (hash : JsString → JsString) (scope : ShapeTier)
    (toml description : Option JsString) : Except JsError ServerShape := do
  let toml ← tomlText toml
  let description ← descriptionText description
  let adapter ← parseAdapter parser toml
  checkCli scope adapter
  checkOperations scope adapter.cli.id [] adapter.operations
  pure (tierShape hash scope toml description adapter)

/-! ## What a published shape has passed -/

section Published

variable [Collation]

theorem checkTemplates_of_checkOperation {scope : ShapeTier}
    (hScope : scope ≠ .instanceTier) {cliId : JsString} {taken : List JsString}
    {operation : ShapeMatchOperation}
    (h : checkOperation scope cliId taken operation = .ok ()) :
    checkTemplates cliId operation = .ok () := by
  unfold checkOperation at h
  split at h
  · cases h
  · split at h
    · cases h
    · split at h
      · assumption
      · cases h

theorem checkTemplates_of_checkOperations {scope : ShapeTier}
    (hScope : scope ≠ .instanceTier) {cliId : JsString}
    {operations : List ShapeMatchOperation} {taken : List JsString}
    (h : checkOperations scope cliId taken operations = .ok ()) :
    ∀ operation ∈ operations, checkTemplates cliId operation = .ok () := by
  induction operations generalizing taken with
  | nil => simp
  | cons operation operations ih =>
      obtain ⟨_, hFirst, hRest⟩ := bind_eq_ok.mp h
      exact List.forall_mem_cons.mpr
        ⟨checkTemplates_of_checkOperation hScope hFirst, ih hRest⟩

/-- The templates of a personal or domain shape were rendered. -/
theorem checkTemplates_of_published {parser : TomlParser}
    {hash : JsString → JsString} {scope : ShapeTier}
    (hScope : scope ≠ .instanceTier) {toml description : Option JsString}
    {shape : ServerShape}
    (h : parseTierShape parser hash scope toml description = .ok shape) :
    ∀ operation ∈ shape.operations,
      checkTemplates shape.cliId operation = .ok () := by
  obtain ⟨toml, _, h⟩ := bind_eq_ok.mp h
  obtain ⟨description, _, h⟩ := bind_eq_ok.mp h
  obtain ⟨adapter, _, h⟩ := bind_eq_ok.mp h
  obtain ⟨_, _, h⟩ := bind_eq_ok.mp h
  obtain ⟨_, hOperations, h⟩ := bind_eq_ok.mp h
  cases h
  exact checkTemplates_of_checkOperations hScope hOperations

/-- A template that was rendered once has a well-formed chain and only
supported transforms. -/
theorem wellFormed_of_checkTemplates {cliId : JsString}
    {operation : ShapeMatchOperation}
    (h : checkTemplates cliId operation = .ok ()) :
    (assertResourceChainTemplates operation.resourceChain).isOk = true ∧
      ∀ token ∈ operationTokens operation,
        SupportedTransform token.transform := by
  obtain ⟨_, _, h⟩ := bind_eq_ok.mp h
  obtain ⟨detail, hDetail, _⟩ := bind_eq_ok.mp h
  have hResolves := (buildCliAuthDetail_isOk_iff _ _ _).mp
    (isOk_iff.mpr ⟨detail, hDetail⟩)
  exact ⟨hResolves.1, fun token hMem => (hResolves.2 token hMem).1⟩

/-- **A call of a published program resolves** exactly when every binding
that the matched operation's templates name has a value, and one with an
owner and a name where a template takes one of them. -/
theorem published_resolves_iff (parser : TomlParser)
    (hash : JsString → JsString) (scope : ShapeTier)
    (hScope : scope ≠ .instanceTier) (toml description : Option JsString)
    (shape : ServerShape)
    (hPublished : parseTierShape parser hash scope toml description =
      .ok shape)
    (argv : List JsString) (operation : ShapeMatchOperation)
    (bindings : Record)
    (hMatch : matchArgvToOperation id shape.operations argv =
      some (operation, bindings)) :
    (buildCliAuthDetail shape.cliId operation bindings).isOk = true ↔
      ∀ token ∈ operationTokens operation, Served bindings token := by
  have hMem := (matchArgvToOperation_some hMatch).1
  obtain ⟨hChain, hTransforms⟩ := wellFormed_of_checkTemplates
    (checkTemplates_of_published hScope hPublished operation hMem)
  rw [buildCliAuthDetail_isOk_iff]
  constructor
  · rintro ⟨_, hTokens⟩ token hToken
    exact (hTokens token hToken).2
  · intro hServed
    exact ⟨hChain, fun token hToken =>
      ⟨hTransforms token hToken, hServed token hToken⟩⟩

end Published

/-! ## A repository without an owner -/

/-- An adapter as its owner writes it. -/
def ghToml : JsString :=
  js "schema = \"openape-shapes/v1\"\n" ++ js "[cli]\nid = \"gh\"\n" ++
    js "executable = \"gh\"\n" ++ js "[[operation]]\n" ++
    js "id = \"repo.view\"\n" ++ js "command = [\"view\"]\n" ++
    js "positionals = [\"repo\"]\n" ++ js "display = \"View {repo}\"\n" ++
    js "action = \"read\"\n" ++
    js "resource_chain = [\"repo:name={repo|name}\"]\n"

/-- What the TOML parser reads it as. -/
def ghTable : TomlTable :=
  [(js "schema", .string (js "openape-shapes/v1")),
    (js "cli", .table
      [(js "id", .string (js "gh")), (js "executable", .string (js "gh"))]),
    (js "operation", .array
      [.table
        [(js "id", .string (js "repo.view")),
          (js "command", .array [.string (js "view")]),
          (js "positionals", .array [.string (js "repo")]),
          (js "display", .string (js "View {repo}")),
          (js "action", .string (js "read")),
          (js "resource_chain",
            .array [.string (js "repo:name={repo|name}")])]])]

def ghParser : TomlParser where
  parse text :=
    if text = ghToml then .ok ghTable
    else .error (plainError (js "Invalid TOML document"))
  captureGroups _ := none
  parseShapePresentation _ _ _ := .ok ()

def ghView : ShapeMatchOperation where
  id := js "repo.view"
  command := [js "view"]
  positionals := some [js "repo"]
  display := js "View {repo}"
  action := js "read"
  risk := .low
  resourceChain := [js "repo:name={repo|name}"]

def ghAdapter : ShapesAdapter where
  schema := js "openape-shapes/v1"
  cli := { id := js "gh", executable := js "gh" }
  operations := [ghView]

def ghShape : ServerShape := tierShape id .personal ghToml [] ghAdapter

theorem parseTierShape_gh :
    letI := codeUnitCollation
    parseTierShape ghParser id .personal (some ghToml) (some []) =
      .ok ghShape := by
  let := codeUnitCollation
  have hSize : ¬utf8Length ghToml > tomlBytes := by decide +kernel
  have hText : tomlText (some ghToml) = .ok ghToml := by
    have hVisible : trim ghToml ≠ [] := by decide
    simp only [tomlText, Option.filter_some, hVisible, hSize, ne_eq,
      not_false_eq_true, decide_true, if_true, if_false]
    rfl
  have hAdapter : parseAdapter ghParser ghToml = .ok ghAdapter := by
    have hParse : ghParser.parse ghToml = .ok ghTable := by
      simp only [ghParser, if_true]
    have hTable : parseAdapterToml ghParser ghToml = .ok ghAdapter := by
      rw [parseAdapterToml, hParse]
      rfl
    rw [parseAdapter, hTable]
    rfl
  refine bind_eq_ok.mpr ⟨_, hText, bind_eq_ok.mpr ⟨[], rfl,
    bind_eq_ok.mpr ⟨_, hAdapter, bind_eq_ok.mpr ⟨(), by decide,
      bind_eq_ok.mpr ⟨(), by decide, rfl⟩⟩⟩⟩⟩

theorem operationTokens_ghView :
    operationTokens ghView =
      [⟨js "repo", some (js "name")⟩, ⟨js "repo", none⟩] := by
  decide

/-- The theorem at work: `gh view acme/api` resolves. -/
theorem published_resolves_iff_owned :
    letI := codeUnitCollation
    (buildCliAuthDetail ghShape.cliId ghView
      (Record.ofPairs [(js "repo", js "acme/api")])).isOk = true := by
  let := codeUnitCollation
  refine (published_resolves_iff ghParser id .personal (by decide) _ _ ghShape
    parseTierShape_gh [js "view", js "acme/api"] ghView _
    (by decide)).mpr ?_
  rw [operationTokens_ghView]
  have hRead : (Record.ofPairs [(js "repo", js "acme/api")]).read
      (js "repo") = some (.text (js "acme/api")) := by decide
  intro token hToken
  simp only [List.mem_cons, List.not_mem_nil, or_false] at hToken
  rcases hToken with rfl | rfl
  · exact ⟨_, hRead, by decide, .inr ⟨_, rfl, by decide⟩⟩
  · exact ⟨_, hRead, by decide, .inl rfl⟩

/-- `gh view api` matches the operation of the shape that was published, and
its detail cannot be built. -/
theorem published_fails_unowned :
    letI := codeUnitCollation
    ¬∀ (toml description : Option JsString) (shape : ServerShape)
      (argv : List JsString) (operation : ShapeMatchOperation)
      (bindings : Record),
      parseTierShape ghParser id .personal toml description = .ok shape →
      matchArgvToOperation id shape.operations argv =
        some (operation, bindings) →
      (buildCliAuthDetail shape.cliId operation bindings).isOk = true := by
  let := codeUnitCollation
  intro hAlways
  have hBuilt := hAlways _ _ ghShape [js "view", js "api"] ghView
    (Record.ofPairs [(js "repo", js "api")]) parseTierShape_gh
    (by decide)
  exact absurd hBuilt (by decide)

end OpenApe.Ports.ShapeTiers
