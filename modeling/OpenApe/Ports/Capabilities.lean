import OpenApe.Ports.CompoundShell

/-!
# Capability requests (`packages/shapes/src/capabilities.ts`)

A capability is asked for by a chain of resources, selectors of the form
`resource.key=value` and actions; the answer holds one authorization detail
for each action, which covers every operation of the adapter below the chain.

A selector is split at its equals signs and its dots with a limit of two
pieces, so what comes after a second one is lost; selectors are collected by
resource and read back only for the listed resources.
-/

namespace OpenApe.Ports.Capabilities

open Verified.JsText Verified.JsText.Record Verified.KeyedTable
open GrantTypes CliPermissions ShapeMatcher
open ShapeDigest (ShapesAdapter)
open CompoundShell (LoadedAdapter)

/-! ## Operation chains -/

/-- `const [first, second] = text.split(separator, 2)` -/
def splitPair (separator : CodeUnit) (text : JsString) :
    JsString × Option JsString :=
  match text.splitOn separator with
  | first :: second :: _ => (first, some second)
  | [first] => (first, none)
  | [] => ([], none)

structure ParsedOperationChainEntry where
  resource : JsString
  selectorKeys : List JsString
  deriving DecidableEq

def selectorKey (segment : JsString) : Except JsError JsString :=
  let key := (splitPair (unit '=') segment).1
  if key.isEmpty then
    throw (plainError (js "Invalid selector segment: " ++ segment))
  else pure key

def parseOperationChainEntry (entry : JsString) :
    Except JsError ParsedOperationChainEntry := do
  let (resource, selectorSpec) := chainEntry entry
  if resource.isEmpty then throw (invalidEntry entry)
  else if selectorSpec = js "*" then pure { resource, selectorKeys := [] }
  else do
    let selectorKeys ←
      (selectorSpec.splitOn (unit ',')).mapM selectorKey
    pure { resource, selectorKeys }

def operationChain (operation : ShapeMatchOperation) :
    Except JsError (List ParsedOperationChainEntry) :=
  operation.resourceChain.mapM parseOperationChainEntry

def knownSelectorKeys (operations : List ShapeMatchOperation)
    (resource : JsString) : Except JsError (List JsString) := do
  let chains ← operations.mapM operationChain
  let entries := chains.flatten.filter (fun entry =>
    entry.resource = resource)
  pure ((entries.flatMap ParsedOperationChainEntry.selectorKeys).eraseDups
    |>.insertionSort (fun a b => a ≤ b))

/-! ## Selectors -/

structure ParsedSelector where
  resource : JsString
  key : JsString
  value : JsString
  deriving DecidableEq

def parseResourceSelector (raw : JsString) : Except JsError ParsedSelector :=
  let (lhs, value) := splitPair (unit '=') raw
  if lhs.isEmpty || !truthy value then
    throw (plainError (js "Invalid selector: " ++ raw))
  else
    let (resource, key) := splitPair (unit '.') lhs
    if resource.isEmpty || !truthy key then
      throw (plainError
        (js "Selectors must be in resource.key=value form: " ++ raw))
    else pure { resource, key := key.getD [], value := value.getD [] }

/-- The selectors of each resource, in the order of the `Map`. -/
abbrev SelectorMap :=
  Table (Prod.fst : JsString × Record → JsString)

def SelectorMap.get (selectors : SelectorMap) (resource : JsString) :
    Option Record :=
  (selectors.find? resource).map Prod.snd

/-- One turn of the loop over the selectors. -/
def setSelector (selectors : SelectorMap) (selector : ParsedSelector) :
    SelectorMap :=
  let current := (selectors.get selector.resource).getD .empty
  selectors.put
    (selector.resource, current.assign selector.key selector.value)

def formatSelector [Collation] (selector : Option Record) : JsString :=
  match selector with
  | none => js "*"
  | some selector =>
      if selector.entries.isEmpty then js "*"
      else (js ",").intercalate ((sortByKey selector.entries).map
        (fun e => e.1 ++ js "=" ++ e.2))

def summarizeDetail [Collation] (detail : CliAuthorizationDetail) :
    JsString :=
  let chain := (js " -> ").intercalate (detail.resourceChain.map
    (fun resource => resource.resource ++ js "[" ++
      formatSelector resource.selector ++ js "]"))
  js "Allow " ++ detail.action ++ js " on " ++ detail.cliId ++ js " " ++ chain

/-! ## The request -/

structure CapabilityParams where
  resources : List JsString
  selectors : Option (List JsString) := none
  actions : List JsString

structure ResolvedCapability where
  adapter : ShapesAdapter
  source : JsString
  digest : JsString
  executable : JsString
  details : List CliAuthorizationDetail
  executionContext : ExecutionContext
  permissions : List JsString
  summary : JsString

/-- `params.resources.map(…)` on one resource. -/
def resourceRef (loaded : LoadedAdapter) (selectors : SelectorMap)
    (resource : JsString) : Except JsError CliResourceRef := do
  let knownKeys ← knownSelectorKeys loaded.adapter.operations resource
  match selectors.get resource with
  | none => pure { resource }
  | some selector =>
      match selector.entries.find? (fun e => !knownKeys.contains e.1) with
      | some unknown =>
          throw (plainError (js "Unknown selector " ++ resource ++ js "." ++
            unknown.1 ++ js " for adapter " ++ loaded.adapter.cli.id))
      | none =>
          if selector.entries.isEmpty then pure { resource }
          else pure { resource, selector := some selector }

def requestedChain (resources : List JsString) : JsString :=
  (js " -> ").intercalate resources

/-- The operations at or below the requested chain. -/
def matchingOperations (operations : List ShapeMatchOperation)
    (resources : List JsString) :
    Except JsError (List ShapeMatchOperation) := do
  let chains ← operations.mapM operationChain
  let requestedSequence := joinNul resources
  pure (((operations.zip chains).filter (fun e =>
    let sequence :=
      joinNul (e.2.map ParsedOperationChainEntry.resource)
    sequence = requestedSequence ||
      (requestedSequence ++ [0]).isPrefixOf sequence)).map Prod.fst)

/-- `['low', 'medium', 'high', 'critical']` -/
def risks : List RiskLevel := [.low, .medium, .high, .critical]

/-- The higher one of two risks. -/
def raiseRisk (current : RiskLevel) (operation : ShapeMatchOperation) :
    RiskLevel :=
  if risks.idxOf operation.risk > risks.idxOf current then operation.risk
  else current

section Resolution

variable [Collation]

/-- `params.actions.map(…)` on one action. -/
def actionDetail (loaded : LoadedAdapter) (resources : List JsString)
    (resourceChain : List CliResourceRef)
    (matching : List ShapeMatchOperation) (action : JsString) :
    Except JsError CliAuthorizationDetail :=
  let matchingActionOps := matching.filter (fun operation =>
    operation.action = action)
  if matchingActionOps.isEmpty then
    throw (plainError (js "Action " ++ action ++
      js " is not valid for resource chain: " ++ requestedChain resources))
  else
    let exactCommand := matchingActionOps.all (fun operation =>
      operation.exactCommand = some true)
    let detail : CliAuthorizationDetail :=
      { cliId := loaded.adapter.cli.id
        operationId := js "capability." ++ action
        resourceChain
        action
        permission := canonicalizeCliPermission loaded.adapter.cli.id
          resourceChain action
        display := []
        risk := matchingActionOps.foldl raiseRisk .low
        constraints :=
          if exactCommand then some { exactCommand := some true } else none }
    pure { detail with display := summarizeDetail detail }

/-- The bindings of the execution context, named `resource.key`. -/
def contextBindings (selectors : SelectorMap) : Record :=
  Record.ofPairs (selectors.rows.flatMap (fun (resource, selector) =>
    selector.entries.map (fun e => (resource ++ js "." ++ e.1, e.2))))

def resolveCapabilityRequest (loaded : LoadedAdapter)
    (params : CapabilityParams) : Except JsError ResolvedCapability := do
  if params.resources.isEmpty then
    throw (plainError (js "At least one --resource is required"))
  else if params.actions.isEmpty then
    throw (plainError (js "At least one --action is required"))
  else do
    let parsed ← (params.selectors.getD []).mapM parseResourceSelector
    let selectors := parsed.foldl setSelector Table.empty
    let resourceChain ←
      params.resources.mapM (resourceRef loaded selectors)
    let matching ←
      matchingOperations loaded.adapter.operations params.resources
    if matching.isEmpty then
      throw (plainError (js "No adapter operation supports resource chain: " ++
        requestedChain params.resources))
    else do
      let details ← params.actions.mapM
        (actionDetail loaded params.resources resourceChain matching)
      pure
        { adapter := loaded.adapter
          source := loaded.source
          digest := loaded.digest
          executable := loaded.adapter.cli.executable
          details
          executionContext :=
            { adapterId := loaded.adapter.cli.id
              adapterVersion :=
                loaded.adapter.cli.version.getD loaded.adapter.schema
              adapterDigest := loaded.digest
              resolvedExecutable := loaded.adapter.cli.executable
              contextBindings := some (contextBindings selectors) }
          permissions := details.map CliAuthorizationDetail.permission
          summary := (js "; ").intercalate
            (details.map CliAuthorizationDetail.display) }

end Resolution

end OpenApe.Ports.Capabilities
