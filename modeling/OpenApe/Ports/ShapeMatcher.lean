import OpenApe.Ports.CliPermissions
import OpenApe.Verified.JsObject
import OpenApe.Verified.Unicode

/-!
# Shape matching (`packages/grants/src/shape-matcher.ts`)

How an argv is read with the operations of a shape: global options, command
prefix, options, positionals; and how the matched operation's templates are
rendered from the bindings into an authorization detail.

The loops over tokens are recursions on the tokens that are left.  The
functions are generic in the operations' type, as the source's are.
-/

namespace OpenApe.Ports.ShapeMatcher

open Verified.JsText Verified.JsText.Record Verified.Unicode
open GrantTypes CliPermissions

/-! ## Operations -/

/-- The registry's policy for an operation. -/
inductive Decision where
  | once
  | deny
  deriving DecidableEq, Repr

structure ShapeMatchOperation where
  id : JsString
  command : List JsString
  positionals : Option (List JsString) := none
  requiredOptions : Option (List JsString) := none
  valueOptions : Option (List JsString) := none
  flagOptions : Option (List JsString) := none
  globalOptions : Option (List JsString) := none
  display : JsString
  action : JsString
  risk : RiskLevel
  resourceChain : List JsString
  exactCommand : Option Bool := none
  decision : Option Decision := none
  deriving DecidableEq

/-! ## Option tokens -/

/-- `text.startsWith(start)` -/
def startsWith (text : JsString) (start : String) : Bool :=
  (js start).isPrefixOf text

/-- `\d` -/
def isDigit (u : CodeUnit) : Bool := 48 ≤ u && u ≤ 57

/-- `[a-z]` under the `i` flag. -/
def isLetter (u : CodeUnit) : Bool :=
  (65 ≤ u && u ≤ 90) || (97 ≤ u && u ≤ 122)

def optionName (token : JsString) : Option JsString :=
  if startsWith token "--" then some (token.drop 2)
  else if startsWith token "-" && decide (token.length > 1) &&
      !(token[1]?.any isDigit) then some (token.drop 1)
  else none

/-- An option's name and inline value. -/
structure OptionToken where
  key : JsString
  value : Option JsString := none
  deriving DecidableEq

def splitInlineValue (token name : JsString) : OptionToken :=
  if startsWith token "--" && name.contains (unit '=') then
    { key := name.takeWhile (fun u => u != unit '=')
      value := some ((name.dropWhile (fun u => u != unit '=')).drop 1) }
  else { key := name }

def declaresOptions (operation : ShapeMatchOperation) : Bool :=
  operation.valueOptions.isSome || operation.flagOptions.isSome

/-- The exact dash form: `--name`, `--name=value`, or `-x` for one letter. -/
def exactOption (token : JsString) : Option OptionToken :=
  if startsWith token "--" then
    let option := splitInlineValue token (token.drop 2)
    if option.key.length > 1 then some option else none
  else if token.length = 2 then some { key := token.drop 1 }
  else none

/-! ## Options and positionals -/

structure ParsedArgs where
  options : Record
  positionals : List JsString
  deriving DecidableEq

/-- `Array.from(text)` -/
def characters : JsString → List JsString
  | [] => []
  | [u] => [[u]]
  | u :: v :: rest =>
      if isHighSurrogate u && isLowSurrogate v then
        [u, v] :: characters rest
      else [u] :: characters (v :: rest)

/-- The loop of `parseDeclaredOptionArgs`. -/
def parseDeclared (takesValue flags : List JsString) :
    List JsString → ParsedArgs → Option ParsedArgs
  | [], parsed => some parsed
  | token :: rest, parsed =>
      if !startsWith token "-" || token == js "-" then
        parseDeclared takesValue flags rest
          { parsed with positionals := parsed.positionals ++ [token] }
      else if !startsWith token "--" && decide (token.length > 2) then
        let bundle := characters (token.drop 1)
        if bundle.all flags.contains then
          parseDeclared takesValue flags rest
            { parsed with
              options := bundle.foldl
                (fun options letter => options.assign letter (js "true"))
                parsed.options }
        else none
      else
        match exactOption token with
        | none => none
        | some option =>
            if takesValue.contains option.key then
              match option.value, rest with
              | some value, rest =>
                  parseDeclared takesValue flags rest
                    { parsed with
                      options := parsed.options.assign option.key value }
              | none, [] => none
              | none, next :: rest =>
                  if next.isEmpty || startsWith next "-" then none
                  else
                    parseDeclared takesValue flags rest
                      { parsed with
                        options := parsed.options.assign option.key next }
            else if flags.contains option.key then
              parseDeclared takesValue flags rest
                { parsed with
                  options := parsed.options.assign option.key
                    (option.value.getD (js "true")) }
            else none

/-- The loop of `parseOptionArgs` for an operation that declares no
options. -/
def parseUndeclared (takesValue : List JsString) :
    List JsString → ParsedArgs → ParsedArgs
  | [], parsed => parsed
  | token :: rest, parsed =>
      match optionName token with
      | none =>
          parseUndeclared takesValue rest
            { parsed with positionals := parsed.positionals ++ [token] }
      | some name =>
          let option := splitInlineValue token name
          let shortOption :=
            !startsWith token "--" && option.key.length == 1
          let consumes :=
            if shortOption then takesValue.contains option.key else true
          match option.value, rest with
          | some value, rest =>
              parseUndeclared takesValue rest
                { parsed with
                  options := parsed.options.assign option.key value }
          | none, [] =>
              { parsed with
                options := parsed.options.assign option.key (js "true") }
          | none, next :: rest =>
              if consumes && !next.isEmpty && !startsWith next "-" then
                parseUndeclared takesValue rest
                  { parsed with
                    options := parsed.options.assign option.key next }
              else
                parseUndeclared takesValue (next :: rest)
                  { parsed with
                    options := parsed.options.assign option.key
                      (js "true") }

def parseOptionArgs (tokens : List JsString)
    (operation : ShapeMatchOperation) : Option ParsedArgs :=
  let required := operation.requiredOptions.getD []
  if declaresOptions operation then
    parseDeclared (required ++ operation.valueOptions.getD [])
      (operation.flagOptions.getD []) tokens ⟨.empty, []⟩
  else some (parseUndeclared required tokens ⟨.empty, []⟩)

/-! ## Global options -/

/-- An entry `name` or `name=binding`. -/
def globalOption (entry : JsString) : JsString × JsString :=
  match entry.splitOn (unit '=') with
  | name :: binding :: _ => (name, if binding.isEmpty then name else binding)
  | [name] => (name, name)
  | [] => ([], [])

/-- The map from names to bindings; of equal names the last one counts. -/
def bindingFor (globalOptions : List JsString) (name : JsString) :
    Option JsString :=
  (globalOptions.map globalOption).reverse.lookup name

/-- The loop of `parseGlobalOptions`: the bindings and the tokens left. -/
def parseGlobals (globalOptions : List JsString) :
    List JsString → Record → Option (Record × List JsString)
  | [], bindings => some (bindings, [])
  | token :: rest, bindings =>
      if !startsWith token "-" then some (bindings, token :: rest)
      else
        match exactOption token with
        | none => some (bindings, token :: rest)
        | some option =>
            let binding := (bindingFor globalOptions option.key).getD []
            if binding.isEmpty then some (bindings, token :: rest)
            else if bindings.has binding then none
            else
              match option.value, rest with
              | some value, rest =>
                  parseGlobals globalOptions rest
                    (bindings.assign binding value)
              | none, [] => none
              | none, next :: rest =>
                  if next.isEmpty || startsWith next "-" then none
                  else
                    parseGlobals globalOptions rest
                      (bindings.assign binding next)

def parseGlobalOptions (argv globalOptions : List JsString) :
    Option (Record × List JsString) :=
  parseGlobals globalOptions argv .empty

/-! ## Templates -/

/-- What stands between braces: a binding, and perhaps a transform. -/
structure BindingToken where
  name : JsString
  transform : Option JsString := none
  deriving DecidableEq

/-- `/^\{([^}|]+)(?:\|([^}]+))?\}$/` on `\{expression\}`, where the expression
has no closing brace. -/
def bindingToken (expression : JsString) : Option BindingToken :=
  let name := expression.takeWhile (fun u => u != unit '|')
  match expression.dropWhile (fun u => u != unit '|') with
  | [] => if name.isEmpty then none else some { name }
  | _ :: transform =>
      if name.isEmpty || transform.isEmpty then none
      else some { name, transform := some transform }

def resolveBindingToken (expression : JsString) (bindings : Record) :
    Except JsError JsString :=
  match bindingToken expression with
  | none => .ok (unit '{' :: expression ++ [unit '}'])
  | some token =>
      match (bindings.read token.name).filter Property.truthy with
      | none => .error (plainError (js "Missing binding: " ++ token.name))
      | some property =>
          match token.transform with
          | none => .ok property.toText
          | some transform =>
              if transform = js "owner" ∨ transform = js "name" then
                match property with
                | .inherited _ =>
                    .error (plainError (js "value.split is not a function"))
                | .text value =>
                    let parts := value.splitOn (unit '/')
                    let owner := parts[0]?.getD []
                    let repo := parts[1]?.getD []
                    if owner.isEmpty || repo.isEmpty then
                      .error (plainError (js "Binding " ++ token.name ++
                        js " must be in owner/name form"))
                    else
                      .ok (if transform = js "owner" then owner else repo)
              else
                .error (plainError
                  (js "Unsupported binding transform: " ++ transform))

/-- A template is read as literal units and expressions in braces. -/
inductive TemplatePart where
  | literal (text : JsString)
  | expression (text : JsString)
  deriving DecidableEq

/-- The matches of `/\{([^}]+)\}/g` and what stands between them; `pending`
is what was read since an opening brace. -/
def templateParts : Option JsString → JsString → List TemplatePart
  | none, [] => []
  | some pending, [] => [.literal (unit '{' :: pending)]
  | none, u :: rest =>
      if u = unit '{' then templateParts (some []) rest
      else .literal [u] :: templateParts none rest
  | some pending, u :: rest =>
      if u = unit '}' then
        (if pending = [] then .literal [unit '{', unit '}']
        else .expression pending) :: templateParts none rest
      else templateParts (some (pending ++ [u])) rest

def renderPart (bindings : Record) :
    TemplatePart → Except JsError JsString
  | .literal text => .ok text
  | .expression text => resolveBindingToken text bindings

def renderTemplate (template : JsString) (bindings : Record) :
    Except JsError JsString := do
  let rendered ← (templateParts none template).mapM (renderPart bindings)
  pure rendered.flatten

/-! ## Resource chains -/

/-- `[\w-]` -/
def isNameUnit (u : CodeUnit) : Bool :=
  isDigit u || isLetter u || u == unit '_' || u == unit '-'

/-- `/^[\w-]+$/` -/
def isResourceName (text : JsString) : Bool :=
  !text.isEmpty && text.all isNameUnit

/-- `const [resource, selectorSpec = '*'] = entry.split(':', 2)` -/
def chainEntry (entry : JsString) : JsString × JsString :=
  match entry.splitOn (unit ':') with
  | resource :: selectorSpec :: _ => (resource, selectorSpec)
  | [resource] => (resource, js "*")
  | [] => ([], js "*")

/-- `const [key, rawValue] = segment.split('=', 2)`, both non-empty. -/
def selectorSegment (segment : JsString) : Option (JsString × JsString) :=
  match segment.splitOn (unit '=') with
  | key :: rawValue :: _ =>
      if key.isEmpty || rawValue.isEmpty then none else some (key, rawValue)
  | _ => none

def invalidEntry (entry : JsString) : JsError :=
  plainError (js "Invalid resource chain entry: " ++ entry)

def assertResourceChainTemplates (chain : List JsString) :
    Except JsError Unit :=
  chain.forM (fun entry => do
    let (resource, selectorSpec) := chainEntry entry
    if !isResourceName resource then throw (invalidEntry entry)
    else if selectorSpec = js "*" then pure ()
    else
      (selectorSpec.splitOn (unit ',')).forM (fun segment =>
        match selectorSegment segment with
        | none =>
            throw (plainError (js "Invalid selector segment in " ++ entry ++
              js ": " ++ segment ++ js " (use key=value)"))
        | some _ => pure ()))

def renderSegment (bindings : Record) (segment : JsString) :
    Except JsError (JsString × JsString) :=
  match selectorSegment segment with
  | none =>
      throw (plainError (js "Invalid selector segment: " ++ segment))
  | some (key, rawValue) => do
      let value ← renderTemplate rawValue bindings
      pure (key, value)

def parseChainEntry (bindings : Record) (entry : JsString) :
    Except JsError CliResourceRef := do
  let (resource, selectorSpec) := chainEntry entry
  if !isResourceName resource then throw (invalidEntry entry)
  else if selectorSpec = js "*" then pure { resource }
  else do
    let selector ←
      (selectorSpec.splitOn (unit ',')).mapM (renderSegment bindings)
    pure { resource, selector := some (Record.ofPairs selector) }

def parseResourceChain (chain : List JsString) (bindings : Record) :
    Except JsError (List CliResourceRef) :=
  chain.mapM (parseChainEntry bindings)

/-! ## Matching -/

/-- Binds the positionals; an expected `=text` binds nothing but has to be
the text. -/
def bindPositionals : List (JsString × JsString) → Record → Option Record
  | [], bindings => some bindings
  | (name, value) :: rest, bindings =>
      if startsWith name "=" then
        if value ≠ name.drop 1 then none else bindPositionals rest bindings
      else bindPositionals rest (bindings.assign name value)

/-- Adds the global bindings, none of which may be bound already. -/
def bindGlobals : List (JsString × JsString) → Record → Option Record
  | [], bindings => some bindings
  | (name, value) :: rest, bindings =>
      if bindings.has name then none
      else bindGlobals rest (bindings.assign name value)

/-- `tokens.join('\0')` -/
def joinNul (tokens : List JsString) : JsString :=
  ([0] : JsString).intercalate tokens

def matchOperation (operation : ShapeMatchOperation) (argv : List JsString) :
    Option Record := do
  let (globals, commandArgv) ←
    match operation.globalOptions with
    | some (entry :: entries) => parseGlobalOptions argv (entry :: entries)
    | _ => some (.empty, argv)
  guard (operation.command.length ≤ commandArgv.length)
  let front := commandArgv.take operation.command.length
  guard (joinNul front = joinNul operation.command)
  let parsed ← parseOptionArgs
    (commandArgv.drop operation.command.length) operation
  let expected := operation.positionals.getD []
  guard (parsed.positionals.length = expected.length)
  guard ((operation.requiredOptions.getD []).all parsed.options.readsTruthy)
  let bindings ←
    bindPositionals (expected.zip parsed.positionals) parsed.options
  bindGlobals globals.entries bindings

/-- `/^-[a-z]+$/i` on a token longer than two units is a bundle. -/
def expandCombinedFlags (argv : List JsString) : List JsString :=
  argv.flatMap (fun token =>
    if startsWith token "-" && !startsWith token "--" &&
        decide (token.length > 2) && (token.drop 1).all isLetter then
      (token.drop 1).map (fun u => [unit '-', u])
    else [token])

section Generic

variable {τ : Type} (asOperation : τ → ShapeMatchOperation)

/-- The operations that match, each with its bindings. -/
def tryMatch (operations : List τ) (argv : List JsString) :
    List (τ × Record) :=
  operations.filterMap (fun operation =>
    (matchOperation (asOperation operation) argv).map
      (fun bindings => (operation, bindings)))

/-- The first match of those with the longest command. -/
def mostSpecific (found : List (τ × Record)) : Option (τ × Record) :=
  (found.insertionSort (fun a b =>
    (asOperation b.1).command.length ≤
      (asOperation a.1).command.length)).head?

def matchArgvToOperation (operations : List τ) (commandArgv : List JsString) :
    Option (τ × Record) :=
  match tryMatch asOperation operations commandArgv with
  | [] =>
      let expanded := expandCombinedFlags commandArgv
      if expanded.length ≠ commandArgv.length then
        mostSpecific asOperation (tryMatch asOperation
          (operations.filter (fun operation =>
            !declaresOptions (asOperation operation))) expanded)
      else none
  | found => mostSpecific asOperation found

end Generic

/-! ## What matching reads -/

section Natural

variable {τ ρ : Type} {asOperation : τ → ShapeMatchOperation}
  {asOperation' : ρ → ShapeMatchOperation} {f : τ → ρ}

theorem tryMatch_map
    (hMatch : ∀ t argv, matchOperation (asOperation' (f t)) argv =
      matchOperation (asOperation t) argv)
    (operations : List τ) (argv : List JsString) :
    tryMatch asOperation' (operations.map f) argv =
      (tryMatch asOperation operations argv).map (Prod.map f id) := by
  simp only [tryMatch, List.filterMap_map, List.map_filterMap]
  refine List.filterMap_congr (fun t _ => ?_)
  simp only [Function.comp_apply, hMatch, Option.map_map]
  rfl

theorem mostSpecific_map
    (hCommand : ∀ t, (asOperation' (f t)).command = (asOperation t).command)
    (found : List (τ × Record)) :
    mostSpecific asOperation' (found.map (Prod.map f id)) =
      (mostSpecific asOperation found).map (Prod.map f id) := by
  unfold mostSpecific
  rw [← List.head?_map]
  congr 1
  refine (List.map_insertionSort _ _ _ _ (fun a _ b _ => ?_)).symm
  simp only [Prod.map_fst, hCommand]

variable (asOperation asOperation' f) in
/-- Matching operations through `f` is matching them and applying `f`, when
`f` keeps what matching reads. -/
theorem matchArgvToOperation_map
    (hMatch : ∀ t argv, matchOperation (asOperation' (f t)) argv =
      matchOperation (asOperation t) argv)
    (hDeclares : ∀ t, declaresOptions (asOperation' (f t)) =
      declaresOptions (asOperation t))
    (hCommand : ∀ t, (asOperation' (f t)).command = (asOperation t).command)
    (operations : List τ) (argv : List JsString) :
    matchArgvToOperation asOperation' (operations.map f) argv =
      (matchArgvToOperation asOperation operations argv).map
        (Prod.map f id) := by
  unfold matchArgvToOperation
  rw [tryMatch_map hMatch]
  cases hFound : tryMatch asOperation operations argv with
  | nil =>
      simp only [List.map_nil]
      split
      · rw [List.filter_map, tryMatch_map hMatch, mostSpecific_map hCommand]
        simp only [Function.comp_def, hDeclares]
      · rfl
  | cons first rest => exact mostSpecific_map hCommand (first :: rest)

end Natural

section Found

variable {τ : Type} {asOperation : τ → ShapeMatchOperation}

theorem mem_tryMatch {operations : List τ} {argv : List JsString} {t : τ}
    {bindings : Record} :
    (t, bindings) ∈ tryMatch asOperation operations argv ↔
      t ∈ operations ∧
        matchOperation (asOperation t) argv = some bindings := by
  simp only [tryMatch, List.mem_filterMap, Option.map_eq_some_iff,
    Prod.mk.injEq]
  constructor
  · rintro ⟨t', hMem, bindings', hMatch, rfl, rfl⟩
    exact ⟨hMem, hMatch⟩
  · rintro ⟨hMem, hMatch⟩
    exact ⟨t, hMem, bindings, hMatch, rfl, rfl⟩

theorem mem_of_mostSpecific {found : List (τ × Record)} {m : τ × Record}
    (h : mostSpecific asOperation found = some m) : m ∈ found := by
  have hMem := List.mem_of_head? h
  rwa [List.mem_insertionSort] at hMem

/-- **What is selected** is one of the operations, and matches the argv as it
is or, if it declares no options, with the bundles expanded. -/
theorem matchArgvToOperation_some {operations : List τ}
    {argv : List JsString} {t : τ} {bindings : Record}
    (h : matchArgvToOperation asOperation operations argv =
      some (t, bindings)) :
    t ∈ operations ∧
      (matchOperation (asOperation t) argv = some bindings ∨
        (declaresOptions (asOperation t) = false ∧
          matchOperation (asOperation t) (expandCombinedFlags argv) =
            some bindings)) := by
  unfold matchArgvToOperation at h
  split at h
  · dsimp only at h
    split at h
    · have hFound := mem_tryMatch.mp (mem_of_mostSpecific h)
      rw [List.mem_filter] at hFound
      obtain ⟨⟨hMem, hDeclares⟩, hMatch⟩ := hFound
      exact ⟨hMem, .inr ⟨by simpa using hDeclares, hMatch⟩⟩
    · cases h
  · obtain ⟨hMem, hMatch⟩ := mem_tryMatch.mp (mem_of_mostSpecific h)
    exact ⟨hMem, .inl hMatch⟩

end Found

/-! ## The authorization detail -/

/-- The constraints of an operation's details. -/
def operationConstraints (operation : ShapeMatchOperation) :
    Option CliConstraints :=
  if operation.exactCommand = some true then
    some { exactCommand := some true
           singleUse :=
            if operation.decision = some .once then some true else none }
  else none

def buildCliAuthDetail [Collation] (cliId : JsString)
    (operation : ShapeMatchOperation) (bindings : Record) :
    Except JsError CliAuthorizationDetail := do
  let resourceChain ← parseResourceChain operation.resourceChain bindings
  let display ← renderTemplate operation.display bindings
  pure
    { cliId
      operationId := operation.id
      resourceChain
      action := operation.action
      permission :=
        canonicalizeCliPermission cliId resourceChain operation.action
      display
      risk := operation.risk
      constraints := operationConstraints operation }

end OpenApe.Ports.ShapeMatcher
