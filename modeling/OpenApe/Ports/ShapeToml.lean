import OpenApe.Ports.ShapeDigest
import OpenApe.Verified.Fallible

/-!
# Reading an adapter (`packages/shapes/src/toml.ts`)

`parseAdapterToml` checks a parsed TOML file key by key.  The TOML syntax,
the number of capture groups of a regular expression and the check of a
presentation, which no grant reads, are the parser's parameters.
-/

namespace OpenApe.Ports.ShapeToml

open Verified.JsText
open GrantTypes ShapeMatcher ShapeDigest

/-! ## TOML values -/

/-- A TOML value as the program sees it.  A number is known by whether it is
zero and by its text, a date by its text. -/
inductive TomlValue where
  | string (text : JsString)
  | boolean (value : Bool)
  | number (truthy : Bool) (text : JsString)
  | date (text : JsString)
  | array (items : List TomlValue)
  | table (members : List (JsString × TomlValue))

abbrev TomlTable := List (JsString × TomlValue)

namespace TomlValue

/-- `!!value` -/
def truthy : TomlValue → Bool
  | string text => !text.isEmpty
  | boolean value => value
  | number truthy _ => truthy
  | date _ => true
  | array _ => true
  | table _ => true

mutual

/-- `String(value)` -/
def toText : TomlValue → JsString
  | string text => text
  | boolean value => if value then js "true" else js "false"
  | number _ text => text
  | date text => text
  | array items => joinTexts items
  | table _ => js "[object Object]"

/-- `items.join(',')` -/
def joinTexts : List TomlValue → JsString
  | [] => []
  | [item] => toText item
  | item :: next :: items =>
      toText item ++ js "," ++ joinTexts (next :: items)

end

/-- `isRecord`: a date is an object without keys. -/
def record? : TomlValue → Option TomlTable
  | table members => some members
  | date _ => some []
  | _ => none

def string? : TomlValue → Option JsString
  | string text => some text
  | _ => none

def boolean? : TomlValue → Option Bool
  | boolean value => some value
  | _ => none

/-- `isStringList` -/
def stringList? : TomlValue → Option (List JsString)
  | array items => items.mapM string?
  | _ => none

end TomlValue

/-! ## Fields -/

def tomlError (message : JsString) : JsError := plainError message

def assertKnownKeys (value : TomlTable) (allowed : List String)
    (owner : JsString) : Except JsError Unit :=
  let unknown := (value.map Prod.fst).filter
    (fun key => !(allowed.map js).contains key)
  if unknown.isEmpty then pure ()
  else
    throw (tomlError (owner ++ js " has unknown key(s): " ++
      (js ", ").intercalate unknown))

/-- Every array string is split at commas. -/
def legacyList (value : List JsString) : List JsString :=
  value.flatMap (fun entry => (entry.splitOn (unit ',')).map trim)

def invalidField (owner : JsString) (field : String) : JsError :=
  tomlError (owner ++ js " has an invalid " ++ js field ++ js "[]")

def optionalStringList (value : Option TomlValue) (field : String)
    (owner : JsString) : Except JsError (Option (List JsString)) :=
  match value with
  | none => pure none
  | some value =>
      match value.stringList? with
      | none => throw (invalidField owner field)
      | some texts => pure (some (legacyList texts))

/-- `/^[\w-]+$/` -/
def isOptionName (entry : JsString) : Bool := isResourceName entry

/-- `/^[\w-]+(?:=[\w-]+)?$/` -/
def isGlobalOption (entry : JsString) : Bool :=
  match entry.splitOn (unit '=') with
  | [name] => isOptionName name
  | [name, binding] => isOptionName name && isOptionName binding
  | _ => false

def optionalOptionList (value : Option TomlValue) (field : String)
    (owner : JsString) (pattern : JsString → Bool) :
    Except JsError (Option (List JsString)) := do
  let list ← optionalStringList value field owner
  if (list.getD []).any (fun entry => !pattern entry) then
    throw (invalidField owner field)
  else pure list

/-! ## Versions and digests -/

/-- `/^SHA-256:[a-f0-9]{64}$/` -/
def isFileDigest (entry : JsString) : Bool :=
  startsWith entry "SHA-256:" && decide (entry.length = 72) &&
    (entry.drop 8).all (fun u => isDigit u || (97 ≤ u && u ≤ 102))

def parseTestedDigests (value : Option TomlValue) :
    Except JsError (Option (List JsString)) :=
  match value with
  | none => pure none
  | some value =>
      match value.stringList? with
      | some (entry :: entries) =>
          let list := entry :: entries
          if list.length > 64 || list.any (fun entry => !isFileDigest entry) ||
              !decide list.Nodup then
            throw (tomlError (js
              "Adapter cli tested_digests must list distinct SHA-256:<hex> file digests"))
          else pure (some list)
      | _ =>
          throw (tomlError (js
            "Adapter cli tested_digests must list distinct SHA-256:<hex> file digests"))

/-- The checks of the code that parses adapters which are not modelled. -/
structure TomlParser where
  /-- The library's TOML parser, which returns the root table. -/
  parse : JsString → Except JsError TomlTable
  /-- The capture groups of a regular expression; none when it is invalid. -/
  captureGroups : JsString → Option Nat
  /-- `parseShapePresentation` of an operation's presentation. -/
  parseShapePresentation :
    TomlValue → JsString → ShapeMatchOperation → Except JsError Unit

/-- `/^[\w.+-]{1,64}$/` -/
def isVersion (entry : JsString) : Bool :=
  !entry.isEmpty && decide (entry.length ≤ 64) &&
    entry.all (fun u => isNameUnit u || u == unit '.' || u == unit '+')

/-- `/^[\w.,:=@/+-]{1,64}$/` -/
def isVersionArgument (entry : JsString) : Bool :=
  !entry.isEmpty && decide (entry.length ≤ 64) &&
    entry.all (fun u => isNameUnit u || (js ".,:=@/+").contains u)

def parseShapeCliVersions (parser : TomlParser) (cli : TomlTable)
    (owner : JsString) : Except JsError (Option ShapeCliVersions) :=
  match cli.lookup (js "tested_versions"),
    cli.lookup (js "version_command"),
    cli.lookup (js "version_pattern") with
  | none, none, none => pure none
  | some tested, some command, some pattern => do
      let testedVersions ←
        match tested.stringList? with
        | some (entry :: entries) =>
            if (entry :: entries).any (fun entry => !isVersion entry) ||
                !decide (entry :: entries).Nodup then
              throw (tomlError (owner ++ js
                " tested_versions must list distinct version strings"))
            else pure (entry :: entries)
        | _ =>
            throw (tomlError (owner ++ js
              " tested_versions must list distinct version strings"))
      let versionCommand ←
        match command.stringList? with
        | some arguments =>
            if arguments.length > 8 ||
                arguments.any (fun entry => !isVersionArgument entry) then
              throw (tomlError (owner ++ js
                " version_command must list up to 8 plain arguments"))
            else pure arguments
        | none =>
            throw (tomlError (owner ++ js
              " version_command must list up to 8 plain arguments"))
      match pattern.string? with
      | none =>
          throw (tomlError (owner ++ js
            " version_pattern must be a regular expression"))
      | some versionPattern =>
          if versionPattern.isEmpty || versionPattern.length > 200 then
            throw (tomlError (owner ++ js
              " version_pattern must be a regular expression"))
          else
            match parser.captureGroups versionPattern with
            | none =>
                throw (tomlError (owner ++ js
                  " version_pattern is not a valid regular expression"))
            | some 0 =>
                throw (tomlError (owner ++ js
                  " version_pattern needs a capture group for the version"))
            | some _ =>
                pure (some { testedVersions, versionCommand, versionPattern })
  | _, _, _ =>
      throw (tomlError (owner ++ js
        " must set tested_versions, version_command and version_pattern together"))

/-! ## Operations -/

def operationKeys : List String :=
  ["id", "command", "positionals", "required_options", "value_options",
    "flag_options", "display", "action", "risk", "resource_chain",
    "exact_command", "decision", "presentation"]

/-- A list that has to be there. -/
def requiredList (value : Option TomlValue) (field : String)
    (owner : JsString) : Except JsError (List JsString) :=
  match value.bind TomlValue.stringList? with
  | none =>
      throw (tomlError (owner ++ js " is missing " ++ js field ++ js "[]"))
  | some texts => pure texts

def riskOf (text : JsString) : Option RiskLevel :=
  [.low, .medium, .high, .critical].find?
    (fun risk => riskText risk == text)

def decisionOf (text : JsString) : Option Decision :=
  [.once, .deny].find? (fun decision => decisionText decision == text)

/-- A field that is read from a value when it is there. -/
def optionalField {α : Type} (value : Option TomlValue)
    (read : TomlValue → Option α) (error : JsError) :
    Except JsError (Option α) :=
  match value with
  | none => pure none
  | some value =>
      match read value with
      | none => throw error
      | some field => pure (some field)

def parseOperation (parser : TomlParser) (operation : TomlValue)
    (globalOptions : Option (List JsString)) :
    Except JsError ShapeMatchOperation := do
  let some fields := operation.record?
    | throw (tomlError (js "Adapter [[operation]] entries must be tables"))
  let field (name : String) := fields.lookup (js name)
  let text (name : String) := (field name).bind TomlValue.string?
  let owner := js "Operation " ++ (text "id").getD (js "<unknown>")
  assertKnownKeys fields operationKeys owner
  let command ← requiredList (field "command") "command" owner
  let resourceChain ←
    requiredList (field "resource_chain") "resource_chain" owner
  let (some id, some display, some action) :=
      (text "id", text "display", text "action")
    | throw (tomlError (js "Operation must define id, display, and action"))
  let risk ← optionalField (field "risk")
    (fun value => value.string?.bind riskOf)
    (tomlError (owner ++ js " has an invalid risk"))
  let exactCommand ← optionalField (field "exact_command")
    TomlValue.boolean? (tomlError (owner ++ js " has an invalid exact_command"))
  let decision ← optionalField (field "decision")
    (fun value => value.string?.bind decisionOf)
    (tomlError (owner ++ js " has an invalid decision policy"))
  if decision = some .once ∧ exactCommand ≠ some true then
    throw (tomlError (owner ++
      js " requires exact_command for a single-use decision"))
  let positionals ←
    optionalStringList (field "positionals") "positionals" owner
  let requiredOptions ←
    optionalStringList (field "required_options") "required_options" owner
  let valueOptions ← optionalOptionList (field "value_options")
    "value_options" owner isOptionName
  let flagOptions ← optionalOptionList (field "flag_options")
    "flag_options" owner isOptionName
  let parsed : ShapeMatchOperation :=
    { id
      command := legacyList command
      positionals
      requiredOptions
      valueOptions
      flagOptions
      -- Global options are declared once and apply to every operation.
      globalOptions := globalOptions.filter (fun entries => entries ≠ [])
      display
      action
      risk := risk.getD .low
      resourceChain := legacyList resourceChain
      exactCommand
      decision }
  match field "presentation" with
  | none => pure ()
  | some presentation =>
      parser.parseShapePresentation presentation owner parsed
  pure parsed

/-! ## Adapters -/

def rootKeys : List String := ["schema", "cli", "operation"]

def cliKeys : List String :=
  ["id", "executable", "audience", "version", "global_options",
    "tested_versions", "version_command", "version_pattern",
    "tested_digests"]

/-- A member that counts when it is truthy, as text. -/
def truthyText (value : Option TomlValue) : Option JsString :=
  (value.filter TomlValue.truthy).map TomlValue.toText

def parseAdapterToml (parser : TomlParser) (content : JsString) :
    Except JsError ShapesAdapter := do
  let file ← parser.parse content
  assertKnownKeys file rootKeys (js "Adapter")
  let schema := (file.lookup (js "schema")).bind TomlValue.string?
  if schema ≠ some (js "openape-shapes/v1") then
    throw (tomlError (js "Unsupported adapter schema: " ++
      schema.getD (js "missing")))
  let missing :=
    tomlError (js "Adapter is missing cli.id or cli.executable")
  let some cli := (file.lookup (js "cli")).bind TomlValue.record?
    | throw missing
  let (some id, some executable) := (truthyText (cli.lookup (js "id")),
      truthyText (cli.lookup (js "executable")))
    | throw missing
  assertKnownKeys cli cliKeys (js "Adapter cli")
  let some (.array (operation :: operations)) :=
      file.lookup (js "operation")
    | throw (tomlError (js
        "Adapter must define at least one [[operation]] entry"))
  let globalOptions ← optionalOptionList (cli.lookup (js "global_options"))
    "global_options" (js "Adapter cli") isGlobalOption
  let versions ← parseShapeCliVersions parser cli (js "Adapter cli")
  let digests ← parseTestedDigests (cli.lookup (js "tested_digests"))
  let operations ← (operation :: operations).mapM
    (fun operation => parseOperation parser operation globalOptions)
  pure
    { schema := js "openape-shapes/v1"
      cli :=
        { id
          executable
          audience := truthyText (cli.lookup (js "audience"))
          version := truthyText (cli.lookup (js "version"))
          versions
          testedDigests := digests }
      operations }

end OpenApe.Ports.ShapeToml
