import OpenApe.Ports.PortableValues
import OpenApe.Verified.JsObject
import OpenApe.Verified.KeyedTable
import OpenApe.Verified.TextPieces

/-!
# The entries of an imported lock file
(`apps/openape-pods/src/worker/dependencies/imported-lock.ts`,
`contracts/fields.ts`, `contracts/dependencies.ts`,
`packages/pods-protocol/src/sharing.ts`)

A lock file is JSON that somebody else made.  It is first brought into the
canonical form, within limits of depth and size; then the root package must
be the one of `package.json`, and every other entry a plain registry package.
What fails throws an `Error`, here its text.

The parser of URLs is a parameter, and so are `validRange` and `satisfies` of
the `semver` package.
-/

namespace OpenApe.Ports.LockEntries

open Verified.JsText Verified.Json Verified.TextPieces Verified.Unicode
open CentralValues PortableValues

/-- `new Error(message)` -/
def refuse {α : Type} (message : String) : Checked α := .error (js message)

/-- `if (condition) throw new Error(message)` -/
def refuseIf (condition : Bool) (message : String) : Checked Unit :=
  if condition then refuse message else .ok ()

abbrev Members := List (JsString × JsonValue)

/-! ## Canonical JSON -/

mutual

/-- Rearranges the members of every object. -/
def mapObjects (arrange : Members → Members) : JsonValue → JsonValue
  | .array items => .array (mapObjectsItems arrange items)
  | .object members => .object (arrange (mapObjectsMembers arrange members))
  | .null => .null
  | .bool value => .bool value
  | .number value => .number value
  | .string value => .string value

def mapObjectsItems (arrange : Members → Members) :
    List JsonValue → List JsonValue
  | [] => []
  | item :: items => mapObjects arrange item :: mapObjectsItems arrange items

def mapObjectsMembers (arrange : Members → Members) : Members → Members
  | [] => []
  | (name, value) :: members =>
      (name, mapObjects arrange value) :: mapObjectsMembers arrange members

end

/-- `Object.keys(value).sort()` -/
def sortedOrder (members : Members) : Members :=
  members.insertionSort (fun a b => a.1 ≤ b.1)

/-- The property order of a new object: integer-like keys come first. -/
def propertyOrder (members : Members) : Members :=
  (members.filter (fun m => (Record.arrayIndex m.1).isSome)).insertionSort
      (fun a b => (Record.arrayIndex a.1).getD 0 ≤
        (Record.arrayIndex b.1).getD 0) ++
    members.filter (fun m => (Record.arrayIndex m.1).isNone)

structure Budget where
  nodes : Nat
  characters : Nat

/-- What every value costs. -/
def spend (value : JsonValue) (depth : Nat) (budget : Budget) :
    Checked Budget :=
  let nodes := budget.nodes + 1
  let characters := budget.characters +
    match value with
    | .string text => text.length
    | _ => 1
  if 100000 < nodes then fail "JSON node budget exceeded"
  else if manifestBytes < characters then fail "manifest exceeds 1 MiB"
  else if 32 < depth then fail "JSON nesting limit exceeded"
  else .ok ⟨nodes, characters⟩

mutual

/-- `jsonData(value, depth, budget)`, on members in their order. -/
def jsonData : JsonValue → Nat → Budget → Checked Budget
  | .string value, depth, budget => do
      let budget ← spend (.string value) depth budget
      let _ ← text (some (.string value)) manifestBytes true
      return budget
  | .array items, depth, budget => do
      let budget ← spend (.array items) depth budget
      if 10000 < items.length then fail "expected a bounded dense array"
      else jsonItems items (depth + 1) budget
  | .object members, depth, budget => do
      let budget ← spend (.object members) depth budget
      jsonMembers members (depth + 1) budget
  | .null, depth, budget => spend .null depth budget
  | .bool value, depth, budget => spend (.bool value) depth budget
  | .number value, depth, budget => spend (.number value) depth budget

def jsonItems : List JsonValue → Nat → Budget → Checked Budget
  | [], _, budget => .ok budget
  | item :: items, depth, budget => do
      let budget ← jsonData item depth budget
      jsonItems items depth budget

def jsonMembers : Members → Nat → Budget → Checked Budget
  | [], _, budget => .ok budget
  | (name, value) :: members, depth, budget =>
      if [js "__proto__", js "constructor", js "prototype"].contains name then
        fail "expected plain JSON fields"
      else do
        let budget ← jsonData value depth
          { budget with characters := budget.characters + name.length }
        jsonMembers members depth budget

end

/-- The value whose text `canonicalPortableJson` returns; parsing the text
gives it back. -/
def canonicalValue (value : JsonValue) : Checked JsonValue := do
  let _ ← jsonData (mapObjects sortedOrder value) 0 ⟨0, 0⟩
  let canonical :=
    mapObjects (fun members => propertyOrder (sortedOrder members)) value
  if manifestBytes < utf8Length (stringify canonical) then
    fail "manifest exceeds 1 MiB"
  else return canonical

def canonicalPortableJson (value : JsonValue) : Checked JsString := do
  return stringify (← canonicalValue value)

/-! ## Fields -/

def plainObject (value : Unknown) : Checked Members :=
  match value with
  | some (.object members) => .ok members
  | _ => refuse "Invalid plain data object"

def dataFields (value : Unknown) (required optional : List String) :
    Checked JsonValue := do
  let input ← plainObject value
  let keys := input.map Prod.fst
  if required.any (fun key => !keys.contains (js key)) ||
      keys.any (fun key => !(required ++ optional).any (js · == key)) then
    refuse "Unsupported data fields"
  else return .object input

/-! ## Packages -/

/-- `/[a-z0-9]/` -/
def isLowerDigit (u : CodeUnit) : Bool :=
  (48 ≤ u && u ≤ 57) || (97 ≤ u && u ≤ 122)

/-- `/^[a-z0-9][a-z0-9._-]*$/` -/
def isPlainName : JsString → Bool
  | [] => false
  | u :: rest => isLowerDigit u && rest.all fun v =>
      isLowerDigit v || v == unit '.' || v == unit '_' || v == unit '-'

/-- The names that `parsePackages` accepts: `/^(?:@[a-z0-9][a-z0-9._-]*\/)?`
and a plain name. -/
def isPackageName (name : JsString) : Bool :=
  name.length ≤ 214 &&
    (match name with
      | [] => false
      | u :: rest =>
          if u = unit '@' then
            isPlainName (rest.takeWhile (· != unit '/')) &&
              match rest.dropWhile (· != unit '/') with
              | [] => false
              | _ :: plain => isPlainName plain
          else isPlainName name) &&
    !([js "node_modules", js "__proto__", js "constructor",
      js "prototype"].contains name)

def isDigit (u : CodeUnit) : Bool := 48 ≤ u && u ≤ 57

/-- Reads `(?:0|[1-9]\d*)` where no digit follows. -/
def afterNumber (text : JsString) : Option JsString :=
  let digits := text.takeWhile isDigit
  if digits.isEmpty || (digits.head? == some (unit '0') && 1 < digits.length)
  then none
  else some (text.dropWhile isDigit)

def afterDot : JsString → Option JsString
  | [] => none
  | u :: rest => if u = unit '.' then some rest else none

/-- The exact versions that `parsePackages` accepts. -/
def isExactVersion (version : JsString) : Bool :=
  version.length ≤ 100 &&
    match (do
      let minor ← afterDot (← afterNumber version)
      let patch ← afterDot (← afterNumber minor)
      afterNumber patch) with
    | none => false
    | some [] => true
    | some (u :: release) => u == unit '-' && !release.isEmpty &&
        (lowerCase release).all fun v =>
          isLowerDigit v || v == unit '.' || v == unit '-'

def inexactPackages : String :=
  "Use npm package names with exact versions; ranges and external sources are not supported"

/-- One package with its version. -/
def exactPackage (package : JsString × JsonValue) :
    Checked (JsString × JsString) :=
  match package.2 with
  | .string version =>
      if isPackageName package.1 && isExactVersion version then
        .ok (package.1, version)
      else refuse inexactPackages
  | _ => refuse inexactPackages

/-- The members of `dependencies ?? {}`. -/
def packageMembers (dependencies : Unknown) : Checked Members :=
  match dependencies with
  | none | some .null => .ok []
  | some (.object members) =>
      if 32 < members.length then
        refuse "Choose at most 32 script dependencies"
      else .ok members
  | some _ => refuse "Choose at most 32 script dependencies"

/-- `parsePackages({ dependencies })` -/
def parsePackages [Collation] (dependencies : Unknown) : Checked Record := do
  let entries ← packageMembers dependencies
  let pairs ← entries.mapM exactPackage
  return Record.ofPairs (sortByKey pairs)

/-- The object that has the entries of a record. -/
def recordValue (record : Record) : JsonValue :=
  .object (record.entries.map fun (name, value) => (name, .string value))

/-! ## Checks of an entry -/

/-- What `new URL(text)` tells about a URL. -/
structure Url where
  protocol : JsString
  username : JsString
  password : JsString

/-- The packages that the code calls: `semver`, and the URL parser, whose
error is none. -/
structure Packages where
  validRange : JsString → Bool
  satisfies : JsString → JsString → Bool
  parseUrl : JsString → Option Url

section

variable (packages : Packages) [Collation]

def packageName (name : JsString) : Checked JsString := do
  let _ ← parsePackages
    (some (.object [(name, .string (js "1.0.0"))]))
  return name

def unsupportedRange : String :=
  "Imported dependencies require supported registry version ranges"

/-- The version range of a dependency. -/
def dependencyRange (range : JsonValue) : Checked JsString :=
  match range with
  | .string range =>
      if (js "npm:").isPrefixOf range then
        refuse "Imported npm aliases are not supported; revise the package before export"
      else if 200 < range.length || !packages.validRange range then
        refuse unsupportedRange
      else .ok range
  | _ => refuse unsupportedRange

def dependencyMap (value : Unknown) : Checked Record := do
  match value with
  | none => return Record.empty
  | some value =>
      let fields ← plainObject (some value)
      refuseIf (1000 < fields.length)
        "Imported dependency list exceeds its limit"
      let pairs ← fields.mapM fun field => do
        let name ← packageName field.1
        let range ← dependencyRange packages field.2
        return (name, range)
      return Record.ofPairs pairs

/-- `/^node_modules\/(?:@[^/]+\/)?[^/]+(?:\/node_modules\/...)*$/`, on the
parts between the slashes. -/
def isPackagePath : List JsString → Bool
  | dir :: name :: [] => dir == js "node_modules" && !name.isEmpty
  | dir :: name :: inner :: rest =>
      dir == js "node_modules" && !name.isEmpty &&
        (isPackagePath (inner :: rest) ||
          (name.head? == some (unit '@') && 1 < name.length &&
            !inner.isEmpty && (rest.isEmpty || isPackagePath rest)))
  | _ => false

def nodeModules : JsString := js "node_modules/"

def nestedModules : JsString := js "/node_modules/"

def packagePath (path : JsString) : Checked JsString := do
  refuseIf (!isPackagePath (path.splitOn (unit '/')) || 2048 < path.length)
    "Invalid imported dependency path"
  let names ← (pieces nestedModules (path.drop nodeModules.length)).mapM
    packageName
  return names.getLastD []

def metadataText (value : Unknown) (limit : Nat) : Checked JsString :=
  match text? value with
  | some text =>
      if limit < text.length ||
          text.any (fun u => u == 0 || u == 0x0D || u == 0x0A) then
        refuse "Invalid imported dependency metadata text"
      else .ok text
  | none => refuse "Invalid imported dependency metadata text"

/-- `/^!?[a-z0-9_-]{1,40}$/` -/
def isPlatform (value : JsonValue) : Bool :=
  match value with
  | .string text =>
      let name := if text.head? == some (unit '!') then text.drop 1 else text
      !name.isEmpty && name.length ≤ 40 && name.all fun u =>
        isLowerDigit u || u == unit '_' || u == unit '-'
  | _ => false

def isEngine (engine : JsString × JsonValue) : Bool :=
  !engine.1.isEmpty && engine.1.length ≤ 32 &&
    engine.1.all (fun u => isLowerDigit u || u == unit '_' || u == unit '-') &&
    match engine.2 with
    | .string range => range.length ≤ 200 && packages.validRange range
    | _ => false

/-- `/^[\w.@-]{1,214}$/`, and no dots alone. -/
def isExecutableName (name : JsString) : Bool :=
  !name.isEmpty && name.length ≤ 214 &&
    name.all (fun u => isPathUnit u || u == unit '@') &&
    name != js "." && name != js ".."

def isExecutablePath (path : JsonValue) : Bool :=
  match path with
  | .string path =>
      !path.isEmpty && path.length ≤ 1024 &&
        !path.any (fun u => u == unit '\\' || u == 0 || u == 0x0D ||
          u == 0x0A) &&
        path.head? != some (unit '/') &&
        !(path.splitOn (unit '/')).contains (js "..")
  | _ => false

def checkExecutables (bin : JsonValue) : Checked Unit := do
  let paths ← match bin with
    | .string path => Except.ok [JsonValue.string path]
    | bin => do
        (← plainObject (some bin)).mapM fun (name, path) =>
          if isExecutableName name then Except.ok path
          else refuse "Invalid imported dependency executable metadata"
  refuseIf (32 < paths.length || !paths.all isExecutablePath)
    "Invalid imported dependency executable metadata"

def invalidFunding : String := "Invalid imported dependency funding metadata"

def checkFunding (entry : JsonValue) : Checked Unit := do
  let funding ← match entry with
    | .string text => Except.ok (JsonValue.object [(js "url", .string text)])
    | entry => dataFields (some entry) ["url"] ["type"]
  if (funding.field? (js "type")).isSome then
    let _ ← metadataText (funding.field? (js "type")) 100
  match packages.parseUrl
      (← metadataText (funding.field? (js "url")) 2048) with
  | none => refuse "Invalid URL"
  | some url =>
      refuseIf (!([js "https:", js "http:"].contains url.protocol) ||
        !url.username.isEmpty || !url.password.isEmpty) invalidFunding

def metadata (item : JsonValue) : Checked Unit := do
  for field in ["license", "deprecated"] do
    if (item.field? (js field)).isSome then
      let _ ← metadataText (item.field? (js field)) 4096
  for field in ["os", "cpu"] do
    match item.field? (js field) with
    | none => pure ()
    | some (.array values) =>
        refuseIf (32 < values.length || !values.all isPlatform)
          "Invalid imported dependency platform metadata"
    | some _ => refuse "Invalid imported dependency platform metadata"
  if (item.field? (js "engines")).isSome then
    let engines ← plainObject (item.field? (js "engines"))
    refuseIf (16 < engines.length || !engines.all (isEngine packages))
      "Invalid imported dependency engine metadata"
  match item.field? (js "bin") with
  | none => pure ()
  | some bin => checkExecutables bin
  match item.field? (js "funding") with
  | none => pure ()
  | some funding =>
      let entries := match funding with
        | .array entries => entries
        | entry => [entry]
      refuseIf (16 < entries.length) invalidFunding
      entries.forM (checkFunding packages)

def identityMetadata (item : JsonValue) : Checked Unit := do
  if (item.field? (js "name")).isSome then
    let _ ← packageName (← metadataText (item.field? (js "name")) 214)
  match item.field? (js "version") with
  | none => pure ()
  | some version =>
      let _ ← parsePackages (some (.object [(js "fixture", version)]))

/-- The value of a base64 digit. -/
def base64Value (u : CodeUnit) : Option Nat :=
  if 65 ≤ u && u ≤ 90 then some (u.toNat - 65)
  else if 97 ≤ u && u ≤ 122 then some (u.toNat - 71)
  else if isDigit u then some (u.toNat + 4)
  else if u == unit '+' then some 62
  else if u == unit '/' then some 63
  else none

/-- A digest of 64 bytes in base64: 86 digits, of which the last one carries
two bits, so decoding and encoding it again gives the same text. -/
def isCanonicalIntegrity (value : Unknown) : Bool :=
  match value with
  | some (.string integrity) =>
      (js "sha512-").isPrefixOf integrity && integrity.length == 95 &&
        integrity.drop 93 == js "==" &&
        ((integrity.drop 7).take 86).all (fun u => (base64Value u).isSome) &&
        ((integrity[92]?.bind base64Value).any fun digit => digit % 16 == 0)
  | _ => false

/-- An entry as the walk reads it. -/
structure LockEntry where
  version : JsString
  dependencies : Record
  optionalDependencies : Record
  peerDependencies : Record
  peerDependenciesMeta : List (JsString × Bool)
  deriving DecidableEq

def peerMeta (value : Unknown) : Checked (List (JsString × Bool)) :=
  match value with
  | none => .ok []
  | some value => do
      (← plainObject (some value)).mapM fun (name, value) => do
        let peer ← dataFields (some value) ["optional"] []
        let name ← packageName name
        match peer.field? (js "optional") with
        | some (.bool optional) => return (name, optional)
        | _ => refuse "Invalid imported peer dependency metadata"

/-- The flags of an entry: it runs no script and is no development
dependency. -/
def checkFlags (item : JsonValue) : Checked Unit := do
  match item.field? (js "hasInstallScript") with
  | none | some (.bool false) => pure ()
  | some _ => refuse "Imported dependencies cannot run installation scripts"
  for flag in ["optional", "devOptional", "dev", "peer"] do
    match item.field? (js flag) with
    | none | some (.bool _) => pure ()
    | some _ => refuse "Invalid imported dependency flag"
  match item.field? (js "dev"), item.field? (js "devOptional") with
  | some (.bool true), _ | _, some (.bool true) =>
      refuse "Imported script locks cannot contain development dependencies"
  | _, _ => pure ()

def tarball (name version : JsString) : JsString :=
  js "https://registry.npmjs.org/" ++ name ++ js "/-/" ++
    ((name.splitOn (unit '/')).getLastD []) ++ js "-" ++ version ++ js ".tgz"

def entry (value : JsonValue) (path : JsString) : Checked LockEntry := do
  let item ← dataFields (some value) ["version", "resolved", "integrity"]
    ["name", "license", "dependencies", "optionalDependencies",
      "peerDependencies", "peerDependenciesMeta", "engines", "os", "cpu",
      "optional", "devOptional", "dev", "bin", "hasInstallScript", "funding",
      "peer", "deprecated"]
  metadata packages item
  let name ← packagePath path
  let parsed ← parsePackages
    (some (.object [(name, (item.field? (js "version")).getD .null)]))
  let version := (parsed.get name).getD []
  refuseIf ((item.field? (js "name")).isSome &&
      text? (item.field? (js "name")) != some name)
    "Imported dependency name differs from its path"
  refuseIf (text? (item.field? (js "resolved")) != some (tarball name version))
    "Imported dependency tarball differs from its package identity"
  refuseIf (!isCanonicalIntegrity (item.field? (js "integrity")))
    "Imported dependency requires canonical SHA512 integrity"
  checkFlags item
  let dependencies ←
    dependencyMap packages (item.field? (js "dependencies"))
  let optionalDependencies ←
    dependencyMap packages (item.field? (js "optionalDependencies"))
  let peerDependencies ←
    dependencyMap packages (item.field? (js "peerDependencies"))
  let peerDependenciesMeta ←
    peerMeta (item.field? (js "peerDependenciesMeta"))
  return {
    version := version
    dependencies := dependencies
    optionalDependencies := optionalDependencies
    peerDependencies := peerDependencies
    peerDependenciesMeta := peerDependenciesMeta }

end

end OpenApe.Ports.LockEntries
