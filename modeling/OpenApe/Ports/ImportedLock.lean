import OpenApe.Ports.LockEntries
import OpenApe.Verified.Worklist

/-!
# The walk through an imported lock file
(`apps/openape-pods/src/worker/dependencies/imported-lock.ts`)

`inspectImportedLock` walks from the root package along every dependency.  A
dependency is looked up as Node looks it up: in the package itself, then in
the packages around it, then at the root.  An optional one may be missing;
any other must be there, and each that is there must have a version in its
range.  A package that was visited as an optional one is walked through again
when something requires it.

Packages are nested, so a package is named by its own name and those of the
packages around it; `pathOf` is its path.  When the walk accepts a lock, its
entries are exactly the packages that dependencies reach from the root.
-/

namespace OpenApe.Ports.ImportedLock

open Verified.JsText Verified.Json Verified.KeyedTable Verified.Worklist
open CentralValues PortableValues LockEntries

/-! ## Dependencies -/

structure Dependency where
  name : JsString
  range : JsString
  optional : Bool
  deriving DecidableEq

/-- The dependencies of an entry: a name that is optional as well counts as
optional, and peers come last. -/
def dependenciesOf (item : LockEntry) : List Dependency :=
  let spread := item.optionalDependencies.entries.foldl
    (fun merged e => merged.put e.1 e.2) item.dependencies
  let dependencies := spread.entries.map fun (name, range) =>
    Dependency.mk name range (item.optionalDependencies.get name).isSome
  dependencies ++ item.peerDependencies.entries.map fun (name, range) =>
    Dependency.mk name range
      (item.peerDependenciesMeta.lookup name == some true)

/-- `new Map(entries)` -/
abbrev Entries := Table (Prod.fst : JsString × LockEntry → JsString)

/-! ## Node's lookup -/

/-- A path with a package in it. -/
def candidate (path name : JsString) : JsString :=
  (if path.isEmpty then [] else path ++ [unit '/']) ++ nodeModules ++ name

/-- `text.lastIndexOf(word)`, for a word that is not empty. -/
def lastIndexOf (word : JsString) : JsString → Option Nat
  | [] => none
  | u :: rest =>
      match lastIndexOf word rest with
      | some i => some (i + 1)
      | none => if word.isPrefixOf (u :: rest) then some 0 else none

/-- The path of the package around a package. -/
def enclosing (path : JsString) : JsString :=
  match lastIndexOf nestedModules path with
  | none => []
  | some boundary => path.take boundary

/-- The loop of `resolve`, with the entry at the candidate; it never takes
more turns than the path has units. -/
def resolveFrom (entries : Entries) (name : JsString) :
    Nat → JsString → Option (JsString × LockEntry)
  | 0, _ => none
  | turns + 1, path =>
      match entries.find? (candidate path name) with
      | some found => some found
      | none =>
          if path.isEmpty then none
          else resolveFrom entries name turns (enclosing path)

def resolve (entries : Entries) (path name : JsString) :
    Option (JsString × LockEntry) :=
  resolveFrom entries name (path.length + 1) path

/-! ## The walk -/

/-- `requiredChildren.get(path)?.add(target)`, for a new or a known path. -/
def addChild (children : List (JsString × List JsString))
    (path target : JsString) : List (JsString × List JsString) :=
  match children with
  | [] => [(path, [target])]
  | (parent, targets) :: rest =>
      if parent = path then (parent, add targets target) :: rest
      else (parent, targets) :: addChild rest path target

structure State where
  visited : List JsString
  required : List JsString
  requiredChildren : List (JsString × List JsString)
  pending : List (JsString × LockEntry × Bool)

/-- One dependency of a package that is itself required or not. -/
def follow (entries : Entries) (satisfies : JsString → JsString → Bool)
    (path : JsString) (mandatory : Bool) (s : State) (d : Dependency) :
    Checked State :=
  match resolve entries path d.name with
  | none =>
      if d.optional then .ok s
      else refuse "Imported dependency lock has an unresolved dependency"
  | some (target, dependency) =>
      if !satisfies dependency.version d.range then
        refuse "Imported dependency version does not satisfy its parent"
      else
        let s := if d.optional then s else
          { s with
            requiredChildren := addChild s.requiredChildren path target }
        let needed := mandatory && !d.optional
        if target ∈ s.visited ∧ (needed = false ∨ target ∈ s.required) then
          .ok s
        else .ok
          { s with
            visited := add s.visited target
            required := if needed then add s.required target else s.required
            pending := (target, dependency, needed) :: s.pending }

/-- The loop over the pending packages; none where it takes more turns. -/
def explore (entries : Entries) (satisfies : JsString → JsString → Bool) :
    Nat → State → Option (Checked State)
  | 0, _ => none
  | turns + 1, s =>
      match s.pending with
      | [] => some (.ok s)
      | (path, item, mandatory) :: rest =>
          match (dependenciesOf item).foldlM
              (follow entries satisfies path mandatory)
              { s with pending := rest } with
          | .error error => some (.error error)
          | .ok s => explore entries satisfies turns s

/-! ## The lock file -/

/-- `{ dependencies }` -/
def packagesValue (dependencies : Record) : JsonValue :=
  .object [(js "dependencies", recordValue dependencies)]

/-- Whether the lock is one of version 3. -/
def isVersionThree (lock : JsonValue) : Bool :=
  (match lock.field? (js "lockfileVersion") with
    | some (.number version) => version.text == js "3"
    | _ => false) &&
  (match lock.field? (js "requires") with
    | none | some (.bool true) => true
    | some _ => false)

section

variable (packages : Packages) [Collation]

/-- The packages that a lock lists, by path, once its root is the one of
`package.json`. -/
def listedPackages (clean : JsonValue) (manifest : Record) :
    Checked Members := do
  let lock ← dataFields (some clean) ["lockfileVersion", "packages"]
    ["name", "version", "requires"]
  refuseIf (!isVersionThree lock)
    "Imported dependency lock requires version 3"
  let listed ← plainObject (lock.field? (js "packages"))
  refuseIf (!(listed.map Prod.fst).contains [] || 1000 < listed.length)
    "Imported dependency lock exceeds its package limit"
  let root ← dataFields (JsonValue.field? (.object listed) []) []
    ["dependencies", "name", "version"]
  let locked ← parsePackages (root.field? (js "dependencies"))
  let wanted ← parsePackages (some (recordValue manifest))
  let lockedText ← canonicalPortableJson (packagesValue locked)
  let wantedText ← canonicalPortableJson (packagesValue wanted)
  refuseIf (lockedText != wantedText)
    "Imported dependency lock does not match package.json"
  identityMetadata lock
  identityMetadata root
  return listed

/-- The entries of the packages other than the root. -/
def lockEntries (listed : Members) : Checked Entries := do
  let others := listed.filter fun package => package.1 != []
  let rows ← others.mapM fun (path, value) => do
    let item ← entry packages value path
    return (path, item)
  return rows.foldl Table.put Table.empty

/-- `{ dependencies: manifest.dependencies }` -/
def rootItem (manifest : Record) : LockEntry :=
  ⟨[], manifest, Record.empty, Record.empty, []⟩

structure InspectedLock where
  canonical : JsString
  entries : Entries
  required : List JsString
  requiredChildren : List (JsString × List JsString)

/-- The walk from the root, and what it returns when every entry was
visited. -/
def inspectEntries (clean : JsonValue) (entries : Entries)
    (manifest : Record) : Option (Checked InspectedLock) :=
  (explore entries packages.satisfies (2 * entries.rows.length + 2)
    ⟨[], [], [], [([], rootItem manifest, true)]⟩).map fun walked => do
      let s ← walked
      refuseIf (s.visited.length != entries.rows.length)
        "Imported dependency lock contains unreachable packages"
      return {
        canonical := stringify clean
        entries := entries
        required := s.required
        requiredChildren := s.requiredChildren }

/-- `inspectImportedLock(value, manifest, npmRoot)`; none where it does not
come to an end. -/
def inspectImportedLock (value : JsonValue) (manifest : Record) :
    Option (Checked InspectedLock) :=
  let read : Checked (JsonValue × Entries) := do
    let clean ← canonicalValue value
    let listed ← listedPackages clean manifest
    let entries ← lockEntries packages listed
    return (clean, entries)
  match read with
  | .error error => some (.error error)
  | .ok (clean, entries) => inspectEntries packages clean entries manifest

end

end OpenApe.Ports.ImportedLock
