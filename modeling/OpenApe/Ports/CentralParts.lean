import OpenApe.Ports.MapViews
import OpenApe.Ports.RunViews
import OpenApe.Verified.Utf8
import Mathlib.Data.List.Sort

/-!
# Parts of a published workspace (`central-parts.ts`, `control.ts`)

A workspace travels as content-addressed parts: the keys and their parser,
the digest of a manifest, the validator of one part and the validator of the
parts together.

The parsers of a Pod's details, scripts and schedule and the checks of its
resources only accept or throw, so each is a parameter; so are SHA-256, the
tags' normalisation, the URL parser and `parseRunApproval`.
-/

namespace OpenApe.Ports.CentralParts

open Verified.JsText Verified.Json Verified.Unicode Verified.Utf8
open CentralValues CentralCommands MapViews RunViews

/-- What the parts' code uses and does not define. -/
structure PartsRuntime extends MapRuntime where
  /-- The hexadecimal digest of some bytes. -/
  sha256 : List UInt8 → JsString
  parseRunApproval : ApprovalParser
  parsePodDetails : Unknown → Except WorkspaceError Unit
  parseScriptView : Unknown → Except WorkspaceError Unit
  parseScheduleView : Unknown → Except WorkspaceError Unit
  /-- What `parseResourceState` checks after it has rewritten `jev`. -/
  checkResourceState : JsonValue → Except WorkspaceError Unit

/-- The hashes of the parts by key: an object, so no key stands twice. -/
abbrev CentralManifest := List (JsString × JsString)

def partHash (runtime : PartsRuntime) (text : JsString) : JsString :=
  runtime.sha256 (utf8 text)

/-- `JSON.stringify` of the sorted entries. -/
def manifestText (manifest : CentralManifest) : JsString :=
  stringify (.array ((manifest.insertionSort (fun a b => a.1 ≤ b.1)).map
    fun entry => .array [.string entry.1, .string entry.2]))

def manifestDigest (runtime : PartsRuntime) (manifest : CentralManifest) :
    JsString :=
  partHash runtime (manifestText manifest)

/-! ## Keys -/

inductive PartKind where
  | pod
  | version
  | run
  | events
  deriving DecidableEq

structure PartKey where
  podId : Option JsString := none
  kind : Option PartKind := none
  id : Option JsString := none
  table : Option JsString := none
  deriving DecidableEq

def PartKind.text : PartKind → JsString
  | .pod => js "pod"
  | .version => js "version"
  | .run => js "run"
  | .events => js "events"

/-- Tables that earlier desktops publish as parts. -/
def legacyCentralTables : List String :=
  ["pods", "remote_pods", "master_creations", "script_credential_approvals",
    "assignments", "scripts", "checkpoints", "sources", "claims", "settings",
    "validations", "resources", "resource_epochs", "runs", "run_events",
    "schedules", "accepted_events", "run_inputs", "recovery_reviews",
    "effect_ledger", "mail_inventory", "mail_items", "mail_receipts",
    "mail_extractions", "mail_contexts", "source_derivations",
    "master_messages", "script_drafts", "access_proposals", "pod_organization",
    "pod_groups", "pod_memberships", "pod_variables", "master_message_scopes",
    "pod_chat_origins", "pod_descriptions", "draft_packages",
    "dependency_sets", "script_dependencies", "chat_conversations",
    "chat_contexts", "chat_members", "chat_message_context", "control_runs",
    "control_changes", "workflow_channels", "workflow_gates",
    "workflow_values", "graph_items", "graph_deliveries", "graph_item_events",
    "graph_gate_batches", "workflows", "workflow_members", "workflow_runs",
    "workflow_nodes", "workflow_attempts", "workflow_mail_scopes",
    "workflow_mail_pending", "workflow_mail_processed",
    "workflow_mail_participants", "workflow_mail_batches",
    "workflow_mail_audit"]

def centralChunkRows : Nat := 16

/-- `[a-f0-9-]{36}|[a-f0-9]{64}` -/
def isSelection (id : JsString) : Bool := isLooseId id || isHash id

/-- `/(version|run|events)/(…)` -/
def parseSelection (podId tail : JsString) : Option PartKey :=
  [PartKind.version, .run, .events].findSome? fun kind =>
    match tail.dropPrefix? (js "/" ++ kind.text ++ js "/") with
    | some id =>
        if isSelection id then
          some { podId := some podId, kind := some kind, id := some id }
        else none
    | none => none

/-- `(${uuid})(?:/(version|run|events)/(…))?` -/
def parsePodKey (rest : JsString) : Option PartKey :=
  if isUuid (rest.take 36) then
    if (rest.drop 36).isEmpty then
      some { podId := some (rest.take 36), kind := some .pod }
    else parseSelection (rest.take 36) (rest.drop 36)
  else none

def isTableUnit (u : CodeUnit) : Bool :=
  (97 ≤ u && u ≤ 122) || u == unit '_'

/-- `([a-z_]{1,64})/\d{1,7}` -/
def parseTableKey (rest : JsString) : Option PartKey :=
  let name := rest.takeWhile isTableUnit
  let chunk := (rest.drop name.length).tail
  if 1 ≤ name.length && name.length ≤ 64 &&
      (rest.drop name.length).head? == some (unit '/') &&
      1 ≤ chunk.length && chunk.length ≤ 7 &&
      chunk.all (fun u => 48 ≤ u && u ≤ 57) &&
      legacyCentralTables.any (fun table => js table == name)
  then some { table := some name } else none

/-- `keyPattern` with the groups it captures. -/
def matchKey (key : JsString) : Option PartKey :=
  if key = js "workspace" ∨ key = js "artifacts" ∨ key = js "schema" then
    some {}
  else
    match key.dropPrefix? (js "pod/") with
    | some rest => parsePodKey rest
    | none =>
        match key.dropPrefix? (js "table/") with
        | some rest => parseTableKey rest
        | none => none

def parsePartKey (key : JsString) : Except WorkspaceError PartKey :=
  match matchKey key with
  | some part => .ok part
  | none => .error (.error (js "Invalid workspace part key"))

/-- `pod/${podId}` -/
def podKey (podId : JsString) : JsString := js "pod/" ++ podId

/-- `pod/${podId}/${kind}/${id}` -/
def subKey (podId : JsString) (kind : PartKind) (id : JsString) : JsString :=
  podKey podId ++ (js "/" ++ kind.text ++ js "/") ++ id

/-! ## The workspace part -/

/-- The condition of `parseCommand` on a Pod's name. -/
def badName (name : Unknown) : Bool :=
  match text? name with
  | none => true
  | some text =>
      (trim text).isEmpty || text.contains 0 || decide (100 < text.length)

/-- The checks of `parseCommand` on the update command of a Pod. -/
def checkUpdate (pod : JsonValue) : Except WorkspaceError Unit := do
  let id ← property (some pod) "id"
  throwIf (badName (pod.field? (js "name"))) (.error (js "Invalid name"))
  throwIf (!(text? id).any isLooseId ||
      !isSafeFrom 1 (pod.field? (js "revision")) ||
      !isOneOf ["active", "paused", "archived"]
        (pod.field? (js "lifecycle")))
    (.error (js "Invalid pod update"))

def checkWorkspacePod (pod : JsonValue) : Except WorkspaceError Unit := do
  checkUpdate pod
  let activeScript := pod.field? (js "activeScript")
  throwIf (!isNull activeScript && !(text? activeScript).any isHash)
    (.error (js "Invalid active script"))
  let description := pod.field? (js "description")
  throwIf (description.isSome &&
      !(text? description).any (fun text => text.length ≤ 160))
    (.error (js "Invalid pod description"))

/-- One entry of `state.tags`. -/
def checkTags (runtime : MapRuntime) (item : JsonValue) :
    Except WorkspaceError Unit := do
  throwIf (!truthy (some item) ||
      !(text? (item.field? (js "id"))).any isLooseId ||
      !isSafeFrom 0 (item.field? (js "revision")))
    (.error (js "Invalid workspace tags"))
  let differ ← tagsDiffer runtime (item.field? (js "tags"))
  throwIf differ (.error (js "Invalid workspace tags"))

def checkAllTags (runtime : MapRuntime) (tags : Unknown) :
    Except WorkspaceError Unit :=
  match tags with
  | none => .ok ()
  | some (.array items) => do
      throwIf (decide (1000 < items.length))
        (.error (js "Invalid workspace tags"))
      items.forM (checkTags runtime)
  | some _ => .error (.error (js "Invalid workspace tags"))

/-- `if (value[key] !== undefined) value[key] = parse(value[key])` -/
def reparse (parse : Unknown → Except WorkspaceError JsonValue)
    (key : String) (value : JsonValue) : Except WorkspaceError JsonValue :=
  match value.field? (js key) with
  | none => .ok value
  | some old => do
      let new ← parse (some old)
      return value.mapMember (js key) fun _ => new

/-- `value.pods`, of an object where it is an array. -/
def workspacePods (value : JsonValue) :
    Except WorkspaceError (List JsonValue) :=
  match value.field? (js "pods") with
  | some (.array pods) => .ok pods
  | _ => .error (.error (js "Invalid workspace response"))

/-- `parseWorkspace`, with the state it leaves behind. -/
def parseWorkspace (runtime : MapRuntime) (value : JsonValue) :
    Except WorkspaceError JsonValue := do
  let pods ← workspacePods value
  let state ← reparse parseJevAvailability "jev" value
  let state ← reparse (parseMapView runtime) "map" state
  pods.forM checkWorkspacePod
  checkAllTags runtime (state.field? (js "tags"))
  return state

def validateWorkspace (runtime : MapRuntime) (value : JsonValue) :
    Except WorkspaceError Unit := do
  let state ← parseWorkspace runtime value
  let pods ← workspacePods state
  throwIf (decide (100 < pods.length))
    (.error (js "Invalid workspace inventory"))

/-! ## The artifacts part -/

/-- The pieces of a text between the units that equal `u`. -/
def splitUnit (u : CodeUnit) (text : JsString) : List JsString :=
  text.splitOn u

/-- A path that the desktop manages. -/
def isManaged (path : JsString) : Bool :=
  (path.dropPrefix? (js "blobs/")).any isHash ||
    ((js "workspace/").isPrefixOf path &&
      (splitUnit (unit '/') path).all fun part =>
        !part.isEmpty && part != js "." && part != js "..")

/-- `typeof file.path === 'string' ? file.path : ''` -/
def filePath (file : JsonValue) : JsString :=
  (text? (file.field? (js "path"))).getD []

/-- The condition of 'Invalid managed artifact' on a file's own fields. -/
def badFile (file : JsonValue) : Bool :=
  !isManaged (filePath file) || (filePath file).contains (unit '\\') ||
    (filePath file).contains 0 || decide (4096 < (filePath file).length) ||
    !(text? (file.field? (js "hash"))).any isHash

/-- `${String(file.podId)}:${path}` -/
def fileKey (file : JsonValue) : JsString :=
  textOf (file.field? (js "podId")) ++ js ":" ++ filePath file

def checkSize (size : Unknown) : Except WorkspaceError Unit := do
  let size ← centralRevision size
  throwIf (decide (centralMaxBytes < size))
    (.error (js "Managed artifact exceeds limit"))

def checkFile (item : JsonValue) : Except WorkspaceError JsString := do
  let file ← centralObject (some item)
  let _ ← centralId (file.field? (js "podId"))
  throwIf (badFile file) (.error (js "Invalid managed artifact"))
  return fileKey file

/-- The loop over the files, which have distinct paths. -/
def checkFiles : List JsString → List JsonValue → Except WorkspaceError Unit
  | _, [] => .ok ()
  | paths, item :: items => do
      let key ← checkFile item
      throwIf (paths.contains key) (.error (js "Invalid duplicate artifact"))
      checkSize (item.field? (js "size"))
      checkFiles (paths ++ [key]) items

def validateArtifacts (value : JsonValue) : Except WorkspaceError Unit :=
  match value with
  | .array items =>
      if items.length ≤ 100000 then checkFiles [] items
      else .error (.error (js "Invalid workspace artifacts"))
  | _ => .error (.error (js "Invalid workspace artifacts"))

/-! ## Table parts -/

def isObjectValue : JsonValue → Bool
  | .object _ => true
  | _ => false

def validateTable (value : JsonValue) : Except WorkspaceError Unit :=
  match value with
  | .array rows =>
      throwIf (decide (centralChunkRows < rows.length) ||
          !rows.all isObjectValue)
        (.error (js "Invalid workspace archive"))
  | _ => .error (.error (js "Invalid workspace archive"))

/-! ## The parts of a Pod -/

/-- `view.pod.id !== podId` throws. -/
def checkScriptPod (view : Unknown) (podId : JsString) :
    Except WorkspaceError Unit := do
  let pod ← property view "pod"
  let id ← property pod "id"
  throwIf (!isText id podId) (.error (js "Script belongs to another Pod"))

/-- `parseResourceState`, with the state it leaves behind. -/
def parseResourceState (runtime : PartsRuntime) (value : Unknown) :
    Except WorkspaceError JsonValue :=
  match value with
  | some (.object members) => do
      let state ← reparse parseJevAvailability "jev" (.object members)
      runtime.checkResourceState state
      return state
  | some (.array items) => do
      runtime.checkResourceState (.array items)
      return .array items
  | _ => .error (.error (js "Invalid resource response"))

def checkResourcePod (podId : JsString) (resource : JsonValue) :
    Except WorkspaceError Unit := do
  let id ← property (some resource) "podId"
  throwIf (!isText id podId) (.error (js "Invalid resource Pod binding"))

/-- The resources of a Pod are its own; the state that remains. -/
def checkResources (runtime : PartsRuntime) (podId : JsString)
    (value : Unknown) : Except WorkspaceError JsonValue := do
  let state ← parseResourceState runtime value
  let resources ← arrayItems (state.field? (js "resources"))
  resources.forM (checkResourcePod podId)
  return state

/-- The views that a Pod and its part both carry. -/
def checkPodViews (runtime : PartsRuntime) (pod : JsonValue) :
    Except WorkspaceError Unit := do
  runtime.parsePodDetails (pod.field? (js "details"))
  runtime.parseScriptView (pod.field? (js "scripts"))
  runtime.parseScheduleView (pod.field? (js "scheduling"))

/-- `new Set(values).size === values.length` -/
def allDistinct : List JsonValue → Bool
  | [] => true
  | value :: values =>
      !values.any (fun other => strictEq (some value) (some other)) &&
        allDistinct values

/-- `runs.runIds` of a Pod's part. -/
def partRunIds (runs : JsonValue) : Except WorkspaceError (List JsonValue) :=
  match runs.field? (js "runIds") with
  | some (.array ids) =>
      if ids.length ≤ 100 ∧ allDistinct ids = true then .ok ids
      else .error (.error (js "Invalid run view collections"))
  | _ => .error (.error (js "Invalid run view collections"))

/-- `{ ...runs, runs: [], events: [] }` -/
def emptied (runs : JsonValue) : JsonValue :=
  match runs.without [js "runs", js "events"] with
  | .object members =>
      .object (members ++ [(js "runs", .array []), (js "events", .array [])])
  | other => other

def checkRunIds (runtime : PartsRuntime) (value : Unknown) :
    Except WorkspaceError Unit := do
  let runs ← centralObject value
  let ids ← partRunIds runs
  ids.forM fun id => do let _ ← centralId (some id)
  let _ ← parseRunView runtime.parseRunApproval (some (emptied runs))

def validatePodPart (runtime : PartsRuntime) (podId : JsString)
    (value : JsonValue) : Except WorkspaceError Unit := do
  let pod ← centralObject (some value)
  assertLocalOnly pod
  throwIf (!isText (pod.field? (js "id")) podId ||
      !isBoolean (pod.field? (js "ready")))
    (.error (js "Invalid Pod snapshot binding"))
  checkPodViews runtime pod
  let _ ← checkResources runtime podId (pod.field? (js "resources"))
  checkScriptPod (pod.field? (js "scripts")) podId
  checkRunIds runtime (pod.field? (js "runs"))

def validateVersion (runtime : PartsRuntime) (podId : JsString)
    (value : JsonValue) : Except WorkspaceError Unit := do
  runtime.parseScriptView (some value)
  checkScriptPod (some value) podId

/-- A view of some runs and events. -/
def runView (runs events : JsonValue) : JsonValue :=
  .object [(js "runs", runs), (js "events", events)]

def validateRun (runtime : PartsRuntime) (podId id : JsString)
    (value : JsonValue) : Except WorkspaceError Unit := do
  let _ ← parseRunView runtime.parseRunApproval
    (some (runView (.array [value]) (.array [])))
  throwIf (!isText (value.field? (js "podId")) podId ||
      !isText (value.field? (js "id")) id)
    (.error (js "Invalid run Pod binding"))

def validateEvents (runtime : PartsRuntime) (value : JsonValue) :
    Except WorkspaceError Unit := do
  let _ ← parseRunView runtime.parseRunApproval
    (some (runView (.array []) value))

/-- The last branches of `validatePart`, by the kind of the key. -/
def validateKind (runtime : PartsRuntime) (part : PartKey)
    (value : JsonValue) : Except WorkspaceError Unit :=
  let podId := part.podId.getD []
  match part.kind with
  | some .pod => validatePodPart runtime podId value
  | some .version => validateVersion runtime podId value
  | some .run => validateRun runtime podId (part.id.getD []) value
  | _ => validateEvents runtime value

def validatePart (runtime : PartsRuntime) (key : JsString)
    (value : JsonValue) : Except WorkspaceError Unit := do
  let part ← parsePartKey key
  if key = js "workspace" then validateWorkspace runtime.toMapRuntime value
  else if key = js "schema" then do let _ ← centralRevision (some value)
  else if key = js "artifacts" then validateArtifacts value
  else if part.table.isSome then validateTable value
  else validateKind runtime part value

/-! ## The parts together -/

/-- `read`: the value of a part, or a throw where it is missing. -/
abbrev Reader := JsString → Except WorkspaceError JsonValue

/-- What `for … of` goes through. -/
def iterate (value : Unknown) : Except WorkspaceError (List JsonValue) :=
  match value with
  | some (.array items) => .ok items
  | some (.string text) =>
      .ok ((codePoints text).map fun c => .string (pointUnits c))
  | _ => .error (.typeError (js "is not iterable"))

/-- `text.replace(old, new)`: the first occurrence. -/
def replaceFirst (old new : JsString) : JsString → JsString
  | [] => []
  | u :: rest =>
      if old.isPrefixOf (u :: rest) then new ++ (u :: rest).drop old.length
      else u :: replaceFirst old new rest

/-- What the key of a part asks of the other keys. -/
def checkKey (keys : List JsString) (pods : List Unknown) (key : JsString) :
    Except WorkspaceError Unit := do
  let part ← parsePartKey key
  throwIf (part.podId.any fun podId =>
      !pods.any (strictEq (some (.string podId))))
    (.error (js "Invalid Pod snapshot binding"))
  throwIf (decide (part.kind = some .events) &&
      !keys.contains (replaceFirst (js "/events/") (js "/run/") key))
    (.error (js "Invalid history Pod binding"))

/-- Whether the parts of a listed run are there. -/
def checkRunParts (keys : List JsString) (podId : JsString)
    (runId : JsonValue) : Except WorkspaceError Unit :=
  throwIf (!keys.contains (subKey podId .run (toText runId)) ||
      !keys.contains (subKey podId .events (toText runId)))
    (.error (js "Invalid history Pod binding"))

/-- Whether the parts of a listed Pod are there. -/
def checkPodParts (keys : List JsString) (read : Reader) (podId : Unknown) :
    Except WorkspaceError Unit := do
  throwIf (!keys.contains (podKey (textOf podId)))
    (.error (js "Invalid workspace inventory"))
  let pod ← read (podKey (textOf podId))
  let runs ← property (some pod) "runs"
  let runIds ← property runs "runIds"
  let ids ← iterate runIds
  ids.forM (checkRunParts keys (textOf podId))

def checkFilePod (pods : List Unknown) (file : JsonValue) :
    Except WorkspaceError Unit := do
  let podId ← property (some file) "podId"
  throwIf (!pods.any (strictEq podId)) (.error (js "Invalid managed artifact"))

def validateManifest (keys : List JsString) (read : Reader) :
    Except WorkspaceError Unit := do
  throwIf (!keys.contains (js "workspace") || !keys.contains (js "artifacts"))
    (.error (js "Invalid workspace inventory"))
  let workspace ← read (js "workspace")
  let pods ← workspacePodIds (some workspace)
  keys.forM (checkKey keys pods)
  pods.forM (checkPodParts keys read)
  let artifacts ← read (js "artifacts")
  let files ← iterate (some artifacts)
  files.forM (checkFilePod pods)

end OpenApe.Ports.CentralParts
