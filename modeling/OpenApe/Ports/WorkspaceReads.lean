import OpenApe.Ports.CentralSnapshots
import OpenApe.Ports.WorkspaceStore

/-!
# Reading a workspace (`workspace-store.ts`)

`inventory`, `read` and `view`: what the clients of an owner see of the
stored parts.  A Pod that the workspace lists is an object.
-/

namespace OpenApe.Ports.WorkspaceReads

open Verified.JsText Verified.Json Verified.KeyedTable
open CentralValues MapViews CentralParts CentralSnapshots WorkspaceStore

/-! ## The inventory -/

/-- `map === undefined ? null : parseMapView(map)` -/
def currentMap (runtime : MapRuntime) (map : Unknown) :
    Except WorkspaceError JsonValue :=
  match map with
  | none => .ok .null
  | some map => parseMapView runtime (some map)

/-- `{ ...value, [key]: item }` -/
def withMember (key : String) (item : JsonValue) (value : JsonValue) :
    JsonValue :=
  match value with
  | .object members =>
      if (value.field? (js key)).isSome then
        value.mapMember (js key) fun _ => item
      else .object (members ++ [(js key, item)])
  | _ => .object [(js key, item)]

/-- The members of an object literal that have a value. -/
def literal (members : List (String × Unknown)) : JsonValue :=
  .object (members.filterMap fun member =>
    member.2.map fun value => (js member.1, value))

/-- A Pod that cannot be reached. -/
def offlinePod (pod : JsonValue) : JsonValue :=
  literal [("id", pod.field? (js "id")), ("name", pod.field? (js "name")),
    ("online", some (.bool false)),
    ("revision", some (.number (.ofNat 1))),
    ("lifecycle", some (.string
      (if isText (pod.field? (js "lifecycle")) (js "archived") then
        js "archived" else js "paused"))),
    ("activeScript", some .null)]

/-- `online && view.ready` -/
def podReady (online : Bool) (view : JsonValue) :
    Except WorkspaceError Bool :=
  if online then do
    let isReady ← property (some view) "ready"
    return truthy isReady
  else .ok false

def inventoryPod (read : Reader) (online : Bool) (pod : JsonValue) :
    Except WorkspaceError JsonValue := do
  let id ← property (some pod) "id"
  let view ← read (podKey (textOf id))
  let isReady ← podReady online view
  return if isReady then withMember "online" (.bool true) pod
    else offlinePod pod

/-- `workspace.map ? { map: currentMap(workspace.map)! } : {}` -/
def inventoryMap (runtime : MapRuntime) (workspace : JsonValue) :
    Except WorkspaceError JsonValue := do
  let map ← property (some workspace) "map"
  if truthy map then do
    let current ← currentMap runtime map
    return withMember "map" current workspace
  else return workspace

def inventoryWorkspace (runtime : MapRuntime) (read : Reader)
    (online : Bool) : Except WorkspaceError JsonValue := do
  let workspace ← read (js "workspace")
  let mapped ← inventoryMap runtime workspace
  let pods ← property (some workspace) "pods"
  let items ← arrayItems pods
  let views ← items.mapM (inventoryPod read online)
  return withMember "pods" (.array views) mapped

structure CentralRuntime where
  id : JsString
  revision : Nat
  online : Bool
  lastSeenAt : Option Int
  workspace : JsonValue

/-- `row.seen_at || null` -/
def lastSeenAt (row : RuntimeRow) : Option Int :=
  if row.seenAt = 0 then none else some row.seenAt

/-- The workspace of a row, which has no Pods without data. -/
def rowWorkspace (runtime : MapRuntime) (db : Db) (row : RuntimeRow)
    (online : Bool) : Except WorkspaceError JsonValue :=
  if hasData row then inventoryWorkspace runtime (reader db row.id) online
  else .ok (.object [(js "pods", .array [])])

def inventoryRow (runtime : MapRuntime) (db : Db) (row : RuntimeRow)
    (now : Int) : Except WorkspaceError CentralRuntime := do
  let workspace ← rowWorkspace runtime db row (online row now)
  return ⟨row.id, row.revision, online row now, lastSeenAt row, workspace⟩

/-- The rows of an owner, ordered by id. -/
def ownedRows (db : Db) (owner : Owner) : List RuntimeRow :=
  (db.runtimes.rows.filter fun row => row.owner = ownerKey owner).insertionSort
    (fun a b => a.id ≤ b.id)

def inventory (runtime : WorkspaceRuntime) (db : Db) (now : Clock)
    (owner : Owner) : Except WorkspaceError (List CentralRuntime) :=
  (ownedRows db owner).zipIdx.mapM fun item =>
    inventoryRow runtime.toMapRuntime db item.1 (now item.2)

/-! ## One Pod -/

def read (db : Db) (now : Clock) (owner : Owner)
    (runtimeId podId : JsString) :
    Except WorkspaceError (Nat × CentralPod) := do
  let id ← centralId (some (.string podId))
  let found ← ready db owner runtimeId [some (.string id)] (now 0)
  let pod ← assemblePod (reader db found.id) (partKeys db found.id) podId
  return (found.revision, pod)

inductive WorkspaceView where
  | summary
  | map
  | runs (offset : Nat)
  | run (runId : JsString)
  | version (selection : JsString)

inductive ViewAnswer where
  | map (revision : Nat) (map : JsonValue)
  | summary (revision total : Nat) (pod : CentralPod)
  | runs (revision total : Nat) (runs : List JsonValue)
  | run (revision : Nat) (run events : JsonValue)
  | version (revision : Nat) (version : JsonValue)

def runPage : Nat := 20

def invalidRequest : WorkspaceError :=
  protocolError (js "invalid_workspace_request")

/-- The views of one Pod, whose part and run ids have been read. -/
def podView (db : Db) (found : RuntimeRow) (podId : JsString)
    (part : JsonValue) (view : Unknown) (ids : List JsonValue) :
    WorkspaceView → Except WorkspaceError ViewAnswer
  | .map => .error invalidRequest
  | .summary => do
      let runs ← podRuns (reader db found.id) podId (ids.take runPage)
      return .summary found.revision ids.length {
        rest := podRest part
        runs := ⟨viewRest view, runs, .array []⟩
        versions := Table.empty
        history := Table.empty }
  | .runs offset => do
      let runs ← podRuns (reader db found.id) podId
        ((ids.drop offset).take runPage)
      return .runs found.revision ids.length runs
  | .run runId => do
      let id ← centralId (some (.string runId))
      throwIf (!ids.any fun item => isText (some item) id)
        (.protocol (js "run_not_found") 404)
      let run ← reader db found.id (subKey podId .run runId)
      let events ← reader db found.id (subKey podId .events runId)
      return .run found.revision run events
  | .version selection => do
      let key := subKey podId .version selection
      let _ ← parsePartKey key
      throwIf (db.parts.find? (found.id, key)).isNone
        (.protocol (js "version_not_found") 404)
      let version ← reader db found.id key
      return .version found.revision version

/-- A view of a Pod that the request names. -/
def viewPod (db : Db) (now : Clock) (owner : Owner) (runtimeId : JsString)
    (query : WorkspaceView) :
    Option JsString → Except WorkspaceError ViewAnswer
  | none => .error invalidRequest
  | some podId => do
      let id ← centralId (some (.string podId))
      let found ← ready db owner runtimeId [some (.string id)] (now 0)
      let part ← reader db found.id (podKey podId)
      let runs ← property (some part) "runs"
      let runIds ← property runs "runIds"
      let ids ← arrayItems runIds
      podView db found podId part runs ids query

def viewMap (runtime : MapRuntime) (db : Db) (now : Clock) (owner : Owner)
    (runtimeId : JsString) : Except WorkspaceError ViewAnswer := do
  let found ← ready db owner runtimeId [] (now 0)
  let workspace ← reader db found.id (js "workspace")
  let map ← property (some workspace) "map"
  let current ← currentMap runtime map
  return .map found.revision current

def view (runtime : WorkspaceRuntime) (db : Db) (now : Clock) (owner : Owner)
    (runtimeId : JsString) (podId : Option JsString) :
    WorkspaceView → Except WorkspaceError ViewAnswer
  | .map => viewMap runtime.toMapRuntime db now owner runtimeId
  | query => viewPod db now owner runtimeId query podId

end OpenApe.Ports.WorkspaceReads
