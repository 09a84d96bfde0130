import OpenApe.Ports.CentralParts
import OpenApe.Verified.KeyedTable

/-!
# Pods and their parts (`central-parts.ts`)

`assemblePod` builds a Pod from its parts.  An object of the code is kept
here as the members that the code names, each with its type, and `rest`, the
object of the others; the object that a name maps to a value is a table.
-/

namespace OpenApe.Ports.CentralSnapshots

open Verified.JsText Verified.Json Verified.KeyedTable
open CentralValues CentralParts

/-- An object that is read and built by name. -/
abbrev Dict (α : Type) := Table (fun entry : JsString × α => entry.1)

/-- `Object.fromEntries(entries)`: of equal names the last one counts. -/
def fromEntries {α : Type} (entries : List (JsString × α)) : Dict α :=
  entries.foldl Table.put Table.empty

/-- A run view with its two collections set apart. -/
structure RunView where
  rest : JsonValue
  runs : List JsonValue
  events : JsonValue

structure CentralPod where
  rest : JsonValue
  runs : RunView
  versions : Dict JsonValue
  history : Dict RunView

def podRuns (read : Reader) (podId : JsString) (runIds : List JsonValue) :
    Except WorkspaceError (List JsonValue) :=
  runIds.mapM fun id => read (subKey podId .run (toText id))

/-- `events(run.id)` -/
def runEvents (read : Reader) (podId : JsString) (run : JsonValue) :
    Except WorkspaceError (JsString × JsonValue) := do
  let id ← property (some run) "id"
  let events ← read (subKey podId .events (textOf id))
  return (textOf id, events)

/-- `runs[0] ? events(runs[0].id) : []` -/
def firstEvents (read : Reader) (podId : JsString) :
    List JsonValue → Except WorkspaceError JsonValue
  | [] => .ok (.array [])
  | run :: _ =>
      if truthy (some run) then do
        let events ← runEvents read podId run
        return events.2
      else .ok (.array [])

/-- `pod/${podId}/version/` -/
def versionPrefix (podId : JsString) : JsString := subKey podId .version []

def podVersions (read : Reader) (keys : List JsString) (podId : JsString) :
    Except WorkspaceError (List (JsString × JsonValue)) :=
  (keys.filter fun key => (versionPrefix podId).isPrefixOf key).mapM
    fun key => do
      let version ← read key
      return (key.drop (versionPrefix podId).length, version)

/-- `[run.id, { runs: [run], events: events(run.id) }]` -/
def historyEntry (read : Reader) (podId : JsString) (run : JsonValue) :
    Except WorkspaceError (JsString × RunView) := do
  let events ← runEvents read podId run
  return (events.1, ⟨.object [], [run], events.2⟩)

/-- The members of a Pod besides those that `assemblePod` sets. -/
def podRest (part : JsonValue) : JsonValue :=
  part.without [js "runs", js "versions", js "history"]

/-- The members of a run view besides its run ids and its collections. -/
def viewRest (runs : Unknown) : JsonValue :=
  (runs.getD .null).without [js "runIds", js "runs", js "events"]

def assemblePod (read : Reader) (keys : List JsString) (podId : JsString) :
    Except WorkspaceError CentralPod := do
  let part ← read (podKey podId)
  let view ← property (some part) "runs"
  let runIds ← property view "runIds"
  let ids ← arrayItems runIds
  let runs ← podRuns read podId ids
  let events ← firstEvents read podId runs
  let versions ← podVersions read keys podId
  let history ← runs.mapM (historyEntry read podId)
  return {
    rest := podRest part
    runs := ⟨viewRest view, runs, events⟩
    versions := fromEntries versions
    history := fromEntries history }

end OpenApe.Ports.CentralSnapshots
