import OpenApe.Ports.CentralValues

/-!
# Workspace commands (`central.ts`)

`parseCentralCommand` and its two siblings, and the Pods that a command
touches.  What a channel accepts as its body is the business of that
channel's parser; the eight parsers are a parameter.
-/

namespace OpenApe.Ports.CentralCommands

open Verified.JsText Verified.Json
open CentralValues

/-- A parsed command. -/
structure CentralCommand where
  channel : JsString
  body : JsonValue

/-- The command as `JSON.stringify` sees it. -/
def CentralCommand.json (command : CentralCommand) : JsonValue :=
  .object [(js "channel", .string command.channel), (js "body", command.body)]

/-- The parsers of the channels, by name, and the one of inbox decisions. -/
structure ChannelParsers where
  parse : JsString → JsonValue → Except WorkspaceError JsonValue
  parseInboxDecide : Unknown → Except WorkspaceError JsonValue

/-- `Object.keys(value)` of an object. -/
def objectKeys : JsonValue → List JsString
  | .object members => members.map Prod.fst
  | _ => []

/-- `Object.keys(value).some(key => !allowed.includes(key))` -/
def hasOtherKeys (allowed : List String) (value : JsonValue) : Bool :=
  (objectKeys value).any fun key => !allowed.any fun name => key == js name

/-- The actions that may come from outside the desktop, by channel. -/
def allowedActions : List (String × List String) :=
  [("data", ["deletePod"]),
    ("workspace", ["create", "update", "tag"]),
    ("details", ["describe", "activate"]),
    ("scripts", ["save", "validate", "activate", "prepareDependencies"]),
    ("scheduling", ["save", "lifecycle"]),
    ("runs", ["start", "cancel"]),
    ("resources", ["saveVariable", "removeVariable", "revoke"]),
    ("sharing", ["list", "show", "configure", "commit", "complete", "cancel",
      "bind", "prepareDependencies"])]

/-- The channel of a command, with the actions it allows. -/
def channelOf (item : JsonValue) :
    Except WorkspaceError (JsString × List String) :=
  match text? (item.field? (js "channel")) with
  | none => .error (.error (js "Unsupported workspace channel"))
  | some channel =>
      match allowedActions.find? (fun entry => js entry.1 = channel) with
      | some entry => .ok (channel, entry.2)
      | none => .error (.error (js "Unsupported workspace channel"))

def parseCentralCommand (parsers : ChannelParsers) (value : Unknown) :
    Except WorkspaceError CentralCommand := do
  let item ← centralObject value
  throwIf (hasOtherKeys ["channel", "body"] item)
    (.error (js "Invalid workspace command fields"))
  let body ← centralObject (item.field? (js "body"))
  let (channel, allowed) ← channelOf item
  throwIf (!allowed.any fun action =>
      textOf (body.field? (js "type")) == js action)
    (.error (js "This action requires the local desktop"))
  let parsed ← parsers.parse channel body
  return ⟨channel, parsed⟩

def parseInboxCentralCommand (parsers : ChannelParsers) (value : Unknown) :
    Except WorkspaceError CentralCommand := do
  let item ← centralObject value
  throwIf ((objectKeys item).length != 2 ||
      !isText (item.field? (js "channel")) (js "inbox"))
    (.error (js "Invalid inbox workspace command"))
  let body ← parsers.parseInboxDecide (item.field? (js "body"))
  return ⟨js "inbox", body⟩

/-- The branch of `parseRuntimeCentralCommand` for the channel `local`. -/
def parseOwnerAction (item : JsonValue) :
    Except WorkspaceError CentralCommand := do
  let body ← centralObject (item.field? (js "body"))
  throwIf ((objectKeys item).length != 2 || (objectKeys body).length != 1 ||
      !isText (body.field? (js "type")) (js "ownerAction"))
    (.error (js "Invalid local workspace command"))
  return ⟨js "local", .object [(js "type", .string (js "ownerAction"))]⟩

def parseRuntimeCentralCommand (parsers : ChannelParsers) (value : Unknown) :
    Except WorkspaceError CentralCommand := do
  let item ← centralObject value
  if isText (item.field? (js "channel")) (js "local") then
    parseOwnerAction item
  else
    parseCentralCommand parsers value

/-! ## The Pods of a command -/

/-- `workspace.pods.map(pod => pod.id)` -/
def workspacePodIds (workspace : Unknown) :
    Except WorkspaceError (List Unknown) := do
  let pods ← property workspace "pods"
  let items ← arrayItems pods
  items.mapM fun pod => property (some pod) "id"

/-- `[centralId(value)]` -/
def onePodId (value : Unknown) : Except WorkspaceError (List Unknown) := do
  let id ← centralId value
  return [some (.string id)]

def commandPodIds (command : CentralCommand) (workspace : Unknown) :
    Except WorkspaceError (List Unknown) :=
  let body : Unknown := some command.body
  let type := member body "type"
  let channelIs := fun name => command.channel == js name
  if channelIs "inbox" then .ok []
  else if (text? (member body "podId")).isSome then
    onePodId (member body "podId")
  else if channelIs "workspace" && isText type (js "update") then
    onePodId (member body "id")
  else if channelIs "workspace" && isText type (js "tag") then .ok []
  else if channelIs "workspace" && isOneOf ["list", "map", "create"] type then
    .ok []
  else if channelIs "sharing" then
    if isText (member body "scope") (js "import") then .ok []
    else if (text? (member (member body "selection") "id")).isSome then
      onePodId (member (member body "selection") "id")
    else .ok []
  else workspacePodIds workspace

end OpenApe.Ports.CentralCommands
