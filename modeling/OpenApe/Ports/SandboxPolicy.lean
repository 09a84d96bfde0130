import OpenApe.Verified.Json
import OpenApe.Verified.Seatbelt

/-!
# The sandbox policy of a Pod (`sandbox.ts`)

The text of the Seatbelt policy that a Pod's programs run under, as
`sandboxPolicy` writes it at both levels, and the parser of denied paths
(`contracts/sandbox.ts`).  The paths that are denied to every Pod
(`mandatorySecretPaths`) are an argument.
-/

namespace OpenApe.Ports.SandboxPolicy

open Verified.JsText Verified.Json

/-! ## Policies -/

inductive SandboxLevel where
  | isolated
  | owner
  deriving DecidableEq

structure SandboxReach where
  level : SandboxLevel
  protectedPaths : List JsString
  deny : Option (List JsString) := none

/-- A port is a number; one that is no integer is `none`. -/
structure RuntimePolicy where
  reach : Option SandboxReach := none
  executable : JsString
  workspace : JsString
  readFiles : List JsString
  metadataPaths : Option (List JsString) := none
  runtimeDirectories : List JsString
  readDirectories : Option (List JsString) := none
  writeDirectories : Option (List JsString) := none
  networkPorts : Option (List (Option Nat)) := none
  systemTrust : Option Bool := none

inductive SandboxError where
  | unsupportedPath
  | invalidPort
  | ownerNeedsProtected
  deriving DecidableEq

/-! ## Pieces of the text -/

/-- `/[\0\r\n\\"]/` -/
def isForbidden (u : CodeUnit) : Bool :=
  u == 0 || u == 0x0D || u == 0x0A || u == unit '\\' || u == unit '"'

/-- `isAbsolute(path)` -/
def isAbsolute (path : JsString) : Bool := path.head? = some (unit '/')

def literal (path : JsString) : Except SandboxError JsString :=
  if !isAbsolute path || path.any isForbidden then .error .unsupportedPath
  else .ok (quote path)

/-- `(name ${text})` -/
def filterText (name text : JsString) : JsString :=
  js "(" ++ name ++ js " " ++ text ++ js ")"

/-- `(name "path")` for every path, with a space between them. -/
def filtersOf (name : JsString) (paths : List JsString) :
    Except SandboxError JsString := do
  let quoted ← paths.mapM literal
  return (js " ").intercalate (quoted.map (filterText name))

def subpaths (paths : List JsString) : Except SandboxError JsString :=
  filtersOf (js "subpath") paths

/-- The folders that lead to a path:
`/${parts.slice(0, index + 1).join('/')}` -/
def ancestorsOf (path : JsString) : List JsString :=
  let parts := ((path.splitOn (unit '/')).drop 1).dropLast
  parts.zipIdx.map fun part =>
    js "/" ++ (js "/").intercalate (parts.take (part.2 + 1))

def ancestorRule (paths : List JsString) : Except SandboxError JsString :=
  let ancestors := (paths.flatMap ancestorsOf).eraseDups
  if ancestors.isEmpty then .ok []
  else do
    let filters ← filtersOf (js "literal") ancestors
    return js "(deny file-write* " ++ filters ++ js ")"

/-- `(remote tcp "localhost:${port}")` -/
def remotePort (port : Option Nat) : Except SandboxError JsString :=
  match port with
  | some port =>
      if port < 1024 || 65535 < port then .error .invalidPort
      else .ok (js "(remote tcp \"localhost:" ++ decimal port ++ js "\")")
  | none => .error .invalidPort

/-- The denied paths of a policy, each once. -/
def deniedBy (mandatory : List JsString) (policy : RuntimePolicy) :
    List JsString :=
  ((policy.reach.bind SandboxReach.deny).getD [] ++ mandatory).eraseDups

/-! ## The isolated level -/

/-- The lines about the folders that lead to denied paths, and about these
paths themselves. -/
def deniedLines (deny : List JsString) : Except SandboxError JsString :=
  if deny.isEmpty then .ok []
  else do
    let ancestors ← ancestorRule deny
    let denied ← subpaths deny
    return ancestors ++
      (js "\n(deny file-read* file-write* " ++ denied ++ js ")")

/-- The text, around the texts of its paths. -/
def isolatedText (systemTrust : Bool)
    (executable readFiles runtime reads writes network workspace denied :
      JsString) : JsString :=
  js "(version 1)\n" ++
    js "(deny default)\n" ++
    (js "(allow process-exec " ++ filterText (js "literal") executable ++
      js ")\n") ++
    js "(allow signal (target self))\n" ++
    js "(allow sysctl-read)\n" ++
    (js "(allow mach-lookup " ++
      (js "(global-name \"com.apple.system.logger\")" ++
        if systemTrust then
          js " (global-name \"com.apple.trustd.agent\")" else []) ++
      js ")\n") ++
    js "(allow file-read-metadata)\n" ++
    (js "(allow file-map-executable " ++
      (filterText (js "literal") executable ++
        js " (subpath \"/System/Library\") (subpath \"/usr/lib\") " ++
        runtime) ++
      js ")\n") ++
    (js "(allow file-read* " ++
      (js "(literal \"/\") (literal \"/dev/null\") (literal \"/dev/urandom\") " ++
        filterText (js "literal") executable ++
        js " (subpath \"/System/Library\") (subpath \"/usr/lib\") " ++
        readFiles ++ js " " ++ reads ++ js " " ++ runtime) ++
      js ")\n") ++
    js "(allow file-write* (literal \"/dev/null\"))\n" ++
    (js "(allow file-read* file-write* " ++
      (filterText (js "subpath") workspace ++ js " " ++ writes) ++
      js ")\n") ++
    ((if network.isEmpty then [] else
      js "(allow network-outbound " ++ network ++ js ")") ++ js "\n") ++
    (denied ++ js "\n")

def isolatedPolicy (mandatory : List JsString) (policy : RuntimePolicy)
    (executable : JsString) : Except SandboxError JsString := do
  let readFiles ← filtersOf (js "literal") policy.readFiles
  let runtime ← subpaths policy.runtimeDirectories
  let reads ← subpaths (policy.readDirectories.getD [])
  let writes ← subpaths (policy.writeDirectories.getD [])
  let ports ← (policy.networkPorts.getD []).mapM remotePort
  let workspace ← literal policy.workspace
  let denied ← deniedLines (deniedBy mandatory policy)
  return isolatedText (policy.systemTrust.getD false) executable readFiles
    runtime reads writes ((js " ").intercalate ports) workspace denied

/-! ## The owner level -/

/-- `(remote unix-socket (subpath "path"))` for every path. -/
def sockets (paths : List JsString) : Except SandboxError JsString := do
  let quoted ← paths.mapM literal
  return (js " ").intercalate (quoted.map fun text =>
    js "(remote unix-socket " ++ filterText (js "subpath") text ++ js ")")

/-- The line about the denied paths. -/
def ownerDenied (deny : List JsString) : Except SandboxError JsString :=
  if deny.isEmpty then .ok []
  else do
    let denied ← subpaths deny
    return js "(deny file-read* file-write* " ++ denied ++ js ")"

/-- The text, around the texts of its paths. -/
def ownerText (protectedFilters writes files reads metadata ancestors
    closedSockets denied : JsString) : JsString :=
  js "(version 1)\n" ++
    js "(allow default)\n" ++
    (js "(deny file-read* file-write* " ++ protectedFilters ++ js ")\n") ++
    (js "(allow file-read* file-write* " ++ writes ++ js ")\n") ++
    (js "(allow file-read* file-map-executable " ++
      (files ++ js " " ++ reads) ++ js ")\n") ++
    (if metadata.isEmpty then [] else
      js "(allow file-read-metadata " ++ metadata ++ js ")\n") ++
    (ancestors ++ js "\n") ++
    (js "(deny network-outbound " ++ closedSockets ++ js ")\n") ++
    (denied ++ js "\n")

def ownerPolicy (mandatory : List JsString) (policy : RuntimePolicy)
    (executable : JsString) : Except SandboxError JsString := do
  let protectedPaths := (policy.reach.map SandboxReach.protectedPaths).getD []
  let deny := deniedBy mandatory policy
  if protectedPaths.isEmpty then .error .ownerNeedsProtected else
  let closed := protectedPaths ++ deny
  let writes ← subpaths (policy.workspace :: policy.writeDirectories.getD [])
  let reads ← subpaths
    (policy.readDirectories.getD [] ++ policy.runtimeDirectories)
  let readFiles ← policy.readFiles.mapM literal
  let files := (js " ").intercalate
    ((executable :: readFiles).map (filterText (js "literal")))
  let metadata ← filtersOf (js "literal") (policy.metadataPaths.getD [])
  let protectedFilters ← subpaths protectedPaths
  let ancestors ← ancestorRule closed
  let closedSockets ← sockets closed
  let denied ← ownerDenied deny
  return ownerText protectedFilters writes files reads metadata ancestors
    closedSockets denied

def sandboxPolicy (mandatory : List JsString) (policy : RuntimePolicy) :
    Except SandboxError JsString := do
  let executable ← literal policy.executable
  if policy.reach.map SandboxReach.level = some .owner then
    ownerPolicy mandatory policy executable
  else isolatedPolicy mandatory policy executable

/-! ## Denied paths as the owner writes them -/

/-- `/^~?\/[^/]/` -/
def startsBelow : JsString → Bool
  | a :: b :: c :: _ =>
      (a == unit '/' && b != unit '/') ||
        (a == unit '~' && b == unit '/' && c != unit '/')
  | [a, b] => a == unit '/' && b != unit '/'
  | _ => false

/-- `/[\0\r\n\\"*?[\]{}]/` -/
def isWildcard (u : CodeUnit) : Bool :=
  isForbidden u || u == unit '*' || u == unit '?' || u == unit '[' ||
    u == unit ']' || u == unit '{' || u == unit '}'

/-- `text.replace(/\/{2,}/g, '/')` -/
def collapseSlashes (text : JsString) : JsString :=
  text.foldr (fun u rest =>
    if u = unit '/' ∧ rest.head? = some (unit '/') then rest else u :: rest) []

/-- `text.replace(/\/$/, '')` -/
def dropSlash (text : JsString) : JsString :=
  if text.getLast? = some (unit '/') then text.dropLast else text

/-- One entry of the denylist; `none` throws. -/
def parseSandboxDenyPath (value : JsString) : Option JsString :=
  if 1024 < value.length || !startsBelow value || value.any isWildcard ||
      (value.splitOn (unit '/')).any
        (fun part => part = js "." || part = js "..") then none
  else some (dropSlash (collapseSlashes value))

end OpenApe.Ports.SandboxPolicy
