import OpenApe.Ports.CentralCommands

/-!
# The published map (`map-view.ts`, `jev.ts`)

`parseMapView` checks the shape of a map and returns it with its retired
parts emptied; `parseJevAvailability` returns the three fields of an
availability.  A returned map is returned again (`parseMapView_idempotent`):
a workspace is parsed on both sides of the relay.

Tag normalisation rests on the locale data of the runtime and `URL.parse` on
its URL parser; both are parameters.
-/

namespace OpenApe.Ports.MapViews

open Verified.Fallible Verified.JsText Verified.Json
open CentralValues CentralCommands

/-- What a parsed URL shows. -/
structure ParsedUrl where
  protocol : JsString
  hostname : JsString

/-- The parts of the runtime that the map's parser uses. -/
structure MapRuntime where
  normalizeTags : Unknown → Except WorkspaceError (List JsString)
  parseUrl : JsString → Option ParsedUrl

/-! ## Pieces of the shape -/

def mapError (message : String) : WorkspaceError := .error (js message)

def object (value : Unknown) : Except WorkspaceError JsonValue :=
  plainObject "Invalid map view" value

def list (value : Unknown) (maximum : Nat) :
    Except WorkspaceError (List JsonValue) :=
  match value with
  | some (.array items) =>
      if items.length ≤ maximum then .ok items
      else .error (mapError "Invalid map view list")
  | _ => .error (mapError "Invalid map view list")

def integer (value : Unknown) : Except WorkspaceError Unit :=
  throwIf (!isSafeFrom 0 value) (mapError "Invalid map view number")

/-- The result of `text(value, maximum)`. -/
def text (value : Unknown) (maximum : Nat) : Except WorkspaceError JsString :=
  match text? value with
  | some text =>
      if text.length ≤ maximum && !text.contains 0 then .ok text
      else .error (mapError "Invalid map view text")
  | none => .error (mapError "Invalid map view text")

/-- `text(value, maximum)` where the result is not used. -/
def checkText (value : Unknown) (maximum : Nat) :
    Except WorkspaceError Unit := do
  let _ ← text value maximum

/-- `names.includes(String(value))` -/
def printsAs (names : List String) (value : Unknown) : Bool :=
  names.any fun name => textOf value == js name

/-- `if (value !== undefined) check(value)` -/
def whenDefined (check : Unknown → Except WorkspaceError Unit)
    (value : Unknown) : Except WorkspaceError Unit :=
  if value.isNone then .ok () else check value

/-- `JSON.stringify(normalizeTags(value)) !== JSON.stringify(value)` -/
def tagsDiffer (runtime : MapRuntime) (value : Unknown) :
    Except WorkspaceError Bool := do
  let tags ← runtime.normalizeTags value
  return value.map stringify != some (stringify (.array (tags.map .string)))

def tags (runtime : MapRuntime) (value : Unknown) :
    Except WorkspaceError Unit := do
  let item ← object value
  throwIf (hasOtherKeys ["own", "revision"] item ||
      !isSafeFrom 0 (item.field? (js "revision")))
    (mapError "Invalid map tags")
  let differ ← tagsDiffer runtime (item.field? (js "own"))
  throwIf differ (mapError "Invalid map tags")

/-- `/^[\w-]{1,128}$/` -/
def isGrantId (text : JsString) : Bool :=
  1 ≤ text.length && text.length ≤ 128 && text.all fun u =>
    (48 ≤ u && u ≤ 57) || (65 ≤ u && u ≤ 90) || (97 ≤ u && u ≤ 122) ||
      u == unit '_' || u == unit '-'

/-- HTTPS, or the loopback address. -/
def isGrantUrl : Option ParsedUrl → Bool
  | none => false
  | some url => url.protocol == js "https:" ||
      (url.protocol == js "http:" && url.hostname == js "127.0.0.1")

def grant (runtime : MapRuntime) (item : JsonValue) :
    Except WorkspaceError Unit := do
  let grant ← object (some item)
  checkText (grant.field? (js "title")) 4096
  let url ← text (grant.field? (js "url")) 4096
  throwIf (!(text? (grant.field? (js "grantId"))).any isGrantId ||
      !isGrantUrl (runtime.parseUrl url))
    (mapError "Invalid map grant")

def grants (runtime : MapRuntime) (value : Unknown) :
    Except WorkspaceError Unit := do
  let items ← list value 64
  items.forM (grant runtime)

/-! ## The view -/

def mapPods : Nat := 100
def mapSystems : Nat := 400
def mapEdges : Nat := 4000
def mapNamespaces : Nat := 256

def checkWindow (view : JsonValue) : Except WorkspaceError Unit := do
  integer (view.field? (js "at"))
  let window ← object (view.field? (js "window"))
  integer (window.field? (js "from"))
  integer (window.field? (js "to"))

def checkDegraded (item : JsonValue) : Except WorkspaceError Unit := do
  let row ← object (some item)
  checkText (row.field? (js "podId")) 36
  checkText (row.field? (js "reason")) 4096

def checkDecision (item : JsonValue) : Except WorkspaceError Unit := do
  let row ← object (some item)
  checkText (row.field? (js "podId")) 36
  checkText (row.field? (js "title")) 300
  integer (row.field? (js "count"))
  throwIf (!printsAs ["question", "approval"] (row.field? (js "kind")))
    (mapError "Invalid map decision")

/-- The members of `kpis` before its decisions. -/
def checkCounts (kpis : JsonValue) : Except WorkspaceError Unit := do
  integer (kpis.field? (js "active"))
  integer (kpis.field? (js "paused"))
  whenDefined integer (kpis.field? (js "unknownDeliveries"))
  let degraded ← list (kpis.field? (js "degraded")) mapPods
  degraded.forM checkDegraded

def checkDecisions (kpis : JsonValue) : Except WorkspaceError Unit := do
  let decisions ← list (kpis.field? (js "decisions")) 512
  decisions.forM checkDecision

def checkSystem (item : JsonValue) : Except WorkspaceError JsString := do
  let row ← object (some item)
  let id ← text (row.field? (js "id")) 4200
  checkText (row.field? (js "name")) 4096
  checkText (row.field? (js "how")) 4096
  throwIf (!printsAs ["service", "application", "directory", "ssh"]
      (row.field? (js "kind")))
    (mapError "Invalid map system")
  return id

/-- The ids of the systems, which are distinct. -/
def checkSystems : List JsString → List JsonValue →
    Except WorkspaceError (List JsString)
  | systems, [] => .ok systems
  | systems, item :: items => do
      let id ← checkSystem item
      throwIf (systems.contains id) (mapError "Invalid map system")
      checkSystems (systems ++ [id]) items

/-- Whether a resource names a system that the map lists. -/
def checkResourceSystem (systems : List JsString) (system : Unknown) :
    Except WorkspaceError Unit :=
  if isNull system then .ok () else do
    let id ← text system 4200
    throwIf (!systems.contains id) (mapError "Invalid map resource")

def checkResource (systems : List JsString) (item : JsonValue) :
    Except WorkspaceError Unit := do
  let row ← object (some item)
  checkText (row.field? (js "name")) 4096
  checkText (row.field? (js "how")) 4096
  throwIf (!printsAs ["service", "application", "directory", "ssh", "secret",
      "reference"] (row.field? (js "kind")))
    (mapError "Invalid map resource")
  checkResourceSystem systems (row.field? (js "system"))

/-- The members of a map's Pod before its retired ones; its id. -/
def checkPodHead (runtime : MapRuntime) (systems : List JsString)
    (pod : JsonValue) : Except WorkspaceError JsString := do
  let id ← text (pod.field? (js "id")) 36
  checkText (pod.field? (js "name")) 200
  throwIf (!printsAs ["active", "paused", "archived"]
        (pod.field? (js "lifecycle")) ||
      !printsAs ["source", "decision", "effect", "code"]
        (pod.field? (js "kind")) ||
      !isBoolean (pod.field? (js "ai")))
    (mapError "Invalid map pod")
  let resources ← list (pod.field? (js "resources")) 256
  resources.forM (checkResource systems)
  let secrets ← list (pod.field? (js "secrets")) 64
  secrets.forM fun name => checkText (some name) 200
  whenDefined (tags runtime) (pod.field? (js "tags"))
  whenDefined integer (pod.field? (js "failures"))
  whenDefined (grants runtime) (pod.field? (js "grants"))
  return id

def checkPodData (value : Unknown) : Except WorkspaceError Unit := do
  let data ← object value
  let writes ← list (data.field? (js "writes")) mapNamespaces
  let reads ← list (data.field? (js "reads")) mapNamespaces
  (writes ++ reads).forM fun path => checkText (some path) 200

def checkPodWork (value : Unknown) : Except WorkspaceError Unit := do
  let work ← object value
  integer (work.field? (js "pending"))
  integer (work.field? (js "held"))

def checkPod (runtime : MapRuntime) (systems : List JsString)
    (item : JsonValue) : Except WorkspaceError JsString := do
  let pod ← object (some item)
  let id ← checkPodHead runtime systems pod
  checkPodData (pod.field? (js "data"))
  checkPodWork (pod.field? (js "work"))
  return id

/-- One end of an edge is a system or a Pod of the map. -/
def checkEnd (nodes : List JsString) (value : Unknown) :
    Except WorkspaceError Unit := do
  let id ← text value 4200
  throwIf (!nodes.contains id) (mapError "Invalid map edge")

def checkEdge (nodes : List JsString) (item : JsonValue) :
    Except WorkspaceError Unit := do
  let edge ← object (some item)
  integer (edge.field? (js "flow"))
  throwIf (!printsAs ["read", "write", "data"] (edge.field? (js "type")))
    (mapError "Invalid map edge")
  checkEnd nodes (edge.field? (js "from"))
  checkEnd nodes (edge.field? (js "to"))

/-- Everything `parseMapView` checks, in the order of the source. -/
def checkMap (runtime : MapRuntime) (view : JsonValue) :
    Except WorkspaceError Unit := do
  throwIf (hasOtherKeys ["at", "window", "kpis", "systems", "pods", "edges"]
      view)
    (mapError "Invalid map view fields")
  checkWindow view
  let kpis ← object (view.field? (js "kpis"))
  checkCounts kpis
  checkDecisions kpis
  let systemItems ← list (view.field? (js "systems")) mapSystems
  let systems ← checkSystems [] systemItems
  let podItems ← list (view.field? (js "pods")) mapPods
  let podIds ← podItems.mapM (checkPod runtime systems)
  let edgeItems ← list (view.field? (js "edges")) mapEdges
  edgeItems.forM (checkEdge (systems ++ podIds))

/-- `{ reads: [], writes: [] }` -/
def noData : JsonValue :=
  .object [(js "reads", .array []), (js "writes", .array [])]

def zero : JsonValue := .number ⟨js "0", by decide, by decide⟩

/-- `{ pending: 0, held: 0 }` -/
def noWork : JsonValue :=
  .object [(js "pending", zero), (js "held", zero)]

def currentPod (pod : JsonValue) : JsonValue :=
  (pod.mapMember (js "data") fun _ => noData).mapMember (js "work") fun _ =>
    noWork

/-- `item[key] !== text` -/
def isOther (key text : String) (item : JsonValue) : Bool :=
  !isText (item.field? (js key)) (js text)

/-- The rewritten copy that `parseMapView` returns. -/
def currentView (view : JsonValue) : JsonValue :=
  ((view.mapMember (js "pods") (JsonValue.mapItems currentPod)).mapMember
    (js "edges") (JsonValue.filterItems (isOther "type" "data"))).mapMember
    (js "kpis") (JsonValue.mapMember (js "decisions")
      (JsonValue.filterItems (isOther "kind" "question")))

def parseMapView (runtime : MapRuntime) (value : Unknown) :
    Except WorkspaceError JsonValue := do
  let view ← object value
  checkMap runtime view
  return currentView view

/-! ## Availability of Jev -/

def jevStates : List String :=
  ["ready", "expired", "revoked", "failed", "connecting"]

/-- The condition of 'Invalid TypeSafe availability'. -/
def badJev (id state verifiedAt : Unknown) : Bool :=
  !(text? id).any isLooseId || !printsAs jevStates state ||
    (!isNull verifiedAt && !isSafeFrom 0 verifiedAt)

def jevObject (id state verifiedAt : JsonValue) : JsonValue :=
  .object [(js "id", id), (js "state", state), (js "verifiedAt", verifiedAt)]

/-- The fields of an availability, which pass their check. -/
def jevFields (item : JsonValue) : Except WorkspaceError JsonValue := do
  let id := item.field? (js "id")
  let state := item.field? (js "state")
  let verifiedAt := item.field? (js "verifiedAt")
  throwIf (badJev id state verifiedAt)
    (.error (js "Invalid TypeSafe availability"))
  return jevObject (id.getD .null) (.string (textOf state))
    (verifiedAt.getD .null)

def parseJevAvailability (value : Unknown) :
    Except WorkspaceError JsonValue :=
  if isNull value then .ok .null else do
    let item ← plainObject "Invalid Jev object" value
    throwIf (hasOtherKeys ["id", "state", "verifiedAt"] item)
      (.error (js "Unsupported Jev field"))
    jevFields item

/-! ## Parsing again -/

theorem list_mapItems {value : Unknown} {n : Nat} {items : List JsonValue}
    (h : list value n = .ok items) (f : JsonValue → JsonValue) :
    list (value.map (JsonValue.mapItems f)) n = .ok (items.map f) := by
  unfold list at h
  split at h
  · rename_i found
    split_ifs at h with hLength
    cases h
    change (if (items.map f).length ≤ n then _ else _) = _
    rw [List.length_map, if_pos hLength]
  · cases h

theorem list_filterItems {value : Unknown} {n : Nat} {items : List JsonValue}
    (h : list value n = .ok items) (p : JsonValue → Bool) :
    list (value.map (JsonValue.filterItems p)) n = .ok (items.filter p) := by
  unfold list at h
  split at h
  · rename_i found
    split_ifs at h with hLength
    cases h
    exact if_pos ((List.length_filter_le p items).trans hLength)
  · cases h

theorem object_mapMember {value : Unknown} {o : JsonValue}
    (h : object value = .ok o) (key : JsString) (f : JsonValue → JsonValue) :
    object (value.map (JsonValue.mapMember key f)) =
      .ok (o.mapMember key f) := by
  obtain ⟨rfl, members, rfl⟩ := plainObject_eq_ok.mp h
  rfl

theorem objectKeys_mapMember (key : JsString) (f : JsonValue → JsonValue)
    (value : JsonValue) :
    objectKeys (value.mapMember key f) = objectKeys value := by
  cases value with
  | object members => exact JsonValue.keys_mapMember key f members
  | _ => rfl

/-- The retired members of a Pod are all that changes. -/
theorem field?_currentPod {key : JsString} (hData : key ≠ js "data")
    (hWork : key ≠ js "work") (pod : JsonValue) :
    (currentPod pod).field? key = pod.field? key := by
  rw [currentPod, JsonValue.field?_mapMember_ne hWork,
    JsonValue.field?_mapMember_ne hData]

theorem checkPodHead_currentPod (runtime : MapRuntime)
    (systems : List JsString) (pod : JsonValue) :
    checkPodHead runtime systems (currentPod pod) =
      checkPodHead runtime systems pod := by
  simp (disch := decide) only [checkPodHead, field?_currentPod]

theorem checkPod_currentPod {runtime : MapRuntime} {systems : List JsString}
    {pod : JsonValue} {id : JsString}
    (h : checkPod runtime systems pod = .ok id) :
    checkPod runtime systems (currentPod pod) = .ok id := by
  simp only [checkPod, bind_eq_ok, pure, Except.pure] at h ⊢
  obtain ⟨pod', hPod, id', hHead, _, hData, _, hWork, hId⟩ := h
  obtain ⟨hEq, members, rfl⟩ := plainObject_eq_ok.mp hPod
  cases hEq
  have hDataField : (currentPod (.object members)).field? (js "data") =
      some noData := by
    rw [currentPod, JsonValue.field?_mapMember_ne (by decide),
      JsonValue.field?_mapMember_self]
    cases hField : (JsonValue.object members).field? (js "data") with
    | none => rw [hField] at hData; cases hData
    | some data => rfl
  have hWorkField : (currentPod (.object members)).field? (js "work") =
      some noWork := by
    rw [currentPod, JsonValue.field?_mapMember_self,
      JsonValue.field?_mapMember_ne (by decide)]
    cases hField : (JsonValue.object members).field? (js "work") with
    | none => rw [hField] at hWork; cases hWork
    | some work => rfl
  refine ⟨currentPod (.object members), rfl, id', ?_, (), ?_, (), ?_, hId⟩
  · rw [checkPodHead_currentPod]
    exact hHead
  · rw [hDataField]
    rfl
  · rw [hWorkField]
    decide

theorem mapM_checkPod_currentPod {runtime : MapRuntime}
    {systems : List JsString} {pods : List JsonValue} {ids : List JsString}
    (h : pods.mapM (checkPod runtime systems) = .ok ids) :
    (pods.map currentPod).mapM (checkPod runtime systems) = .ok ids := by
  rw [mapM_eq_ok] at h ⊢
  rw [List.forall₂_map_left_iff]
  exact h.imp (fun _ _ => checkPod_currentPod)

/-- Only Pods, edges and the decisions of the figures change. -/
theorem field?_currentView {key : JsString} (hPods : key ≠ js "pods")
    (hEdges : key ≠ js "edges") (hKpis : key ≠ js "kpis") (view : JsonValue) :
    (currentView view).field? key = view.field? key := by
  rw [currentView, JsonValue.field?_mapMember_ne hKpis,
    JsonValue.field?_mapMember_ne hEdges, JsonValue.field?_mapMember_ne hPods]

theorem field?_currentView_pods (view : JsonValue) :
    (currentView view).field? (js "pods") =
      (view.field? (js "pods")).map (JsonValue.mapItems currentPod) := by
  rw [currentView, JsonValue.field?_mapMember_ne (by decide),
    JsonValue.field?_mapMember_ne (by decide), JsonValue.field?_mapMember_self]

theorem field?_currentView_edges (view : JsonValue) :
    (currentView view).field? (js "edges") =
      (view.field? (js "edges")).map
        (JsonValue.filterItems (isOther "type" "data")) := by
  rw [currentView, JsonValue.field?_mapMember_ne (by decide),
    JsonValue.field?_mapMember_self, JsonValue.field?_mapMember_ne (by decide)]

theorem field?_currentView_kpis (view : JsonValue) :
    (currentView view).field? (js "kpis") =
      (view.field? (js "kpis")).map (JsonValue.mapMember (js "decisions")
        (JsonValue.filterItems (isOther "kind" "question"))) := by
  rw [currentView, JsonValue.field?_mapMember_self,
    JsonValue.field?_mapMember_ne (by decide),
    JsonValue.field?_mapMember_ne (by decide)]

theorem checkCounts_mapMember (kpis : JsonValue)
    (f : JsonValue → JsonValue) :
    checkCounts (kpis.mapMember (js "decisions") f) = checkCounts kpis := by
  simp (disch := decide) only [checkCounts, JsonValue.field?_mapMember_ne]

theorem checkDecisions_filter {kpis : JsonValue} (p : JsonValue → Bool)
    (h : checkDecisions kpis = .ok ()) :
    checkDecisions (kpis.mapMember (js "decisions")
      (JsonValue.filterItems p)) = .ok () := by
  rw [checkDecisions, bind_eq_ok] at h ⊢
  obtain ⟨decisions, hList, hAll⟩ := h
  rw [JsonValue.field?_mapMember_self]
  refine ⟨_, list_filterItems hList p, ?_⟩
  rw [forM_eq_ok] at hAll ⊢
  exact fun item hItem => hAll item (List.mem_filter.mp hItem).1

/-- What passed the checks passes them without its retired parts. -/
theorem checkMap_currentView {runtime : MapRuntime} {view : JsonValue}
    (h : checkMap runtime view = .ok ()) :
    checkMap runtime (currentView view) = .ok () := by
  simp only [checkMap, bind_eq_ok, throwIf_eq_ok] at h ⊢
  obtain ⟨_, hKeys, _, hWindow, kpis, hKpis, _, hCounts, _, hDecisions,
    systemItems, hSystemList, systems, hSystems, podItems, hPodList, podIds,
    hPods, edgeItems, hEdgeList, hEdges⟩ := h
  refine ⟨(), ?_, (), ?_, kpis.mapMember (js "decisions")
      (JsonValue.filterItems (isOther "kind" "question")), ?_, (), ?_, (), ?_,
    systemItems, ?_, systems, hSystems, podItems.map currentPod, ?_, podIds,
    mapM_checkPod_currentPod hPods,
    edgeItems.filter (isOther "type" "data"), ?_, ?_⟩
  · have hSame : objectKeys (currentView view) = objectKeys view := by
      simp only [currentView, objectKeys_mapMember]
    rw [hasOtherKeys, hSame]
    exact hKeys
  · simp (disch := decide) only [checkWindow, field?_currentView] at hWindow ⊢
    exact hWindow
  · rw [field?_currentView_kpis]
    exact object_mapMember hKpis _ _
  · rw [checkCounts_mapMember]
    exact hCounts
  · exact checkDecisions_filter _ hDecisions
  · rw [field?_currentView (by decide) (by decide) (by decide)]
    exact hSystemList
  · rw [field?_currentView_pods]
    exact list_mapItems hPodList _
  · rw [field?_currentView_edges]
    exact list_filterItems hEdgeList _
  · rw [forM_eq_ok] at hEdges ⊢
    exact fun edge hEdge => hEdges edge (List.mem_filter.mp hEdge).1

theorem currentPod_currentPod (pod : JsonValue) :
    currentPod (currentPod pod) = currentPod pod := by
  have hNe : js "work" ≠ js "data" := by decide
  rw [currentPod, currentPod, JsonValue.mapMember_comm hNe,
    JsonValue.mapMember_idem (f := fun _ => noWork) (fun _ => rfl),
    JsonValue.mapMember_idem (f := fun _ => noData) (fun _ => rfl)]

theorem mapItems_currentPod (value : JsonValue) :
    (value.mapItems currentPod).mapItems currentPod =
      value.mapItems currentPod := by
  cases value with
  | array items =>
      simp only [JsonValue.mapItems, List.map_map]
      congr 2
      exact funext currentPod_currentPod
  | _ => rfl

theorem filterItems_filterItems (p : JsonValue → Bool) (value : JsonValue) :
    (value.filterItems p).filterItems p = value.filterItems p := by
  cases value with
  | array items => simp [JsonValue.filterItems, List.filter_filter]
  | _ => rfl

/-- Rewriting a map twice rewrites it once. -/
theorem currentView_currentView (view : JsonValue) :
    currentView (currentView view) = currentView view := by
  have hKpisPods : js "kpis" ≠ js "pods" := by decide
  have hEdgesPods : js "edges" ≠ js "pods" := by decide
  have hKpisEdges : js "kpis" ≠ js "edges" := by decide
  have hKpis : ∀ kpis : JsonValue, _ :=
    JsonValue.mapMember_idem (filterItems_filterItems
      (isOther "kind" "question")) (js "decisions")
  simp only [currentView]
  rw [JsonValue.mapMember_comm hKpisPods, JsonValue.mapMember_comm hEdgesPods,
    JsonValue.mapMember_idem mapItems_currentPod,
    JsonValue.mapMember_comm hKpisEdges,
    JsonValue.mapMember_idem (filterItems_filterItems _),
    JsonValue.mapMember_idem hKpis]

/-- **A returned map is accepted and returned again.** -/
theorem parseMapView_idempotent {runtime : MapRuntime} {value : Unknown}
    {view : JsonValue} (h : parseMapView runtime value = .ok view) :
    parseMapView runtime (some view) = .ok view := by
  simp only [parseMapView, bind_eq_ok, pure, Except.pure,
    Except.ok.injEq] at h ⊢
  obtain ⟨view', hObject, _, hCheck, rfl⟩ := h
  obtain ⟨-, members, rfl⟩ := plainObject_eq_ok.mp hObject
  exact ⟨currentView (.object members), rfl, (), checkMap_currentView hCheck,
    currentView_currentView _⟩

/-- A map without anything on it. -/
def emptyView : JsonValue :=
  .object [(js "at", zero),
    (js "window", .object [(js "from", zero), (js "to", zero)]),
    (js "kpis", .object [(js "active", zero), (js "paused", zero),
      (js "degraded", .array []), (js "decisions", .array [])]),
    (js "systems", .array []), (js "pods", .array []),
    (js "edges", .array [])]

theorem parseMapView_idempotent_empty :
    parseMapView ⟨fun _ => .ok [], fun _ => none⟩
      (some (currentView emptyView)) = .ok (currentView emptyView) :=
  parseMapView_idempotent (show parseMapView _ (some emptyView) = _ from rfl)

end OpenApe.Ports.MapViews
