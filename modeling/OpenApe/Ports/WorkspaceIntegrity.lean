import OpenApe.Ports.WorkspaceContent
import OpenApe.Ports.WorkspaceReads

/-!
# Every read finds its part

What `validateManifest` has accepted is complete: the parts that
`inventory`, `read` and `view` ask for are stored.  `Finds` says of a
computation that it does not fail for a missing part.
-/

namespace OpenApe.Ports.WorkspaceIntegrity

open Verified.Fallible Verified.JsText Verified.Json Verified.KeyedTable
  Verified.Machine
open CentralValues CentralCommands CentralParts CentralSnapshots PartKeys
  WorkspaceStore WorkspaceReads WorkspaceRuns WorkspaceContent

/-! ## Computations that miss no part -/

variable {α β : Type}

def Finds (x : Except WorkspaceError α) : Prop := x ≠ .error missingPart

theorem finds_ok (a : α) : Finds (.ok a : Except WorkspaceError α) :=
  fun h => nomatch h

theorem Finds.of_eq_ok {x : Except WorkspaceError α} {a : α}
    (h : x = .ok a) : Finds x := h ▸ finds_ok a

theorem finds_bind {x : Except WorkspaceError α}
    {f : α → Except WorkspaceError β} (hx : Finds x)
    (hf : ∀ a, x = .ok a → Finds (f a)) : Finds (x >>= f) := by
  cases hResult : x with
  | error e =>
      rw [hResult] at hx
      intro h
      exact hx (by rw [Except.error.inj h])
  | ok a => exact hf a hResult

theorem finds_mapM {f : α → Except WorkspaceError β} {as : List α}
    (h : ∀ a ∈ as, Finds (f a)) : Finds (as.mapM f) := by
  induction as with
  | nil => exact finds_ok []
  | cons a as ih =>
      rw [mapM_cons]
      refine finds_bind (h a List.mem_cons_self) fun b _ => ?_
      refine finds_bind (ih fun a' hMem => h a' (List.mem_cons_of_mem a hMem))
        fun bs _ => ?_
      exact finds_ok (b :: bs)

theorem finds_forM {f : α → Except WorkspaceError Unit} {as : List α}
    (h : ∀ a ∈ as, Finds (f a)) : Finds (as.forM f) := by
  change Finds (forM as f)
  induction as with
  | nil => exact finds_ok ()
  | cons a as ih =>
      rw [List.forM_cons]
      exact finds_bind (h a List.mem_cons_self) fun _ _ =>
        ih fun a' hMem => h a' (List.mem_cons_of_mem a hMem)

theorem finds_property (value : Unknown) (key : String) :
    Finds (property value key) := by
  unfold property
  split
  · exact (nomatch ·)
  · exact (nomatch ·)
  · exact finds_ok _

theorem finds_arrayItems (value : Unknown) : Finds (arrayItems value) := by
  unfold arrayItems
  split
  · exact finds_ok _
  · exact (nomatch ·)

theorem finds_protocol (condition : Bool) (code : JsString) (status : Nat) :
    Finds (throwIf condition (.protocol code status)) := by
  unfold throwIf
  split
  · exact (nomatch ·)
  · exact finds_ok ()

theorem finds_centralId (value : Unknown) : Finds (centralId value) := by
  have hOther : (.error (js "Invalid workspace identity") : WorkspaceError) ≠
      missingPart := by decide
  unfold centralId
  split
  · split_ifs
    · exact finds_ok _
    · exact fun h => hOther (Except.error.inj h)
  · exact fun h => hOther (Except.error.inj h)

theorem finds_parsePartKey (key : JsString) : Finds (parsePartKey key) := by
  have hOther : (.error (js "Invalid workspace part key") : WorkspaceError) ≠
      missingPart := by decide
  unfold parsePartKey
  split
  · exact finds_ok _
  · exact fun h => hOther (Except.error.inj h)

theorem finds_row (db : Db) (owner : Owner) (id : JsString) :
    Finds (row db owner id) := by
  refine finds_bind (finds_centralId _) fun id' _ => ?_
  split
  · split_ifs
    · exact finds_ok _
    · exact (nomatch ·)
  · exact (nomatch ·)

/-! ## What an accepted manifest has -/

theorem reader_of_mem {db : Db} {runtimeId key : JsString}
    (h : key ∈ partKeys db runtimeId) :
    ∃ part ∈ db.parts.rows, part.key = key ∧
      reader db runtimeId key = .ok part.value := by
  obtain ⟨part, hPart, rfl⟩ := List.mem_map.mp h
  obtain ⟨hMem, hRuntime⟩ := List.mem_filter.mp hPart
  have hFind := Table.find?_of_mem hMem
  rw [of_decide_eq_true hRuntime] at hFind
  exact ⟨part, hMem, rfl, by rw [reader, hFind]⟩

theorem finds_reader {db : Db} {runtimeId key : JsString}
    (h : key ∈ partKeys db runtimeId) : Finds (reader db runtimeId key) := by
  obtain ⟨part, -, -, hRead⟩ := reader_of_mem h
  exact .of_eq_ok hRead

/-- A Pod's part with the run ids it lists. -/
structure ListsRuns (read : Reader) (podId : JsString)
    (items : List JsonValue) : Prop where
  view : ∃ part view runIds, read (podKey podId) = .ok part ∧
    property (some part) "runs" = .ok view ∧
    property view "runIds" = .ok runIds ∧ iterate runIds = .ok items

theorem ListsRuns.items_eq {read : Reader} {podId : JsString}
    {items ids : List JsonValue} (h : ListsRuns read podId items)
    {part : JsonValue} {view runIds : Unknown}
    (hPart : read (podKey podId) = .ok part)
    (hView : property (some part) "runs" = .ok view)
    (hRunIds : property view "runIds" = .ok runIds)
    (hIds : arrayItems runIds = .ok ids) : items = ids := by
  obtain ⟨part', view', runIds', hPart', hView', hRunIds', hItems⟩ := h.view
  obtain rfl := Except.ok.inj (hPart'.symm.trans hPart)
  obtain rfl := Except.ok.inj (hView'.symm.trans hView)
  obtain rfl := Except.ok.inj (hRunIds'.symm.trans hRunIds)
  rw [arrayItems_eq_ok.mp hIds] at hItems
  exact (Except.ok.inj hItems).symm

/-- What `validateManifest` asks of the parts, read off once. -/
structure Complete (keys : List JsString) (read : Reader) (workspace : JsonValue)
    (ids : List Unknown) : Prop where
  workspaceKey : js "workspace" ∈ keys
  workspacePart : read (js "workspace") = .ok workspace
  podIds : workspacePodIds (some workspace) = .ok ids
  pods : ∀ id ∈ ids, podKey (textOf id) ∈ keys ∧
    ∃ items, ListsRuns read (textOf id) items ∧ ∀ item ∈ items,
      subKey (textOf id) .run (toText item) ∈ keys ∧
        subKey (textOf id) .events (toText item) ∈ keys

theorem complete_of_validateManifest {keys : List JsString} {read : Reader}
    (h : validateManifest keys read = .ok ()) :
    ∃ workspace ids, Complete keys read workspace ids := by
  simp only [validateManifest, bind_eq_ok, throwIf_eq_ok,
    Bool.or_eq_false_iff, Bool.not_eq_false', List.contains_iff_mem] at h
  obtain ⟨_, ⟨hWorkspace, -⟩, workspace, hRead, ids, hIds, _, -, _, hPods,
    -⟩ := h
  refine ⟨workspace, ids, hWorkspace, hRead, hIds, fun id hId => ?_⟩
  have hPod := forM_eq_ok.mp hPods id hId
  simp only [checkPodParts, bind_eq_ok, throwIf_eq_ok, Bool.not_eq_false',
    List.contains_iff_mem] at hPod
  obtain ⟨_, hKey, part, hPart, view, hView, runIds, hRunIds, items, hItems,
    hRuns⟩ := hPod
  refine ⟨hKey, items, ⟨part, view, runIds, hPart, hView, hRunIds, hItems⟩,
    fun item hItem => ?_⟩
  have hRun := forM_eq_ok.mp hRuns item hItem
  simp only [checkRunParts, throwIf_eq_ok, Bool.or_eq_false_iff,
    Bool.not_eq_false', List.contains_iff_mem] at hRun
  exact hRun

/-- A runtime with data and the workspace that it publishes. -/
theorem complete_of_hasData {runtime : PartsRuntime} {db : Db}
    (h : Content runtime db) {found : RuntimeRow}
    (hFound : found ∈ db.runtimes.rows) (hData : hasData found = true) :
    ∃ workspace ids,
      Complete (partKeys db found.id) (reader db found.id) workspace ids :=
  complete_of_validateManifest (h.committed found hFound hData).2

/-- A Pod that the workspace lists is among its ids. -/
theorem Complete.listed {keys : List JsString} {read : Reader}
    {workspace : JsonValue} {ids : List Unknown}
    (h : Complete keys read workspace ids) {pods : Unknown}
    {items : List JsonValue}
    (hPods : property (some workspace) "pods" = .ok pods)
    (hItems : arrayItems pods = .ok items) {pod : JsonValue}
    (hPod : pod ∈ items) {id : Unknown}
    (hId : property (some pod) "id" = .ok id) : id ∈ ids := by
  have hIds := h.podIds
  simp only [workspacePodIds, bind_eq_ok] at hIds
  obtain ⟨pods', hPods', items', hItems', hMap⟩ := hIds
  rw [hPods] at hPods'
  cases hPods'
  rw [hItems] at hItems'
  cases hItems'
  have hAll := mapM_eq_ok.mp hMap
  clear hMap hItems h
  induction hAll with
  | nil => cases hPod
  | cons hFirst _ ih =>
      rcases List.mem_cons.mp hPod with rfl | hRest
      · rw [hId] at hFirst
        rw [Except.ok.inj hFirst]
        exact List.mem_cons_self
      · exact List.mem_cons_of_mem _ (ih hRest)

/-! ## `ready` -/

theorem somePod_eq_true {podId : Unknown} {pods : List JsonValue}
    (h : somePod podId pods = .ok true) :
    ∃ pod ∈ pods, ∃ id, property (some pod) "id" = .ok id ∧
      strictEq id podId = true := by
  induction pods with
  | nil => cases h
  | cons pod pods ih =>
      obtain ⟨id, hId, h⟩ := bind_eq_ok.mp h
      split_ifs at h with hSame
      · exact ⟨pod, List.mem_cons_self, id, hId, hSame⟩
      · obtain ⟨pod', hMem, hRest⟩ := ih h
        exact ⟨pod', List.mem_cons_of_mem _ hMem, hRest⟩

theorem finds_somePod (podId : Unknown) (pods : List JsonValue) :
    Finds (somePod podId pods) := by
  induction pods with
  | nil => exact finds_ok false
  | cons pod pods ih =>
      refine finds_bind (finds_property _ _) fun id _ => ?_
      split_ifs
      · exact finds_ok true
      · exact ih

/-- A Pod that is found is listed, so it has its part. -/
theorem Complete.found {keys : List JsString} {read : Reader}
    {workspace : JsonValue} {ids : List Unknown}
    (h : Complete keys read workspace ids) {pods : Unknown}
    {items : List JsonValue}
    (hPods : property (some workspace) "pods" = .ok pods)
    (hItems : arrayItems pods = .ok items) {podId : Unknown}
    (hFound : somePod podId items = .ok true) :
    ∃ id ∈ ids, textOf id = textOf podId := by
  obtain ⟨pod, hPod, id, hId, hSame⟩ := somePod_eq_true hFound
  exact ⟨id, h.listed hPods hItems hPod hId, textOf_eq_of_strictEq hSame⟩

theorem finds_readyPod {db : Db} {runtimeId : JsString}
    {workspace : JsonValue} {ids : List Unknown}
    (h : Complete (partKeys db runtimeId) (reader db runtimeId) workspace ids)
    (podId : Unknown) : Finds (readyPod db runtimeId workspace podId) := by
  refine finds_bind (finds_property _ _) fun pods hPods => ?_
  refine finds_bind (finds_arrayItems _) fun items hItems => ?_
  refine finds_bind (finds_somePod _ _) fun found hFound => ?_
  refine finds_bind (finds_protocol _ _ _) fun _ hThrow => ?_
  rw [throwIf_eq_ok, Bool.not_eq_false'] at hThrow
  rw [hThrow] at hFound
  obtain ⟨id, hId, hText⟩ := h.found hPods hItems hFound
  refine finds_bind (finds_reader (hText ▸ (h.pods id hId).1)) fun view _ => ?_
  exact finds_bind (finds_property _ _) fun _ _ => finds_protocol _ _ _

theorem finds_ready {runtime : PartsRuntime} {db : Db}
    (h : Content runtime db) (owner : Owner) (id : JsString)
    (podIds : List Unknown) (now : Int) :
    Finds (ready db owner id podIds now) := by
  refine finds_bind (finds_row _ _ _) fun found hRow => ?_
  refine finds_bind (finds_protocol _ _ _) fun _ hThrow => ?_
  simp only [throwIf_eq_ok, Bool.or_eq_false_iff, Bool.not_eq_false'] at hThrow
  obtain ⟨-, hFound, -⟩ := row_eq_ok.mp hRow
  obtain ⟨workspace, ids, hComplete⟩ :=
    complete_of_hasData h (Table.mem_of_find? hFound) hThrow.2
  refine finds_bind (.of_eq_ok hComplete.workspacePart) fun read hRead => ?_
  obtain rfl : workspace = read :=
    Except.ok.inj (hComplete.workspacePart.symm.trans hRead)
  exact finds_bind
    (finds_forM fun podId _ => finds_readyPod hComplete podId)
    fun _ _ => finds_ok found

/-- What `ready` has checked. -/
theorem ready_eq_ok {runtime : PartsRuntime} {db : Db}
    (h : Content runtime db) {owner : Owner} {id : JsString}
    {podIds : List Unknown} {now : Int} {found : RuntimeRow}
    (hReady : ready db owner id podIds now = .ok found) :
    ∃ workspace ids,
      Complete (partKeys db found.id) (reader db found.id) workspace ids ∧
        ∀ podId ∈ podIds, ∃ id ∈ ids, textOf id = textOf podId := by
  simp only [ready, bind_eq_ok, throwIf_eq_ok, Bool.or_eq_false_iff,
    Bool.not_eq_false', pure, Except.pure, Except.ok.injEq] at hReady
  obtain ⟨_, hRow, _, ⟨-, hData⟩, workspace, hRead, _, hPods, rfl⟩ := hReady
  obtain ⟨-, hFound, -⟩ := row_eq_ok.mp hRow
  obtain ⟨workspace', ids, hComplete⟩ :=
    complete_of_hasData h (Table.mem_of_find? hFound) hData
  obtain rfl : workspace' = workspace :=
    Except.ok.inj (hComplete.workspacePart.symm.trans hRead)
  refine ⟨workspace', ids, hComplete, fun podId hPodId => ?_⟩
  have hPod := forM_eq_ok.mp hPods podId hPodId
  simp only [readyPod, bind_eq_ok, throwIf_eq_ok, Bool.not_eq_false'] at hPod
  obtain ⟨pods, hList, items, hItems, _, hSome, _, rfl, -⟩ := hPod
  exact hComplete.found hList hItems hSome

/-! ## Stored values have passed their validator -/

/-- A stored part of no table, as its validator accepted it. -/
theorem reader_valid {runtime : PartsRuntime} {db : Db}
    (h : Content runtime db) {runtimeId key : JsString} {part : PartKey}
    (hKey : parsePartKey key = .ok part) (hTable : part.table = none)
    {value : JsonValue} (hRead : reader db runtimeId key = .ok value) :
    validatePart runtime key value = .ok () := by
  unfold reader at hRead
  cases hFind : db.parts.find? (runtimeId, key) with
  | none =>
      rw [hFind] at hRead
      cases hRead
  | some row =>
      rw [hFind] at hRead
      cases hRead
      have hRowKey : row.key = key :=
        congrArg Prod.snd (Table.key_of_find? hFind)
      obtain ⟨part', hPart', hSound⟩ := h.parts row (Table.mem_of_find? hFind)
      rw [hRowKey] at hPart' hSound
      obtain rfl := Except.ok.inj (hPart'.symm.trans hKey)
      exact (hSound hTable).2

/-- The map of a workspace part has been parsed before. -/
theorem currentMap_eq_ok {runtime : PartsRuntime} {value : JsonValue}
    (h : validatePart runtime (js "workspace") value = .ok ()) :
    ∃ map, currentMap runtime.toMapRuntime (value.field? (js "map")) =
      .ok map := by
  have hNe : js "map" ≠ js "jev" := by decide
  simp only [validatePart, validateWorkspace, parseWorkspace, bind_eq_ok,
    if_true] at h
  obtain ⟨_, -, _, ⟨_, -, first, hFirst, second, hSecond, -⟩, -⟩ := h
  have hMap : first.field? (js "map") = value.field? (js "map") := by
    unfold reparse at hFirst
    split at hFirst
    · rw [Except.ok.inj hFirst]
    · obtain ⟨new, -, hNew⟩ := bind_eq_ok.mp hFirst
      rw [← Except.ok.inj hNew, JsonValue.field?_mapMember_ne hNe]
  unfold reparse at hSecond
  rw [hMap] at hSecond
  unfold currentMap
  cases hField : value.field? (js "map") with
  | none => exact ⟨.null, rfl⟩
  | some map =>
      rw [hField] at hSecond
      obtain ⟨new, hNew, -⟩ := bind_eq_ok.mp hSecond
      exact ⟨new, hNew⟩

/-- A run's part carries the id of its key. -/
theorem runId_of_validatePart {runtime : PartsRuntime}
    {podId id : JsString} {value : JsonValue} (hPod : isUuid podId = true)
    (h : validatePart runtime (subKey podId .run id) value = .ok ()) :
    value.field? (js "id") = some (.string id) := by
  obtain ⟨part, hPart, h⟩ := bind_eq_ok.mp h
  rw [parsePartKey_eq_ok, matchKey_subKey hPod (by decide)] at hPart
  split_ifs at hPart with hSelection
  obtain rfl := Option.some.inj hPart
  have hFixed : ∀ fixed : JsString, matchKey fixed = some {} →
      subKey podId .run id ≠ fixed := by
    rintro fixed hFixed rfl
    rw [matchKey_subKey hPod (by decide), if_pos hSelection] at hFixed
    cases hFixed
  rw [if_neg (hFixed _ (by decide)), if_neg (hFixed _ (by decide)),
    if_neg (hFixed _ (by decide))] at h
  simp only [Option.isSome_none, Bool.false_eq_true, if_false, validateKind,
    validateRun, Option.getD_some, bind_eq_ok, throwIf_eq_ok,
    Bool.or_eq_false_iff, Bool.not_eq_false', isText_iff] at h
  obtain ⟨_, -, -, hId⟩ := h
  exact hId

/-! ## The inventory -/

theorem finds_inventoryMap {runtime : PartsRuntime} {workspace : JsonValue}
    (h : validatePart runtime (js "workspace") workspace = .ok ()) :
    Finds (inventoryMap runtime.toMapRuntime workspace) := by
  refine finds_bind (finds_property _ _) fun map hMap => ?_
  split_ifs
  · obtain ⟨current, hCurrent⟩ := currentMap_eq_ok h
    rw [property_eq_ok hMap]
    exact finds_bind (.of_eq_ok hCurrent) fun _ _ => finds_ok _
  · exact finds_ok workspace

theorem finds_podReady (online : Bool) (view : JsonValue) :
    Finds (podReady online view) := by
  unfold podReady
  split_ifs
  · exact finds_bind (finds_property _ _) fun _ _ => finds_ok _
  · exact finds_ok false

theorem finds_inventoryWorkspace {runtime : PartsRuntime} {db : Db}
    (h : Content runtime db) {runtimeId : JsString} {workspace : JsonValue}
    {ids : List Unknown} (online : Bool)
    (hComplete : Complete (partKeys db runtimeId) (reader db runtimeId)
      workspace ids) :
    Finds (inventoryWorkspace runtime.toMapRuntime (reader db runtimeId)
      online) := by
  have hKey : parsePartKey (js "workspace") = .ok {} := by decide
  refine finds_bind (.of_eq_ok hComplete.workspacePart) fun value hRead => ?_
  obtain rfl : workspace = value :=
    Except.ok.inj (hComplete.workspacePart.symm.trans hRead)
  refine finds_bind (finds_inventoryMap (reader_valid h hKey rfl hRead))
    fun mapped _ => ?_
  refine finds_bind (finds_property _ _) fun pods hPods => ?_
  refine finds_bind (finds_arrayItems _) fun items hItems => ?_
  refine finds_bind (finds_mapM fun pod hPod => ?_) fun _ _ => finds_ok _
  refine finds_bind (finds_property _ _) fun id hId => ?_
  have hListed := hComplete.listed hPods hItems hPod hId
  refine finds_bind (finds_reader (hComplete.pods id hListed).1)
    fun view _ => ?_
  exact finds_bind (finds_podReady online view) fun _ _ => finds_ok _

theorem finds_inventory {runtime : WorkspaceRuntime} {db : Db}
    (h : Content runtime.toPartsRuntime db) (now : Clock) (owner : Owner) :
    Finds (inventory runtime db now owner) := by
  refine finds_mapM fun item hItem => ?_
  have hRow : item.1 ∈ db.runtimes.rows := by
    have hSorted := List.fst_mem_of_mem_zipIdx hItem
    rw [ownedRows, List.mem_insertionSort] at hSorted
    exact List.mem_of_mem_filter hSorted
  refine finds_bind ?_ fun workspace _ => finds_ok _
  unfold rowWorkspace
  split_ifs with hData
  · obtain ⟨workspace, ids, hComplete⟩ := complete_of_hasData h hRow hData
    exact finds_inventoryWorkspace h _ hComplete
  · exact finds_ok _

/-! ## One Pod -/

/-- The parts of a listed Pod, with the values that its runs carry. -/
structure PodComplete (keys : List JsString) (read : Reader)
    (podId : JsString) (items : List JsonValue) : Prop where
  key : podKey podId ∈ keys
  lists : ListsRuns read podId items
  runs : ∀ item ∈ items, subKey podId .run (toText item) ∈ keys ∧
    subKey podId .events (toText item) ∈ keys
  found : ∀ key ∈ keys, Finds (read key)
  runId : ∀ id run, read (subKey podId .run id) = .ok run →
    run.field? (js "id") = some (.string id)

theorem podComplete {runtime : PartsRuntime} {db : Db}
    (h : Content runtime db) {owner : Owner} {id podId : JsString}
    {now : Int} {found : RuntimeRow} (hPod : isUuid podId = true)
    (hReady : ready db owner id [some (.string podId)] now = .ok found) :
    ∃ items, PodComplete (partKeys db found.id) (reader db found.id) podId
      items := by
  obtain ⟨workspace, ids, hComplete, hListed⟩ := ready_eq_ok h hReady
  obtain ⟨listed, hId, hText⟩ := hListed _ List.mem_cons_self
  obtain rfl : textOf listed = podId := by rw [hText, textOf_string]
  obtain ⟨hKey, items, hLists, hRuns⟩ := hComplete.pods listed hId
  refine ⟨items, hKey, hLists, hRuns, fun key hMem => finds_reader hMem,
    fun id run hRead => ?_⟩
  obtain ⟨part, hMem, hPartKey, hPartRead⟩ : ∃ part ∈ db.parts.rows,
      part.key = subKey (textOf listed) .run id ∧ part.value = run := by
    unfold reader at hRead
    split at hRead
    · rename_i part hFind
      exact ⟨part, Table.mem_of_find? hFind,
        congrArg Prod.snd (Table.key_of_find? hFind), Except.ok.inj hRead⟩
    · cases hRead
  obtain ⟨key, hParsed, -⟩ := h.parts part hMem
  rw [hPartKey] at hParsed
  have hTable : key.table = none := by
    rw [parsePartKey_eq_ok, matchKey_subKey hPod (by decide)] at hParsed
    split_ifs at hParsed
    rw [← Option.some.inj hParsed]
  exact runId_of_validatePart hPod (reader_valid h hParsed hTable hRead)

section Pod

variable {keys : List JsString} {read : Reader} {podId : JsString}
  {items : List JsonValue}

theorem finds_podRuns (h : PodComplete keys read podId items)
    {some : List JsonValue} (hSome : ∀ item ∈ some, item ∈ items) :
    Finds (podRuns read podId some) :=
  finds_mapM fun item hItem => h.found _ (h.runs item (hSome item hItem)).1

theorem finds_runEvents (h : PodComplete keys read podId items)
    {runs : List JsonValue} (hRuns : podRuns read podId items = .ok runs)
    {run : JsonValue} (hRun : run ∈ runs) :
    Finds (runEvents read podId run) := by
  obtain ⟨item, hItem, hRead⟩ := exists_of_mem_mapM hRuns hRun
  have hId := h.runId (toText item) run hRead
  refine finds_bind (finds_property _ _) fun id hProperty => ?_
  rw [property_eq_ok hProperty, member, Option.bind_some, hId, textOf_string]
  exact finds_bind (h.found _ (h.runs item hItem).2) fun _ _ => finds_ok _

theorem finds_firstEvents (h : PodComplete keys read podId items)
    {runs : List JsonValue} (hRuns : podRuns read podId items = .ok runs) :
    Finds (firstEvents read podId runs) := by
  cases runs with
  | nil => exact finds_ok _
  | cons run rest =>
      change Finds (if truthy (some run) then _ else _)
      split_ifs
      · exact finds_bind (finds_runEvents h hRuns List.mem_cons_self)
          fun _ _ => finds_ok _
      · exact finds_ok _

theorem finds_assemblePod (h : PodComplete keys read podId items) :
    Finds (assemblePod read keys podId) := by
  refine finds_bind (h.found _ h.key) fun part hPart => ?_
  refine finds_bind (finds_property _ _) fun view hView => ?_
  refine finds_bind (finds_property _ _) fun runIds hRunIds => ?_
  refine finds_bind (finds_arrayItems _) fun ids hIds => ?_
  obtain rfl := h.lists.items_eq hPart hView hRunIds hIds
  refine finds_bind (finds_podRuns h fun _ hItem => hItem) fun runs hRuns => ?_
  refine finds_bind (finds_firstEvents h hRuns) fun events _ => ?_
  refine finds_bind (finds_mapM fun key hKey => ?_) fun versions _ => ?_
  · exact finds_bind (h.found key (List.mem_of_mem_filter hKey))
      fun _ _ => finds_ok _
  refine finds_bind (finds_mapM fun run hRun => ?_) fun _ _ => finds_ok _
  exact finds_bind (finds_runEvents h hRuns hRun) fun _ _ => finds_ok _

end Pod

theorem finds_read {runtime : PartsRuntime} {db : Db}
    (h : Content runtime db) (now : Clock) (owner : Owner)
    (runtimeId podId : JsString) :
    Finds (WorkspaceReads.read db now owner runtimeId podId) := by
  refine finds_bind (finds_centralId _) fun id hId => ?_
  obtain ⟨hEq, hUuid⟩ := centralId_eq_ok.mp hId
  obtain rfl : podId = id := JsonValue.string.inj (Option.some.inj hEq)
  refine finds_bind (finds_ready h _ _ _ _) fun found hReady => ?_
  obtain ⟨items, hComplete⟩ := podComplete h hUuid hReady
  exact finds_bind (finds_assemblePod hComplete) fun _ _ => finds_ok _

theorem finds_podView {db : Db} {found : RuntimeRow} {podId : JsString}
    {items : List JsonValue}
    (h : PodComplete (partKeys db found.id) (reader db found.id) podId items)
    (part : JsonValue) (view : Unknown) (query : WorkspaceView) :
    Finds (podView db found podId part view items query) := by
  cases query with
  | map => exact (nomatch ·)
  | summary =>
      refine finds_bind (finds_podRuns h fun item hItem => ?_)
        fun _ _ => finds_ok _
      exact List.mem_of_mem_take hItem
  | runs offset =>
      refine finds_bind (finds_podRuns h fun item hItem => ?_)
        fun _ _ => finds_ok _
      exact List.mem_of_mem_drop (List.mem_of_mem_take hItem)
  | run runId =>
      refine finds_bind (finds_centralId _) fun id hId => ?_
      obtain ⟨hEq, -⟩ := centralId_eq_ok.mp hId
      obtain rfl : runId = id := JsonValue.string.inj (Option.some.inj hEq)
      refine finds_bind (finds_protocol _ _ _) fun _ hThrow => ?_
      rw [throwIf_eq_ok, Bool.not_eq_false', List.any_eq_true] at hThrow
      obtain ⟨item, hItem, hText⟩ := hThrow
      obtain rfl := Option.some.inj (isText_iff.mp hText)
      obtain ⟨hRun, hEvents⟩ := h.runs _ hItem
      rw [toText_string] at hRun hEvents
      refine finds_bind (h.found _ hRun) fun _ _ => ?_
      exact finds_bind (h.found _ hEvents) fun _ _ => finds_ok _
  | version selection =>
      refine finds_bind (finds_parsePartKey _) fun _ _ => ?_
      refine finds_bind (finds_protocol _ _ _) fun _ hThrow => ?_
      rw [throwIf_eq_ok, Option.isNone_eq_false_iff] at hThrow
      obtain ⟨row, hRow⟩ := Option.isSome_iff_exists.mp hThrow
      refine finds_bind (.of_eq_ok (a := row.value) ?_) fun _ _ => finds_ok _
      rw [reader, hRow]

theorem finds_view {runtime : WorkspaceRuntime} {db : Db}
    (h : Content runtime.toPartsRuntime db) (now : Clock) (owner : Owner)
    (runtimeId : JsString) (podId : Option JsString) (query : WorkspaceView) :
    Finds (WorkspaceReads.view runtime db now owner runtimeId podId query) := by
  have hPod : Finds (viewPod db now owner runtimeId query podId) := by
    cases podId with
    | none => exact (nomatch ·)
    | some podId =>
        refine finds_bind (finds_centralId _) fun id hId => ?_
        obtain ⟨hEq, hUuid⟩ := centralId_eq_ok.mp hId
        obtain rfl : podId = id := JsonValue.string.inj (Option.some.inj hEq)
        refine finds_bind (finds_ready h _ _ _ _) fun found hReady => ?_
        obtain ⟨items, hComplete⟩ := podComplete h hUuid hReady
        refine finds_bind (hComplete.found _ hComplete.key) fun part hPart => ?_
        refine finds_bind (finds_property _ _) fun view hView => ?_
        refine finds_bind (finds_property _ _) fun runIds hRunIds => ?_
        refine finds_bind (finds_arrayItems _) fun ids hIds => ?_
        obtain rfl := hComplete.lists.items_eq hPart hView hRunIds hIds
        exact finds_podView hComplete part view query
  cases query with
  | map =>
      refine finds_bind (finds_ready h _ _ _ _) fun found hReady => ?_
      obtain ⟨workspace, ids, hComplete, -⟩ := ready_eq_ok h hReady
      refine finds_bind (.of_eq_ok hComplete.workspacePart)
        fun value hRead => ?_
      refine finds_bind (finds_property _ _) fun map hMap => ?_
      have hKey : parsePartKey (js "workspace") = .ok {} := by decide
      obtain ⟨current, hCurrent⟩ :=
        currentMap_eq_ok (reader_valid h hKey rfl hRead)
      rw [property_eq_ok hMap]
      exact finds_bind (.of_eq_ok hCurrent) fun _ _ => finds_ok _
  | summary => exact hPod
  | runs offset => exact hPod
  | run runId => exact hPod
  | version selection => exact hPod

/-! ## The content of every run -/

/-- **Committed content is exactly what its hash names.**  In every run of
calls, at any readings of the clock:

* the parts of a runtime with data are together what its hash names, each of
  them that belongs to no table is what its own hash names, and
  `validateManifest` accepts them;
* no read of `inventory`, `read` or `view` misses a part;
* the revision of a runtime goes up by one exactly where its hash changes;
* a `publishParts` that throws leaves all tables as they were. -/
theorem content_committed (runtime : WorkspaceRuntime) (turns : List Turn) :
    let db := run (workspace runtime) turns {}
    (∀ row ∈ db.runtimes.rows, hasData row = true →
      manifestDigest runtime.toPartsRuntime (manifest db row.id) = row.hash ∧
      (∀ part ∈ partsOf db row.id, ∃ key, parsePartKey part.key = .ok key ∧
        (key.table = none → partHash runtime.toPartsRuntime
          (stringify part.value) = part.hash)) ∧
      validateManifest (partKeys db row.id) (reader db row.id) = .ok ()) ∧
    (∀ now owner, inventory runtime db now owner ≠ .error missingPart) ∧
    (∀ now owner runtimeId podId,
      WorkspaceReads.read db now owner runtimeId podId ≠
        .error missingPart) ∧
    (∀ now owner runtimeId podId query,
      WorkspaceReads.view runtime db now owner runtimeId podId query ≠
        .error missingPart) ∧
    (∀ turn, RevisionStep db.runtimes
      (workspace runtime turn db).2.runtimes) ∧
    (∀ actor lease id expected changes hash completion now e,
      (workspace runtime ⟨.publishParts actor lease id expected changes hash
          completion, now⟩ db).1 = .error e →
        (workspace runtime ⟨.publishParts actor lease id expected changes
          hash completion, now⟩ db).2 = db) := by
  intro db
  have hContent : Content runtime.toPartsRuntime db :=
    content_run runtime turns
  refine ⟨?_, fun now owner => finds_inventory hContent now owner,
    fun now owner runtimeId podId => finds_read hContent now owner runtimeId
      podId,
    fun now owner runtimeId podId query => finds_view hContent now owner
      runtimeId podId query,
    fun turn => revision_turn runtime turn db, ?_⟩
  · intro row hRow hData
    obtain ⟨hDigest, hValid⟩ := hContent.committed row hRow hData
    refine ⟨hDigest, fun part hPart => ?_, hValid⟩
    obtain ⟨key, hKey, hSound⟩ :=
      hContent.parts part (List.mem_of_mem_filter hPart)
    exact ⟨key, hKey, fun hTable => (hSound hTable).1⟩
  · intro actor lease id expected changes hash completion now e hThrow
    rcases outcome runtime ⟨.publishParts actor lease id expected changes hash
      completion, now⟩ db with ⟨answer, db', -, hRun⟩ | ⟨e', hRun⟩
    · rw [hRun] at hThrow
      cases hThrow
    · rw [hRun]

end OpenApe.Ports.WorkspaceIntegrity
