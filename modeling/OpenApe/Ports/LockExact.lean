import OpenApe.Ports.LockWalk

/-!
# An accepted lock holds exactly what the Pod needs

The results of the walk, told of nested packages and Node's lookup: which
entries there are, that every dependency on the way is met, which entries are
required, and by which.
-/

namespace OpenApe.Ports.LockExact

open Verified.JsText Verified.Json Verified.Fallible Verified.KeyedTable
  Verified.Worklist
open CentralValues (Unknown)
open PortableValues LockEntries ImportedLock NestedPackages LockWalk

/-! ## Names -/

/-- Spreading a record over another one adds no other names. -/
theorem names_of_spread {more : List (JsString × JsString)} {merged : Record}
    (hMerged : ∀ e ∈ merged.entries, isPackageName e.1 = true)
    (hMore : ∀ e ∈ more, isPackageName e.1 = true) :
    ∀ e ∈ (more.foldl (fun merged e => merged.put e.1 e.2) merged).entries,
      isPackageName e.1 = true := by
  induction more generalizing merged with
  | nil => exact hMerged
  | cons first rest ih =>
      refine ih (fun e he => ?_)
        fun e he => hMore e (List.mem_cons_of_mem first he)
      rcases Record.mem_put.mp he with rfl | ⟨-, hOld⟩
      · exact hMore first List.mem_cons_self
      · exact hMerged e hOld

/-- Entries all of whose dependencies have package names. -/
def Named (item : LockEntry) : Prop :=
  ∀ d ∈ dependenciesOf item, isPackageName d.name = true

theorem named_of_maps {item : LockEntry}
    (hDependencies : ∀ e ∈ item.dependencies.entries,
      isPackageName e.1 = true)
    (hOptional : ∀ e ∈ item.optionalDependencies.entries,
      isPackageName e.1 = true)
    (hPeers : ∀ e ∈ item.peerDependencies.entries,
      isPackageName e.1 = true) : Named item := by
  intro d hd
  unfold dependenciesOf at hd
  dsimp only at hd
  rcases List.mem_append.mp hd with hSpread | hPeer
  · obtain ⟨e, he, rfl⟩ := List.mem_map.mp hSpread
    exact names_of_spread hDependencies hOptional e he
  · obtain ⟨e, he, rfl⟩ := List.mem_map.mp hPeer
    exact hPeers e he

section Names

variable [Collation] {packages : Packages}

theorem names_of_parsePackages {members : Members} {result : Record}
    (h : parsePackages (some (.object members)) = .ok result) :
    ∀ m ∈ members, isPackageName m.1 = true := by
  unfold parsePackages at h
  obtain ⟨entries, hEntries, h⟩ := bind_eq_ok.mp h
  obtain ⟨pairs, hPairs, -⟩ := bind_eq_ok.mp h
  rw [packageMembers] at hEntries
  split at hEntries
  · cases hEntries
  · cases hEntries
    intro m hm
    have hOk := (isOk_mapM _ members).mp (isOk_iff.mpr ⟨pairs, hPairs⟩) m hm
    unfold exactPackage at hOk
    split at hOk
    · split at hOk
      · rename_i hName
        rw [Bool.and_eq_true] at hName
        exact hName.1
      · cases hOk
    · cases hOk

theorem packageName_eq_ok {name result : JsString}
    (h : packageName name = .ok result) :
    result = name ∧ isPackageName name = true := by
  unfold packageName at h
  obtain ⟨parsed, hParsed, hResult⟩ := bind_eq_ok.mp h
  cases hResult
  exact ⟨rfl, names_of_parsePackages hParsed _ (List.mem_singleton_self _)⟩

theorem names_of_dependencyMap {value : Unknown} {result : Record}
    (h : dependencyMap packages value = .ok result) :
    ∀ e ∈ result.entries, isPackageName e.1 = true := by
  unfold dependencyMap at h
  split at h
  · cases h
    exact fun e he => (by cases he)
  · obtain ⟨fields, -, h⟩ := bind_eq_ok.mp h
    obtain ⟨_, -, h⟩ := bind_eq_ok.mp h
    obtain ⟨pairs, hPairs, h⟩ := bind_eq_ok.mp h
    cases h
    intro e he
    obtain ⟨m, -, hm⟩ :=
      exists_of_mem_mapM hPairs (Record.mem_of_mem_ofPairs he)
    obtain ⟨name, hName, hm⟩ := bind_eq_ok.mp hm
    obtain ⟨range, -, hm⟩ := bind_eq_ok.mp hm
    cases hm
    obtain ⟨rfl, hValid⟩ := packageName_eq_ok hName
    exact hValid

theorem named_of_entry {value : JsonValue} {path : JsString}
    {item : LockEntry} (h : entry packages value path = .ok item) :
    Named item := by
  unfold entry at h
  obtain ⟨fields, -, h⟩ := bind_eq_ok.mp h
  obtain ⟨_, -, h⟩ := bind_eq_ok.mp h
  obtain ⟨name, -, h⟩ := bind_eq_ok.mp h
  obtain ⟨parsed, -, h⟩ := bind_eq_ok.mp h
  obtain ⟨_, -, h⟩ := bind_eq_ok.mp h
  obtain ⟨_, -, h⟩ := bind_eq_ok.mp h
  obtain ⟨_, -, h⟩ := bind_eq_ok.mp h
  obtain ⟨_, -, h⟩ := bind_eq_ok.mp h
  obtain ⟨dependencies, hDependencies, h⟩ := bind_eq_ok.mp h
  obtain ⟨optional, hOptional, h⟩ := bind_eq_ok.mp h
  obtain ⟨peers, hPeers, h⟩ := bind_eq_ok.mp h
  obtain ⟨_, -, h⟩ := bind_eq_ok.mp h
  cases h
  exact named_of_maps (names_of_dependencyMap hDependencies)
    (names_of_dependencyMap hOptional) (names_of_dependencyMap hPeers)

end Names

/-! ## The entries of a lock -/

theorem rows_of_lockEntries [Collation] {packages : Packages}
    {listed : Members} {entries : Entries}
    (h : lockEntries packages listed = .ok entries) :
    (∀ path, (entries.find? path).isSome = true ↔
      path ≠ [] ∧ path ∈ listed.map Prod.fst) ∧
      ∀ row ∈ entries.rows, Named row.2 := by
  unfold lockEntries at h
  obtain ⟨rows, hRows, h⟩ := bind_eq_ok.mp h
  cases h
  have hEach := mapM_eq_ok.mp hRows
  have hKeys : rows.map Prod.fst =
      (listed.filter fun package => package.1 != []).map Prod.fst := by
    clear hRows h
    generalize (listed.filter fun package => package.1 != []) = others
      at hEach ⊢
    induction hEach with
    | nil => rfl
    | cons hFirst _ ih =>
        obtain ⟨item, -, hRow⟩ := bind_eq_ok.mp hFirst
        cases hRow
        rw [List.map_cons, List.map_cons, ih]
  constructor
  · intro path
    rw [Table.isSome_find?_foldl_put, hKeys]
    constructor
    · rintro (hMem | hEmpty)
      · obtain ⟨package, hPackage, rfl⟩ := List.mem_map.mp hMem
        obtain ⟨hListed, hOther⟩ := List.mem_filter.mp hPackage
        exact ⟨bne_iff_ne.mp hOther, List.mem_map_of_mem hListed⟩
      · cases hEmpty
    · rintro ⟨hNe, hMem⟩
      obtain ⟨package, hPackage, rfl⟩ := List.mem_map.mp hMem
      exact .inl (List.mem_map_of_mem
        (List.mem_filter.mpr ⟨hPackage, bne_iff_ne.mpr hNe⟩))
  · intro row hRow
    rcases Table.mem_foldl_put hRow with hMem | hNone
    · obtain ⟨package, -, hEntry⟩ := exists_of_mem_mapM hRows hMem
      obtain ⟨item, hItem, hEq⟩ := bind_eq_ok.mp hEntry
      cases hEq
      exact named_of_entry hItem
    · cases hNone

/-- The root package, once `package.json` was checked. -/
theorem named_rootItem [Collation] {clean : JsonValue} {manifest : Record}
    {listed : Members} (h : listedPackages clean manifest = .ok listed) :
    Named (rootItem manifest) := by
  unfold listedPackages at h
  obtain ⟨_, -, h⟩ := bind_eq_ok.mp h
  obtain ⟨_, -, h⟩ := bind_eq_ok.mp h
  obtain ⟨_, -, h⟩ := bind_eq_ok.mp h
  obtain ⟨_, -, h⟩ := bind_eq_ok.mp h
  obtain ⟨_, -, h⟩ := bind_eq_ok.mp h
  obtain ⟨_, -, h⟩ := bind_eq_ok.mp h
  obtain ⟨wanted, hWanted, -⟩ := bind_eq_ok.mp h
  have hNames := names_of_parsePackages hWanted
  have hNone : ∀ e ∈ Record.empty.entries, isPackageName e.1 = true :=
    fun e he => (by cases he)
  refine named_of_maps (fun e he => ?_) hNone hNone
  exact hNames (e.1, .string e.2) (List.mem_map_of_mem he)

/-- What a lock lists is what its packages list. -/
theorem field?_of_listedPackages [Collation] {clean : JsonValue}
    {manifest : Record} {listed : Members}
    (h : listedPackages clean manifest = .ok listed) :
    clean.field? (js "packages") = some (.object listed) := by
  unfold listedPackages at h
  obtain ⟨lock, hLock, h⟩ := bind_eq_ok.mp h
  obtain ⟨_, -, h⟩ := bind_eq_ok.mp h
  obtain ⟨members, hMembers, h⟩ := bind_eq_ok.mp h
  obtain ⟨_, -, h⟩ := bind_eq_ok.mp h
  obtain ⟨_, -, h⟩ := bind_eq_ok.mp h
  obtain ⟨_, -, h⟩ := bind_eq_ok.mp h
  obtain ⟨_, -, h⟩ := bind_eq_ok.mp h
  obtain ⟨_, -, h⟩ := bind_eq_ok.mp h
  obtain ⟨_, -, h⟩ := bind_eq_ok.mp h
  obtain ⟨_, -, h⟩ := bind_eq_ok.mp h
  obtain ⟨_, -, h⟩ := bind_eq_ok.mp h
  obtain ⟨_, -, h⟩ := bind_eq_ok.mp h
  cases h
  have hSame : lock = clean := by
    unfold dataFields at hLock
    obtain ⟨input, hInput, hLock⟩ := bind_eq_ok.mp hLock
    have hClean : clean = .object input := by
      unfold plainObject at hInput
      split at hInput
      · rename_i heq
        cases hInput
        exact Option.some.inj heq
      · cases hInput
    dsimp only at hLock
    split at hLock
    · cases hLock
    · cases hLock
      exact hClean.symm
  rw [← hSame]
  unfold plainObject at hMembers
  split at hMembers
  · rename_i heq
    cases hMembers
    exact heq
  · cases hMembers

/-! ## Nested packages -/

/-- The dependencies of a package that Node's lookup finds, and where. -/
def links (entries : Entries) (manifest : Record) (location : Location) :
    List (Edge Location) :=
  match itemAt entries manifest (pathOf location) with
  | none => []
  | some item => (dependenciesOf item).filterMap fun d =>
      (nearest (isEntry entries) d.name location).map fun target =>
        ⟨target, d.optional⟩

section Links

variable {entries : Entries} {manifest : Record}

/-- The lookup on paths is Node's lookup. -/
theorem edgeOf_pathOf {location : Location} (h : Valid location)
    (d : Dependency) : edgeOf entries (pathOf location) d =
      (nearest (isEntry entries) d.name location).map fun target =>
        ⟨pathOf target, d.optional⟩ := by
  rw [edgeOf, resolve_pathOf entries d.name h]
  cases hNearest : nearest (isEntry entries) d.name location with
  | none => rfl
  | some target =>
      have hEntry := (nearest_suffix hNearest).1
      obtain ⟨found, hFound⟩ := Option.isSome_iff_exists.mp hEntry
      show ((entries.find? (pathOf target)).map _) = _
      rw [hFound, Option.map_some, Option.map_some,
        Table.key_of_find? hFound]

theorem edgesAt_pathOf {location : Location} (h : Valid location) :
    edgesAt entries manifest (pathOf location) =
      (links entries manifest location).map (Edge.map pathOf) := by
  unfold edgesAt links
  cases itemAt entries manifest (pathOf location) with
  | none => rfl
  | some item =>
      dsimp only
      rw [List.map_filterMap]
      refine List.filterMap_congr fun d _ => ?_
      rw [edgeOf_pathOf h]
      cases nearest (isEntry entries) d.name location <;> rfl

/-- Links lead from packages with names to such packages. -/
theorem valid_of_link
    (hNamed : ∀ path item, itemAt entries manifest path = some item →
      Named item)
    {location : Location} (h : Valid location) {e : Edge Location}
    (he : e ∈ links entries manifest location) : Valid e.target := by
  unfold links at he
  cases hItem : itemAt entries manifest (pathOf location) with
  | none =>
      rw [hItem] at he
      cases he
  | some item =>
      rw [hItem] at he
      obtain ⟨d, hd, hLink⟩ := List.mem_filterMap.mp he
      obtain ⟨target, hTarget, rfl⟩ := Option.map_eq_some_iff.mp hLink
      obtain ⟨-, around, rfl, hSuffix⟩ := nearest_suffix hTarget
      intro name hName
      rcases List.mem_cons.mp hName with rfl | hAround
      · exact hNamed _ item hItem d hd
      · exact h name (hSuffix.subset hAround)

end Links

/-! ## The result -/

/-- What an accepted lock holds: its entries are what the dependencies reach,
each dependency on the way is met or optional and missing, and `required` and
`requiredChildren` say what is required, and by which package. -/
structure Exact (packages : Packages) (manifest : Record)
    (lock : InspectedLock) : Prop where
  entries : ∀ path, (lock.entries.find? path).isSome = true ↔
    ∃ location, pathOf location = path ∧
      Reaches (links lock.entries manifest) [] location
  resolved : ∀ location, location = [] ∨
      Reaches (links lock.entries manifest) [] location →
    ∀ item, itemAt lock.entries manifest (pathOf location) = some item →
      ∀ d ∈ dependenciesOf item,
        match nearest (isEntry lock.entries) d.name location with
        | none => d.optional = true
        | some target => ∃ dependency,
            itemAt lock.entries manifest (pathOf target) = some dependency ∧
              packages.satisfies dependency.version d.range = true
  required : ∀ path, path ∈ lock.required ↔
    ∃ location, pathOf location = path ∧
      Requires (links lock.entries manifest) [] location
  children : ∀ location, location = [] ∨
      Reaches (links lock.entries manifest) [] location →
    ∀ path, path ∈ childrenOf lock.requiredChildren (pathOf location) ↔
      ∃ e ∈ links lock.entries manifest location,
        e.optional = false ∧ pathOf e.target = path

/-- The entries of a lock are the packages it lists, the root apart. -/
def ListedBy (value : JsonValue) (lock : InspectedLock) : Prop :=
  ∃ clean listed, canonicalValue value = .ok clean ∧
    clean.field? (js "packages") = some (.object listed) ∧
    lock.canonical = stringify clean ∧
    ∀ path, (lock.entries.find? path).isSome = true ↔
      path ≠ [] ∧ path ∈ listed.map Prod.fst

theorem exact_of_explored {packages : Packages} {manifest : Record}
    {canonical : JsString} {entries : Entries} {s : State}
    (hNamed : ∀ path item, itemAt entries manifest path = some item →
      Named item)
    (h : Explored entries manifest packages.satisfies s)
    (hDone : s.pending = [])
    (hAll : s.visited.length = entries.rows.length) :
    Exact packages manifest
      ⟨canonical, entries, s.required, s.requiredChildren⟩ := by
  have hStart : Valid [] := fun name hName => (by cases hName)
  have hClosed : ∀ location, Valid location →
      ∀ e ∈ links entries manifest location, Valid e.target :=
    fun location hValid e he => valid_of_link hNamed hValid he
  have hEdges : ∀ location, Valid location →
      edgesAt entries manifest (pathOf location) =
        (links entries manifest location).map (Edge.map pathOf) :=
    fun location hValid => edgesAt_pathOf hValid
  have hFinished : (walkOf s).pending = [] := by rw [walkOf, hDone]; rfl
  have hReaches := fun path =>
    reaches_map_iff (f := pathOf) hStart hClosed hEdges path
  have hRequires := fun path =>
    requires_map_iff (f := pathOf) hStart hClosed hEdges path
  have hVisited : ∀ path, path ∈ s.visited ↔ ∃ location,
      pathOf location = path ∧
        Reaches (links entries manifest) [] location := fun path =>
    (h.walk.visited_iff hFinished path).trans (hReaches path)
  have hPerm : s.visited.Perm (entries.rows.map Prod.fst) :=
    h.visited_subperm.perm_of_length_le (by rw [List.length_map, hAll])
  have hSettled : ∀ location, location = [] ∨
      Reaches (links entries manifest) [] location →
      Valid location ∧
        Finished entries manifest packages.satisfies s (pathOf location) := by
    intro location hLocation
    have hAt : pathOf location = [] ∨ pathOf location ∈ s.visited := by
      rcases hLocation with rfl | hMem
      · exact .inl rfl
      · exact .inr ((hVisited _).mpr ⟨location, rfl, hMem⟩)
    refine ⟨?_, ?_⟩
    · rcases hLocation with rfl | hMem
      · exact hStart
      · exact hMem.closed hStart hClosed
    · rcases h.finished _ hAt with ⟨m, hm⟩ | hFinal
      · rw [hFinished] at hm
        cases hm
      · exact hFinal
  refine ⟨fun path => ?_, fun location hLocation item hItem d hd => ?_,
    fun path => ?_, fun location hLocation path => ?_⟩
  · rw [← hVisited, hPerm.mem_iff, Option.isSome_iff_exists, List.mem_map]
    constructor
    · rintro ⟨row, hRow⟩
      exact ⟨row, Table.mem_of_find? hRow, Table.key_of_find? hRow⟩
    · rintro ⟨row, hRow, rfl⟩
      exact ⟨row, Table.find?_of_mem hRow⟩
  · obtain ⟨hValid, hFinal⟩ := hSettled location hLocation
    have hd' := hFinal.settled item hItem d hd
    rw [Settled, resolve_pathOf entries d.name hValid] at hd'
    cases hNearest : nearest (isEntry entries) d.name location with
    | none =>
        rw [hNearest] at hd'
        exact hd'
    | some target =>
        obtain ⟨hEntry, around, hTarget, -⟩ := nearest_suffix hNearest
        obtain ⟨found, hFound⟩ := Option.isSome_iff_exists.mp hEntry
        rw [hNearest, Option.bind_some, hFound] at hd'
        refine ⟨found.2, ?_, hd'⟩
        have hNe : pathOf target ≠ [] := by
          rw [hTarget]
          exact pathOf_cons_ne_nil _ _
        rw [itemAt, if_neg hNe, hFound]
        rfl
  · exact (h.walk.required_iff hFinished path).trans (hRequires path)
  · obtain ⟨hValid, hFinal⟩ := hSettled location hLocation
    have hSame := hEdges location hValid
    constructor
    · intro hPath
      obtain ⟨e, he, hNeeded, hTarget⟩ := h.children _ path hPath
      rw [hSame] at he
      obtain ⟨link, hLink, rfl⟩ := List.mem_map.mp he
      exact ⟨link, hLink, hNeeded, hTarget⟩
    · rintro ⟨link, hLink, hNeeded, rfl⟩
      refine hFinal.children (link.map pathOf) ?_ hNeeded
      rw [hSame]
      exact List.mem_map_of_mem hLink

/-- Inspecting a lock comes to an end, and an accepted lock holds exactly what
the Pod needs. -/
theorem inspectImportedLock_exact [Collation] (packages : Packages)
    (value : JsonValue) (manifest : Record) :
    ∃ result, inspectImportedLock packages value manifest = some result ∧
      ∀ lock, result = .ok lock →
        ListedBy value lock ∧ Exact packages manifest lock := by
  unfold inspectImportedLock
  dsimp only
  split
  · exact ⟨_, rfl, fun lock hEq => (by cases hEq)⟩
  · rename_i clean entries hRead
    obtain ⟨clean', hClean, hRead⟩ := bind_eq_ok.mp hRead
    obtain ⟨listed, hListed, hRead⟩ := bind_eq_ok.mp hRead
    obtain ⟨entries', hEntries, hRead⟩ := bind_eq_ok.mp hRead
    cases hRead
    obtain ⟨hKeys, hRows⟩ := rows_of_lockEntries hEntries
    have hRoot : entries.find? [] = none := by
      rw [← Option.not_isSome_iff_eq_none, hKeys]
      exact fun h => h.1 rfl
    have hNamed : ∀ path item, itemAt entries manifest path = some item →
        Named item := by
      intro path item hItem
      unfold itemAt at hItem
      split at hItem
      · cases hItem
        exact named_rootItem hListed
      · obtain ⟨row, hRow, rfl⟩ := Option.map_eq_some_iff.mp hItem
        exact hRows row (Table.mem_of_find? hRow)
    have hStart : Explored entries manifest packages.satisfies
        (startState manifest) := explored_start
    obtain ⟨walked, hWalked, hEnd⟩ := explore_ends hRoot
      (2 * entries.rows.length + 2) (startState manifest) hStart
      (by
        show 1 + 2 * entries.rows.length <
          2 * entries.rows.length + 2 + 0 + 0
        omega)
    unfold inspectEntries
    rw [← startState, hWalked]
    refine ⟨_, rfl, fun lock hLock => ?_⟩
    obtain ⟨s, hState, hLock⟩ := bind_eq_ok.mp hLock
    obtain ⟨_, hLength, hLock⟩ := bind_eq_ok.mp hLock
    cases hLock
    obtain ⟨hExplored, hDone⟩ := hEnd s hState
    have hAll : s.visited.length = entries.rows.length := by
      unfold refuseIf at hLength
      split at hLength
      · cases hLength
      · rename_i hSame
        simpa using hSame
    exact ⟨⟨clean, listed, hClean, field?_of_listedPackages hListed, rfl,
      hKeys⟩, exact_of_explored hNamed hExplored hDone hAll⟩

/-! ## An optional dependency that is missing -/

/-- Packages of version 1.0.0. -/
def rangesOf (names : List String) : JsonValue :=
  .object (names.map fun name => (js name, .string (js "1.0.0")))

/-- The entry of a package of version 1.0.0, with optional dependencies. -/
def packageValue (name : String) (optional : List String) : JsonValue :=
  .object [(js "version", .string (js "1.0.0")),
    (js "resolved", .string (tarball (js name) (js "1.0.0"))),
    (js "integrity", .string
      (js "sha512-" ++ List.replicate 86 (unit 'A') ++ js "==")),
    (js "optionalDependencies", rangesOf optional)]

theorem three_units : (js "3").all isNumberUnit = true := by decide

theorem three_leads : ((js "3").head?.any
    fun u => (48 ≤ u && u ≤ 57) || u == unit '-') = true := by decide

/-- The lock of a Pod that needs `a`, which could use `b`. -/
def lockWithoutOptional : JsonValue :=
  .object [(js "lockfileVersion", .number ⟨js "3", three_units, three_leads⟩),
    (js "packages", .object
      [([], .object [(js "dependencies", rangesOf ["a"])]),
        (js "node_modules/a", packageValue "a" ["b"])])]

theorem needsA_nodup :
    ([(js "a", js "1.0.0")].map Prod.fst).Nodup := by decide

/-- A `package.json` with the one dependency `a`. -/
def needsA : Record := ⟨[(js "a", js "1.0.0")], needsA_nodup⟩

/-- Only exact versions are ranges, and no URL parses. -/
def exactRanges : Packages :=
  ⟨isExactVersion, fun version range => version == range, fun _ => none⟩

/-- Whether an accepted lock has an entry with a dependency that leads to no
entry. -/
def hasOpenDependency (result : Option (Checked InspectedLock))
    (location : Location) : Bool :=
  match result with
  | some (.ok lock) =>
      (lock.entries.find? (pathOf location)).any fun row =>
        (dependenciesOf row.2).any fun d =>
          (nearest (isEntry lock.entries) d.name location).isNone
  | _ => false

/-- The lock is accepted although `b` is not among its packages. -/
theorem inspectImportedLock_optional :
    hasOpenDependency (@inspectImportedLock exactRanges codeUnitCollation
      lockWithoutOptional needsA) [js "a"] = true := by
  decide +kernel

end OpenApe.Ports.LockExact
