import OpenApe.Ports.Capabilities
import OpenApe.Verified.Separators

/-!
# Capability requests are as narrow as their selectors

What a capability request grants is compared with what its selectors say.  A
selector is read in full by `selectorOf`: the value is everything after the
first equals sign and the key everything between the first dot and it.  The
code reads `cut` of it, the last selector of a name counts, and the resources
that are not listed are not read back, so the selectors are in the chain
exactly when none of this loses anything.
-/

namespace OpenApe.Ports.CapabilityWidth

open Verified.JsText Verified.JsText.Record Verified.Fallible
  Verified.KeyedTable Verified.Separators
open GrantTypes CliPermissions ShapeMatcher Capabilities
open CompoundShell (LoadedAdapter)

/-! ## Reading a selector -/

/-- The first piece, and the text from there to the next separator. -/
theorem splitPair_eq (c : CodeUnit) (text : JsString) :
    splitPair c text = (text.takeWhile (· != c),
      match text.dropWhile (· != c) with
      | [] => none
      | _ :: rest => some (rest.takeWhile (· != c))) := by
  unfold splitPair
  rw [splitOn_eq]
  cases text.dropWhile (· != c) with
  | nil => rfl
  | cons u rest =>
      simp only
      rw [splitOn_eq]

theorem getD_splitPair (c : CodeUnit) (text : JsString) :
    (splitPair c text).2.getD [] =
      ((text.dropWhile (· != c)).drop 1).takeWhile (· != c) := by
  rw [splitPair_eq]
  cases text.dropWhile (· != c) <;> rfl

/-- A selector argument `resource.key=value`, with nothing cut off. -/
def selectorOf (raw : JsString) : ParsedSelector :=
  let lhs := raw.takeWhile (· != unit '=')
  { resource := lhs.takeWhile (· != unit '.')
    key := (lhs.dropWhile (· != unit '.')).drop 1
    value := (raw.dropWhile (· != unit '=')).drop 1 }

/-- What the splits with a limit leave of a selector. -/
def cut (selector : ParsedSelector) : ParsedSelector :=
  { selector with
    key := selector.key.takeWhile (· != unit '.')
    value := selector.value.takeWhile (· != unit '=') }

/-- The second piece is there only after a separator. -/
theorem mem_of_truthy_splitPair {c : CodeUnit} {text : JsString}
    (h : truthy (splitPair c text).2 = true) : c ∈ text := by
  by_contra hNot
  rw [splitPair_eq] at h
  have hDrop : text.dropWhile (· != c) = [] := by
    rw [List.dropWhile_eq_nil_iff]
    intro u hu
    simpa using fun hSame : u = c => hNot (hSame ▸ hu)
  rw [hDrop] at h
  cases h

/-- What a selector that was read consists of. -/
theorem parseResourceSelector_eq_ok {raw : JsString}
    {selector : ParsedSelector}
    (h : parseResourceSelector raw = .ok selector) :
    raw = (selectorOf raw).resource ++ unit '.' :: (selectorOf raw).key ++
        unit '=' :: (selectorOf raw).value ∧
      selector = cut (selectorOf raw) := by
  unfold parseResourceSelector at h
  rcases hRaw : splitPair (unit '=') raw with ⟨lhs, value⟩
  rcases hLhs : splitPair (unit '.') lhs with ⟨resource, key⟩
  simp only [hRaw, hLhs] at h
  by_cases hFirst : (lhs.isEmpty || !truthy value) = true
  · rw [if_pos hFirst] at h
    cases h
  · rw [if_neg hFirst] at h
    by_cases hSecond : (resource.isEmpty || !truthy key) = true
    · rw [if_pos hSecond] at h
      cases h
    · rw [if_neg hSecond] at h
      cases h
      simp only [Bool.or_eq_true, Bool.not_eq_true', not_or,
        Bool.not_eq_false] at hFirst hSecond
      have hEquals : unit '=' ∈ raw :=
        mem_of_truthy_splitPair (by rw [hRaw]; exact hFirst.2)
      have hDot : unit '.' ∈ lhs :=
        mem_of_truthy_splitPair (by rw [hLhs]; exact hSecond.2)
      have hValue := getD_splitPair (unit '=') raw
      have hKey := getD_splitPair (unit '.') lhs
      rw [hRaw] at hValue
      rw [hLhs] at hKey
      rw [splitPair_eq] at hRaw hLhs
      obtain ⟨rfl, -⟩ := Prod.mk.inj hRaw
      obtain ⟨rfl, -⟩ := Prod.mk.inj hLhs
      refine ⟨?_, by simp only [cut, selectorOf, hKey, hValue]⟩
      have hOuter := append_at_separator hEquals
      have hInner := append_at_separator hDot
      simp only [selectorOf]
      rw [hInner, hOuter]

/-! ## Collecting selectors -/

/-- The value of a resource's key. -/
def selectedIn (selectors : SelectorMap) (resource key : JsString) :
    Option JsString :=
  (selectors.get resource).bind (Record.get · key)

theorem get_setSelector (selectors : SelectorMap) (selector : ParsedSelector)
    (resource : JsString) :
    (setSelector selectors selector).get resource =
      if resource = selector.resource then
        some (((selectors.get selector.resource).getD .empty).assign
          selector.key selector.value)
      else selectors.get resource := by
  unfold setSelector SelectorMap.get
  rw [Table.find?_put]
  by_cases hSame : resource = selector.resource
  · rw [if_pos hSame, if_pos hSame]
    rfl
  · rw [if_neg hSame, if_neg hSame]

theorem selectedIn_setSelector (selectors : SelectorMap)
    (selector : ParsedSelector) (resource key : JsString) :
    selectedIn (setSelector selectors selector) resource key =
      if selector.resource = resource ∧ selector.key = key ∧
          key ≠ js "__proto__" then some selector.value
      else selectedIn selectors resource key := by
  have hEmpty : (Record.empty).get key = none := rfl
  unfold selectedIn
  rw [get_setSelector]
  by_cases hResource : resource = selector.resource
  · subst hResource
    rw [if_pos rfl, Option.bind_some]
    by_cases hProto : selector.key = js "__proto__"
    · rw [Record.assign, if_pos hProto, if_neg (fun h => h.2.2 (h.2.1 ▸ hProto))]
      cases selectors.get selector.resource with
      | none => exact hEmpty
      | some current => rfl
    · rw [get_assign hProto]
      by_cases hKey : key = selector.key
      · rw [if_pos hKey, if_pos ⟨rfl, hKey.symm, hKey ▸ hProto⟩]
      · rw [if_neg hKey, if_neg (fun h => hKey h.2.1.symm)]
        cases selectors.get selector.resource with
        | none => exact hEmpty
        | some current => rfl
  · rw [if_neg hResource, if_neg (fun h => hResource h.1.symm)]

/-- **The last selector of a name counts**, and `__proto__` is not set. -/
theorem selectedIn_foldl (parsed : List ParsedSelector)
    (resource key : JsString) :
    selectedIn (parsed.foldl setSelector Table.empty) resource key =
      if key = js "__proto__" then none
      else (parsed.reverse.find? (fun selector =>
        selector.resource = resource ∧ selector.key = key)).map
          ParsedSelector.value := by
  rw [← List.reverse_reverse parsed, List.foldl_reverse,
    List.reverse_reverse]
  induction parsed.reverse with
  | nil => simp [selectedIn, SelectorMap.get, Table.find?, Table.empty]
  | cons selector rest ih =>
      rw [List.foldr_cons, selectedIn_setSelector, ih, List.find?_cons]
      by_cases hProto : key = js "__proto__"
      · simp [hProto]
      · by_cases hName : selector.resource = resource ∧ selector.key = key
        · simp [hName, hProto]
        · have hNot : ¬(selector.resource = resource ∧ selector.key = key ∧
              key ≠ js "__proto__") := fun h => hName ⟨h.1, h.2.1⟩
          rw [if_neg hNot, decide_eq_false hName]

/-! ## The chain -/

/-- The value that an entry of a chain has for a key. -/
def valueOf (ref : CliResourceRef) (key : JsString) : Option JsString :=
  ref.selector.bind (Record.get · key)

theorem resourceRef_eq_ok {loaded : LoadedAdapter} {selectors : SelectorMap}
    {resource : JsString} {ref : CliResourceRef}
    (h : resourceRef loaded selectors resource = .ok ref) :
    ref.resource = resource ∧
      ∀ key, valueOf ref key = selectedIn selectors resource key := by
  obtain ⟨knownKeys, _, h⟩ := bind_eq_ok.mp h
  unfold selectedIn valueOf
  cases hSelector : selectors.get resource with
  | none =>
      rw [hSelector] at h
      cases h
      exact ⟨rfl, fun _ => rfl⟩
  | some selector =>
      rw [hSelector] at h
      simp only at h
      split at h
      · cases h
      · split at h
        · rename_i hEmpty
          cases h
          refine ⟨rfl, fun key => ?_⟩
          rw [Option.bind_some, Record.get, List.isEmpty_iff.mp hEmpty]
          rfl
        · cases h
          exact ⟨rfl, fun _ => rfl⟩

theorem resources_of_chain {loaded : LoadedAdapter} {selectors : SelectorMap}
    {resources : List JsString} {chain : List CliResourceRef}
    (h : resources.mapM (resourceRef loaded selectors) = .ok chain) :
    chain.map CliResourceRef.resource = resources := by
  have hMap := map_of_mapM h (g := CliResourceRef.resource) (k := id)
    (fun _ _ hOk => (resourceRef_eq_ok hOk).1)
  rwa [List.map_id] at hMap

/-! ## The risk -/

theorem resource_of_parseOperationChainEntry {entry : JsString}
    {parsed : ParsedOperationChainEntry}
    (h : parseOperationChainEntry entry = .ok parsed) :
    parsed.resource = (chainEntry entry).1 := by
  unfold parseOperationChainEntry at h
  by_cases hEmpty : (chainEntry entry).1.isEmpty = true
  · simp only [hEmpty, if_true] at h
    cases h
  · by_cases hSpec : (chainEntry entry).2 = js "*"
    · simp only [hEmpty, hSpec, if_true] at h
      cases h
      rfl
    · simp only [hEmpty, hSpec, if_false] at h
      obtain ⟨keys, _, h⟩ := bind_eq_ok.mp h
      cases h
      rfl

theorem resource_of_parseChainEntry {entry : JsString} {bindings : Record}
    {ref : CliResourceRef} (h : parseChainEntry bindings entry = .ok ref) :
    ref.resource = (chainEntry entry).1 := by
  unfold parseChainEntry at h
  by_cases hName : (!isResourceName (chainEntry entry).1) = true
  · simp only [hName, if_true] at h
    cases h
  · by_cases hSpec : (chainEntry entry).2 = js "*"
    · simp only [hName, hSpec, if_true] at h
      cases h
      rfl
    · simp only [hName, hSpec, if_false] at h
      obtain ⟨pairs, _, h⟩ := bind_eq_ok.mp h
      cases h
      rfl

section Covers

variable [Collation]

/-- A chain covers only chains that go on from its resources. -/
theorem resources_of_resourceChainCovers {granted required : List CliResourceRef}
    (h : resourceChainCovers granted required = true) :
    granted.map CliResourceRef.resource <+:
      required.map CliResourceRef.resource := by
  induction granted generalizing required with
  | nil => exact List.nil_prefix
  | cons g granted ih =>
      cases required with
      | nil => cases h
      | cons r required =>
          obtain ⟨hFirst, hRest⟩ := Bool.and_eq_true_iff.mp h
          rw [List.map_cons, List.map_cons, List.cons_prefix_cons]
          refine ⟨?_, ih hRest⟩
          by_contra hNe
          rw [resourceRefCovers, if_pos hNe] at hFirst
          cases hFirst

end Covers

/-- The sequence of a chain begins the sequence of every chain below it. -/
theorem joinNul_prefix {front texts : List JsString} (hNe : front ≠ [])
    (h : front <+: texts) :
    joinNul texts = joinNul front ∨
      (joinNul front ++ [0]) <+: joinNul texts := by
  obtain ⟨rest, rfl⟩ := h
  cases rest with
  | nil => exact .inl (by rw [List.append_nil])
  | cons text rest =>
      refine .inr ⟨joinNul (text :: rest), ?_⟩
      unfold joinNul
      rw [intercalate_append hNe (List.cons_ne_nil text rest),
        List.append_assoc]
      rfl

theorem raiseRisk_le (operations : List ShapeMatchOperation)
    (current : RiskLevel) :
    risks.idxOf current ≤ risks.idxOf (operations.foldl raiseRisk current) ∧
      ∀ operation ∈ operations, risks.idxOf operation.risk ≤
        risks.idxOf (operations.foldl raiseRisk current) := by
  induction operations generalizing current with
  | nil => exact ⟨le_rfl, fun _ h => absurd h List.not_mem_nil⟩
  | cons operation operations ih =>
      obtain ⟨hCurrent, hRest⟩ := ih (raiseRisk current operation)
      have hStep : risks.idxOf current ≤
          risks.idxOf (raiseRisk current operation) ∧
          risks.idxOf operation.risk ≤
            risks.idxOf (raiseRisk current operation) := by
        unfold raiseRisk
        split <;> omega
      rw [List.foldl_cons]
      refine ⟨hStep.1.trans hCurrent, ?_⟩
      rw [List.forall_mem_cons]
      exact ⟨hStep.2.trans hCurrent, hRest⟩

/-- An operation whose resources go on from the requested ones matches. -/
theorem mem_matchingOperations {operations matching : List ShapeMatchOperation}
    {resources : List JsString}
    (h : matchingOperations operations resources = .ok matching)
    (hNe : resources ≠ []) {operation : ShapeMatchOperation}
    (hMem : operation ∈ operations)
    (hBelow : resources <+: operation.resourceChain.map
      (fun entry => (chainEntry entry).1)) : operation ∈ matching := by
  obtain ⟨chains, hChains, h⟩ := bind_eq_ok.mp h
  cases h
  obtain ⟨chain, hChain, hZip⟩ := exists_zip_of_mapM hChains hMem
  have hResources := map_of_mapM hChain
    (g := ParsedOperationChainEntry.resource)
    (k := fun entry => (chainEntry entry).1)
    (fun _ _ => resource_of_parseOperationChainEntry)
  refine List.mem_map.mpr ⟨(operation, chain), ?_, rfl⟩
  rw [List.mem_filter]
  refine ⟨hZip, ?_⟩
  dsimp only
  rw [hResources]
  rcases joinNul_prefix hNe hBelow with hSame | hLonger
  · simp [hSame]
  · simp [hLonger]

section Resolution

variable [Collation]

/-- What an answered request consists of. -/
theorem resolveCapabilityRequest_eq_ok {loaded : LoadedAdapter}
    {params : CapabilityParams} {resolved : ResolvedCapability}
    (h : resolveCapabilityRequest loaded params = .ok resolved) :
    ∃ parsed chain matching,
      (params.selectors.getD []).mapM parseResourceSelector = .ok parsed ∧
      params.resources.mapM (resourceRef loaded
        (parsed.foldl setSelector Table.empty)) = .ok chain ∧
      matchingOperations loaded.adapter.operations params.resources =
        .ok matching ∧
      params.actions.mapM (actionDetail loaded params.resources chain
        matching) = .ok resolved.details ∧
      params.resources ≠ [] ∧ params.actions ≠ [] := by
  unfold resolveCapabilityRequest at h
  by_cases hResources : params.resources.isEmpty = true
  · rw [if_pos hResources] at h
    cases h
  · rw [if_neg hResources] at h
    by_cases hActions : params.actions.isEmpty = true
    · rw [if_pos hActions] at h
      cases h
    · rw [if_neg hActions] at h
      obtain ⟨parsed, hParsed, h⟩ := bind_eq_ok.mp h
      obtain ⟨chain, hChain, h⟩ := bind_eq_ok.mp h
      obtain ⟨matching, hMatching, h⟩ := bind_eq_ok.mp h
      by_cases hNone : matching.isEmpty = true
      · rw [if_pos hNone] at h
        cases h
      · rw [if_neg hNone] at h
        obtain ⟨details, hDetails, h⟩ := bind_eq_ok.mp h
        cases h
        exact ⟨parsed, chain, matching, hParsed, hChain, hMatching, hDetails,
          fun hEmpty => hResources (List.isEmpty_iff.mpr hEmpty),
          fun hEmpty => hActions (List.isEmpty_iff.mpr hEmpty)⟩

theorem chain_of_covers {granted required : CliAuthorizationDetail}
    (h : cliAuthorizationDetailCovers granted required = true) :
    resourceChainCovers granted.resourceChain required.resourceChain =
      true := by
  unfold cliAuthorizationDetailCovers at h
  split_ifs at h
  exact h

theorem resources_of_buildCliAuthDetail {cliId : JsString}
    {operation : ShapeMatchOperation} {bindings : Record}
    {rendered : CliAuthorizationDetail}
    (h : buildCliAuthDetail cliId operation bindings = .ok rendered) :
    rendered.resourceChain.map CliResourceRef.resource =
      operation.resourceChain.map (fun entry => (chainEntry entry).1) := by
  obtain ⟨chain, hChain, h⟩ := bind_eq_ok.mp h
  obtain ⟨display, _, h⟩ := bind_eq_ok.mp h
  cases h
  exact map_of_mapM hChain (fun _ _ => resource_of_parseChainEntry)

/-- What a detail is made of. -/
theorem actionDetail_eq_ok {loaded : LoadedAdapter}
    {resources : List JsString} {chain : List CliResourceRef}
    {matching : List ShapeMatchOperation} {action : JsString}
    {detail : CliAuthorizationDetail}
    (h : actionDetail loaded resources chain matching action = .ok detail) :
    detail.cliId = loaded.adapter.cli.id ∧ detail.resourceChain = chain ∧
      detail.action = action ∧
      detail.risk = (matching.filter (fun operation =>
        operation.action = action)).foldl raiseRisk .low := by
  unfold actionDetail at h
  dsimp only at h
  split at h
  · cases h
  · cases h
    exact ⟨rfl, rfl, rfl, rfl⟩

/-! ## Never wider than asked -/

/-- The selector stands in the chain with its full value: its resource is
there, and every entry of the resource has the value under the key. -/
def Kept (selector : ParsedSelector) (chain : List CliResourceRef) : Prop :=
  (∃ ref ∈ chain, ref.resource = selector.resource) ∧
    ∀ ref ∈ chain, ref.resource = selector.resource →
      valueOf ref selector.key = some selector.value

/-- The risk of the detail is at least that of every operation of its action
that renders to something it covers. -/
def RiskBounds (loaded : LoadedAdapter) (detail : CliAuthorizationDetail) :
    Prop :=
  ∀ operation ∈ loaded.adapter.operations, operation.action = detail.action →
    ∀ bindings rendered,
      buildCliAuthDetail loaded.adapter.cli.id operation bindings =
        .ok rendered →
      cliAuthorizationDetailCovers detail rendered = true →
      risks.idxOf operation.risk ≤ risks.idxOf detail.risk

structure NeverWider (loaded : LoadedAdapter) (params : CapabilityParams)
    (resolved : ResolvedCapability) : Prop where
  kept : ∀ raw ∈ params.selectors.getD [], ∀ detail ∈ resolved.details,
    Kept (selectorOf raw) detail.resourceChain
  risk : ∀ detail ∈ resolved.details, RiskBounds loaded detail

/-- The selector is read in full, and no other one of the request says
something else of the same key. -/
structure Plain (params : CapabilityParams) (selector : ParsedSelector) :
    Prop where
  value : unit '=' ∉ selector.value
  key : unit '.' ∉ selector.key ∧ selector.key ≠ js "__proto__"
  listed : selector.resource ∈ params.resources
  only : ∀ raw ∈ params.selectors.getD [],
    (selectorOf raw).resource = selector.resource →
    (selectorOf raw).key = selector.key →
    (selectorOf raw).value = selector.value

/-- **The risk covers what the detail covers**, whatever the selectors. -/
theorem riskBounds {loaded : LoadedAdapter} {params : CapabilityParams}
    {resolved : ResolvedCapability}
    (h : resolveCapabilityRequest loaded params = .ok resolved) :
    ∀ detail ∈ resolved.details, RiskBounds loaded detail := by
  obtain ⟨parsed, chain, matching, _, hChain, hMatching, hDetails, hNe, _⟩ :=
    resolveCapabilityRequest_eq_ok h
  intro detail hDetail operation hOperation hAction bindings rendered
    hRendered hCovers
  obtain ⟨action, _, hOk⟩ := exists_of_mem_mapM hDetails hDetail
  obtain ⟨_, hRefs, hName, hRisk⟩ := actionDetail_eq_ok hOk
  have hBelow : params.resources <+:
      operation.resourceChain.map (fun entry => (chainEntry entry).1) := by
    rw [← resources_of_chain hChain, ← resources_of_buildCliAuthDetail hRendered,
      ← hRefs]
    exact resources_of_resourceChainCovers (chain_of_covers hCovers)
  have hMatch := mem_matchingOperations hMatching hNe hOperation hBelow
  rw [hRisk]
  refine (raiseRisk_le _ .low).2 operation (List.mem_filter.mpr ⟨hMatch, ?_⟩)
  rw [hAction, hName, decide_eq_true_eq]

end Resolution

/-! ## When the selectors are kept -/

/-- The selectors as they were read. -/
theorem parsed_eq_cut {selectors : List JsString}
    {parsed : List ParsedSelector}
    (h : selectors.mapM parseResourceSelector = .ok parsed) :
    parsed = selectors.map (fun raw => cut (selectorOf raw)) := by
  have hMap := map_of_mapM h (g := id) (k := fun raw => cut (selectorOf raw))
    (fun _ _ hOk => (parseResourceSelector_eq_ok hOk).2)
  rwa [List.map_id] at hMap

/-- What the chain holds for a resource and a key. -/
theorem kept_iff {loaded : LoadedAdapter} {selectors : SelectorMap}
    {resources : List JsString} {chain : List CliResourceRef}
    (hChain : resources.mapM (resourceRef loaded selectors) = .ok chain)
    (selector : ParsedSelector) :
    Kept selector chain ↔ selector.resource ∈ resources ∧
      selectedIn selectors selector.resource selector.key =
        some selector.value := by
  have hValue : ∀ ref ∈ chain, ∀ key,
      valueOf ref key = selectedIn selectors ref.resource key := by
    intro ref hRef key
    obtain ⟨resource, _, hOk⟩ := exists_of_mem_mapM hChain hRef
    obtain ⟨rfl, hSelected⟩ := resourceRef_eq_ok hOk
    exact hSelected key
  have hListed : selector.resource ∈ resources ↔
      ∃ ref ∈ chain, ref.resource = selector.resource := by
    rw [← resources_of_chain hChain, List.mem_map]
  unfold Kept
  rw [hListed]
  constructor
  · rintro ⟨⟨ref, hRef, hSame⟩, hAll⟩
    refine ⟨⟨ref, hRef, hSame⟩, ?_⟩
    rw [← hSame, ← hValue ref hRef]
    exact hAll ref hRef hSame
  · rintro ⟨hExists, hSelected⟩
    refine ⟨hExists, fun ref hRef hSame => ?_⟩
    rw [hValue ref hRef, hSame]
    exact hSelected

/-- **A selector that the chain holds** was read in full, and is the only one
of its name. -/
theorem plain_of_kept {params : CapabilityParams} {selectors : SelectorMap}
    (hSelectors : selectors = ((params.selectors.getD []).map
      (fun raw => cut (selectorOf raw))).foldl setSelector Table.empty)
    (hAll : ∀ raw ∈ params.selectors.getD [],
      (selectorOf raw).resource ∈ params.resources ∧
        selectedIn selectors (selectorOf raw).resource (selectorOf raw).key =
          some (selectorOf raw).value) {raw : JsString}
    (hRaw : raw ∈ params.selectors.getD []) :
    Plain params (selectorOf raw) := by
  obtain ⟨hListed, hSelected⟩ := hAll raw hRaw
  have hFound := hSelected
  rw [hSelectors, selectedIn_foldl] at hFound
  by_cases hProto : (selectorOf raw).key = js "__proto__"
  · rw [if_pos hProto] at hFound
    cases hFound
  · rw [if_neg hProto, Option.map_eq_some_iff] at hFound
    obtain ⟨read, hFind, hRead⟩ := hFound
    have hName := List.find?_some hFind
    rw [decide_eq_true_eq] at hName
    obtain ⟨other, _, rfl⟩ := List.mem_map.mp
      (List.mem_reverse.mp (List.mem_of_find?_eq_some hFind))
    -- what was read has neither sign left
    refine ⟨?_, ⟨?_, hProto⟩, hListed, ?_⟩
    · rw [← hRead]
      exact takeWhile_eq_self.mp List.takeWhile_idem
    · rw [← hName.2]
      exact takeWhile_eq_self.mp List.takeWhile_idem
    · intro other hOther hResource hKey
      have hSame := (hAll other hOther).2
      rw [hResource, hKey, hSelected] at hSame
      exact (Option.some.inj hSame).symm

/-- **A plain selector is kept**, when all others are plain too. -/
theorem selectedIn_of_plain {params : CapabilityParams}
    {selectors : SelectorMap}
    (hSelectors : selectors = ((params.selectors.getD []).map
      (fun raw => cut (selectorOf raw))).foldl setSelector Table.empty)
    (hAll : ∀ raw ∈ params.selectors.getD [], Plain params (selectorOf raw))
    {raw : JsString} (hRaw : raw ∈ params.selectors.getD []) :
    selectedIn selectors (selectorOf raw).resource (selectorOf raw).key =
      some (selectorOf raw).value := by
  have hCut : ∀ other ∈ params.selectors.getD [],
      cut (selectorOf other) = selectorOf other := by
    intro other hOther
    unfold cut
    rw [takeWhile_eq_self.mpr (hAll other hOther).value,
      takeWhile_eq_self.mpr (hAll other hOther).key.1]
  rw [hSelectors, selectedIn_foldl, if_neg (hAll raw hRaw).key.2]
  cases hFind : ((params.selectors.getD []).map
      (fun raw => cut (selectorOf raw))).reverse.find? (fun selector =>
        selector.resource = (selectorOf raw).resource ∧
          selector.key = (selectorOf raw).key) with
  | none =>
      have hMiss := List.find?_eq_none.mp hFind (selectorOf raw)
        (List.mem_reverse.mpr
          (List.mem_map.mpr ⟨raw, hRaw, hCut raw hRaw⟩))
      exact absurd (decide_eq_true ⟨rfl, rfl⟩) hMiss
  | some read =>
      have hName := List.find?_some hFind
      rw [decide_eq_true_eq] at hName
      obtain ⟨other, hOther, rfl⟩ := List.mem_map.mp
        (List.mem_reverse.mp (List.mem_of_find?_eq_some hFind))
      rw [hCut other hOther] at hName ⊢
      exact congrArg some ((hAll raw hRaw).only other hOther hName.1 hName.2)

section Width

variable [Collation]

/-- A request that is answered as it was asked has plain selectors only. -/
theorem plain_of_neverWider {loaded : LoadedAdapter}
    {params : CapabilityParams} {resolved : ResolvedCapability}
    (h : resolveCapabilityRequest loaded params = .ok resolved)
    (hNever : NeverWider loaded params resolved) {raw : JsString}
    (hRaw : raw ∈ params.selectors.getD []) :
    Plain params (selectorOf raw) := by
  obtain ⟨parsed, chain, matching, hParsed, hChain, _, hDetails, _, hActions⟩ :=
    resolveCapabilityRequest_eq_ok h
  rw [parsed_eq_cut hParsed] at hChain
  obtain ⟨action, hAction⟩ := List.exists_mem_of_ne_nil _ hActions
  obtain ⟨detail, hOk, hZip⟩ := exists_zip_of_mapM hDetails hAction
  have hDetail := (List.of_mem_zip hZip).2
  refine plain_of_kept rfl (fun other hOther => ?_) hRaw
  have hKept := hNever.kept other hOther detail hDetail
  rw [(actionDetail_eq_ok hOk).2.1] at hKept
  exact (kept_iff hChain _).mp hKept

/-- A request with plain selectors is answered as it was asked. -/
theorem kept_of_plain {loaded : LoadedAdapter} {params : CapabilityParams}
    {resolved : ResolvedCapability}
    (h : resolveCapabilityRequest loaded params = .ok resolved)
    (hPlain : ∀ raw ∈ params.selectors.getD [],
      Plain params (selectorOf raw)) {raw : JsString}
    (hRaw : raw ∈ params.selectors.getD [])
    {detail : CliAuthorizationDetail} (hDetail : detail ∈ resolved.details) :
    Kept (selectorOf raw) detail.resourceChain := by
  obtain ⟨parsed, chain, matching, hParsed, hChain, _, hDetails, _, _⟩ :=
    resolveCapabilityRequest_eq_ok h
  rw [parsed_eq_cut hParsed] at hChain
  obtain ⟨action, _, hOk⟩ := exists_of_mem_mapM hDetails hDetail
  rw [(actionDetail_eq_ok hOk).2.1]
  exact (kept_iff hChain _).mpr
    ⟨(hPlain raw hRaw).listed, selectedIn_of_plain rfl hPlain hRaw⟩

/-- **A capability is never wider than asked** exactly when every selector is
plain. -/
theorem neverWider_iff (loaded : LoadedAdapter) (params : CapabilityParams)
    (resolved : ResolvedCapability)
    (h : resolveCapabilityRequest loaded params = .ok resolved) :
    NeverWider loaded params resolved ↔
      ∀ raw ∈ params.selectors.getD [], Plain params (selectorOf raw) :=
  ⟨fun hNever _ hRaw => plain_of_neverWider h hNever hRaw,
    fun hPlain => ⟨fun _ hRaw _ hDetail => kept_of_plain h hPlain hRaw hDetail,
      riskBounds h⟩⟩

end Width

/-- An adapter that reads a repository. -/
def repoAdapter : LoadedAdapter where
  adapter :=
    { schema := js "openape-shapes/v1"
      cli := { id := js "gh", executable := js "gh" }
      operations :=
        [{ id := js "repo.view"
           command := [js "repo", js "view"]
           positionals := some [js "name"]
           display := js "View"
           action := js "read"
           risk := .medium
           resourceChain := [js "repo:name=\x7bname\x7d"] }] }
  source := js "/gh.toml"
  digest := js "d"

def repoParams (selector : String) : CapabilityParams where
  resources := [js "repo"]
  selectors := some [js selector]
  actions := [js "read"]

theorem neverWider_iff_repo : ∃ resolved,
    @resolveCapabilityRequest codeUnitCollation repoAdapter
      (repoParams "repo.name=a/b") = .ok resolved ∧
    @NeverWider codeUnitCollation repoAdapter (repoParams "repo.name=a/b")
      resolved := by
  let _ := codeUnitCollation
  obtain ⟨resolved, h⟩ := isOk_iff.mp (show (resolveCapabilityRequest
    repoAdapter (repoParams "repo.name=a/b")).isOk = true by decide)
  refine ⟨resolved, h, (neverWider_iff _ _ _ h).mpr fun raw hRaw => ?_⟩
  obtain rfl := List.mem_singleton.mp hRaw
  refine ⟨by decide, by decide, by decide, fun other hOther _ _ => ?_⟩
  rw [List.mem_singleton.mp hOther]

/-- A value with an equals sign loses what follows it. -/
theorem resolveCapabilityRequest_cut : ∃ resolved,
    @resolveCapabilityRequest codeUnitCollation repoAdapter
      (repoParams "repo.name=a=b") = .ok resolved ∧
    ¬@NeverWider codeUnitCollation repoAdapter (repoParams "repo.name=a=b")
      resolved := by
  let _ := codeUnitCollation
  obtain ⟨resolved, h⟩ := isOk_iff.mp (show (resolveCapabilityRequest
    repoAdapter (repoParams "repo.name=a=b")).isOk = true by decide)
  refine ⟨resolved, h, fun hNever => ?_⟩
  have hPlain := plain_of_neverWider h hNever List.mem_cons_self
  exact absurd hPlain.value (by decide)

end OpenApe.Ports.CapabilityWidth
