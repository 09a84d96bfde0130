import OpenApe.Ports.NestedPackages

/-!
# What the walk through a lock has found

Each turn of the walk is one expansion of a worklist walk over the
dependencies that Node's lookup finds, and each dependency it passes is
settled: it has a version in its range, or is optional and missing.  So an
accepted lock has exactly the entries that dependencies reach, and names those
that are required, and their required children.
-/

namespace OpenApe.Ports.LockWalk

open Verified.JsText Verified.Fallible Verified.KeyedTable Verified.Worklist
open LockEntries ImportedLock

/-! ## The graph -/

/-- What is installed at a path; the root is the package of the Pod. -/
def itemAt (entries : Entries) (manifest : Record) (path : JsString) :
    Option LockEntry :=
  if path = [] then some (rootItem manifest)
  else (entries.find? path).map Prod.snd

/-- Where a dependency leads, if anywhere. -/
def edgeOf (entries : Entries) (path : JsString) (d : Dependency) :
    Option (Edge JsString) :=
  (resolve entries path d.name).map fun found => ⟨found.1, d.optional⟩

/-- The edges of the package at a path. -/
def edgesAt (entries : Entries) (manifest : Record) (path : JsString) :
    List (Edge JsString) :=
  match itemAt entries manifest path with
  | none => []
  | some item => (dependenciesOf item).filterMap (edgeOf entries path)

/-- A dependency that the walk may pass. -/
def Settled (entries : Entries) (satisfies : JsString → JsString → Bool)
    (path : JsString) (d : Dependency) : Prop :=
  match resolve entries path d.name with
  | none => d.optional = true
  | some (_, dependency) => satisfies dependency.version d.range = true

/-- `requiredChildren.get(path) ?? []` -/
def childrenOf (children : List (JsString × List JsString))
    (path : JsString) : List JsString :=
  (children.lookup path).getD []

theorem mem_childrenOf_addChild {children : List (JsString × List JsString)}
    {path target q x : JsString} :
    x ∈ childrenOf (addChild children path target) q ↔
      x ∈ childrenOf children q ∨ q = path ∧ x = target := by
  unfold childrenOf
  induction children with
  | nil =>
      rw [addChild]
      by_cases hq : q = path
      · simp [hq]
      · have hNe : (q == path) = false := beq_eq_false_iff_ne.mpr hq
        simp [List.lookup_cons, hq, hNe]
  | cons child rest ih =>
      obtain ⟨parent, targets⟩ := child
      rw [addChild]
      by_cases hParent : parent = path
      · rw [if_pos hParent]
        by_cases hq : q = path
        · simp [hParent, hq]
        · have hNe : (q == parent) = false := by
            rw [hParent]
            exact beq_eq_false_iff_ne.mpr hq
          simp [List.lookup_cons, hNe, hq]
      · rw [if_neg hParent]
        by_cases hq : q = parent
        · have hOther : q ≠ path := hq ▸ hParent
          simp [hq, hParent]
        · have hNe : (q == parent) = false := beq_eq_false_iff_ne.mpr hq
          simp only [List.lookup_cons, hNe]
          exact ih

/-! ## One package -/

/-- The state as a walk over paths. -/
def walkOf (s : State) : Walk JsString :=
  ⟨s.visited, s.required, s.pending.map fun p => (p.1, p.2.2)⟩

/-- What following dependencies has done. -/
structure Followed (entries : Entries)
    (satisfies : JsString → JsString → Bool) (path : JsString)
    (mandatory : Bool) (dependencies : List Dependency) (s s' : State) :
    Prop where
  settled : ∀ d ∈ dependencies, Settled entries satisfies path d
  walk : walkOf s' = (walkOf s).expand mandatory
    (dependencies.filterMap (edgeOf entries path))
  children : ∀ q x, x ∈ childrenOf s'.requiredChildren q ↔
    x ∈ childrenOf s.requiredChildren q ∨ q = path ∧
      ∃ e ∈ dependencies.filterMap (edgeOf entries path),
        e.optional = false ∧ e.target = x
  items : ∀ p ∈ s'.pending, p ∈ s.pending ∨
    entries.find? p.1 = some (p.1, p.2.1)

/-- The entry that a lookup finds is the one at its path. -/
theorem find?_of_resolveFrom {entries : Entries} {name : JsString}
    {turns : Nat} {path : JsString} {found : JsString × LockEntry}
    (h : resolveFrom entries name turns path = some found) :
    entries.find? found.1 = some found := by
  induction turns generalizing path with
  | zero => cases h
  | succ turns ih =>
      rw [resolveFrom] at h
      cases hFound : entries.find? (candidate path name) with
      | some row =>
          rw [hFound] at h
          rw [← Option.some.inj h, Table.key_of_find? hFound, hFound]
      | none =>
          rw [hFound] at h
          dsimp only at h
          split at h
          · cases h
          · exact ih h

theorem find?_of_resolve {entries : Entries} {path name : JsString}
    {found : JsString × LockEntry}
    (h : resolve entries path name = some found) :
    entries.find? found.1 = some found :=
  find?_of_resolveFrom h

theorem followed_follow {entries : Entries}
    {satisfies : JsString → JsString → Bool} {path : JsString}
    {mandatory : Bool} {s s' : State} {d : Dependency}
    (h : follow entries satisfies path mandatory s d = .ok s') :
    Followed entries satisfies path mandatory [d] s s' := by
  have hEdges : [d].filterMap (edgeOf entries path) =
      (edgeOf entries path d).toList := by
    cases hEdge : edgeOf entries path d <;> simp [hEdge]
  unfold follow at h
  cases hResolve : resolve entries path d.name with
  | none =>
      have hEdge : edgeOf entries path d = none := by
        rw [edgeOf, hResolve]
        rfl
      rw [hResolve] at h
      dsimp only at h
      split at h
      · rename_i hOptional
        cases h
        refine ⟨fun d' hd => ?_, ?_, fun q x => ?_, fun p hp => .inl hp⟩
        · rw [List.mem_singleton.mp hd, Settled, hResolve]
          exact hOptional
        · rw [hEdges, hEdge]
          rfl
        · rw [hEdges, hEdge]
          simp
      · cases h
  | some found =>
      obtain ⟨target, dependency⟩ := found
      have hEdge : edgeOf entries path d = some ⟨target, d.optional⟩ := by
        rw [edgeOf, hResolve]
        rfl
      have hFound := find?_of_resolve hResolve
      rw [hResolve] at h
      dsimp only at h
      split at h
      · cases h
      · rename_i hSatisfies
        rw [Bool.not_eq_true', Bool.not_eq_false] at hSatisfies
        have hChildren : ∀ q x, x ∈ childrenOf (if d.optional then s else
            { s with requiredChildren :=
                addChild s.requiredChildren path target }).requiredChildren q ↔
            x ∈ childrenOf s.requiredChildren q ∨ q = path ∧
              ∃ e ∈ (edgeOf entries path d).toList,
                e.optional = false ∧ e.target = x := by
          intro q x
          rw [hEdge]
          cases hOptional : d.optional with
          | true => simp
          | false =>
              rw [if_neg Bool.false_ne_true, mem_childrenOf_addChild]
              refine or_congr_right (and_congr_right fun _ => ⟨?_, ?_⟩)
              · rintro rfl
                exact ⟨_, List.mem_singleton_self _, rfl, rfl⟩
              · rintro ⟨e, he, -, rfl⟩
                rw [List.mem_singleton.mp he]
        have hSame : ∀ s₀ : State, s₀ = (if d.optional then s else
            { s with requiredChildren :=
                addChild s.requiredChildren path target }) →
            walkOf s₀ = walkOf s ∧ s₀.pending = s.pending := by
          rintro s₀ rfl
          cases d.optional <;> exact ⟨rfl, rfl⟩
        generalize hMid : (if d.optional then s else
            { s with requiredChildren :=
                addChild s.requiredChildren path target }) = s₀ at h hChildren
        obtain ⟨hWalk, hPending⟩ := hSame s₀ hMid.symm
        have hSettled : ∀ d' ∈ [d], Settled entries satisfies path d' := by
          intro d' hd
          rw [List.mem_singleton.mp hd, Settled, hResolve]
          exact hSatisfies
        have hMark : (walkOf s₀).mark (mandatory && !d.optional) target =
            (walkOf s).expand mandatory (edgeOf entries path d).toList := by
          rw [hEdge, hWalk]
          rfl
        split at h
        · rename_i hSkip
          cases h
          refine ⟨hSettled, ?_, hEdges ▸ hChildren, fun p hp => ?_⟩
          · rw [hEdges, ← hMark, Walk.mark]
            exact (if_pos hSkip).symm
          · rw [hPending] at hp
            exact .inl hp
        · rename_i hSkip
          cases h
          refine ⟨hSettled, ?_, hEdges ▸ hChildren, fun p hp => ?_⟩
          · rw [hEdges, ← hMark, Walk.mark]
            exact (if_neg hSkip).symm
          · rcases List.mem_cons.mp hp with rfl | hOld
            · exact .inr hFound
            · rw [hPending] at hOld
              exact .inl hOld

theorem Followed.trans {entries : Entries}
    {satisfies : JsString → JsString → Bool} {path : JsString}
    {mandatory : Bool} {s s' s'' : State} {d : Dependency}
    {rest : List Dependency}
    (h : Followed entries satisfies path mandatory [d] s s')
    (h' : Followed entries satisfies path mandatory rest s' s'') :
    Followed entries satisfies path mandatory (d :: rest) s s'' := by
  have hEdges : (d :: rest).filterMap (edgeOf entries path) =
      [d].filterMap (edgeOf entries path) ++
        rest.filterMap (edgeOf entries path) := by
    rw [← List.filterMap_append]
    rfl
  refine ⟨fun d' hd => ?_, ?_, fun q x => ?_, fun p hp => ?_⟩
  · rcases List.mem_cons.mp hd with rfl | hRest
    · exact h.settled d' List.mem_cons_self
    · exact h'.settled d' hRest
  · rw [h'.walk, h.walk, hEdges, Walk.expand, Walk.expand, Walk.expand,
      List.foldl_append]
  · rw [h'.children, h.children, hEdges]
    simp only [List.mem_append, or_and_right, exists_or]
    rw [or_assoc, ← and_or_left]
  · rcases h'.items p hp with hMid | hFound
    · exact h.items p hMid
    · exact .inr hFound

/-- The loop over the dependencies of a package. -/
theorem followed_foldlM {entries : Entries}
    {satisfies : JsString → JsString → Bool} {path : JsString}
    {mandatory : Bool} {dependencies : List Dependency} {s s' : State}
    (h : dependencies.foldlM (follow entries satisfies path mandatory) s =
      .ok s') :
    Followed entries satisfies path mandatory dependencies s s' := by
  induction dependencies generalizing s with
  | nil =>
      have hSame : s = s' := Except.ok.inj h
      rw [hSame]
      exact ⟨fun d hd => (by cases hd), rfl, by simp, fun p hp => .inl hp⟩
  | cons d rest ih =>
      rw [List.foldlM_cons, bind_eq_ok] at h
      obtain ⟨mid, hFirst, hRest⟩ := h
      exact (followed_follow hFirst).trans (ih hRest)

/-! ## The whole walk -/

section Exploring

variable {entries : Entries} {manifest : Record}
  {satisfies : JsString → JsString → Bool}

/-- What holds of a package after its dependencies were followed. -/
structure Finished (entries : Entries) (manifest : Record)
    (satisfies : JsString → JsString → Bool) (s : State) (path : JsString) :
    Prop where
  settled : ∀ item, itemAt entries manifest path = some item →
    ∀ d ∈ dependenciesOf item, Settled entries satisfies path d
  children : ∀ e ∈ edgesAt entries manifest path, e.optional = false →
    e.target ∈ childrenOf s.requiredChildren path

/-- What holds while packages are pending. -/
structure Explored (entries : Entries) (manifest : Record)
    (satisfies : JsString → JsString → Bool) (s : State) : Prop where
  walk : Invariant (edgesAt entries manifest) [] (walkOf s)
  items : ∀ p ∈ s.pending, itemAt entries manifest p.1 = some p.2.1
  finished : ∀ v, v = [] ∨ v ∈ s.visited →
    (∃ m, (v, m) ∈ (walkOf s).pending) ∨
      Finished entries manifest satisfies s v
  children : ∀ v x, x ∈ childrenOf s.requiredChildren v →
    ∃ e ∈ edgesAt entries manifest v, e.optional = false ∧ e.target = x
  nodup : s.visited.Nodup ∧ s.required.Nodup

/-- Where the walk begins. -/
def startState (manifest : Record) : State :=
  ⟨[], [], [], [([], rootItem manifest, true)]⟩

theorem explored_start :
    Explored entries manifest satisfies (startState manifest) := by
  refine ⟨invariant_start, fun p hp => ?_, fun v hv => .inl ?_,
    fun v x hx => ?_, List.nodup_nil, List.nodup_nil⟩
  · rw [List.mem_singleton.mp hp]
    exact if_pos rfl
  · rcases hv with rfl | hMem
    · exact ⟨true, List.mem_singleton_self _⟩
    · cases hMem
  · cases hx

theorem edgesAt_of_item {path : JsString} {item : LockEntry}
    (h : itemAt entries manifest path = some item) :
    edgesAt entries manifest path =
      (dependenciesOf item).filterMap (edgeOf entries path) := by
  rw [edgesAt, h]

/-- One turn of the walk keeps the invariant. -/
theorem Explored.turn {s s' : State}
    (hRoot : entries.find? [] = none)
    (h : Explored entries manifest satisfies s) {path : JsString}
    {item : LockEntry} {mandatory : Bool}
    {rest : List (JsString × LockEntry × Bool)}
    (hPending : s.pending = (path, item, mandatory) :: rest)
    (hTurn : Followed entries satisfies path mandatory (dependenciesOf item)
      { s with pending := rest } s') :
    Explored entries manifest satisfies s' := by
  have hItem : itemAt entries manifest path = some item := by
    refine h.items (path, item, mandatory) ?_
    rw [hPending]
    exact List.mem_cons_self
  have hEdges := edgesAt_of_item hItem
  have hWaits : (walkOf s).pending =
      (path, mandatory) :: rest.map fun p => (p.1, p.2.2) := by
    rw [walkOf, hPending]
    rfl
  have hWalk := h.walk.expand hWaits
  rw [hEdges] at hWalk
  have hStep := expanded_expand (walkOf { s with pending := rest }) mandatory
    ((dependenciesOf item).filterMap (edgeOf entries path))
  have hNodup := nodup_expand h.nodup mandatory
    ((dependenciesOf item).filterMap (edgeOf entries path))
    (w := walkOf { s with pending := rest })
  rw [← hTurn.walk] at hStep hNodup
  refine ⟨hTurn.walk ▸ hWalk, fun p hp => ?_, fun v hv => ?_,
    fun v x hx => ?_, hNodup⟩
  · rcases hTurn.items p hp with hOld | hFound
    · refine h.items p ?_
      rw [hPending]
      exact List.mem_cons_of_mem _ hOld
    · have hPath : p.1 ≠ [] := fun hNil => by
        rw [hNil, hRoot] at hFound
        cases hFound
      rw [itemAt, if_neg hPath, hFound]
      rfl
  · by_cases hSelf : v = path
    · refine .inr ⟨fun item' hItem' => ?_, fun e he hNeeded => ?_⟩
      · rw [hSelf, hItem] at hItem'
        rw [← Option.some.inj hItem', hSelf]
        exact hTurn.settled
      · rw [hSelf, hEdges] at he
        exact (hTurn.children v e.target).mpr
          (.inr ⟨hSelf, e, he, hNeeded, rfl⟩)
    · have hBefore : (v = [] ∨ v ∈ s.visited) ∨
          ∃ m, (v, m) ∈ (walkOf s').pending := by
        rcases hv with hStart | hMem
        · exact .inl (.inl hStart)
        · rcases hStep.opened v hMem with hOld | hNew
          · exact .inl (.inr hOld)
          · exact .inr hNew
      rcases hBefore with hOld | hNew
      · rcases h.finished v hOld with ⟨m, hm⟩ | hDone
        · rw [hWaits] at hm
          rcases List.mem_cons.mp hm with hEq | hRest
          · exact absurd (congrArg Prod.fst hEq) hSelf
          · exact .inl ⟨m, hStep.kept hRest⟩
        · refine .inr ⟨hDone.settled, fun e he hNeeded => ?_⟩
          exact (hTurn.children v e.target).mpr
            (.inl (hDone.children e he hNeeded))
      · exact .inl hNew
  · rcases (hTurn.children v x).mp hx with hOld | ⟨rfl, hEdge⟩
    · exact h.children v x hOld
    · rw [hEdges]
      exact hEdge

/-- Every edge leads to an entry. -/
theorem isEntry_of_edge {path : JsString} {e : Edge JsString}
    (h : e ∈ edgesAt entries manifest path) :
    e.target ∈ entries.rows.map Prod.fst := by
  unfold edgesAt at h
  split at h
  · cases h
  · obtain ⟨d, -, hEdge⟩ := List.mem_filterMap.mp h
    obtain ⟨found, hFound, rfl⟩ := Option.map_eq_some_iff.mp hEdge
    exact List.mem_map.mpr
      ⟨found, Table.mem_of_find? (find?_of_resolve hFound), rfl⟩

theorem isEntry_of_reaches {path : JsString}
    (h : Reaches (edgesAt entries manifest) [] path) :
    path ∈ entries.rows.map Prod.fst := by
  cases h with
  | first hEdge => exact isEntry_of_edge hEdge
  | step _ hEdge => exact isEntry_of_edge hEdge

/-- Only entries are visited, each once. -/
theorem Explored.visited_subperm {s : State}
    (h : Explored entries manifest satisfies s) :
    s.visited.Subperm (entries.rows.map Prod.fst) :=
  List.subperm_of_subset h.nodup.1 fun v hv =>
    isEntry_of_reaches (h.walk.visited v hv)

theorem Explored.length_le {s : State}
    (h : Explored entries manifest satisfies s) :
    s.visited.length ≤ entries.rows.length ∧
      s.required.length ≤ entries.rows.length := by
  have hRequired : s.required.Subperm s.visited :=
    List.subperm_of_subset h.nodup.2 fun v hv => (h.walk.required v hv).1
  have hLength := h.visited_subperm.length_le
  rw [List.length_map] at hLength
  exact ⟨hLength, hRequired.length_le.trans hLength⟩

/-- The walk comes to an end, and where it does not throw its invariant holds
with nothing pending. -/
theorem explore_ends (hRoot : entries.find? [] = none) (turns : Nat)
    (s : State) (h : Explored entries manifest satisfies s)
    (hTurns : s.pending.length + 2 * entries.rows.length <
      turns + s.visited.length + s.required.length) :
    ∃ result, explore entries satisfies turns s = some result ∧
      ∀ s', result = .ok s' →
        Explored entries manifest satisfies s' ∧ s'.pending = [] := by
  induction turns generalizing s with
  | zero =>
      have hBound := h.length_le
      omega
  | succ turns ih =>
      rw [explore]
      cases hPending : s.pending with
      | nil =>
          refine ⟨_, rfl, fun s' hEq => ?_⟩
          cases hEq
          exact ⟨h, hPending⟩
      | cons first rest =>
          obtain ⟨path, item, mandatory⟩ := first
          dsimp only
          cases hFold : (dependenciesOf item).foldlM
              (follow entries satisfies path mandatory)
              { s with pending := rest } with
          | error error =>
              exact ⟨_, rfl, fun s' hEq => (by cases hEq)⟩
          | ok next =>
              have hTurn := followed_foldlM hFold
              have hNext := h.turn hRoot hPending hTurn
              have hGrown := length_expand_le
                (walkOf { s with pending := rest }) mandatory
                ((dependenciesOf item).filterMap (edgeOf entries path))
              rw [← hTurn.walk] at hGrown
              simp only [walkOf, List.length_map] at hGrown
              refine ih next hNext ?_
              rw [hPending, List.length_cons] at hTurns
              omega

end Exploring

end OpenApe.Ports.LockWalk
