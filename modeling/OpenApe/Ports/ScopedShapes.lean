import OpenApe.Ports.ProgramAuthorization

/-!
# The shapes of one scope (`packages/grants/src/shape-registry.ts`)

The shapes a call is read with come from three tiers: those of the owner,
those of the owner's email domain, and those of the registry.  An upper tier
hides every shape below that shares a name with it, except where the name is
one of the Pods desktop.
-/

namespace OpenApe.Ports.ScopedShapes

open Verified.JsText Verified.KeyedTable
open ShapeTiers (ServerShape ShapeSource desktopOwnShapeIds)
open ProgramAuthorization

/-! ## The source -/

/-- A `ShapeStore` as it is read; the two upper tiers are optional. -/
structure TieredStore where
  listShapes : ShapeStore
  listOwnerShapes : Option (JsString → ShapeStore) := none
  listDomainShapes : Option (JsString → ShapeStore) := none

structure ShapeScope where
  owner : Option JsString := none
  domain : Option JsString := none

def names (shapes : List ServerShape) : List JsString :=
  shapes.flatMap (fun shape => [shape.cliId, shape.executable])

def notIn (taken : List JsString) (shape : ServerShape) : Bool :=
  !taken.contains shape.cliId && !taken.contains shape.executable

/-- The tier a shape is marked with. -/
inductive TierKey where
  | owner (owner : JsString)
  | domain (domain : JsString)

/-- `scoped` -/
def scopedShape (tier : TierKey) (shape : ServerShape) : ServerShape :=
  { shape with
    testedDigests := none
    versions := none
    isVirtual := none
    owner := match tier with
      | .owner owner => some owner
      | .domain _ => none
    domain := match tier with
      | .owner _ => none
      | .domain domain => some domain
    source := .custom }

/-- `key && list ? () => list(key) : undefined` -/
def reader (key : Option JsString) (list : Option (JsString → ShapeStore)) :
    Option ShapeStore :=
  match key, list with
  | some key, some list => if key ≠ [] then some (list key) else none
  | _, _ => none

section View

variable (store : TieredStore) (scope : ShapeScope)

def readPersonal : Option ShapeStore :=
  reader scope.owner store.listOwnerShapes

def readDomain : Option ShapeStore :=
  reader scope.domain store.listDomainShapes

/-- The names that only the Pods desktop's own shapes may use. -/
def desktopNames : List JsString :=
  desktopOwnShapeIds ++
    names (store.listShapes.rows.filter
      (fun shape => shape.isVirtual == some true))

def ownShapes : List ServerShape :=
  ((readPersonal store scope).map Table.rows).getD []

def domainShapes : List ServerShape :=
  ((readDomain store scope).map Table.rows).getD []

/-- The personal tier of the view. -/
def personal : List ServerShape :=
  ((ownShapes store scope).filter (notIn (desktopNames store))).map
    (scopedShape (.owner (scope.owner.getD [])))

/-- The domain tier of the view. -/
def domainTier : List ServerShape :=
  (((domainShapes store scope).filter (notIn (desktopNames store))).filter
    (notIn (names (personal store scope)))).map
      (scopedShape (.domain (scope.domain.getD [])))

/-- The registry's shapes in the view. -/
def instanceTier : List ServerShape :=
  store.listShapes.rows.filter
    (notIn (names (personal store scope ++ domainTier store scope)))

def load : List ServerShape :=
  personal store scope ++ domainTier store scope ++ instanceTier store scope

end View

/-! ## Names -/

/-- Two shapes have a name in common. -/
def Shares (a b : ServerShape) : Prop :=
  ∃ name, name ∈ names [a] ∧ name ∈ names [b]

theorem mem_names {name : JsString} {shapes : List ServerShape} :
    name ∈ names shapes ↔ ∃ shape ∈ shapes, name ∈ names [shape] := by
  simp [names]

theorem notIn_eq_true {taken : List JsString} {shape : ServerShape} :
    notIn taken shape = true ↔ ∀ name ∈ names [shape], name ∉ taken := by
  simp [notIn, names]

/-- A shape passes when it shares no name with those that took theirs. -/
theorem notIn_names {shapes : List ServerShape} {shape : ServerShape} :
    notIn (names shapes) shape = true ↔
      ∀ other ∈ shapes, ¬Shares other shape := by
  rw [notIn_eq_true]
  constructor
  · rintro h other hOther ⟨name, hName, hShape⟩
    exact h name hShape (mem_names.mpr ⟨other, hOther, hName⟩)
  · intro h name hShape hTaken
    obtain ⟨other, hOther, hName⟩ := mem_names.mp hTaken
    exact h other hOther ⟨name, hName, hShape⟩

@[simp] theorem shares_scoped_left {tier : TierKey} {a b : ServerShape} :
    Shares (scopedShape tier a) b ↔ Shares a b := Iff.rfl

@[simp] theorem shares_scoped_right {tier : TierKey} {a b : ServerShape} :
    Shares a (scopedShape tier b) ↔ Shares a b := Iff.rfl

theorem shares_of_cliId {a b : ServerShape} (h : a.cliId = b.cliId) :
    Shares a b :=
  ⟨a.cliId, by simp [names], by simp [names, h]⟩

/-! ## The view as a store -/

theorem nodup_ownShapes (store : TieredStore) (scope : ShapeScope) :
    ((ownShapes store scope).map ServerShape.cliId).Nodup := by
  unfold ownShapes
  cases readPersonal store scope with
  | none => exact List.nodup_nil
  | some table => exact table.nodup

theorem nodup_domainShapes (store : TieredStore) (scope : ShapeScope) :
    ((domainShapes store scope).map ServerShape.cliId).Nodup := by
  unfold domainShapes
  cases readDomain store scope with
  | none => exact List.nodup_nil
  | some table => exact table.nodup

/-- No two shapes of different tiers of the view share a name. -/
structure TiersApart (store : TieredStore) (scope : ShapeScope) : Prop where
  domain : ∀ a ∈ personal store scope, ∀ b ∈ domainTier store scope,
    ¬Shares a b
  registry : ∀ a ∈ personal store scope ++ domainTier store scope,
    ∀ b ∈ instanceTier store scope, ¬Shares a b

theorem tiersApart (store : TieredStore) (scope : ShapeScope) :
    TiersApart store scope where
  domain := by
    intro a ha b hb
    obtain ⟨shape, hShape, rfl⟩ := List.mem_map.mp hb
    exact notIn_names.mp (List.mem_filter.mp hShape).2 a ha
  registry := by
    intro a ha b hb
    exact notIn_names.mp (List.mem_filter.mp hb).2 a ha

theorem nodup_load (store : TieredStore) (scope : ShapeScope) :
    ((load store scope).map ServerShape.cliId).Nodup := by
  have hPersonal : ((personal store scope).map ServerShape.cliId).Nodup := by
    rw [personal, List.map_map]
    exact (nodup_ownShapes store scope).sublist
      (List.Sublist.map _ List.filter_sublist)
  have hDomain : ((domainTier store scope).map ServerShape.cliId).Nodup := by
    rw [domainTier, List.map_map]
    exact (nodup_domainShapes store scope).sublist
      (List.Sublist.map _ (List.filter_sublist.trans List.filter_sublist))
  have hInstance : ((instanceTier store scope).map ServerShape.cliId).Nodup :=
    store.listShapes.nodup.sublist (List.Sublist.map _ List.filter_sublist)
  have hDisjoint : ∀ {upper lower : List ServerShape},
      (∀ a ∈ upper, ∀ b ∈ lower, ¬Shares a b) →
      (upper.map ServerShape.cliId).Disjoint
        (lower.map ServerShape.cliId) := by
    intro upper lower hApart cliId hUpper hLower
    obtain ⟨a, ha, rfl⟩ := List.mem_map.mp hUpper
    obtain ⟨b, hb, hSame⟩ := List.mem_map.mp hLower
    exact hApart a ha b hb (shares_of_cliId hSame.symm)
  have hApart := tiersApart store scope
  rw [load, List.map_append]
  refine List.Nodup.append ?_ hInstance (hDisjoint hApart.registry)
  rw [List.map_append]
  exact List.Nodup.append hPersonal hDomain (hDisjoint hApart.domain)

/-- `scopedShapeStore`: without a scope it is the registry itself. -/
def scopedShapeStore (store : TieredStore) (scope : ShapeScope) :
    ShapeStore :=
  if (readPersonal store scope).isNone ∧ (readDomain store scope).isNone then
    store.listShapes
  else ⟨load store scope, nodup_load store scope⟩

/-- The view lists its three tiers, also where it is the registry itself. -/
theorem rows_scopedShapeStore (store : TieredStore) (scope : ShapeScope) :
    (scopedShapeStore store scope).rows = load store scope := by
  unfold scopedShapeStore
  split
  · rename_i hNone
    have hPersonal : personal store scope = [] := by
      simp [personal, ownShapes, Option.isNone_iff_eq_none.mp hNone.1]
    have hDomain : domainTier store scope = [] := by
      simp [domainTier, domainShapes, Option.isNone_iff_eq_none.mp hNone.2]
    have hAll : ∀ shape ∈ store.listShapes.rows, notIn [] shape = true :=
      fun shape _ => by simp [notIn]
    rw [load, instanceTier, hPersonal, hDomain]
    exact (List.filter_eq_self.mpr hAll).symm
  · rfl

/-! ## What the view promises -/

section Promises

variable (store : TieredStore) (scope : ShapeScope)

/-- The shape goes by a name of an operation of the Pods desktop. -/
def DesktopNamed (shape : ServerShape) : Prop :=
  ∃ name ∈ names [shape], name ∈ desktopOwnShapeIds

/-- One tier per program name, and the right one. -/
structure ViewIsRight : Prop where
  apart : TiersApart store scope
  personalListed : ∀ shape ∈ ownShapes store scope,
    notIn (desktopNames store) shape = true →
      scopedShape (.owner (scope.owner.getD [])) shape ∈ personal store scope
  domainListed : ∀ shape ∈ domainShapes store scope,
    notIn (desktopNames store) shape = true →
      (scopedShape (.domain (scope.domain.getD [])) shape ∈
          domainTier store scope ↔
        ∀ upper ∈ personal store scope, ¬Shares upper shape)
  instanceListed : ∀ shape ∈ store.listShapes.rows,
    shape ∈ instanceTier store scope ↔
      ∀ upper ∈ personal store scope ++ domainTier store scope,
        ¬Shares upper shape
  desktopListed : ∀ shape ∈ store.listShapes.rows,
    shape.isVirtual = some true ∨ DesktopNamed shape →
      shape ∈ instanceTier store scope
  lookup : ∀ shape ∈ load store scope,
    (scopedShapeStore store scope).find? shape.cliId = some shape
  selected : ∀ program selection,
    selectProgramShape (scopedShapeStore store scope) program =
        some selection →
      selection.shape ∈ load store scope ∧
        (selection.shape ∈ personal store scope ++ domainTier store scope ∨
          ∀ upper ∈ personal store scope ++ domainTier store scope,
            ¬Shares upper selection.shape) ∧
        (selection.versionTested = true →
          selection.shape ∉ personal store scope ++ domainTier store scope)

/-- A shape of an upper tier that uses no desktop name goes by a name of the
given one, and no personal shape hides it. -/
def Overridden (shape : ServerShape) : Prop :=
  (∃ own ∈ ownShapes store scope, notIn (desktopNames store) own = true ∧
    Shares own shape) ∨
  (∃ other ∈ domainShapes store scope,
    notIn (desktopNames store) other = true ∧
    (∀ own ∈ ownShapes store scope, notIn (desktopNames store) own = true →
      ¬Shares own other) ∧
    Shares other shape)

end Promises

section Proofs

variable {store : TieredStore} {scope : ShapeScope}

theorem mem_personal {shape : ServerShape} :
    shape ∈ personal store scope ↔ ∃ own ∈ ownShapes store scope,
      notIn (desktopNames store) own = true ∧
        scopedShape (.owner (scope.owner.getD [])) own = shape := by
  simp [personal, and_assoc]

theorem mem_domainTier {shape : ServerShape} :
    shape ∈ domainTier store scope ↔ ∃ other ∈ domainShapes store scope,
      notIn (desktopNames store) other = true ∧
        (∀ upper ∈ personal store scope, ¬Shares upper other) ∧
        scopedShape (.domain (scope.domain.getD [])) other = shape := by
  simp only [domainTier, List.mem_map, List.mem_filter, notIn_names,
    and_assoc]

/-- Upper tiers do not use desktop names. -/
theorem notIn_of_upper {shape : ServerShape}
    (h : shape ∈ personal store scope ++ domainTier store scope) :
    notIn (desktopNames store) shape = true := by
  rcases List.mem_append.mp h with h | h
  · obtain ⟨own, -, hFree, rfl⟩ := mem_personal.mp h
    exact hFree
  · obtain ⟨other, -, hFree, -, rfl⟩ := mem_domainTier.mp h
    exact hFree

theorem overridden_iff {shape : ServerShape} :
    Overridden store scope shape ↔
      ∃ upper ∈ personal store scope ++ domainTier store scope,
        Shares upper shape := by
  constructor
  · rintro (⟨own, hOwn, hFree, hShares⟩ | ⟨other, hOther, hFree, hSeen, hShares⟩)
    · exact ⟨_, List.mem_append_left _ (mem_personal.mpr
        ⟨own, hOwn, hFree, rfl⟩), hShares⟩
    · refine ⟨_, List.mem_append_right _ (mem_domainTier.mpr
        ⟨other, hOther, hFree, fun upper hUpper => ?_, rfl⟩), hShares⟩
      obtain ⟨own, hOwn, hOwnFree, rfl⟩ := mem_personal.mp hUpper
      exact hSeen own hOwn hOwnFree
  · rintro ⟨upper, hUpper, hShares⟩
    rcases List.mem_append.mp hUpper with hUpper | hUpper
    · obtain ⟨own, hOwn, hFree, rfl⟩ := mem_personal.mp hUpper
      exact Or.inl ⟨own, hOwn, hFree, hShares⟩
    · obtain ⟨other, hOther, hFree, hSeen, rfl⟩ := mem_domainTier.mp hUpper
      refine Or.inr ⟨other, hOther, hFree, fun own hOwn hOwnFree => ?_,
        hShares⟩
      have hListed := mem_personal.mpr ⟨own, hOwn, hOwnFree, rfl⟩
      exact shares_scoped_left.not.mp (hSeen _ hListed)

theorem mem_instanceTier {shape : ServerShape} :
    shape ∈ instanceTier store scope ↔ shape ∈ store.listShapes.rows ∧
      ∀ upper ∈ personal store scope ++ domainTier store scope,
        ¬Shares upper shape := by
  rw [instanceTier, List.mem_filter, notIn_names]

/-- The desktop's own shapes share no name with an upper tier. -/
theorem not_shares_virtual {shape upper : ServerShape}
    (hShape : shape ∈ store.listShapes.rows)
    (hVirtual : shape.isVirtual = some true)
    (hUpper : upper ∈ personal store scope ++ domainTier store scope) :
    ¬Shares upper shape := by
  rintro ⟨name, hName, hTaken⟩
  refine notIn_eq_true.mp (notIn_of_upper hUpper) name hName ?_
  refine List.mem_append_right _ (mem_names.mpr ⟨shape, ?_, hTaken⟩)
  exact List.mem_filter.mpr ⟨hShape, by simp [hVirtual]⟩

/-- A shape of an upper tier lists no tested program. -/
theorem testedDigests_of_upper {shape : ServerShape}
    (h : shape ∈ personal store scope ++ domainTier store scope) :
    shape.testedDigests = none := by
  rcases List.mem_append.mp h with h | h
  · obtain ⟨own, -, -, rfl⟩ := mem_personal.mp h
    rfl
  · obtain ⟨other, -, -, -, rfl⟩ := mem_domainTier.mp h
    rfl

theorem selected_of_selectProgramShape {program : ProgramFile}
    {selection : ProgramShapeSelection}
    (h : selectProgramShape (scopedShapeStore store scope) program =
      some selection) :
    selection.shape ∈ load store scope ∧
      (selection.versionTested = true →
        selection.shape.testedDigests ≠ none) := by
  have hMem := (mem_of_selectProgramShape h).1
  rw [rows_scopedShapeStore] at hMem
  refine ⟨hMem, fun hTested => ?_⟩
  unfold selectProgramShape at h
  dsimp only at h
  split at h
  · rename_i shape hFound
    cases h
    have hDigest := List.find?_some hFound
    intro hNone
    dsimp only at hNone
    simp [hNone] at hDigest
  · obtain ⟨shape, -, rfl⟩ := Option.map_eq_some_iff.mp h
    cases hTested

/-- **The scoped view is right** exactly when no shape that goes by a
desktop name without being virtual has another name that an upper tier
uses. -/
theorem viewIsRight_iff (store : TieredStore) (scope : ShapeScope) :
    ViewIsRight store scope ↔
      ∀ shape ∈ store.listShapes.rows, DesktopNamed shape →
        shape.isVirtual ≠ some true → ¬Overridden store scope shape := by
  constructor
  · intro hView shape hShape hNamed _ hOverridden
    obtain ⟨upper, hUpper, hShares⟩ := overridden_iff.mp hOverridden
    have hListed := hView.desktopListed shape hShape (Or.inr hNamed)
    exact (hView.instanceListed shape hShape).mp hListed upper hUpper hShares
  · intro hNone
    constructor
    · exact tiersApart store scope
    · intro shape hShape hFree
      exact mem_personal.mpr ⟨shape, hShape, hFree, rfl⟩
    · intro shape hShape hFree
      rw [mem_domainTier]
      constructor
      · rintro ⟨other, -, -, hSeen, hSame⟩ upper hUpper hShares
        have hOther := hSeen upper hUpper
        rw [← shares_scoped_right, hSame, shares_scoped_right] at hOther
        exact hOther hShares
      · intro hSeen
        exact ⟨shape, hShape, hFree, hSeen, rfl⟩
    · intro shape hShape
      rw [mem_instanceTier]
      exact and_iff_right hShape
    · intro shape hShape hDesktop
      refine mem_instanceTier.mpr ⟨hShape, fun upper hUpper hShares => ?_⟩
      by_cases hVirtual : shape.isVirtual = some true
      · exact not_shares_virtual hShape hVirtual hUpper hShares
      · exact hNone shape hShape (hDesktop.resolve_left hVirtual) hVirtual
          (overridden_iff.mpr ⟨upper, hUpper, hShares⟩)
    · intro shape hShape
      rw [← rows_scopedShapeStore] at hShape
      exact Table.find?_of_mem hShape
    · intro program selection hSelected
      obtain ⟨hMem, hTested⟩ := selected_of_selectProgramShape hSelected
      refine ⟨hMem, ?_, fun hVersion hUpper =>
        hTested hVersion (testedDigests_of_upper hUpper)⟩
      rcases List.mem_append.mp hMem with hUpper | hInstance
      · exact Or.inl hUpper
      · exact Or.inr (mem_instanceTier.mp hInstance).2

end Proofs

/-- A store whose registry names an ordinary program after the desktop. -/
def curlStore : TieredStore where
  listShapes :=
    ⟨[{ cliId := js "pod-http", executable := js "curl", description := [],
        operations := [], source := .builtin, digest := [], createdAt := 0,
        updatedAt := 0 }], by decide⟩
  listOwnerShapes := some (fun _ =>
    ⟨[{ cliId := js "curl", executable := js "curl", description := [],
        operations := [], source := .custom, digest := [], createdAt := 0,
        updatedAt := 0 }], by decide⟩)

/-- Its desktop shape drops out for an owner of a shape for `curl`. -/
theorem not_viewIsRight_curl :
    ¬ViewIsRight curlStore { owner := some (js "owner@example.com") } := by
  intro hView
  have hHidden : instanceTier curlStore
      { owner := some (js "owner@example.com") } = [] := by decide
  have hListed := hView.desktopListed _ List.mem_cons_self
    (Or.inr ⟨js "pod-http", by decide, by decide⟩)
  rw [hHidden] at hListed
  cases hListed

end OpenApe.Ports.ScopedShapes
