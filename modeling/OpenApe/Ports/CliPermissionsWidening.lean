import OpenApe.Ports.CliPermissionsCoverage

/-!
# What widening covers

`widenCliAuthorizationDetail` drops the selectors at the positions where two
chains print differently.  A position that prints alike keeps its selector,
so what the widened detail covers is decided by how well the printed form
tells selectors apart: it joins `key=value` by commas, and both signs may
also stand in a key or a value.
-/

namespace OpenApe.Ports.CliPermissionsWidening

open Verified.JsText
open GrantTypes CliPermissions CliPermissionsCoverage

/-! ## Chains of one structure -/

/-- Two details of one operation on chains of one structure. -/
structure SameStructure (existing incoming : CliAuthorizationDetail) :
    Prop where
  cliId : existing.cliId = incoming.cliId
  action : existing.action = incoming.action
  chain : resourceChainsStructurallyMatch existing.resourceChain
    incoming.resourceChain = true

namespace SameStructure

variable {existing incoming : CliAuthorizationDetail}
  (h : SameStructure existing incoming)

include h

theorem resources : existing.resourceChain.map CliResourceRef.resource =
    incoming.resourceChain.map CliResourceRef.resource := by
  simpa [resourceChainsStructurallyMatch] using h.chain

theorem length : existing.resourceChain.length =
    incoming.resourceChain.length := by
  simpa using congrArg List.length h.resources

theorem resource_eq {i : Nat} {a b : CliResourceRef}
    (hA : existing.resourceChain[i]? = some a)
    (hB : incoming.resourceChain[i]? = some b) :
    a.resource = b.resource := by
  have hMap := congrArg (fun l => l[i]?) h.resources
  simpa [hA, hB] using hMap

/-- A position of one chain is one of the other. -/
theorem exists_incoming {i : Nat} {a : CliResourceRef}
    (hA : existing.resourceChain[i]? = some a) :
    ∃ b, incoming.resourceChain[i]? = some b := by
  have hLength := (List.getElem?_eq_some_iff.mp hA).1
  rw [h.length] at hLength
  exact ⟨_, List.getElem?_eq_getElem hLength⟩

end SameStructure

/-! ## Printed entries -/

section Widening

variable [Collation]

/-! ## One position -/

/-- The entry the widened chain has where the existing chain has `a` and the
incoming one `b`. -/
def widenedEntry (a b : CliResourceRef) : CliResourceRef :=
  if selectorString a.selector = selectorString b.selector then a
  else { resource := a.resource }

/-- An entry without a selector covers every entry of its resource. -/
theorem resourceRefCovers_resource (b : CliResourceRef) :
    resourceRefCovers { resource := b.resource } b = true := by
  simp [resourceRefCovers, normalizeSelector]

theorem widenedEntry_covers_existing {a b : CliResourceRef}
    (hCap : GlobsWithinCap a) :
    resourceRefCovers (widenedEntry a b) a = true := by
  unfold widenedEntry
  split
  · exact resourceRefCovers_self hCap
  · exact resourceRefCovers_resource a

theorem widenedEntry_covers_incoming_iff {a b : CliResourceRef}
    (hResource : a.resource = b.resource) :
    resourceRefCovers (widenedEntry a b) b = true ↔
      (selectorString a.selector = selectorString b.selector →
        resourceRefCovers a b = true) := by
  unfold widenedEntry
  split
  · rename_i hPrint
    exact ⟨fun h _ => h, fun h => h hPrint⟩
  · rename_i hPrint
    rw [hResource]
    exact ⟨fun _ h => absurd h hPrint, fun _ => resourceRefCovers_resource b⟩

/-- Two selectors bind the same values once normalised. -/
def SameSelector (a b : CliResourceRef) : Prop :=
  ∀ key, selectorValue a.selector key = selectorValue b.selector key

/-- A selector that binds nothing prints as the wildcard. -/
theorem selectorString_of_unbound {selector : Option Record}
    (h : ∀ key, selectorValue selector key = none) :
    selectorString selector = js "*" := by
  cases hNormal : normalizeSelector selector with
  | none => simp [selectorString, hNormal]
  | some r =>
      obtain ⟨e, rest, hEntries⟩ :=
        List.exists_cons_of_ne_nil (normalizeSelector_ne_empty hNormal)
      have hBound : selectorValue selector e.1 = some e.2 := by
        simp only [selectorValue, hNormal, Option.bind_some]
        exact (Record.get_eq_some_iff _ _ _).mpr (by simp [hEntries])
      rw [h] at hBound
      cases hBound

/-- A position keeps its selector against an equal one exactly when the two
print alike. -/
theorem widenedEntry_selector_iff {a b : CliResourceRef}
    (hSame : SameSelector a b) :
    (widenedEntry a b).selector = a.selector ↔
      selectorString a.selector = selectorString b.selector := by
  unfold widenedEntry
  split
  · rename_i hPrint
    simp [hPrint]
  · rename_i hPrint
    refine ⟨fun hNone => ?_, fun h => absurd h hPrint⟩
    have hUnboundA : ∀ key, selectorValue a.selector key = none := by
      intro key
      rw [← show none = a.selector from hNone]
      rfl
    have hUnboundB : ∀ key, selectorValue b.selector key = none :=
      fun key => (hSame key).symm.trans (hUnboundA key)
    rw [selectorString_of_unbound hUnboundA,
      selectorString_of_unbound hUnboundB]

/-! ## The widened chain -/

theorem mem_findDifferingSelectors {a b : List CliResourceRef} {i : Nat} :
    i ∈ findDifferingSelectors a b ↔ i < a.length ∧
      selectorString (a[i]?.bind CliResourceRef.selector) ≠
        selectorString (b[i]?.bind CliResourceRef.selector) := by
  simp [findDifferingSelectors]

/-- The widened chain, position by position. -/
theorem widen_getElem? {existing incoming : CliAuthorizationDetail} {i : Nat}
    {a b : CliResourceRef} (hA : existing.resourceChain[i]? = some a)
    (hB : incoming.resourceChain[i]? = some b) :
    (widenCliAuthorizationDetail existing incoming).resourceChain[i]? =
      some (widenedEntry a b) := by
  have hLength : i < existing.resourceChain.length :=
    (List.getElem?_eq_some_iff.mp hA).1
  simp only [widenCliAuthorizationDetail, List.getElem?_mapIdx, hA,
    Option.map_some, mem_findDifferingSelectors, hB, Option.bind_some,
    hLength, true_and, ne_eq, ite_not, widenedEntry]

theorem widen_length (existing incoming : CliAuthorizationDetail) :
    (widenCliAuthorizationDetail existing incoming).resourceChain.length =
      existing.resourceChain.length := by
  simp [widenCliAuthorizationDetail]

/-! ## The law of widening -/

/-- What a widened detail is for: it covers both sides, keeps the selectors
the sides share, and moves nothing else. -/
structure WidensBoth (existing incoming : CliAuthorizationDetail) :
    Prop where
  coversExisting : cliAuthorizationDetailCovers
    (widenCliAuthorizationDetail existing incoming) existing = true
  coversIncoming : cliAuthorizationDetailCovers
    (widenCliAuthorizationDetail existing incoming) incoming = true
  keepsShared : ∀ (i : Nat) a b, existing.resourceChain[i]? = some a →
    incoming.resourceChain[i]? = some b → SameSelector a b →
    ((widenCliAuthorizationDetail existing incoming).resourceChain[i]?).map
      CliResourceRef.selector = some a.selector
  permission : (widenCliAuthorizationDetail existing incoming).permission =
    canonicalPermission (widenCliAuthorizationDetail existing incoming)
  frame : widenCliAuthorizationDetail existing incoming =
    { existing with
      resourceChain :=
        (widenCliAuthorizationDetail existing incoming).resourceChain
      permission :=
        (widenCliAuthorizationDetail existing incoming).permission
      display := existing.display ++ js " (widened)" }

/-- The printed form tells the selectors of two chains apart as far as
widening needs it: selectors of one print cover each other's calls, and
selectors that bind the same values have one print. -/
def PrintsTellApart (existing incoming : CliAuthorizationDetail) : Prop :=
  ∀ (i : Nat) a b, existing.resourceChain[i]? = some a →
    incoming.resourceChain[i]? = some b →
    (selectorString a.selector = selectorString b.selector →
      resourceRefCovers a b = true) ∧
    (SameSelector a b →
      selectorString a.selector = selectorString b.selector)

theorem widen_covers_existing {existing incoming : CliAuthorizationDetail}
    (h : SameStructure existing incoming)
    (hCap : ∀ a ∈ existing.resourceChain, GlobsWithinCap a) :
    cliAuthorizationDetailCovers
      (widenCliAuthorizationDetail existing incoming) existing = true := by
  rw [cliAuthorizationDetailCovers_iff, resourceChainCovers_iff]
  refine ⟨rfl, rfl, (widen_length existing incoming).le, ?_⟩
  intro i w a hW hA
  obtain ⟨b, hB⟩ := h.exists_incoming hA
  rw [widen_getElem? hA hB] at hW
  obtain rfl := Option.some.inj hW
  exact widenedEntry_covers_existing (hCap a (List.mem_of_getElem? hA))

theorem widen_covers_incoming_iff
    {existing incoming : CliAuthorizationDetail}
    (h : SameStructure existing incoming) :
    cliAuthorizationDetailCovers
        (widenCliAuthorizationDetail existing incoming) incoming = true ↔
      ∀ (i : Nat) a b, existing.resourceChain[i]? = some a →
        incoming.resourceChain[i]? = some b →
        selectorString a.selector = selectorString b.selector →
        resourceRefCovers a b = true := by
  rw [cliAuthorizationDetailCovers_iff, resourceChainCovers_iff]
  constructor
  · rintro ⟨_, _, _, hEntries⟩ i a b hA hB
    exact (widenedEntry_covers_incoming_iff (h.resource_eq hA hB)).mp
      (hEntries i _ b (widen_getElem? hA hB) hB)
  · intro hPrint
    refine ⟨h.cliId, h.action, ?_, ?_⟩
    · rw [widen_length, h.length]
    · intro i w b hW hB
      have hLength := (List.getElem?_eq_some_iff.mp hW).1
      rw [widen_length] at hLength
      have hA := List.getElem?_eq_getElem hLength
      rw [widen_getElem? hA hB] at hW
      obtain rfl := Option.some.inj hW
      exact (widenedEntry_covers_incoming_iff (h.resource_eq hA hB)).mpr
        (hPrint i _ b hA hB)

end Widening

/-! ## Selectors that print alike -/

/-- Listing repositories by one selector. -/
private def listing (selector : Record) : CliAuthorizationDetail where
  cliId := js "gh"
  operationId := js "repo.list"
  resourceChain := [{ resource := js "repo", selector := some selector }]
  action := js "list"
  permission := []
  display := js "List repositories"
  risk := .low

/-- One value with a comma and an equals sign, and the two it looks like. -/
private def oneValue : CliAuthorizationDetail :=
  listing ⟨[(js "name", js "b,owner=a")], by simp⟩

private def twoValues : CliAuthorizationDetail :=
  listing ⟨[(js "owner", js "a"), (js "name", js "b")], by decide⟩

end OpenApe.Ports.CliPermissionsWidening
