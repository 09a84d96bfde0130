import OpenApe.Ports.GrantTypes
import OpenApe.Verified.RegExpSource

/-!
# CLI permissions

Port of `cli-permissions.ts`: the canonical permission string of a detail,
the coverage test between a granted and a required detail, and the two ways
an approver widens details (`widenCliAuthorizationDetail`,
`mergeCliAuthorizationDetails`).

A selector value is compared literally unless the granted value contains a
`*`; then it is compiled to an anchored regular expression.  The compiled
source is modelled as the source builds it, and
`selectorValueMatches_eq_true_iff` says once what it matches.
-/

namespace OpenApe.Ports.CliPermissions

open Verified.JsText Verified.Glob Verified.RegExpSource
open GrantTypes

/-! ## Selectors -/

section Canonical

variable [Collation]

/-- The non-empty selector entries, sorted by key. -/
def selectorEntries (selector : Record) : List (JsString × JsString) :=
  sortByKey (selector.entries.filter (fun e => e.2 ≠ []))

theorem selectorEntries_nodup (selector : Record) :
    ((selectorEntries selector).map Prod.fst).Nodup := by
  refine ((sortByKey_perm _).map Prod.fst).nodup_iff.mpr ?_
  exact selector.nodup.sublist (List.filter_sublist.map Prod.fst)

def normalizeSelector (selector : Option Record) : Option Record :=
  match selector with
  | none => none
  | some selector =>
      if selectorEntries selector = [] then none
      else
        some (Record.fromEntries (selectorEntries selector)
          (selectorEntries_nodup selector))

/-- A normalised selector binds something. -/
theorem normalizeSelector_ne_empty {selector : Option Record} {r : Record}
    (h : normalizeSelector selector = some r) : r.entries ≠ [] := by
  cases selector with
  | none => simp [normalizeSelector] at h
  | some selector =>
      unfold normalizeSelector at h
      by_cases hempty : selectorEntries selector = []
      · simp [hempty] at h
      · simp only [if_neg hempty, Option.some.injEq] at h
        obtain ⟨e, rest, he⟩ := List.exists_cons_of_ne_nil hempty
        have hmem : e ∈ r.entries := by
          rw [← h, Record.mem_fromEntries, he]
          simp
        exact List.ne_nil_of_mem hmem

def selectorString (selector : Option Record) : JsString :=
  match normalizeSelector selector with
  | none => js "*"
  | some normalized =>
      (js ",").intercalate
        (normalized.entries.map (fun e => e.1 ++ js "=" ++ e.2))

def canonicalizeCliPermission (cliId : JsString)
    (resourceChain : List CliResourceRef) (action : JsString) : JsString :=
  let chain := (js ".").intercalate (resourceChain.map (fun resource =>
    resource.resource ++ js "[" ++ selectorString resource.selector ++ js "]"))
  cliId ++ js "." ++ chain ++ js "#" ++ action

/-- `canonicalizeCliPermission` of a whole detail. -/
def canonicalPermission (detail : CliAuthorizationDetail) : JsString :=
  canonicalizeCliPermission detail.cliId detail.resourceChain detail.action

end Canonical

/-! ## Validation -/

/-- The selector check of one chain entry stops at its first bad entry. -/
def selectorErrors (index : Nat) (selector : Option Record) : List JsString :=
  match selector with
  | none => []
  | some selector =>
      if selector.entries.any (fun e => e.1.isEmpty || e.2.isEmpty) then
        [js "resource_chain[" ++ js (toString index) ++
          js "].selector entries must be non-empty strings"]
      else []

def resourceErrors (index : Nat) (resource : CliResourceRef) :
    List JsString :=
  (if resource.resource = [] then
    [js "resource_chain[" ++ js (toString index) ++
      js "].resource is required"]
  else []) ++ selectorErrors index resource.selector

/-- One required text field of a detail. -/
def requiredField (name : String) (value : JsString) : List JsString :=
  if value = [] then [js name ++ js " is required"] else []

/-- The errors of `validateCliAuthorizationDetail`; none when valid.  The
type tag and the JSON types of the fields hold by typing. -/
def validateCliAuthorizationDetail [Collation]
    (detail : CliAuthorizationDetail) : List JsString :=
  let errors :=
    requiredField "cli_id" detail.cliId ++
      requiredField "operation_id" detail.operationId ++
      requiredField "action" detail.action ++
      requiredField "permission" detail.permission ++
      requiredField "display" detail.display ++
      (if detail.resourceChain = [] then
        [js "resource_chain must be a non-empty array"]
      else (detail.resourceChain.mapIdx resourceErrors).flatten)
  if errors ≠ [] then errors
  else if detail.permission ≠ canonicalPermission detail then
    [js "permission does not match canonical form: expected " ++
      canonicalPermission detail]
  else []

/-! ## Selector values -/

/-- The characters `selectorValueMatches` escapes. -/
def escapedUnits : JsString := js ".+?^${}()|[]\\"

/-- The source of the regular expression a globbed value compiles to. -/
def selectorSource (granted : JsString) : JsString :=
  js "^" ++
    replaceUnit (unit '*') (js ".*") (escape escapedUnits granted) ++ js "$"

def selectorValueMatches (granted required : JsString) : Bool :=
  if unit '*' ∉ granted then granted == required
  else if granted.length > 256 then false
  else (test (selectorSource granted) required).getD false

/-- What one unit of the granted value becomes in the compiled source. -/
private theorem selectorPiece_readsAs (u : CodeUnit) :
    ReadsAs (replaceUnit (unit '*') (js ".*") (escape escapedUnits [u]))
      (if u = unit '*' then .run else .lit u) := by
  have hescaped : ∀ v ∈ escapedUnits, v ∈ syntaxUnits ∧ v ≠ unit '*' := by
    simpa using (by decide : escapedUnits.all
      (fun v => syntaxUnits.contains v && v != unit '*') = true)
  have hSyntaxUnits : ∀ v ∈ syntaxUnits, v ∈ escapedUnits ∨ v = unit '*' := by
    simpa using (by decide : syntaxUnits.all
      (fun v => escapedUnits.contains v || v == unit '*') = true)
  have hslash : unit '\\' ≠ unit '*' := by decide
  by_cases hmem : u ∈ escapedUnits
  · obtain ⟨hu, hstar⟩ := hescaped u hmem
    have hpiece : replaceUnit (unit '*') (js ".*") (escape escapedUnits [u]) =
        [unit '\\', u] := by
      simp [escape, replaceUnit, hmem, hslash, hstar]
    rw [hpiece, if_neg hstar]
    exact readsAs_escaped hu
  · by_cases hstar : u = unit '*'
    · have hpiece : replaceUnit (unit '*') (js ".*")
          (escape escapedUnits [u]) = js ".*" := by
        simp only [escape, replaceUnit, List.flatMap_cons, if_neg hmem,
          List.flatMap_nil, List.append_nil, if_pos hstar]
      rw [hpiece, if_pos hstar]
      exact readsAs_run
    · have hplain : u ∉ syntaxUnits := fun h =>
        (hSyntaxUnits u h).elim hmem hstar
      have hpiece : replaceUnit (unit '*') (js ".*")
          (escape escapedUnits [u]) = [u] := by
        simp [escape, replaceUnit, hmem, hstar]
      rw [hpiece, if_neg hstar]
      exact readsAs_literal hplain

/-- The compiled source always parses, to the glob that reads `*` as any
run of characters and everything else literally. -/
theorem parse_selectorSource (granted : JsString) :
    parse (selectorSource granted) = some (tokens (unit '*') granted) := by
  have hsource : selectorSource granted =
      js "^" ++ granted.flatMap (fun u => replaceUnit (unit '*') (js ".*")
        (escape escapedUnits [u])) ++ js "$" := by
    simp only [selectorSource, escape, replaceUnit, List.flatMap_assoc,
      List.flatMap_cons, List.flatMap_nil, List.append_nil]
  rw [hsource]
  exact parse_anchored (fun u _ => selectorPiece_readsAs u)

/-- **What a granted selector value matches**: itself when it has no `*`,
otherwise its glob instances within the length cap, where a `*` stands for
any run without line terminators. -/
theorem selectorValueMatches_eq_true_iff (granted required : JsString) :
    selectorValueMatches granted required = true ↔
      (unit '*' ∉ granted ∧ granted = required) ∨
      (unit '*' ∈ granted ∧ granted.length ≤ 256 ∧
        Matches dot (tokens (unit '*') granted) required) := by
  unfold selectorValueMatches
  by_cases hstar : unit '*' ∈ granted
  · by_cases hlen : granted.length > 256
    · have hcap : ¬ granted.length ≤ 256 := by omega
      simp [hstar, hlen, hcap]
    · have hcap : granted.length ≤ 256 := by omega
      simp [hstar, hlen, hcap, test, parse_selectorSource, accepts_iff]
  · simp [hstar]

/-! ## Coverage -/

section Coverage

variable [Collation]

def resourceRefCovers (granted required : CliResourceRef) : Bool :=
  if granted.resource ≠ required.resource then false
  else
    match normalizeSelector granted.selector with
    | none => true
    | some grantedSelector =>
        match normalizeSelector required.selector with
        | none => false
        | some requiredSelector =>
            grantedSelector.entries.all (fun e =>
              match requiredSelector.get e.1 with
              | none => false
              | some req => selectorValueMatches e.2 req)

/-- The chain test: entry by entry, the granted chain a prefix. -/
def resourceChainCovers : List CliResourceRef → List CliResourceRef → Bool
  | [], _ => true
  | _ :: _, [] => false
  | g :: granted, r :: required =>
      resourceRefCovers g r && resourceChainCovers granted required

def cliAuthorizationDetailCovers (granted required : CliAuthorizationDetail) :
    Bool :=
  if granted.cliId ≠ required.cliId then false
  else if granted.action ≠ required.action then false
  else if granted.resourceChain.length > required.resourceChain.length then
    false
  else resourceChainCovers granted.resourceChain required.resourceChain

/-- Whether a stored entry has every field coverage reads. -/
def isCoverableCliDetail (detail : AuthorizationDetail) : Bool :=
  detail.cli?.isSome

def coverableCliDetails (details : Option (List AuthorizationDetail)) :
    List CliAuthorizationDetail :=
  (details.getD []).filterMap AuthorizationDetail.cli?

def cliAuthorizationDetailsCover
    (grantedDetails requiredDetails : List CliAuthorizationDetail) : Bool :=
  requiredDetails.all (fun required =>
    grantedDetails.any (fun granted =>
      cliAuthorizationDetailCovers granted required))

end Coverage

/-- Typed details are coverable, so no field test is left to make. -/
def isCliAuthorizationDetailExact (detail : CliAuthorizationDetail) : Bool :=
  (detail.constraints.bind CliConstraints.exactCommand) == some true

/-! ## Widening and merging -/

def resourceChainsStructurallyMatch (a b : List CliResourceRef) : Bool :=
  a.map CliResourceRef.resource == b.map CliResourceRef.resource

section Widening

variable [Collation]

/-- The indices at which the selectors of two chains print differently. -/
def findDifferingSelectors (a b : List CliResourceRef) : List Nat :=
  (List.range a.length).filter (fun i =>
    selectorString (a[i]?.bind CliResourceRef.selector) ≠
      selectorString (b[i]?.bind CliResourceRef.selector))

def cliAuthorizationDetailIsSimilar
    (existing incoming : CliAuthorizationDetail) : Bool :=
  if existing.cliId ≠ incoming.cliId then false
  else if existing.action ≠ incoming.action then false
  else if resourceChainsStructurallyMatch existing.resourceChain
      incoming.resourceChain = false then false
  else if cliAuthorizationDetailCovers existing incoming then false
  else
    !(findDifferingSelectors existing.resourceChain
      incoming.resourceChain).isEmpty

def widenCliAuthorizationDetail
    (existing incoming : CliAuthorizationDetail) : CliAuthorizationDetail :=
  let differing :=
    findDifferingSelectors existing.resourceChain incoming.resourceChain
  let widenedChain := existing.resourceChain.mapIdx (fun index resource =>
    if index ∈ differing then { resource := resource.resource } else resource)
  { existing with
    resourceChain := widenedChain
    permission :=
      canonicalizeCliPermission existing.cliId widenedChain existing.action
    display := existing.display ++ js " (widened)" }

/-- One insertion into the map keyed by canonical permission: the first
detail of a key wins. -/
def mergeStep (byPermission : List (JsString × CliAuthorizationDetail))
    (detail : CliAuthorizationDetail) :
    List (JsString × CliAuthorizationDetail) :=
  let key := canonicalPermission detail
  if byPermission.any (fun e => e.1 == key) then byPermission
  else byPermission ++ [(key, { detail with permission := key })]

def mergeCliAuthorizationDetails
    (detailSets : List (List CliAuthorizationDetail)) :
    List CliAuthorizationDetail :=
  (detailSets.flatten.foldl mergeStep []).map Prod.snd

end Widening

end OpenApe.Ports.CliPermissions
