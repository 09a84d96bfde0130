import OpenApe.Ports.GrantReuse

/-!
# Similar grants (`packages/grants/src/similarity.ts`)

`findSimilarCliGrants` offers the approved grants an incoming request could
extend, with previews of the two ways to extend them.
-/

namespace OpenApe.Ports.Similarity

open Verified.JsText
open GrantTypes CliPermissions Grants GrantReuse

structure SimilarGrantMatch where
  grant : OpenApeGrant
  similarDetailIndices : List Nat
  deriving DecidableEq

structure SimilarGrantsResult where
  similarGrants : List SimilarGrantMatch
  widenedDetails : List CliAuthorizationDetail
  mergedDetails : List CliAuthorizationDetail
  deriving DecidableEq

/-- Whether a grant may be offered for a request: it is continuing, in force
and of the same requester, target and adapter. -/
def comparable (incoming : OpenApeGrantRequest) (now : Int)
    (grant : OpenApeGrant) : Bool :=
  if grant.status ≠ .approved then false
  else if grant.request.grantTypeOrOnce = .once then false
  else if outlived grant.expiresAt now then false
  else if grant.request.requester ≠ incoming.requester then false
  else if grant.request.targetHost ≠ incoming.targetHost then false
  else if grant.request.audience ≠ incoming.audience then false
  else if grant.request.runAs ≠ incoming.runAs then false
  else if incoming.delegator ≠ grant.request.delegator then false
  else if incoming.delegate ≠ grant.request.delegate then false
  else adapterDigestOf grant.request = adapterDigestOf incoming

section Similar

variable [Collation]

/-- The indices of the details similar to an incoming one. -/
def similarIndices (existing incoming : List CliAuthorizationDetail) :
    List Nat :=
  (List.range existing.length).filter (fun i =>
    existing[i]?.any (fun detail =>
      incoming.any (cliAuthorizationDetailIsSimilar detail)))

/-- The round of the loop for one grant. -/
def similarMatch (incoming : OpenApeGrantRequest) (now : Int)
    (grant : OpenApeGrant) : Option SimilarGrantMatch :=
  let indices := similarIndices
    (cliDetails grant.request.authorizationDetails)
    (cliDetails incoming.authorizationDetails)
  if !comparable incoming now grant then none
  else if indices.isEmpty then none
  else some { grant := grant, similarDetailIndices := indices }

def findSimilarCliGrants (incoming : OpenApeGrantRequest)
    (existing : List OpenApeGrant) (now : Int) :
    Option SimilarGrantsResult :=
  let incomingDetails := cliDetails incoming.authorizationDetails
  let found := existing.filterMap (similarMatch incoming now)
  let existingDetails := found.map (fun one =>
    cliDetails one.grant.request.authorizationDetails)
  if incomingDetails.isEmpty then none
  else if found.isEmpty then none
  else some
    { similarGrants := found
      widenedDetails := mergeCliAuthorizationDetails
        [incomingDetails ++ existingDetails.flatten.flatMap (fun detail =>
          (incomingDetails.filter
            (cliAuthorizationDetailIsSimilar detail)).map
              (widenCliAuthorizationDetail detail))]
      mergedDetails :=
        mergeCliAuthorizationDetails (incomingDetails :: existingDetails) }

/-- Grants are offered exactly when one of them has a similar detail. -/
theorem findSimilarCliGrants_isSome_iff (incoming : OpenApeGrantRequest)
    (existing : List OpenApeGrant) (now : Int) :
    (findSimilarCliGrants incoming existing now).isSome = true ↔
      ∃ grant ∈ existing,
        (similarMatch incoming now grant).isSome = true := by
  have hNone : cliDetails incoming.authorizationDetails = [] →
      ∀ grant, similarMatch incoming now grant = none := by
    intro hEmpty grant
    have hIndices : similarIndices
        (cliDetails grant.request.authorizationDetails) [] = [] := by
      simp [similarIndices]
    simp [similarMatch, hEmpty, hIndices]
  have hFound : existing.filterMap (similarMatch incoming now) ≠ [] ↔
      ∃ grant ∈ existing,
        (similarMatch incoming now grant).isSome = true := by
    simp only [ne_eq, List.filterMap_eq_nil_iff, not_forall,
      ← Option.isSome_iff_ne_none, exists_prop]
  simp only [findSimilarCliGrants, List.isEmpty_iff]
  rw [← hFound]
  split
  · rename_i hEmpty
    have hNil : existing.filterMap (similarMatch incoming now) = [] :=
      List.filterMap_eq_nil_iff.mpr (fun grant _ => hNone hEmpty grant)
    simp [hNil]
  · split
    · rename_i hNil
      simp [hNil]
    · rename_i hSome
      simp [hSome]

end Similar

end OpenApe.Ports.Similarity
