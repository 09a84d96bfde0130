import OpenApe.Ports.CliPermissionsMerging
import OpenApe.Ports.GrantsMemory

/-!
# What a failed extension or widening leaves behind

Both operations check everything they check themselves before they write,
but the approval at their end has checks of its own.  Where those refuse, the
rewritten request stays, and after an extension so do the revocations.  The
main result says for which stores and arguments this happens.
-/

namespace OpenApe.Ports.GrantsFailure

open Verified.JsText Verified.KeyedTable Verified.Programs.Program
open GrantTypes GrantStore CliPermissions CliPermissionsMerging Grants
  GrantsExtension GrantsMemory

/-- A call that throws leaves every stored grant as it was. -/
def LeavesStoreOnFailure {α : Type} (p : GrantProgram α) (w : MemoryWorld) :
    Prop :=
  ∀ error w', exec memoryStore p w = (.error error, w') → w'.store = w.store

/-- A result that keeps the store, or throws and does not. -/
private theorem leavesStore_iff_of_run {α : Type} {p : GrantProgram α}
    {w : MemoryWorld} {error : JsError} {prepared : GrantTable}
    (hRun : exec memoryStore p w = (.error error, w.setStore prepared)) :
    LeavesStoreOnFailure p w ↔ prepared = w.store := by
  constructor
  · intro h
    exact h error _ hRun
  · rintro rfl other w' hOther
    rw [hRun] at hOther
    cases hOther
    rfl

private theorem leavesStore_of_ok {α : Type} {p : GrantProgram α}
    {w w' : MemoryWorld} {value : α}
    (hRun : exec memoryStore p w = (.ok value, w')) :
    LeavesStoreOnFailure p w := by
  intro error other hOther
  rw [hRun] at hOther
  cases hOther

private theorem leavesStore_of_unwritten {α : Type} {p : GrantProgram α}
    {w : MemoryWorld} {error : JsError}
    (hRun : exec memoryStore p w = (.error error, w)) :
    LeavesStoreOnFailure p w := by
  intro other w' hOther
  rw [hRun] at hOther
  cases hOther
  rfl

/-! ## Refusals at the end -/

/-- The approval would be timed, but for no time. -/
def TimedWithoutDuration (request : OpenApeGrantRequest)
    (overrides : Option ApproveGrantOverrides) : Prop :=
  effectiveType request overrides = .timed ∧
    truthyNumber (effectiveDuration request overrides) = false

/-- Why the approval of a pending grant without reference is refused. -/
theorem approvalRefused_isSome_iff {grant : OpenApeGrant}
    {overrides : Option ApproveGrantOverrides}
    (hPending : grant.status = .pending)
    (hFree : truthy grant.request.reference = false) :
    (approvalRefused grant overrides).isSome = true ↔
      (singleUse grant.request.authorizationDetails = true ∧
        effectiveType grant.request overrides ≠ .once) ∨
      TimedWithoutDuration grant.request overrides := by
  unfold approvalRefused TimedWithoutDuration
  simp only [hPending, hFree, ne_eq, not_true_eq_false, if_false,
    Bool.false_and, Bool.false_eq_true, decide_not, Bool.and_eq_true,
    Bool.not_eq_true', decide_eq_true_eq, decide_eq_false_iff_not]
  split
  · simp_all
  · split <;> simp_all

@[simp] theorem cliDetails_map_openapeCli
    (details : List CliAuthorizationDetail) :
    cliDetails (some (details.map .openapeCli)) = details := by
  simp [cliDetails, List.filterMap_map, Function.comp_def,
    AuthorizationDetail.cli?]

/-- Rewriting the scope of a request by what it is changes nothing. -/
theorem rescoped_eq_iff (request : OpenApeGrantRequest)
    (details : Option (List AuthorizationDetail))
    (permissions command : Option (List JsString))
    (cmdHash : Option JsString) :
    { request with
      authorizationDetails := details
      permissions := permissions
      command := command
      cmdHash := cmdHash } = request ↔
    request.authorizationDetails = details ∧
      request.permissions = permissions ∧ request.command = command ∧
      request.cmdHash = cmdHash := by
  constructor
  · intro h
    rw [← h]
    exact ⟨rfl, rfl, rfl, rfl⟩
  · rintro ⟨rfl, rfl, rfl, rfl⟩
    rfl

/-! ## Extension -/

section Extension

variable [Collation]

/-- Among the joined details the first of some permission is constrained to
a single use. -/
def JoinsSingleUse (mode : ExtendMode) (pending : OpenApeGrant)
    (olds : List OpenApeGrant) : Prop :=
  ∃ detail, FirstOfPermission (joinedDetails mode pending olds) detail ∧
    detail.constraints.bind CliConstraints.singleUse = some true

/-- The grants may be joined, but the operation does not get to its end. -/
def RefusedLate (overrides : ExtensionOverrides) (pending : OpenApeGrant)
    (olds : List OpenApeGrant) : Prop :=
  ¬overrides.extendGrantIds.Nodup ∨
    (JoinsSingleUse overrides.extendMode pending olds ∧
      effectiveType pending.request (some overrides.approval) ≠ .once) ∨
    TimedWithoutDuration pending.request (some overrides.approval)

/-- The request already has the form that joining it with nothing gives. -/
def AlreadyRewritten (mode : ExtendMode) (request : OpenApeGrantRequest) :
    Prop :=
  ∃ details : List CliAuthorizationDetail,
    request.authorizationDetails = some (details.map .openapeCli) ∧
    (details.map canonicalPermission).Nodup ∧
    (∀ detail ∈ details,
      detail.permission = canonicalPermission detail) ∧
    request.permissions = some (details.map canonicalPermission) ∧
    (mode = .widen → request.command = none ∧ request.cmdHash = none)

theorem extendedDetails_eq (mode : ExtendMode) (pending : OpenApeGrant)
    (olds : List OpenApeGrant) :
    extendedDetails mode pending olds =
      mergeCliAuthorizationDetails [joinedDetails mode pending olds] := by
  cases mode with
  | widen => rfl
  | merge =>
      simp only [extendedDetails, mergeCliAuthorizationDetails, joinedDetails,
        List.flatten_cons, List.flatten_nil, List.append_nil,
        List.flatMap_def]

theorem singleUse_extendedRequest (mode : ExtendMode) (pending : OpenApeGrant)
    (olds : List OpenApeGrant) :
    singleUse (extendedRequest mode pending olds).authorizationDetails =
        true ↔
      JoinsSingleUse mode pending olds := by
  have hDetails : (extendedRequest mode pending olds).authorizationDetails =
      some ((extendedDetails mode pending olds).map .openapeCli) := by
    cases mode <;> rfl
  rw [hDetails, singleUse, cliDetails_map_openapeCli, extendedDetails_eq]
  simp only [List.any_eq_true, mem_mergeCliAuthorizationDetails,
    List.flatten_cons, List.flatten_nil, List.append_nil, beq_iff_eq]
  constructor
  · rintro ⟨_, ⟨detail, hFirst, rfl⟩, hSingle⟩
    exact ⟨detail, hFirst, hSingle⟩
  · rintro ⟨detail, hFirst, hSingle⟩
    exact ⟨_, ⟨detail, hFirst, rfl⟩, hSingle⟩

theorem effectiveType_extendedRequest (mode : ExtendMode)
    (pending : OpenApeGrant) (olds : List OpenApeGrant)
    (overrides : Option ApproveGrantOverrides) :
    effectiveType (extendedRequest mode pending olds) overrides =
        effectiveType pending.request overrides ∧
      effectiveDuration (extendedRequest mode pending olds) overrides =
        effectiveDuration pending.request overrides := by
  cases mode <;> exact ⟨rfl, rfl⟩

/-- Why the final approval refuses an admitted extension. -/
theorem approvalRefused_rewrittenGrant {grants : GrantTable}
    {grantId : JsString} {overrides : ExtensionOverrides}
    {pending : OpenApeGrant} {olds : List OpenApeGrant}
    (h : Admitted grants grantId overrides.extendGrantIds pending olds) :
    (approvalRefused (rewrittenGrant overrides.extendMode pending olds)
        (some overrides.approval)).isSome = true ↔
      (JoinsSingleUse overrides.extendMode pending olds ∧
        effectiveType pending.request (some overrides.approval) ≠ .once) ∨
      TimedWithoutDuration pending.request (some overrides.approval) := by
  obtain ⟨hType, hDuration⟩ := effectiveType_extendedRequest
    overrides.extendMode pending olds (some overrides.approval)
  have hPending : (rewrittenGrant overrides.extendMode pending
      olds).status = .pending := h.isPending
  have hFree : truthy (rewrittenGrant overrides.extendMode pending
      olds).request.reference = false :=
    (congrArg truthy (reference_extendedRequest _ _ _)).trans h.unreferenced
  rw [approvalRefused_isSome_iff hPending hFree, TimedWithoutDuration]
  simp only [rewrittenGrant, hType, hDuration, singleUse_extendedRequest]
  exact Iff.rfl

theorem extendedRequest_nil_eq_iff (mode : ExtendMode)
    (pending : OpenApeGrant) :
    extendedRequest mode pending [] = pending.request ↔
      AlreadyRewritten mode pending.request := by
  have hJoined : extendedDetails mode pending [] =
      mergeCliAuthorizationDetails
        [cliDetails pending.request.authorizationDetails] := by
    cases mode <;> simp [extendedDetails, joinedDetails]
  have hFields : extendedRequest mode pending [] = pending.request ↔
      pending.request.authorizationDetails =
        some ((extendedDetails mode pending []).map .openapeCli) ∧
      pending.request.permissions =
        some ((extendedDetails mode pending []).map canonicalPermission) ∧
      (mode = .widen → pending.request.command = none ∧
        pending.request.cmdHash = none) := by
    cases mode with
    | widen =>
        refine (rescoped_eq_iff pending.request _ _ none none).trans ?_
        simp only [true_implies]
    | merge =>
        refine (rescoped_eq_iff pending.request _ _ pending.request.command
          pending.request.cmdHash).trans ?_
        simp
  have hMerge := mergeCliAuthorizationDetails_eq_flatten_iff
    [cliDetails pending.request.authorizationDetails]
  simp only [List.flatten_cons, List.flatten_nil, List.append_nil] at hMerge
  rw [hFields, hJoined]
  constructor
  · rintro ⟨hDetails, hPermissions, hCommand⟩
    have hSelf : cliDetails pending.request.authorizationDetails =
        mergeCliAuthorizationDetails
          [cliDetails pending.request.authorizationDetails] := by
      conv_lhs => rw [hDetails, cliDetails_map_openapeCli]
    obtain ⟨hNodup, hCanonical⟩ := hMerge.mp hSelf.symm
    rw [← hSelf] at hDetails hPermissions
    exact ⟨_, hDetails, hNodup, hCanonical, hPermissions, hCommand⟩
  · rintro ⟨details, hDetails, hNodup, hCanonical, hPermissions, hCommand⟩
    have hSelf : cliDetails pending.request.authorizationDetails = details :=
      by rw [hDetails, cliDetails_map_openapeCli]
    rw [hSelf] at hMerge
    rw [hSelf, hMerge.mpr ⟨hNodup, hCanonical⟩]
    exact ⟨hDetails, hPermissions, hCommand⟩

/-- The writes before the approval change nothing exactly when no grant is
extended and the request is already rewritten. -/
theorem preparedStore_eq_iff {grants : GrantTable} {grantId : JsString}
    {overrides : ExtensionOverrides} {pending : OpenApeGrant}
    {olds : List OpenApeGrant}
    (h : Admitted grants grantId overrides.extendGrantIds pending olds) :
    preparedStore grants overrides.extendMode pending olds = grants ↔
      overrides.extendGrantIds = [] ∧
        AlreadyRewritten overrides.extendMode pending.request := by
  cases olds with
  | nil =>
      have hIds : overrides.extendGrantIds = [] := h.ids_eq.symm
      have hKey : pending.id = grantId := Table.key_of_find? h.found
      have hStore : preparedStore grants overrides.extendMode pending [] =
          grants.put (rewrittenGrant overrides.extendMode pending []) := rfl
      rw [hStore, ← extendedRequest_nil_eq_iff]
      simp only [hIds, true_and]
      constructor
      · intro hEq
        have hFound := find?_preparedStore h overrides.extendMode
        rw [hStore, hEq, h.found] at hFound
        exact congrArg OpenApeGrant.request (Option.some.inj hFound).symm
      · intro hEq
        have hSame : rewrittenGrant overrides.extendMode pending [] =
            pending := by
          rw [rewrittenGrant, hEq]
        rw [hSame]
        exact Table.put_of_find? (hKey ▸ h.found)
  | cons old rest =>
      have hIds : overrides.extendGrantIds ≠ [] := by
        rw [← h.ids_eq]
        simp
      simp only [hIds, false_and, iff_false]
      intro hEq
      obtain ⟨hFound, hApproved, _⟩ := h.of_mem List.mem_cons_self
      have hMem : old.id ∈ (untilRepeat [] (old :: rest)).map
          OpenApeGrant.id := by simp [untilRepeat]
      have hFind : ∃ revoked ∈ untilRepeat [] (old :: rest),
          revoked.id = old.id ∧
          (preparedStore grants overrides.extendMode pending
            (old :: rest)).find? old.id = some (revokedGrant revoked) :=
        find?_revokeIn_of_mem hMem
      obtain ⟨revoked, _, _, hRevoked⟩ := hFind
      rw [hEq, hFound] at hRevoked
      rw [Option.some.inj hRevoked] at hApproved
      cases hApproved

/-- When a failed extension leaves the store as it was. -/
theorem extension_leavesStore_iff (grantId approver : JsString)
    (overrides : ExtensionOverrides) (w : MemoryWorld) :
    LeavesStoreOnFailure
        (approveGrantWithExtension grantId approver overrides) w ↔
      ¬∃ pending olds,
        Admitted w.store grantId overrides.extendGrantIds pending olds ∧
        RefusedLate overrides pending olds ∧
        ¬(overrides.extendGrantIds = [] ∧
          AlreadyRewritten overrides.extendMode pending.request) := by
  by_cases hAdmitted : ∃ pending olds,
      Admitted w.store grantId overrides.extendGrantIds pending olds
  · obtain ⟨pending, olds, h⟩ := hAdmitted
    have hOnly : (∃ pending olds,
        Admitted w.store grantId overrides.extendGrantIds pending olds ∧
        RefusedLate overrides pending olds ∧
        ¬(overrides.extendGrantIds = [] ∧
          AlreadyRewritten overrides.extendMode pending.request)) ↔
        RefusedLate overrides pending olds ∧
        ¬(overrides.extendGrantIds = [] ∧
          AlreadyRewritten overrides.extendMode pending.request) := by
      constructor
      · rintro ⟨other, others, hOther, hRest⟩
        obtain ⟨rfl, rfl⟩ := h.unique hOther
        exact hRest
      · exact fun hRest => ⟨pending, olds, h, hRest⟩
    have hRepeat : untilRepeat [] olds = olds ↔
        overrides.extendGrantIds.Nodup := by
      rw [untilRepeat_eq_self_iff, h.ids_eq]
    have hRefused := approvalRefused_rewrittenGrant h
    rw [hOnly, ← preparedStore_eq_iff h, RefusedLate, ← hRefused, ← hRepeat]
    rcases run_admittedExtension approver h with
      ⟨hSome, error, hRun⟩ | ⟨hAll, error, hError, hRun⟩ |
        ⟨hAll, hNone, hRun⟩
    · rw [leavesStore_iff_of_run hRun]
      simp [hSome]
    · rw [leavesStore_iff_of_run hRun]
      simp [hError]
    · simp only [hAll, hNone, Option.isSome_none]
      simpa using leavesStore_of_ok hRun
  · obtain ⟨error, hRun⟩ := run_extension_refused approver hAdmitted
    refine ⟨fun _ => ?_, fun _ => leavesStore_of_unwritten hRun⟩
    rintro ⟨pending, olds, h, _⟩
    exact hAdmitted ⟨pending, olds, h⟩

end Extension

/-! ## Widening -/

section Widening

/-- A detail with the selectors of the original removed none of them. -/
theorem selectorRemoved_of_chain_eq {original widened : CliAuthorizationDetail}
    (h : widened.resourceChain = original.resourceChain) :
    selectorRemoved original widened = false := by
  rw [selectorRemoved, h, List.any_eq_false]
  intro removed hMem
  obtain ⟨i, hi, rfl⟩ := List.mem_mapIdx.mp hMem
  cases hSelector : original.resourceChain[i].selector <;>
    simp [hi, hSelector]

variable [Collation]

/-- The widened detail is the original one. -/
def Unwidened (original : CliAuthorizationDetail)
    (widened : AuthorizationDetail) : Prop :=
  ∃ detail, widened = .openapeCli detail ∧
    detail.resourceChain = original.resourceChain ∧
    original.permission = canonicalPermission original ∧
    (detail.display = [] ∨ detail.display = original.display)

/-- The request already has the form that widening it by nothing gives, and
the details widen nothing. -/
def AlreadyWidened (request : OpenApeGrantRequest)
    (widenedDetails : List AuthorizationDetail) : Prop :=
  ∃ details : List CliAuthorizationDetail,
    request.authorizationDetails = some (details.map .openapeCli) ∧
    List.Forall₂ Unwidened details widenedDetails ∧
    request.permissions =
      some (details.map CliAuthorizationDetail.permission) ∧
    request.command = none ∧ request.cmdHash = none

/-- What passed the checks of one widened detail. -/
theorem normalizeWidened_ok {idx : Nat} {original n : CliAuthorizationDetail}
    {widened : AuthorizationDetail}
    (h : normalizeWidened idx original widened = .ok n) :
    ∃ detail, widened = .openapeCli detail ∧
      detail.cliId = original.cliId ∧ detail.action = original.action ∧
      detail.operationId = original.operationId ∧
      resourceChainsStructurallyMatch detail.resourceChain
        original.resourceChain = true ∧
      cliAuthorizationDetailCovers detail original = true ∧
      n = normalizedDetail original detail := by
  unfold normalizeWidened at h
  split at h
  · cases h
  · cases h
  · rename_i detail
    split_ifs at h with hCli hAction hOperation hChain hCovers
    exact ⟨detail, rfl, by simpa using hCli, by simpa using hAction,
      by simpa using hOperation, by simpa using hChain,
      by simpa using hCovers, (Except.ok.inj h).symm⟩

theorem normalizeWidened_eq_original_iff {idx : Nat}
    {original n : CliAuthorizationDetail} {widened : AuthorizationDetail}
    (h : normalizeWidened idx original widened = .ok n) :
    n = original ↔ Unwidened original widened := by
  obtain ⟨detail, rfl, hCli, hAction, -, -, -, rfl⟩ := normalizeWidened_ok h
  constructor
  · intro hEq
    have hChain : (normalizedDetail original detail).resourceChain =
        original.resourceChain := by rw [hEq]
    have hPermission : (normalizedDetail original detail).permission =
        original.permission := by rw [hEq]
    have hDisplay : (normalizedDetail original detail).display =
        original.display := by rw [hEq]
    simp only [normalizedDetail] at hChain hPermission hDisplay
    refine ⟨detail, rfl, hChain, ?_, ?_⟩
    · rw [← hPermission, canonicalPermission, canonicalPermission, hCli,
        hAction, hChain]
    · by_cases hEmpty : detail.display = []
      · exact .inl hEmpty
      · simp only [List.isEmpty_iff, if_neg hEmpty] at hDisplay
        exact .inr hDisplay
  · rintro ⟨other, hOther, hChain, hPermission, hDisplay⟩
    obtain rfl := AuthorizationDetail.openapeCli.inj hOther
    have hCanonical : canonicalPermission detail = original.permission := by
      rw [hPermission, canonicalPermission, canonicalPermission, hCli,
        hAction, hChain]
    have hText : (if detail.display.isEmpty then original.display
        else detail.display) = original.display := by
      rcases hDisplay with hEmpty | hSame
      · simp [hEmpty]
      · split
        · rfl
        · exact hSame
    simp only [normalizedDetail, selectorRemoved_of_chain_eq hChain, hChain,
      hCanonical, hText, Bool.false_eq_true, if_false]

theorem normalizeAll_ok {idx : Nat} {originals ns : List CliAuthorizationDetail}
    {widenedDetails : List AuthorizationDetail}
    (hLength : widenedDetails.length = originals.length)
    (h : normalizeAll idx originals widenedDetails = .ok ns) :
    (ns = originals ↔ List.Forall₂ Unwidened originals widenedDetails) ∧
      ∀ n ∈ ns, n.constraints = none ∨
        ∃ original ∈ originals, n.constraints = original.constraints := by
  induction originals generalizing idx ns widenedDetails with
  | nil =>
      obtain rfl := List.length_eq_zero_iff.mp hLength
      obtain rfl := Except.ok.inj h
      simp
  | cons original originals ih =>
      obtain ⟨widened, rest, rfl⟩ :=
        List.exists_cons_of_length_eq_add_one hLength
      unfold normalizeAll at h
      split at h
      · cases h
      · rename_i n hFirst
        split at h
        · cases h
        · rename_i others hRest
          obtain rfl := Except.ok.inj h
          obtain ⟨hIff, hConstraints⟩ :=
            ih (by simpa using hLength) hRest
          refine ⟨?_, ?_⟩
          · rw [List.cons.injEq, List.forall₂_cons, hIff,
              normalizeWidened_eq_original_iff hFirst]
          · obtain ⟨detail, _, _, _, _, _, _, rfl⟩ :=
              normalizeWidened_ok hFirst
            intro other hOther
            rcases List.mem_cons.mp hOther with rfl | hOther
            · unfold normalizedDetail
              dsimp only
              split
              · exact .inl rfl
              · exact .inr ⟨original, List.mem_cons_self, rfl⟩
            · rcases hConstraints other hOther with hNone | ⟨o, hMem, hEq⟩
              · exact .inl hNone
              · exact .inr ⟨o, List.mem_cons_of_mem _ hMem, hEq⟩

theorem widenedDetailsOf_ok {pending : OpenApeGrant}
    {widenedDetails : List AuthorizationDetail}
    {normalized : List CliAuthorizationDetail}
    (h : widenedDetailsOf pending widenedDetails = .ok normalized) :
    let originals := cliDetails pending.request.authorizationDetails
    (normalized = originals ↔
        List.Forall₂ Unwidened originals widenedDetails) ∧
      ∀ n ∈ normalized, n.constraints = none ∨
        ∃ original ∈ originals, n.constraints = original.constraints := by
  simp only [widenedDetailsOf] at h
  split_ifs at h with hNone hLength
  exact normalizeAll_ok (by simpa using hLength) h

/-- The rewritten request is the old one exactly when it had its form and
the details widen nothing. -/
theorem widenedRequest_eq_iff {grants : GrantTable} {grantId : JsString}
    {widenedDetails : List AuthorizationDetail} {pending : OpenApeGrant}
    {normalized : List CliAuthorizationDetail}
    (h : Widenable grants grantId widenedDetails pending normalized) :
    widenedRequest pending normalized = pending.request ↔
      AlreadyWidened pending.request widenedDetails := by
  obtain ⟨hIff, _⟩ := widenedDetailsOf_ok h.widened
  rw [widenedRequest, rescoped_eq_iff]
  constructor
  · rintro ⟨hDetails, hPermissions, hCommand, hHash⟩
    have hSelf : cliDetails pending.request.authorizationDetails =
        normalized := by rw [hDetails, cliDetails_map_openapeCli]
    rw [hSelf] at hIff
    exact ⟨normalized, hDetails, hIff.mp rfl, hPermissions, hCommand, hHash⟩
  · rintro ⟨details, hDetails, hUnwidened, hPermissions, hCommand, hHash⟩
    have hSelf : cliDetails pending.request.authorizationDetails =
        details := by rw [hDetails, cliDetails_map_openapeCli]
    rw [hSelf] at hIff
    obtain rfl := hIff.mpr hUnwidened
    exact ⟨hDetails, hPermissions, hCommand, hHash⟩

/-- The approval refuses a widened grant only for want of a duration. -/
theorem approvalRefused_widenedGrant {grants : GrantTable}
    {grantId : JsString} {widenedDetails : List AuthorizationDetail}
    {overrides : Option ApproveGrantOverrides} {pending : OpenApeGrant}
    {normalized : List CliAuthorizationDetail}
    (h : Widenable grants grantId widenedDetails pending normalized) :
    (approvalRefused (widenedGrant pending normalized)
        overrides).isSome = true ↔
      TimedWithoutDuration pending.request overrides := by
  obtain ⟨_, hConstraints⟩ := widenedDetailsOf_ok h.widened
  have hSingle : ¬singleUse (widenedGrant pending
      normalized).request.authorizationDetails = true := by
    change ¬singleUse (some (normalized.map .openapeCli)) = true
    rw [singleUse, cliDetails_map_openapeCli, List.any_eq_true]
    rintro ⟨n, hn, hUse⟩
    rcases hConstraints n hn with hNone | ⟨original, hMem, hEq⟩
    · rw [hNone] at hUse
      simp at hUse
    · rw [hEq] at hUse
      have hPending := h.notSingleUse
      rw [singleUse, List.any_eq_false] at hPending
      exact hPending original hMem hUse
  have hPending : (widenedGrant pending normalized).status = .pending :=
    h.isPending
  have hFree : truthy (widenedGrant pending
      normalized).request.reference = false := h.unreferenced
  rw [approvalRefused_isSome_iff hPending hFree]
  simp only [hSingle, Bool.false_eq_true, false_and, false_or]
  exact Iff.rfl

/-- When a failed widening leaves the store as it was. -/
theorem widening_leavesStore_iff (grantId approver : JsString)
    (widenedDetails : List AuthorizationDetail)
    (overrides : Option ApproveGrantOverrides) (w : MemoryWorld) :
    LeavesStoreOnFailure
        (approveGrantWithWidening grantId approver widenedDetails overrides)
        w ↔
      ¬∃ pending normalized,
        Widenable w.store grantId widenedDetails pending normalized ∧
        TimedWithoutDuration pending.request overrides ∧
        ¬AlreadyWidened pending.request widenedDetails := by
  by_cases hWidenable : ∃ pending normalized,
      Widenable w.store grantId widenedDetails pending normalized
  · obtain ⟨pending, normalized, h⟩ := hWidenable
    have hOnly : (∃ pending normalized,
        Widenable w.store grantId widenedDetails pending normalized ∧
        TimedWithoutDuration pending.request overrides ∧
        ¬AlreadyWidened pending.request widenedDetails) ↔
        TimedWithoutDuration pending.request overrides ∧
        ¬AlreadyWidened pending.request widenedDetails := by
      constructor
      · rintro ⟨other, _, hOther, hRest⟩
        obtain rfl := Option.some.inj (h.found.symm.trans hOther.found)
        exact hRest
      · exact fun hRest => ⟨pending, normalized, h, hRest⟩
    have hStore : w.store.put (widenedGrant pending normalized) = w.store ↔
        widenedRequest pending normalized = pending.request := by
      obtain rfl : pending.id = grantId := Table.key_of_find? h.found
      constructor
      · intro hEq
        have hFound := Table.find?_put_self w.store
          (widenedGrant pending normalized)
        rw [hEq] at hFound
        have hSame := Option.some.inj (h.found.symm.trans hFound)
        exact congrArg OpenApeGrant.request hSame.symm
      · intro hEq
        rw [widenedGrant, hEq]
        exact Table.put_of_find? h.found
    rw [hOnly, ← widenedRequest_eq_iff h,
      ← approvalRefused_widenedGrant h, ← hStore]
    rcases run_widening_of_widenable approver overrides h with
      ⟨error, hError, hRun⟩ | ⟨hNone, hRun⟩
    · rw [leavesStore_iff_of_run hRun]
      simp [hError]
    · simp only [hNone, Option.isSome_none]
      simpa using leavesStore_of_ok hRun
  · obtain ⟨error, hRun⟩ := run_widening_refused approver overrides hWidenable
    refine ⟨fun _ => ?_, fun _ => leavesStore_of_unwritten hRun⟩
    rintro ⟨pending, normalized, h, _⟩
    exact hWidenable ⟨pending, normalized, h⟩

end Widening

/-! ## Both operations -/

/-- **When a failed extension or widening leaves the grant store as it was**:
unless its checks pass, the approval is then refused (or an id repeats), and
the writes before it change something. -/
theorem failure_leavesStore_iff [Collation] :
    (∀ (grantId approver : JsString) (overrides : ExtensionOverrides)
      (w : MemoryWorld),
      LeavesStoreOnFailure
          (approveGrantWithExtension grantId approver overrides) w ↔
        ¬∃ pending olds,
          Admitted w.store grantId overrides.extendGrantIds pending olds ∧
          RefusedLate overrides pending olds ∧
          ¬(overrides.extendGrantIds = [] ∧
            AlreadyRewritten overrides.extendMode pending.request)) ∧
    (∀ (grantId approver : JsString)
      (widenedDetails : List AuthorizationDetail)
      (overrides : Option ApproveGrantOverrides) (w : MemoryWorld),
      LeavesStoreOnFailure
          (approveGrantWithWidening grantId approver widenedDetails
            overrides) w ↔
        ¬∃ pending normalized,
          Widenable w.store grantId widenedDetails pending normalized ∧
          TimedWithoutDuration pending.request overrides ∧
          ¬AlreadyWidened pending.request widenedDetails) :=
  ⟨extension_leavesStore_iff, widening_leavesStore_iff⟩

/-- The detail of `repo list` on every repository, or on one. -/
private def repoDetail (selector : Option Record) : CliAuthorizationDetail :=
  let chain := [{ resource := js "repo", selector := selector }]
  { cliId := js "gh", operationId := js "repo.list", resourceChain := chain,
    action := js "list", permission := js "gh.repo[*]#list",
    display := js "List", risk := .low }

private def grantOf (id : JsString) (status : GrantStatus) : OpenApeGrant :=
  { id := id, status := status, createdAt := 1000
    request :=
      { requester := js "agent@example.com", targetHost := js "host",
        audience := js "shapes", command := some [js "gh", js "repo"],
        permissions := some [js "gh.repo[*]#list"],
        authorizationDetails := some [.openapeCli (repoDetail none)] } }

/-- A pending grant and an approved one. -/
private def twoGrants : MemoryWorld where
  store := (Table.empty.put (grantOf (js "new") .pending)).put
    (grantOf (js "old") .approved)
  clock _ := 2000
  uuids _ := []

/-- Joining the two as a timed grant without a duration throws, with the
request rewritten and the old grant revoked; so does widening the pending
one, with its command dropped. -/
theorem not_leavesStore_timedWithoutDuration :
    letI := codeUnitCollation
    ¬LeavesStoreOnFailure (approveGrantWithExtension (js "new")
        (js "admin@example.com")
        { grantType := some .timed, extendMode := .widen,
          extendGrantIds := [js "old"] }) twoGrants ∧
      ¬LeavesStoreOnFailure (approveGrantWithWidening (js "new")
        (js "admin@example.com") [.openapeCli (repoDetail none)]
        (some { grantType := some .timed })) twoGrants := by
  let _ := codeUnitCollation
  refine ⟨fun h => ?_, fun h => ?_⟩
  · have hStore := h durationRequired _ rfl
    exact absurd hStore (by decide)
  · have hStore := h durationRequired _ rfl
    exact absurd hStore (by decide)

end OpenApe.Ports.GrantsFailure
