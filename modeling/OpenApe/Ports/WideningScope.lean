import OpenApe.Ports.GrantReuse
import OpenApe.Ports.GrantsMemory
import OpenApe.Ports.CliPermissionsWidening

/-!
# What an approver's widening may change

`approveGrantWithWidening` takes the approver's details index by index, checks
each against the original detail, and recomputes what the approver must not
choose.  The approved grant then stays within the operation that was asked
for: it covers the original call, and its request is the pending one but for
the fields a widening is about.

The constraint to one exact command is dropped where a selector was removed.
A position can also be widened by a glob or by a selector without values, and
then the constraint stays; `widening_stays_within_iff` says exactly when a
detail that was widened is rid of it.
-/

namespace OpenApe.Ports.WideningScope

open Verified.JsText Verified.KeyedTable Verified.Programs.Program
open GrantTypes GrantStore CliPermissions CliPermissionsCoverage
  CliPermissionsWidening Grants GrantReuse GrantsExtension GrantsMemory

/-! ## One call -/

/-- A call of the argv, files, program and shape that a grant was recorded
with is bound by it, unless it has to be approved once. -/
theorem bindsCall_of_same {grant : OpenApeGrant} {call : ProgramCallScope}
    (hOnce : call.requiresOnce = false)
    (hFiles : filesOf grant.request = call.files.getD [])
    (hArgv : argvHashOf grant.request = some call.argvHash)
    (hProgram : bindsProgram grant.request call = true)
    (hShape : sameShapeTier (shapeTierFacts grant.request.executionContext)
      call.shapeTier = true) : bindsCall grant call = true := by
  simp [bindsCall, hOnce, hFiles, hArgv, hProgram, hShape]

section Scope

variable [Collation]

/-! ## One detail -/

/-- Some position of the widened chain binds other values than the original:
it stands for more than the values the original names there. -/
def WidensSome (original widened : CliAuthorizationDetail) : Prop :=
  ∃ (i : Nat) (a b : CliResourceRef), original.resourceChain[i]? = some a ∧
    widened.resourceChain[i]? = some b ∧ ¬SameSelector a b

/-- The checks a widened detail has passed. -/
structure Checked (original widened : CliAuthorizationDetail) : Prop where
  cliId : widened.cliId = original.cliId
  action : widened.action = original.action
  operationId : widened.operationId = original.operationId
  structure_eq : resourceChainsStructurallyMatch widened.resourceChain
    original.resourceChain = true
  covers : cliAuthorizationDetailCovers widened original = true

theorem Checked.resources {original widened : CliAuthorizationDetail}
    (h : Checked original widened) :
    widened.resourceChain.map CliResourceRef.resource =
      original.resourceChain.map CliResourceRef.resource := by
  simpa [resourceChainsStructurallyMatch] using h.structure_eq

theorem normalizeWidened_eq_ok {idx : Nat}
    {original normalized : CliAuthorizationDetail}
    {widened : AuthorizationDetail}
    (h : normalizeWidened idx original widened = .ok normalized) :
    ∃ detail, widened = .openapeCli detail ∧ Checked original detail ∧
      normalized = normalizedDetail original detail := by
  cases widened with
  | openapeGrant detail => cases h
  | other json => cases h
  | openapeCli detail =>
      unfold normalizeWidened at h
      dsimp only at h
      by_cases hCli : detail.cliId = original.cliId
      · rw [if_neg (not_not.mpr hCli)] at h
        by_cases hAction : detail.action = original.action
        · rw [if_neg (not_not.mpr hAction)] at h
          by_cases hOperation : detail.operationId = original.operationId
          · rw [if_neg (not_not.mpr hOperation)] at h
            by_cases hChain : resourceChainsStructurallyMatch
                detail.resourceChain original.resourceChain = true
            · rw [if_neg (by simp [hChain])] at h
              by_cases hCovers :
                  cliAuthorizationDetailCovers detail original = true
              · rw [if_neg (by simp [hCovers])] at h
                exact ⟨detail, rfl,
                  ⟨hCli, hAction, hOperation, hChain, hCovers⟩,
                  (Except.ok.inj h).symm⟩
              · rw [if_pos (by simp [hCovers])] at h
                cases h
            · rw [if_pos (by simp [hChain])] at h
              cases h
          · rw [if_pos hOperation] at h
            cases h
        · rw [if_pos hAction] at h
          cases h
      · rw [if_pos hCli] at h
        cases h

/-- **What the loop over the details returns**, index by index. -/
theorem normalizeAll_eq_ok {idx : Nat}
    {originals normalized : List CliAuthorizationDetail}
    {widenedDetails : List AuthorizationDetail}
    (hLength : widenedDetails.length = originals.length)
    (h : normalizeAll idx originals widenedDetails = .ok normalized) :
    normalized.length = originals.length ∧
      ∀ (i : Nat) original, originals[i]? = some original →
        ∃ detail, widenedDetails[i]? = some (.openapeCli detail) ∧
          Checked original detail ∧
          normalized[i]? = some (normalizedDetail original detail) := by
  induction originals generalizing idx widenedDetails normalized with
  | nil =>
      cases h
      exact ⟨rfl, by simp⟩
  | cons original originals ih =>
      cases widenedDetails with
      | nil => simp at hLength
      | cons widened widenedDetails =>
          unfold normalizeAll at h
          cases hFirst : normalizeWidened idx original widened with
          | error error =>
              rw [hFirst] at h
              cases h
          | ok first =>
              rw [hFirst] at h
              dsimp only at h
              cases hRest : normalizeAll (idx + 1) originals widenedDetails with
              | error error =>
                  rw [hRest] at h
                  cases h
              | ok rest =>
                  rw [hRest] at h
                  obtain rfl := Except.ok.inj h
                  obtain ⟨detail, rfl, hChecked, rfl⟩ :=
                    normalizeWidened_eq_ok hFirst
                  have ih := ih (by simpa using hLength) hRest
                  refine ⟨by simp [ih.1], ?_⟩
                  intro i original' hOriginal
                  cases i with
                  | zero =>
                      obtain rfl := Option.some.inj hOriginal
                      exact ⟨detail, rfl, hChecked, rfl⟩
                  | succ i => exact ih.2 i original' hOriginal

/-- The approved detail covers the original one. -/
theorem normalizedDetail_covers {original widened : CliAuthorizationDetail}
    (h : Checked original widened) :
    cliAuthorizationDetailCovers (normalizedDetail original widened)
      original = true := by
  have hCovers := (cliAuthorizationDetailCovers_iff _ _).mp h.covers
  exact (cliAuthorizationDetailCovers_iff _ _).mpr ⟨rfl, rfl, hCovers.2.2⟩

/-- Its permission is the canonical one of its own chain. -/
theorem normalizedDetail_permission {original widened : CliAuthorizationDetail}
    (h : Checked original widened) :
    (normalizedDetail original widened).permission =
      canonicalPermission (normalizedDetail original widened) := by
  simp only [normalizedDetail, canonicalPermission, h.cliId, h.action]

/-- The constraint to one exact command stays unless a selector was
removed. -/
theorem isExact_normalizedDetail (original widened : CliAuthorizationDetail) :
    isCliAuthorizationDetailExact (normalizedDetail original widened) =
      (isCliAuthorizationDetailExact original &&
        !selectorRemoved original widened) := by
  unfold isCliAuthorizationDetailExact normalizedDetail
  cases selectorRemoved original widened <;> simp

/-! ## The approved grant -/

/-- A call that the pending grant asks for: one of its details, with the argv,
files and program it was recorded with, resolved by the same shape, for the
same requester's host and audience.  A call of an operation that is approved
once has a detail that says so. -/
structure OriginalCall (pending : OpenApeGrant) (call : ProgramCallScope)
    (brokered : Option BrokeredGrant) : Prop where
  detail : call.detail ∈ cliDetails pending.request.authorizationDetails
  command : commandGrantFor pending call brokered = true
  argv : argvHashOf pending.request = some call.argvHash
  files : filesOf pending.request = call.files.getD []
  program : bindsProgram pending.request call = true
  shape : sameShapeTier (shapeTierFacts pending.request.executionContext)
    call.shapeTier = true
  once : call.requiresOnce = true →
    singleUse pending.request.authorizationDetails = true

/-- What an approved detail keeps of the original at its index. -/
structure KeepsOperation (original approved : CliAuthorizationDetail) :
    Prop where
  covers : cliAuthorizationDetailCovers approved original = true
  cliId : approved.cliId = original.cliId
  action : approved.action = original.action
  operationId : approved.operationId = original.operationId
  risk : approved.risk = original.risk
  resources : approved.resourceChain.map CliResourceRef.resource =
    original.resourceChain.map CliResourceRef.resource
  permission : approved.permission = canonicalPermission approved
  constraint : WidensSome original approved →
    isCliAuthorizationDetailExact approved = false

/-- **The widening stays within its operation.** -/
structure StaysWithin (pending approved : OpenApeGrant) : Prop where
  details : ∃ details : List CliAuthorizationDetail,
    approved.request.authorizationDetails = some (details.map .openapeCli) ∧
    details.length =
      (cliDetails pending.request.authorizationDetails).length ∧
    ∀ (i : Nat) original detail,
      (cliDetails pending.request.authorizationDetails)[i]? = some original →
      details[i]? = some detail → KeepsOperation original detail
  coversCall : ∀ call brokered now, OriginalCall pending call brokered →
    outlived approved.expiresAt now = false →
    findCoveringGrant [approved] call brokered now = some approved
  frame : ∃ details permissions grantType duration, approved.request =
    { pending.request with
      authorizationDetails := details
      permissions := permissions
      command := none
      cmdHash := none
      grantType := grantType
      duration := duration }

/-- Every detail that is bound to one exact command and widened somewhere has
lost some selector, not only a value of one. -/
def RemovesSelectors (pending : OpenApeGrant)
    (widenedDetails : List AuthorizationDetail) : Prop :=
  ∀ (i : Nat) original widened,
    (cliDetails pending.request.authorizationDetails)[i]? = some original →
    widenedDetails[i]? = some (.openapeCli widened) →
    isCliAuthorizationDetailExact original = true →
    WidensSome original widened → selectorRemoved original widened = true

theorem findCoveringGrant_singleton {grant : OpenApeGrant}
    {call : ProgramCallScope} {brokered : Option BrokeredGrant} {now : Int}
    (h : coversCall grant call brokered now = true) :
    findCoveringGrant [grant] call brokered now = some grant := by
  have hSome := (findCoveringGrant_isSome_iff [grant] call brokered now).mpr
    ⟨grant, List.mem_singleton_self _, h⟩
  obtain ⟨found, hFound⟩ := Option.isSome_iff_exists.mp hSome
  rw [hFound, List.mem_singleton.mp (mem_of_findCoveringGrant hFound).1]

section Approved

variable {pending : OpenApeGrant} {normalized : List CliAuthorizationDetail}
  (overrides : Option ApproveGrantOverrides) (approver : JsString) (now : Int)

/-- The grant that a successful widening leaves. -/
def widenedApproval (pending : OpenApeGrant)
    (normalized : List CliAuthorizationDetail)
    (overrides : Option ApproveGrantOverrides) (approver : JsString)
    (now : Int) : OpenApeGrant :=
  approvedGrant (widenedGrant pending normalized) overrides approver now

theorem coversCall_widenedApproval {call : ProgramCallScope}
    {brokered : Option BrokeredGrant}
    (hSingle : singleUse pending.request.authorizationDetails = false)
    (hCovers : ∃ detail ∈ normalized,
      cliAuthorizationDetailCovers detail call.detail = true)
    (hCall : OriginalCall pending call brokered) {time : Int}
    (hTime : outlived (widenedApproval pending normalized overrides approver
      now).expiresAt time = false) :
    coversCall (widenedApproval pending normalized overrides approver now)
      call brokered time = true := by
  have hOnce : call.requiresOnce = false := by
    cases hRequires : call.requiresOnce with
    | false => rfl
    | true =>
        rw [hCall.once hRequires] at hSingle
        cases hSingle
  rw [coversCall_iff]
  refine ⟨rfl, hTime, hCall.command, ?_, ?_⟩
  · obtain ⟨detail, hDetail, hCovers⟩ := hCovers
    have hMem : detail ∈ coverableCliDetails
        (widenedApproval pending normalized overrides approver
          now).request.authorizationDetails := by
      change detail ∈ coverableCliDetails
        (some (normalized.map .openapeCli))
      simp only [coverableCliDetails, Option.getD_some, List.filterMap_map]
      exact List.mem_filterMap.mpr ⟨detail, hDetail, rfl⟩
    simp only [cliAuthorizationDetailsCover, List.all_cons, List.all_nil,
      Bool.and_true, List.any_eq_true]
    exact ⟨detail, hMem, hCovers⟩
  · exact bindsCall_of_same hOnce hCall.files hCall.argv hCall.program
      hCall.shape

end Approved

/-- What a widening that returned has checked and left. -/
theorem widenable_of_run {grantId approver : JsString}
    {widenedDetails : List AuthorizationDetail}
    {overrides : Option ApproveGrantOverrides} {w w' : MemoryWorld}
    {approved : OpenApeGrant}
    (h : exec memoryStore
      (approveGrantWithWidening grantId approver widenedDetails overrides) w =
        (.ok (some approved), w')) :
    ∃ pending normalized,
      Widenable w.store grantId widenedDetails pending normalized ∧
        approved = widenedApproval pending normalized overrides approver
          w.now := by
  by_cases hWidenable : ∃ pending normalized,
      Widenable w.store grantId widenedDetails pending normalized
  · obtain ⟨pending, normalized, hWidenable⟩ := hWidenable
    rcases run_widening_of_widenable approver overrides hWidenable with
      ⟨error, -, hRun⟩ | ⟨-, hRun⟩
    · rw [hRun] at h
      cases h
    · rw [hRun] at h
      obtain ⟨hApproved, -⟩ := Prod.mk.inj h
      exact ⟨pending, normalized, hWidenable,
        (Option.some.inj (Except.ok.inj hApproved)).symm⟩
  · obtain ⟨error, hRun⟩ := run_widening_refused approver overrides hWidenable
    rw [hRun] at h
    cases h

/-- The checks of the details, index by index. -/
theorem normalized_spec {pending : OpenApeGrant}
    {widenedDetails : List AuthorizationDetail}
    {normalized : List CliAuthorizationDetail}
    (h : widenedDetailsOf pending widenedDetails = .ok normalized) :
    normalized.length =
        (cliDetails pending.request.authorizationDetails).length ∧
      ∀ (i : Nat) original,
        (cliDetails pending.request.authorizationDetails)[i]? =
          some original →
        ∃ detail, widenedDetails[i]? = some (.openapeCli detail) ∧
          Checked original detail ∧
          normalized[i]? = some (normalizedDetail original detail) := by
  unfold widenedDetailsOf at h
  dsimp only at h
  split at h
  · cases h
  · split at h
    · cases h
    · rename_i hLength
      exact normalizeAll_eq_ok (not_not.mp hLength) h

/-- **When an approver's widening stays within its operation**: exactly when
every exact command that is widened somewhere has lost a selector. -/
theorem widening_stays_within_iff {grantId approver : JsString}
    {widenedDetails : List AuthorizationDetail}
    {overrides : Option ApproveGrantOverrides} {w w' : MemoryWorld}
    {pending approved : OpenApeGrant}
    (hFound : w.store.find? grantId = some pending)
    (hRun : exec memoryStore
      (approveGrantWithWidening grantId approver widenedDetails overrides) w =
        (.ok (some approved), w')) :
    StaysWithin pending approved ↔
      RemovesSelectors pending widenedDetails := by
  obtain ⟨pending', normalized, hWidenable, rfl⟩ := widenable_of_run hRun
  obtain rfl : pending' = pending :=
    Option.some.inj (hWidenable.found.symm.trans hFound)
  obtain ⟨hLength, hSpec⟩ := normalized_spec hWidenable.widened
  constructor
  · intro hStays i original widened hOriginal hWidened hExact hWidens
    obtain ⟨details, hDetails, -, hKeeps⟩ := hStays.details
    obtain rfl : normalized = details := by
      have hMap : normalized.map AuthorizationDetail.openapeCli =
          details.map .openapeCli := Option.some.inj hDetails
      exact List.map_injective_iff.mpr
        (fun _ _ => AuthorizationDetail.openapeCli.inj) hMap
    obtain ⟨detail, hDetail, hChecked, hNormalized⟩ :=
      hSpec i original hOriginal
    obtain rfl : widened = detail := AuthorizationDetail.openapeCli.inj
      (Option.some.inj (hWidened.symm.trans hDetail))
    have hFree := (hKeeps i original _ hOriginal hNormalized).constraint
      hWidens
    rw [isExact_normalizedDetail, hExact] at hFree
    simpa using hFree
  · intro hRemoves
    refine ⟨⟨normalized, rfl, hLength, ?_⟩, ?_,
      ⟨_, _, _, _, rfl⟩⟩
    · intro i original detail hOriginal hDetail
      obtain ⟨widened, hWidened, hChecked, hNormalized⟩ :=
        hSpec i original hOriginal
      obtain rfl := Option.some.inj (hDetail.symm.trans hNormalized)
      refine
        { covers := normalizedDetail_covers hChecked
          cliId := rfl
          action := rfl
          operationId := rfl
          risk := rfl
          resources := hChecked.resources
          permission := normalizedDetail_permission hChecked
          constraint := ?_ }
      intro hWidens
      rw [isExact_normalizedDetail]
      cases hExact : isCliAuthorizationDetailExact original with
      | false => rfl
      | true =>
          rw [hRemoves i original widened hOriginal hWidened hExact hWidens]
          rfl
    · intro call brokered time hCall hTime
      refine findCoveringGrant_singleton (coversCall_widenedApproval overrides
        approver w.now hWidenable.notSingleUse ?_ hCall hTime)
      obtain ⟨i, hOriginal⟩ := List.mem_iff_getElem?.mp hCall.detail
      obtain ⟨widened, -, hChecked, hNormalized⟩ := hSpec i _ hOriginal
      exact ⟨_, List.mem_of_getElem? hNormalized,
        normalizedDetail_covers hChecked⟩

end Scope

/-! ## A selector that is widened by a glob -/

theorem nameOnly_nodup (name : JsString) :
    ([(js "name", name)].map Prod.fst).Nodup := by
  simp

/-- Deleting the repositories that `name` stands for, one exact command. -/
private def deletion (name : JsString) : CliAuthorizationDetail where
  cliId := js "gh"
  operationId := js "repo.delete"
  resourceChain :=
    [{ resource := js "repo"
       selector := some ⟨[(js "name", name)], nameOnly_nodup name⟩ }]
  action := js "delete"
  permission := []
  display := js "Delete"
  risk := .high
  constraints := some { exactCommand := some true }

private def pendingDeletion : OpenApeGrant where
  id := js "g1"
  status := .pending
  createdAt := 1000
  request :=
    { requester := js "agent@example.com"
      targetHost := js "host"
      audience := js "shell"
      authorizationDetails := some [.openapeCli (deletion (js "api"))] }

private def deletionWorld : MemoryWorld where
  store := Table.empty.put pendingDeletion
  clock _ := 2000
  uuids _ := []

/-- Approving the deletion as it was asked for. -/
theorem widening_stays_within_iff_same :
    letI := codeUnitCollation
    deletionWorld.store.find? (js "g1") = some pendingDeletion ∧
      ∃ approved, (StaysWithin pendingDeletion approved ↔
        RemovesSelectors pendingDeletion
          [.openapeCli (deletion (js "api"))]) := by
  let _ := codeUnitCollation
  have hFound : deletionWorld.store.find? (js "g1") =
      some pendingDeletion := by decide
  exact ⟨hFound, _, @widening_stays_within_iff _ (js "g1") (js "owner")
    [.openapeCli (deletion (js "api"))] none deletionWorld _ _ _ hFound rfl⟩

/-- With the name widened to `*`, the deletion of any repository is still
bound to one exact command. -/
theorem not_staysWithin_glob :
    ¬∀ (_ : Collation) (grantId approver : JsString)
        (widenedDetails : List AuthorizationDetail)
        (overrides : Option ApproveGrantOverrides) (w w' : MemoryWorld)
        (pending approved : OpenApeGrant),
      w.store.find? grantId = some pending →
      exec memoryStore (approveGrantWithWidening grantId approver
        widenedDetails overrides) w = (.ok (some approved), w') →
      StaysWithin pending approved := by
  intro hAll
  let _ := codeUnitCollation
  have hStays := hAll codeUnitCollation (js "g1") (js "owner")
    [.openapeCli (deletion (js "*"))] none deletionWorld _ pendingDeletion _
    (by decide) rfl
  obtain ⟨details, hDetails, -, hKeeps⟩ := hStays.details
  have hWidened : details = [normalizedDetail (deletion (js "api"))
      (deletion (js "*"))] := by
    have hMap := Option.some.inj hDetails.symm
    exact List.map_injective_iff.mpr
      (fun _ _ => AuthorizationDetail.openapeCli.inj) hMap
  have hWidens : WidensSome (deletion (js "api"))
      (normalizedDetail (deletion (js "api")) (deletion (js "*"))) := by
    refine ⟨0, _, _, rfl, rfl, fun hSame => ?_⟩
    exact absurd (hSame (js "name")) (by decide)
  have hFree := (hKeeps 0 (deletion (js "api")) _ (by decide)
    (by rw [hWidened]; rfl)).constraint hWidens
  exact absurd hFree (by decide)

end OpenApe.Ports.WideningScope
