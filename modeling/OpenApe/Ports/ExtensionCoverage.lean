import OpenApe.Ports.GrantReuse
import OpenApe.Ports.GrantsFailure

/-!
# What an extended grant still covers

An extension revokes the grants it joins, so every program call they answered
must be answered by the joined grant, or by a grant that was not extended.
The main result compares `findCoveringGrant` before and after an extension
that is approved for always.
-/

namespace OpenApe.Ports.ExtensionCoverage

open Verified.JsText Verified.KeyedTable Verified.Programs.Program
open GrantTypes GrantStore
open GrantStore.MemoryStore (findByRequester mem_findByRequester)
open CliPermissions CliPermissionsMerging Grants GrantsExtension GrantsMemory
  GrantsFailure GrantReuse

section Coverage

variable [Collation]

/-! ## Coverage by a table -/

/-- A call is covered when the row of some id covers it. -/
theorem covered_iff (grants : GrantTable) (requester : JsString)
    (call : ProgramCallScope) (brokered : Option BrokeredGrant) (now : Int) :
    (findCoveringGrant (findByRequester grants requester) call brokered
        now).isSome = true ↔
      ∃ id grant, grants.find? id = some grant ∧
        grant.request.requester = requester ∧
        coversCall grant call brokered now = true := by
  rw [findCoveringGrant_isSome_iff]
  constructor
  · rintro ⟨grant, hMem, hCovers⟩
    obtain ⟨hRow, hRequester⟩ := mem_findByRequester.mp hMem
    exact ⟨grant.id, grant, Table.find?_of_mem hRow, hRequester, hCovers⟩
  · rintro ⟨id, grant, hFound, hRequester, hCovers⟩
    exact ⟨grant, mem_findByRequester.mpr
      ⟨Table.mem_of_find? hFound, hRequester⟩, hCovers⟩

theorem status_of_coversCall {grant : OpenApeGrant} {call : ProgramCallScope}
    {brokered : Option BrokeredGrant} {now : Int}
    (h : coversCall grant call brokered now = true) :
    grant.status = .approved := by
  unfold coversCall at h
  by_contra hStatus
  simp [hStatus] at h

/-! ## The joined grant -/

/-- The pending grant answers the call once it is extended. -/
structure PendingAnswers (mode : ExtendMode) (pending : OpenApeGrant)
    (olds : List OpenApeGrant) (call : ProgramCallScope)
    (brokered : Option BrokeredGrant) (now : Int) : Prop where
  command : commandGrantFor pending call brokered = true
  unexpired : outlived pending.expiresAt now = false
  reusable : call.requiresOnce = false
  files : filesOf pending.request = call.files.getD []
  covers : ∃ detail,
    FirstOfPermission (joinedDetails mode pending olds) detail ∧
      cliAuthorizationDetailCovers detail call.detail = true
  argv : (isCliAuthorizationDetailExact call.detail = true ∨
      ∃ detail, FirstOfPermission (joinedDetails mode pending olds) detail ∧
        isCliAuthorizationDetailExact detail = true) →
    argvHashOf pending.request = some call.argvHash
  program : bindsProgram pending.request call = true
  tier : sameShapeTier (shapeTierFacts pending.request.executionContext)
    call.shapeTier = true

/-- What an approval for always makes of the joined grant. -/
theorem approvedGrant_fields (mode : ExtendMode) (pending : OpenApeGrant)
    (olds : List OpenApeGrant) {overrides : ExtensionOverrides}
    (approver : JsString) (decidedAt : Int)
    (hAlways : overrides.grantType = some .always) :
    let approved := approvedGrant (rewrittenGrant mode pending olds)
      (some overrides.approval) approver decidedAt
    approved.status = .approved ∧ approved.expiresAt = pending.expiresAt ∧
      approved.request.grantTypeOrOnce = .always ∧
      approved.request.requester = pending.request.requester ∧
      approved.request.executionContext = pending.request.executionContext ∧
      (∀ call brokered, commandGrantFor approved call brokered =
        commandGrantFor pending call brokered) ∧
      coverableCliDetails approved.request.authorizationDetails =
        mergeCliAuthorizationDetails [joinedDetails mode pending olds] := by
  have hType : ∀ request, effectiveType request (some overrides.approval) =
      .always := by
    intro request
    simp [effectiveType, ExtensionOverrides.approval, hAlways]
  have hDetails := cliDetails_map_openapeCli
    (mergeCliAuthorizationDetails [joinedDetails mode pending olds])
  rw [← extendedDetails_eq] at hDetails ⊢
  cases mode <;>
    refine ⟨rfl, ?_, ?_, rfl, rfl, fun _ _ => rfl, hDetails⟩ <;>
    simp [approvedGrant, withUpdate, approvalUpdate, approvedRequest, hType,
      rewrittenGrant, OpenApeGrantRequest.grantTypeOrOnce]

/-- Coverage by merged details is coverage by a first one. -/
theorem mergedDetailsCover_iff (details : List CliAuthorizationDetail)
    (required : CliAuthorizationDetail) :
    cliAuthorizationDetailsCover (mergeCliAuthorizationDetails [details])
        [required] = true ↔
      ∃ detail, FirstOfPermission details detail ∧
        cliAuthorizationDetailCovers detail required = true := by
  simp only [cliAuthorizationDetailsCover, List.all_cons, List.all_nil,
    Bool.and_true, List.any_eq_true, mem_mergeCliAuthorizationDetails,
    List.flatten_cons, List.flatten_nil, List.append_nil]
  constructor
  · rintro ⟨_, ⟨detail, hFirst, rfl⟩, hCovers⟩
    exact ⟨detail, hFirst, hCovers⟩
  · rintro ⟨detail, hFirst, hCovers⟩
    exact ⟨_, ⟨detail, hFirst, rfl⟩, hCovers⟩

theorem mergedDetailsExact_iff (details : List CliAuthorizationDetail) :
    (mergeCliAuthorizationDetails [details]).any
        isCliAuthorizationDetailExact = true ↔
      ∃ detail, FirstOfPermission details detail ∧
        isCliAuthorizationDetailExact detail = true := by
  simp only [List.any_eq_true, mem_mergeCliAuthorizationDetails,
    List.flatten_cons, List.flatten_nil, List.append_nil]
  constructor
  · rintro ⟨_, ⟨detail, hFirst, rfl⟩, hExact⟩
    exact ⟨detail, hFirst, hExact⟩
  · rintro ⟨detail, hFirst, hExact⟩
    exact ⟨_, ⟨detail, hFirst, rfl⟩, hExact⟩

/-- **Which calls the joined grant covers.** -/
theorem coversCall_approvedGrant_iff {mode : ExtendMode}
    {pending : OpenApeGrant} {olds : List OpenApeGrant}
    {overrides : ExtensionOverrides} {approver : JsString} {decidedAt : Int}
    (hAlways : overrides.grantType = some .always) (call : ProgramCallScope)
    (brokered : Option BrokeredGrant) (now : Int) :
    coversCall (approvedGrant (rewrittenGrant mode pending olds)
        (some overrides.approval) approver decidedAt) call brokered now =
        true ↔
      PendingAnswers mode pending olds call brokered now := by
  obtain ⟨hStatus, hExpires, hType, _, hContext, hCommand, hDetails⟩ :=
    approvedGrant_fields mode pending olds approver decidedAt hAlways
  generalize approvedGrant (rewrittenGrant mode pending olds)
    (some overrides.approval) approver decidedAt = approved at *
  have hContinuing : approved.request.grantTypeOrOnce ≠ .once := by
    rw [hType]
    decide
  have hExact : hasExactStructuredDetail approved.request = true ↔
      ∃ detail, FirstOfPermission (joinedDetails mode pending olds) detail ∧
        isCliAuthorizationDetailExact detail = true := by
    rw [hasExactStructuredDetail, hDetails, mergedDetailsExact_iff]
  rw [coversCall_iff, bindsCall_iff_of_continuing hContinuing, hExact,
    hDetails, mergedDetailsCover_iff, hExpires, hCommand, filesOf, argvHashOf,
    bindsProgram, hContext]
  constructor
  · rintro ⟨_, hUnexpired, hFor, hCovers, hOnce, hFiles, hArgv, hProgram,
      hTier⟩
    exact ⟨hFor, hUnexpired, hOnce, hFiles, hCovers, hArgv, hProgram, hTier⟩
  · rintro ⟨hFor, hUnexpired, hOnce, hFiles, hCovers, hArgv, hProgram, hTier⟩
    exact ⟨hStatus, hUnexpired, hFor, hCovers, hOnce, hFiles, hArgv, hProgram,
      hTier⟩

/-! ## Extensions for always -/

/-- The call the pending request was made for, by a requester asking to have
it authorized. -/
structure OwnCall (pending : OpenApeGrant) (call : ProgramCallScope)
    (brokered : Option BrokeredGrant) : Prop where
  type : pending.type.getD .command = .command
  brokered : pending.brokered = brokered
  targetHost : pending.request.targetHost = call.targetHost
  audience : pending.request.audience = call.audience
  authorizationDetails :
    pending.request.authorizationDetails = some [.openapeCli call.detail]
  executionContext : ∃ context,
    pending.request.executionContext = some context ∧
    context.argvHash = some call.argvHash ∧
    context.programSha256 = some call.programSha256 ∧
    context.files = call.files ∧
    shapeTierFacts (some context) = call.shapeTier
  requiresOnce : call.requiresOnce = true →
    call.detail.constraints.bind CliConstraints.singleUse = some true
  unbound : pending.request.runAs = none ∧
    pending.request.delegator = none ∧ pending.request.delegate = none
  unexpiring : pending.expiresAt = none

/-- One of the extended grants answered the call. -/
def AnsweredByExtended (grants : GrantTable) (pending : OpenApeGrant)
    (ids : List JsString) (call : ProgramCallScope)
    (brokered : Option BrokeredGrant) (now : Int) : Prop :=
  ∃ old, findCoveringGrant (findByRequester grants pending.request.requester) call
    brokered now = some old ∧ old.id ∈ ids

/-- A grant of the requester that is not extended covers the call. -/
def CoveredElsewhere (grants : GrantTable) (pending : OpenApeGrant)
    (ids : List JsString) (call : ProgramCallScope)
    (brokered : Option BrokeredGrant) (now : Int) : Prop :=
  ∃ grant ∈ findByRequester grants pending.request.requester,
    grant.id ∉ ids ∧ coversCall grant call brokered now = true

/-- The extended grants are continuing ones. -/
def Continuing (grants : GrantTable) (ids : List JsString) : Prop :=
  ∀ id ∈ ids, ∀ old, grants.find? id = some old →
    old.request.grantTypeOrOnce ≠ .once

/-- An extension of continuing grants that succeeds for always leaves the
call covered, if one of them answered it or the request was made for it. -/
def KeepsAuthority (grantId approver : JsString)
    (overrides : ExtensionOverrides) (call : ProgramCallScope)
    (brokered : Option BrokeredGrant) (now : Int) (w : MemoryWorld) : Prop :=
  ∀ pending approved w', w.store.find? grantId = some pending →
    overrides.grantType = some .always →
    Continuing w.store overrides.extendGrantIds →
    exec memoryStore (approveGrantWithExtension grantId approver overrides)
      w = (.ok approved, w') →
    (AnsweredByExtended w.store pending overrides.extendGrantIds call
        brokered now ∨ OwnCall pending call brokered) →
    (findCoveringGrant (findByRequester w'.store pending.request.requester) call
      brokered now).isSome = true

/-- The extension succeeds for always. -/
structure SucceedsAlways (grants : GrantTable) (grantId : JsString)
    (overrides : ExtensionOverrides) (pending : OpenApeGrant)
    (olds : List OpenApeGrant) : Prop where
  admitted :
    Admitted grants grantId overrides.extendGrantIds pending olds
  always : overrides.grantType = some .always
  distinct : overrides.extendGrantIds.Nodup
  repeatable : ¬JoinsSingleUse overrides.extendMode pending olds

/-- When the extension succeeds, and what it leaves. -/
theorem run_extension_always {grantId approver : JsString}
    {overrides : ExtensionOverrides} {w : MemoryWorld}
    {pending : OpenApeGrant} {olds : List OpenApeGrant}
    (h : SucceedsAlways w.store grantId overrides pending olds) :
    let approved := approvedGrant
      (rewrittenGrant overrides.extendMode pending olds)
      (some overrides.approval) approver w.now
    exec memoryStore (approveGrantWithExtension grantId approver overrides)
      w = (.ok (some approved), w.tick.setStore
        ((preparedStore w.store overrides.extendMode pending olds).put
          approved)) := by
  have hAll : untilRepeat [] olds = olds := by
    rw [untilRepeat_eq_self_iff, h.admitted.ids_eq]
    exact h.distinct
  have hNone : ¬(approvalRefused
      (rewrittenGrant overrides.extendMode pending olds)
      (some overrides.approval)).isSome = true := by
    rw [approvalRefused_rewrittenGrant h.admitted]
    rintro (⟨hSingle, _⟩ | ⟨hTimed, _⟩)
    · exact h.repeatable hSingle
    · simp [effectiveType, ExtensionOverrides.approval, h.always] at hTimed
  rcases run_admittedExtension approver h.admitted with
    ⟨hSome, _⟩ | ⟨_, error, hError, _⟩ | ⟨_, _, hRun⟩
  · exact absurd hAll hSome
  · rw [hError] at hNone
    exact absurd rfl hNone
  · exact hRun

theorem succeedsAlways_of_run {grantId approver : JsString}
    {overrides : ExtensionOverrides} {w w' : MemoryWorld}
    {approved : Option OpenApeGrant}
    (hAlways : overrides.grantType = some .always)
    (hRun : exec memoryStore
      (approveGrantWithExtension grantId approver overrides) w =
        (.ok approved, w')) :
    ∃ pending olds,
      SucceedsAlways w.store grantId overrides pending olds := by
  by_cases hAdmitted : ∃ pending olds,
      Admitted w.store grantId overrides.extendGrantIds pending olds
  · obtain ⟨pending, olds, h⟩ := hAdmitted
    rcases run_admittedExtension approver h with
      ⟨_, error, hEnd⟩ | ⟨_, error, _, hEnd⟩ | ⟨hAll, hNone, _⟩
    · rw [hEnd] at hRun
      cases hRun
    · rw [hEnd] at hRun
      cases hRun
    · refine ⟨pending, olds, h, hAlways, ?_, fun hSingle => ?_⟩
      · rw [← h.ids_eq]
        exact (untilRepeat_eq_self_iff olds).mp hAll
      · have hRefused := (approvalRefused_rewrittenGrant h).mpr (.inl
          ⟨hSingle, by
            simp [effectiveType, ExtensionOverrides.approval, hAlways]⟩)
        rw [hNone] at hRefused
        cases hRefused
  · obtain ⟨error, hEnd⟩ := run_extension_refused approver hAdmitted
    rw [hEnd] at hRun
    cases hRun

/-- After the extension a call is covered by the joined grant or by one that
was not extended. -/
theorem covered_after_iff {grantId : JsString} (approver : JsString)
    {overrides : ExtensionOverrides} {w : MemoryWorld}
    {pending : OpenApeGrant} {olds : List OpenApeGrant}
    (h : SucceedsAlways w.store grantId overrides pending olds)
    (call : ProgramCallScope) (brokered : Option BrokeredGrant) (now : Int) :
    (findCoveringGrant (findByRequester
        ((preparedStore w.store overrides.extendMode pending olds).put
          (approvedGrant (rewrittenGrant overrides.extendMode pending olds)
            (some overrides.approval) approver w.now))
        pending.request.requester) call brokered now).isSome = true ↔
      CoveredElsewhere w.store pending overrides.extendGrantIds call brokered
          now ∨
        PendingAnswers overrides.extendMode pending olds call brokered
          now := by
  obtain ⟨_, _, _, hRequester, _⟩ := approvedGrant_fields
    overrides.extendMode pending olds approver w.now h.always
  have hKey : pending.id = grantId := Table.key_of_find? h.admitted.found
  have hMem : ∀ id, id ∈ (untilRepeat [] olds).map OpenApeGrant.id ↔
      id ∈ overrides.extendGrantIds := by
    have hAll : untilRepeat [] olds = olds := by
      rw [untilRepeat_eq_self_iff, h.admitted.ids_eq]
      exact h.distinct
    intro id
    rw [hAll, h.admitted.ids_eq]
  have hSelf (grants : GrantTable) : (grants.put (approvedGrant
      (rewrittenGrant overrides.extendMode pending olds)
      (some overrides.approval) approver w.now)).find? pending.id = some _ :=
    Table.find?_put_self grants _
  have hOther (grants : GrantTable) {id : JsString} (hId : id ≠ pending.id) :
      (grants.put (approvedGrant
        (rewrittenGrant overrides.extendMode pending olds)
        (some overrides.approval) approver w.now)).find? id =
          grants.find? id :=
    Table.find?_put_ne grants hId
  rw [covered_iff]
  constructor
  · rintro ⟨id, grant, hFound, hOwn, hCovers⟩
    by_cases hId : id = pending.id
    · subst hId
      obtain rfl := Option.some.inj ((hSelf _).symm.trans hFound)
      exact .inr ((coversCall_approvedGrant_iff h.always call brokered
        now).mp hCovers)
    · rw [hOther _ hId] at hFound
      by_cases hExtended : id ∈ overrides.extendGrantIds
      · obtain ⟨revoked, hRevoked, hStatus⟩ :=
          find?_preparedStore_of_mem ((hMem id).mpr hExtended)
        obtain rfl := Option.some.inj (hFound.symm.trans hRevoked)
        rw [status_of_coversCall hCovers] at hStatus
        cases hStatus
      · rw [find?_preparedStore_of_ne hId
          (mt (hMem id).mp hExtended)] at hFound
        have hGrant : grant.id = id := Table.key_of_find? hFound
        exact .inl ⟨grant, mem_findByRequester.mpr
          ⟨Table.mem_of_find? hFound, hOwn⟩,
          hGrant.symm ▸ hExtended, hCovers⟩
  · rintro (⟨grant, hGrant, hExtended, hCovers⟩ | hAnswers)
    · obtain ⟨hRow, hOwn⟩ := mem_findByRequester.mp hGrant
      have hFound : w.store.find? grant.id = some grant :=
        Table.find?_of_mem hRow
      have hId : grant.id ≠ pending.id := by
        intro hEq
        rw [hEq, hKey, h.admitted.found] at hFound
        have hStatus := status_of_coversCall hCovers
        rw [← Option.some.inj hFound, h.admitted.isPending] at hStatus
        cases hStatus
      refine ⟨grant.id, grant, ?_, hOwn, hCovers⟩
      rw [hOther _ hId, find?_preparedStore_of_ne hId
        (mt (hMem grant.id).mp hExtended), hFound]
    · exact ⟨pending.id, _, hSelf _, hRequester,
        (coversCall_approvedGrant_iff h.always call brokered now).mpr
          hAnswers⟩

/-- **When an extension for always keeps a call covered**: unless one of the
extended grants answered it (or it is the pending request's own), no other
grant covers it, and the pending grant does not answer it with the joined
details. -/
theorem keepsAuthority_iff (grantId approver : JsString)
    (overrides : ExtensionOverrides) (call : ProgramCallScope)
    (brokered : Option BrokeredGrant) (now : Int) (w : MemoryWorld) :
    KeepsAuthority grantId approver overrides call brokered now w ↔
      ¬∃ pending olds,
        SucceedsAlways w.store grantId overrides pending olds ∧
        Continuing w.store overrides.extendGrantIds ∧
        (AnsweredByExtended w.store pending overrides.extendGrantIds call
            brokered now ∨ OwnCall pending call brokered) ∧
        ¬CoveredElsewhere w.store pending overrides.extendGrantIds call
          brokered now ∧
        ¬PendingAnswers overrides.extendMode pending olds call brokered
          now := by
  constructor
  · rintro hKeeps ⟨pending, olds, h, hContinuing, hCall, hElsewhere, hNot⟩
    have hCovered := hKeeps pending _ _ h.admitted.found h.always hContinuing
      (run_extension_always h) hCall
    rcases (covered_after_iff approver h call brokered now).mp hCovered with
      hOther | hAnswers
    · exact hElsewhere hOther
    · exact hNot hAnswers
  · intro hNone pending approved w' hFound hAlways hContinuing hRun hCall
    obtain ⟨other, olds, h⟩ := succeedsAlways_of_run hAlways hRun
    obtain rfl : pending = other :=
      Option.some.inj (hFound.symm.trans h.admitted.found)
    rw [run_extension_always h] at hRun
    obtain ⟨_, rfl⟩ := Prod.mk.inj hRun
    refine (covered_after_iff approver h call brokered now).mpr ?_
    by_contra hLost
    rw [not_or] at hLost
    exact hNone ⟨pending, olds, h, hContinuing, hCall, hLost.1, hLost.2⟩

end Coverage

/-- The exact-command detail of an argv no shape describes. -/
private def genericDetail (argvHash : JsString) : CliAuthorizationDetail :=
  { cliId := js "git", operationId := genericOperationId
    resourceChain :=
      [{ resource := js "argv",
         selector := some ⟨[(js "hash", argvHash)], by simp⟩ }]
    action := js "exec"
    permission := js "git.argv[hash=" ++ argvHash ++ js "]#exec"
    display := js "git", risk := .high
    constraints := some { exactCommand := some true } }

private def genericGrant (id argvHash : JsString) (status : GrantStatus) :
    OpenApeGrant :=
  { id := id, status := status, createdAt := 1000
    request :=
      { requester := js "agent@example.com", targetHost := js "host",
        audience := js "ape-shell", grantType := some .always,
        authorizationDetails := some [.openapeCli (genericDetail argvHash)]
        executionContext := some
          { adapterId := js "git", adapterVersion := js "openape-shapes/v1",
            adapterDigest := js "synthetic", resolvedExecutable := js "git",
            argvHash := some argvHash } } }

/-- A pending command of one argv and an approved one of another. -/
private def twoCommands : MemoryWorld where
  store := (Table.empty.put (genericGrant (js "new") (js "b") .pending)).put
    (genericGrant (js "old") (js "a") .approved)
  clock _ := 2000
  uuids _ := []

private def oldCall : ProgramCallScope where
  targetHost := js "host"
  audience := js "ape-shell"
  detail := genericDetail (js "a")
  argvHash := js "a"
  programSha256 := js "f00d"
  adapterDigest := some (js "synthetic")

/-- After the merge the approved command is asked for again. -/
theorem not_keepsAuthority_mergedCommands :
    letI := codeUnitCollation
    ¬KeepsAuthority (js "new") (js "owner@example.com")
      { grantType := some .always, extendMode := .merge,
        extendGrantIds := [js "old"] } oldCall none 2000 twoCommands := by
  let _ := codeUnitCollation
  intro hKeeps
  have hOld : twoCommands.store.find? (js "old") =
      some (genericGrant (js "old") (js "a") .approved) := by decide
  have hContinuing : Continuing twoCommands.store [js "old"] := by
    intro id hId old hFound
    obtain rfl : id = js "old" := by simpa using hId
    obtain rfl := Option.some.inj (hOld.symm.trans hFound)
    decide
  have hCovered := hKeeps (genericGrant (js "new") (js "b") .pending) _ _
    (by decide) rfl hContinuing rfl
    (.inl ⟨genericGrant (js "old") (js "a") .approved, by decide, by decide⟩)
  exact absurd hCovered (by decide)

end OpenApe.Ports.ExtensionCoverage
