import OpenApe.Ports.CreateEndpoint
import OpenApe.Ports.GrantsMemory

/-!
# What a standing grant approves

A match is computed on the CLI details of a request, and the whole request is
approved.  The results below say for which requests every entry that is
approved this way is covered by a standing grant.
-/

namespace OpenApe.Ports.StandingApproval

open Verified.JsText Verified.KeyedTable Verified.Programs.Program
open GrantTypes GrantStore
open GrantStore.MemoryStore (findByRequester mem_findByRequester)
open Grants GrantsMemory GrantReuse StandingGrants CreateEndpoint

/-! ## Requests -/

/-- The entries of a request. -/
def entriesOf (request : OpenApeGrantRequest) : List AuthorizationDetail :=
  request.authorizationDetails.getD []

theorem mem_cliDetails_iff {request : OpenApeGrantRequest}
    {detail : CliAuthorizationDetail} :
    detail ∈ cliDetails request.authorizationDetails ↔
      .openapeCli detail ∈ entriesOf request := by
  simp only [cliDetails, entriesOf, List.mem_filterMap]
  constructor
  · rintro ⟨entry, hEntry, hCli⟩
    cases entry with
    | openapeCli other =>
        obtain rfl := Option.some.inj hCli
        exact hEntry
    | openapeGrant other => cases hCli
    | other json => cases hCli
  · intro hEntry
    exact ⟨.openapeCli detail, hEntry, rfl⟩

/-- The approval stores the request as it came in. -/
theorem run_approveByStandingGrant {request : OpenApeGrantRequest}
    (hUnreferenced : request.reference = none)
    (standingMatch : StandingGrantMatch) (w : MemoryWorld) :
    ∃ grant w', grant.request = request ∧ grant.status = .approved ∧
      exec memoryStore (approveByStandingGrant request standingMatch) w =
        (.ok (some grant), w') := by
  obtain ⟨pending, created, hRequest, hStore, hCreate⟩ :=
    run_createGrant hUnreferenced w
  have hFound : created.tick.store.find? pending.id = some pending := by
    rw [World.tick_store, hStore]
    exact Table.find?_put_self w.store pending
  let extra : GrantUpdate :=
    { decidedAt := some created.now
      decidedBy := (created.tick.store.find?
        standingMatch.standingGrantId).bind OpenApeGrant.decidedBy
      decidedByStandingGrant := some standingMatch.standingGrantId
      autoApprovalKind := some (js "standing") }
  have hWrite : exec memoryStore (updateStatus pending.id .approved extra)
      created.tick = _ := run_updateStatus hFound (.inl rfl)
  unfold approveByStandingGrant
  rw [exec_bind_ok hCreate, exec_bind_ok (run_nowSeconds created),
    exec_bind_ok (run_findById standingMatch.standingGrantId created.tick),
    exec_bind_ok hWrite, run_findById]
  exact ⟨withUpdate pending .approved extra, _, hRequest, rfl, Prod.ext
    (congrArg Except.ok (Table.find?_put_self created.tick.store
      (withUpdate pending .approved extra))) rfl⟩

private theorem map_other_ne {ρ : Type} {result : Except JsError ρ}
    {grant : Option OpenApeGrant} :
    result.map CreateResponse.other ≠ .ok (.approvedAutomatically grant) := by
  cases result <;> simp [Except.map]

section Approval

variable [Collation]

/-! ## Covered requests -/

/-- Every entry is a CLI detail some stored grant stands for. -/
def EveryEntryCovered (incoming : OpenApeGrantRequest)
    (grants : List OpenApeGrant) : Prop :=
  ∀ entry ∈ entriesOf incoming, ∃ detail, entry = .openapeCli detail ∧
    ∃ grant ∈ grants, ∃ req, StandsFor grant req incoming detail

/-- The patterns cover the CLI details, of which there are some, and another
entry besides. -/
def CoveredInPart (incoming : OpenApeGrantRequest)
    (candidates : List OpenApeGrant) (now : Int) : Prop :=
  cliDetails incoming.authorizationDetails ≠ [] ∧
    (∀ detail ∈ cliDetails incoming.authorizationDetails,
      Covered incoming candidates now detail) ∧
    ∃ entry ∈ entriesOf incoming, entry.cli? = none

/-- A match leaves an entry uncovered exactly when some entry is no CLI
detail. -/
theorem everyEntryCovered_iff_of_match {incoming : OpenApeGrantRequest}
    {candidates grants : List OpenApeGrant} {now : Int}
    (hSubset : candidates ⊆ grants)
    (h : (matchStandingGrants incoming candidates now).isSome = true) :
    EveryEntryCovered incoming grants ↔
      ¬CoveredInPart incoming candidates now := by
  obtain ⟨hSome, hCovered⟩ :=
    (matchStandingGrants_isSome_iff incoming candidates now).mp h
  constructor
  · rintro hEvery ⟨_, _, entry, hEntry, hOther⟩
    obtain ⟨detail, rfl, _⟩ := hEvery entry hEntry
    cases hOther
  · intro hNot entry hEntry
    cases hCli : entry.cli? with
    | none => exact absurd ⟨hSome, hCovered, entry, hEntry, hCli⟩ hNot
    | some detail =>
        have hShape : entry = .openapeCli detail := by
          cases entry <;> simp_all [AuthorizationDetail.cli?]
        subst hShape
        obtain ⟨grant, hGrant, req, hReq, hCovers⟩ :=
          hCovered detail (mem_cliDetails_iff.mpr hEntry)
        exact ⟨detail, rfl, grant, hSubset hGrant, req,
          standsFor_of_covered hReq hCovers⟩

/-! ## The evaluation -/

theorem run_evaluateStandingGrants (incoming : OpenApeGrantRequest)
    (w : MemoryWorld) :
    ∃ w', w'.store = w.store ∧ w'.uuids = w.uuids ∧
      exec memoryStore (evaluateStandingGrants incoming) w =
        (.ok (matchStandingGrants incoming
          (findByRequester w.store incoming.requester) w.now), w') := by
  unfold evaluateStandingGrants
  split
  · rename_i hEmpty
    refine ⟨w, rfl, rfl, ?_⟩
    simp [matchStandingGrants, hEmpty]
  · exact ⟨w.tick, rfl, rfl, rfl⟩

/-- A match covers the whole request it was asked for. -/
def MatchCoversRequest (incoming : OpenApeGrantRequest) (w : MemoryWorld) :
    Prop :=
  ∀ found w', exec memoryStore (evaluateStandingGrants incoming) w =
      (.ok (some found), w') →
    EveryEntryCovered incoming w.store.rows

theorem matchCoversRequest_iff (incoming : OpenApeGrantRequest)
    (w : MemoryWorld) :
    MatchCoversRequest incoming w ↔
      ¬CoveredInPart incoming (findByRequester w.store incoming.requester)
        w.now := by
  have hSubset : findByRequester w.store incoming.requester ⊆ w.store.rows :=
    fun _ hGrant => (mem_findByRequester.mp hGrant).1
  obtain ⟨w', _, _, hRun⟩ := run_evaluateStandingGrants incoming w
  cases hMatch : matchStandingGrants incoming
      (findByRequester w.store incoming.requester) w.now with
  | none =>
      rw [hMatch] at hRun
      refine iff_of_true ?_ ?_
      · intro found other hOther
        rw [hRun] at hOther
        cases hOther
      · rintro ⟨hSome, hCovered, _⟩
        have hIs := (matchStandingGrants_isSome_iff incoming _ _).mpr
          ⟨hSome, hCovered⟩
        rw [hMatch] at hIs
        cases hIs
  | some found =>
      rw [hMatch] at hRun
      rw [← everyEntryCovered_iff_of_match hSubset (by rw [hMatch]; rfl)]
      exact ⟨fun h => h found w' hRun, fun h _ _ _ => h⟩

/-! ## The endpoint -/

variable {ρ : Type}

/-- Every entry of an automatically approved request is covered by a stored
standing grant. -/
def AutoApprovalCovered (services : CreateServices ρ)
    (detailSignature : AuthorizationDetail → JsString)
    (body : OpenApeGrantRequest) (w : MemoryWorld) : Prop :=
  ∀ grant w', exec memoryStore (createEndpoint services detailSignature body)
      w = (.ok (.approvedAutomatically (some grant)), w') →
    EveryEntryCovered grant.request w.store.rows

/-- The endpoint gets to the standing grants. -/
structure AsksStandingGrants (services : CreateServices ρ)
    (detailSignature : AuthorizationDetail → JsString)
    (body request : OpenApeGrantRequest) (w : MemoryWorld) : Prop where
  prepared : prepareRequest services body = .ok request
  unreferenced : request.reference = none
  notReusable : findReusableGrant detailSignature
    (findByRequester w.store request.requester) request none w.now = none

/-- Without a match the endpoint answers otherwise. -/
theorem run_createEndpoint_of_no_match {services : CreateServices ρ}
    {detailSignature : AuthorizationDetail → JsString}
    {body : OpenApeGrantRequest} {w : MemoryWorld}
    (h : ¬∃ request,
      AsksStandingGrants services detailSignature body request w ∧
      (matchStandingGrants request
        (findByRequester w.store request.requester) w.tick.now).isSome =
          true)
    (grant : Option OpenApeGrant) :
    (exec memoryStore (createEndpoint services detailSignature body) w).1 ≠
      .ok (.approvedAutomatically grant) := by
  unfold createEndpoint
  cases hPrepared : prepareRequest services body with
  | error error =>
      intro hOk
      cases hOk
  | ok request =>
      have hOf : exec memoryStore (ofExcept
          (.ok request : Except JsError OpenApeGrantRequest)) w =
          (.ok request, w) := rfl
      rw [exec_bind_ok hOf]
      split
      · rw [exec_map]
        exact map_other_ne
      · rename_i hReference
        have hUnreferenced : request.reference = none := by
          simpa using hReference
        have hExisting : exec memoryStore
            (storeCall (.findByRequester request.requester)) w =
            (.ok (findByRequester w.store request.requester), w) := rfl
        rw [exec_bind_ok hExisting, exec_bind_ok (run_nowSeconds w)]
        cases hReuse : findReusableGrant detailSignature
            (findByRequester w.store request.requester) request none
            w.now with
        | some reused =>
            intro hOk
            cases hOk
        | none =>
            obtain ⟨w', _, _, hRun⟩ :=
              run_evaluateStandingGrants request w.tick
            dsimp only
            rw [exec_bind_ok hRun]
            cases hMatch : matchStandingGrants request
                (findByRequester w.tick.store request.requester)
                w.tick.now with
            | some found =>
                exact absurd ⟨request,
                  ⟨hPrepared, hUnreferenced, hReuse⟩, by
                    rw [World.tick_store] at hMatch
                    rw [hMatch]
                    rfl⟩ h
            | none =>
                dsimp only
                rw [exec_map]
                exact map_other_ne

/-- With one it approves the request. -/
theorem run_createEndpoint_of_match {services : CreateServices ρ}
    {detailSignature : AuthorizationDetail → JsString}
    {body request : OpenApeGrantRequest} {w : MemoryWorld}
    (h : AsksStandingGrants services detailSignature body request w)
    (hMatch : (matchStandingGrants request
      (findByRequester w.store request.requester) w.tick.now).isSome = true) :
    ∃ grant w', grant.request = request ∧
      exec memoryStore (createEndpoint services detailSignature body) w =
        (.ok (.approvedAutomatically (some grant)), w') := by
  obtain ⟨found, hFound⟩ := Option.isSome_iff_exists.mp hMatch
  obtain ⟨evaluated, _, _, hRun⟩ := run_evaluateStandingGrants request w.tick
  rw [World.tick_store, hFound] at hRun
  obtain ⟨grant, w', hRequest, _, hApprove⟩ :=
    run_approveByStandingGrant h.unreferenced found evaluated
  have hOf : exec memoryStore (ofExcept
      (.ok request : Except JsError OpenApeGrantRequest)) w =
      (.ok request, w) := rfl
  have hExisting : exec memoryStore
      (storeCall (.findByRequester request.requester)) w =
      (.ok (findByRequester w.store request.requester), w) := rfl
  refine ⟨grant, w', hRequest, ?_⟩
  unfold createEndpoint
  rw [h.prepared, exec_bind_ok hOf]
  simp only [h.unreferenced, Option.isSome_none, Bool.false_eq_true,
    if_false]
  rw [exec_bind_ok hExisting, exec_bind_ok (run_nowSeconds w)]
  simp only [h.notReusable]
  rw [exec_bind_ok hRun]
  simp only [exec_map, hApprove]
  rfl

theorem autoApprovalCovered_iff (services : CreateServices ρ)
    (detailSignature : AuthorizationDetail → JsString)
    (body : OpenApeGrantRequest) (w : MemoryWorld) :
    AutoApprovalCovered services detailSignature body w ↔
      ¬∃ request,
        AsksStandingGrants services detailSignature body request w ∧
        CoveredInPart request (findByRequester w.store request.requester)
          w.tick.now := by
  by_cases hMatch : ∃ request,
      AsksStandingGrants services detailSignature body request w ∧
      (matchStandingGrants request
        (findByRequester w.store request.requester) w.tick.now).isSome = true
  · obtain ⟨request, h, hSome⟩ := hMatch
    have hSubset : findByRequester w.store request.requester ⊆
        w.store.rows := fun _ hGrant => (mem_findByRequester.mp hGrant).1
    have hCovered := everyEntryCovered_iff_of_match hSubset hSome
    obtain ⟨grant, w', hRequest, hRun⟩ := run_createEndpoint_of_match h hSome
    constructor
    · rintro hAll ⟨other, hOther, hPart⟩
      obtain rfl : request = other :=
        Except.ok.inj (h.prepared.symm.trans hOther.prepared)
      have hEvery := hAll grant w' hRun
      rw [hRequest] at hEvery
      exact hCovered.mp hEvery hPart
    · intro hNone approved other hOther
      rw [hRun] at hOther
      cases hOther
      rw [hRequest]
      exact hCovered.mpr (fun hPart => hNone ⟨request, h, hPart⟩)
  · refine iff_of_true ?_ ?_
    · intro grant w' hRun
      have hNe := run_createEndpoint_of_no_match hMatch (some grant)
      rw [hRun] at hNe
      exact absurd rfl hNe
    · rintro ⟨request, h, hSome, hAll, _⟩
      exact hMatch ⟨request, h,
        (matchStandingGrants_isSome_iff request _ _).mpr ⟨hSome, hAll⟩⟩

/-- **When a standing-grant match covers the whole request**, in the
evaluation and in the approval that follows it: unless the patterns cover the
CLI details and the request has another entry besides. -/
theorem standingMatch_covers_iff :
    (∀ (incoming : OpenApeGrantRequest) (w : MemoryWorld),
      MatchCoversRequest incoming w ↔
        ¬CoveredInPart incoming
          (findByRequester w.store incoming.requester) w.now) ∧
    (∀ (services : CreateServices ρ)
      (detailSignature : AuthorizationDetail → JsString)
      (body : OpenApeGrantRequest) (w : MemoryWorld),
      AutoApprovalCovered services detailSignature body w ↔
        ¬∃ request,
          AsksStandingGrants services detailSignature body request w ∧
          CoveredInPart request
            (findByRequester w.store request.requester) w.tick.now) :=
  ⟨matchCoversRequest_iff, autoApprovalCovered_iff⟩

end Approval

/-- The standing grant of an owner for listing any repository. -/
private def standingGrant : OpenApeGrant where
  id := js "standing"
  status := .approved
  type := some .standing
  createdAt := 1000
  decidedBy := some (js "owner@example.com")
  request :=
    { requester := js "agent@example.com", targetHost := js "*",
      audience := js "shapes", grantType := some .always,
      delegate := some (js "agent@example.com")
      standing := some
        { owner := js "owner@example.com", cliId := some (js "gh")
          resourceChainTemplate := [{ resource := js "repo" }] } }

/-- A request for listing repositories and for an action no pattern is
about. -/
private def mixedRequest : OpenApeGrantRequest where
  requester := js "agent@example.com"
  targetHost := js "host"
  audience := js "shapes"
  grantType := some .once
  permissions := some [js "gh.repo[*]#list", js "transfer-funds"]
  authorizationDetails := some
    [.openapeCli
      { cliId := js "gh", operationId := js "repo.list"
        resourceChain := [{ resource := js "repo" }], action := js "list"
        permission := js "gh.repo[*]#list", display := js "List"
        risk := .low },
     .openapeGrant { action := js "transfer-funds" }]

private def oneStandingGrant : MemoryWorld where
  store := Table.empty.put standingGrant
  clock _ := 2000
  uuids _ := js "new"

private def noServices : CreateServices Unit where
  computeCmdHash := id
  computeArgvHash := List.flatten
  actionOf := id
  summaryOrBatchRefused _ := none
  referenced _ := pure ()
  undecided _ := pure ()

/-- The pattern for listing repositories approves the transfer too. -/
theorem not_standingMatch_covers_mixed :
    letI := codeUnitCollation
    ¬MatchCoversRequest mixedRequest oneStandingGrant ∧
      ¬AutoApprovalCovered noServices (fun _ => []) mixedRequest
        oneStandingGrant := by
  let _ := codeUnitCollation
  have hUncovered : ¬EveryEntryCovered mixedRequest
      oneStandingGrant.store.rows := by
    intro hEvery
    obtain ⟨detail, hDetail, _⟩ := hEvery
      (.openapeGrant { action := js "transfer-funds" }) (by decide)
    cases hDetail
  refine ⟨fun h => hUncovered (h _ _ rfl), fun h => ?_⟩
  have hEvery := h _ _ rfl
  exact hUncovered hEvery

end OpenApe.Ports.StandingApproval
