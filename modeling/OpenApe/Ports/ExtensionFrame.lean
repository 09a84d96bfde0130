import OpenApe.Ports.ApproveEndpoint
import OpenApe.Ports.GrantsMemory

/-!
# Whose grants an approval touches

The approve endpoint checks authority for the grant it approves, and for no
grant the body names to be extended.  The main result of this file says for
which calls of the endpoint every other grant it changes, and every grant
whose details it takes over, belongs to the requester of the approved one.
-/

namespace OpenApe.Ports.ExtensionFrame

open Verified.JsText Verified.KeyedTable Verified.Programs.Program
open GrantTypes GrantStore CliPermissions Grants GrantsExtension GrantsMemory
  ApproveEndpoint

/-! ## Calls that write one grant -/

/-- The call reads, or writes the status of `id`. -/
def OnlyWrites (id : JsString) : GrantStoreCall → Prop
  | .updateStatus other _ _ => other = id
  | .findById _ | .now => True
  | .createReferenced _ | .save _ | .findByRequester _ | .listGrants _
  | .claimOnce _ _ | .withdraw _ _ _ | .randomUUID => False

/-- Every grant but one is as it was. -/
def Elsewhere (id : JsString) (before after : GrantTable) : Prop :=
  ∀ other, other ≠ id → after.find? other = before.find? other

/-- Such a call leaves every other grant as it was. -/
theorem memoryStore_onlyWrites {id : JsString} {before : GrantTable}
    (call : GrantStoreCall) (w : MemoryWorld) (hCall : OnlyWrites id call)
    (h : Elsewhere id before w.store) :
    Elsewhere id before (memoryStore call w).2.store := by
  rcases memoryStore_writes call w with hSame | ⟨row, hWritten, hPut⟩
  · rw [hSame]
    exact h
  · cases call with
    | updateStatus other status extra =>
        obtain rfl : other = id := hCall
        obtain ⟨old, hFound, rfl⟩ := hWritten
        obtain rfl : old.id = other := Table.key_of_find? hFound
        intro key hKey
        have hPutNe : key ≠ (withUpdate old status extra).id := hKey
        rw [hPut, Table.find?_put_ne w.store hPutNe]
        exact h key hKey
    | findById other | now => exact hWritten.elim
    | createReferenced grant | save grant | findByRequester requester
    | listGrants params | claimOnce other usedAt | withdraw other at' reason
    | randomUUID => exact hCall.elim

private theorem asks_findById (id other : JsString) :
    Asks (OnlyWrites id) (findById other) := asks_perform trivial

private theorem asks_updateStatus (id : JsString) (status : GrantStatus)
    (extra : GrantUpdate) :
    Asks (OnlyWrites id) (updateStatus id status extra) := asks_perform rfl

theorem asks_approveGrant (id approver : JsString)
    (overrides : Option ApproveGrantOverrides) :
    Asks (OnlyWrites id) (approveGrant id approver overrides) := by
  refine asks_bind (asks_findById _ _) (fun grant => ?_)
  cases grant with
  | none => trivial
  | some grant =>
      dsimp only
      cases approvalRefused grant overrides with
      | some error => trivial
      | none =>
          refine asks_bind (asks_perform trivial) (fun now => ?_)
          exact asks_bind (asks_updateStatus _ _ _)
            (fun _ => asks_findById _ _)

section Endpoint

variable [Collation]

theorem asks_approveGrantWithWidening (id approver : JsString)
    (widenedDetails : List AuthorizationDetail)
    (overrides : Option ApproveGrantOverrides) :
    Asks (OnlyWrites id)
      (approveGrantWithWidening id approver widenedDetails overrides) := by
  refine asks_bind (asks_findById _ _) (fun pending => ?_)
  cases pending with
  | none => trivial
  | some pending =>
      refine asks_bind (asks_throwIf _ _ _) (fun _ => ?_)
      refine asks_bind (asks_throwIf _ _ _) (fun _ => ?_)
      cases widenedDetailsOf pending widenedDetails with
      | error error => trivial
      | ok normalized =>
          exact asks_bind (asks_updateStatus _ _ _)
            (fun _ => asks_approveGrant _ _ _)

/-- A call of the endpoint that asks for no extension writes its grant
only. -/
theorem asks_approveEndpoint (services : EndpointServices)
    (id email : JsString) {body : ApproveBody}
    (h : body.extension? = none) :
    Asks (OnlyWrites id) (approveEndpoint services id email body) := by
  refine asks_bind (asks_throwIf _ _ _) (fun _ => ?_)
  refine asks_bind (asks_refuse _ _) (fun _ => ?_)
  refine asks_bind (asks_findById _ _) (fun grant => ?_)
  cases grant with
  | none => trivial
  | some grant =>
      refine asks_bind (asks_refuse _ _) (fun _ => asks_mapError ?_ _)
      refine asks_bind ?_ (fun _ => asks_ofExcept _ _)
      unfold approveAs
      split
      · rw [h]
        trivial
      · split
        · exact asks_approveGrantWithWidening _ _ _ _
        · exact asks_approveGrant _ _ _

/-! ## Calls that extend -/

/-- The endpoint passes its own checks and calls
`approveGrantWithExtension`. -/
structure Extends (services : EndpointServices) (id email : JsString)
    (body : ApproveBody) (grants : GrantTable)
    (overrides : ExtensionOverrides) (pending : OpenApeGrant) : Prop where
  asked : body.extension? = some overrides
  named : id ≠ []
  valid : overridesRefused body = none
  found : grants.find? id = some pending
  allowed : approveRefused services pending email body = none

/-- The endpoint then ends as the extension does, but for the token. -/
theorem run_approveEndpoint_of_extends {services : EndpointServices}
    {id email : JsString} {body : ApproveBody} {w : MemoryWorld}
    {overrides : ExtensionOverrides} {pending : OpenApeGrant}
    (h : Extends services id email body w.store overrides pending) :
    exec memoryStore (approveEndpoint services id email body) w =
      (((exec memoryStore
          (approveGrantWithExtension id email overrides) w).1.bind
            (tokenOf services)).mapError asProblem,
        (exec memoryStore
          (approveGrantWithExtension id email overrides) w).2) := by
  have hAs : approveAs id email body =
      approveGrantWithExtension id email overrides := by
    simp [approveAs, ApproveBody.hasExtend_of_extension? h.asked, h.asked]
  have hNamed : id.isEmpty = false := by simpa using h.named
  rw [approveEndpoint]
  simp only [exec_throwIf_bind, exec_refuse_bind, hNamed, h.valid,
    Bool.false_eq_true, if_false]
  rw [exec_bind_ok (run_findById id w), h.found]
  simp only [exec_refuse_bind, h.allowed, exec_mapError, hAs,
    exec_bind_ofExcept]

/-- A call that asks for an extension and does not reach it writes
nothing. -/
theorem run_approveEndpoint_of_not_extends {services : EndpointServices}
    {id email : JsString} {body : ApproveBody} {w : MemoryWorld}
    {overrides : ExtensionOverrides} (hAsked : body.extension? = some overrides)
    (h : ¬∃ pending,
      Extends services id email body w.store overrides pending) :
    ∃ error, exec memoryStore (approveEndpoint services id email body) w =
      (.error error, w) := by
  rw [approveEndpoint]
  simp only [exec_throwIf_bind, exec_refuse_bind]
  by_cases hNamed : id = []
  · exact ⟨problem 400 "Grant ID is required", by simp [hNamed]⟩
  · have hEmpty : ¬id.isEmpty = true := by simpa using hNamed
    rw [if_neg hEmpty]
    cases hValid : overridesRefused body with
    | some error => exact ⟨error, rfl⟩
    | none =>
        dsimp only
        rw [exec_bind_ok (run_findById id w)]
        cases hFound : w.store.find? id with
        | none => exact ⟨_, rfl⟩
        | some pending =>
            simp only [exec_refuse_bind]
            cases hAllowed : approveRefused services pending email body with
            | some error => exact ⟨error, rfl⟩
            | none =>
                exact absurd
                  ⟨pending, hAsked, hNamed, hValid, hFound, hAllowed⟩ h

/-! ## Own grants -/

/-- The grants are of one requester, under one broker binding. -/
def SameParty (old pending : OpenApeGrant) : Prop :=
  old.request.requester = pending.request.requester ∧
    sameBrokeredGrant old.brokered pending.brokered = true

/-- `other` names a stored grant of the party that `id` does. -/
def OwnGrant (grants : GrantTable) (id other : JsString) : Prop :=
  ∃ pending old, grants.find? id = some pending ∧
    grants.find? other = some old ∧ SameParty old pending

/-- Some detail of the approved grant is one of the old grant, or widens
one. -/
def FlowsInto (pending old approved : OpenApeGrant) : Prop :=
  ∃ detail ∈ cliDetails approved.request.authorizationDetails,
    ∃ own ∈ cliDetails old.request.authorizationDetails,
      canonicalPermission detail = canonicalPermission own ∨
      ∃ incoming ∈ cliDetails pending.request.authorizationDetails,
        canonicalPermission detail =
          canonicalPermission (widenCliAuthorizationDetail own incoming)

/-- A call of the endpoint touches grants of one party: every other grant it
changes is one, and so is every extended grant whose details flow into the
approved one. -/
structure KeepsToOwnGrants (services : EndpointServices) (id email : JsString)
    (body : ApproveBody) (w : MemoryWorld) : Prop where
  touched : ∀ other, other ≠ id →
    (exec memoryStore (approveEndpoint services id email body)
      w).2.store.find? other ≠ w.store.find? other →
    OwnGrant w.store id other
  flows : ∀ overrides, body.extension? = some overrides →
    ∀ pending old approved authzJwt,
    (exec memoryStore (approveEndpoint services id email body) w).1 =
      .ok (approved, authzJwt) →
    w.store.find? id = some pending →
    old.id ∈ overrides.extendGrantIds → w.store.find? old.id = some old →
    FlowsInto pending old approved → OwnGrant w.store id old.id

/-- What an admitted extension leaves of the other grants: those before the
first repeated id revoked, the rest as they were. -/
theorem extension_elsewhere {id email : JsString}
    {overrides : ExtensionOverrides} {w : MemoryWorld}
    {pending : OpenApeGrant} {olds : List OpenApeGrant}
    (h : Admitted w.store id overrides.extendGrantIds pending olds) :
    Elsewhere id (preparedStore w.store overrides.extendMode pending olds)
      (exec memoryStore
        (approveGrantWithExtension id email overrides) w).2.store := by
  obtain rfl : pending.id = id := Table.key_of_find? h.found
  rcases run_admittedExtension email h with
    ⟨_, error, hRun⟩ | ⟨_, error, _, hRun⟩ | ⟨_, _, hRun⟩
  · rw [hRun]
    exact fun _ _ => rfl
  · rw [hRun]
    exact fun _ _ => rfl
  · rw [hRun]
    exact fun _ hOther => Table.find?_put_ne _ hOther

/-- An admitted call touches own grants only exactly when those it revokes
are. -/
private theorem keepsToOwnGrants_of_admitted {services : EndpointServices}
    {id email : JsString} {body : ApproveBody} {w : MemoryWorld}
    {overrides : ExtensionOverrides} {pending : OpenApeGrant}
    {olds : List OpenApeGrant}
    (h : Extends services id email body w.store overrides pending)
    (hAdmitted : Admitted w.store id overrides.extendGrantIds pending olds) :
    KeepsToOwnGrants services id email body w ↔
      ∀ old ∈ untilRepeat [] olds, SameParty old pending := by
  have hKey : pending.id = id := Table.key_of_find? h.found
  have hRun := run_approveEndpoint_of_extends h
  have hElsewhere : Elsewhere id
      (preparedStore w.store overrides.extendMode pending olds)
      (exec memoryStore (approveEndpoint services id email body)
        w).2.store := by
    rw [hRun]
    exact extension_elsewhere hAdmitted
  constructor
  · intro hKeeps old hOld
    obtain ⟨hFound, hApproved, _, hOther⟩ :=
      hAdmitted.of_mem (mem_of_mem_untilRepeat hOld)
    obtain ⟨grant, hRevoked, hStatus⟩ := find?_preparedStore_of_mem
      (List.mem_map.mpr ⟨old, hOld, rfl⟩)
    have hChanged : (exec memoryStore (approveEndpoint services id email body)
        w).2.store.find? old.id ≠ w.store.find? old.id := by
      rw [hElsewhere old.id hOther, hRevoked, hFound]
      intro hEq
      rw [Option.some.inj hEq, hApproved] at hStatus
      cases hStatus
    obtain ⟨_, _, hPending, hOwn, hParty⟩ :=
      hKeeps.touched old.id hOther hChanged
    obtain rfl := Option.some.inj (h.found.symm.trans hPending)
    obtain rfl := Option.some.inj (hFound.symm.trans hOwn)
    exact hParty
  · intro hParty
    refine ⟨fun other hOther hChanged => ?_, ?_⟩
    · by_contra hNone
      have hNot : other ∉ (untilRepeat [] olds).map OpenApeGrant.id := by
        intro hMem
        obtain ⟨old, hOld, rfl⟩ := List.mem_map.mp hMem
        have hFound :=
          (hAdmitted.of_mem (mem_of_mem_untilRepeat hOld)).1
        exact hNone ⟨pending, old, h.found, hFound, hParty old hOld⟩
      refine hChanged ?_
      rw [hElsewhere other hOther]
      exact find?_preparedStore_of_ne (hKey ▸ hOther) hNot
    · intro asked hAsked _ old approved authzJwt hOk _ hMem hFound _
      obtain rfl : overrides = asked :=
        Option.some.inj (h.asked.symm.trans hAsked)
      have hAll : untilRepeat [] olds = olds := by
        rw [hRun] at hOk
        rcases run_admittedExtension email hAdmitted with
          ⟨_, error, hEnd⟩ | ⟨hAll, _⟩ | ⟨hAll, _⟩
        · rw [hEnd] at hOk
          cases hOk
        · exact hAll
        · exact hAll
      rw [← hAdmitted.ids_eq] at hMem
      obtain ⟨extended, hExtended, hId⟩ := List.mem_map.mp hMem
      have hSame := (hAdmitted.of_mem hExtended).1
      rw [hId] at hSame
      obtain rfl := Option.some.inj (hSame.symm.trans hFound)
      exact ⟨pending, extended, h.found, hFound,
        hParty extended (hAll.symm ▸ hExtended)⟩

/-- **When an approval keeps to the grants of its requester**: unless it
extends, and one of the grants it revokes is of another requester or broker
binding. -/
theorem keepsToOwnGrants_iff (services : EndpointServices)
    (id email : JsString) (body : ApproveBody) (w : MemoryWorld) :
    KeepsToOwnGrants services id email body w ↔
      ¬∃ overrides pending olds,
        Extends services id email body w.store overrides pending ∧
        Admitted w.store id overrides.extendGrantIds pending olds ∧
        ∃ old ∈ untilRepeat [] olds, ¬SameParty old pending := by
  by_cases hReached : ∃ overrides pending olds,
      Extends services id email body w.store overrides pending ∧
      Admitted w.store id overrides.extendGrantIds pending olds
  · obtain ⟨overrides, pending, olds, h, hAdmitted⟩ := hReached
    rw [keepsToOwnGrants_of_admitted h hAdmitted]
    constructor
    · rintro hParty ⟨asked, other, others, hAsked, hOther, old, hOld, hNot⟩
      obtain rfl : overrides = asked :=
        Option.some.inj (h.asked.symm.trans hAsked.asked)
      obtain ⟨rfl, rfl⟩ := hAdmitted.unique hOther
      exact hNot (hParty old hOld)
    · intro hNone old hOld
      by_contra hNot
      exact hNone ⟨overrides, pending, olds, h, hAdmitted, old, hOld, hNot⟩
  · refine iff_of_true ?_ (fun ⟨overrides, pending, olds, h, hAdmitted, _⟩ =>
      hReached ⟨overrides, pending, olds, h, hAdmitted⟩)
    cases hAsked : body.extension? with
    | none =>
        have hAsks := asks_approveEndpoint services id email hAsked
        have hFrame : Elsewhere id w.store
            (exec memoryStore (approveEndpoint services id email body)
              w).2.store :=
          exec_preserves (fun call w' hCall =>
            memoryStore_onlyWrites call w' hCall) hAsks (fun _ _ => rfl)
        refine ⟨fun other hOther hChanged => ?_, fun _ h => ?_⟩
        · exact absurd (hFrame other hOther) hChanged
        · rw [hAsked] at h
          cases h
    | some overrides =>
        have hUnwritten : ∃ error, exec memoryStore
            (approveEndpoint services id email body) w =
              (.error error, w) := by
          by_cases hExtends : ∃ pending,
              Extends services id email body w.store overrides pending
          · obtain ⟨pending, h⟩ := hExtends
            have hRefused : ¬∃ pending olds, Admitted w.store id
                overrides.extendGrantIds pending olds := by
              rintro ⟨other, olds, hAdmitted⟩
              obtain rfl : pending = other :=
                Option.some.inj (h.found.symm.trans hAdmitted.found)
              exact hReached ⟨overrides, pending, olds, h, hAdmitted⟩
            obtain ⟨error, hRun⟩ := run_extension_refused email hRefused
            rw [run_approveEndpoint_of_extends h, hRun]
            exact ⟨asProblem error, rfl⟩
          · exact run_approveEndpoint_of_not_extends hAsked hExtends
        obtain ⟨error, hRun⟩ := hUnwritten
        refine ⟨fun other _ hChanged => ?_, ?_⟩
        · rw [hRun] at hChanged
          exact absurd rfl hChanged
        · intro _ _ _ _ approved authzJwt hOk
          rw [hRun] at hOk
          cases hOk

end Endpoint

private def grantOf (id requester : JsString) (status : GrantStatus) :
    OpenApeGrant :=
  { id := id, status := status, createdAt := 1000
    request :=
      { requester := requester, targetHost := js "host",
        audience := js "shapes" } }

/-- A pending grant of one agent and an approved grant of another. -/
private def twoRequesters : MemoryWorld where
  store := (Table.empty.put
    (grantOf (js "new") (js "agent@example.com") .pending)).put
    (grantOf (js "old") (js "other@example.org") .approved)
  clock _ := 2000
  uuids _ := []

private def ownedAgent : EndpointServices where
  findByEmail email :=
    some { email := email, owner := some (js "owner@example.com") }
  isAdmin _ := false
  requireBrokerGrantOwner _ _ := none
  assertScopedShapeCurrent _ := none
  issueAuthzJWT _ := .ok (js "jwt")
  recordToken _ := none

/-- The owner of the first agent revokes the grant of the second. -/
theorem not_keepsToOwnGrants_otherRequester :
    letI := codeUnitCollation
    ¬KeepsToOwnGrants ownedAgent (js "new") (js "owner@example.com")
      { grantType := some (js "always"), extendMode := some (js "merge"),
        extendGrantIds := some [js "old"] } twoRequesters := by
  let _ := codeUnitCollation
  intro h
  obtain ⟨pending, old, hPending, hOld, hParty⟩ :=
    h.touched (js "old") (by decide) (by decide)
  obtain rfl : grantOf (js "new") (js "agent@example.com") .pending =
      pending := Option.some.inj ((by decide : twoRequesters.store.find?
        (js "new") = some _).symm.trans hPending)
  obtain rfl : grantOf (js "old") (js "other@example.org") .approved =
      old := Option.some.inj ((by decide : twoRequesters.store.find?
        (js "old") = some _).symm.trans hOld)
  exact absurd hParty.1 (by decide)

end OpenApe.Ports.ExtensionFrame
