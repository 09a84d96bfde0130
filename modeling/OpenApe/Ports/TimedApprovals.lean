import OpenApe.Ports.GrantExpiry
import OpenApe.Ports.GrantsMemory
import OpenApe.Ports.ProgramAuthorize
import OpenApe.Verified.Interleaving

/-!
# The end of timed approvals

Every reader of approvals takes a missing `expires_at` for no end.  An
approval by a person records the end of a timed grant together with its type
and duration; the automatic approvals record none.  So along every run of the
operations that request and approve grants, interleaved call by call, every
approved timed grant ends, unless an automatic approval was written over a
stored timed request.

What a write records depends on what was read before: the operations rely on
positive durations in the grants they read, and on a clock past the epoch,
and guarantee the same of the grants they write.
-/

namespace OpenApe.Ports.TimedApprovals

open Verified.JsText Verified.KeyedTable Verified.Programs.Program
  Verified.Interleaving
open GrantTypes GrantStore Grants GrantsExtension GrantsMemory GrantReuse
  GrantExpiry GrantRequests ProgramAuthorization ProgramAuthorize

/-! ## Operations -/

/-- A duration that is named is positive. -/
def Positive (duration : Option Int) : Prop := ∀ d, duration = some d → 0 < d

instance (duration : Option Int) : Decidable (Positive duration) :=
  match duration with
  | none => .isTrue (fun _ h => nomatch h)
  | some d => decidable_of_iff (0 < d) (by simp [Positive])

/-- The operations that request and approve grants. -/
inductive Operation where
  | post (env : RequestEnvironment)
      (detailSignature : AuthorizationDetail → JsString)
      (body : OpenApeGrantRequest)
  | postAsDelegate (env : RequestEnvironment) (submitter : GrantSubmitter)
      (brokered : Option BrokeredGrant) (body : OpenApeGrantRequest)
  | authorize (services : AuthorizeServices) (input : ProgramAuthorizeInput)
  | delegate (params : DelegationParams)
  | approve (grantId approver : JsString)
      (overrides : Option ApproveGrantOverrides)
  | extend (grantId approver : JsString) (overrides : ExtensionOverrides)
  | widen (grantId approver : JsString)
      (widenedDetails : List AuthorizationDetail)
      (overrides : Option ApproveGrantOverrides)

/-- The duration that the operation's input names. -/
def Operation.duration : Operation → Option Int
  | .post _ _ body | .postAsDelegate _ _ _ body => body.duration
  | .authorize _ _ => none
  | .delegate params => params.duration
  | .approve _ _ overrides | .widen _ _ _ overrides =>
      overrides.bind ApproveGrantOverrides.duration
  | .extend _ _ overrides => overrides.duration

section Runs

variable [Collation]

/-- An operation, without its answer. -/
def Operation.program : Operation → GrantProgram Unit
  | .post env detailSignature body =>
      (fun _ => ()) <$> postGrants env detailSignature body
  | .postAsDelegate env submitter brokered body =>
      (fun _ => ()) <$> postGrantsAsDelegate env submitter brokered body
  | .authorize services input =>
      (fun _ => ()) <$> authorizeProgramCall services input
  | .delegate params => (fun _ => ()) <$> createDelegation params
  | .approve grantId approver overrides =>
      (fun _ => ()) <$> approveGrant grantId approver overrides
  | .extend grantId approver overrides =>
      (fun _ => ()) <$> approveGrantWithExtension grantId approver overrides
  | .widen grantId approver widenedDetails overrides =>
      (fun _ => ()) <$>
        approveGrantWithWidening grantId approver widenedDetails overrides

abbrev ApprovalPool := Pool grantStore JsError Unit MemoryWorld

abbrev ApprovalEvent := Event grantStore JsError MemoryWorld

/-- All operations at their start, over one store. -/
def inFlight (operations : List Operation) (w : MemoryWorld) : ApprovalPool :=
  ⟨operations.map Operation.program, w⟩

end Runs

/-! ## The end of a grant -/

def ApprovedTimed (grant : OpenApeGrant) : Prop :=
  grant.status = .approved ∧ grant.request.grantType = some .timed

/-- The grant ends the positive duration of its request after its decision. -/
def Ends (grant : OpenApeGrant) : Prop :=
  ∃ decidedAt duration, grant.decidedAt = some decidedAt ∧
    grant.request.duration = some duration ∧ 0 < duration ∧
    grant.expiresAt = some (decidedAt + duration)

/-- From some second on the grant is expired and no reader uses it. -/
def Over [Collation] (grant : OpenApeGrant) : Prop :=
  ∃ second, ∀ now, second ≤ now →
    isGrantExpired grant now = true ∧
      ∀ reader : Reader, reader.uses grant now = false

/-- An automatic approval, which writes no request, over a stored timed
request. -/
def timedAutoApproval (event : ApprovalEvent) : Bool :=
  match event.call with
  | .updateStatus id .approved extra =>
      extra.request.isNone &&
        (event.before.store.find? id).any
          (fun row => row.request.grantType = some .timed)
  | _ => false

/-! ## What the operations rely on and guarantee -/

/-- Grants that are read have positive durations, and the clock is past the
epoch. -/
def Answered : (call : GrantStoreCall) → Except JsError call.Reply → Prop
  | .findById _, .ok (some grant) => Positive grant.request.duration
  | .now, .ok now => 0 ≤ now
  | _, _ => True

/-- The update approves with the end of what it approves. -/
def RecordsEnd (extra : GrantUpdate) : Prop :=
  ∀ request, extra.request = some request →
    request.grantType = some .timed →
    ∃ now duration, 0 ≤ now ∧ extra.decidedAt = some now ∧
      request.duration = some duration ∧ 0 < duration ∧
      extra.expiresAt = some (now + duration)

/-- New grants are pending and have positive durations, as rewritten requests
have; approvals record the end. -/
def Recorded : GrantStoreCall → Prop
  | .save grant | .createReferenced grant =>
      grant.status = .pending ∧ Positive grant.request.duration
  | .updateStatus _ status extra =>
      (∀ request, extra.request = some request →
        Positive request.duration) ∧
      (status = .approved → RecordsEnd extra)
  | .findById _ | .findByRequester _ | .listGrants _ | .claimOnce _ _
  | .withdraw _ _ _ | .now | .randomUUID => True

theorem recorded_of_isRead (call : GrantStoreCall) (h : IsRead call) :
    Recorded call := by
  cases call <;> trivial

theorem recorded_of_pending {request : OpenApeGrantRequest}
    (hDuration : Positive request.duration) (grant : OpenApeGrant)
    (hPending : grant.status = .pending) (hRequest : grant.request = request) :
    Recorded (.save grant) ∧ Recorded (.createReferenced grant) := by
  subst hRequest
  exact ⟨⟨hPending, hDuration⟩, hPending, hDuration⟩

/-- An update without a request leaves the type and the duration. -/
theorem recorded_of_request_none (id : JsString) (extra : GrantUpdate)
    (h : extra.request = none) :
    Recorded (.updateStatus id .approved extra) := by
  refine ⟨fun request hSome => ?_, fun _ request hSome => ?_⟩
  · rw [h] at hSome
    cases hSome
  · rw [h] at hSome
    cases hSome

theorem positive_effectiveDuration {request : OpenApeGrantRequest}
    {overrides : Option ApproveGrantOverrides}
    (hRequest : Positive request.duration)
    (hOverrides : Positive (overrides.bind ApproveGrantOverrides.duration)) :
    Positive (effectiveDuration request overrides) := by
  intro d hd
  unfold effectiveDuration at hd
  cases hNamed : overrides.bind ApproveGrantOverrides.duration with
  | none =>
      rw [hNamed] at hd
      exact hRequest d hd
  | some named =>
      rw [hNamed] at hd hOverrides
      exact hOverrides d hd

/-- What an approval writes, where it is not refused. -/
theorem recorded_approvalUpdate {grant : OpenApeGrant}
    {overrides : Option ApproveGrantOverrides} {now : Int}
    (hGrant : Positive grant.request.duration)
    (hOverrides : Positive (overrides.bind ApproveGrantOverrides.duration))
    (hAllowed : approvalRefused grant overrides = none) (hNow : 0 ≤ now)
    (id approver : JsString) :
    Recorded (.updateStatus id .approved
      (approvalUpdate grant.request overrides approver now)) := by
  have hEffective := positive_effectiveDuration hGrant hOverrides
  have hDuration : (approvedRequest grant.request overrides).duration =
      effectiveDuration grant.request overrides := by
    unfold approvedRequest effectiveDuration
    cases overrides.bind ApproveGrantOverrides.duration with
    | none => cases grant.request.duration <;> rfl
    | some named => rfl
  refine ⟨fun request hRequest => ?_, fun _ request hRequest hTimed => ?_⟩
  · cases hRequest
    rw [hDuration]
    exact hEffective
  · cases hRequest
    have hType : effectiveType grant.request overrides = .timed :=
      Option.some.inj hTimed
    have hNamed : truthyNumber
        (effectiveDuration grant.request overrides) = true := by
      by_contra hNot
      have hRefused : approvalRefused grant overrides ≠ none := by
        unfold approvalRefused
        simp only [hType, decide_true, Bool.true_and]
        split_ifs <;> simp_all
      exact hRefused hAllowed
    obtain ⟨duration, hSome⟩ : ∃ duration,
        effectiveDuration grant.request overrides = some duration := by
      cases hNone : effectiveDuration grant.request overrides with
      | none =>
          rw [hNone] at hNamed
          cases hNamed
      | some duration => exact ⟨duration, rfl⟩
    refine ⟨now, duration, hNow, rfl, hDuration.trans hSome,
      hEffective duration hSome, ?_⟩
    unfold approvalUpdate
    dsimp only
    rw [if_pos ⟨hType, hNamed⟩, hSome]
    rfl

/-! ## The operations keep to it -/

theorem guarantees_approveGrant {overrides : Option ApproveGrantOverrides}
    (hOverrides : Positive (overrides.bind ApproveGrantOverrides.duration))
    (grantId approver : JsString) :
    @Guarantees grantStore JsError _ Answered Recorded (fun _ => True)
      (approveGrant grantId approver overrides) := by
  refine guarantees_perform_bind trivial (fun found hFound => ?_)
  cases found with
  | none => trivial
  | some grant =>
      dsimp only
      cases hRefused : approvalRefused grant overrides with
      | some error => trivial
      | none =>
          refine guarantees_perform_bind trivial (fun now hNow => ?_)
          have hRecorded := recorded_approvalUpdate hFound hOverrides hRefused
            hNow grantId approver
          refine guarantees_perform_bind hRecorded (fun _ _ => ?_)
          exact guarantees_storeCall trivial (fun _ _ => trivial)

theorem guarantees_revokeGrant (grantId : JsString) :
    @Guarantees grantStore JsError _ Answered Recorded (fun _ => True)
      (revokeGrant grantId) := by
  have hRecorded : Recorded (.updateStatus grantId .revoked {}) :=
    ⟨fun _ hSome => (nomatch hSome), fun hApproved => (nomatch hApproved)⟩
  refine guarantees_perform_bind trivial (fun found _ => ?_)
  split
  · trivial
  · refine guarantees_throwIf_bind (fun _ => ?_)
    refine guarantees_perform_bind hRecorded (fun _ _ => ?_)
    exact guarantees_storeCall trivial (fun _ _ => trivial)

theorem guarantees_revokeAll (oldGrants : List OpenApeGrant) :
    @Guarantees grantStore JsError _ Answered Recorded (fun _ => True)
      (revokeAll oldGrants) := by
  induction oldGrants with
  | nil => exact guarantees_pure trivial
  | cons old rest ih =>
      exact guarantees_bind (guarantees_revokeGrant old.id) (fun _ _ => ih)

/-- A rewritten request stays pending, with the duration it had. -/
theorem recorded_of_rewritten {request : OpenApeGrantRequest}
    (hDuration : Positive request.duration) (grantId : JsString) :
    Recorded (.updateStatus grantId .pending
      { request := some request }) := by
  refine ⟨fun rewritten hSome => ?_, fun hApproved => nomatch hApproved⟩
  cases hSome
  exact hDuration

theorem guarantees_collectExtended (pending : OpenApeGrant)
    (oldIds : List JsString) :
    @Guarantees grantStore JsError _ Answered Recorded (fun _ => True)
      (collectExtended pending oldIds) := by
  induction oldIds with
  | nil => exact guarantees_pure trivial
  | cons oldId rest ih =>
      refine guarantees_perform_bind trivial (fun found _ => ?_)
      split
      · trivial
      · split
        · trivial
        · exact guarantees_bind ih (fun _ _ => guarantees_pure trivial)

section Extension

variable [Collation]

theorem duration_extendedRequest (mode : ExtendMode) (pending : OpenApeGrant)
    (oldGrants : List OpenApeGrant) :
    (extendedRequest mode pending oldGrants).duration =
      pending.request.duration := by
  cases mode <;> rfl

theorem guarantees_approveGrantWithExtension
    {overrides : ExtensionOverrides} (hOverrides : Positive overrides.duration)
    (grantId approver : JsString) :
    @Guarantees grantStore JsError _ Answered Recorded (fun _ => True)
      (approveGrantWithExtension grantId approver overrides) := by
  refine guarantees_perform_bind trivial (fun found hFound => ?_)
  cases found with
  | none => trivial
  | some pending =>
      refine guarantees_throwIf_bind (fun _ => ?_)
      refine guarantees_throwIf_bind (fun _ => ?_)
      refine guarantees_bind (guarantees_collectExtended pending _)
        (fun oldGrants _ => ?_)
      have hDuration : Positive (extendedRequest overrides.extendMode pending
          oldGrants).duration := by
        rw [duration_extendedRequest]
        exact hFound
      refine guarantees_perform_bind (recorded_of_rewritten hDuration grantId)
        (fun _ _ => ?_)
      refine guarantees_bind (guarantees_revokeAll oldGrants) (fun _ _ => ?_)
      have hApproval : Positive ((some overrides.approval).bind
          ApproveGrantOverrides.duration) := hOverrides
      exact guarantees_approveGrant hApproval grantId approver

theorem guarantees_approveGrantWithWidening
    {overrides : Option ApproveGrantOverrides}
    (hOverrides : Positive (overrides.bind ApproveGrantOverrides.duration))
    (grantId approver : JsString)
    (widenedDetails : List AuthorizationDetail) :
    @Guarantees grantStore JsError _ Answered Recorded (fun _ => True)
      (approveGrantWithWidening grantId approver widenedDetails
        overrides) := by
  refine guarantees_perform_bind trivial (fun found hFound => ?_)
  cases found with
  | none => trivial
  | some pending =>
      refine guarantees_throwIf_bind (fun _ => ?_)
      refine guarantees_throwIf_bind (fun _ => ?_)
      split
      · trivial
      · rename_i normalized hNormalized
        have hDuration :
            Positive (widenedRequest pending normalized).duration := hFound
        refine guarantees_perform_bind
          (recorded_of_rewritten hDuration grantId) (fun _ _ => ?_)
        exact guarantees_approveGrant hOverrides grantId approver

end Extension

theorem guarantees_createDelegation {params : DelegationParams}
    (hDuration : Positive params.duration) :
    @Guarantees grantStore JsError _ Answered Recorded (fun _ => True)
      (createDelegation params) := by
  refine guarantees_perform_bind trivial (fun id _ => ?_)
  refine guarantees_perform_bind trivial (fun createdAt _ => ?_)
  have hPending : Recorded (.save
      { id, type := some .delegation, request := params.request
        status := .pending, createdAt }) := ⟨rfl, hDuration⟩
  refine guarantees_perform_bind hPending (fun _ _ => ?_)
  have hNoOverrides : Positive ((none : Option ApproveGrantOverrides).bind
      ApproveGrantOverrides.duration) := fun _ hSome => by cases hSome
  exact guarantees_approveGrant hNoOverrides id params.delegator

section Requests

variable [Collation]

theorem guarantees_post {env : RequestEnvironment}
    {body : OpenApeGrantRequest} (hDuration : Positive body.duration)
    (detailSignature : AuthorizationDetail → JsString) :
    @Guarantees grantStore JsError _ Answered Recorded (fun _ => True)
      (postGrants env detailSignature body) := by
  refine guarantees_postGrants recorded_of_isRead
    (fun grant hPending hPrepared => ?_) recorded_of_request_none
    detailSignature
  rw [← duration_of_prepareRequest hPrepared] at hDuration
  exact recorded_of_pending hDuration grant hPending rfl

theorem guarantees_postAsDelegate {env : RequestEnvironment}
    {body : OpenApeGrantRequest} (hDuration : Positive body.duration)
    (submitter : GrantSubmitter) (brokered : Option BrokeredGrant) :
    @Guarantees grantStore JsError _ Answered Recorded (fun _ => True)
      (postGrantsAsDelegate env submitter brokered body) := by
  refine guarantees_ofExcept_bind (fun prepared hPrepared => ?_)
  rw [← duration_of_prepareRequest hPrepared] at hDuration
  have hSubmitted : Positive
      { prepared with submittedBy := some submitter }.duration := hDuration
  have hNew := recorded_of_pending hSubmitted
  dsimp only
  split
  · refine guarantees_map ?_
    exact guarantees_requestReferencedGrant recorded_of_isRead
      (fun _ _ => (hNew _ rfl rfl).2) (fun _ _ _ _ _ _ _ _ => trivial)
      (fun _ _ _ _ => trivial)
  · exact guarantees_createPendingGrant recorded_of_isRead hNew brokered

/-- A program call asks for no duration. -/
theorem guarantees_authorize (services : AuthorizeServices)
    (input : ProgramAuthorizeInput) :
    @Guarantees grantStore JsError _ Answered Recorded (fun _ => True)
      (authorizeProgramCall services input) := by
  refine guarantees_authorizeProgramCall ?_
  refine guarantees_decideProgramCall recorded_of_isRead
    (fun _ _ => trivial) (fun grant call hPending _ hRequest => ?_)
    recorded_of_request_none
  have hNoDuration : Positive grant.request.duration := by
    rw [hRequest]
    exact fun _ hSome => by cases hSome
  exact recorded_of_pending hNoDuration grant hPending rfl

/-- Every operation that names a positive duration, or none. -/
theorem guarantees_program {operation : Operation}
    (h : Positive operation.duration) :
    @Guarantees grantStore JsError _ Answered Recorded (fun _ => True)
      operation.program := by
  cases operation with
  | post env detailSignature body =>
      exact guarantees_map (guarantees_post h detailSignature)
  | postAsDelegate env submitter brokered body =>
      exact guarantees_map (guarantees_postAsDelegate h submitter brokered)
  | authorize services input =>
      exact guarantees_map (guarantees_authorize services input)
  | delegate params => exact guarantees_map (guarantees_createDelegation h)
  | approve grantId approver overrides =>
      exact guarantees_map (guarantees_approveGrant h grantId approver)
  | extend grantId approver overrides =>
      exact guarantees_map
        (guarantees_approveGrantWithExtension h grantId approver)
  | widen grantId approver widenedDetails overrides =>
      exact guarantees_map
        (guarantees_approveGrantWithWidening h grantId approver
          widenedDetails)

end Requests

/-! ## The invariant of the store -/

/-- The grant has a positive duration, if any, and its end, if it is an
approved timed one. -/
def EndKept (grant : OpenApeGrant) : Prop :=
  Positive grant.request.duration ∧
    (ApprovedTimed grant →
      Ends grant ∧ ∀ decidedAt ∈ grant.decidedAt, 0 ≤ decidedAt)

/-- The clock is past the epoch, and the store keeps every end. -/
def EndsKept (w : MemoryWorld) : Prop :=
  (∀ n, 0 ≤ w.clock n) ∧ ∀ grant ∈ w.store.rows, EndKept grant

theorem endKept_of_not_approved {grant : OpenApeGrant}
    (hDuration : Positive grant.request.duration)
    (h : grant.status ≠ .approved) : EndKept grant :=
  ⟨hDuration, fun hTimed => absurd hTimed.1 h⟩

/-- An approval records the end, unless it is an automatic one. -/
theorem endKept_withUpdate {old : OpenApeGrant} {status : GrantStatus}
    {extra : GrantUpdate} {id : JsString} (hOld : EndKept old)
    (hRecorded : Recorded (.updateStatus id status extra))
    (hManual : status = .approved → extra.request = none →
      old.request.grantType ≠ some .timed) :
    EndKept (withUpdate old status extra) := by
  obtain ⟨hDuration, hEnd⟩ := hRecorded
  cases hRequest : extra.request with
  | none =>
      have hSame : (withUpdate old status extra).request = old.request := by
        simp [withUpdate, hRequest]
      refine ⟨hSame ▸ hOld.1, ?_⟩
      rintro ⟨hApproved, hTimed⟩
      rw [hSame] at hTimed
      exact absurd hTimed (hManual hApproved hRequest)
  | some request =>
      have hNew : (withUpdate old status extra).request = request := by
        simp [withUpdate, hRequest]
      refine ⟨hNew ▸ hDuration request hRequest, ?_⟩
      rintro ⟨hApproved, hTimed⟩
      rw [hNew] at hTimed
      obtain ⟨now, duration, hNow, hDecided, hSome, hPositive, hExpires⟩ :=
        hEnd hApproved request hRequest hTimed
      have hDecidedAt : (withUpdate old status extra).decidedAt =
          some now := by
        simp [withUpdate, hDecided]
      refine ⟨⟨now, duration, hDecidedAt, hNew ▸ hSome, hPositive, ?_⟩, ?_⟩
      · simp [withUpdate, hExpires]
      · intro decidedAt hMem
        rw [hDecidedAt] at hMem
        cases hMem
        exact hNow

theorem endKept_of_written {call : GrantStoreCall} {w : MemoryWorld}
    {row : OpenApeGrant} (hInv : EndsKept w) (hRecorded : Recorded call)
    (hManual : timedAutoApproval (eventOf memoryStore call w) = false)
    (hWritten : Written w.store call row) : EndKept row := by
  cases call with
  | createReferenced grant | save grant =>
      obtain rfl : row = grant := hWritten
      obtain ⟨hPending, hDuration⟩ := hRecorded
      refine endKept_of_not_approved hDuration ?_
      simp [hPending]
  | updateStatus id status extra =>
      obtain ⟨old, hFound, rfl⟩ := hWritten
      refine endKept_withUpdate (hInv.2 old (Table.mem_of_find? hFound))
        hRecorded ?_
      rintro rfl hRequest hTimed
      simp [timedAutoApproval, eventOf, hRequest, hFound, hTimed] at hManual
  | claimOnce id usedAt | withdraw id withdrawnAt reason =>
      obtain ⟨old, hFound, rfl⟩ := hWritten
      have hOld := hInv.2 old (Table.mem_of_find? hFound)
      exact endKept_of_not_approved hOld.1 (by simp)
  | findById id | findByRequester requester | listGrants params | now
  | randomUUID => exact hWritten.elim

/-- A call that records what it approves is answered with what is relied on,
and keeps the ends. -/
theorem memoryStore_endsKept (call : GrantStoreCall) (w : MemoryWorld)
    (hRecorded : Recorded call)
    (hManual : timedAutoApproval (eventOf memoryStore call w) = false)
    (hInv : EndsKept w) :
    Answered call (memoryStore call w).1 ∧
      EndsKept (memoryStore call w).2 := by
  refine ⟨?_, ?_, ?_⟩
  · cases call with
    | findById id =>
        change Answered (.findById id) (.ok (w.store.find? id))
        cases hFound : w.store.find? id with
        | none => trivial
        | some grant =>
            exact (hInv.2 grant (Table.mem_of_find? hFound)).1
    | now => exact hInv.1 0
    | createReferenced grant | save grant | updateStatus id status extra
    | findByRequester requester | listGrants params | claimOnce id usedAt
    | withdraw id withdrawnAt reason | randomUUID => trivial
  · cases call with
    | now => exact fun n => hInv.1 (n + 1)
    | createReferenced grant | save grant | updateStatus id status extra
    | findById id | findByRequester requester | listGrants params
    | claimOnce id usedAt | withdraw id withdrawnAt reason
    | randomUUID => exact hInv.1
  · intro row hRow
    rcases mem_memoryStore hRow with hOld | hWritten
    · exact hInv.2 row hOld
    · exact endKept_of_written hInv hRecorded hManual hWritten

section Readers

variable [Collation]

/-- A recorded end is the end for every reader. -/
theorem over_of_endKept {grant : OpenApeGrant} (h : EndKept grant)
    (hTimed : ApprovedTimed grant) : Over grant := by
  obtain ⟨⟨decidedAt, duration, hDecided, -, hPositive, hExpires⟩, hEpoch⟩ :=
    h.2 hTimed
  have hDecidedAt : 0 ≤ decidedAt := hEpoch decidedAt hDecided
  refine ⟨decidedAt + duration + 1, fun now hNow => ⟨?_, fun reader => ?_⟩⟩
  · rw [isGrantExpired_eq_outlived hTimed.1 hTimed.2]
    simp only [outlived, hExpires, Option.any_some, Bool.and_eq_true,
      bne_iff_ne, decide_eq_true_eq]
    omega
  · exact uses_of_ended hExpires (by omega) (by omega)

end Readers

/-! ## Every run -/

section Runs

variable [Collation]

end Runs

/-- A store without grants, at second 1000. -/
private def emptyWorld : MemoryWorld where
  store := { rows := [], nodup := List.nodup_nil }
  clock := fun _ => 1000
  uuids := fun _ => js "g1"

private def timedDelegation : Operation :=
  .delegate
    { delegator := js "owner@example.com"
      delegate := js "agent@example.com"
      audience := js "deploy"
      grantType := .timed
      duration := some 3600 }

/-- Eight turns of an operation that runs alone. -/
private def aloneEvents [Collation] (operation : Operation) :
    List ApprovalEvent :=
  trace memoryStore (List.replicate 8 0) (inFlight [operation] emptyWorld)

private def grantsAfter [Collation] (operation : Operation) :
    List OpenApeGrant :=
  (run memoryStore (List.replicate 8 0)
    (inFlight [operation] emptyWorld)).state.store.rows

/-- A request for an hour that a pre-approval hook lets through. -/
private def timedPost : Operation :=
  .post
    { computeCmdHash := fun command => command
      computeArgvHash := fun _ => []
      actionOf := fun _ => []
      summaryOrBatchRefused := fun _ => none
      preApproval := fun _ =>
        some { kind := js "yolo", decidedBy := js "owner@example.com" } }
    (fun _ => [])
    { requester := js "agent@example.com", targetHost := js "host"
      audience := js "deploy", grantType := some .timed
      duration := some 3600 }

end OpenApe.Ports.TimedApprovals
