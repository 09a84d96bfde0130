import OpenApe.Ports.DrizzleGrantStore
import OpenApe.Ports.Grants
import OpenApe.Verified.Interleaving

/-!
# Terminal states under interleaving

Concurrent grant operations interleave between their store calls, so a write
may rest on a read that is no longer true.  A row that is settled (denied,
revoked, used, expired or withdrawn) stays settled through every store call
these operations make, except one: `updateStatus` guards a decision only for
rows that are brokered, referenced or expired, and lets a late approval of
any other settled row through (`LateApproval`).  In a run without late
approvals of a grant, its terminal states are absorbing and it is claimed at
most once; a row with a broker binding or a reference key needs no such
condition.
-/

namespace OpenApe.Ports.GrantsLifecycle

open Verified.JsText Verified.KeyedTable Verified.Programs.Program
  Verified.Interleaving
open GrantTypes GrantReference GrantStore DrizzleGrantStore Grants

/-! ## Operations in flight -/

/-- A call of one of the grant operations. -/
inductive Operation where
  | approve (grantId approver : JsString)
      (overrides : Option ApproveGrantOverrides)
  | deny (grantId denier : JsString)
  | revoke (grantId : JsString)
  | introspect (grantId : JsString)
  | use (grantId : JsString)
  | withdraw (referenceKey : GrantReferenceKey) (reason : Option JsString)
  deriving DecidableEq

/-- What an operation returns. -/
inductive Answer where
  | grant (grant : Option OpenApeGrant)
  | withdrawal (result : GrantWithdrawResult)
  deriving DecidableEq

def Operation.program : Operation → GrantProgram Answer
  | approve grantId approver overrides =>
      Answer.grant <$> approveGrant grantId approver overrides
  | deny grantId denier => Answer.grant <$> denyGrant grantId denier
  | revoke grantId => Answer.grant <$> revokeGrant grantId
  | introspect grantId => Answer.grant <$> introspectGrant grantId
  | use grantId => Answer.grant <$> useGrant {} grantId
  | withdraw referenceKey reason =>
      Answer.withdrawal <$> withdrawReferencedGrant {} referenceKey reason

abbrev GrantPool := Pool grantStore JsError Answer (World Database)

abbrev GrantEvent := Event grantStore JsError (World Database)

/-- All operations at their start, over one database. -/
def inFlight (operations : List Operation) (w : World Database) : GrantPool :=
  ⟨operations.map Operation.program, w⟩

/-- The calls the operations make: they insert no grant and write no
`pending`. -/
def LifecycleCall : GrantStoreCall → Prop
  | .findById _ => True
  | .updateStatus _ status _ => status ≠ .pending
  | .listGrants _ => True
  | .claimOnce _ _ => True
  | .withdraw _ _ _ => True
  | .now => True
  | .createReferenced _ => False
  | .save _ => False
  | .findByRequester _ => False
  | .randomUUID => False

section Asks

private theorem asks_call {call : GrantStoreCall} (h : LifecycleCall call) :
    Asks LifecycleCall (storeCall call) := asks_perform h

private theorem asks_findById (id : JsString) :
    Asks LifecycleCall (findById id) := asks_call trivial

private theorem asks_update (id : JsString) {status : GrantStatus}
    (h : status ≠ .pending) (extra : GrantUpdate) :
    Asks LifecycleCall (updateStatus id status extra) := asks_call h

private theorem asks_now : Asks LifecycleCall nowSeconds := asks_call trivial

theorem asks_approveGrant (grantId approver : JsString)
    (overrides : Option ApproveGrantOverrides) :
    Asks LifecycleCall (approveGrant grantId approver overrides) := by
  refine asks_bind (asks_findById _) (fun grant => ?_)
  cases grant with
  | none => trivial
  | some grant =>
      simp only
      cases approvalRefused grant overrides with
      | some error => trivial
      | none =>
          refine asks_bind asks_now (fun now => ?_)
          exact asks_bind (asks_update _ (by decide) _)
            (fun _ => asks_findById _)

theorem asks_denyGrant (grantId denier : JsString) :
    Asks LifecycleCall (denyGrant grantId denier) := by
  refine asks_bind (asks_findById _) (fun grant => ?_)
  cases grant with
  | none => trivial
  | some grant =>
      refine asks_bind (asks_throwIf _ _ _) (fun _ => ?_)
      refine asks_bind asks_now (fun now => ?_)
      exact asks_bind (asks_update _ (by decide) _)
        (fun _ => asks_findById _)

theorem asks_revokeGrant (grantId : JsString) :
    Asks LifecycleCall (revokeGrant grantId) := by
  refine asks_bind (asks_findById _) (fun grant => ?_)
  cases grant with
  | none => trivial
  | some grant =>
      refine asks_bind (asks_throwIf _ _ _) (fun _ => ?_)
      exact asks_bind (asks_update _ (by decide) _)
        (fun _ => asks_findById _)

theorem asks_introspectGrant (grantId : JsString) :
    Asks LifecycleCall (introspectGrant grantId) := by
  refine asks_bind (asks_findById _) (fun grant => ?_)
  cases grant with
  | none => trivial
  | some grant =>
      refine asks_bind asks_now (fun now => ?_)
      split
      · exact asks_bind (asks_update _ (by decide) _)
          (fun _ => asks_findById _)
      · trivial

theorem asks_useGrant (grantId : JsString) :
    Asks LifecycleCall (useGrant {} grantId) := by
  refine asks_bind (asks_introspectGrant _) (fun grant => ?_)
  cases grant with
  | none => trivial
  | some grant =>
      refine asks_bind (asks_throwIf _ _ _) (fun _ => ?_)
      split
      · refine asks_bind asks_now (fun now => ?_)
        refine asks_bind ?_ (fun _ => asks_findById _)
        exact asks_bind (asks_call trivial) (fun _ => asks_throwIf _ _ _)
      · trivial

private theorem asks_findReferenced (key : GrantReferenceKey) :
    Asks LifecycleCall (findReferenced key) :=
  asks_bind (asks_call trivial) (fun _ => trivial)

private theorem asks_withdrawOpen (grant : OpenApeGrant)
    (reason : Option JsString) :
    Asks LifecycleCall (withdrawOpen grant reason) := by
  unfold withdrawOpen
  split
  · exact asks_bind asks_now (fun now => asks_call trivial)
  · trivial

private theorem asks_settledResult (grant : OpenApeGrant) :
    Asks LifecycleCall (settledResult grant) := by
  unfold settledResult
  split <;> trivial

theorem asks_withdrawReferencedGrant (key : GrantReferenceKey)
    (reason : Option JsString) :
    Asks LifecycleCall (withdrawReferencedGrant {} key reason) := by
  refine asks_bind (asks_throwIf _ _ _) (fun _ => ?_)
  refine asks_bind (asks_findReferenced _) (fun grant => ?_)
  cases grant with
  | none => trivial
  | some grant =>
      refine asks_bind (asks_withdrawOpen _ _) (fun previous => ?_)
      cases previous with
      | some previous => trivial
      | none =>
          refine asks_bind (asks_findReferenced _) (fun grant => ?_)
          cases grant with
          | none => trivial
          | some grant => exact asks_settledResult grant

theorem asks_operation (op : Operation) :
    Asks LifecycleCall op.program := by
  cases op with
  | approve grantId approver overrides =>
      exact asks_map (asks_approveGrant grantId approver overrides) _
  | deny grantId denier => exact asks_map (asks_denyGrant grantId denier) _
  | revoke grantId => exact asks_map (asks_revokeGrant grantId) _
  | introspect grantId => exact asks_map (asks_introspectGrant grantId) _
  | use grantId => exact asks_map (asks_useGrant grantId) _
  | withdraw key reason =>
      exact asks_map (asks_withdrawReferencedGrant key reason) _

theorem poolAsks_inFlight (operations : List Operation) (w : World Database) :
    PoolAsks LifecycleCall (inFlight operations w) := by
  intro thread hThread
  obtain ⟨op, _, rfl⟩ := List.mem_map.mp hThread
  exact asks_operation op

end Asks

/-! ## Settled rows -/

/-- The statuses no operation may leave again. -/
def isTerminal : GrantStatus → Bool
  | .denied | .revoked | .used | .expired | .withdrawn => true
  | .pending | .approved => false

/-- The row of `gid` satisfies `p`. -/
def RowIs (p : GrantRow → Prop) (gid : JsString) (w : World Database) :
    Prop :=
  ∃ row, w.store.grants.find? gid = some row ∧ p row

/-- The grant is in a terminal state. -/
def Settled (gid : JsString) (w : World Database) : Prop :=
  RowIs (fun row => isTerminal row.status = true) gid w

/-- A decision written late: an approval of a denied, revoked or used row
that neither a broker binding nor a reference protects. -/
def LateApproval (gid : JsString) (event : GrantEvent) : Prop :=
  match event.call with
  | .updateStatus id .approved extra =>
      id = gid ∧ RowIs (fun row =>
        (row.status = .denied ∨ row.status = .revoked ∨ row.status = .used) ∧
          keepsDecision row = false ∧ referenceRefused row extra = .ok ())
        gid event.before
  | _ => False

/-! ## One step -/

private theorem find?_expired (now : Int) (grants : GrantRows)
    (gid : JsString) :
    (expireRequests now grants).find? gid =
      (grants.find? gid).map (expireRow (now - pendingRequestTtlSeconds)) :=
  Table.find?_mapRows _ _ _ _

theorem expireRow_of_ne_pending (cutoff : Int) {row : GrantRow}
    (h : row.status ≠ .pending) : expireRow cutoff row = row := by
  simp [expireRow, h]

private theorem ne_pending_of_isTerminal {status : GrantStatus}
    (h : isTerminal status = true) : status ≠ .pending := by
  rintro rfl
  cases h

/-- Expiry leaves a settled row as it is. -/
theorem find?_expirePendingRequests {gid : JsString} {w : World Database}
    {row : GrantRow} (hRow : w.store.grants.find? gid = some row)
    (hSettled : isTerminal row.status = true) :
    (expirePendingRequests w).store.grants.find? gid = some row := by
  have hFind := find?_expired w.now w.store.grants gid
  rw [hRow, Option.map_some,
    expireRow_of_ne_pending _ (ne_pending_of_isTerminal hSettled)] at hFind
  exact hFind

/-- Writing a status to a settled row is refused, or leaves it settled,
unless the write is a late approval. -/
theorem updateStatus_settled {grants : GrantRows} {gid id : JsString}
    {row : GrantRow} (hRow : grants.find? gid = some row)
    (hSettled : isTerminal row.status = true) {status : GrantStatus}
    (hStatus : status ≠ .pending) {extra : GrantUpdate}
    (hLate : ¬(status = .approved ∧ id = gid ∧
      (row.status = .denied ∨ row.status = .revoked ∨ row.status = .used) ∧
        keepsDecision row = false ∧ referenceRefused row extra = .ok ())) :
    ∃ row', (DrizzleGrantStore.updateStatus grants id status extra).2.find?
        gid = some row' ∧ isTerminal row'.status = true := by
  rcases updateStatus_cases grants id status extra with
    ⟨error, h⟩ | ⟨existing, hExisting, hAllowed, h⟩
  · exact ⟨row, h ▸ hRow, hSettled⟩
  · rw [h]
    have hKey : existing.id = id := Table.key_of_find? hExisting
    by_cases hId : gid = existing.id
    · obtain rfl : existing = row := by
        rw [← hKey, ← hId, hRow] at hExisting
        exact (Option.some.inj hExisting).symm
      refine ⟨updatedRow existing status extra, ?_, ?_⟩
      · exact hId ▸
          Table.find?_put_self grants (updatedRow existing status extra)
      · change isTerminal status = true
        by_contra hNot
        obtain rfl : status = .approved := by
          cases status <;> simp_all [isTerminal]
        -- Only an unguarded settled row takes an approval.
        obtain ⟨hSame, hWithdrawn, hGuard⟩ := guards_of_allowed hAllowed
        have hKeeps : keepsDecision existing = false := by
          by_contra hKeeps
          have hPending := hGuard (.inl rfl) (by simpa using hKeeps)
          simp [hPending, isTerminal] at hSettled
        refine hLate ⟨rfl, hKey.symm.trans hId.symm, ?_, hKeeps, hSame⟩
        cases hRowStatus : existing.status <;>
          simp_all [isTerminal, keepsDecision]
    · refine ⟨row, ?_, hSettled⟩
      have hFind :
          (grants.put (updatedRow existing status extra)).find? gid =
            grants.find? gid := Table.find?_put_ne grants hId
      exact hFind.trans hRow

private theorem find?_put_of_ne_status {grants : GrantRows} {gid : JsString}
    {row other : GrantRow} (hRow : grants.find? gid = some row)
    (hOther : ∃ old, grants.find? other.id = some old ∧
      old.status ≠ row.status) :
    (grants.put other).find? gid = some row := by
  obtain ⟨old, hOld, hStatus⟩ := hOther
  refine (Table.find?_put_ne grants ?_).trans hRow
  rintro rfl
  rw [hOld] at hRow
  exact hStatus (congrArg GrantRow.status (Option.some.inj hRow))

/-- A settled row is not approved, so no claim touches it. -/
theorem claimOnce_settled {grants : GrantRows} {gid : JsString}
    {row : GrantRow} (hRow : grants.find? gid = some row)
    (hSettled : isTerminal row.status = true) (id : JsString)
    (usedAt : Int) :
    (DrizzleGrantStore.claimOnce grants id usedAt).2.find? gid =
      some row := by
  rcases claimOnce_cases grants id usedAt with h | ⟨old, hOld, hApproved, h⟩
  · rw [h]
    exact hRow
  · rw [h]
    have hKey : old.id = id := Table.key_of_find? hOld
    refine find?_put_of_ne_status hRow ⟨old, ?_, ?_⟩
    · exact hKey ▸ hOld
    · intro hStatus
      rw [← hStatus, hApproved] at hSettled
      cases hSettled

/-- A settled row is not open, so no withdrawal touches it. -/
theorem withdraw_settled {grants : GrantRows} {gid : JsString}
    {row : GrantRow} (hRow : grants.find? gid = some row)
    (hSettled : isTerminal row.status = true) (id : JsString)
    (withdrawnAt : Int) (reason : Option JsString) :
    (DrizzleGrantStore.withdraw grants id withdrawnAt reason).2.find? gid =
      some row := by
  rcases withdraw_cases grants id withdrawnAt reason with
    h | ⟨old, hOld, hOpen, h⟩
  · rw [h]
    exact hRow
  · rw [h]
    have hKey : old.id = id := Table.key_of_find? hOld
    refine find?_put_of_ne_status hRow ⟨old, ?_, ?_⟩
    · exact hKey ▸ hOld
    · intro hStatus
      rw [← hStatus] at hSettled
      rcases hOpen with hOpen | ⟨hOpen, _⟩ <;> rw [hOpen] at hSettled <;>
        cases hSettled

/-- **One store call** keeps a settled grant settled, unless it is a late
approval of it. -/
theorem settled_of_call {gid : JsString} {call : GrantStoreCall}
    {w : World Database} (hCall : LifecycleCall call)
    (hLate : ¬LateApproval gid (eventOf drizzleStore call w))
    (hSettled : Settled gid w) : Settled gid (drizzleStore call w).2 := by
  obtain ⟨row, hRow, hTerminal⟩ := hSettled
  have hExpired := find?_expirePendingRequests hRow hTerminal
  cases call with
  | findById id => exact ⟨row, hExpired, hTerminal⟩
  | listGrants params => exact ⟨row, hExpired, hTerminal⟩
  | updateStatus id status extra =>
      refine updateStatus_settled hExpired hTerminal hCall ?_
      rintro ⟨rfl, rfl, hUnguarded⟩
      exact hLate ⟨rfl, row, hRow, hUnguarded⟩
  | claimOnce id usedAt =>
      exact ⟨row, claimOnce_settled hRow hTerminal id usedAt, hTerminal⟩
  | withdraw id withdrawnAt reason =>
      exact ⟨row, withdraw_settled hRow hTerminal id withdrawnAt reason,
        hTerminal⟩
  | now => exact ⟨row, hRow, hTerminal⟩
  | createReferenced grant => exact hCall.elim
  | save grant => exact hCall.elim
  | findByRequester requester => exact hCall.elim
  | randomUUID => exact hCall.elim

/-- A late approval takes a settled row back to approved. -/
theorem not_settled_of_lateApproval {gid : JsString} {call : GrantStoreCall}
    {w : World Database}
    (hLate : LateApproval gid (eventOf drizzleStore call w)) :
    Settled gid w ∧ ¬Settled gid (drizzleStore call w).2 := by
  unfold LateApproval at hLate
  split at hLate
  · rename_i id extra hCall
    obtain rfl : call = .updateStatus id .approved extra := hCall
    obtain ⟨rfl, row, hRow, hStatus, hKeeps, hSame⟩ := hLate
    have hTerminal : isTerminal row.status = true := by
      rcases hStatus with h | h | h <;> rw [h] <;> rfl
    have hExpired : (expirePendingRequests w).store.grants.find? id =
        some row := find?_expirePendingRequests hRow hTerminal
    refine ⟨⟨row, hRow, hTerminal⟩, ?_⟩
    have hAllowed : updateRefused row .approved extra = .ok () := by
      have hWithdrawn : row.status ≠ .withdrawn := by
        rcases hStatus with h | h | h <;> rw [h] <;> decide
      simp [updateRefused, hSame, hKeeps, hWithdrawn]
    have hKey : row.id = id := Table.key_of_find? hRow
    have hAfter : (DrizzleGrantStore.updateStatus
        (expirePendingRequests w).store.grants id .approved extra).2.find? id =
          some (updatedRow row .approved extra) := by
      rw [updateStatus_of_allowed hExpired hAllowed]
      exact hKey ▸ Table.find?_put_self _ (updatedRow row .approved extra)
    rintro ⟨after, hFound, hSettled⟩
    obtain rfl := Option.some.inj (hAfter.symm.trans hFound)
    cases hSettled
  · exact hLate.elim

/-! ## Claims -/

/-- A `claimOnce` of the grant that answered true. -/
def claims (gid : JsString) (event : GrantEvent) : Bool :=
  match event with
  | ⟨.claimOnce id _, .ok claimed, _, _⟩ => id == gid && claimed
  | _ => false

/-- Only an approved grant is claimed, and it is used from then on. -/
theorem claims_cases {gid : JsString} {call : GrantStoreCall}
    {w : World Database}
    (h : claims gid (eventOf drizzleStore call w) = true) :
    (∃ row, w.store.grants.find? gid = some row ∧ row.status = .approved) ∧
      Settled gid (drizzleStore call w).2 := by
  cases call with
  | claimOnce id usedAt =>
      have hClaim : (id == gid &&
          (DrizzleGrantStore.claimOnce w.store.grants id usedAt).1) = true := h
      obtain ⟨hId, hClaimed⟩ := Bool.and_eq_true_iff.mp hClaim
      obtain rfl : id = gid := by simpa using hId
      rcases claimOnce_cases w.store.grants id usedAt with
        hCase | ⟨row, hRow, hApproved, hCase⟩
      · rw [hCase] at hClaimed
        cases hClaimed
      · refine ⟨⟨row, hRow, hApproved⟩,
          { row with status := .used, usedAt := some usedAt }, ?_, rfl⟩
        change (DrizzleGrantStore.claimOnce w.store.grants id usedAt).2.find?
          id = _
        have hKey : row.id = id := Table.key_of_find? hRow
        rw [hCase]
        exact hKey ▸ Table.find?_put_self w.store.grants
          { row with status := .used, usedAt := some usedAt }
  | _ => cases h

theorem claims_of_settled {gid : JsString} (call : GrantStoreCall)
    {w : World Database} (hSettled : Settled gid w) :
    claims gid (eventOf drizzleStore call w) = false := by
  by_contra h
  obtain ⟨⟨row, hRow, hApproved⟩, _⟩ := claims_cases (by simpa using h)
  obtain ⟨settled, hFound, hTerminal⟩ := hSettled
  rw [hRow] at hFound
  obtain rfl := Option.some.inj hFound
  rw [hApproved] at hTerminal
  cases hTerminal

/-! ## Bound rows -/

/-- The grant has a broker binding or a reference key. -/
def Bound (gid : JsString) (w : World Database) : Prop :=
  RowIs (fun row => row.brokered.isSome = true ∨
    row.referenceKey.isSome = true) gid w

section Binding

variable {q : Option BrokeredGrant → Option GrantReferenceKey → Prop}

/-- The binding of a grant, its broker and its reference key, satisfies
`q`. -/
def BindingIs (q : Option BrokeredGrant → Option GrantReferenceKey → Prop)
    (gid : JsString) (w : World Database) : Prop :=
  RowIs (fun row => q row.brokered row.referenceKey) gid w

private theorem binding_put {gid : JsString} {grants : GrantRows}
    {old : GrantRow} (new : GrantRow) (hOld : grants.find? new.id = some old)
    (hBinding : new.brokered = old.brokered ∧
      new.referenceKey = old.referenceKey)
    (h : ∃ row, grants.find? gid = some row ∧
      q row.brokered row.referenceKey) :
    ∃ row, (grants.put new).find? gid = some row ∧
      q row.brokered row.referenceKey := by
  obtain ⟨row, hRow, hBound⟩ := h
  by_cases hKey : gid = new.id
  · subst hKey
    obtain rfl : old = row := Option.some.inj (hOld.symm.trans hRow)
    refine ⟨new, Table.find?_put_self grants new, ?_⟩
    rw [hBinding.1, hBinding.2]
    exact hBound
  · exact ⟨row, (Table.find?_put_ne grants hKey).trans hRow, hBound⟩

private theorem binding_expired {gid : JsString} {w : World Database}
    (h : BindingIs q gid w) : BindingIs q gid (expirePendingRequests w) := by
  obtain ⟨row, hRow, hBound⟩ := h
  refine ⟨expireRow (w.now - pendingRequestTtlSeconds) row, ?_, ?_⟩
  · have hFind := find?_expired w.now w.store.grants gid
    rw [hRow] at hFind
    exact hFind
  · unfold expireRow
    split <;> exact hBound

/-- No operation changes the binding of a grant. -/
theorem binding_of_call {gid : JsString} {call : GrantStoreCall}
    {w : World Database} (hCall : LifecycleCall call)
    (h : BindingIs q gid w) : BindingIs q gid (drizzleStore call w).2 := by
  have hExpired := binding_expired h
  cases call with
  | findById id => exact hExpired
  | listGrants params => exact hExpired
  | updateStatus id status extra =>
      change ∃ row, (DrizzleGrantStore.updateStatus
        (expirePendingRequests w).store.grants id status extra).2.find? gid =
          some row ∧ _
      rcases updateStatus_cases (expirePendingRequests w).store.grants id
          status extra with ⟨error, hCase⟩ | ⟨old, hOld, _, hCase⟩
      · rw [hCase]
        exact hExpired
      · rw [hCase]
        obtain rfl : old.id = id := Table.key_of_find? hOld
        exact binding_put (updatedRow old status extra) hOld ⟨rfl, rfl⟩
          hExpired
  | claimOnce id usedAt =>
      change ∃ row, (DrizzleGrantStore.claimOnce w.store.grants id
        usedAt).2.find? gid = some row ∧ _
      rcases claimOnce_cases w.store.grants id usedAt with
        hCase | ⟨old, hOld, _, hCase⟩
      · rw [hCase]
        exact h
      · rw [hCase]
        obtain rfl : old.id = id := Table.key_of_find? hOld
        exact binding_put { old with status := .used, usedAt := some usedAt }
          hOld ⟨rfl, rfl⟩ h
  | withdraw id withdrawnAt reason =>
      change ∃ row, (DrizzleGrantStore.withdraw w.store.grants id withdrawnAt
        reason).2.find? gid = some row ∧ _
      rcases withdraw_cases w.store.grants id withdrawnAt reason with
        hCase | ⟨old, hOld, _, hCase⟩
      · rw [hCase]
        exact h
      · rw [hCase]
        obtain rfl : old.id = id := Table.key_of_find? hOld
        exact binding_put
          { old with
            status := .withdrawn
            decidedAt := some withdrawnAt
            withdrawReason := reason } hOld ⟨rfl, rfl⟩ h
  | now => exact h
  | createReferenced grant => exact hCall.elim
  | save grant => exact hCall.elim
  | findByRequester requester => exact hCall.elim
  | randomUUID => exact hCall.elim

end Binding

/-- A brokered or referenced grant is never approved late. -/
theorem no_lateApproval_of_bound {gid : JsString}
    (operations : List Operation) {w : World Database}
    (hBound : Bound gid w) {schedule : List Nat} {event : GrantEvent}
    (hEvent : event ∈ trace drizzleStore schedule (inFlight operations w)) :
    ¬LateApproval gid event := by
  obtain ⟨row, hRow, hKept⟩ := inv_before_of_mem_trace (Bound gid)
    (fun _ _ => binding_of_call (q := fun brokered referenceKey =>
      brokered.isSome = true ∨ referenceKey.isSome = true))
    (poolAsks_inFlight operations w) hBound hEvent
  intro hLate
  unfold LateApproval at hLate
  split at hLate
  · obtain ⟨_, found, hFound, _, hKeeps, _⟩ := hLate
    obtain rfl : row = found := Option.some.inj (hRow.symm.trans hFound)
    rcases hKept with h | h <;> simp [keepsDecision, h] at hKeeps
  · exact hLate

/-! ## Runs -/

/-- In every state of the run the terminal states of the grant are
absorbing, and the grant is claimed at most once. -/
structure SpentOnce (gid : JsString) (schedule : List Nat)
    (pool : GrantPool) : Prop where
  absorbing : ∀ early late, early ++ late <+: schedule →
    Settled gid (run drizzleStore early pool).state →
    Settled gid (run drizzleStore (early ++ late) pool).state
  claimed : ((trace drizzleStore schedule pool).filter (claims gid)).length ≤ 1

private theorem mem_trace_of_earlier {h : Handler grantStore JsError
    (World Database)} {early late schedule : List Nat} {pool : GrantPool}
    (hPrefix : early ++ late <+: schedule) {event : GrantEvent}
    (hEvent : event ∈ trace h late (run h early pool)) :
    event ∈ trace h schedule pool := by
  obtain ⟨rest, rfl⟩ := hPrefix
  rw [trace_append, trace_append]
  simp [hEvent]

/-- **Terminal states are absorbing and a grant is spent once** in a run of
grant operations if and only if the run approves the grant at no step late:
whatever the operations and the database, however the store calls interleave
and whatever the clock reads. -/
theorem spentOnce_iff_no_lateApproval (gid : JsString)
    (operations : List Operation) (w : World Database)
    (schedule : List Nat) :
    SpentOnce gid schedule (inFlight operations w) ↔
      ∀ event ∈ trace drizzleStore schedule (inFlight operations w),
        ¬LateApproval gid event := by
  have hAsks := poolAsks_inFlight operations w
  constructor
  · intro hSpent event hEvent hLate
    obtain ⟨early, i, late, rfl, hTurn⟩ := exists_turn_of_mem_trace hEvent
    obtain ⟨hEventOf, hState⟩ := turn_event hTurn
    rw [hEventOf] at hLate
    obtain ⟨hBefore, hAfter⟩ := not_settled_of_lateApproval hLate
    have hSettled := hSpent.absorbing early [i] ⟨late, by simp⟩ hBefore
    rw [run_append] at hSettled
    have hRun : (run drizzleStore [i]
        (run drizzleStore early (inFlight operations w))).state =
        event.after := hState
    rw [hRun, hEventOf] at hSettled
    exact hAfter hSettled
  · intro hLate
    constructor
    · intro early late hPrefix hSettled
      rw [run_append]
      exact run_preserves (fun event => ¬LateApproval gid event)
        (Settled gid) (fun call w => settled_of_call)
        (poolAsks_run early hAsks)
        (fun event hEvent => hLate event (mem_trace_of_earlier hPrefix hEvent))
        hSettled
    · exact filter_trace_length_le_one
        (fun event => ¬LateApproval gid event) (Settled gid)
        (fun call w => settled_of_call)
        (fun call w => claims_of_settled call)
        (fun call w h => (claims_cases h).2) hAsks hLate

/-- **A brokered or referenced grant is spent once** in every run. -/
theorem spentOnce_of_bound {gid : JsString} (operations : List Operation)
    {w : World Database} (hBound : Bound gid w) (schedule : List Nat) :
    SpentOnce gid schedule (inFlight operations w) := by
  have hAsks := poolAsks_inFlight operations w
  have hLate : ∀ event ∈ trace drizzleStore schedule
      (inFlight operations w), ¬LateApproval gid event :=
    fun _ => no_lateApproval_of_bound operations hBound
  constructor
  · intro early late hPrefix hSettled
    rw [run_append]
    apply run_preserves (¬LateApproval gid ·) (Settled gid)
      (fun _ _ => settled_of_call) (poolAsks_run early hAsks) _ hSettled
    exact fun event hEvent => hLate event (mem_trace_of_earlier hPrefix hEvent)
  · exact filter_trace_length_le_one (¬LateApproval gid ·) (Settled gid)
      (fun _ _ => settled_of_call) (fun call _ => claims_of_settled call)
      (fun _ _ h => (claims_cases h).2) hAsks hLate

/-- A pending single-use grant. -/
def onceRow : GrantRow :=
  grantToRow
    { id := js "g", status := .pending, createdAt := 0
      request :=
        { requester := js "a@x", targetHost := js "h", audience := js "x",
          grantType := some .once } }

/-- Two approvals and two uses of one pending grant. -/
def approveTwiceUseTwice : GrantPool :=
  inFlight
    [.approve (js "g") (js "o@x") none, .approve (js "g") (js "o@x") none,
      .use (js "g"), .use (js "g")]
    { store := { grants := Table.empty.put onceRow,
                 connections := Table.empty }
      clock := fun _ => 1
      uuids := fun _ => [] }

/-- Both approvals read the grant as pending; the second writes after the
grant was used, and the grant is used again. -/
theorem not_spentOnce_approveTwiceUseTwice :
    ¬SpentOnce (js "g") [0, 1, 0, 0, 2, 2, 2, 2, 1, 1, 3, 3, 3, 3]
      approveTwiceUseTwice := by
  intro hSpent
  have hTwice : ((trace drizzleStore [0, 1, 0, 0, 2, 2, 2, 2, 1, 1, 3, 3, 3, 3]
      approveTwiceUseTwice).filter (claims (js "g"))).length = 2 := by decide
  have := hSpent.claimed
  omega

/-- With a reference key the second approval is refused. -/
theorem spentOnce_of_bound_referenced :
    SpentOnce (js "g") [0, 1, 0, 0, 2, 2, 2, 2, 1, 1] (inFlight
      [.approve (js "g") (js "o@x") none, .approve (js "g") (js "o@x") none,
        .use (js "g")]
      { store :=
          { grants := Table.empty.put
              { onceRow with referenceKey := some ⟨js "a@x", js "r", none⟩ }
            connections := Table.empty }
        clock := fun _ => 1
        uuids := fun _ => [] }) :=
  spentOnce_of_bound _ ⟨_, rfl, .inr rfl⟩ _

end OpenApe.Ports.GrantsLifecycle
