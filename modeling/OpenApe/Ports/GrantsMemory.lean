import Mathlib.Data.List.Induction
import OpenApe.Ports.GrantsExtension

/-!
# Grant operations on the in-memory store

Run alone on an `InMemoryGrantStore`, each operation is a function of the
table: one lemma per operation says which refusal it ends with or which rows
it replaces.  The lemmas about extension describe its three writes in order:
the pending request is rewritten, the extended grants are revoked one by one
(up to the first repeated id, where `revokeGrant` refuses), and the pending
grant is approved.
-/

namespace OpenApe.Ports.GrantsMemory

open Verified.JsText Verified.KeyedTable Verified.Programs.Program
open GrantTypes GrantStore Grants GrantsExtension

/-- A world over an in-memory store. -/
abbrev MemoryWorld := World GrantTable

/-! ## Store calls -/

@[simp] theorem run_findById (id : JsString) (w : MemoryWorld) :
    exec memoryStore (findById id) w = (.ok (w.store.find? id), w) := rfl

@[simp] theorem run_nowSeconds (w : MemoryWorld) :
    exec memoryStore nowSeconds w = (.ok w.now, w.tick) := rfl

/-- A status write replaces the row, unless it would rebind a referenced
request. -/
theorem run_updateStatus {id : JsString} {status : GrantStatus}
    {extra : GrantUpdate} {w : MemoryWorld} {grant : OpenApeGrant}
    (hFound : w.store.find? id = some grant)
    (hFree : extra.request = none ∨ truthy grant.request.reference = false) :
    exec memoryStore (updateStatus id status extra) w =
      (.ok (), w.setStore (w.store.put (withUpdate grant status extra))) := by
  have hStore : MemoryStore.updateStatus w.store id status extra =
      (.ok (), w.store.put (withUpdate grant status extra)) := by
    rcases hFree with hNone | hFree
    · simp only [MemoryStore.updateStatus, hFound, hNone]
    · cases hRequest : extra.request <;>
        simp [MemoryStore.updateStatus, hFound, hRequest, hFree]
  rw [updateStatus, storeCall, exec_perform]
  simp only [memoryStore, hStore]

/-! ## Creation -/

/-- A request without reference is stored as a new pending grant. -/
theorem run_createGrant {request : OpenApeGrantRequest}
    (h : request.reference = none) (w : MemoryWorld) :
    ∃ grant w', grant.request = request ∧ w'.store = w.store.put grant ∧
      exec memoryStore (createGrant {} request) w = (.ok grant, w') := by
  let grant : OpenApeGrant :=
    { id := w.uuids 0, request := request, status := .pending,
      createdAt := w.now }
  let drawn : MemoryWorld := { w with uuids := fun n => w.uuids (n + 1) }
  have hId : exec memoryStore (storeCall .randomUUID) w =
      (.ok (w.uuids 0), drawn) := rfl
  have hSave : exec memoryStore (storeCall (.save grant)) drawn.tick =
      (.ok (), drawn.tick.setStore (w.store.put grant)) := by
    have hStore : MemoryStore.save w.store grant =
        (.ok (), w.store.put grant) := by
      simp [MemoryStore.save, grant, h]
    rw [storeCall, exec_perform]
    change ((MemoryStore.save w.store grant).1,
      drawn.tick.setStore (MemoryStore.save w.store grant).2) = _
    rw [hStore]
  refine ⟨grant, drawn.tick.setStore (w.store.put grant), rfl, rfl, ?_⟩
  unfold createGrant
  rw [exec_bind_ok hId, exec_bind_ok (run_nowSeconds drawn)]
  simp only [h, Option.isSome_none, Bool.false_eq_true, if_false]
  exact exec_bind_ok hSave (fun _ => pure grant)

/-! ## Approval -/

/-- The approved grant. -/
def approvedGrant (grant : OpenApeGrant)
    (overrides : Option ApproveGrantOverrides) (approver : JsString)
    (now : Int) : OpenApeGrant :=
  withUpdate grant .approved
    (approvalUpdate grant.request overrides approver now)

theorem run_approveGrant_refused {grantId approver : JsString}
    {overrides : Option ApproveGrantOverrides} {w : MemoryWorld}
    {grant : OpenApeGrant} {error : JsError}
    (hFound : w.store.find? grantId = some grant)
    (hRefused : approvalRefused grant overrides = some error) :
    exec memoryStore (approveGrant grantId approver overrides) w =
      (.error error, w) := by
  rw [approveGrant, exec_bind_ok (run_findById grantId w), hFound]
  simp only [hRefused, exec_fail]

theorem run_approveGrant_allowed {grantId approver : JsString}
    {overrides : Option ApproveGrantOverrides} {w : MemoryWorld}
    {grant : OpenApeGrant} (hFound : w.store.find? grantId = some grant)
    (hFree : truthy grant.request.reference = false)
    (hAllowed : approvalRefused grant overrides = none) :
    exec memoryStore (approveGrant grantId approver overrides) w =
      (.ok (some (approvedGrant grant overrides approver w.now)),
        w.tick.setStore (w.store.put
          (approvedGrant grant overrides approver w.now))) := by
  have hWrite : exec memoryStore (updateStatus grantId .approved
      (approvalUpdate grant.request overrides approver w.now)) w.tick = _ :=
    run_updateStatus hFound (.inr hFree)
  rw [approveGrant, exec_bind_ok (run_findById grantId w), hFound]
  simp only [hAllowed]
  rw [exec_bind_ok (run_nowSeconds w), exec_bind_ok hWrite, run_findById]
  obtain rfl : grant.id = grantId := Table.key_of_find? hFound
  exact Prod.ext (congrArg Except.ok (Table.find?_put_self w.store
    (approvedGrant grant overrides approver w.now))) rfl

/-! ## Revocation -/

/-- The revoked grant. -/
def revokedGrant (grant : OpenApeGrant) : OpenApeGrant :=
  { grant with status := .revoked }

theorem run_revokeGrant {grantId : JsString} {w : MemoryWorld}
    {grant : OpenApeGrant} (hFound : w.store.find? grantId = some grant)
    (hApproved : grant.status = .approved) :
    exec memoryStore (revokeGrant grantId) w =
      (.ok (some (revokedGrant grant)),
        w.setStore (w.store.put (revokedGrant grant))) := by
  have hWrite : exec memoryStore (updateStatus grantId .revoked {}) w = _ :=
    run_updateStatus hFound (.inl rfl)
  rw [revokeGrant, exec_bind_ok (run_findById grantId w), hFound]
  simp only [exec_throwIf_bind, hApproved]
  rw [if_neg (by decide), exec_bind_ok hWrite, run_findById]
  obtain rfl : grant.id = grantId := Table.key_of_find? hFound
  exact Prod.ext (congrArg Except.ok
    (Table.find?_put_self w.store (revokedGrant grant))) rfl

theorem run_revokeGrant_revoked {grantId : JsString} {w : MemoryWorld}
    {grant : OpenApeGrant} (hFound : w.store.find? grantId = some grant)
    (hRevoked : grant.status = .revoked) :
    exec memoryStore (revokeGrant grantId) w =
      (.error (grantNotRevocable .revoked), w) := by
  rw [revokeGrant, exec_bind_ok (run_findById grantId w), hFound]
  simp only [exec_throwIf_bind, hRevoked]
  rw [if_pos (by decide)]

/-- The grants before the first one whose id was seen. -/
def untilRepeat (seen : List JsString) : List OpenApeGrant → List OpenApeGrant
  | [] => []
  | old :: rest =>
      if old.id ∈ seen then [] else old :: untilRepeat (old.id :: seen) rest

/-- The table with some of its grants revoked. -/
def revokeIn (grants : GrantTable) (olds : List OpenApeGrant) : GrantTable :=
  olds.foldl (fun grants old => grants.put (revokedGrant old)) grants

/-- Every grant is stored: as it is and approved, or revoked when its id was
seen. -/
def Revocable (grants : GrantTable) (seen : List JsString)
    (olds : List OpenApeGrant) : Prop :=
  ∀ old ∈ olds,
    (old.id ∈ seen → ∃ grant, grants.find? old.id = some grant ∧
      grant.status = .revoked) ∧
    (old.id ∉ seen → grants.find? old.id = some old ∧ old.status = .approved)

private theorem revocable_tail {grants : GrantTable} {seen : List JsString}
    {old : OpenApeGrant} {rest : List OpenApeGrant}
    (h : Revocable grants seen (old :: rest)) :
    Revocable (grants.put (revokedGrant old)) (old.id :: seen) rest := by
  intro other hOther
  obtain ⟨hSeen, hFresh⟩ := h other (List.mem_cons_of_mem _ hOther)
  by_cases hId : other.id = old.id
  · refine ⟨fun _ => ⟨revokedGrant old, ?_, rfl⟩, fun hNot => ?_⟩
    · rw [hId]
      exact Table.find?_put_self grants (revokedGrant old)
    · exact absurd (by simp [hId]) hNot
  · have hFind : (grants.put (revokedGrant old)).find? other.id =
        grants.find? other.id := Table.find?_put_ne grants hId
    rw [hFind]
    simp only [List.mem_cons, hId, false_or]
    exact ⟨hSeen, hFresh⟩

/-- The revocations stop at the first repeated id, and end there with an
error; without one they revoke every grant. -/
theorem run_revokeAll {olds : List OpenApeGrant} {seen : List JsString}
    {w : MemoryWorld} (h : Revocable w.store seen olds) :
    (untilRepeat seen olds = olds ∧ exec memoryStore (revokeAll olds) w =
        (.ok (), w.setStore (revokeIn w.store olds))) ∨
      (untilRepeat seen olds ≠ olds ∧ ∃ error,
        exec memoryStore (revokeAll olds) w =
          (.error error,
            w.setStore (revokeIn w.store (untilRepeat seen olds)))) := by
  induction olds generalizing seen w with
  | nil => exact .inl ⟨rfl, rfl⟩
  | cons old rest ih =>
      obtain ⟨hSeen, hFresh⟩ := h old List.mem_cons_self
      by_cases hMem : old.id ∈ seen
      · obtain ⟨grant, hFound, hRevoked⟩ := hSeen hMem
        have hRun := run_revokeGrant_revoked hFound hRevoked
        refine .inr ⟨by simp [untilRepeat, hMem],
          grantNotRevocable .revoked, ?_⟩
        rw [revokeAll, exec_bind_error hRun]
        simp only [untilRepeat, hMem, if_true]
        rfl
      · obtain ⟨hFound, hApproved⟩ := hFresh hMem
        have hRun := run_revokeGrant hFound hApproved
        have hTail : Revocable
            (w.setStore (w.store.put (revokedGrant old))).store
            (old.id :: seen) rest := revocable_tail h
        rw [revokeAll, exec_bind_ok hRun]
        simp only [untilRepeat, hMem, if_false]
        rcases ih hTail with ⟨hAll, hRest⟩ | ⟨hSome, error, hRest⟩
        · exact .inl ⟨by rw [hAll], hRest⟩
        · exact .inr ⟨fun hEq => hSome (List.cons.inj hEq).2, error, hRest⟩

theorem mem_of_mem_untilRepeat {seen : List JsString}
    {olds : List OpenApeGrant} {old : OpenApeGrant}
    (h : old ∈ untilRepeat seen olds) : old ∈ olds := by
  induction olds generalizing seen with
  | nil => cases h
  | cons first rest ih =>
      unfold untilRepeat at h
      split at h
      · cases h
      · rcases List.mem_cons.mp h with rfl | h
        · exact List.mem_cons_self
        · exact List.mem_cons_of_mem _ (ih h)

/-- No grant repeats exactly when no id does. -/
theorem untilRepeat_eq_self_iff (olds : List OpenApeGrant) :
    untilRepeat [] olds = olds ↔ (olds.map OpenApeGrant.id).Nodup := by
  have hSeen : ∀ seen : List JsString, untilRepeat seen olds = olds ↔
      (olds.map OpenApeGrant.id).Nodup ∧
        ∀ id ∈ seen, id ∉ olds.map OpenApeGrant.id := by
    induction olds with
    | nil => simp [untilRepeat]
    | cons old rest ih =>
        intro seen
        unfold untilRepeat
        split
        · rename_i hMem
          simp only [List.map_cons, false_iff, not_and, reduceCtorEq]
          exact fun _ hAll => hAll old.id hMem List.mem_cons_self
        · rename_i hMem
          simp only [List.cons.injEq, true_and, ih, List.map_cons,
            List.nodup_cons, List.mem_cons, forall_eq_or_imp, not_or]
          constructor
          · rintro ⟨hNodup, hOld, hRest⟩
            exact ⟨⟨hOld, hNodup⟩, fun id hId =>
              ⟨fun hEq => hMem (hEq ▸ hId), hRest id hId⟩⟩
          · rintro ⟨⟨hOld, hNodup⟩, hRest⟩
            exact ⟨hNodup, hOld, fun id hId => (hRest id hId).2⟩
  simpa using hSeen []

/-- A revoked grant is found revoked. -/
theorem find?_revokeIn_of_mem {grants : GrantTable} {id : JsString}
    {olds : List OpenApeGrant} (h : id ∈ olds.map OpenApeGrant.id) :
    ∃ old ∈ olds, old.id = id ∧
      (revokeIn grants olds).find? id = some (revokedGrant old) := by
  induction olds using List.reverseRecOn with
  | nil => cases h
  | append_singleton olds last ih =>
      have hStep : revokeIn grants (olds ++ [last]) =
          (revokeIn grants olds).put (revokedGrant last) := by
        simp [revokeIn]
      rw [hStep]
      by_cases hLast : id = last.id
      · subst hLast
        exact ⟨last, by simp, rfl,
          Table.find?_put_self _ (revokedGrant last)⟩
      · have hMem : id ∈ olds.map OpenApeGrant.id := by
          simpa [hLast, Ne.symm hLast] using h
        obtain ⟨old, hOld, hId, hFind⟩ := ih hMem
        refine ⟨old, by simp [hOld], hId, ?_⟩
        rw [← hFind]
        exact Table.find?_put_ne _ hLast

/-- Every other grant is found as it was. -/
theorem find?_revokeIn_of_not_mem {grants : GrantTable} {id : JsString}
    {olds : List OpenApeGrant} (h : id ∉ olds.map OpenApeGrant.id) :
    (revokeIn grants olds).find? id = grants.find? id := by
  induction olds generalizing grants with
  | nil => rfl
  | cons old rest ih =>
      simp only [List.map_cons, List.mem_cons, not_or] at h
      have hStep : revokeIn grants (old :: rest) =
          revokeIn (grants.put (revokedGrant old)) rest := rfl
      rw [hStep, ih h.2]
      exact Table.find?_put_ne grants h.1

/-! ## Admission of an extension -/

/-- The checks of `approveGrantWithExtension` passed: the pending grant may
be widened and every id names a grant it may be joined with. -/
structure Admitted (grants : GrantTable) (grantId : JsString)
    (ids : List JsString) (pending : OpenApeGrant)
    (olds : List OpenApeGrant) : Prop where
  found : grants.find? grantId = some pending
  isPending : pending.status = .pending
  unreferenced : truthy pending.request.reference = false
  notSingleUse : singleUse pending.request.authorizationDetails = false
  extended : List.Forall₂ (fun id old =>
    grants.find? id = some old ∧ extendRefused pending old = none) ids olds

theorem status_of_extendable {pending old : OpenApeGrant}
    (h : extendRefused pending old = none) : old.status = .approved := by
  unfold extendRefused at h
  by_contra hStatus
  simp [hStatus] at h

private theorem exists_of_forall₂ {α β : Type} {R : α → β → Prop}
    {xs : List α} {ys : List β} (h : List.Forall₂ R xs ys) {y : β}
    (hy : y ∈ ys) : ∃ x, R x y := by
  induction h with
  | nil => cases hy
  | cons hHead _ ih =>
      rcases List.mem_cons.mp hy with rfl | hTail
      · exact ⟨_, hHead⟩
      · exact ih hTail

namespace Admitted

variable {grants : GrantTable} {grantId : JsString} {ids : List JsString}
  {pending : OpenApeGrant} {olds : List OpenApeGrant}

/-- Each extended grant is stored, approved and not the pending one. -/
theorem of_mem (h : Admitted grants grantId ids pending olds)
    {old : OpenApeGrant} (hOld : old ∈ olds) :
    grants.find? old.id = some old ∧ old.status = .approved ∧
      extendRefused pending old = none ∧ old.id ≠ grantId := by
  obtain ⟨id, hFound, hExtend⟩ := exists_of_forall₂ h.extended hOld
  have hKey : old.id = id := Table.key_of_find? hFound
  have hApproved := status_of_extendable hExtend
  refine ⟨hKey ▸ hFound, hApproved, hExtend, ?_⟩
  rintro rfl
  have hSame : old = pending :=
    Option.some.inj ((hKey ▸ hFound).symm.trans h.found)
  rw [hSame, h.isPending] at hApproved
  cases hApproved

/-- The ids are those of the extended grants. -/
theorem ids_eq (h : Admitted grants grantId ids pending olds) :
    olds.map OpenApeGrant.id = ids := by
  have hKeys := h.extended
  clear h
  induction hKeys with
  | nil => rfl
  | cons hHead _ ih =>
      rw [List.map_cons, ih, Table.key_of_find? hHead.1]

/-- The grants are determined by the store. -/
theorem unique (h : Admitted grants grantId ids pending olds)
    {other : OpenApeGrant} {others : List OpenApeGrant}
    (hOther : Admitted grants grantId ids other others) :
    pending = other ∧ olds = others := by
  obtain rfl : pending = other :=
    Option.some.inj (h.found.symm.trans hOther.found)
  refine ⟨rfl, ?_⟩
  have hLeft := h.extended
  have hRight := hOther.extended
  clear h hOther
  induction hLeft generalizing others with
  | nil => cases hRight; rfl
  | cons hHead _ ih =>
      cases hRight with
      | cons hOtherHead hOtherTail =>
          rw [ih hOtherTail,
            Option.some.inj (hHead.1.symm.trans hOtherHead.1)]

end Admitted

/-- The loop over the ids reads the store and returns the grants. -/
theorem run_collectExtended {pending : OpenApeGrant} {ids : List JsString}
    {olds : List OpenApeGrant} {w : MemoryWorld}
    (h : List.Forall₂ (fun id old => w.store.find? id = some old ∧
      extendRefused pending old = none) ids olds) :
    exec memoryStore (collectExtended pending ids) w = (.ok olds, w) := by
  induction h with
  | nil => rfl
  | cons hHead _ ih =>
      rw [collectExtended, exec_bind_ok (run_findById _ w), hHead.1]
      simp only [hHead.2, exec_bind_ok ih, exec_pure]

/-- Where one id names no grant that may be joined, the loop throws. -/
theorem run_collectExtended_refused {pending : OpenApeGrant}
    {ids : List JsString} {w : MemoryWorld}
    (h : ¬∃ olds, List.Forall₂ (fun id old => w.store.find? id = some old ∧
      extendRefused pending old = none) ids olds) :
    ∃ error, exec memoryStore (collectExtended pending ids) w =
      (.error error, w) := by
  induction ids with
  | nil => exact absurd ⟨[], .nil⟩ h
  | cons id rest ih =>
      rw [collectExtended, exec_bind_ok (run_findById id w)]
      cases hFound : w.store.find? id with
      | none => exact ⟨_, rfl⟩
      | some old =>
          cases hRefused : extendRefused pending old with
          | some error => exact ⟨error, by simp only [hRefused, exec_fail]⟩
          | none =>
              have hRest : ¬∃ olds, List.Forall₂ (fun id old =>
                  w.store.find? id = some old ∧
                    extendRefused pending old = none) rest olds := by
                rintro ⟨olds, hOlds⟩
                exact h ⟨old :: olds, .cons ⟨hFound, hRefused⟩ hOlds⟩
              obtain ⟨error, hRun⟩ := ih hRest
              exact ⟨error, by simp only [hRefused, exec_bind_error hRun]⟩

/-! ## Extension -/

variable [Collation]

/-- The pending grant with the joined request. -/
def rewrittenGrant (mode : ExtendMode) (pending : OpenApeGrant)
    (olds : List OpenApeGrant) : OpenApeGrant :=
  { pending with request := extendedRequest mode pending olds }

/-- The store before the final approval: the request rewritten and the
grants revoked, up to the first repeated id. -/
def preparedStore (grants : GrantTable) (mode : ExtendMode)
    (pending : OpenApeGrant) (olds : List OpenApeGrant) : GrantTable :=
  revokeIn (grants.put (rewrittenGrant mode pending olds))
    (untilRepeat [] olds)

theorem reference_extendedRequest (mode : ExtendMode) (pending : OpenApeGrant)
    (olds : List OpenApeGrant) :
    (extendedRequest mode pending olds).reference =
      pending.request.reference := by
  cases mode <;> rfl

/-- The pending grant is not among the revoked ones. -/
theorem find?_preparedStore {grants : GrantTable} {grantId : JsString}
    {ids : List JsString} {pending : OpenApeGrant}
    {olds : List OpenApeGrant} (h : Admitted grants grantId ids pending olds)
    (mode : ExtendMode) :
    (preparedStore grants mode pending olds).find? grantId =
      some (rewrittenGrant mode pending olds) := by
  have hKey : pending.id = grantId := Table.key_of_find? h.found
  have hNot : grantId ∉ (untilRepeat [] olds).map OpenApeGrant.id := by
    intro hMem
    obtain ⟨old, hOld, hId⟩ := List.mem_map.mp hMem
    exact (h.of_mem (mem_of_mem_untilRepeat hOld)).2.2.2 hId
  rw [preparedStore, find?_revokeIn_of_not_mem hNot, ← hKey]
  exact Table.find?_put_self grants (rewrittenGrant mode pending olds)

/-- The grants before the first repeated id are revoked. -/
theorem find?_preparedStore_of_mem {grants : GrantTable} {mode : ExtendMode}
    {pending : OpenApeGrant} {olds : List OpenApeGrant} {id : JsString}
    (h : id ∈ (untilRepeat [] olds).map OpenApeGrant.id) :
    ∃ grant, (preparedStore grants mode pending olds).find? id = some grant ∧
      grant.status = .revoked := by
  obtain ⟨old, _, _, hFind⟩ := find?_revokeIn_of_mem h
  exact ⟨revokedGrant old, hFind, rfl⟩

/-- Every other grant but the pending one is as it was. -/
theorem find?_preparedStore_of_ne {grants : GrantTable} {mode : ExtendMode}
    {pending : OpenApeGrant} {olds : List OpenApeGrant} {id : JsString}
    (hNe : id ≠ pending.id)
    (h : id ∉ (untilRepeat [] olds).map OpenApeGrant.id) :
    (preparedStore grants mode pending olds).find? id = grants.find? id := by
  rw [preparedStore, find?_revokeIn_of_not_mem h]
  exact Table.find?_put_ne grants hNe

/-- An extension that is not admitted throws before it writes. -/
theorem run_extension_refused {grantId : JsString} (approver : JsString)
    {overrides : ExtensionOverrides} {w : MemoryWorld}
    (h : ¬∃ pending olds,
      Admitted w.store grantId overrides.extendGrantIds pending olds) :
    ∃ error, exec memoryStore
      (approveGrantWithExtension grantId approver overrides) w =
        (.error error, w) := by
  rw [approveGrantWithExtension, exec_bind_ok (run_findById grantId w)]
  cases hFound : w.store.find? grantId with
  | none => exact ⟨grantNotFound grantId, rfl⟩
  | some pending =>
      simp only [exec_throwIf_bind, ne_eq, decide_not, Bool.not_eq_true',
        decide_eq_false_iff_not, ite_not, Bool.or_eq_true]
      by_cases hPending : pending.status = .pending
      · rw [if_pos hPending]
        by_cases hBound : truthy pending.request.reference = true ∨
            singleUse pending.request.authorizationDetails = true
        · exact ⟨cannotBeWidened, by rw [if_pos hBound]⟩
        · obtain ⟨hReference, hSingle⟩ : truthy pending.request.reference =
              false ∧ singleUse pending.request.authorizationDetails =
              false := by simpa using hBound
          have hNone : ¬∃ olds, List.Forall₂ (fun id old =>
              w.store.find? id = some old ∧
                extendRefused pending old = none)
              overrides.extendGrantIds olds := fun ⟨olds, hOlds⟩ =>
            h ⟨pending, olds, hFound, hPending, hReference, hSingle, hOlds⟩
          obtain ⟨error, hRun⟩ := run_collectExtended_refused hNone
          exact ⟨error, by rw [if_neg hBound, exec_bind_error hRun]⟩
      · exact ⟨grantNotPending pending.status, by rw [if_neg hPending]⟩

/-- An admitted extension rewrites the request before it revokes and
approves. -/
theorem run_extension_of_admitted {grantId : JsString} (approver : JsString)
    {overrides : ExtensionOverrides} {w : MemoryWorld}
    {pending : OpenApeGrant} {olds : List OpenApeGrant}
    (h : Admitted w.store grantId overrides.extendGrantIds pending olds) :
    exec memoryStore (approveGrantWithExtension grantId approver overrides) w =
      exec memoryStore (do
          revokeAll olds
          approveGrant grantId approver (some overrides.approval))
        (w.setStore (w.store.put
          (rewrittenGrant overrides.extendMode pending olds))) := by
  have hWrite : exec memoryStore (updateStatus grantId .pending
      { request := some (extendedRequest overrides.extendMode
        pending olds) }) w = _ :=
    run_updateStatus h.found (.inr h.unreferenced)
  have hUpdate : withUpdate pending .pending
      { request := some (extendedRequest overrides.extendMode
        pending olds) } =
      rewrittenGrant overrides.extendMode pending olds := by
    simp [withUpdate, rewrittenGrant, h.isPending]
  rw [hUpdate] at hWrite
  rw [approveGrantWithExtension, exec_bind_ok (run_findById grantId w),
    h.found]
  simp only [exec_throwIf_bind, h.isPending, h.unreferenced, h.notSingleUse,
    ne_eq, not_true_eq_false, decide_false, Bool.or_self, Bool.false_eq_true,
    if_false]
  rw [exec_bind_ok (run_collectExtended h.extended), exec_bind_ok hWrite]

/-- How an admitted extension ends: at a repeated id, where the approval
refuses, or with the approved grant. -/
theorem run_admittedExtension {grantId : JsString} (approver : JsString)
    {overrides : ExtensionOverrides} {w : MemoryWorld}
    {pending : OpenApeGrant} {olds : List OpenApeGrant}
    (h : Admitted w.store grantId overrides.extendGrantIds pending olds) :
    let rewritten := rewrittenGrant overrides.extendMode pending olds
    let prepared := preparedStore w.store overrides.extendMode pending olds
    let refused := approvalRefused rewritten (some overrides.approval)
    let approved := approvedGrant rewritten (some overrides.approval) approver
      w.now
    let result := exec memoryStore
      (approveGrantWithExtension grantId approver overrides) w
    (untilRepeat [] olds ≠ olds ∧
        ∃ error, result = (.error error, w.setStore prepared)) ∨
      (untilRepeat [] olds = olds ∧ ∃ error, refused = some error ∧
        result = (.error error, w.setStore prepared)) ∨
      (untilRepeat [] olds = olds ∧ refused = none ∧
        result = (.ok (some approved),
          w.tick.setStore (prepared.put approved))) := by
  intro rewritten prepared refused approved result
  have hResult : result = exec memoryStore (do
      revokeAll olds
      approveGrant grantId approver (some overrides.approval))
      (w.setStore (w.store.put rewritten)) :=
    run_extension_of_admitted approver h
  have hRevocable : Revocable (w.setStore (w.store.put rewritten)).store []
      olds := by
    intro old hOld
    obtain ⟨hFound, hApproved, _, hOther⟩ := h.of_mem hOld
    have hKey : pending.id = grantId := Table.key_of_find? h.found
    have hFind : (w.store.put rewritten).find? old.id =
        w.store.find? old.id := Table.find?_put_ne w.store (hKey ▸ hOther)
    exact ⟨fun hSeen => absurd hSeen (by simp), fun _ =>
      ⟨hFind.trans hFound, hApproved⟩⟩
  have hRewritten : prepared.find? grantId = some rewritten :=
    find?_preparedStore h overrides.extendMode
  rcases run_revokeAll hRevocable with ⟨hAll, hRun⟩ | ⟨hSome, error, hRun⟩
  · have hStore : revokeIn (w.store.put rewritten) olds = prepared := by
      change _ = revokeIn _ (untilRepeat [] olds)
      rw [hAll]
    rw [exec_bind_ok hRun] at hResult
    simp only [World.setStore_store, hStore] at hResult
    cases hRefused : approvalRefused rewritten (some overrides.approval) with
    | some error =>
        refine .inr (.inl ⟨hAll, error, hRefused, ?_⟩)
        exact hResult.trans (run_approveGrant_refused hRewritten hRefused)
    | none =>
        refine .inr (.inr ⟨hAll, hRefused, ?_⟩)
        have hFree : truthy rewritten.request.reference = false :=
          (congrArg truthy (reference_extendedRequest _ _ _)).trans
            h.unreferenced
        exact hResult.trans
          (run_approveGrant_allowed hRewritten hFree hRefused)
  · exact .inl ⟨hSome, error, hResult.trans (exec_bind_error hRun _)⟩

/-! ## Widening -/

/-- The checks of `approveGrantWithWidening` before its first write
passed. -/
structure Widenable (grants : GrantTable) (grantId : JsString)
    (widenedDetails : List AuthorizationDetail) (pending : OpenApeGrant)
    (normalized : List CliAuthorizationDetail) : Prop where
  found : grants.find? grantId = some pending
  isPending : pending.status = .pending
  unreferenced : truthy pending.request.reference = false
  notSingleUse : singleUse pending.request.authorizationDetails = false
  widened : widenedDetailsOf pending widenedDetails = .ok normalized

/-- The pending grant with the widened request. -/
def widenedGrant (pending : OpenApeGrant)
    (normalized : List CliAuthorizationDetail) : OpenApeGrant :=
  { pending with request := widenedRequest pending normalized }

/-- A widening that fails its checks throws before it writes. -/
theorem run_widening_refused {grantId : JsString} (approver : JsString)
    {widenedDetails : List AuthorizationDetail}
    (overrides : Option ApproveGrantOverrides) {w : MemoryWorld}
    (h : ¬∃ pending normalized,
      Widenable w.store grantId widenedDetails pending normalized) :
    ∃ error, exec memoryStore
      (approveGrantWithWidening grantId approver widenedDetails overrides) w =
        (.error error, w) := by
  rw [approveGrantWithWidening, exec_bind_ok (run_findById grantId w)]
  cases hFound : w.store.find? grantId with
  | none => exact ⟨grantNotFound grantId, rfl⟩
  | some pending =>
      simp only [exec_throwIf_bind, ne_eq, decide_not, Bool.not_eq_true',
        decide_eq_false_iff_not, ite_not, Bool.or_eq_true]
      by_cases hPending : pending.status = .pending
      · rw [if_pos hPending]
        by_cases hBound : truthy pending.request.reference = true ∨
            singleUse pending.request.authorizationDetails = true
        · exact ⟨cannotBeWidened, by rw [if_pos hBound]⟩
        · obtain ⟨hReference, hSingle⟩ : truthy pending.request.reference =
              false ∧ singleUse pending.request.authorizationDetails =
              false := by simpa using hBound
          rw [if_neg hBound]
          cases hWidened : widenedDetailsOf pending widenedDetails with
          | error error => exact ⟨error, by simp only [exec_fail]⟩
          | ok normalized =>
              exact absurd ⟨pending, normalized, hFound, hPending,
                hReference, hSingle, hWidened⟩ h
      · exact ⟨grantNotPending pending.status, by rw [if_neg hPending]⟩

/-- A widening that passes them rewrites the request, and ends where the
approval refuses or with the approved grant. -/
theorem run_widening_of_widenable {grantId : JsString} (approver : JsString)
    {widenedDetails : List AuthorizationDetail}
    (overrides : Option ApproveGrantOverrides) {w : MemoryWorld}
    {pending : OpenApeGrant} {normalized : List CliAuthorizationDetail}
    (h : Widenable w.store grantId widenedDetails pending normalized) :
    let rewritten := widenedGrant pending normalized
    let prepared := w.store.put rewritten
    let refused := approvalRefused rewritten overrides
    let approved := approvedGrant rewritten overrides approver w.now
    let result := exec memoryStore
      (approveGrantWithWidening grantId approver widenedDetails overrides) w
    (∃ error, refused = some error ∧
        result = (.error error, w.setStore prepared)) ∨
      (refused = none ∧ result = (.ok (some approved),
        w.tick.setStore (prepared.put approved))) := by
  intro rewritten prepared refused approved result
  have hWrite : exec memoryStore (updateStatus grantId .pending
      { request := some (widenedRequest pending normalized) }) w = _ :=
    run_updateStatus h.found (.inr h.unreferenced)
  have hUpdate : withUpdate pending .pending
      { request := some (widenedRequest pending normalized) } =
      rewritten := by
    simp [withUpdate, rewritten, widenedGrant, h.isPending]
  rw [hUpdate] at hWrite
  have hResult : result = exec memoryStore
      (approveGrant grantId approver overrides) (w.setStore prepared) := by
    change exec memoryStore (approveGrantWithWidening grantId approver
      widenedDetails overrides) w = _
    rw [approveGrantWithWidening, exec_bind_ok (run_findById grantId w),
      h.found]
    simp only [exec_throwIf_bind, h.isPending, h.unreferenced,
      h.notSingleUse, h.widened, ne_eq, not_true_eq_false, decide_false,
      Bool.or_self, Bool.false_eq_true, if_false]
    rw [exec_bind_ok hWrite]
  have hRewritten : (w.setStore prepared).store.find? grantId =
      some rewritten := by
    obtain rfl : pending.id = grantId := Table.key_of_find? h.found
    exact Table.find?_put_self w.store rewritten
  cases hRefused : approvalRefused rewritten overrides with
  | some error =>
      exact .inl ⟨error, hRefused,
        hResult.trans (run_approveGrant_refused hRewritten hRefused)⟩
  | none =>
      exact .inr ⟨hRefused, hResult.trans
        (run_approveGrant_allowed hRewritten h.unreferenced hRefused)⟩

end OpenApe.Ports.GrantsMemory
