import OpenApe.Ports.DrizzleGrantStore
import OpenApe.Verified.Machine

/-!
# A referenced request exists once
(`grant-reference.ts`, `stores.ts`, `drizzle-grant-store.ts`)

The writes of the two grant stores, in any order.  Every call of the
in-memory store is one turn.  A call of the Drizzle store is one transaction,
and the expiry of stale requests that it may run before is a turn of its own,
so any turns of other calls may come between; broker connections change
between the calls as well.
-/

namespace OpenApe.Ports.ReferenceOnce

open Verified.JsText Verified.KeyedTable Verified.Machine
open GrantTypes GrantReference GrantStore
open DrizzleGrantStore (Database BrokerConnection rowToGrant
  GrantRow connectionMissing brokerConnectionActive)

/-! ## The stores as machines -/

inductive StoreCall where
  | createReferenced (grant : OpenApeGrant)
  | save (grant : OpenApeGrant)
  | updateStatus (id : JsString) (status : GrantStatus) (extra : GrantUpdate)
  | claimOnce (id : JsString) (usedAt : Int)
  | withdraw (id : JsString) (withdrawnAt : Int) (reason : Option JsString)

inductive StoreReply where
  | referenced (grant : OpenApeGrant) (created : Bool)
  | done
  | claimed (isClaimed : Bool)
  | withdrawn (previous : Option GrantStatus)
  deriving DecidableEq

abbrev Answer := Except JsError StoreReply

/-- `InMemoryGrantStore` -/
def memory : Machine GrantTable StoreCall Answer
  | .createReferenced grant, grants =>
      let result := MemoryStore.createReferenced grants grant
      (result.1.map (fun found => .referenced found.1 found.2), result.2)
  | .save grant, grants =>
      let result := MemoryStore.save grants grant
      (result.1.map (fun _ => .done), result.2)
  | .updateStatus id status extra, grants =>
      let result := MemoryStore.updateStatus grants id status extra
      (result.1.map (fun _ => .done), result.2)
  | .claimOnce id usedAt, grants =>
      let result := MemoryStore.claimOnce grants id usedAt
      (.ok (.claimed result.1), result.2)
  | .withdraw id withdrawnAt reason, grants =>
      let result := MemoryStore.withdraw grants id withdrawnAt reason
      (.ok (.withdrawn result.1), result.2)

/-- The turns on the database. -/
inductive DrizzleTurn where
  | call (call : StoreCall)
  | expire (now : Int)
  | connect (connections : Table BrokerConnection.id)

/-- The transactions of `createDrizzleGrantStore()`, with the checks made
before them. -/
def drizzle : Machine Database DrizzleTurn Answer
  | .call (.createReferenced grant), db =>
      match assertGrantReferenceRequest grant.request with
      | .error error => (.error error, db)
      | .ok () =>
          if (referenceKeyOf grant).isNone then
            (.error (plainError (js "A reference is required")), db)
          else
            let result := DrizzleGrantStore.createReferenced db grant
            (result.1.map (fun found => .referenced found.1 found.2),
              { db with grants := result.2 })
  | .call (.save grant), db =>
      if grant.request.reference.isSome then
        (.error (plainError
          (js "Use atomic createReferenced for a referenced grant")), db)
      else
        let result := DrizzleGrantStore.save db grant
        (result.1.map (fun _ => .done), { db with grants := result.2 })
  | .call (.updateStatus id status extra), db =>
      let result := DrizzleGrantStore.updateStatus db.grants id status extra
      (result.1.map (fun _ => .done), { db with grants := result.2 })
  | .call (.claimOnce id usedAt), db =>
      let result := DrizzleGrantStore.claimOnce db.grants id usedAt
      (.ok (.claimed result.1), { db with grants := result.2 })
  | .call (.withdraw id withdrawnAt reason), db =>
      let result :=
        DrizzleGrantStore.withdraw db.grants id withdrawnAt reason
      (.ok (.withdrawn result.1), { db with grants := result.2 })
  | .expire now, db =>
      (.ok .done,
        { db with grants := DrizzleGrantStore.expireRequests now db.grants })
  | .connect connections, db =>
      (.ok .done, { db with connections := connections })

def callOf : DrizzleTurn → Option StoreCall
  | .call call => some call
  | _ => none

/-- The grants of the database, as they are read. -/
def stored (db : Database) : List OpenApeGrant :=
  db.grants.rows.map rowToGrant

/-! ## One grant per reference -/

/-- No two grants have one reference key. -/
def OncePerKey (grants : List OpenApeGrant) : Prop :=
  ∀ a ∈ grants, ∀ b ∈ grants, referenceKeyOf a ≠ none →
    referenceKeyOf a = referenceKeyOf b → a = b

/-- The later grant is the earlier one, of the same key and binding. -/
structure SameReference (earlier later : OpenApeGrant) : Prop where
  id : later.id = earlier.id
  key : referenceKeyOf later = referenceKeyOf earlier
  binding : grantReferenceBinding later.request =
    grantReferenceBinding earlier.request

/-- Every referenced grant stays, with its key and its binding. -/
def Keeps (before after : List OpenApeGrant) : Prop :=
  ∀ earlier ∈ before, referenceKeyOf earlier ≠ none →
    ∃ later ∈ after, SameReference earlier later

/-- What a submission gets under a key that a stored grant has, unless it is
refused before the store is searched. -/
def AnswersReferenced (refusal : Option JsError)
    (grant existing : OpenApeGrant) (answer : Answer) : Prop :=
  match refusal with
  | some error => answer = .error error
  | none =>
      if grantReferenceBinding existing.request =
          grantReferenceBinding grant.request then
        answer = .ok (.referenced existing false)
      else answer = .error grantReferenceConflict

section Property

variable {σ τ : Type} (m : Machine σ τ Answer) (grants : σ → List OpenApeGrant)
  (called : τ → Option StoreCall) (refusal : σ → OpenApeGrant → Option JsError)

/-- In every state reached, a reference has one grant, and every turn keeps
the referenced grants and answers submissions under their keys from them. -/
def ReferencedOnce (ok : σ → τ → Prop) (start : σ) : Prop :=
  ∀ s, Reached m ok start s →
    OncePerKey (grants s) ∧ ∀ t, ok s t →
      Keeps (grants s) (grants (m t s).2) ∧
        ∀ grant, called t = some (.createReferenced grant) →
          ∀ existing ∈ grants s, referenceKeyOf existing ≠ none →
            referenceKeyOf existing = referenceKeyOf grant →
            (m t s).2 = s ∧
              AnswersReferenced (refusal s grant) grant existing (m t s).1

/-- The call saves no grant under the id of a referenced one, and brings no
reference to a grant without one. -/
def NoReuse (s : σ) (t : τ) : Prop :=
  match called t with
  | some (.save grant) =>
      ∀ existing ∈ grants s, existing.id = grant.id →
        referenceKeyOf existing = none
  | some (.updateStatus id _ extra) =>
      ∀ existing ∈ grants s, existing.id = id →
        referenceKeyOf existing = none →
        ∀ request, extra.request = some request → request.reference = none
  | _ => True

/-- A submission has no id of a grant with another reference. -/
def NewId (s : σ) (t : τ) : Prop :=
  match called t with
  | some (.createReferenced grant) =>
      ∀ existing ∈ grants s, existing.id = grant.id →
        referenceKeyOf existing ≠ none →
        referenceKeyOf existing = referenceKeyOf grant
  | _ => True

end Property

/-- Why the in-memory store refuses a submission before it searches. -/
def memoryRefusal (_ : GrantTable) (grant : OpenApeGrant) : Option JsError :=
  match assertGrantReferenceRequest grant.request with
  | .error error => some error
  | .ok () => none

/-- Why the Drizzle store does. -/
def drizzleRefusal (db : Database) (grant : OpenApeGrant) : Option JsError :=
  match assertGrantReferenceRequest grant.request with
  | .error error => some error
  | .ok () =>
      if grant.brokered.any (fun b => !brokerConnectionActive db b) then
        some connectionMissing
      else none

/-! ## Comparing referenced grants -/

theorem reference_of_key {a b : OpenApeGrant}
    (h : referenceKeyOf a = referenceKeyOf b) :
    a.request.reference = b.request.reference := by
  unfold referenceKeyOf at h
  cases ha : a.request.reference with
  | none =>
      cases hb : b.request.reference with
      | none => rfl
      | some other => simp [ha, hb] at h
  | some reference =>
      cases hb : b.request.reference with
      | none => simp [ha, hb] at h
      | some other =>
          simp only [ha, hb, Option.map_some, Option.some.injEq] at h
          exact congrArg (fun key => some key.reference) h

theorem referenceKeyOf_eq_none {grant : OpenApeGrant} :
    referenceKeyOf grant = none ↔ grant.request.reference = none := by
  simp [referenceKeyOf]

/-- Under one key, two grants are the same reference when their bindings
agree. -/
theorem assertSame_of_key {existing incoming : OpenApeGrant}
    (h : referenceKeyOf existing = referenceKeyOf incoming) :
    assertSameReferencedGrant existing incoming =
      if grantReferenceBinding existing.request =
          grantReferenceBinding incoming.request then .ok ()
      else .error grantReferenceConflict := by
  unfold assertSameReferencedGrant
  simp only [reference_of_key h, h, ne_eq, not_true_eq_false, decide_false,
    Bool.false_or]
  split_ifs <;> simp_all

theorem same_of_assertSame {existing incoming : OpenApeGrant}
    (h : assertSameReferencedGrant existing incoming = .ok ()) :
    referenceKeyOf existing = referenceKeyOf incoming ∧
      grantReferenceBinding existing.request =
        grantReferenceBinding incoming.request := by
  unfold assertSameReferencedGrant at h
  split at h
  · cases h
  · rename_i hDiffer
    simp only [Bool.or_eq_true, decide_eq_true_eq, not_or, ne_eq,
      not_not] at hDiffer
    exact ⟨hDiffer.1.2, hDiffer.2⟩

/-! ## Writing one row -/

section Rows

variable {ρ : Type} {key : ρ → JsString} {read : ρ → OpenApeGrant}

/-- The table has one grant per reference, and no empty reference. -/
structure Sound (read : ρ → OpenApeGrant) (t : Table key) : Prop where
  once : OncePerKey (t.rows.map read)
  filled : ∀ row ∈ t.rows, (read row).request.reference ≠ some []

/-- What a write may do to a sound table. -/
structure Steps (read : ρ → OpenApeGrant) (t t' : Table key) : Prop where
  sound : Sound read t'
  keeps : Keeps (t.rows.map read) (t'.rows.map read)

theorem SameReference.refl (grant : OpenApeGrant) :
    SameReference grant grant := ⟨rfl, rfl, rfl⟩

theorem steps_refl {t : Table key} (h : Sound read t) : Steps read t t :=
  ⟨h, fun earlier hMem _ => ⟨earlier, hMem, .refl earlier⟩⟩

theorem sound_empty : Sound read (Table.empty : Table key) := by
  constructor
  · intro a ha
    simp [Table.empty] at ha
  · intro row hRow
    simp [Table.empty] at hRow

/-- A row is written whose id is free of references, under a key of its own
if it has one. -/
theorem steps_put {t : Table key} {row : ρ} (h : Sound read t)
    (hFilled : (read row).request.reference ≠ some [])
    (hFree : ∀ old ∈ t.rows, key old = key row →
      referenceKeyOf (read old) = none)
    (hFresh : ∀ old ∈ t.rows, referenceKeyOf (read row) ≠ none →
      referenceKeyOf (read old) ≠ referenceKeyOf (read row)) :
    Steps read t (t.put row) := by
  constructor
  · constructor
    · intro a ha b hb hNone hSame
      obtain ⟨r, hr, rfl⟩ := List.mem_map.mp ha
      obtain ⟨r', hr', rfl⟩ := List.mem_map.mp hb
      rcases Table.mem_put_iff.mp hr with rfl | ⟨hOld, -⟩
      · rcases Table.mem_put_iff.mp hr' with rfl | ⟨hOld', -⟩
        · rfl
        · exact absurd hSame.symm (hFresh r' hOld' hNone)
      · rcases Table.mem_put_iff.mp hr' with rfl | ⟨hOld', -⟩
        · exact absurd hSame (hFresh r hOld (hSame ▸ hNone))
        · exact h.once _ (List.mem_map_of_mem hOld) _
            (List.mem_map_of_mem hOld') hNone hSame
    · intro r hr
      rcases Table.mem_put_iff.mp hr with rfl | ⟨hr, -⟩
      · exact hFilled
      · exact h.filled r hr
  · intro earlier hMem hNone
    obtain ⟨r, hr, rfl⟩ := List.mem_map.mp hMem
    have hOther : key r ≠ key row := fun hKey => hNone (hFree r hr hKey)
    exact ⟨read r, List.mem_map_of_mem
      (Table.mem_put_iff.mpr (.inr ⟨hr, hOther⟩)), .refl _⟩

/-- A row is replaced by one of the same reference. -/
theorem steps_put_same {t : Table key} {old row : ρ}
    (hId : ∀ r, (read r).id = key r) (h : Sound read t) (hOld : old ∈ t.rows)
    (hSame : SameReference (read old) (read row)) :
    Steps read t (t.put row) := by
  have hKey : key old = key row := by
    rw [← hId, ← hId, hSame.id]
  -- another row with the reference of the new one would have the old one's
  have hAlone : ∀ r ∈ t.rows, key r ≠ key row →
      referenceKeyOf (read r) ≠ none →
      referenceKeyOf (read r) ≠ referenceKeyOf (read row) := by
    intro r hr hOther hNone hBoth
    have hRead := h.once _ (List.mem_map_of_mem hr) _
      (List.mem_map_of_mem hOld) hNone (hBoth.trans hSame.key)
    exact hOther (by rw [← hId, hRead, hId, hKey])
  constructor
  · constructor
    · intro a ha b hb hNone hBoth
      obtain ⟨r, hr, rfl⟩ := List.mem_map.mp ha
      obtain ⟨r', hr', rfl⟩ := List.mem_map.mp hb
      rcases Table.mem_put_iff.mp hr with rfl | ⟨hMem, hOther⟩
      · rcases Table.mem_put_iff.mp hr' with rfl | ⟨hMem', hOther'⟩
        · rfl
        · exact absurd hBoth.symm (hAlone r' hMem' hOther' (hBoth ▸ hNone))
      · rcases Table.mem_put_iff.mp hr' with rfl | ⟨hMem', -⟩
        · exact absurd hBoth (hAlone r hMem hOther hNone)
        · exact h.once _ (List.mem_map_of_mem hMem) _
            (List.mem_map_of_mem hMem') hNone hBoth
    · intro r hr
      rcases Table.mem_put_iff.mp hr with rfl | ⟨hr, -⟩
      · rw [reference_of_key hSame.key]
        exact h.filled old hOld
      · exact h.filled r hr
  · intro earlier hMem hNone
    obtain ⟨r, hr, rfl⟩ := List.mem_map.mp hMem
    by_cases hOther : key r = key row
    · have hFound := Table.find?_of_mem hr
      rw [hOther, ← hKey, Table.find?_of_mem hOld] at hFound
      cases hFound
      exact ⟨read row, List.mem_map_of_mem
        (Table.mem_put_iff.mpr (.inl rfl)), hSame⟩
    · exact ⟨read r, List.mem_map_of_mem
        (Table.mem_put_iff.mpr (.inr ⟨hr, hOther⟩)), .refl _⟩

/-- All rows are changed, and stay the same references. -/
theorem steps_mapRows {t : Table key} {f : ρ → ρ}
    (hKey : ∀ r, key (f r) = key r) (h : Sound read t)
    (hId : ∀ r, (read r).id = key r)
    (hSame : ∀ r, SameReference (read r) (read (f r))) :
    Steps read t (t.mapRows f hKey) := by
  constructor
  · constructor
    · intro a ha b hb hNone hBoth
      obtain ⟨r, hr, rfl⟩ := List.mem_map.mp ha
      obtain ⟨r', hr', rfl⟩ := List.mem_map.mp hb
      obtain ⟨old, hOld, rfl⟩ := List.mem_map.mp hr
      obtain ⟨old', hOld', rfl⟩ := List.mem_map.mp hr'
      rw [(hSame old).key] at hNone hBoth
      rw [(hSame old').key] at hBoth
      have hRead := h.once _ (List.mem_map_of_mem hOld) _
        (List.mem_map_of_mem hOld') hNone hBoth
      have hKeys : key old = key old' := by rw [← hId, hRead, hId]
      rw [List.inj_on_of_nodup_map t.nodup hOld hOld' hKeys]
    · intro r hr
      obtain ⟨old, hOld, rfl⟩ := List.mem_map.mp hr
      rw [reference_of_key (hSame old).key]
      exact h.filled old hOld
  · intro earlier hMem _
    obtain ⟨r, hr, rfl⟩ := List.mem_map.mp hMem
    exact ⟨read (f r), List.mem_map_of_mem (List.mem_map_of_mem hr),
      hSame r⟩

end Rows

/-! ## The in-memory store -/

theorem filled_of_assert {request : OpenApeGrantRequest}
    (h : assertGrantReferenceRequest request = .ok ()) :
    request.reference ≠ some [] := by
  intro hEmpty
  rw [assertGrantReferenceRequest, hEmpty] at h
  cases h

/-- What the check of a rewritten request leaves. -/
theorem same_of_guard {old : OpenApeGrant} {extra : GrantUpdate}
    (hFilled : old.request.reference ≠ some [])
    (hGuard : (match extra.request with
      | some request =>
          if truthy old.request.reference then
            assertSameReferencedGrant old { old with request := request }
          else .ok ()
      | none => .ok ()) = Except.ok ()) :
    (referenceKeyOf old = referenceKeyOf
        { old with request := extra.request.getD old.request } ∧
      grantReferenceBinding old.request =
        grantReferenceBinding (extra.request.getD old.request)) ∨
    (referenceKeyOf old = none ∧
      ∃ request, extra.request = some request) := by
  cases hRequest : extra.request with
  | none => exact .inl ⟨rfl, rfl⟩
  | some request =>
      rw [hRequest] at hGuard
      dsimp only at hGuard
      split at hGuard
      · exact .inl (same_of_assertSame hGuard)
      · rename_i hEmpty
        refine .inr ⟨referenceKeyOf_eq_none.mpr ?_, request, rfl⟩
        cases hReference : old.request.reference with
        | none => rfl
        | some reference =>
            cases reference with
            | nil => exact absurd hReference hFilled
            | cons u rest => simp [hReference, truthy] at hEmpty

/-- A call of the in-memory store takes one allowed step. -/
theorem steps_memory {grants : GrantTable} {call : StoreCall}
    (h : Sound id grants)
    (hOk : NoReuse (fun grants : GrantTable => grants.rows) some grants call)
    (hNew : NewId (fun grants : GrantTable => grants.rows) some grants call) :
    Steps id grants (memory call grants).2 := by
  have hId : ∀ grant : OpenApeGrant, (id grant).id = grant.id := fun _ => rfl
  cases call with
  | createReferenced grant =>
      simp only [memory, MemoryStore.createReferenced]
      cases hAssert : assertGrantReferenceRequest grant.request with
      | error error => exact steps_refl h
      | ok =>
          dsimp only
          split
          · exact steps_refl h
          · split
            · split <;> exact steps_refl h
            · rename_i hNone
              have hFresh : ∀ old ∈ grants.rows, referenceKeyOf grant ≠ none →
                  referenceKeyOf old ≠ referenceKeyOf grant := by
                intro old hOld hSome hSame
                have hMiss := List.find?_eq_none.mp hNone old hOld
                refine hMiss (decide_eq_true ⟨?_, hSame⟩)
                rw [Option.isSome_iff_ne_none]
                exact fun hEq => hSome
                  (hSame ▸ referenceKeyOf_eq_none.mpr hEq)
              refine steps_put h (filled_of_assert hAssert) ?_ hFresh
              intro old hOld hKey
              by_contra hSome
              have hSame := hNew old hOld hKey hSome
              exact hFresh old hOld (hSame ▸ hSome) hSame
  | save grant =>
      simp only [memory, MemoryStore.save]
      split
      · exact steps_refl h
      · rename_i hReference
        rw [Bool.not_eq_true, Option.isSome_eq_false_iff,
          Option.isNone_iff_eq_none] at hReference
        have hNone := referenceKeyOf_eq_none.mpr hReference
        exact steps_put h (by simp [hReference]) hOk
          (fun _ _ hSome => absurd hNone hSome)
  | updateStatus id status extra =>
      simp only [memory, MemoryStore.updateStatus]
      cases hFound : grants.find? id with
      | none => exact steps_refl h
      | some old =>
          have hOld := Table.mem_of_find? hFound
          dsimp only
          split
          · exact steps_refl h
          · rename_i hGuard
            rcases same_of_guard (h.filled old hOld) hGuard with
              ⟨hKey, hBinding⟩ | ⟨hNone, request, hRequest⟩
            · exact steps_put_same hId h hOld ⟨rfl, hKey.symm, hBinding.symm⟩
            · have hReference := hOk old hOld (Table.key_of_find? hFound)
                hNone request hRequest
              have hRow : (withUpdate old status extra).request.reference =
                  none := by
                simpa [withUpdate, hRequest] using hReference
              refine steps_put h (by simp [hRow]) ?_
                (fun _ _ hSome => absurd (referenceKeyOf_eq_none.mpr hRow) hSome)
              intro other hOther hKey
              have hSame := Table.find?_of_mem hOther
              rw [hKey, withUpdate_id, Table.key_of_find? hFound, hFound]
                at hSame
              cases hSame
              exact hNone
  | claimOnce id usedAt =>
      simp only [memory, MemoryStore.claimOnce]
      cases hFound : grants.find? id with
      | none => exact steps_refl h
      | some old =>
          dsimp only
          split
          · exact steps_refl h
          · exact steps_put_same hId h (Table.mem_of_find? hFound)
              ⟨rfl, rfl, rfl⟩
  | withdraw id withdrawnAt reason =>
      simp only [memory, MemoryStore.withdraw]
      cases hFound : grants.find? id with
      | none => exact steps_refl h
      | some old =>
          dsimp only
          split
          · exact steps_put_same hId h (Table.mem_of_find? hFound)
              ⟨rfl, rfl, rfl⟩
          · exact steps_refl h

/-! ## The Drizzle store -/

theorem authority_of_binding {a b : OpenApeGrantRequest}
    (h : grantReferenceBinding a = grantReferenceBinding b) :
    a.requester = b.requester ∧ a.targetHost = b.targetHost ∧
      a.audience = b.audience ∧ a.grantType = b.grantType := by
  have hRequester : a.requester = b.requester :=
    congrArg (fun request => request.requester) h
  have hHost : a.targetHost = b.targetHost :=
    congrArg (fun request => request.targetHost) h
  have hAudience : a.audience = b.audience :=
    congrArg (fun request => request.audience) h
  have hType : a.grantType = b.grantType :=
    congrArg (fun request => request.grantType) h
  exact ⟨hRequester, hHost, hAudience, hType⟩

/-- The table is sound, and its reference column holds the keys of its
grants. -/
structure DbSound (grants : Table GrantRow.id) : Prop where
  rows : Sound rowToGrant grants
  column : ∀ row ∈ grants.rows,
    row.referenceKey = referenceKeyOf (rowToGrant row)

structure DbSteps (grants grants' : Table GrantRow.id) : Prop where
  rows : Steps rowToGrant grants grants'
  column : ∀ row ∈ grants'.rows,
    row.referenceKey = referenceKeyOf (rowToGrant row)

theorem dbSteps_refl {grants : Table GrantRow.id} (h : DbSound grants) :
    DbSteps grants grants := ⟨steps_refl h.rows, h.column⟩

theorem dbSteps_put {grants : Table GrantRow.id} {row : GrantRow}
    (h : DbSound grants) (hSteps : Steps rowToGrant grants (grants.put row))
    (hRow : row.referenceKey = referenceKeyOf (rowToGrant row)) :
    DbSteps grants (grants.put row) := by
  refine ⟨hSteps, fun other hOther => ?_⟩
  rcases Table.mem_put_iff.mp hOther with rfl | ⟨hOld, -⟩
  · exact hRow
  · exact h.column other hOld

theorem rowToGrant_id (row : GrantRow) : (rowToGrant row).id = row.id := rfl

/-- A row that is replaced keeps its reference where it has one. -/
theorem dbSteps_put_same {grants : Table GrantRow.id} {old row : GrantRow}
    (h : DbSound grants) (hOld : old ∈ grants.rows)
    (hSame : SameReference (rowToGrant old) (rowToGrant row))
    (hColumn : row.referenceKey = old.referenceKey) :
    DbSteps grants (grants.put row) := by
  refine dbSteps_put h (steps_put_same rowToGrant_id h.rows hOld hSame) ?_
  rw [hColumn, h.column old hOld, hSame.key]

/-- A new row under an id that no row has. -/
theorem dbSteps_insertRow {grants : Table GrantRow.id} {grant : OpenApeGrant}
    (h : DbSound grants) (hFilled : grant.request.reference ≠ some [])
    (hFresh : ∀ old ∈ grants.rows, referenceKeyOf grant ≠ none →
      referenceKeyOf (rowToGrant old) ≠ referenceKeyOf grant) :
    DbSteps grants (DrizzleGrantStore.insertRow grants
      (DrizzleGrantStore.grantToRow grant)).2 := by
  unfold DrizzleGrantStore.insertRow
  split
  · exact dbSteps_refl h
  · rename_i hFree
    refine dbSteps_put h (steps_put h.rows hFilled ?_ hFresh) rfl
    intro old hOld hKey
    have hFound := Table.find?_of_mem hOld
    rw [hKey] at hFound
    simp [hFound] at hFree

/-- A request of the same binding is stored as it is: the columns that
override it hold its own values. -/
theorem request_updatedRow {existing : GrantRow} {status : GrantStatus}
    {extra : GrantUpdate}
    (h : grantReferenceBinding (rowToGrant existing).request =
      grantReferenceBinding
        (extra.request.getD (rowToGrant existing).request)) :
    (rowToGrant (DrizzleGrantStore.updatedRow existing status extra)).request =
      extra.request.getD (rowToGrant existing).request := by
  obtain ⟨hRequester, hHost, hAudience, hType⟩ := authority_of_binding h
  cases hRequest : extra.request with
  | none => simp only [rowToGrant, DrizzleGrantStore.updatedRow, hRequest,
      Option.getD_none]
  | some request =>
      rw [hRequest, Option.getD_some] at hRequester hHost hAudience hType
      simp only [rowToGrant] at hRequester hHost hAudience hType
      have hOrOnce : request.grantTypeOrOnce = existing.grantType := by
        rw [OpenApeGrantRequest.grantTypeOrOnce, ← hType, Option.getD_some]
      simp only [rowToGrant, DrizzleGrantStore.updatedRow, hRequest,
        Option.getD_some, hOrOnce, hRequester, hHost, hAudience, hType]

theorem dbSteps_updateStatus {grants : Table GrantRow.id} {id : JsString}
    {status : GrantStatus} {extra : GrantUpdate} (h : DbSound grants)
    (hOk : ∀ existing ∈ grants.rows.map rowToGrant, existing.id = id →
      referenceKeyOf existing = none →
      ∀ request, extra.request = some request → request.reference = none) :
    DbSteps grants
      (DrizzleGrantStore.updateStatus grants id status extra).2 := by
  rcases DrizzleGrantStore.updateStatus_cases grants id status extra with
    ⟨error, hError⟩ | ⟨old, hFound, hAllowed, hWritten⟩
  · rw [hError]
    exact dbSteps_refl h
  · rw [hWritten]
    have hOld := Table.mem_of_find? hFound
    have hGuard := (DrizzleGrantStore.guards_of_allowed hAllowed).1
    rcases same_of_guard (h.rows.filled old hOld) hGuard with
      ⟨hKey, hBinding⟩ | ⟨hNone, request, hRequest⟩
    · have hStored : (rowToGrant (DrizzleGrantStore.updatedRow old status
          extra)).request = extra.request.getD (rowToGrant old).request :=
        request_updatedRow hBinding
      refine dbSteps_put_same h hOld ⟨rfl, ?_, ?_⟩ rfl
      · rw [hKey]
        simp only [referenceKeyOf, hStored]
        rfl
      · rw [hStored, hBinding]
    · have hId : old.id = id := Table.key_of_find? hFound
      have hReference := hOk _ (List.mem_map_of_mem hOld) hId hNone request
        hRequest
      have hRow : (rowToGrant (DrizzleGrantStore.updatedRow old status
          extra)).request.reference = none := by
        simpa [rowToGrant, DrizzleGrantStore.updatedRow, hRequest]
          using hReference
      have hRowKey := referenceKeyOf_eq_none.mpr hRow
      refine dbSteps_put h (steps_put h.rows (by simp [hRow]) ?_
        (fun _ _ hSome => absurd hRowKey hSome)) ?_
      · intro other hOther hKey
        have hSame := Table.find?_of_mem hOther
        rw [hKey] at hSame
        have hFoundAgain := Table.find?_of_mem hOld
        rw [show (DrizzleGrantStore.updatedRow old status extra).id = old.id
          from rfl, hFoundAgain] at hSame
        cases hSame
        exact hNone
      · rw [hRowKey, ← hNone]
        exact h.column old hOld

theorem dbSteps_save {db : Database} {grant : OpenApeGrant}
    (h : DbSound db.grants) (hReference : grant.request.reference = none)
    (hOk : ∀ existing ∈ stored db, existing.id = grant.id →
      referenceKeyOf existing = none) :
    DbSteps db.grants (DrizzleGrantStore.save db grant).2 := by
  have hNone := referenceKeyOf_eq_none.mpr hReference
  have hFree : ∀ old ∈ db.grants.rows, old.id = grant.id →
      referenceKeyOf (rowToGrant old) = none := fun old hOld hId =>
    hOk _ (List.mem_map_of_mem hOld) hId
  unfold DrizzleGrantStore.save
  dsimp only
  split
  · split
    · exact dbSteps_refl h
    · split
      · exact dbSteps_refl h
      · exact dbSteps_insertRow h (by simp [hReference])
          (fun _ _ hSome => absurd hNone hSome)
  · unfold DrizzleGrantStore.upsertRow
    split
    · refine dbSteps_put h (steps_put h.rows ?_ hFree
        (fun _ _ hSome => absurd hNone hSome)) rfl
      exact fun hEmpty => nomatch hReference.symm.trans hEmpty
    · rename_i old hFound
      have hOld := Table.mem_of_find? hFound
      refine dbSteps_put h (steps_put h.rows ?_ hFree
        (fun _ _ hSome => absurd hNone hSome)) ?_
      · exact fun hEmpty => nomatch hReference.symm.trans hEmpty
      · exact (h.column old hOld).trans
          ((hFree old hOld (Table.key_of_find? hFound)).trans hNone.symm)

theorem dbSteps_createReferenced {db : Database} {grant : OpenApeGrant}
    (h : DbSound db.grants)
    (hFilled : grant.request.reference ≠ some []) :
    DbSteps db.grants (DrizzleGrantStore.createReferenced db grant).2 := by
  unfold DrizzleGrantStore.createReferenced
  dsimp only
  split
  · exact dbSteps_refl h
  · split
    · split <;> exact dbSteps_refl h
    · rename_i hNone
      have hFresh : ∀ old ∈ db.grants.rows, referenceKeyOf grant ≠ none →
          referenceKeyOf (rowToGrant old) ≠ referenceKeyOf grant := by
        intro old hOld _ hSame
        have hMiss := List.find?_eq_none.mp hNone old hOld
        exact hMiss (decide_eq_true ((h.column old hOld).trans hSame))
      split
      · exact dbSteps_refl h
      · have hInsert := dbSteps_insertRow h hFilled hFresh
        split <;> rename_i hEq <;> rw [hEq] at hInsert <;> exact hInsert

theorem dbSteps_expireRequests {grants : Table GrantRow.id} (now : Int)
    (h : DbSound grants) :
    DbSteps grants (DrizzleGrantStore.expireRequests now grants) := by
  have hSame : ∀ row, SameReference (rowToGrant row)
      (rowToGrant (DrizzleGrantStore.expireRow
        (now - DrizzleGrantStore.pendingRequestTtlSeconds) row)) := by
    intro row
    unfold DrizzleGrantStore.expireRow
    split
    · exact ⟨rfl, rfl, rfl⟩
    · exact .refl _
  refine ⟨steps_mapRows _ h.rows rowToGrant_id hSame, ?_⟩
  intro row hRow
  obtain ⟨old, hOld, rfl⟩ := List.mem_map.mp hRow
  rw [(hSame old).key, ← h.column old hOld]
  unfold DrizzleGrantStore.expireRow
  split <;> rfl

/-- A turn on the database takes one allowed step. -/
theorem dbSteps_drizzle {db : Database} {t : DrizzleTurn}
    (h : DbSound db.grants) (hOk : NoReuse stored callOf db t) :
    DbSteps db.grants (drizzle t db).2.grants := by
  cases t with
  | expire now => exact dbSteps_expireRequests now h
  | connect connections => exact dbSteps_refl h
  | call call =>
      cases call with
      | createReferenced grant =>
          simp only [drizzle]
          cases hAssert : assertGrantReferenceRequest grant.request with
          | error error => exact dbSteps_refl h
          | ok =>
              dsimp only
              split
              · exact dbSteps_refl h
              · exact dbSteps_createReferenced h (filled_of_assert hAssert)
      | save grant =>
          simp only [drizzle]
          split
          · exact dbSteps_refl h
          · rename_i hReference
            rw [Bool.not_eq_true, Option.isSome_eq_false_iff,
              Option.isNone_iff_eq_none] at hReference
            exact dbSteps_save h hReference hOk
      | updateStatus id status extra => exact dbSteps_updateStatus h hOk
      | claimOnce id usedAt =>
          simp only [drizzle]
          rcases DrizzleGrantStore.claimOnce_cases db.grants id usedAt with
            hNone | ⟨row, hFound, -, hPut⟩
          · rw [hNone]
            exact dbSteps_refl h
          · rw [hPut]
            exact dbSteps_put_same h (Table.mem_of_find? hFound)
              ⟨rfl, rfl, rfl⟩ rfl
      | withdraw id withdrawnAt reason =>
          simp only [drizzle]
          rcases DrizzleGrantStore.withdraw_cases db.grants id withdrawnAt
            reason with hNone | ⟨row, hFound, -, hPut⟩
          · rw [hNone]
            exact dbSteps_refl h
          · rw [hPut]
            exact dbSteps_put_same h (Table.mem_of_find? hFound)
              ⟨rfl, rfl, rfl⟩ rfl

/-! ## Answers under a stored key -/

/-- The search by key finds the grant that has the key. -/
theorem find?_of_key {ρ : Type} {key : ρ → JsString} {read : ρ → OpenApeGrant}
    {t : Table key} (h : Sound read t) {row : ρ} (hRow : row ∈ t.rows)
    {grant : OpenApeGrant} (hSome : referenceKeyOf (read row) ≠ none)
    (hSame : referenceKeyOf (read row) = referenceKeyOf grant)
    {p : ρ → Bool}
    (hp : ∀ r ∈ t.rows, p r = true ↔
      referenceKeyOf (read r) = referenceKeyOf grant) :
    ∃ found, t.rows.find? p = some found ∧ read found = read row := by
  cases hFound : t.rows.find? p with
  | none =>
      exact absurd ((hp row hRow).mpr hSame)
        (List.find?_eq_none.mp hFound row hRow)
  | some found =>
      have hMem := List.mem_of_find?_eq_some hFound
      have hKey := (hp found hMem).mp (List.find?_some hFound)
      exact ⟨found, rfl, h.once _ (List.mem_map_of_mem hMem) _
        (List.mem_map_of_mem hRow) (by rw [hKey, ← hSame]; exact hSome)
        (hKey.trans hSame.symm)⟩

theorem truthy_reference {grant : OpenApeGrant}
    (hAssert : assertGrantReferenceRequest grant.request = .ok ())
    (hSome : referenceKeyOf grant ≠ none) :
    truthy grant.request.reference = true := by
  cases hReference : grant.request.reference with
  | none => exact absurd (referenceKeyOf_eq_none.mpr hReference) hSome
  | some reference =>
      cases reference with
      | nil => exact absurd hReference (filled_of_assert hAssert)
      | cons u rest => rfl

theorem answers_memory {grants : GrantTable} {grant existing : OpenApeGrant}
    (h : Sound id grants) (hMem : existing ∈ grants.rows)
    (hSome : referenceKeyOf existing ≠ none)
    (hSame : referenceKeyOf existing = referenceKeyOf grant) :
    (memory (.createReferenced grant) grants).2 = grants ∧
      AnswersReferenced (memoryRefusal grants grant) grant existing
        (memory (.createReferenced grant) grants).1 := by
  simp only [memory, MemoryStore.createReferenced, memoryRefusal,
    AnswersReferenced]
  cases hAssert : assertGrantReferenceRequest grant.request with
  | error error => exact ⟨rfl, rfl⟩
  | ok =>
      have hTruthy := truthy_reference hAssert (hSame ▸ hSome)
      obtain ⟨found, hFound, rfl⟩ := find?_of_key h hMem hSome hSame
        (p := fun item => item.request.reference.isSome ∧
          referenceKeyOf item = referenceKeyOf grant) (by
            intro r _
            simp only [decide_eq_true_eq, id_eq, and_iff_right_iff_imp]
            intro hKey
            rw [Option.isSome_iff_ne_none]
            exact fun hNone => hSome ((hSame.trans hKey.symm).trans
              (referenceKeyOf_eq_none.mpr hNone)))
      simp only [hTruthy, Bool.not_true, Bool.false_eq_true, if_false, hFound]
      simp only [id_eq] at hSame ⊢
      rw [assertSame_of_key hSame]
      by_cases hBinding : grantReferenceBinding found.request =
          grantReferenceBinding grant.request
      · simp only [if_pos hBinding]
        exact ⟨trivial, rfl⟩
      · simp only [if_neg hBinding]
        exact ⟨trivial, rfl⟩

theorem answers_drizzle {db : Database} {grant existing : OpenApeGrant}
    (h : DbSound db.grants) (hMem : existing ∈ stored db)
    (hSome : referenceKeyOf existing ≠ none)
    (hSame : referenceKeyOf existing = referenceKeyOf grant) :
    (drizzle (.call (.createReferenced grant)) db).2 = db ∧
      AnswersReferenced (drizzleRefusal db grant) grant existing
        (drizzle (.call (.createReferenced grant)) db).1 := by
  simp only [drizzle, drizzleRefusal, AnswersReferenced]
  cases assertGrantReferenceRequest grant.request with
  | error error => exact ⟨rfl, rfl⟩
  | ok =>
      have hKeyed : ¬(referenceKeyOf grant).isNone = true := by
        rw [Option.isNone_iff_eq_none, ← hSame]
        exact hSome
      obtain ⟨row, hRow, rfl⟩ := List.mem_map.mp hMem
      obtain ⟨found, hFound, hRead⟩ := find?_of_key h.rows hRow hSome hSame
        (p := fun old => old.referenceKey = referenceKeyOf grant) (by
            intro old hOld
            rw [decide_eq_true_eq, h.column old hOld])
      simp only [if_neg hKeyed, DrizzleGrantStore.createReferenced]
      split
      · exact ⟨rfl, rfl⟩
      · rw [show (DrizzleGrantStore.grantToRow grant).referenceKey =
          referenceKeyOf grant from rfl, hFound]
        simp only [hRead, assertSame_of_key hSame]
        by_cases hBinding : grantReferenceBinding (rowToGrant row).request =
            grantReferenceBinding grant.request
        · simp only [if_pos hBinding]
          exact ⟨trivial, rfl⟩
        · simp only [if_neg hBinding]
          exact ⟨trivial, rfl⟩

/-! ## Every interleaving -/

theorem sound_memory {grants : GrantTable}
    (h : Reached memory (fun grants call =>
      NoReuse (fun grants : GrantTable => grants.rows) some grants call ∧
        NewId (fun grants : GrantTable => grants.rows) some grants call)
      Table.empty grants) : Sound id grants :=
  h.invariant (Sound id)
    sound_empty
    (fun _ _ hSound hOk => (steps_memory hSound hOk.1 hOk.2).sound)

theorem sound_drizzle {connections : Table BrokerConnection.id}
    {db : Database}
    (h : Reached drizzle (NoReuse stored callOf) ⟨Table.empty, connections⟩
      db) : DbSound db.grants := by
  refine h.invariant (fun db => DbSound db.grants) ?_ ?_
  · refine ⟨sound_empty, fun row hRow => ?_⟩
    simp [Table.empty] at hRow
  · intro db t hSound hOk
    have hSteps := dbSteps_drizzle hSound hOk
    exact ⟨hSteps.rows.sound, hSteps.column⟩

/-- A referenced request of an agent over a broker. -/
private def submission : OpenApeGrant where
  id := js "g"
  status := .pending
  createdAt := 0
  brokered := some ⟨js "c", js "b", js "a", js "o@x", js "k", none⟩
  request :=
    { reference := some (js "r"), requester := js "a@x",
      targetHost := js "h", audience := js "x", grantType := some .once,
      command := some [js "ls"] }

private def connected : Table BrokerConnection.id :=
  Table.empty.put ⟨js "c", js "o@x", .active⟩

/-- The same submission under another reference. -/
private def otherSubmission : OpenApeGrant :=
  { submission with
    request := { submission.request with reference := some (js "s") } }

/-- A grant of the same request without a reference. -/
private def unreferenced : OpenApeGrant :=
  { submission with
    id := js "u"
    request := { submission.request with reference := none } }

/-- When the connection is revoked, the same submission gets no answer from
the grant that is stored. -/
private theorem refused_revoked :
    ¬ReferencedOnce drizzle stored callOf (fun _ _ => none) anyTurn
      ⟨Table.empty, connected⟩ := by
  intro hOnce
  have hCreated : Reached drizzle anyTurn ⟨Table.empty, connected⟩ _ :=
    .turn .refl (.call (.createReferenced submission)) trivial
  have hRevoked := hCreated.turn (.connect Table.empty) trivial
  have hAnswer := (((hOnce _ hRevoked).2
    (.call (.createReferenced submission)) trivial).2 submission rfl
      submission (by decide) (by decide) rfl).2
  rw [AnswersReferenced, if_pos rfl] at hAnswer
  revert hAnswer
  decide

/-- A grant that is saved under the id of a referenced one replaces it. -/
private theorem lost_saved :
    ¬ReferencedOnce memory (fun grants => grants.rows) some memoryRefusal
      anyTurn Table.empty := by
  intro hOnce
  have hCreated : Reached memory anyTurn Table.empty _ :=
    .turn .refl (.createReferenced submission) trivial
  obtain ⟨later, hLater, hSame⟩ := ((hOnce _ hCreated).2
    (.save { unreferenced with id := js "g" }) trivial).1 submission
    (by decide) (by decide)
  have hKeys : ∀ later ∈ (memory (.save { unreferenced with id := js "g" })
      (memory (.createReferenced submission) Table.empty).2).2.rows,
      referenceKeyOf later ≠ referenceKeyOf submission := by
    decide
  exact hKeys later hLater hSame.key

/-- A submission under the id of another reference replaces its grant. -/
private theorem lost_resubmitted :
    ¬ReferencedOnce memory (fun grants => grants.rows) some memoryRefusal
      (NoReuse (fun grants : GrantTable => grants.rows) some)
      Table.empty := by
  intro hOnce
  have hOk : NoReuse (fun grants : GrantTable => grants.rows) some
      Table.empty (.createReferenced submission) := trivial
  have hCreated := (Reached.refl (m := memory)).turn _ hOk
  obtain ⟨later, hLater, hSame⟩ := ((hOnce _ hCreated).2
    (.createReferenced otherSubmission) trivial).1 submission
    (by decide) (by decide)
  have hKeys : ∀ later ∈ (memory (.createReferenced otherSubmission)
      (memory (.createReferenced submission) Table.empty).2).2.rows,
      referenceKeyOf later ≠ referenceKeyOf submission := by
    decide
  exact hKeys later hLater hSame.key

/-- An update brings the reference of one grant to another, though no call
takes the id of a stored grant. -/
private theorem doubled_updated :
    ¬ReferencedOnce memory (fun grants => grants.rows) some memoryRefusal
      (fun grants call => ∀ grant,
        call = .save grant ∨ call = .createReferenced grant →
        grants.find? grant.id = none)
      Table.empty := by
  intro hOnce
  have hCreated : Reached memory (fun grants call => ∀ grant,
        call = .save grant ∨ call = .createReferenced grant →
        grants.find? grant.id = none) Table.empty _ :=
    .turn .refl (.createReferenced submission) (fun _ _ => rfl)
  have hSaved := hCreated.turn (.save unreferenced) (by
    intro grant hCall
    simp only [StoreCall.save.injEq, reduceCtorEq, or_false] at hCall
    rw [← hCall]
    decide)
  have hUpdated := hSaved.turn (.updateStatus (js "u") .pending
    { request := some submission.request }) (by simp)
  have hTwo := (hOnce _ hUpdated).1 submission (by decide)
    { unreferenced with request := submission.request } (by decide)
    (by decide) rfl
  revert hTwo
  decide

end OpenApe.Ports.ReferenceOnce
