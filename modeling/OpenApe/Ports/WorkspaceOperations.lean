import OpenApe.Ports.WorkspaceRuns

/-!
# The operations of the workspace

`OperationsStep` is all that a call can do to the table of operations: move
rows along `Moves`, or add one accepted row to a runtime that has no active
one.  Every effect of a call is such a step (`step_of_effect`), and what
holds of all runs follows from that alone.
-/

namespace OpenApe.Ports.WorkspaceOperations

open Verified.JsText Verified.Json Verified.KeyedTable Verified.Machine
  Verified.Transactions.Action
open CentralValues CentralCommands CentralParts WorkspaceStore WorkspaceRuns

/-! ## How an operation may move -/

inductive Moves : OperationState → OperationState → Prop where
  | start : Moves .accepted .started
  | refuse : Moves .accepted .failed
  | apply : Moves .started .applied
  | fail : Moves .started .failed
  | lose : Moves .started .unknown
  | reconcile : Moves .unknown .applied
  | giveUp : Moves .unknown .failed

theorem Moves.active {a b : OperationState} (h : Moves a b) :
    a ∈ activeStates := by
  cases h <;> decide

theorem Moves.ne_accepted {a b : OperationState} (h : Moves a b) :
    b ≠ .accepted := by
  cases h <;> decide

/-- Two rows of one request. -/
structure SameRequest (row row' : OperationRow) : Prop where
  id : row'.id = row.id
  owner : row'.owner = row.owner
  runtimeId : row'.runtimeId = row.runtimeId
  requestHash : row'.requestHash = row.requestHash
  command : row'.command = row.command

theorem SameRequest.refl (row : OperationRow) : SameRequest row row :=
  ⟨rfl, rfl, rfl, rfl, rfl⟩

theorem SameRequest.trans {a b c : OperationRow} (h : SameRequest a b)
    (h' : SameRequest b c) : SameRequest a c where
  id := h'.id.trans h.id
  owner := h'.owner.trans h.owner
  runtimeId := h'.runtimeId.trans h.runtimeId
  requestHash := h'.requestHash.trans h.requestHash
  command := h'.command.trans h.command

/-- What one call does to a stored row: nothing, or one move. -/
inductive RowStep (row : OperationRow) : OperationRow → Prop where
  | same : RowStep row row
  | moved {row' : OperationRow} (hRequest : SameRequest row row')
      (hMoves : Moves row.state row'.state) : RowStep row row'

theorem RowStep.sameRequest {row row' : OperationRow} (h : RowStep row row') :
    SameRequest row row' := by
  cases h with
  | same => exact .refl row
  | moved hRequest _ => exact hRequest

/-- An operation that is applied or failed never changes. -/
theorem RowStep.eq_of_settled {row row' : OperationRow} (h : RowStep row row')
    (hSettled : row.state ∉ activeStates) : row' = row := by
  cases h with
  | same => rfl
  | moved _ hMoves => exact absurd hMoves.active hSettled

theorem RowStep.active {row row' : OperationRow} (h : RowStep row row')
    (hActive : row'.state ∈ activeStates) : row.state ∈ activeStates := by
  cases h with
  | same => exact hActive
  | moved _ hMoves => exact hMoves.active

/-- What one call does to the table. -/
inductive OperationsStep (before : Operations) : Operations → Prop where
  | moved {after : Operations}
      (h : ∀ id, Option.Rel RowStep (before.find? id) (after.find? id)) :
      OperationsStep before after
  | accepted (row : OperationRow) (hFresh : before.find? row.id = none)
      (hState : row.state = .accepted)
      (hFree : ∀ other ∈ before.rows, other.runtimeId = row.runtimeId →
        other.state ∉ activeStates) :
      OperationsStep before (before.put row)

theorem OperationsStep.refl (before : Operations) :
    OperationsStep before before := by
  refine .moved fun id => ?_
  cases before.find? id with
  | none => exact .none
  | some row => exact .some .same

/-- An update is a step when it moves each row that it selects. -/
theorem step_update {before : Operations} {p : OperationRow → Bool}
    {f : OperationRow → OperationRow} (hf : ∀ row, (f row).id = row.id)
    (h : ∀ row ∈ before.rows, p row = true → RowStep row (f row)) :
    OperationsStep before (before.update p f hf) := by
  refine .moved fun id => ?_
  rw [Table.find?_update]
  cases hRow : before.find? id with
  | none => exact .none
  | some row =>
      refine .some ?_
      change RowStep row (if p row then f row else row)
      split
      · rename_i hSelected
        exact h row (Table.mem_of_find? hRow) hSelected
      · exact .same

/-- A single row is moved. -/
theorem step_updateOne {before : Operations} {row : OperationRow}
    {f : OperationRow → OperationRow} (hf : ∀ row, (f row).id = row.id)
    (hFound : before.find? row.id = some row) (h : RowStep row (f row)) :
    OperationsStep before
      (before.update (fun other => other.id = row.id) f hf) := by
  refine step_update hf ?_
  intro other hMem hId
  have hOther := Table.find?_of_mem hMem
  rw [of_decide_eq_true hId, hFound] at hOther
  rw [← Option.some.inj hOther]
  exact h

theorem step_reconnected (runtimeId : JsString) (before : Operations) :
    OperationsStep before (reconnected runtimeId before) := by
  refine .moved fun id => ?_
  unfold reconnected
  rw [Table.find?_update, Table.find?_update]
  cases before.find? id with
  | none => exact .none
  | some row =>
      refine .some ?_
      cases hState : row.state with
      | started =>
          by_cases hRuntime : row.runtimeId = runtimeId
          · subst hRuntime
            simp only [OperationRow.isIn, hState, and_self, decide_true,
              if_true, OperationRow.disconnected, reduceCtorEq,
              and_false, decide_false, Bool.false_eq_true, if_false]
            exact .moved ⟨rfl, rfl, rfl, rfl, rfl⟩ (hState ▸ .lose)
          · simp only [OperationRow.isIn, hRuntime, false_and, decide_false,
              Bool.false_eq_true, if_false]
            exact .same
      | accepted =>
          by_cases hRuntime : row.runtimeId = runtimeId
          · subst hRuntime
            simp only [OperationRow.isIn, hState, reduceCtorEq, and_false,
              decide_false, Bool.false_eq_true, if_false, and_self,
              decide_true, if_true]
            exact .moved ⟨rfl, rfl, rfl, rfl, rfl⟩ (hState ▸ .refuse)
          · simp only [OperationRow.isIn, hRuntime, false_and, decide_false,
              Bool.false_eq_true, if_false]
            exact .same
      | _ =>
          simp only [OperationRow.isIn, hState, reduceCtorEq, and_false,
            decide_false, Bool.false_eq_true, if_false]
          exact .same

/-! ## Every call is a step -/

theorem step_of_accepted {owner : Owner}
    {runtimeId id requestHash : JsString} {command : CentralCommand}
    {db db' : Db} {answer : CentralOperation}
    (h : Accepted owner runtimeId id requestHash command db answer db') :
    OperationsStep db.operations db'.operations := by
  obtain ⟨revision, now, -, hOperations⟩ := h.row
  rw [hOperations]
  refine .accepted _ h.fresh rfl ?_
  intro other hMem hRuntime hActive
  have hIn : other ∈ inStates db runtimeId activeStates :=
    mem_inStates.mpr ⟨hMem, hRuntime, hActive⟩
  rw [h.free] at hIn
  cases hIn

theorem step_of_claimed {db db' : Db} {answer : Option CentralOperation}
    (h : Claimed db answer db') :
    OperationsStep db.operations db'.operations := by
  cases h with
  | idle hSame =>
      rw [hSame.operations]
      exact .refl db.operations
  | expired row hFound hState hSame =>
      rw [hSame.operations]
      exact step_updateOne OperationRow.expired_id hFound
        (.moved ⟨rfl, rfl, rfl, rfl, rfl⟩ (hState ▸ .refuse))
  | started row hFound hState hSame =>
      rw [hSame.operations]
      exact step_updateOne OperationRow.start_id hFound
        (.moved ⟨rfl, rfl, rfl, rfl, rfl⟩ (hState ▸ .start))

theorem moves_settled {row : OperationRow} {result : JsonValue}
    {error : Option JsString} {revision : Nat}
    (hState : row.state = .started ∨ row.state = .unknown) :
    Moves row.state (row.settled result error revision).state := by
  simp only [OperationRow.settled]
  rcases hState with hState | hState <;> rw [hState] <;> split
  · exact .apply
  · exact .fail
  · exact .reconcile
  · exact .giveUp

theorem step_of_completed {found : RuntimeRow} {revision : Nat}
    {completion : Option Completion} {db db' : Db}
    (h : Completed found revision db completion db') :
    OperationsStep db.operations db'.operations := by
  cases h with
  | none hSame =>
      rw [hSame.operations]
      exact .refl db.operations
  | settled completion result row hFound _ hState hSame =>
      rw [hSame.operations]
      exact step_updateOne
        (OperationRow.settled_id result completion.error revision) hFound
        (.moved ⟨rfl, rfl, rfl, rfl, rfl⟩ (moves_settled hState))

theorem step_of_published {runtime : PartsRuntime} {actor : WorkspaceActor}
    {found : RuntimeRow} {id hash requestHash : JsString}
    {changes : List (JsString × Option JsString)}
    {completion : Option Completion} {db changed db' : Db}
    {answer : PublishAnswer}
    (h : Published runtime actor found id changes hash requestHash completion
      db answer changed db') :
    OperationsStep db.operations db'.operations := by
  obtain ⟨after, hCommitted, hSame⟩ := h.committed
  obtain ⟨before, completed, hBefore, hCompleted, hAfter⟩ :=
    hCommitted.operations
  have hChanged := congrArg Db.operations (parts_of_returns_changes h.applied)
  rw [hSame.operations, hAfter, ← show changed.operations = db.operations
    from hChanged, ← hBefore]
  exact step_of_completed hCompleted

theorem step_of_effect {runtime : PartsRuntime} {db db' : Db}
    (h : Effect runtime db db') :
    OperationsStep db.operations db'.operations := by
  cases h with
  | begun _ _ actor h =>
      rw [h.operations]
      exact step_reconnected actor.id db.operations
  | beaten _ _ h =>
      rw [h.operations]
      exact .refl db.operations
  | staged _ _ _ h =>
      rw [h.operations]
      exact .refl db.operations
  | same h =>
      rw [h.operations]
      exact .refl db.operations
  | accepted h => exact step_of_accepted h
  | claimed h => exact step_of_claimed h
  | published _ _ h => exact step_of_published h

/-- Every turn is a step, whether the call returned or threw. -/
theorem operations_turn (runtime : WorkspaceRuntime) (turn : Turn) (db : Db) :
    OperationsStep db.operations (workspace runtime turn db).2.operations :=
  turn_effect (R := fun db db' => OperationsStep db.operations db'.operations)
    (fun _ _ => step_of_effect) turn db

/-! ## One active operation per runtime -/

/-- No two active operations of one runtime. -/
def SingleActive (operations : Operations) : Prop :=
  ∀ row ∈ operations.rows, ∀ other ∈ operations.rows,
    row.runtimeId = other.runtimeId → row.state ∈ activeStates →
      other.state ∈ activeStates → row = other

/-- The row that a moved row was. -/
theorem exists_before {before after : Operations}
    (h : ∀ id, Option.Rel RowStep (before.find? id) (after.find? id))
    {row' : OperationRow} (hMem : row' ∈ after.rows) :
    ∃ row ∈ before.rows, before.find? row'.id = some row ∧
      RowStep row row' := by
  have hRel := h row'.id
  rw [Table.find?_of_mem hMem] at hRel
  cases hRow : before.find? row'.id with
  | none =>
      rw [hRow] at hRel
      cases hRel
  | some row =>
      rw [hRow] at hRel
      cases hRel with
      | some hStep => exact ⟨row, Table.mem_of_find? hRow, rfl, hStep⟩

theorem SingleActive.step {before after : Operations}
    (hSingle : SingleActive before) (h : OperationsStep before after) :
    SingleActive after := by
  cases h with
  | moved h =>
      intro row' hRow' other' hOther' hRuntime hActive hActive'
      obtain ⟨row, hRow, hFound, hStep⟩ := exists_before h hRow'
      obtain ⟨other, hOther, hFound', hStep'⟩ := exists_before h hOther'
      have hEq : row = other := hSingle row hRow other hOther
        (by rw [← hStep.sameRequest.runtimeId, hRuntime,
          hStep'.sameRequest.runtimeId])
        (hStep.active hActive) (hStep'.active hActive')
      have hId : row'.id = other'.id := by
        rw [hStep.sameRequest.id, hEq, hStep'.sameRequest.id]
      have hSame := Table.find?_of_mem hRow'
      rw [hId, Table.find?_of_mem hOther'] at hSame
      exact (Option.some.inj hSame).symm
  | accepted new hFresh hState hFree =>
      intro row hRow other hOther hRuntime hActive hActive'
      rcases Table.mem_of_mem_put hRow with rfl | hOld <;>
        rcases Table.mem_of_mem_put hOther with rfl | hOld'
      · rfl
      · exact absurd hActive' (hFree other hOld' hRuntime.symm)
      · exact absurd hActive (hFree row hOld hRuntime)
      · exact hSingle row hOld other hOld' hRuntime hActive hActive'

/-- **At most one active operation per runtime, in every run.** -/
theorem singleActive_run (runtime : WorkspaceRuntime) (turns : List Turn) :
    SingleActive (run (workspace runtime) turns {}).operations := by
  refine @run_invariant runtime (fun db => SingleActive db.operations) ?_ ?_
    turns
  · intro row hRow
    cases hRow
  · intro db db' hEffect hSingle
    exact hSingle.step (step_of_effect hEffect)

/-! ## The rows of a run -/

/-- A stored row stays, and moves by at most one move. -/
theorem OperationsStep.stored {before after : Operations}
    (h : OperationsStep before after) {id : JsString} {row : OperationRow}
    (hRow : before.find? id = some row) :
    ∃ row', after.find? id = some row' ∧ RowStep row row' := by
  cases h with
  | moved h =>
      have hRel := h id
      rw [hRow] at hRel
      cases hAfter : after.find? id with
      | none =>
          rw [hAfter] at hRel
          cases hRel
      | some row' =>
          rw [hAfter] at hRel
          cases hRel with
          | some hStep => exact ⟨row', rfl, hStep⟩
  | accepted new hFresh _ _ =>
      refine ⟨row, ?_, .same⟩
      rw [Table.find?_put_ne, hRow]
      rintro rfl
      rw [hFresh] at hRow
      cases hRow

/-- A row that was not stored before is accepted. -/
theorem OperationsStep.fresh {before after : Operations}
    (h : OperationsStep before after) {id : JsString} {row' : OperationRow}
    (hRow : before.find? id = none) (hRow' : after.find? id = some row') :
    row'.state = .accepted := by
  cases h with
  | moved h =>
      have hRel := h id
      rw [hRow, hRow'] at hRel
      cases hRel
  | accepted new _ hState _ =>
      rw [Table.find?_put] at hRow'
      split at hRow'
      · rw [← Option.some.inj hRow']
        exact hState
      · rw [hRow] at hRow'
        cases hRow'

/-- A stored row after any further turns. -/
theorem stored_run (runtime : WorkspaceRuntime) (turns : List Turn)
    {db : Db} {id : JsString} {row : OperationRow}
    (hRow : db.operations.find? id = some row) :
    ∃ row', (run (workspace runtime) turns db).operations.find? id =
        some row' ∧ Relation.ReflTransGen RowStep row row' := by
  induction turns generalizing db row with
  | nil => exact ⟨row, hRow, .refl⟩
  | cons turn turns ih =>
      obtain ⟨row₁, hRow₁, hStep⟩ :=
        (operations_turn runtime turn db).stored hRow
      obtain ⟨row', hRow', hSteps⟩ := ih hRow₁
      exact ⟨row', hRow', .head hStep hSteps⟩

theorem sameRequest_of_steps {row row' : OperationRow}
    (h : Relation.ReflTransGen RowStep row row') : SameRequest row row' := by
  induction h with
  | refl => exact .refl row
  | tail _ hStep ih => exact ih.trans hStep.sameRequest

/-! ## Claiming once -/

/-- The operation that an answer hands to its desktop. -/
def claimedId : Except WorkspaceError Answer → Option JsString
  | .ok (.claimed (some started)) => some started.id
  | _ => none

def claimedIds (results : List (Except WorkspaceError Answer)) :
    List JsString :=
  results.filterMap claimedId

/-- Nothing but an accepted operation stands under the id. -/
def Unclaimed (operations : Operations) (id : JsString) : Prop :=
  ∀ row, operations.find? id = some row → row.state = .accepted

/-- What was claimed never becomes claimable again. -/
theorem OperationsStep.unclaimed {before after : Operations}
    (h : OperationsStep before after) {id : JsString}
    (hAfter : Unclaimed after id) : Unclaimed before id := by
  intro row hRow
  obtain ⟨row', hRow', hStep⟩ := h.stored hRow
  have hState := hAfter row' hRow'
  cases hStep with
  | same => exact hState
  | moved _ hMoves => exact absurd hState hMoves.ne_accepted

/-- A claim takes an accepted operation and leaves it started. -/
theorem claimed_turn {runtime : WorkspaceRuntime} {turn : Turn} {db : Db}
    {id : JsString}
    (h : claimedId (workspace runtime turn db).1 = some id) :
    Unclaimed db.operations id ∧
      ¬Unclaimed (workspace runtime turn db).2.operations id := by
  rcases outcome runtime turn db with ⟨answer, db', hReturns, hRun⟩ |
    ⟨e, hRun⟩
  · rw [hRun] at h ⊢
    unfold perform at hReturns
    cases hCall : turn.call with
    | claim actor lease =>
        rw [hCall] at hReturns
        obtain ⟨claimed, hClaim, rfl⟩ := returns_answering.mp hReturns
        cases returns_claim hClaim with
        | idle => cases h
        | expired => cases h
        | started row hFound hState hSame =>
            obtain rfl : row.id = id := Option.some.inj h
            constructor
            · intro row' hRow'
              rw [hFound] at hRow'
              rw [← Option.some.inj hRow']
              exact hState
            · intro hUnclaimed
              have hStarted := hUnclaimed row.start (by
                rw [hSame.operations, Table.find?_update, hFound]
                simp)
              cases hStarted
    | _ =>
        rw [hCall] at hReturns
        obtain ⟨_, -, rfl⟩ := returns_answering.mp hReturns
        cases h
  · rw [hRun] at h
    cases h

theorem unclaimed_of_mem {runtime : WorkspaceRuntime} {turns : List Turn}
    {db : Db} {id : JsString}
    (h : id ∈ claimedIds (answers (workspace runtime) turns db)) :
    Unclaimed db.operations id := by
  induction turns generalizing db with
  | nil => cases h
  | cons turn turns ih =>
      obtain ⟨result, hResult, hId⟩ := List.mem_filterMap.mp h
      rcases List.mem_cons.mp hResult with rfl | hRest
      · exact (claimed_turn hId).1
      · exact (operations_turn runtime turn db).unclaimed
          (ih (List.mem_filterMap.mpr ⟨result, hRest, hId⟩))

/-- **Each operation is handed out at most once, in every run.** -/
theorem nodup_claimedIds (runtime : WorkspaceRuntime) (turns : List Turn)
    (db : Db) :
    (claimedIds (answers (workspace runtime) turns db)).Nodup := by
  induction turns generalizing db with
  | nil => exact List.nodup_nil
  | cons turn turns ih =>
      change (List.filterMap claimedId ((workspace runtime turn db).1 ::
        answers (workspace runtime) turns
          (workspace runtime turn db).2)).Nodup
      cases hId : claimedId (workspace runtime turn db).1 with
      | none =>
          rw [List.filterMap_cons_none hId]
          exact ih _
      | some id =>
          rw [List.filterMap_cons_some hId]
          refine List.nodup_cons.mpr ⟨?_, ih _⟩
          exact fun hMem => (claimed_turn hId).2 (unclaimed_of_mem hMem)

end OpenApe.Ports.WorkspaceOperations
