import OpenApe.Ports.InboxStore
import OpenApe.Verified.Machine
import Mathlib.Logic.Relation

/-!
# Runs of the inbox store

The calls of `InboxStore` as the turns of a machine.  `Change` lists every
single change that a call makes to the database, with the condition it makes
it under; a returned call is a sequence of them (`steps_of_returns`), and one
that throws changes nothing (`atomic_perform`).  Only `retain` purges.
-/

namespace OpenApe.Ports.InboxRuns

open Verified.JsText Verified.KeyedTable Verified.Machine Verified.Transactions
  Verified.Transactions.Action
open InboxStore
open WorkspaceStore (Owner ownerKey)

/-! ## The machine -/

inductive InboxCall where
  | publish (owner : Owner) (runtimeId : JsString)
      (publication : InboxPublication)
  | syncDecisions (owner : Owner) (runtimeId : JsString)
      (decisions : List InboxDecision)
  | mark (owner : Owner) (itemId : JsString) (change : MarkChange)
  | retain
  | claimOutbox (limit : Nat) (messagesOnly : Bool)
  | decisionPushBatches (limit : Nat)
  | settleOutbox (entryIds : List JsString) (outcome : PushOutcome)

/-- A call with its readings of the clock and the ids it draws. -/
structure Turn where
  call : InboxCall
  now : Clock
  ids : Draws

inductive Answer where
  | published (receipt : Receipt)
  | synced (counts : SyncCounts)
  | marked (item : Option InboxItem)
  | retained (counts : RetainCounts)
  | claimed (entries : List OutboxEntry)
  | batches (entries : List (List OutboxEntry))
  | settled

/-- A call with its result read as an answer. -/
def answering {α : Type} (f : α → Answer) (call : Call α) : Call Answer :=
  call >>= fun a => pure (f a)

def perform (runtime : InboxRuntime) (turn : Turn) : Call Answer :=
  match turn.call with
  | .publish owner runtimeId publication =>
      answering .published
        (publish runtime turn.now turn.ids owner runtimeId publication)
  | .syncDecisions owner runtimeId decisions =>
      answering .synced
        (syncDecisions runtime turn.now turn.ids owner runtimeId decisions)
  | .mark owner itemId change =>
      answering .marked (mark turn.now owner itemId change)
  | .retain => answering .retained (retain turn.now)
  | .claimOutbox limit messagesOnly =>
      query fun db => .ok (.claimed (claimOutbox db turn.now limit messagesOnly))
  | .decisionPushBatches limit =>
      query fun db => .ok (.batches (decisionPushBatches db turn.now limit))
  | .settleOutbox entryIds outcome =>
      answering (fun _ => .settled) (settleOutbox turn.now entryIds outcome)

/-- The store as a machine: a turn is one call. -/
def inbox (runtime : InboxRuntime) :
    Machine Db Turn (Except InboxError Answer) :=
  fun turn db => perform runtime turn db

theorem returns_answering {α : Type} {f : α → Answer} {call : Call α}
    {db db' : Db} {answer : Answer} :
    Returns (answering f call) db answer db' ↔
      ∃ a, Returns call db a db' ∧ answer = f a := by
  simp [answering]

/-! ## Atomicity -/

theorem atomic_answering {α : Type} {f : α → Answer} {call : Call α}
    (h : Atomic call) : Atomic (answering f call) := h.map f

/-- **A call that throws leaves the database as it was.** -/
theorem atomic_perform (runtime : InboxRuntime) (turn : Turn) :
    Atomic (perform runtime turn) := by
  unfold perform
  cases turn.call with
  | publish owner runtimeId publication =>
      exact atomic_answering (atomic_transaction _)
  | syncDecisions owner runtimeId decisions =>
      exact atomic_answering (atomic_transaction _)
  | mark owner itemId change => exact atomic_answering (atomic_transaction _)
  | retain => exact atomic_answering (atomic_transaction _)
  | claimOutbox limit messagesOnly =>
      intro db e db' hThrow
      exact (Prod.mk.inj hThrow).2.symm
  | decisionPushBatches limit =>
      intro db e db' hThrow
      exact (Prod.mk.inj hThrow).2.symm
  | settleOutbox entryIds outcome =>
      exact atomic_answering (atomic_transaction _)

theorem outcome (runtime : InboxRuntime) (turn : Turn) (db : Db) :
    (∃ answer db', Returns (perform runtime turn) db answer db' ∧
      inbox runtime turn db = (.ok answer, db')) ∨
      ∃ e, inbox runtime turn db = (.error e, db) :=
  (atomic_perform runtime turn).outcome db

/-! ## Single changes -/

/-- The database with one item changed, under a new sequence. -/
def Db.changeItem (db : Db) (id : JsString) (f : ItemRow → ItemRow)
    (hf : ∀ row, (f row).id = row.id)
    (hEvent : ∀ row, (f row).event = row.event) : Db :=
  { db with
    sequence := db.sequence + 1
    items := db.items.update (fun row => row.id = id) f hf hEvent }

theorem mem_changeItem {db : Db} {id : JsString} {f : ItemRow → ItemRow}
    {hf : ∀ row, (f row).id = row.id}
    {hEvent : ∀ row, (f row).event = row.event} {row : ItemRow} :
    row ∈ (Db.changeItem db id f hf hEvent).items.rows ↔
      ∃ old ∈ db.items.rows, (if old.id = id then f old else old) = row := by
  refine List.mem_map.trans (exists_congr fun old => ?_)
  simp only [decide_eq_true_eq]

/-- The calls that add items. -/
def InboxCall.Adds : InboxCall → Prop
  | .publish .. | .syncDecisions .. => True
  | _ => False

/-- The calls that make items tombstones. -/
def InboxCall.Deletes : InboxCall → Prop
  | .mark _ _ change => change.deleted = true
  | .retain => True
  | _ => False

/-- The entries of the outbox that a call settles. -/
def InboxCall.settles : InboxCall → List JsString
  | .settleOutbox entryIds _ => entryIds
  | _ => []

/-- The single changes of a call. -/
inductive Change (quota : Nat) (call : InboxCall) (db : Db) : Db → Prop where
  /-- A new item, with the entry of its push. -/
  | added (row : ItemRow) (entry : OutboxRow) (items : Items)
      (hAdds : call.Adds) (hRoom : keptCount db row.owner < quota)
      (hInsert : db.items.insert? row = some items)
      (hEntry : db.outbox.find? entry.id = none)
      (hSequence : row.sequence = db.sequence + 1)
      (hState : row.state = .opened) (hKept : row.deleted = none)
      (hItem : entry.itemId = row.id) (hPending : entry.state = .pending) :
      Change quota call db {
        sequence := db.sequence + 1
        items := items
        outbox := db.outbox.put entry }
  /-- A stored decision that has changed. -/
  | decided (id : JsString) (decision : InboxDecision)
      (runtimeId : JsString) :
      Change quota call db (Db.changeItem db id
        (ItemRow.decided decision runtimeId (db.sequence + 1))
        (ItemRow.decided_id decision runtimeId (db.sequence + 1))
        (ItemRow.decided_event decision runtimeId (db.sequence + 1)))
  /-- A decision that has vanished. -/
  | resolved (id : JsString) :
      Change quota call db { Db.changeItem db id
          (ItemRow.resolve (db.sequence + 1))
          (ItemRow.resolve_id (db.sequence + 1))
          (ItemRow.resolve_event (db.sequence + 1)) with
        outbox := db.outbox.keep fun entry =>
          !(decide (entry.itemId = id) && decide (entry.state = .pending)) }
  /-- An item that becomes a tombstone. -/
  | deleted (id : JsString) (moment : Time) (hDeletes : call.Deletes) :
      Change quota call db (Db.changeItem db id
        (ItemRow.tombstone moment (db.sequence + 1))
        (ItemRow.tombstone_id moment (db.sequence + 1))
        (ItemRow.tombstone_event moment (db.sequence + 1)))
  /-- An item that is read or archived. -/
  | flagged (id : JsString) (moment : Time) (change : MarkChange) :
      Change quota call db (Db.changeItem db id
        (ItemRow.flagged moment change (db.sequence + 1))
        (ItemRow.flagged_id moment change (db.sequence + 1))
        (ItemRow.flagged_event moment change (db.sequence + 1)))
  /-- Entries of the outbox that are dropped. -/
  | dropped (p : OutboxRow → Bool) :
      Change quota call db { db with outbox := db.outbox.keep p }
  /-- Tombstones that are purged, once no entry is about a deleted item. -/
  | purged (p : ItemRow → Bool) (hRetain : call = .retain)
      (hDeleted : ∀ row ∈ db.items.rows, p row = false → row.deleted.isSome)
      (hFree : ∀ entry ∈ db.outbox.rows, ∀ row ∈ db.items.rows,
        row.id = entry.itemId → row.deleted = none) :
      Change quota call db { db with items := db.items.keep p }
  /-- An entry that a dispatcher settles. -/
  | settled (outcome : PushOutcome) (now : Time) (entryId : JsString)
      (hSettles : entryId ∈ call.settles) :
      Change quota call db { db with
        outbox := db.outbox.update (fun row => row.id = entryId)
          (OutboxRow.settled outcome now) (OutboxRow.settled_id outcome now) }

abbrev Steps (quota : Nat) (call : InboxCall) : Db → Db → Prop :=
  Relation.ReflTransGen (Change quota call)

/-! ## What the parts of a call do -/

theorem returns_nextSequence_bind {α : Type} {f : Nat → Call α} {db db' : Db}
    {a : α} :
    Returns (nextSequence >>= f) db a db' ↔
      Returns (f (db.sequence + 1)) { db with sequence := db.sequence + 1 } a
        db' := by
  rw [returns_bind]
  constructor
  · rintro ⟨n, s, hNext, hRest⟩
    rw [nextSequence, returns_write_bind, returns_query] at hNext
    obtain ⟨hValue, rfl⟩ := hNext
    obtain rfl := Except.ok.inj hValue
    exact hRest
  · intro hRest
    refine ⟨_, _, ?_, hRest⟩
    rw [nextSequence, returns_write_bind, returns_query]
    exact ⟨rfl, rfl⟩

theorem returns_insertItem_bind {α : Type} {row : ItemRow} {f : Unit → Call α}
    {db db' : Db} {a : α} :
    Returns (insertItem row >>= f) db a db' ↔
      ∃ items, db.items.insert? row = some items ∧
        Returns (f ()) { db with items := items } a db' := by
  rw [returns_bind]
  simp only [insertItem, returns_query_bind, returns_write]
  constructor
  · rintro ⟨_, s, ⟨items, hItems, rfl⟩, hRest⟩
    cases hInsert : db.items.insert? row with
    | none =>
        rw [hInsert] at hItems
        cases hItems
    | some inserted =>
        rw [hInsert] at hItems
        obtain rfl := Except.ok.inj hItems
        exact ⟨inserted, rfl, hRest⟩
  · rintro ⟨items, hInsert, hRest⟩
    exact ⟨(), _, ⟨items, by rw [hInsert], rfl⟩, hRest⟩

theorem returns_insertOutbox_bind {α : Type} {row : OutboxRow}
    {f : Unit → Call α} {db db' : Db} {a : α} :
    Returns (insertOutbox row >>= f) db a db' ↔
      db.outbox.find? row.id = none ∧
        Returns (f ()) { db with outbox := db.outbox.put row } a db' := by
  rw [returns_bind]
  simp only [insertOutbox, returns_query_bind, returns_write]
  constructor
  · rintro ⟨_, s, ⟨_, hFree, rfl⟩, hRest⟩
    split_ifs at hFree with hTaken
    rw [Bool.not_eq_true, Option.isSome_eq_false_iff,
      Option.isNone_iff_eq_none] at hTaken
    exact ⟨hTaken, hRest⟩
  · rintro ⟨hFree, hRest⟩
    exact ⟨(), _, ⟨(), by rw [hFree]; rfl, rfl⟩, hRest⟩

theorem isFull_eq_false {runtime : InboxRuntime} {db : Db}
    {owner : JsString} (h : isFull runtime db owner = false) :
    keptCount db owner < runtime.itemsPerOwner :=
  Nat.lt_of_not_le (of_decide_eq_false h)

theorem throwIf_eq_ok {condition : Bool} {code : String} {status : Nat}
    {u : Unit} :
    InboxStore.throwIf condition code status = .ok u ↔ condition = false := by
  unfold InboxStore.throwIf
  cases condition <;> simp

section Calls

variable {runtime : InboxRuntime} {now : Clock} {ids : Draws} {db db' : Db}
  {call : InboxCall}

theorem steps_publish {owner : Owner} {runtimeId : JsString}
    {publication : InboxPublication} {receipt : Receipt} (hAdds : call.Adds)
    (h : Returns (publish runtime now ids owner runtimeId publication) db
      receipt db') : Steps runtime.itemsPerOwner call db db' := by
  rw [publish, returns_transaction, returns_query_bind] at h
  obtain ⟨existing, -, h⟩ := h
  cases existing with
  | some existing =>
      rw [publishUnless, returns_check_bind] at h
      obtain ⟨_, -, h⟩ := h
      rw [(returns_pure.mp h).2]
  | none =>
      rw [publishUnless, publishNew, returns_query_bind] at h
      obtain ⟨_, hRoom, h⟩ := h
      rw [returns_nextSequence_bind, returns_insertItem_bind] at h
      obtain ⟨items, hInsert, h⟩ := h
      rw [returns_insertOutbox_bind] at h
      obtain ⟨hEntry, h⟩ := h
      rw [(returns_pure.mp h).2]
      exact .single (.added _ _ items hAdds
        (isFull_eq_false (throwIf_eq_ok.mp hRoom)) hInsert hEntry rfl rfl rfl
        rfl rfl)

theorem steps_syncDecision {owner runtimeId : JsString}
    {decision : InboxDecision} {counts counts' : SyncCounts}
    (hAdds : call.Adds)
    (h : Returns (syncDecision runtime now ids owner runtimeId decision counts)
      db counts' db') : Steps runtime.itemsPerOwner call db db' := by
  rw [syncDecision, returns_query_bind] at h
  obtain ⟨existing, hExisting, h⟩ := h
  obtain rfl := Except.ok.inj hExisting
  cases hStored : storedDecision db owner runtimeId decision.sourceId with
  | some existing =>
      rw [hStored] at h
      dsimp only at h
      unfold updateDecision at h
      split_ifs at h with hSame
      · rw [(returns_pure.mp h).2]
      · rw [returns_nextSequence_bind, updateItem, returns_write_bind] at h
        rw [(returns_pure.mp h).2]
        exact .single (.decided existing.id decision runtimeId)
  | none =>
      rw [hStored] at h
      dsimp only at h
      rw [returns_query_bind] at h
      obtain ⟨full, hFull, h⟩ := h
      obtain rfl := Except.ok.inj hFull
      unfold createDecision at h
      split_ifs at h with hRoom
      · rw [(returns_pure.mp h).2]
      · rw [returns_nextSequence_bind, returns_insertItem_bind] at h
        obtain ⟨items, hInsert, h⟩ := h
        rw [returns_insertOutbox_bind] at h
        obtain ⟨hEntry, h⟩ := h
        rw [(returns_pure.mp h).2]
        exact .single (.added _ _ items hAdds
          (isFull_eq_false (Bool.not_eq_true _ ▸ hRoom)) hInsert hEntry rfl rfl
          rfl rfl rfl)

theorem steps_syncLoop {owner runtimeId : JsString}
    {decisions : List InboxDecision} {counts counts' : SyncCounts}
    (hAdds : call.Adds)
    (h : Returns (syncLoop runtime owner runtimeId now ids decisions counts) db
      counts' db') : Steps runtime.itemsPerOwner call db db' := by
  induction decisions generalizing now ids db counts with
  | nil => rw [(returns_pure.mp h).2]
  | cons decision decisions ih =>
      obtain ⟨counts₁, db₁, hFirst, hRest⟩ := returns_bind.mp h
      exact (steps_syncDecision hAdds hFirst).trans (ih hRest)

theorem steps_resolveDecision {row : ItemRow} {u : Unit}
    (h : Returns (resolveDecision row) db u db') :
    Steps runtime.itemsPerOwner call db db' := by
  rw [resolveDecision, returns_nextSequence_bind, updateItem,
    returns_write_bind] at h
  rw [returns_write.mp h]
  exact .single (.resolved row.id)

theorem steps_deleteItem {moment : Time} {itemId : JsString} {u : Unit}
    (hDeletes : call.Deletes)
    (h : Returns (deleteItem moment itemId) db u db') :
    Steps runtime.itemsPerOwner call db db' := by
  rw [deleteItem, returns_nextSequence_bind] at h
  rw [returns_write.mp h]
  exact .single (.deleted itemId moment hDeletes)

/-- A loop takes the steps of its turns. -/
theorem steps_each {α : Type} {items : List α} {f : α → Call Unit} {u : Unit}
    (h : Returns (each items f) db u db')
    (hTurn : ∀ item ∈ items, ∀ db db', Returns (f item) db () db' →
      Steps runtime.itemsPerOwner call db db') :
    Steps runtime.itemsPerOwner call db db' :=
  returns_each (Steps runtime.itemsPerOwner call db) h .refl
    fun item hMem _ _ hBefore hOne => hBefore.trans (hTurn item hMem _ _ hOne)

theorem steps_syncDecisions {owner : Owner} {runtimeId : JsString}
    {decisions : List InboxDecision} {counts : SyncCounts}
    (hAdds : call.Adds)
    (h : Returns (syncDecisions runtime now ids owner runtimeId decisions) db
      counts db') : Steps runtime.itemsPerOwner call db db' := by
  rw [syncDecisions, returns_transaction] at h
  obtain ⟨counts₁, db₁, hLoop, h⟩ := returns_bind.mp h
  rw [returns_query_bind] at h
  obtain ⟨rows, -, h⟩ := h
  obtain ⟨_, db₂, hResolve, h⟩ := returns_bind.mp h
  rw [(returns_pure.mp h).2]
  exact (steps_syncLoop hAdds hLoop).trans
    (steps_each hResolve fun _ _ _ _ => steps_resolveDecision)

theorem steps_markItem {moment : Time} {owner : Owner} {itemId : JsString}
    {change : MarkChange} {answer : Option InboxItem}
    (hDeletes : change.deleted = true → call.Deletes)
    (h : Returns (markItem moment owner itemId change) db answer db') :
    Steps runtime.itemsPerOwner call db db' := by
  unfold markItem at h
  split_ifs at h with hDeleted
  · obtain ⟨_, db₁, hDelete, h⟩ := returns_bind.mp h
    rw [dropPending, returns_write_bind] at h
    rw [(returns_pure.mp h).2]
    exact (steps_deleteItem (hDeletes hDeleted) hDelete).tail (.dropped _)
  · obtain ⟨_, db₁, hFlag, h⟩ := returns_bind.mp h
    rw [returns_query_bind] at h
    obtain ⟨_, -, h⟩ := h
    rw [(returns_pure.mp h).2]
    unfold flagItem at hFlag
    split_ifs at hFlag
    · rw [(returns_pure.mp hFlag).2]
    · rw [returns_nextSequence_bind] at hFlag
      rw [returns_write.mp hFlag]
      exact .single (.flagged itemId moment change)

theorem steps_settleOutbox {entryIds : List JsString}
    {outcome : PushOutcome} {u : Unit}
    (h : Returns (settleOutbox now entryIds outcome) db u db') :
    Steps runtime.itemsPerOwner (.settleOutbox entryIds outcome) db db' := by
  rw [settleOutbox, returns_transaction] at h
  refine steps_each h fun entry hEntry _ _ hOne => ?_
  rw [returns_write.mp hOne]
  exact .single (.settled outcome (now entry.2) entry.1
    (List.fst_mem_of_mem_zipIdx hEntry))

/-- After the entries of deleted items are dropped, no entry is about one. -/
theorem outbox_of_dropOutbox {cutoff : Int} {u : Unit}
    (h : Returns (dropOutbox cutoff) db u db') {entry : OutboxRow}
    (hEntry : entry ∈ db'.outbox.rows) {row : ItemRow}
    (hRow : row ∈ db'.items.rows) (hItem : row.id = entry.itemId) :
    row.deleted = none := by
  rw [returns_write.mp h] at hEntry hRow
  have hKept := (List.mem_filter.mp hEntry).2
  rw [← hItem, Table.find?_of_mem (t := db.items.toTable) hRow] at hKept
  simp only [Option.any_some, Bool.not_eq_true', Bool.or_eq_false_iff,
    Option.isSome_eq_false_iff, Option.isNone_iff_eq_none] at hKept
  exact hKept.2

theorem steps_retain {counts : RetainCounts}
    (h : Returns (retain now) db counts db') :
    Steps runtime.itemsPerOwner .retain db db' := by
  rw [retain, returns_transaction, returns_query_bind] at h
  obtain ⟨rows, -, h⟩ := h
  obtain ⟨_, db₁, hDelete, h⟩ := returns_bind.mp h
  obtain ⟨_, db₂, hDrop, h⟩ := returns_bind.mp h
  rw [returns_query_bind] at h
  obtain ⟨purged, -, h⟩ := h
  rw [purge, returns_write_bind] at h
  rw [(returns_pure.mp h).2]
  have hDeletes : InboxCall.Deletes .retain := trivial
  refine ((steps_each hDelete fun _ _ _ _ => steps_deleteItem hDeletes).tail
    (?_ : Change _ _ db₁ db₂)).tail (.purged _ rfl ?_ ?_)
  · rw [returns_write.mp hDrop]
    exact .dropped _
  · intro row _ hPurged
    rw [Bool.not_eq_false', isPurged, Bool.and_eq_true,
      Option.any_eq_true] at hPurged
    obtain ⟨⟨deleted, hDeleted, -⟩, -⟩ := hPurged
    exact Option.isSome_iff_exists.mpr ⟨deleted, hDeleted⟩
  · intro entry hEntry row hRow hItem
    exact outbox_of_dropOutbox hDrop hEntry hRow hItem

theorem steps_of_returns {turn : Turn} {answer : Answer}
    (h : Returns (perform runtime turn) db answer db') :
    Steps runtime.itemsPerOwner turn.call db db' := by
  unfold perform at h
  cases hCall : turn.call with
  | «publish» owner runtimeId publication =>
      rw [hCall] at h
      obtain ⟨_, hPublish, -⟩ := returns_answering.mp h
      exact steps_publish trivial hPublish
  | syncDecisions owner runtimeId decisions =>
      rw [hCall] at h
      obtain ⟨_, hSync, -⟩ := returns_answering.mp h
      exact steps_syncDecisions trivial hSync
  | mark owner itemId change =>
      rw [hCall] at h
      obtain ⟨_, hMark, -⟩ := returns_answering.mp h
      rw [mark, returns_transaction, returns_query_bind] at hMark
      obtain ⟨_, -, hMark⟩ := hMark
      exact steps_markItem id hMark
  | retain =>
      rw [hCall] at h
      obtain ⟨_, hRetain, -⟩ := returns_answering.mp h
      exact steps_retain hRetain
  | claimOutbox limit messagesOnly =>
      rw [hCall] at h
      rw [(returns_query.mp h).2]
  | decisionPushBatches limit =>
      rw [hCall] at h
      rw [(returns_query.mp h).2]
  | settleOutbox entryIds outcome =>
      rw [hCall] at h
      obtain ⟨_, hSettle, -⟩ := returns_answering.mp h
      exact steps_settleOutbox hSettle

/-- Every turn takes steps, whether the call returned or threw. -/
theorem steps_turn (turn : Turn) (db : Db) :
    Steps runtime.itemsPerOwner turn.call db
      (inbox runtime turn db).2 := by
  rcases outcome runtime turn db with ⟨answer, db', hReturns, hRun⟩ |
    ⟨e, hRun⟩
  · rw [hRun]
    exact steps_of_returns hReturns
  · rw [hRun]

end Calls

/-- What every single change keeps, every turn keeps. -/
theorem turn_invariant {runtime : InboxRuntime} {inv : Db → Prop}
    (hChange : ∀ call db db', Change runtime.itemsPerOwner call db db' →
      inv db → inv db') (turn : Turn) {db : Db} (h : inv db) :
    inv (inbox runtime turn db).2 := by
  have hSteps := @steps_turn runtime turn db
  generalize (inbox runtime turn db).2 = db' at hSteps ⊢
  induction hSteps with
  | refl => exact h
  | tail _ hOne ih => exact hChange _ _ _ hOne ih

/-- What every single change keeps holds in every store of a run. -/
theorem run_invariant {runtime : InboxRuntime} {inv : Db → Prop}
    (hStart : inv {})
    (hChange : ∀ call db db', Change runtime.itemsPerOwner call db db' →
      inv db → inv db') (turns : List Turn) :
    inv (run (inbox runtime) turns {}) := by
  have hReached : Reached (inbox runtime) anyTurn {}
      (run (inbox runtime) turns {}) := reached_run turns _
  exact hReached.invariant inv hStart
    fun _ turn h _ => turn_invariant hChange turn h

/-! ## Sample inputs -/

def sampleRuntime : InboxRuntime := ⟨fun _ => [], 10000⟩

def sampleOwner : Owner := ⟨js "https://id.example", js "owner"⟩

def sampleClock : Clock := fun _ => ⟨1, by decide⟩

/-- Ids of one letter, each longer than the one before. -/
def sampleDraws (letter : UInt16) : Draws :=
  fun i => List.replicate (i + 1) letter

def samplePublication : InboxPublication where
  eventId := js "question:1"
  title := js "Done"
  body := js "All is well."
  podId := none
  podName := none
  podTags := none
  runId := none
  links := []

end OpenApe.Ports.InboxRuns
