import OpenApe.Ports.InboxRuns

/-!
# Publishing the decisions of a runtime

`syncDecisions` takes the complete set of a runtime's decisions.  The module
follows the row of each event key through its loops and says when the inbox
afterwards shows that set: `syncsRight_iff`.
-/

namespace OpenApe.Ports.InboxDecisions

open Verified.JsText Verified.KeyedTable Verified.Machine Verified.Transactions
  Verified.Transactions.Action
open InboxStore InboxRuns
open WorkspaceStore (Owner ownerKey)

/-! ## What the call is for -/

/-- An open decision of a runtime that its owner has not deleted. -/
structure IsOpen (owner runtimeId : JsString) (row : ItemRow) : Prop where
  owned : row.owner = owner
  runtime : row.runtimeId = runtimeId
  kind : row.kind = .decision
  state : row.state = .opened
  kept : row.deleted = none

/-- The row shows the decision, with its digest and content. -/
structure Shows (runtimeId : JsString) (row : ItemRow)
    (decision : InboxDecision) : Prop where
  source : row.eventId = decision.sourceId
  digest : row.digest = decision.digest
  title : row.title = decision.title
  body : row.body = decision.body
  podId : row.podId = decision.podId
  podName : row.podName = decision.podName
  podTags : row.podTags = storedTags decision.podTags
  links : row.links = decision.link.toList
  data : row.decision = some (decision.data runtimeId)

/-- The decisions of a set that are not stored, not even as tombstones. -/
def news (db : Db) (owner runtimeId : JsString)
    (decisions : List InboxDecision) : List InboxDecision :=
  decisions.filter fun decision =>
    (storedDecision db owner runtimeId decision.sourceId).isNone

/-- Those of them that the inbox has room for. -/
def admitted (quota : Nat) (db : Db) (owner runtimeId : JsString)
    (decisions : List InboxDecision) : List InboxDecision :=
  (news db owner runtimeId decisions).take (quota - keptCount db owner)

/-- The decisions of a set that are not tombstones and were not skipped for
the quota. -/
def Wanted (quota : Nat) (db : Db) (owner runtimeId : JsString)
    (decisions : List InboxDecision) (decision : InboxDecision) : Prop :=
  decision ∈ decisions ∧
    match storedDecision db owner runtimeId decision.sourceId with
    | some row => row.deleted = none
    | none => decision ∈ admitted quota db owner runtimeId decisions

/-- An item that is none of the runtime's decisions. -/
def IsOther (owner runtimeId : JsString) (row : ItemRow) : Prop :=
  row.owner ≠ owner ∨ row.runtimeId ≠ runtimeId ∨ row.kind = .message

/-- What the call is to have done when it returns. -/
structure Converged (quota : Nat) (owner runtimeId : JsString)
    (decisions : List InboxDecision) (db db' : Db) : Prop where
  shown : ∀ decision, Wanted quota db owner runtimeId decisions decision →
    ∃ row ∈ db'.items.rows, IsOpen owner runtimeId row ∧
      Shows runtimeId row decision
  only : ∀ row ∈ db'.items.rows, IsOpen owner runtimeId row →
    ∃ decision, Wanted quota db owner runtimeId decisions decision ∧
      Shows runtimeId row decision
  others : ∀ row, IsOther owner runtimeId row →
    (row ∈ db'.items.rows ↔ row ∈ db.items.rows)

/-- The call returns, the inbox shows the set, and the same call again
changes nothing. -/
def SyncsRight (runtime : InboxRuntime) (now : Clock) (ids : Draws)
    (owner : Owner) (runtimeId : JsString) (decisions : List InboxDecision)
    (db : Db) : Prop :=
  ∃ counts db',
    syncDecisions runtime now ids owner runtimeId decisions db =
      (.ok counts, db') ∧
    Converged runtime.itemsPerOwner (ownerKey owner) runtimeId decisions db
      db' ∧
    ∀ now' ids', ∃ skipped,
      syncDecisions runtime now' ids' owner runtimeId decisions db' =
        (.ok { skipped := skipped }, db')

/-! ## Lookups and counts under the single changes -/

/-- The row under an event key. -/
abbrev found (db : Db) (key : EventKey) : Option ItemRow :=
  db.items.byOther? key

theorem found_eq_some_iff {db : Db} {key : EventKey} {row : ItemRow} :
    found db key = some row ↔ row ∈ db.items.rows ∧ row.event = key :=
  Rows.byOther?_eq_some_iff

theorem storedDecision_eq_some {db : Db} {owner runtimeId sourceId : JsString}
    {row : ItemRow} :
    storedDecision db owner runtimeId sourceId = some row ↔
      found db (owner, runtimeId, sourceId) = some row ∧
        row.kind = .decision := by
  rw [storedDecision, Option.filter_eq_some_iff, decide_eq_true_iff]

theorem storedDecision_eq_none {db : Db} {owner runtimeId sourceId : JsString} :
    storedDecision db owner runtimeId sourceId = none ↔
      ∀ row, found db (owner, runtimeId, sourceId) = some row →
        row.kind = .message := by
  rw [storedDecision, Option.filter_eq_none_iff]
  constructor
  · intro h row hRow
    have hKind := h row hRow
    cases hCase : row.kind with
    | message => rfl
    | decision => exact absurd (decide_eq_true hCase) hKind
  · intro h row hRow hKind
    have hMessage := h row hRow
    rw [of_decide_eq_true hKind] at hMessage
    cases hMessage

theorem found_changeItem {db : Db} {row : ItemRow} {f : ItemRow → ItemRow}
    {hf : ∀ row, (f row).id = row.id}
    {hEvent : ∀ row, (f row).event = row.event} (hRow : row ∈ db.items.rows)
    (key : EventKey) :
    found (Db.changeItem db row.id f hf hEvent) key =
      if key = row.event then some (f row) else found db key :=
  @Rows.byOther?_updateKey _ _ _ _ _ _ _ db.items row f hf hEvent hRow key

theorem keptCount_changeItem {db : Db} {id owner : JsString}
    {f : ItemRow → ItemRow} {hf : ∀ row, (f row).id = row.id}
    {hEvent : ∀ row, (f row).event = row.event}
    (hKept : ∀ row, (f row).owner = row.owner ∧
      (f row).deleted = row.deleted) :
    keptCount (Db.changeItem db id f hf hEvent) owner = keptCount db owner := by
  have hRows : (Db.changeItem db id f hf hEvent).items.rows =
      db.items.rows.map fun row => if row.id = id then f row else row := by
    refine List.map_congr_left fun row _ => ?_
    simp only [decide_eq_true_eq]
  rw [keptCount, hRows, List.filter_map, List.length_map, keptCount]
  congr 1
  refine List.filter_congr fun row _ => ?_
  rw [Function.comp_apply]
  split_ifs
  · rw [(hKept row).1, (hKept row).2]
  · rfl

theorem keptCount_insert {db : Db} {items : Items} {row : ItemRow}
    (h : db.items.insert? row = some items) (hKept : row.deleted = none)
    (sequence : Nat) (outbox : Outbox) :
    keptCount { sequence, items, outbox } row.owner =
      keptCount db row.owner + 1 := by
  rw [keptCount, (Rows.insert?_eq_some.mp h).2, List.filter_append,
    List.length_append, List.filter_cons_of_pos (by simp [hKept])]
  rfl

/-- The key of a decision of the set. -/
abbrev keyOf (owner runtimeId : JsString) (decision : InboxDecision) :
    EventKey :=
  (owner, runtimeId, decision.sourceId)

/-- Ids that nothing has been stored under. -/
structure Fresh (ids : Draws) (db : Db) : Prop where
  injective : Function.Injective ids
  items : ∀ i, ∀ row ∈ db.items.rows, row.id ≠ ids i
  outbox : ∀ i, db.outbox.find? (ids i) = none

theorem Fresh.shift {ids : Draws} {db : Db} (h : Fresh ids db) (n : Nat) :
    Fresh (fun i => ids (i + n)) db where
  injective := fun _ _ hEq => Nat.add_right_cancel (h.injective hEq)
  items := fun i => h.items (i + n)
  outbox := fun i => h.outbox (i + n)

/-! ## One decision -/

section Handling

variable {runtime : InboxRuntime} {now : Clock} {ids : Draws}
  {owner runtimeId : JsString} {decision : InboxDecision}
  {counts counts' : SyncCounts} {db db' : Db}

/-- The database after a new decision. -/
abbrev afterCreated (db : Db) (items : Items) (entry : OutboxRow) : Db where
  sequence := db.sequence + 1
  items := items
  outbox := db.outbox.put entry

/-- The database after a changed decision. -/
abbrev afterChanged (db : Db) (id runtimeId : JsString)
    (decision : InboxDecision) : Db :=
  Db.changeItem db id (ItemRow.decided decision runtimeId (db.sequence + 1))
    (ItemRow.decided_id decision runtimeId (db.sequence + 1))
    (ItemRow.decided_event decision runtimeId (db.sequence + 1))

/-- What one turn of the loop does. -/
inductive Handled (quota : Nat) (owner runtimeId : JsString)
    (decision : InboxDecision) (db : Db) : Db → Prop where
  | same (row : ItemRow)
      (hStored : storedDecision db owner runtimeId decision.sourceId = some row)
      (hSame : row.deleted.isSome = true ∨ isCurrent row decision = true) :
      Handled quota owner runtimeId decision db db
  | changed (row : ItemRow)
      (hStored : storedDecision db owner runtimeId decision.sourceId = some row)
      (hKept : row.deleted = none) (hChanged : isCurrent row decision = false) :
      Handled quota owner runtimeId decision db
        (afterChanged db row.id runtimeId decision)
  | created (time : Time) (id : JsString) (items : Items) (entry : OutboxRow)
      (hNew : storedDecision db owner runtimeId decision.sourceId = none)
      (hRoom : keptCount db owner < quota)
      (hInsert : db.items.insert? (decisionRow time id owner runtimeId decision
        (db.sequence + 1)) = some items) :
      Handled quota owner runtimeId decision db (afterCreated db items entry)
  | skipped
      (hNew : storedDecision db owner runtimeId decision.sourceId = none)
      (hFull : quota ≤ keptCount db owner) :
      Handled quota owner runtimeId decision db db

theorem handled_of_returns
    (h : Returns (syncDecision runtime now ids owner runtimeId decision counts)
      db counts' db') :
    Handled runtime.itemsPerOwner owner runtimeId decision db db' := by
  rw [syncDecision, returns_query_bind] at h
  obtain ⟨existing, hExisting, h⟩ := h
  obtain rfl := Except.ok.inj hExisting
  cases hStored : storedDecision db owner runtimeId decision.sourceId with
  | some existing =>
      rw [hStored] at h
      dsimp only at h
      unfold updateDecision at h
      split_ifs at h with hSame
      · rw [(returns_pure.mp h).2]
        exact .same existing hStored (Bool.or_eq_true_iff.mp hSame)
      · rw [Bool.not_eq_true, Bool.or_eq_false_iff,
          Option.isSome_eq_false_iff, Option.isNone_iff_eq_none] at hSame
        rw [returns_nextSequence_bind, updateItem, returns_write_bind] at h
        rw [(returns_pure.mp h).2]
        exact .changed existing hStored hSame.1 hSame.2
  | none =>
      rw [hStored] at h
      dsimp only at h
      rw [returns_query_bind] at h
      obtain ⟨full, hFull, h⟩ := h
      obtain rfl := Except.ok.inj hFull
      unfold createDecision at h
      split_ifs at h with hRoom
      · rw [(returns_pure.mp h).2]
        exact .skipped hStored (of_decide_eq_true hRoom)
      · rw [returns_nextSequence_bind, returns_insertItem_bind] at h
        obtain ⟨items, hInsert, h⟩ := h
        rw [returns_insertOutbox_bind] at h
        obtain ⟨-, h⟩ := h
        rw [(returns_pure.mp h).2]
        exact .created _ _ items _ hStored
          (isFull_eq_false (Bool.not_eq_true _ ▸ hRoom)) hInsert

theorem returns_updateDecision (hFresh : Fresh ids db) (existing : ItemRow) :
    ∃ counts' db',
      Returns (updateDecision runtimeId decision counts existing) db counts'
        db' ∧ Fresh (fun i => ids (i + 2)) db' := by
  unfold updateDecision
  split_ifs with hSame
  · exact ⟨counts, db, returns_pure.mpr ⟨rfl, rfl⟩, hFresh.shift 2⟩
  · refine ⟨{ counts with updated := counts.updated + 1 },
      afterChanged db existing.id runtimeId decision, ?_,
      (hFresh.shift 2).injective, ?_, (hFresh.shift 2).outbox⟩
    · rw [returns_nextSequence_bind, updateItem, returns_write_bind]
      exact returns_pure.mpr ⟨rfl, rfl⟩
    · intro i row hRow
      obtain ⟨old, hOld, rfl⟩ := mem_changeItem.mp hRow
      split_ifs
      · exact hFresh.items (i + 2) old hOld
      · exact hFresh.items (i + 2) old hOld

theorem returns_createDecision (hFresh : Fresh ids db) {full : Bool}
    (hFree : full = false → found db (keyOf owner runtimeId decision) = none) :
    ∃ counts' db',
      Returns (createDecision now ids owner runtimeId decision counts full) db
        counts' db' ∧ Fresh (fun i => ids (i + 2)) db' := by
  cases full with
  | true =>
      exact ⟨{ counts with skipped := counts.skipped + 1 }, db,
        returns_pure.mpr ⟨rfl, rfl⟩, hFresh.shift 2⟩
  | false =>
      have hRow : db.items.Free (decisionRow (now 0) (ids 0) owner runtimeId
          decision (db.sequence + 1)) := fun row hMem =>
        ⟨hFresh.items 0 row hMem,
          Rows.byOther?_eq_none_iff.mp (hFree rfl) row hMem⟩
      cases hInsert : db.items.insert? (decisionRow (now 0) (ids 0) owner
          runtimeId decision (db.sequence + 1)) with
      | none => exact absurd hRow (Rows.insert?_eq_none.mp hInsert)
      | some items =>
          refine ⟨{ counts with created := counts.created + 1 },
            afterCreated db items (pendingRow (ids 1) owner (ids 0) (now 2)
              ((now 1).ms + pushDelay decision.authority)), ?_,
            (hFresh.shift 2).injective, ?_, ?_⟩
          · rw [createDecision, if_neg Bool.false_ne_true,
              returns_nextSequence_bind, returns_insertItem_bind]
            refine ⟨items, hInsert, ?_⟩
            rw [returns_insertOutbox_bind]
            exact ⟨hFresh.outbox 1, returns_pure.mpr ⟨rfl, rfl⟩⟩
          · intro i row hMem
            rw [(Rows.insert?_eq_some.mp hInsert).2, List.mem_append,
              List.mem_singleton] at hMem
            rcases hMem with hOld | rfl
            · exact hFresh.items (i + 2) row hOld
            · intro hEq
              exact absurd (hFresh.injective hEq) (by omega)
          · intro i
            have hNe : ids (i + 2) ≠ ids 1 := fun hEq =>
              absurd (hFresh.injective hEq) (by omega)
            exact (Table.find?_put_ne db.outbox hNe).trans
              (hFresh.outbox (i + 2))

/-- A turn returns unless a message stands under the key of a decision that
it would create; the next turn finds its ids free again. -/
theorem returns_syncDecision (hFresh : Fresh ids db)
    (hFree : storedDecision db owner runtimeId decision.sourceId = none →
      keptCount db owner < runtime.itemsPerOwner →
      found db (keyOf owner runtimeId decision) = none) :
    ∃ counts' db',
      Returns (syncDecision runtime now ids owner runtimeId decision counts) db
        counts' db' ∧ Fresh (fun i => ids (i + 2)) db' := by
  cases hStored : storedDecision db owner runtimeId decision.sourceId with
  | some existing =>
      obtain ⟨counts', db', hReturns, hNext⟩ :=
        @returns_updateDecision ids runtimeId decision counts db hFresh existing
      refine ⟨counts', db', ?_, hNext⟩
      rw [syncDecision, returns_query_bind]
      exact ⟨_, rfl, by rw [hStored]; exact hReturns⟩
  | none =>
      obtain ⟨counts', db', hReturns, hNext⟩ :=
        @returns_createDecision now ids owner runtimeId decision counts db
          hFresh _ fun hRoom => hFree hStored (isFull_eq_false hRoom)
      refine ⟨counts', db', ?_, hNext⟩
      rw [syncDecision, returns_query_bind]
      refine ⟨_, rfl, ?_⟩
      rw [hStored]
      dsimp only
      rw [returns_query_bind]
      exact ⟨_, rfl, hReturns⟩

end Handling

/-! ## The loop over the set -/

/-- What the loop does, in lookups by event key. -/
structure Looped (quota : Nat) (owner runtimeId : JsString)
    (decisions : List InboxDecision) (db db' : Db) : Prop where
  others : ∀ key, (∀ d ∈ decisions, key ≠ keyOf owner runtimeId d) →
    found db' key = found db key
  stored : ∀ d ∈ decisions, ∀ row,
    storedDecision db owner runtimeId d.sourceId = some row →
    ((row.deleted.isSome = true ∨ isCurrent row d = true) ∧
      found db' (keyOf owner runtimeId d) = some row) ∨
    (row.deleted = none ∧ isCurrent row d = false ∧ ∃ n,
      found db' (keyOf owner runtimeId d) = some (row.decided d runtimeId n))
  created : ∀ d ∈ admitted quota db owner runtimeId decisions,
    found db (keyOf owner runtimeId d) = none ∧ ∃ time id n,
      found db' (keyOf owner runtimeId d) =
        some (decisionRow time id owner runtimeId d n)
  skipped : ∀ d ∈ news db owner runtimeId decisions,
    d ∉ admitted quota db owner runtimeId decisions →
    found db' (keyOf owner runtimeId d) = found db (keyOf owner runtimeId d)
  kept : keptCount db' owner =
    keptCount db owner + (admitted quota db owner runtimeId decisions).length

section Loop

variable {runtime : InboxRuntime} {quota : Nat} {now : Clock} {ids : Draws}
  {owner runtimeId : JsString} {decision : InboxDecision}
  {decisions : List InboxDecision} {counts counts' : SyncCounts}
  {db db₁ db' : Db}

theorem news_singleton_of_some {row : ItemRow}
    (h : storedDecision db owner runtimeId decision.sourceId = some row) :
    news db owner runtimeId [decision] = [] := by
  rw [news, List.filter_cons_of_neg (by rw [h]; exact Bool.false_ne_true),
    List.filter_nil]

theorem news_singleton_of_none
    (h : storedDecision db owner runtimeId decision.sourceId = none) :
    news db owner runtimeId [decision] = [decision] := by
  rw [news, List.filter_cons_of_pos (by rw [h]; rfl), List.filter_nil]

theorem admitted_singleton_of_some {row : ItemRow}
    (h : storedDecision db owner runtimeId decision.sourceId = some row) :
    admitted quota db owner runtimeId [decision] = [] := by
  rw [admitted, news_singleton_of_some h, List.take_nil]

theorem admitted_of_full (h : quota ≤ keptCount db owner) :
    admitted quota db owner runtimeId decisions = [] := by
  rw [admitted, Nat.sub_eq_zero_of_le h, List.take_zero]

theorem admitted_singleton_of_room
    (h : storedDecision db owner runtimeId decision.sourceId = none)
    (hRoom : keptCount db owner < quota) :
    admitted quota db owner runtimeId [decision] = [decision] := by
  rw [admitted, news_singleton_of_none h,
    List.take_of_length_le (by rw [List.length_singleton]; omega)]

theorem key_of_storedDecision {row : ItemRow}
    (h : storedDecision db owner runtimeId decision.sourceId = some row) :
    row ∈ db.items.rows ∧ row.event = keyOf owner runtimeId decision :=
  found_eq_some_iff.mp (storedDecision_eq_some.mp h).1

/-- One turn is the loop over one decision. -/
theorem Handled.looped (h : Handled quota owner runtimeId decision db db') :
    Looped quota owner runtimeId [decision] db db' := by
  cases h with
  | same row hStored hSame =>
      constructor
      · exact fun _ _ => rfl
      · intro d hMem row' hRow
        obtain rfl := List.mem_singleton.mp hMem
        obtain rfl := Option.some.inj (hStored.symm.trans hRow)
        exact .inl ⟨hSame, (storedDecision_eq_some.mp hStored).1⟩
      · rw [admitted_singleton_of_some hStored]
        exact fun _ hMem => (nomatch hMem)
      · exact fun _ _ _ => rfl
      · rw [admitted_singleton_of_some hStored]
        rfl
  | changed row hStored hKept hChanged =>
      obtain ⟨hRow, hEvent⟩ := key_of_storedDecision hStored
      constructor
      · intro key hKey
        rw [found_changeItem hRow, hEvent,
          if_neg (hKey decision (List.mem_singleton_self _))]
      · intro d hMem row' hRow'
        obtain rfl := List.mem_singleton.mp hMem
        obtain rfl := Option.some.inj (hStored.symm.trans hRow')
        refine .inr ⟨hKept, hChanged, db.sequence + 1, ?_⟩
        rw [found_changeItem hRow, if_pos hEvent.symm]
      · rw [admitted_singleton_of_some hStored]
        exact fun _ hMem => (nomatch hMem)
      · rw [news_singleton_of_some hStored]
        exact fun _ hMem => (nomatch hMem)
      · rw [admitted_singleton_of_some hStored]
        exact keptCount_changeItem fun _ => ⟨rfl, rfl⟩
  | created time id items entry hNew hRoom hInsert =>
      have hFound : ∀ key, found (afterCreated db items entry) key =
          if key = keyOf owner runtimeId decision then
            some (decisionRow time id owner runtimeId decision
              (db.sequence + 1))
          else found db key := fun key => Rows.byOther?_insert? hInsert key
      constructor
      · intro key hKey
        rw [hFound, if_neg (hKey decision (List.mem_singleton_self _))]
      · intro d hMem row hRow
        obtain rfl := List.mem_singleton.mp hMem
        rw [hNew] at hRow
        cases hRow
      · intro d hMem
        rw [admitted_singleton_of_room hNew hRoom] at hMem
        obtain rfl := List.mem_singleton.mp hMem
        refine ⟨Rows.byOther?_eq_none_iff.mpr fun row hRow =>
          ((Rows.insert?_eq_some.mp hInsert).1 row hRow).2, time, id,
          db.sequence + 1, ?_⟩
        rw [hFound, if_pos rfl]
      · intro d hMem hOut
        rw [news_singleton_of_none hNew] at hMem
        rw [admitted_singleton_of_room hNew hRoom] at hOut
        exact absurd hMem hOut
      · rw [admitted_singleton_of_room hNew hRoom]
        exact keptCount_insert hInsert rfl _ _
  | skipped hNew hFull =>
      constructor
      · exact fun _ _ => rfl
      · intro d hMem row hRow
        obtain rfl := List.mem_singleton.mp hMem
        rw [hNew] at hRow
        cases hRow
      · rw [admitted_of_full hFull]
        exact fun _ hMem => (nomatch hMem)
      · exact fun _ _ _ => rfl
      · rw [admitted_of_full hFull]
        rfl

theorem keyOf_ne {d d' : InboxDecision} (h : d.sourceId ≠ d'.sourceId) :
    keyOf owner runtimeId d ≠ keyOf owner runtimeId d' :=
  fun hEq => h (Prod.mk.inj (Prod.mk.inj hEq).2).2

/-- The stored decisions after a turn are those of before, under the source
ids of the others. -/
theorem Looped.storedDecision_eq
    (h : Looped quota owner runtimeId [decision] db db₁) {d : InboxDecision}
    (hSource : d.sourceId ≠ decision.sourceId) :
    storedDecision db₁ owner runtimeId d.sourceId =
      storedDecision db owner runtimeId d.sourceId := by
  have hFound := h.others (keyOf owner runtimeId d) fun d' hMem => by
    rw [List.mem_singleton.mp hMem]
    exact keyOf_ne hSource
  rw [storedDecision, storedDecision]
  exact congrArg (Option.filter _) hFound

theorem Looped.news_eq (h : Looped quota owner runtimeId [decision] db db₁)
    (hSource : ∀ d ∈ decisions, d.sourceId ≠ decision.sourceId) :
    news db₁ owner runtimeId decisions = news db owner runtimeId decisions :=
  List.filter_congr fun d hMem => by
    rw [h.storedDecision_eq (hSource d hMem)]

theorem Looped.admitted_cons
    (h : Looped quota owner runtimeId [decision] db db₁)
    (hSource : ∀ d ∈ decisions, d.sourceId ≠ decision.sourceId) :
    admitted quota db owner runtimeId (decision :: decisions) =
      admitted quota db owner runtimeId [decision] ++
        admitted quota db₁ owner runtimeId decisions := by
  have hNews : news db owner runtimeId (decision :: decisions) =
      news db owner runtimeId [decision] ++
        news db owner runtimeId decisions :=
    List.filter_append [decision] decisions
  have hKept := h.kept
  rw [admitted, hNews, List.take_append, ← admitted]
  congr 1
  rw [admitted, h.news_eq hSource]
  rw [admitted, List.length_take] at hKept
  congr 1
  omega

theorem Looped.cons (hFirst : Looped quota owner runtimeId [decision] db db₁)
    (hRest : Looped quota owner runtimeId decisions db₁ db')
    (hSource : ∀ d ∈ decisions, d.sourceId ≠ decision.sourceId) :
    Looped quota owner runtimeId (decision :: decisions) db db' := by
  have hSelf := List.mem_singleton_self decision
  -- what a turn did to the decision's own row, the others leave alone
  have hAfter : found db' (keyOf owner runtimeId decision) =
      found db₁ (keyOf owner runtimeId decision) :=
    hRest.others _ fun d hMem => (keyOf_ne (hSource d hMem)).symm
  have hBefore : ∀ d ∈ decisions, found db₁ (keyOf owner runtimeId d) =
      found db (keyOf owner runtimeId d) := fun d hMem =>
    hFirst.others _ fun d' hMem' => by
      rw [List.mem_singleton.mp hMem']
      exact keyOf_ne (hSource d hMem)
  have hAdmitted := hFirst.admitted_cons hSource
  constructor
  · intro key hKey
    rw [hRest.others key fun d hMem => hKey d (List.mem_cons_of_mem _ hMem)]
    refine hFirst.others key fun d hMem => ?_
    rw [List.mem_singleton.mp hMem]
    exact hKey decision List.mem_cons_self
  · intro d hMem row hRow
    rcases List.mem_cons.mp hMem with rfl | hMem
    · rw [hAfter]
      exact hFirst.stored d hSelf row hRow
    · rw [← hFirst.storedDecision_eq (hSource d hMem)] at hRow
      exact hRest.stored d hMem row hRow
  · intro d hMem
    rw [hAdmitted, List.mem_append] at hMem
    rcases hMem with hMem | hMem
    · have hEq := List.mem_singleton.mp (List.mem_filter.mp
        (List.mem_of_mem_take hMem)).1
      rw [hEq] at hMem ⊢
      rw [hAfter]
      exact hFirst.created decision hMem
    · obtain ⟨hNone, hNew⟩ := hRest.created d hMem
      rw [hBefore d (List.mem_filter.mp (List.mem_of_mem_take hMem)).1]
        at hNone
      exact ⟨hNone, hNew⟩
  · intro d hMem hOut
    rw [hAdmitted, List.mem_append, not_or] at hOut
    obtain ⟨hIn, hNew⟩ := List.mem_filter.mp hMem
    rcases List.mem_cons.mp hIn with rfl | hIn
    · rw [hAfter]
      exact hFirst.skipped d (List.mem_filter.mpr ⟨hSelf, hNew⟩) hOut.1
    · rw [← hBefore d hIn]
      refine hRest.skipped d ?_ hOut.2
      rw [hFirst.news_eq hSource]
      exact List.mem_filter.mpr ⟨hIn, hNew⟩
  · rw [hRest.kept, hFirst.kept, hAdmitted, List.length_append, Nat.add_assoc]

theorem sourceId_ne (h : ((decision :: decisions).map
    InboxDecision.sourceId).Nodup) :
    ∀ d ∈ decisions, d.sourceId ≠ decision.sourceId := by
  intro d hMem hEq
  rw [List.map_cons, List.nodup_cons] at h
  exact h.1 (hEq ▸ List.mem_map_of_mem hMem)

theorem looped_of_returns
    (hDistinct : (decisions.map InboxDecision.sourceId).Nodup)
    (h : Returns (syncLoop runtime owner runtimeId now ids decisions counts) db
      counts' db') :
    Looped runtime.itemsPerOwner owner runtimeId decisions db db' := by
  induction decisions generalizing now ids db counts with
  | nil =>
      rw [(returns_pure.mp h).2]
      exact ⟨fun _ _ => rfl, fun _ hMem => (nomatch hMem),
        fun _ hMem => (nomatch List.mem_of_mem_take hMem),
        fun _ hMem => (nomatch hMem), by rw [admitted, news]; simp⟩
  | cons decision decisions ih =>
      obtain ⟨counts₁, db₁, hFirst, hRest⟩ := returns_bind.mp h
      have hTail := (List.nodup_cons.mp (List.map_cons ▸ hDistinct)).2
      exact (handled_of_returns hFirst).looped.cons (ih hTail hRest)
        (sourceId_ne hDistinct)

theorem mem_admitted_head
    (h : storedDecision db owner runtimeId decision.sourceId = none)
    (hRoom : keptCount db owner < quota) :
    decision ∈ admitted quota db owner runtimeId (decision :: decisions) := by
  obtain ⟨n, hn⟩ := Nat.exists_eq_add_of_lt hRoom
  have hLeft : quota - keptCount db owner = n + 1 := by omega
  rw [admitted, news, List.filter_cons_of_pos (by rw [h]; rfl), hLeft,
    List.take_succ_cons]
  exact List.mem_cons_self

theorem returns_syncLoop
    (hDistinct : (decisions.map InboxDecision.sourceId).Nodup)
    (hFresh : Fresh ids db)
    (hFree : ∀ d ∈ admitted runtime.itemsPerOwner db owner runtimeId decisions,
      found db (keyOf owner runtimeId d) = none) :
    ∃ counts' db',
      Returns (syncLoop runtime owner runtimeId now ids decisions counts) db
        counts' db' := by
  induction decisions generalizing now ids db counts with
  | nil => exact ⟨counts, db, returns_pure.mpr ⟨rfl, rfl⟩⟩
  | cons decision decisions ih =>
      have hSource := sourceId_ne hDistinct
      obtain ⟨counts₁, db₁, hFirst, hNext⟩ :=
        @returns_syncDecision runtime now ids owner runtimeId decision counts
          db hFresh fun hNew hRoom => hFree _ (mem_admitted_head hNew hRoom)
      have hLooped := (handled_of_returns hFirst).looped
      have hTail := (List.nodup_cons.mp (List.map_cons ▸ hDistinct)).2
      obtain ⟨counts', db', hRest⟩ := ih hTail hNext fun d hMem => by
        have hIn := (List.mem_filter.mp (List.mem_of_mem_take hMem)).1
        rw [hLooped.others _ fun d' hMem' => by
          rw [List.mem_singleton.mp hMem']
          exact keyOf_ne (hSource d hIn)]
        refine hFree d ?_
        rw [hLooped.admitted_cons hSource]
        exact List.mem_append_right _ hMem
      exact ⟨counts', db', returns_bind.mpr ⟨counts₁, db₁, hFirst, hRest⟩⟩

/-! ## The loop over the vanished decisions -/

theorem returns_resolveDecision (db : Db) (row : ItemRow) :
    ∃ db', Returns (resolveDecision row) db () db' ∧
      db'.items = (Db.changeItem db row.id
        (ItemRow.resolve (db.sequence + 1))
        (ItemRow.resolve_id (db.sequence + 1))
        (ItemRow.resolve_event (db.sequence + 1))).items :=
  ⟨(resolveDecision row db).2, rfl, rfl⟩

/-- What the loop does, in lookups by event key; it always returns. -/
theorem returns_resolve {rows : List ItemRow}
    (hRows : ∀ row ∈ rows, found db row.event = some row)
    (hDistinct : (rows.map ItemRow.event).Nodup) :
    ∃ db', Returns (each rows resolveDecision) db () db' ∧
      (∀ key, key ∉ rows.map ItemRow.event → found db' key = found db key) ∧
      (∀ row ∈ rows, ∃ n, found db' row.event = some (row.resolve n)) ∧
      ∀ owner, keptCount db' owner = keptCount db owner := by
  induction rows generalizing db with
  | nil =>
      exact ⟨db, returns_pure.mpr ⟨rfl, rfl⟩, fun _ _ => rfl,
        fun _ hMem => (nomatch hMem), fun _ => rfl⟩
  | cons row rows ih =>
      rw [List.map_cons, List.nodup_cons] at hDistinct
      obtain ⟨db₁, hFirst, hItems⟩ := returns_resolveDecision db row
      have hMem := (found_eq_some_iff.mp (hRows row List.mem_cons_self)).1
      have hFound : ∀ key, found db₁ key = if key = row.event then
          some (row.resolve (db.sequence + 1)) else found db key := by
        intro key
        rw [found, hItems]
        exact found_changeItem hMem key
      have hKept : ∀ owner, keptCount db₁ owner = keptCount db owner := by
        intro owner
        rw [keptCount, hItems]
        exact keptCount_changeItem fun _ => ⟨rfl, rfl⟩
      have hNe : ∀ row' ∈ rows, row'.event ≠ row.event := fun row' hMem' hEq =>
        hDistinct.1 (hEq ▸ List.mem_map_of_mem hMem')
      obtain ⟨db', hRest, hOthers, hResolved, hCount⟩ := ih
        (fun row' hMem' => by
          rw [hFound, if_neg (hNe row' hMem')]
          exact hRows row' (List.mem_cons_of_mem _ hMem'))
        hDistinct.2
      refine ⟨db', returns_bind.mpr ⟨(), db₁, hFirst, hRest⟩, ?_, ?_, ?_⟩
      · intro key hKey
        rw [List.map_cons, List.mem_cons, not_or] at hKey
        rw [hOthers key hKey.2, hFound, if_neg hKey.1]
      · intro row' hMem'
        rcases List.mem_cons.mp hMem' with rfl | hMem'
        · refine ⟨db.sequence + 1, ?_⟩
          rw [hOthers _ hDistinct.1, hFound, if_pos rfl]
        · exact hResolved row' hMem'
      · intro owner
        rw [hCount, hKept]

end Loop

/-! ## The call -/

/-- What the call does, by way of the database between its loops. -/
structure Synced (quota : Nat) (owner runtimeId : JsString)
    (decisions : List InboxDecision) (db db₁ db' : Db) : Prop where
  looped : Looped quota owner runtimeId decisions db db₁
  resolved : ∀ row ∈ vanished db₁ owner runtimeId decisions,
    ∃ n, found db' row.event = some (row.resolve n)
  others : ∀ key,
    key ∉ (vanished db₁ owner runtimeId decisions).map ItemRow.event →
    found db' key = found db₁ key
  kept : keptCount db' owner = keptCount db₁ owner

/-- What has become of the row under the key of a decision of the set. -/
inductive Outcome (quota : Nat) (owner runtimeId : JsString)
    (decisions : List InboxDecision) (db db' : Db) (d : InboxDecision) :
    Prop where
  | same (row : ItemRow)
      (hStored : storedDecision db owner runtimeId d.sourceId = some row)
      (hSame : row.deleted.isSome = true ∨ isCurrent row d = true)
      (hFound : found db' (keyOf owner runtimeId d) = some row)
  | changed (row : ItemRow) (n : Nat)
      (hStored : storedDecision db owner runtimeId d.sourceId = some row)
      (hKept : row.deleted = none) (hChanged : isCurrent row d = false)
      (hFound : found db' (keyOf owner runtimeId d) =
        some (row.decided d runtimeId n))
  | created (time : Time) (id : JsString) (n : Nat)
      (hNew : storedDecision db owner runtimeId d.sourceId = none)
      (hAdmitted : d ∈ admitted quota db owner runtimeId decisions)
      (hFree : found db (keyOf owner runtimeId d) = none)
      (hFound : found db' (keyOf owner runtimeId d) =
        some (decisionRow time id owner runtimeId d n))
  | skipped
      (hNew : storedDecision db owner runtimeId d.sourceId = none)
      (hOut : d ∉ admitted quota db owner runtimeId decisions)
      (hFound : found db' (keyOf owner runtimeId d) =
        found db (keyOf owner runtimeId d))

section Call

variable {runtime : InboxRuntime} {quota : Nat} {now : Clock} {ids : Draws}
  {owner runtimeId : JsString} {d : InboxDecision}
  {decisions : List InboxDecision} {counts : SyncCounts} {db db₁ db' : Db}

theorem mem_vanished {row : ItemRow} :
    row ∈ vanished db owner runtimeId decisions ↔
      found db row.event = some row ∧ row.owner = owner ∧
        row.runtimeId = runtimeId ∧ row.kind = .decision ∧
        row.state = .opened ∧
        row.eventId ∉ decisions.map InboxDecision.sourceId := by
  rw [vanished, List.mem_filter, decide_eq_true_iff, found_eq_some_iff]
  exact and_congr_left' (and_iff_left rfl).symm

theorem nodup_vanished :
    ((vanished db owner runtimeId decisions).map ItemRow.event).Nodup :=
  db.items.nodup_other.sublist (List.filter_sublist.map ItemRow.event)

theorem returns_syncDecisions {owner : Owner}
    (hDistinct : (decisions.map InboxDecision.sourceId).Nodup)
    (hFresh : Fresh ids db)
    (hFree : ∀ d ∈ admitted runtime.itemsPerOwner db (ownerKey owner) runtimeId
      decisions, found db (keyOf (ownerKey owner) runtimeId d) = none) :
    ∃ counts db', Returns
      (syncDecisions runtime now ids owner runtimeId decisions) db counts
        db' := by
  obtain ⟨counts, db₁, hLoop⟩ := @returns_syncLoop runtime now ids _ runtimeId
    decisions {} db hDistinct hFresh hFree
  obtain ⟨db', hResolve, -⟩ := returns_resolve
    (fun row hRow => (mem_vanished.mp hRow).1) (@nodup_vanished
      (ownerKey owner) runtimeId decisions db₁)
  refine ⟨{ counts with
    resolved := (vanished db₁ (ownerKey owner) runtimeId decisions).length },
    db', ?_⟩
  rw [syncDecisions, returns_transaction]
  refine returns_bind.mpr ⟨counts, db₁, hLoop, ?_⟩
  rw [returns_query_bind]
  exact ⟨_, rfl, returns_bind.mpr
    ⟨(), db', hResolve, returns_pure.mpr ⟨rfl, rfl⟩⟩⟩

theorem synced_of_returns {owner : Owner}
    (hDistinct : (decisions.map InboxDecision.sourceId).Nodup)
    (h : Returns (syncDecisions runtime now ids owner runtimeId decisions) db
      counts db') :
    ∃ db₁, Synced runtime.itemsPerOwner (ownerKey owner) runtimeId decisions db
      db₁ db' := by
  rw [syncDecisions, returns_transaction] at h
  obtain ⟨counts₁, db₁, hLoop, h⟩ := returns_bind.mp h
  rw [returns_query_bind] at h
  obtain ⟨rows, hRows, h⟩ := h
  obtain rfl := Except.ok.inj hRows
  obtain ⟨_, db₂, hResolve, h⟩ := returns_bind.mp h
  obtain rfl := (returns_pure.mp h).2
  obtain ⟨db₃, hReturns, hOthers, hResolved, hKept⟩ := returns_resolve
    (fun row hRow => (mem_vanished.mp hRow).1) (@nodup_vanished
      (ownerKey owner) runtimeId decisions db₁)
  -- the loop has one outcome
  obtain rfl : db₃ = db' :=
    (Prod.mk.inj (hReturns.symm.trans hResolve)).2
  exact ⟨db₁, looped_of_returns hDistinct hLoop, hResolved, hOthers, hKept _⟩

theorem Synced.found_keyOf
    (h : Synced quota owner runtimeId decisions db db₁ db')
    (hMem : d ∈ decisions) :
    found db' (keyOf owner runtimeId d) =
      found db₁ (keyOf owner runtimeId d) := by
  refine h.others _ fun hVanished => ?_
  obtain ⟨row, hRow, hEvent⟩ := List.mem_map.mp hVanished
  obtain ⟨-, -, -, -, -, hGone⟩ := mem_vanished.mp hRow
  have hSource : row.eventId = d.sourceId :=
    (Prod.mk.inj (Prod.mk.inj hEvent).2).2
  exact hGone (hSource ▸ List.mem_map_of_mem hMem)

theorem Synced.outcome (h : Synced quota owner runtimeId decisions db db₁ db')
    (hMem : d ∈ decisions) :
    Outcome quota owner runtimeId decisions db db' d := by
  have hFound := h.found_keyOf hMem
  cases hStored : storedDecision db owner runtimeId d.sourceId with
  | some row =>
      rcases h.looped.stored d hMem row hStored with
        ⟨hSame, hAfter⟩ | ⟨hKept, hChanged, n, hAfter⟩
      · exact .same row hStored hSame (hFound.trans hAfter)
      · exact .changed row n hStored hKept hChanged (hFound.trans hAfter)
  | none =>
      by_cases hAdmitted : d ∈ admitted quota db owner runtimeId decisions
      · obtain ⟨hFree, time, id, n, hAfter⟩ := h.looped.created d hAdmitted
        exact .created time id n hStored hAdmitted hFree (hFound.trans hAfter)
      · refine .skipped hStored hAdmitted (hFound.trans ?_)
        refine h.looped.skipped d (List.mem_filter.mpr ⟨hMem, ?_⟩) hAdmitted
        rw [hStored]
        rfl

/-- Afterwards no open decision is left that the set does not have. -/
theorem Synced.vanished_eq_nil
    (h : Synced quota owner runtimeId decisions db db₁ db') :
    vanished db' owner runtimeId decisions = [] := by
  refine List.eq_nil_iff_forall_not_mem.mpr fun row hRow => ?_
  obtain ⟨hFound, hOpen⟩ := mem_vanished.mp hRow
  by_cases hBefore :
      row.event ∈ (vanished db₁ owner runtimeId decisions).map ItemRow.event
  · obtain ⟨old, hOld, hEvent⟩ := List.mem_map.mp hBefore
    obtain ⟨n, hResolved⟩ := h.resolved old hOld
    rw [hEvent, hFound] at hResolved
    have hState := hOpen.2.2.2.1
    rw [Option.some.inj hResolved] at hState
    cases hState
  · rw [h.others _ hBefore] at hFound
    exact hBefore (List.mem_map_of_mem (mem_vanished.mpr ⟨hFound, hOpen⟩))

/-! ## When the call does what it is for -/

/-- No message stands under the source id of a decision that is new and fits
the quota, and an open stored decision of a published digest has the
published content. -/
structure Clear (quota : Nat) (owner runtimeId : JsString)
    (decisions : List InboxDecision) (db : Db) : Prop where
  free : ∀ d ∈ admitted quota db owner runtimeId decisions,
    db.items.byOther? (owner, runtimeId, d.sourceId) = none
  digests : ∀ d ∈ decisions, ∀ row ∈ db.items.rows,
    IsOpen owner runtimeId row → row.eventId = d.sourceId →
    row.digest = d.digest → Shows runtimeId row d

theorem shows_decided {row : ItemRow} {n : Nat}
    (hEvent : row.eventId = d.sourceId) :
    Shows runtimeId (row.decided d runtimeId n) d :=
  ⟨hEvent, rfl, rfl, rfl, rfl, rfl, rfl, rfl, rfl⟩

theorem shows_decisionRow {time : Time} {id : JsString} {n : Nat} :
    Shows runtimeId (decisionRow time id owner runtimeId d n) d :=
  ⟨rfl, rfl, rfl, rfl, rfl, rfl, rfl, rfl, rfl⟩

theorem isOpen_of_current {row : ItemRow}
    (hStored : storedDecision db owner runtimeId d.sourceId = some row)
    (hKept : row.deleted = none) (hState : row.state = .opened) :
    IsOpen owner runtimeId row := by
  obtain ⟨-, hEvent⟩ := key_of_storedDecision hStored
  exact ⟨(Prod.mk.inj hEvent).1, (Prod.mk.inj (Prod.mk.inj hEvent).2).1,
    (storedDecision_eq_some.mp hStored).2, hState, hKept⟩

theorem eventId_of_storedDecision {row : ItemRow}
    (h : storedDecision db owner runtimeId d.sourceId = some row) :
    row.eventId = d.sourceId :=
  (Prod.mk.inj (Prod.mk.inj (key_of_storedDecision h).2).2).2

/-- A current row is open under the published digest. -/
theorem of_isCurrent {row : ItemRow} (h : isCurrent row d = true) :
    row.digest = d.digest ∧ row.state = .opened :=
  of_decide_eq_true h

theorem Synced.shown (h : Synced quota owner runtimeId decisions db db₁ db')
    (hClear : Clear quota owner runtimeId decisions db)
    (hWanted : Wanted quota db owner runtimeId decisions d) :
    ∃ row ∈ db'.items.rows, IsOpen owner runtimeId row ∧
      Shows runtimeId row d := by
  obtain ⟨hMem, hKeep⟩ := hWanted
  cases h.outcome hMem with
  | same row hStored hSame hFound =>
      rw [hStored] at hKeep
      have hKept : row.deleted = none := hKeep
      obtain ⟨hDigest, hState⟩ := of_isCurrent (hSame.resolve_left (by
        rw [hKept]
        exact Bool.false_ne_true))
      have hOpen := isOpen_of_current hStored hKept hState
      exact ⟨row, (found_eq_some_iff.mp hFound).1, hOpen,
        hClear.digests d hMem row (key_of_storedDecision hStored).1 hOpen
          (eventId_of_storedDecision hStored) hDigest⟩
  | changed row n hStored hKept hChanged hFound =>
      obtain ⟨-, hEvent⟩ := key_of_storedDecision hStored
      exact ⟨_, (found_eq_some_iff.mp hFound).1,
        ⟨(Prod.mk.inj hEvent).1, (Prod.mk.inj (Prod.mk.inj hEvent).2).1,
          (storedDecision_eq_some.mp hStored).2, rfl, hKept⟩,
        shows_decided (eventId_of_storedDecision hStored)⟩
  | created time id n hNew hAdmitted hFree hFound =>
      exact ⟨_, (found_eq_some_iff.mp hFound).1, ⟨rfl, rfl, rfl, rfl, rfl⟩,
        shows_decisionRow⟩
  | skipped hNew hOut hFound =>
      rw [hNew] at hKeep
      exact absurd hKeep hOut

theorem Synced.only (h : Synced quota owner runtimeId decisions db db₁ db')
    (hClear : Clear quota owner runtimeId decisions db) {row : ItemRow}
    (hRow : row ∈ db'.items.rows) (hOpen : IsOpen owner runtimeId row) :
    ∃ d, Wanted quota db owner runtimeId decisions d ∧
      Shows runtimeId row d := by
  by_cases hSource : row.eventId ∈ decisions.map InboxDecision.sourceId
  · obtain ⟨d, hMem, hEq⟩ := List.mem_map.mp hSource
    have hFound : found db' (keyOf owner runtimeId d) = some row :=
      found_eq_some_iff.mpr ⟨hRow, by
        rw [ItemRow.event, hOpen.owned, hOpen.runtime, ← hEq]⟩
    have hWanted : Wanted quota db owner runtimeId decisions d := by
      refine ⟨hMem, ?_⟩
      cases h.outcome hMem with
      | same old hStored hSame hAfter =>
          rw [hStored]
          exact Option.some.inj (hFound.symm.trans hAfter) ▸ hOpen.kept
      | changed old n hStored hKept hChanged hAfter =>
          rw [hStored]
          exact hKept
      | created time id n hNew hAdmitted hFree hAfter =>
          rw [hNew]
          exact hAdmitted
      | skipped hNew hOut hAfter =>
          have hMessage := storedDecision_eq_none.mp hNew row
            (hAfter.symm.trans hFound)
          rw [hOpen.kind] at hMessage
          cases hMessage
    obtain ⟨shown, hShown, hShownOpen, hShows⟩ := h.shown hClear hWanted
    have hSame : shown = row := by
      refine Rows.eq_of_other hShown hRow ?_
      rw [ItemRow.event, ItemRow.event, hShownOpen.owned, hShownOpen.runtime,
        hShows.source, hOpen.owned, hOpen.runtime, hEq]
    exact ⟨d, hWanted, hSame ▸ hShows⟩
  · have hLeft : row ∈ vanished db' owner runtimeId decisions :=
      mem_vanished.mpr ⟨found_eq_some_iff.mpr ⟨hRow, rfl⟩, hOpen.owned,
        hOpen.runtime, hOpen.kind, hOpen.state, hSource⟩
    rw [h.vanished_eq_nil] at hLeft
    cases hLeft

/-- The rows under the key of a decision of the set are decisions before and
after, or the same. -/
theorem Outcome.found_message (h : Outcome quota owner runtimeId decisions db
    db' d) {row : ItemRow} (hKind : row.kind = .message) :
    found db' (keyOf owner runtimeId d) = some row ↔
      found db (keyOf owner runtimeId d) = some row := by
  have hDecision : ∀ {old : ItemRow} {key : EventKey} {db : Db},
      found db key = some old → old.kind = .decision →
        found db key ≠ some row := by
    intro old key db hOld hOldKind hRow
    rw [Option.some.inj (hOld.symm.trans hRow), hKind] at hOldKind
    cases hOldKind
  cases h with
  | same old hStored hSame hFound =>
      rw [hFound, (storedDecision_eq_some.mp hStored).1]
  | changed old n hStored hKept hChanged hFound =>
      obtain ⟨hOld, hOldKind⟩ := storedDecision_eq_some.mp hStored
      exact iff_of_false (hDecision hFound hOldKind) (hDecision hOld hOldKind)
  | created time id n hNew hAdmitted hFree hFound =>
      rw [hFree]
      exact iff_of_false (hDecision hFound rfl) (nomatch ·)
  | skipped hNew hOut hFound => rw [hFound]

theorem Synced.others_iff
    (h : Synced quota owner runtimeId decisions db db₁ db') {row : ItemRow}
    (hOther : IsOther owner runtimeId row) :
    row ∈ db'.items.rows ↔ row ∈ db.items.rows := by
  have hMessage : row.owner = owner → row.runtimeId = runtimeId →
      row.kind = .message := fun hOwner hRuntime =>
    (hOther.resolve_left (not_not.mpr hOwner)).resolve_left
      (not_not.mpr hRuntime)
  have hMem : ∀ {db : Db}, row ∈ db.items.rows ↔
      found db row.event = some row := fun {db} => by
    rw [found_eq_some_iff, and_iff_left rfl]
  rw [hMem, hMem]
  by_cases hKey : ∃ d ∈ decisions, row.event = keyOf owner runtimeId d
  · obtain ⟨d, hD, hEvent⟩ := hKey
    have hKind := hMessage (Prod.mk.inj hEvent).1
      (Prod.mk.inj (Prod.mk.inj hEvent).2).1
    rw [hEvent]
    exact (h.outcome hD).found_message hKind
  · have hBefore : found db₁ row.event = found db row.event :=
      h.looped.others _ fun d hD hEvent => hKey ⟨d, hD, hEvent⟩
    by_cases hGone :
        row.event ∈ (vanished db₁ owner runtimeId decisions).map ItemRow.event
    · obtain ⟨old, hOld, hEvent⟩ := List.mem_map.mp hGone
      obtain ⟨hFound, hOwner, hRuntime, hOldKind, -⟩ := mem_vanished.mp hOld
      obtain ⟨n, hAfter⟩ := h.resolved old hOld
      have hKind := hMessage
        ((Prod.mk.inj hEvent).1.symm.trans hOwner)
        ((Prod.mk.inj (Prod.mk.inj hEvent).2).1.symm.trans hRuntime)
      rw [← hBefore, ← hEvent, hAfter, hFound]
      refine iff_of_false ?_ ?_
      · intro hSame
        rw [← Option.some.inj hSame] at hKind
        rw [ItemRow.resolve, hOldKind] at hKind
        cases hKind
      · intro hSame
        rw [← Option.some.inj hSame, hOldKind] at hKind
        cases hKind
    · rw [h.others _ hGone, hBefore]

theorem Synced.converged
    (h : Synced quota owner runtimeId decisions db db₁ db')
    (hClear : Clear quota owner runtimeId decisions db) :
    Converged quota owner runtimeId decisions db db' where
  shown := fun _ hWanted => h.shown hClear hWanted
  only := fun _ hRow hOpen => h.only hClear hRow hOpen
  others := fun _ hOther => h.others_iff hOther

/-! ## The same call again -/

/-- A decision that a turn of the loop leaves as it is. -/
def IsIdle (quota : Nat) (owner runtimeId : JsString) (db : Db)
    (d : InboxDecision) : Prop :=
  (∃ row, storedDecision db owner runtimeId d.sourceId = some row ∧
    (row.deleted.isSome = true ∨ isCurrent row d = true)) ∨
  (storedDecision db owner runtimeId d.sourceId = none ∧
    quota ≤ keptCount db owner)

theorem syncDecision_idle
    (h : IsIdle runtime.itemsPerOwner owner runtimeId db d) :
    ∃ skipped, Returns (syncDecision runtime now ids owner runtimeId d counts)
      db { counts with skipped := skipped } db := by
  rcases h with ⟨row, hStored, hSame⟩ | ⟨hNew, hFull⟩
  · refine ⟨counts.skipped, ?_⟩
    rw [syncDecision, returns_query_bind]
    refine ⟨_, rfl, ?_⟩
    rw [hStored]
    dsimp only
    rw [updateDecision, if_pos (Bool.or_eq_true_iff.mpr hSame)]
    exact returns_pure.mpr ⟨rfl, rfl⟩
  · refine ⟨counts.skipped + 1, ?_⟩
    rw [syncDecision, returns_query_bind]
    refine ⟨_, rfl, ?_⟩
    rw [hNew]
    dsimp only
    rw [returns_query_bind]
    refine ⟨_, rfl, ?_⟩
    have hRoom : isFull runtime db owner = true := decide_eq_true hFull
    rw [createDecision, if_pos hRoom]
    exact returns_pure.mpr ⟨rfl, rfl⟩

theorem syncLoop_idle
    (h : ∀ d ∈ decisions, IsIdle runtime.itemsPerOwner owner runtimeId db d) :
    ∃ skipped,
      Returns (syncLoop runtime owner runtimeId now ids decisions counts) db
        { counts with skipped := skipped } db := by
  induction decisions generalizing now ids counts with
  | nil => exact ⟨counts.skipped, returns_pure.mpr ⟨rfl, rfl⟩⟩
  | cons decision decisions ih =>
      obtain ⟨skipped, hFirst⟩ := @syncDecision_idle runtime now ids owner
        runtimeId decision counts db (h decision List.mem_cons_self)
      obtain ⟨skipped', hRest⟩ := @ih (fun i => now (i + 3))
        (fun i => ids (i + 2)) { counts with skipped := skipped }
        fun d hMem => h d (List.mem_cons_of_mem _ hMem)
      exact ⟨skipped', returns_bind.mpr ⟨_, db, hFirst, hRest⟩⟩

/-- A call that has nothing to do only counts what it skips. -/
theorem syncDecisions_idle {owner : Owner}
    (h : ∀ d ∈ decisions,
      IsIdle runtime.itemsPerOwner (ownerKey owner) runtimeId db d)
    (hVanished : vanished db (ownerKey owner) runtimeId decisions = []) :
    ∃ skipped,
      syncDecisions runtime now ids owner runtimeId decisions db =
        (.ok { skipped := skipped }, db) := by
  obtain ⟨skipped, hLoop⟩ := @syncLoop_idle runtime now ids _ runtimeId
    decisions {} db h
  refine ⟨skipped, ?_⟩
  rw [← Returns, syncDecisions, returns_transaction]
  refine returns_bind.mpr ⟨_, db, hLoop, ?_⟩
  rw [returns_query_bind]
  refine ⟨_, rfl, returns_bind.mpr ⟨(), db, ?_, ?_⟩⟩
  · rw [hVanished]
    exact returns_pure.mpr ⟨rfl, rfl⟩
  · rw [hVanished]
    exact returns_pure.mpr ⟨rfl, rfl⟩

/-- The inbox of a decision that was skipped is full. -/
theorem Synced.full (h : Synced quota owner runtimeId decisions db db₁ db')
    (hNew : d ∈ news db owner runtimeId decisions)
    (hOut : d ∉ admitted quota db owner runtimeId decisions) :
    quota ≤ keptCount db' owner := by
  have hLess : quota - keptCount db owner <
      (news db owner runtimeId decisions).length := by
    by_contra hAll
    rw [admitted, List.take_of_length_le (Nat.le_of_not_lt hAll)] at hOut
    exact hOut hNew
  rw [h.kept, h.looped.kept, admitted, List.length_take]
  omega

theorem Synced.idle (h : Synced quota owner runtimeId decisions db db₁ db')
    (hMem : d ∈ decisions) : IsIdle quota owner runtimeId db' d := by
  cases h.outcome hMem with
  | same row hStored hSame hFound =>
      exact .inl ⟨row, storedDecision_eq_some.mpr
        ⟨hFound, (storedDecision_eq_some.mp hStored).2⟩, hSame⟩
  | changed row n hStored hKept hChanged hFound =>
      exact .inl ⟨_, storedDecision_eq_some.mpr
        ⟨hFound, (storedDecision_eq_some.mp hStored).2⟩,
        .inr (decide_eq_true ⟨rfl, rfl⟩)⟩
  | created time id n hNew hAdmitted hFree hFound =>
      exact .inl ⟨_, storedDecision_eq_some.mpr ⟨hFound, rfl⟩,
        .inr (decide_eq_true ⟨rfl, rfl⟩)⟩
  | skipped hNew hOut hFound =>
      refine .inr ⟨?_, h.full (List.mem_filter.mpr ⟨hMem, ?_⟩) hOut⟩
      · rw [← hNew, storedDecision, storedDecision]
        exact congrArg (Option.filter _) hFound
      · rw [hNew]
        rfl

/-! ## The condition is exact -/

theorem Synced.clear (h : Synced quota owner runtimeId decisions db db₁ db')
    (hConverged : Converged quota owner runtimeId decisions db db') :
    Clear quota owner runtimeId decisions db where
  free := fun d hMem => (h.looped.created d hMem).1
  digests := by
    intro d hMem row hRow hOpen hSource hDigest
    have hStored : storedDecision db owner runtimeId d.sourceId = some row := by
      refine storedDecision_eq_some.mpr
        ⟨found_eq_some_iff.mpr ⟨hRow, ?_⟩, hOpen.kind⟩
      rw [ItemRow.event, hOpen.owned, hOpen.runtime, hSource]
    obtain ⟨shown, hShown, hShownOpen, hShows⟩ := hConverged.shown d
      ⟨hMem, by rw [hStored]; exact hOpen.kept⟩
    have hCurrent : isCurrent row d = true :=
      decide_eq_true ⟨hDigest, hOpen.state⟩
    cases h.outcome hMem with
    | same old hOld hSame hFound =>
        obtain rfl := Option.some.inj (hStored.symm.trans hOld)
        have hAgain : shown = row := by
          refine Rows.eq_of_other hShown (found_eq_some_iff.mp hFound).1 ?_
          rw [ItemRow.event, ItemRow.event, hShownOpen.owned,
            hShownOpen.runtime, hShows.source, hOpen.owned, hOpen.runtime,
            hSource]
        exact hAgain ▸ hShows
    | changed old n hOld hKept hChanged hFound =>
        obtain rfl := Option.some.inj (hStored.symm.trans hOld)
        rw [hCurrent] at hChanged
        cases hChanged
    | created time id n hNew hAdmitted hFree hFound =>
        rw [hNew] at hStored
        cases hStored
    | skipped hNew hOut hFound =>
        rw [hNew] at hStored
        cases hStored

/-- **When publishing the decisions of a runtime converges.** -/
theorem syncsRight_iff {owner : Owner}
    (hDistinct : (decisions.map InboxDecision.sourceId).Nodup)
    (hFresh : Fresh ids db) :
    SyncsRight runtime now ids owner runtimeId decisions db ↔
      Clear runtime.itemsPerOwner (ownerKey owner) runtimeId decisions db := by
  constructor
  · rintro ⟨counts, db', hRun, hConverged, -⟩
    obtain ⟨db₁, hSynced⟩ := synced_of_returns hDistinct hRun
    exact hSynced.clear hConverged
  · intro hClear
    obtain ⟨counts, db', hReturns⟩ :=
      @returns_syncDecisions runtime now ids runtimeId decisions db owner
        hDistinct hFresh hClear.free
    obtain ⟨db₁, hSynced⟩ := synced_of_returns hDistinct hReturns
    exact ⟨counts, db', hReturns, hSynced.converged hClear,
      fun now' ids' => syncDecisions_idle (fun d hMem => hSynced.idle hMem)
        hSynced.vanished_eq_nil⟩

end Call

/-! ## The inbox after any calls -/

def sampleDecision : InboxDecision where
  sourceId := js "question:1"
  type := .question
  digest := js "digest"
  podId := none
  podName := none
  podTags := none
  title := js "Which one?"
  body := js "Both fit."
  authority := .pods
  options := []
  link := none

/-- The inbox after the message is published. -/
def messageTurns : List Turn :=
  [⟨.publish sampleOwner (js "runtime") samplePublication, sampleClock,
    sampleDraws 98⟩]

theorem fresh_messageTurns :
    Fresh (sampleDraws 97) (run (inbox sampleRuntime) messageTurns {}) where
  injective := fun i j hEq => by
    have hLength := congrArg List.length hEq
    simpa [sampleDraws] using hLength
  items := by
    intro i row hRow hEq
    have hIds : (run (inbox sampleRuntime) messageTurns {}).items.rows.map
        ItemRow.id = [[98]] := by decide
    have hMem := List.mem_map_of_mem (f := ItemRow.id) hRow
    rw [hIds, hEq, List.mem_singleton] at hMem
    exact absurd (List.cons.inj hMem).1 (by decide)
  outbox := by
    intro i
    refine List.find?_eq_none.mpr fun row hRow hEq => ?_
    have hIds : (run (inbox sampleRuntime) messageTurns {}).outbox.rows.map
        OutboxRow.id = [[98, 98]] := by decide
    have hMem := List.mem_map_of_mem (f := OutboxRow.id) hRow
    rw [hIds, of_decide_eq_true hEq, List.mem_singleton] at hMem
    exact absurd (List.cons.inj hMem).1 (by decide)

end OpenApe.Ports.InboxDecisions
