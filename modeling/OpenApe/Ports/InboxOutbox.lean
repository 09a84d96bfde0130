import OpenApe.Ports.InboxRuns

/-!
# The outbox of the inbox store

What a pending entry of the outbox is about, in every state that calls reach,
and how many items and entries there are.  A dispatcher settles the entries
it has claimed; `dispatched` keeps both lists of claims that a condition on
it may speak of.
-/

namespace OpenApe.Ports.InboxOutbox

open Verified.JsText Verified.KeyedTable Verified.Machine Verified.Transactions
open InboxStore InboxRuns
open WorkspaceStore (Owner ownerKey)

/-! ## The dispatcher -/

/-- The store, the entries ever claimed, and those claimed since they were
last settled. -/
structure State where
  db : Db := {}
  claimed : List JsString := []
  awaiting : List JsString := []

/-- The entries that an answer hands out. -/
def Answer.claims : Answer → List JsString
  | .claimed entries => entries.map OutboxEntry.id
  | .batches batches => batches.flatten.map OutboxEntry.id
  | _ => []

def resultClaims : Except InboxError Answer → List JsString
  | .ok answer => Answer.claims answer
  | .error _ => []

/-- One call, with what it claims and settles. -/
def dispatched (runtime : InboxRuntime) :
    Machine State Turn (Except InboxError Answer) := fun turn s =>
  let (result, db) := inbox runtime turn s.db
  (result, {
    db := db
    claimed := s.claimed ++ resultClaims result
    awaiting := (s.awaiting.filter fun id => id ∉ turn.call.settles) ++
      resultClaims result })

/-- Only entries are settled that were claimed before. -/
def SettlesClaimed (s : State) (turn : Turn) : Prop :=
  ∀ id ∈ turn.call.settles, id ∈ s.claimed

/-- Only entries are settled that were claimed since they were last
settled. -/
def SettlesAwaiting (s : State) (turn : Turn) : Prop :=
  ∀ id ∈ turn.call.settles, id ∈ s.awaiting

/-! ## What is promised -/

/-- Every pending entry is about an undeleted item, a message or an open
decision. -/
def Announces (db : Db) : Prop :=
  ∀ entry ∈ db.outbox.rows, entry.state = .pending →
    ∃ row ∈ db.items.rows, row.id = entry.itemId ∧ row.deleted = none ∧
      (row.kind = .message ∨ row.state = .opened)

/-- No owner has more undeleted items than the quota. -/
def WithinQuota (quota : Nat) (db : Db) : Prop :=
  ∀ owner, keptCount db owner ≤ quota

/-- No two entries are about the same item. -/
def OneEach (db : Db) : Prop := (db.outbox.rows.map OutboxRow.itemId).Nodup

/-- A new entry is about a new item. -/
def EntersWithItem (db db' : Db) : Prop :=
  ∀ entry ∈ db'.outbox.rows,
    (∃ old ∈ db.outbox.rows, old.id = entry.id ∧ old.itemId = entry.itemId) ∨
    ∀ row ∈ db.items.rows, row.id ≠ entry.itemId

/-! ## What every change keeps -/

/-- Every entry is about an item that is there, and no two about the same. -/
structure Tied (db : Db) : Prop where
  item : ∀ entry ∈ db.outbox.rows, ∃ row ∈ db.items.rows,
    row.id = entry.itemId
  oneEach : OneEach db

/-- An item that a pending entry may be about, tombstones among them. -/
def MayPend (row : ItemRow) : Prop :=
  row.deleted.isSome = true ∨ row.kind = .message ∨ row.state = .opened

/-- The pending entries are about items of a kind. -/
def PendingOn (p : ItemRow → Prop) (db : Db) : Prop :=
  ∀ entry ∈ db.outbox.rows, entry.state = .pending →
    ∀ row ∈ db.items.rows, row.id = entry.itemId → p row

/-- What a call does to the entries of the outbox. -/
structure Enters (call : InboxCall) (db db' : Db) : Prop where
  entries : ∀ entry ∈ db'.outbox.rows,
    (∃ old ∈ db.outbox.rows, old.id = entry.id ∧
      old.itemId = entry.itemId) ∨
    (call.Adds ∧ ∀ row ∈ db.items.rows, row.id ≠ entry.itemId)
  others : ∀ entry ∈ db'.outbox.rows, entry.id ∉ call.settles →
    entry ∈ db.outbox.rows ∨ entry.state = .pending
  items : call.Adds → ∀ row ∈ db.items.rows, ∃ row' ∈ db'.items.rows,
    row'.id = row.id

section Changes

variable {quota : Nat} {call : InboxCall} {db db' db'' : Db}
  {id : JsString} {f : ItemRow → ItemRow}
  {hf : ∀ row, (f row).id = row.id}
  {hEvent : ∀ row, (f row).event = row.event}

theorem announces_of (hTied : Tied db) (hMay : PendingOn MayPend db)
    (hClean : PendingOn (fun row => row.deleted = none) db) :
    Announces db := by
  intro entry hEntry hPending
  obtain ⟨row, hRow, hId⟩ := hTied.item entry hEntry
  have hKept := hClean entry hEntry hPending row hRow hId
  refine ⟨row, hRow, hId, hKept,
    (hMay entry hEntry hPending row hRow hId).resolve_left ?_⟩
  rw [hKept]
  exact Bool.false_ne_true

/-- An insertion leaves every other row and takes a new id. -/
theorem mem_insert {items : Items} {row row' : ItemRow}
    (h : db.items.insert? row = some items) :
    row' ∈ items.rows ↔ row' ∈ db.items.rows ∨ row' = row := by
  rw [(Rows.insert?_eq_some.mp h).2, List.mem_append, List.mem_singleton]

theorem exists_changeItem {row : ItemRow} (h : row ∈ db.items.rows) :
    ∃ row' ∈ (Db.changeItem db id f hf hEvent).items.rows,
      row'.id = row.id := by
  refine ⟨_, mem_changeItem.mpr ⟨row, h, rfl⟩, ?_⟩
  split_ifs
  · exact hf row
  · rfl

theorem tied_keep (h : Tied db) (p : OutboxRow → Bool) {items : Items}
    {n : Nat} (hItems : ∀ row ∈ db.items.rows, ∃ row' ∈ items.rows,
      row'.id = row.id) :
    Tied { sequence := n, items := items, outbox := db.outbox.keep p } where
  item := by
    intro entry hEntry
    obtain ⟨row, hRow, hId⟩ := h.item entry (List.mem_of_mem_filter hEntry)
    obtain ⟨row', hRow', hSame⟩ := hItems row hRow
    exact ⟨row', hRow', hSame.trans hId⟩
  oneEach := h.oneEach.sublist (List.filter_sublist.map OutboxRow.itemId)

theorem tied_changeItem (h : Tied db) :
    Tied (Db.changeItem db id f hf hEvent) where
  item := by
    intro entry hEntry
    obtain ⟨row, hRow, hId⟩ := h.item entry hEntry
    obtain ⟨row', hRow', hSame⟩ := @exists_changeItem db id f hf hEvent row hRow
    exact ⟨row', hRow', hSame.trans hId⟩
  oneEach := h.oneEach

/-- The database after an entry is settled. -/
abbrev afterSettled (db : Db) (outcome : PushOutcome) (now : Time)
    (entryId : JsString) : Db :=
  { db with
    outbox := db.outbox.update (fun row => row.id = entryId)
      (OutboxRow.settled outcome now) (OutboxRow.settled_id outcome now) }

theorem mem_afterSettled {outcome : PushOutcome} {now : Time}
    {entryId : JsString} {entry : OutboxRow} :
    entry ∈ (afterSettled db outcome now entryId).outbox.rows ↔
      ∃ old ∈ db.outbox.rows,
        (if old.id = entryId then old.settled outcome now else old) =
          entry := by
  refine List.mem_map.trans (exists_congr fun old => ?_)
  simp only [decide_eq_true_eq]

theorem tied_settled (h : Tied db) (outcome : PushOutcome) (now : Time)
    (entryId : JsString) : Tied (afterSettled db outcome now entryId) where
  item := by
    intro entry hEntry
    obtain ⟨old, hOld, rfl⟩ := mem_afterSettled.mp hEntry
    split
    · exact h.item old hOld
    · exact h.item old hOld
  oneEach := by
    have hSame : (db.outbox.rows.map fun row =>
        if (decide (row.id = entryId)) = true then
          row.settled outcome now else row).map OutboxRow.itemId =
        db.outbox.rows.map OutboxRow.itemId := by
      rw [List.map_map]
      refine List.map_congr_left fun row _ => ?_
      rw [Function.comp_apply]
      split
      · rfl
      · rfl
    have hBefore := h.oneEach
    rw [OneEach, ← hSame] at hBefore
    exact hBefore

theorem Tied.change (h : Tied db) (hChange : Change quota call db db') :
    Tied db' := by
  cases hChange with
  | added row entry items hAdds hRoom hInsert hEntry hSequence hState hKept
      hItem =>
      have hRows := Table.rows_put_of_none hEntry
      have hFree := (Rows.insert?_eq_some.mp hInsert).1
      constructor
      · intro entry' hMem
        rw [hRows, List.mem_append, List.mem_singleton] at hMem
        rcases hMem with hOld | rfl
        · obtain ⟨row', hRow', hId⟩ := h.item entry' hOld
          exact ⟨row', (mem_insert hInsert).mpr (.inl hRow'), hId⟩
        · exact ⟨row, (mem_insert hInsert).mpr (.inr rfl), hItem.symm⟩
      · rw [OneEach, hRows]
        refine Rows.nodup_append_singleton h.oneEach fun old hOld hSame => ?_
        obtain ⟨row', hRow', hId⟩ := h.item old hOld
        exact (hFree row' hRow').1 (hId.trans (hSame.trans hItem))
  | decided id decision runtimeId => exact tied_changeItem h
  | resolved id => exact tied_keep h _ fun row hRow => exists_changeItem hRow
  | deleted id moment => exact tied_changeItem h
  | flagged id moment change => exact tied_changeItem h
  | dropped p => exact tied_keep h p fun row hRow => ⟨row, hRow, rfl⟩
  | purged p hRetain hDeleted hFree =>
      refine ⟨fun entry hEntry => ?_, h.oneEach⟩
      obtain ⟨row, hRow, hId⟩ := h.item entry hEntry
      refine ⟨row, Rows.mem_keep.mpr ⟨hRow, ?_⟩, hId⟩
      by_contra hGone
      have hSome := hDeleted row hRow (Bool.not_eq_true _ ▸ hGone)
      rw [hFree entry hEntry row hRow hId] at hSome
      cases hSome
  | settled outcome now entryId => exact tied_settled h outcome now entryId

/-! ## Pending entries -/

theorem pendingOn_changeItem {p : ItemRow → Prop} (h : PendingOn p db)
    (hKeeps : ∀ row, p row → p (f row)) :
    PendingOn p (Db.changeItem db id f hf hEvent) := by
  intro entry hEntry hPending row hRow hId
  obtain ⟨old, hOld, rfl⟩ := mem_changeItem.mp hRow
  split_ifs at hId ⊢
  · exact hKeeps old (h entry hEntry hPending old hOld ((hf old).symm.trans hId))
  · exact h entry hEntry hPending old hOld hId

/-- A changed item whose pending entries are dropped. -/
theorem pendingOn_dropped {p : ItemRow → Prop} (h : PendingOn p db) :
    PendingOn p { Db.changeItem db id f hf hEvent with
      outbox := db.outbox.keep fun entry =>
        !(decide (entry.itemId = id) && decide (entry.state = .pending)) } := by
  intro entry hEntry hPending row hRow hId
  obtain ⟨hMem, hStays⟩ := List.mem_filter.mp hEntry
  rw [hPending, decide_eq_true rfl, Bool.and_true, Bool.not_eq_true',
    decide_eq_false_iff_not] at hStays
  obtain ⟨old, hOld, rfl⟩ := (@mem_changeItem db id f hf hEvent row).mp hRow
  split_ifs at hId ⊢ with hSame
  · exact absurd (((hf old).symm.trans hId).symm.trans hSame) hStays
  · exact h entry hMem hPending old hOld hId

theorem pendingOn_added {p : ItemRow → Prop} (h : PendingOn p db) {row : ItemRow}
    {entry : OutboxRow} {items : Items} {n : Nat}
    (hInsert : db.items.insert? row = some items)
    (hEntry : db.outbox.find? entry.id = none)
    (hItem : entry.itemId = row.id) (hRow : p row) :
    PendingOn p { sequence := n, items := items,
                  outbox := db.outbox.put entry } := by
  have hFree := (Rows.insert?_eq_some.mp hInsert).1
  intro entry' hMem hPending row' hRow' hId
  change entry' ∈ (db.outbox.put entry).rows at hMem
  rw [Table.rows_put_of_none hEntry, List.mem_append, List.mem_singleton]
    at hMem
  rcases (mem_insert hInsert).mp hRow' with hOldRow | rfl
  · rcases hMem with hOld | rfl
    · exact h entry' hOld hPending row' hOldRow hId
    · exact absurd (hId.trans hItem) (hFree row' hOldRow).1
  · exact hRow

/-- Changes that settle nothing keep what the pending entries are about. -/
theorem mayPend_change (h : PendingOn MayPend db)
    (hChange : Change quota call db db') (hSettles : call.settles = []) :
    PendingOn MayPend db' := by
  cases hChange with
  | added row entry items hAdds hRoom hInsert hEntry hSequence hState hKept
      hItem =>
      exact pendingOn_added h hInsert hEntry hItem (.inr (.inr hState))
  | decided id decision runtimeId =>
      exact pendingOn_changeItem h fun _ _ => .inr (.inr rfl)
  | resolved id => exact pendingOn_dropped h
  | deleted id moment => exact pendingOn_changeItem h fun _ _ => .inl rfl
  | flagged id moment change => exact pendingOn_changeItem h fun _ hRow => hRow
  | dropped p =>
      exact fun entry hEntry => h entry (List.mem_of_mem_filter hEntry)
  | purged p =>
      exact fun entry hEntry hPending row hRow =>
        h entry hEntry hPending row (Rows.mem_keep.mp hRow).1
  | settled outcome now entryId hMem =>
      rw [hSettles] at hMem
      cases hMem

theorem kept_change (h : PendingOn (fun row => row.deleted = none) db)
    (hChange : Change quota call db db') (hSettles : call.settles = [])
    (hDeletes : ¬call.Deletes) :
    PendingOn (fun row => row.deleted = none) db' := by
  cases hChange with
  | added row entry items hAdds hRoom hInsert hEntry hSequence hState hKept
      hItem =>
      exact pendingOn_added h hInsert hEntry hItem hKept
  | decided id decision runtimeId =>
      exact pendingOn_changeItem h fun _ hRow => hRow
  | resolved id => exact pendingOn_dropped h
  | deleted id moment hDelete => exact absurd hDelete hDeletes
  | flagged id moment change => exact pendingOn_changeItem h fun _ hRow => hRow
  | dropped p =>
      exact fun entry hEntry => h entry (List.mem_of_mem_filter hEntry)
  | purged p =>
      exact fun entry hEntry hPending row hRow =>
        h entry hEntry hPending row (Rows.mem_keep.mp hRow).1
  | settled outcome now entryId hMem =>
      rw [hSettles] at hMem
      cases hMem

/-! ## Entries of the outbox -/

theorem Enters.refl : Enters call db db :=
  ⟨fun entry hEntry => .inl ⟨entry, hEntry, rfl, rfl⟩,
    fun _ hEntry _ => .inl hEntry, fun _ row hRow => ⟨row, hRow, rfl⟩⟩

theorem Enters.trans (h : Enters call db db') (h' : Enters call db' db'') :
    Enters call db db'' where
  entries := by
    intro entry hEntry
    rcases h'.entries entry hEntry with ⟨old, hOld, hId, hItem⟩ | ⟨hAdds, hNew⟩
    · rw [← hId, ← hItem]
      exact h.entries old hOld
    · refine .inr ⟨hAdds, fun row hRow hSame => ?_⟩
      obtain ⟨row', hRow', hId⟩ := h.items hAdds row hRow
      exact hNew row' hRow' (hId.trans hSame)
  others := by
    intro entry hEntry hOther
    rcases h'.others entry hEntry hOther with hOld | hPending
    · exact h.others entry hOld hOther
    · exact .inr hPending
  items := by
    intro hAdds row hRow
    obtain ⟨row', hRow', hId⟩ := h.items hAdds row hRow
    obtain ⟨row'', hRow'', hId'⟩ := h'.items hAdds row' hRow'
    exact ⟨row'', hRow'', hId'.trans hId⟩

/-- A change that only takes entries away. -/
theorem enters_keep (p : OutboxRow → Bool) {items : Items} {n : Nat}
    (hItems : call.Adds → ∀ row ∈ db.items.rows, ∃ row' ∈ items.rows,
      row'.id = row.id) :
    Enters call db
      { sequence := n, items := items, outbox := db.outbox.keep p } :=
  ⟨fun entry hEntry =>
      .inl ⟨entry, List.mem_of_mem_filter hEntry, rfl, rfl⟩,
    fun _ hEntry _ => .inl (List.mem_of_mem_filter hEntry), hItems⟩

theorem enters_changeItem : Enters call db (Db.changeItem db id f hf hEvent) :=
  ⟨fun entry hEntry => .inl ⟨entry, hEntry, rfl, rfl⟩,
    fun _ hEntry _ => .inl hEntry, fun _ _ hRow => exists_changeItem hRow⟩

theorem enters_of_change (h : Change quota call db db') :
    Enters call db db' := by
  cases h with
  | added row entry items hAdds hRoom hInsert hEntry hSequence hState hKept
      hItem hPending =>
      have hRows := Table.rows_put_of_none hEntry
      have hFree := (Rows.insert?_eq_some.mp hInsert).1
      constructor
      · intro entry' hMem
        rw [hRows, List.mem_append, List.mem_singleton] at hMem
        rcases hMem with hOld | rfl
        · exact .inl ⟨entry', hOld, rfl, rfl⟩
        · exact .inr ⟨hAdds, fun row' hRow' hId =>
            (hFree row' hRow').1 (hId.trans hItem)⟩
      · intro entry' hMem _
        rw [hRows, List.mem_append, List.mem_singleton] at hMem
        rcases hMem with hOld | rfl
        · exact .inl hOld
        · exact .inr hPending
      · exact fun _ row' hRow' =>
          ⟨row', (mem_insert hInsert).mpr (.inl hRow'), rfl⟩
  | decided id decision runtimeId => exact enters_changeItem
  | resolved id => exact enters_keep _ fun _ _ hRow => exists_changeItem hRow
  | deleted id moment => exact enters_changeItem
  | flagged id moment change => exact enters_changeItem
  | dropped p => exact enters_keep p fun _ row hRow => ⟨row, hRow, rfl⟩
  | purged p hRetain =>
      refine ⟨fun entry hEntry => .inl ⟨entry, hEntry, rfl, rfl⟩,
        fun _ hEntry _ => .inl hEntry, ?_⟩
      rw [hRetain]
      exact (nomatch ·)
  | settled outcome now entryId hSettles =>
      refine ⟨?_, ?_, fun _ row hRow => ⟨row, hRow, rfl⟩⟩
      · intro entry hEntry
        obtain ⟨old, hOld, rfl⟩ := mem_afterSettled.mp hEntry
        refine .inl ⟨old, hOld, ?_⟩
        split
        · exact ⟨rfl, rfl⟩
        · exact ⟨rfl, rfl⟩
      · intro entry hEntry hOther
        obtain ⟨old, hOld, rfl⟩ := mem_afterSettled.mp hEntry
        split_ifs at hOther ⊢ with hSame
        · exact absurd (hSame ▸ hSettles) hOther
        · exact .inl hOld

theorem enters_of_steps (h : Steps quota call db db') :
    Enters call db db' := by
  induction h with
  | refl => exact .refl
  | tail _ hOne ih => exact ih.trans (enters_of_change hOne)

/-! ## The quota -/

theorem keptCount_le {items : Items} {g : ItemRow → ItemRow}
    {outbox : Outbox} {n : Nat} {owner : JsString}
    (hRows : items.rows = db.items.rows.map g)
    (hOwner : ∀ row, (g row).owner = row.owner)
    (hKept : ∀ row, (g row).deleted = none → row.deleted = none) :
    keptCount { sequence := n, items := items, outbox := outbox } owner ≤
      keptCount db owner := by
  rw [keptCount, keptCount, hRows, List.filter_map, List.length_map,
    ← List.countP_eq_length_filter, ← List.countP_eq_length_filter]
  refine List.countP_mono_left fun row _ hRow => ?_
  obtain ⟨hSame, hNone⟩ := of_decide_eq_true hRow
  exact decide_eq_true ⟨(hOwner row).symm.trans hSame, hKept row hNone⟩

theorem keptCount_changeItem_le {owner : JsString}
    (hOwner : ∀ row, (f row).owner = row.owner)
    (hKept : ∀ row, (f row).deleted = none → row.deleted = none) :
    keptCount (Db.changeItem db id f hf hEvent) owner ≤
      keptCount db owner := by
  have hRows : (Db.changeItem db id f hf hEvent).items.rows =
      db.items.rows.map fun row => if row.id = id then f row else row := by
    refine List.map_congr_left fun row _ => ?_
    simp only [decide_eq_true_eq]
  refine keptCount_le hRows (fun row => ?_) (fun row => ?_)
  · split_ifs
    · exact hOwner row
    · rfl
  · split_ifs
    · exact hKept row
    · exact fun hNone => hNone

theorem WithinQuota.change (h : WithinQuota quota db)
    (hChange : Change quota call db db') : WithinQuota quota db' := by
  intro owner
  cases hChange with
  | added row entry items hAdds hRoom hInsert hEntry hSequence hState hKept =>
      rw [keptCount, (Rows.insert?_eq_some.mp hInsert).2, List.filter_append,
        List.length_append]
      by_cases hOwner : row.owner = owner
      · rw [List.filter_cons_of_pos (by simp [hOwner, hKept])]
        exact hOwner ▸ hRoom
      · rw [List.filter_cons_of_neg (by simp [hOwner])]
        exact h owner
  | decided itemId decision runtimeId =>
      refine le_trans (keptCount_changeItem_le ?_ ?_) (h owner)
      · exact fun _ => rfl
      · exact fun _ hNone => hNone
  | resolved itemId =>
      have hLe : keptCount (Db.changeItem db itemId
          (ItemRow.resolve (db.sequence + 1))
          (ItemRow.resolve_id (db.sequence + 1))
          (ItemRow.resolve_event (db.sequence + 1))) owner ≤
          keptCount db owner :=
        keptCount_changeItem_le (fun _ => rfl) fun _ hNone => hNone
      exact hLe.trans (h owner)
  | deleted itemId moment =>
      refine le_trans (keptCount_changeItem_le ?_ ?_) (h owner)
      · exact fun _ => rfl
      · exact fun _ hNone => absurd hNone (Option.some_ne_none moment)
  | flagged itemId moment change =>
      refine le_trans (keptCount_changeItem_le ?_ ?_) (h owner)
      · exact fun _ => rfl
      · exact fun _ hNone => hNone
  | dropped p => exact h owner
  | purged p =>
      have hRows : ((db.items.keep p).rows.filter fun row =>
          row.owner = owner ∧ row.deleted = none).Sublist
          (db.items.rows.filter fun row =>
            row.owner = owner ∧ row.deleted = none) :=
        List.filter_sublist.filter _
      exact hRows.length_le.trans (h owner)
  | settled outcome now entryId => exact h owner

/-! ## Calls that delete, and calls that settle -/

theorem mayPend_steps (h : PendingOn MayPend db)
    (hSteps : Steps quota call db db') (hSettles : call.settles = []) :
    PendingOn MayPend db' := by
  induction hSteps with
  | refl => exact h
  | tail _ hOne ih => exact mayPend_change ih hOne hSettles

theorem kept_steps (h : PendingOn (fun row => row.deleted = none) db)
    (hSteps : Steps quota call db db') (hSettles : call.settles = [])
    (hDeletes : ¬call.Deletes) :
    PendingOn (fun row => row.deleted = none) db' := by
  induction hSteps with
  | refl => exact h
  | tail _ hOne ih => exact kept_change ih hOne hSettles hDeletes

/-- `mark` drops the pending entries of the item that it deletes. -/
theorem kept_markItem {moment : Time} {owner : Owner} {itemId : JsString}
    {change : MarkChange} {answer : Option InboxItem}
    (h : PendingOn (fun row => row.deleted = none) db)
    (hDeleted : change.deleted = true)
    (hReturns : Returns (markItem moment owner itemId change) db answer db') :
    PendingOn (fun row => row.deleted = none) db' := by
  rw [markItem, if_pos hDeleted, deleteItem] at hReturns
  obtain ⟨_, db₁, hDelete, hReturns⟩ := returns_bind.mp hReturns
  rw [returns_nextSequence_bind, updateItem, returns_write] at hDelete
  rw [dropPending, returns_write_bind] at hReturns
  rw [(returns_pure.mp hReturns).2, hDelete]
  exact pendingOn_dropped h

/-- `retain` drops the entries of all deleted items before it purges. -/
theorem kept_retain {now : Clock} {counts : RetainCounts}
    (hReturns : Returns (retain now) db counts db') :
    PendingOn (fun row => row.deleted = none) db' := by
  rw [retain, returns_transaction, returns_query_bind] at hReturns
  obtain ⟨rows, -, hReturns⟩ := hReturns
  obtain ⟨_, db₁, -, hReturns⟩ := returns_bind.mp hReturns
  obtain ⟨_, db₂, hDrop, hReturns⟩ := returns_bind.mp hReturns
  rw [returns_query_bind] at hReturns
  obtain ⟨purged, -, hReturns⟩ := hReturns
  rw [purge, returns_write_bind] at hReturns
  rw [(returns_pure.mp hReturns).2]
  exact fun entry hEntry _ row hRow hId =>
    outbox_of_dropOutbox hDrop hEntry (Rows.mem_keep.mp hRow).1 hId

theorem pendingOn_settled {p : ItemRow → Prop} (h : PendingOn p db)
    {outcome : PushOutcome} {now : Time} {entryId : JsString}
    (hWas : outcome.state = .pending → ∀ entry ∈ db.outbox.rows,
      entry.id = entryId → entry.state = .pending) :
    PendingOn p (afterSettled db outcome now entryId) := by
  intro entry hEntry hPending row hRow hId
  obtain ⟨old, hOld, rfl⟩ := mem_afterSettled.mp hEntry
  split_ifs at hPending hId with hSame
  · exact h old hOld (hWas hPending old hOld hSame) row hRow hId
  · exact h old hOld hPending row hRow hId

/-- Settling pending entries makes no other entry pending. -/
theorem pendingOn_settleOutbox {p : ItemRow → Prop} {now : Clock}
    {entryIds : List JsString} {outcome : PushOutcome} {u : Unit}
    (h : PendingOn p db)
    (hWas : ∀ entry ∈ db.outbox.rows, entry.id ∈ entryIds →
      entry.state = .pending)
    (hReturns : Returns (settleOutbox now entryIds outcome) db u db') :
    PendingOn p db' := by
  rw [settleOutbox, returns_transaction] at hReturns
  have hBoth := returns_each (fun db : Db => PendingOn p db ∧
      (outcome.state = .pending → ∀ entry ∈ db.outbox.rows,
        entry.id ∈ entryIds → entry.state = .pending)) hReturns
    ⟨h, fun _ => hWas⟩ ?_
  · exact hBoth.1
  · rintro ⟨entryId, i⟩ hMem db₁ db₂ ⟨hOne, hStill⟩ hWrite
    have hIn : entryId ∈ entryIds := List.fst_mem_of_mem_zipIdx hMem
    rw [returns_write.mp hWrite]
    refine ⟨pendingOn_settled hOne fun hState entry hEntry hSame =>
      hStill hState entry hEntry (hSame ▸ hIn), ?_⟩
    intro hState entry hEntry hId
    obtain ⟨old, hOld, rfl⟩ := mem_afterSettled.mp hEntry
    split_ifs at hId ⊢
    · exact hState
    · exact hStill hState old hOld hId

end Changes

/-! ## The store and its dispatcher -/

/-- What holds of the store and its dispatcher. -/
structure Sound (s : State) : Prop where
  tied : Tied s.db
  mayPend : PendingOn MayPend s.db
  kept : PendingOn (fun row => row.deleted = none) s.db
  awaiting : ∀ entry ∈ s.db.outbox.rows, entry.id ∈ s.awaiting →
    entry.state = .pending

section Dispatched

variable {runtime : InboxRuntime} {turn : Turn} {db : Db} {s : State}

theorem tied_turn (h : Tied db) (turn : Turn) :
    Tied (inbox runtime turn db).2 :=
  turn_invariant (fun _ _ _ hChange hDb => hDb.change hChange) turn h

/-- A call that settles only pending entries keeps what they are about. -/
theorem pendingOn_settles {P : ItemRow → Prop} (h : PendingOn P db)
    (hSettles : turn.call.settles ≠ [])
    (hWas : ∀ entry ∈ db.outbox.rows, entry.id ∈ turn.call.settles →
      entry.state = .pending) {answer : Answer}
    (hReturns : Returns (perform runtime turn) db answer db') :
    PendingOn P db' := by
  cases hCall : turn.call with
  | settleOutbox entryIds outcome =>
      rw [hCall] at hWas
      rw [perform, hCall] at hReturns
      obtain ⟨_, hSettle, -⟩ := returns_answering.mp hReturns
      exact pendingOn_settleOutbox h hWas hSettle
  | «publish» | syncDecisions | mark | retain | claimOutbox
  | decisionPushBatches => exact absurd (by rw [hCall]; rfl) hSettles

/-- A turn that settles nothing, or only pending entries, keeps what the
pending entries are about. -/
theorem mayPend_turn (h : PendingOn MayPend db)
    (hWas : ∀ entry ∈ db.outbox.rows, entry.id ∈ turn.call.settles →
      entry.state = .pending) :
    PendingOn MayPend (inbox runtime turn db).2 := by
  by_cases hSettles : turn.call.settles = []
  · exact mayPend_steps h (steps_turn turn db) hSettles
  · rcases outcome runtime turn db with ⟨answer, db', hReturns, hRun⟩ |
      ⟨e, hRun⟩
    · rw [hRun]
      exact pendingOn_settles h hSettles hWas hReturns
    · rw [hRun]
      exact h

theorem kept_turn (h : PendingOn (fun row => row.deleted = none) db)
    (hWas : ∀ entry ∈ db.outbox.rows, entry.id ∈ turn.call.settles →
      entry.state = .pending) :
    PendingOn (fun row => row.deleted = none) (inbox runtime turn db).2 := by
  rcases outcome runtime turn db with ⟨answer, db', hReturns, hRun⟩ |
    ⟨e, hRun⟩
  · rw [hRun]
    by_cases hDeletes : turn.call.Deletes
    · cases hCall : turn.call with
      | mark owner itemId change =>
          rw [hCall] at hDeletes
          rw [perform, hCall] at hReturns
          obtain ⟨_, hMark, -⟩ := returns_answering.mp hReturns
          rw [mark, returns_transaction, returns_query_bind] at hMark
          obtain ⟨_, -, hMark⟩ := hMark
          exact kept_markItem h hDeletes hMark
      | retain =>
          rw [perform, hCall] at hReturns
          obtain ⟨_, hRetain, -⟩ := returns_answering.mp hReturns
          exact kept_retain hRetain
      | «publish» | syncDecisions | claimOutbox | decisionPushBatches
      | settleOutbox =>
          rw [hCall] at hDeletes
          cases hDeletes
    · by_cases hSettles : turn.call.settles = []
      · exact kept_steps h (steps_of_returns hReturns) hSettles hDeletes
      · exact pendingOn_settles h hSettles hWas hReturns
  · rw [hRun]
    exact h

/-- What is claimed is pending. -/
theorem pending_of_claimOutbox {now : Clock} {limit : Nat}
    {messagesOnly : Bool} {entry : OutboxRow} (hEntry : entry ∈ db.outbox.rows)
    (h : entry.id ∈ (claimOutbox db now limit messagesOnly).map
      OutboxEntry.id) : entry.state = .pending := by
  obtain ⟨claimed, hClaimed, hId⟩ := List.mem_map.mp h
  obtain ⟨row, hRow, rfl⟩ := List.mem_map.mp hClaimed
  have hSorted := List.mem_of_mem_take hRow
  rw [List.mem_insertionSort] at hSorted
  obtain ⟨hMem, hDue⟩ := List.mem_filter.mp hSorted
  obtain rfl : row = entry :=
    List.inj_on_of_nodup_map db.outbox.nodup hMem hEntry hId
  exact (of_decide_eq_true hDue).1

theorem pending_of_batches {now : Clock} {limit : Nat} {entry : OutboxRow}
    (hEntry : entry ∈ db.outbox.rows)
    (h : entry.id ∈ (decisionPushBatches db now limit).flatten.map
      OutboxEntry.id) : entry.state = .pending := by
  obtain ⟨claimed, hClaimed, hId⟩ := List.mem_map.mp h
  obtain ⟨batch, hBatch, hIn⟩ := List.mem_flatten.mp hClaimed
  obtain ⟨owner, -, rfl⟩ := List.mem_map.mp hBatch
  obtain ⟨row, hRow, rfl⟩ := List.mem_map.mp hIn
  rw [List.mem_insertionSort] at hRow
  obtain ⟨hMem, hPending⟩ :=
    List.mem_filter.mp (List.mem_of_mem_filter hRow)
  obtain rfl : row = entry :=
    List.inj_on_of_nodup_map db.outbox.nodup hMem hEntry hId
  exact (of_decide_eq_true hPending).1

/-- What a turn hands out is pending after it. -/
theorem pending_of_claims {entry : OutboxRow}
    (hEntry : entry ∈ (inbox runtime turn db).2.outbox.rows)
    (h : entry.id ∈ resultClaims (inbox runtime turn db).1) :
    entry.state = .pending := by
  rcases outcome runtime turn db with ⟨answer, db', hReturns, hRun⟩ |
    ⟨e, hRun⟩
  · rw [hRun] at hEntry h
    cases hCall : turn.call with
    | claimOutbox limit messagesOnly =>
        rw [perform, hCall] at hReturns
        obtain ⟨hAnswer, rfl⟩ := returns_query.mp hReturns
        obtain rfl := Except.ok.inj hAnswer
        exact pending_of_claimOutbox hEntry h
    | decisionPushBatches limit =>
        rw [perform, hCall] at hReturns
        obtain ⟨hAnswer, rfl⟩ := returns_query.mp hReturns
        obtain rfl := Except.ok.inj hAnswer
        exact pending_of_batches hEntry h
    | «publish» | syncDecisions | mark | retain | settleOutbox =>
        rw [perform, hCall] at hReturns
        obtain ⟨_, -, rfl⟩ := returns_answering.mp hReturns
        cases h
  · rw [hRun] at h
    cases h

theorem Sound.next (h : Sound s) (hSettles : SettlesAwaiting s turn) :
    Sound (dispatched runtime turn s).2 := by
  have hWas : ∀ entry ∈ s.db.outbox.rows, entry.id ∈ turn.call.settles →
      entry.state = .pending := fun entry hEntry hId =>
    h.awaiting entry hEntry (hSettles _ hId)
  refine ⟨tied_turn h.tied turn, mayPend_turn h.mayPend hWas,
    kept_turn h.kept hWas, ?_⟩
  intro entry hEntry hAwaits
  rcases List.mem_append.mp hAwaits with hOld | hClaimed
  · obtain ⟨hMem, hOther⟩ := List.mem_filter.mp hOld
    have hEnters : Enters turn.call s.db (inbox runtime turn s.db).2 :=
      enters_of_steps (steps_turn turn s.db)
    rcases hEnters.others entry hEntry (of_decide_eq_true hOther) with
      hBefore | hPending
    · exact h.awaiting entry hBefore hMem
    · exact hPending
  · exact pending_of_claims hEntry hClaimed

end Dispatched

theorem sound_start : Sound {} :=
  ⟨⟨fun _ hEntry => (nomatch hEntry), List.nodup_nil⟩,
    fun _ hEntry => (nomatch hEntry), fun _ hEntry => (nomatch hEntry),
    fun _ hEntry => (nomatch hEntry)⟩

theorem entersWithItem_turn (runtime : InboxRuntime) (turn : Turn) (db : Db) :
    EntersWithItem db (inbox runtime turn db).2 := by
  intro entry hEntry
  have hEnters : Enters turn.call db (inbox runtime turn db).2 :=
    enters_of_steps (steps_turn turn db)
  exact (hEnters.entries entry hEntry).imp_right And.right

/-- **The outbox announces only what is there.**  In every state that calls
reach, settling only entries that were claimed since they were last settled,
a pending entry is about an undeleted message or open decision.  After any
calls at all no owner has more undeleted items than the quota, no two entries
are about the same item, and a call adds an entry only with its item. -/
theorem outbox_announces (runtime : InboxRuntime) :
    (∀ s, Reached (dispatched runtime) SettlesAwaiting {} s →
      Announces s.db) ∧
    ∀ turns : List Turn,
      WithinQuota runtime.itemsPerOwner (run (inbox runtime) turns {}) ∧
      OneEach (run (inbox runtime) turns {}) ∧
      ∀ turn, EntersWithItem (run (inbox runtime) turns {})
        (inbox runtime turn (run (inbox runtime) turns {})).2 := by
  constructor
  · intro s hReached
    have hSound : Sound s := hReached.invariant Sound sound_start
      fun _ turn h hSettles => h.next hSettles
    exact announces_of hSound.tied hSound.mayPend hSound.kept
  · intro turns
    have hTied : Tied (run (inbox runtime) turns {}) := run_invariant
      sound_start.tied (fun _ _ _ hChange h => h.change hChange) turns
    refine ⟨?_, hTied.oneEach, fun turn => entersWithItem_turn runtime turn _⟩
    exact run_invariant (fun _ => Nat.zero_le _)
      (fun _ _ _ hChange h => h.change hChange) turns

/-! Settling an entry a second time, after its item was deleted, makes it
pending again. -/

def sampleTurns : List Turn :=
  [⟨.publish sampleOwner (js "runtime") samplePublication, sampleClock,
      sampleDraws 98⟩,
    ⟨.claimOutbox 20 false, sampleClock, sampleDraws 98⟩,
    ⟨.settleOutbox [[98, 98]] ⟨.sent, none, js "201"⟩, sampleClock,
      sampleDraws 98⟩,
    ⟨.mark sampleOwner [98] { deleted := true }, sampleClock,
      sampleDraws 98⟩,
    ⟨.settleOutbox [[98, 98]] ⟨.pending, some 2, js "503"⟩, sampleClock,
      sampleDraws 98⟩]

/-- Whether every turn settles only what was claimed before. -/
def settlesClaimed (runtime : InboxRuntime) : List Turn → State → Bool
  | [], _ => true
  | turn :: turns, s =>
      turn.call.settles.all (fun id => id ∈ s.claimed) &&
        settlesClaimed runtime turns (dispatched runtime turn s).2

theorem reached_of_settlesClaimed {runtime : InboxRuntime}
    {turns : List Turn} {s : State} (h : settlesClaimed runtime turns s) :
    Reached (dispatched runtime) SettlesClaimed s
      (run (dispatched runtime) turns s) := by
  induction turns generalizing s with
  | nil => exact .refl
  | cons turn turns ih =>
      rw [settlesClaimed, Bool.and_eq_true, List.all_eq_true] at h
      have hFirst : Reached (dispatched runtime) SettlesClaimed s
          (dispatched runtime turn s).2 :=
        .turn .refl turn fun id hId => of_decide_eq_true (h.1 id hId)
      exact hFirst.trans (ih h.2)

theorem outbox_not_announcing :
    Reached (dispatched sampleRuntime) SettlesClaimed {}
        (run (dispatched sampleRuntime) sampleTurns {}) ∧
      ¬Announces (run (dispatched sampleRuntime) sampleTurns {}).db := by
  refine ⟨reached_of_settlesClaimed (by decide), ?_⟩
  intro h
  have hEntry : ∃ entry ∈ (run (dispatched sampleRuntime) sampleTurns
      {}).db.outbox.rows, entry.state = .pending := by
    decide
  have hDeleted : ∀ row ∈ (run (dispatched sampleRuntime) sampleTurns
      {}).db.items.rows, row.deleted ≠ none := by
    decide
  obtain ⟨entry, hMem, hPending⟩ := hEntry
  obtain ⟨row, hRow, -, hKept, -⟩ := h entry hMem hPending
  exact hDeleted row hRow hKept

end OpenApe.Ports.InboxOutbox
