import OpenApe.Ports.InboxRuns

/-!
# The cache of an inbox client

A client keeps a map of items and a cursor, and pages through `changes` while
the store goes on being written.  `Tracks` is what holds of the two in every
state; `cache_converges` says what the client has when a page was the last.
-/

namespace OpenApe.Ports.InboxCache

open Verified.JsText Verified.KeyedTable Verified.Machine
open InboxStore InboxRuns
open WorkspaceStore (Owner ownerKey)

/-! ## The client -/

/-- Items by their id, and the cursor of the last page. -/
structure Client where
  cache : Table InboxItem.id := Table.empty
  cursor : Int := 0

/-- `for (const item of page.items) map.set(item.id, item)` -/
def Client.apply (client : Client) (page : ChangesPage) : Client where
  cache := page.items.foldl Table.put client.cache
  cursor := page.cursor

structure State where
  db : Db := {}
  client : Client := {}

/-- A call of anyone, or a page of the client. -/
inductive Event where
  | write (turn : Turn)
  | page

/-- The store and the client of an owner, taking turns in any order. -/
def system (runtime : InboxRuntime) (owner : Owner) :
    Machine State Event (Option ChangesPage)
  | .write turn, s => (none, { s with db := (inbox runtime turn s.db).2 })
  | .page, s =>
      let page := changes s.db owner s.client.cursor
      (some page, { s with client := s.client.apply page })

/-- The client has read the tombstone of an item, or nothing of it. -/
def Client.KnowsGone (client : Client) (id : JsString) : Prop :=
  ∀ item ∈ client.cache.rows, item.id = id → item.deleted.isSome = true

/-- The row of an item is no longer there. -/
def Gone (row : ItemRow) (db : Db) : Prop :=
  ∀ row' ∈ db.items.rows, ¬(row'.id = row.id ∧ row'.owner = row.owner)

/-- A purge takes away only tombstones that the client knows. -/
def PurgesKnown (runtime : InboxRuntime) (owner : Owner) (s : State) :
    Event → Prop
  | .write turn => turn.call = .retain →
      ∀ row ∈ s.db.items.rows, row.owner = ownerKey owner →
        Gone row (inbox runtime turn s.db).2 → s.client.KnowsGone row.id
  | .page => True

/-- The client's undeleted items are the owner's. -/
def Agrees (owner : Owner) (s : State) : Prop :=
  ∀ item, (item ∈ s.client.cache.rows ∧ item.deleted = none) ↔
    ∃ row ∈ s.db.items.rows, row.owner = ownerKey owner ∧
      row.deleted = none ∧ row.item = item

/-! ## Sequences -/

/-- Every item has a sequence of its own, and the counter is past them. -/
structure Sequenced (db : Db) : Prop where
  nodup : (db.items.rows.map ItemRow.sequence).Nodup
  le : ∀ row ∈ db.items.rows, row.sequence ≤ db.sequence

/-- What the changes of a call do to the rows that a client may know. -/
structure Advance (call : InboxCall) (db db' : Db) : Prop where
  sequence : db.sequence ≤ db'.sequence
  rows : ∀ row ∈ db'.items.rows, row ∈ db.items.rows ∨
    db.sequence < row.sequence
  kept : call ≠ .retain → ∀ row ∈ db.items.rows, ∃ row' ∈ db'.items.rows,
    row'.id = row.id ∧ row'.owner = row.owner

section Changes

variable {quota : Nat} {call : InboxCall} {db db' : Db} {id : JsString}
  {f : ItemRow → ItemRow} {hf : ∀ row, (f row).id = row.id}
  {hEvent : ∀ row, (f row).event = row.event}

theorem sequenced_empty : Sequenced {} :=
  ⟨List.nodup_nil, fun _ hRow => (nomatch hRow)⟩

theorem Sequenced.eq_of_sequence (h : Sequenced db) {row row' : ItemRow}
    (hRow : row ∈ db.items.rows) (hRow' : row' ∈ db.items.rows)
    (hSame : row.sequence = row'.sequence) : row = row' :=
  List.inj_on_of_nodup_map h.nodup hRow hRow' hSame

/-- A changed row gets a sequence that no row has. -/
theorem Sequenced.changeItem (h : Sequenced db)
    (hSequence : ∀ row, (f row).sequence = db.sequence + 1) :
    Sequenced (Db.changeItem db id f hf hEvent) where
  nodup := by
    have hRows : (Db.changeItem db id f hf hEvent).items.rows =
        db.items.rows.map fun row => if row.id = id then f row else row := by
      refine List.map_congr_left fun row _ => ?_
      simp only [decide_eq_true_eq]
    rw [hRows, List.map_map]
    refine List.Nodup.map_on ?_ (List.Nodup.of_map _ h.nodup)
    intro row hRow row' hRow' hSame
    simp only [Function.comp_apply] at hSame
    split_ifs at hSame with hId hId' hId'
    · exact Rows.eq_of_key hRow hRow' (hId.trans hId'.symm)
    · rw [hSequence] at hSame
      have := h.le row' hRow'
      omega
    · rw [hSequence] at hSame
      have := h.le row hRow
      omega
    · exact h.eq_of_sequence hRow hRow' hSame
  le := by
    intro row hRow
    obtain ⟨old, hOld, rfl⟩ := mem_changeItem.mp hRow
    change _ ≤ db.sequence + 1
    split_ifs
    · exact (hSequence old).le
    · exact Nat.le_succ_of_le (h.le old hOld)

theorem advance_changeItem
    (hSequence : ∀ row, (f row).sequence = db.sequence + 1)
    (hOwner : ∀ row, (f row).owner = row.owner) :
    Advance call db (Db.changeItem db id f hf hEvent) where
  sequence := Nat.le_succ _
  rows := by
    intro row hRow
    obtain ⟨old, hOld, rfl⟩ := mem_changeItem.mp hRow
    split_ifs
    · exact .inr (by rw [hSequence]; exact Nat.lt_succ_self _)
    · exact .inl hOld
  kept := by
    intro _ row hRow
    refine ⟨_, mem_changeItem.mpr ⟨row, hRow, rfl⟩, ?_⟩
    split_ifs
    · exact ⟨hf row, hOwner row⟩
    · exact ⟨rfl, rfl⟩

theorem Sequenced.change (h : Sequenced db) (hChange : Change quota call db db') :
    Sequenced db' := by
  cases hChange with
  | added row entry items hAdds hRoom hInsert hEntry hSequence =>
      have hRows := (Rows.insert?_eq_some.mp hInsert).2
      constructor
      · rw [hRows]
        refine Rows.nodup_append_singleton h.nodup fun row' hRow' hSame => ?_
        have := h.le row' hRow'
        omega
      · intro row' hRow'
        rw [hRows, List.mem_append, List.mem_singleton] at hRow'
        rcases hRow' with hOld | rfl
        · exact Nat.le_succ_of_le (h.le row' hOld)
        · exact hSequence.le
  | decided id decision runtimeId => exact h.changeItem fun _ => rfl
  | resolved id =>
      have hItem : Sequenced (Db.changeItem db id
          (ItemRow.resolve (db.sequence + 1))
          (ItemRow.resolve_id (db.sequence + 1))
          (ItemRow.resolve_event (db.sequence + 1))) :=
        h.changeItem fun _ => rfl
      exact ⟨hItem.nodup, hItem.le⟩
  | deleted id moment => exact h.changeItem fun _ => rfl
  | flagged id moment change => exact h.changeItem fun _ => rfl
  | dropped p => exact ⟨h.nodup, h.le⟩
  | purged p =>
      exact ⟨h.nodup.sublist (List.filter_sublist.map _),
        fun row hRow => h.le row (Rows.mem_keep.mp hRow).1⟩
  | settled outcome now entryId => exact ⟨h.nodup, h.le⟩

theorem Advance.refl : Advance call db db :=
  ⟨Nat.le_refl _, fun _ hRow => .inl hRow,
    fun _ row hRow => ⟨row, hRow, rfl, rfl⟩⟩

theorem Advance.trans {db'' : Db} (h : Advance call db db')
    (h' : Advance call db' db'') : Advance call db db'' where
  sequence := h.sequence.trans h'.sequence
  rows := by
    intro row hRow
    rcases h'.rows row hRow with hOld | hNew
    · exact h.rows row hOld
    · exact .inr (lt_of_le_of_lt h.sequence hNew)
  kept := by
    intro hCall row hRow
    obtain ⟨row', hRow', hId, hOwner⟩ := h.kept hCall row hRow
    obtain ⟨row'', hRow'', hId', hOwner'⟩ := h'.kept hCall row' hRow'
    exact ⟨row'', hRow'', hId'.trans hId, hOwner'.trans hOwner⟩

theorem advance_of_change (h : Change quota call db db') :
    Advance call db db' := by
  have hSame : ∀ row ∈ db.items.rows, ∃ row' ∈ db.items.rows,
      row'.id = row.id ∧ row'.owner = row.owner :=
    fun row hRow => ⟨row, hRow, rfl, rfl⟩
  cases h with
  | added row entry items hAdds hRoom hInsert hEntry hSequence =>
      have hRows := (Rows.insert?_eq_some.mp hInsert).2
      refine ⟨Nat.le_succ _, ?_, ?_⟩
      · intro row' hRow'
        rw [hRows, List.mem_append, List.mem_singleton] at hRow'
        rcases hRow' with hOld | rfl
        · exact .inl hOld
        · exact .inr (by rw [hSequence]; exact Nat.lt_succ_self _)
      · intro _ row' hRow'
        exact ⟨row', hRows ▸ List.mem_append_left _ hRow', rfl, rfl⟩
  | decided id decision runtimeId =>
      exact advance_changeItem (fun _ => rfl) fun _ => rfl
  | resolved id =>
      have hItem : Advance call db (Db.changeItem db id
          (ItemRow.resolve (db.sequence + 1))
          (ItemRow.resolve_id (db.sequence + 1))
          (ItemRow.resolve_event (db.sequence + 1))) :=
        advance_changeItem (fun _ => rfl) fun _ => rfl
      exact ⟨hItem.sequence, hItem.rows, hItem.kept⟩
  | deleted id moment =>
      exact advance_changeItem (fun _ => rfl) fun _ => rfl
  | flagged id moment change =>
      exact advance_changeItem (fun _ => rfl) fun _ => rfl
  | dropped p => exact ⟨Nat.le_refl _, fun _ => .inl, fun _ => hSame⟩
  | purged p hRetain =>
      exact ⟨Nat.le_refl _, fun row hRow => .inl (Rows.mem_keep.mp hRow).1,
        fun hCall => absurd hRetain hCall⟩
  | settled outcome now entryId =>
      exact ⟨Nat.le_refl _, fun _ => .inl, fun _ => hSame⟩

theorem advance_of_steps (h : Steps quota call db db') :
    Advance call db db' := by
  induction h with
  | refl => exact .refl
  | tail _ hOne ih => exact ih.trans (advance_of_change hOne)

end Changes

theorem Sequenced.turn {runtime : InboxRuntime} {db : Db} (h : Sequenced db)
    (turn : Turn) : Sequenced (inbox runtime turn db).2 :=
  turn_invariant (fun _ _ _ hChange hDb => hDb.change hChange) turn h

/-- **No two items have the same sequence**, after any calls. -/
theorem sequenced_run (runtime : InboxRuntime) (turns : List Turn) :
    Sequenced (run (inbox runtime) turns {}) :=
  run_invariant sequenced_empty (fun _ _ _ hChange h => h.change hChange) turns

/-! ## Pages -/

section Pages

variable {db : Db} {owner : Owner} {after : Int} {row : ItemRow}

/-- The rows that a page shows. -/
def shown (db : Db) (owner : Owner) (after : Int) : List ItemRow :=
  (rowsAfter db owner after).take page

theorem mem_rowsAfter :
    row ∈ rowsAfter db owner after ↔ row ∈ db.items.rows ∧
      row.owner = ownerKey owner ∧ max 0 after < row.sequence := by
  rw [rowsAfter, List.mem_insertionSort, List.mem_filter, decide_eq_true_iff]

theorem sorted_rowsAfter :
    (rowsAfter db owner after).Pairwise
      fun a b => a.sequence ≤ b.sequence := by
  have : Std.Total fun a b : ItemRow => a.sequence ≤ b.sequence :=
    ⟨fun a b => Nat.le_total a.sequence b.sequence⟩
  have : IsTrans ItemRow fun a b => a.sequence ≤ b.sequence :=
    ⟨fun _ _ _ => Nat.le_trans⟩
  exact List.pairwise_insertionSort _ _

theorem items_changes :
    (changes db owner after).items = (shown db owner after).map ItemRow.item := by
  rw [changes, shown, List.take_take, Nat.min_eq_left (Nat.le_succ page)]

theorem cursor_changes :
    (changes db owner after).cursor =
      ((shown db owner after).getLast?.map fun row =>
        (row.sequence : Int)).getD (max 0 after) := by
  rw [changes, shown, List.take_take, Nat.min_eq_left (Nat.le_succ page)]

theorem shown_of_not_more (h : (changes db owner after).more = false) :
    shown db owner after = rowsAfter db owner after := by
  have hLength := Nat.le_of_not_lt (of_decide_eq_false h)
  rw [List.length_take] at hLength
  exact List.take_of_length_le (by omega)

/-- A row that is shown is not past the cursor. -/
theorem sequence_le_cursor (h : row ∈ shown db owner after) :
    (row.sequence : Int) ≤ (changes db owner after).cursor := by
  rw [cursor_changes]
  cases hLast : (shown db owner after).getLast? with
  | none =>
      rw [List.getLast?_eq_none_iff.mp hLast] at h
      cases h
  | some last =>
      rw [Option.map_some, Option.getD_some, Int.ofNat_le]
      obtain ⟨rows, hRows⟩ := List.getLast?_eq_some_iff.mp hLast
      have hSorted : (shown db owner after).Pairwise
          fun a b => a.sequence ≤ b.sequence :=
        sorted_rowsAfter.sublist (List.take_sublist _ _)
      rw [hRows] at h hSorted
      rcases List.mem_append.mp h with hMem | hMem
      · exact (List.pairwise_append.mp hSorted).2.2 row hMem last
          (List.mem_singleton_self last)
      · rw [List.mem_singleton.mp hMem]

/-- A row between the cursors is shown. -/
theorem mem_shown (hDb : Sequenced db) (hRow : row ∈ rowsAfter db owner after)
    (h : (row.sequence : Int) ≤ (changes db owner after).cursor) :
    row ∈ shown db owner after := by
  rw [cursor_changes] at h
  cases hLast : (shown db owner after).getLast? with
  | none =>
      rw [hLast] at h
      have hAfter := (mem_rowsAfter.mp hRow).2.2
      exact absurd h (not_le_of_gt hAfter)
  | some last =>
      rw [hLast, Option.map_some, Option.getD_some, Int.ofNat_le] at h
      have hLastMem : last ∈ shown db owner after := List.mem_of_getLast? hLast
      have hSplit := @List.take_append_drop _ page (rowsAfter db owner after)
      have hSorted := @sorted_rowsAfter db owner after
      rw [← hSplit] at hRow hSorted
      rcases List.mem_append.mp hRow with hMem | hMem
      · exact hMem
      · have hLe := (List.pairwise_append.mp hSorted).2.2 last hLastMem row hMem
        have hSame : row = last := by
          refine hDb.eq_of_sequence ?_ ?_ (Nat.le_antisymm h hLe)
          · exact (mem_rowsAfter.mp (List.mem_of_mem_drop hMem)).1
          · exact (mem_rowsAfter.mp (List.mem_of_mem_take hLastMem)).1
        exact hSame ▸ hLastMem

theorem mem_rowsAfter_of_shown (h : row ∈ shown db owner after) :
    row ∈ db.items.rows ∧ row.owner = ownerKey owner ∧
      max 0 after < row.sequence :=
  mem_rowsAfter.mp (List.mem_of_mem_take h)

theorem nodup_shown : ((shown db owner after).map ItemRow.id).Nodup := by
  have hRows : ((rowsAfter db owner after).map ItemRow.id).Nodup := by
    refine ((List.perm_insertionSort _ _).map ItemRow.id).nodup_iff.mpr ?_
    exact db.items.nodup.sublist (List.filter_sublist.map ItemRow.id)
  exact hRows.sublist ((List.take_sublist _ _).map ItemRow.id)

end Pages

/-! ## What holds of the store and the client -/

structure Tracks (owner : Owner) (s : State) : Prop where
  sequenced : Sequenced s.db
  started : 0 ≤ s.client.cursor
  cursor : s.client.cursor ≤ s.db.sequence
  /-- The client has every row up to its cursor. -/
  read : ∀ row ∈ s.db.items.rows, row.owner = ownerKey owner →
    (row.sequence : Int) ≤ s.client.cursor →
    s.client.cache.find? row.id = some row.item
  /-- An item that the client has as undeleted is there. -/
  held : ∀ item ∈ s.client.cache.rows, item.deleted = none →
    ∃ row ∈ s.db.items.rows, row.owner = ownerKey owner ∧ row.id = item.id

section System

variable {runtime : InboxRuntime} {owner : Owner} {s : State}

theorem tracks_start : Tracks owner {} :=
  ⟨sequenced_empty, Int.le_refl _, Int.le_refl _,
    fun _ hRow => (nomatch hRow), fun _ hItem => (nomatch hItem)⟩

theorem Tracks.write (h : Tracks owner s) (turn : Turn)
    (hKnown : PurgesKnown runtime owner s (.write turn)) :
    Tracks owner (system runtime owner (.write turn) s).2 := by
  have hAdvance : Advance turn.call s.db (inbox runtime turn s.db).2 :=
    advance_of_steps (steps_turn turn s.db)
  refine ⟨h.sequenced.turn turn, h.started,
    h.cursor.trans (Int.ofNat_le.mpr hAdvance.sequence), ?_, ?_⟩
  · intro row hRow hOwner hRead
    rcases hAdvance.rows row hRow with hOld | hNew
    · exact h.read row hOld hOwner hRead
    · have hCursor := h.cursor
      change (row.sequence : Int) ≤ s.client.cursor at hRead
      omega
  · intro item hItem hKept
    obtain ⟨row, hRow, hOwner, hId⟩ := h.held item hItem hKept
    by_cases hGone : Gone row (inbox runtime turn s.db).2
    · by_cases hRetain : turn.call = .retain
      · have hDeleted := hKnown hRetain row hRow hOwner hGone item hItem hId.symm
        rw [hKept] at hDeleted
        cases hDeleted
      · obtain ⟨row', hRow', hSame⟩ := hAdvance.kept hRetain row hRow
        exact absurd hSame (hGone row' hRow')
    · unfold Gone at hGone
      push Not at hGone
      obtain ⟨row', hRow', hId', hOwner'⟩ := hGone
      exact ⟨row', hRow', hOwner'.trans hOwner, hId'.trans hId⟩

/-- A page brings the rows that it shows and leaves the others. -/
theorem find?_apply {row : ItemRow} {client : Client} {db : Db} :
    (row ∈ shown db owner client.cursor →
      (client.apply (changes db owner client.cursor)).cache.find? row.id =
        some row.item) ∧
    (row.id ∉ (shown db owner client.cursor).map ItemRow.id →
      (client.apply (changes db owner client.cursor)).cache.find? row.id =
        client.cache.find? row.id) := by
  have hIds : ((shown db owner client.cursor).map ItemRow.item).map
      InboxItem.id = (shown db owner client.cursor).map ItemRow.id :=
    List.map_map
  rw [Client.apply, items_changes]
  constructor
  · intro hShown
    exact @Table.find?_foldl_put_of_mem _ _ InboxItem.id _ _
      (hIds ▸ nodup_shown) row.item (List.mem_map_of_mem hShown) _
  · intro hOther
    exact Table.find?_foldl_put_of_notMem (hIds ▸ hOther) _

theorem Tracks.page (h : Tracks owner s) :
    Tracks owner (system runtime owner .page s).2 := by
  have hMax : max 0 s.client.cursor = s.client.cursor :=
    max_eq_right h.started
  have hCursor : (s.client.apply (changes s.db owner s.client.cursor)).cursor =
      (changes s.db owner s.client.cursor).cursor := rfl
  refine ⟨h.sequenced, ?_, ?_, ?_, ?_⟩
  · change 0 ≤ (changes s.db owner s.client.cursor).cursor
    rw [cursor_changes]
    cases (shown s.db owner s.client.cursor).getLast? with
    | none => exact Int.le_max_left _ _
    | some last => exact Int.natCast_nonneg _
  · change (changes s.db owner s.client.cursor).cursor ≤ s.db.sequence
    rw [cursor_changes]
    cases hLast : (shown s.db owner s.client.cursor).getLast? with
    | none => exact hMax.le.trans h.cursor
    | some last =>
        exact Int.ofNat_le.mpr (h.sequenced.le last
          (mem_rowsAfter_of_shown (List.mem_of_getLast? hLast)).1)
  · intro row hRow hOwner hRead
    by_cases hOld : (row.sequence : Int) ≤ s.client.cursor
    · refine (find?_apply.2 ?_).trans (h.read row hRow hOwner hOld)
      intro hShown
      obtain ⟨row', hRow', hId⟩ := List.mem_map.mp hShown
      obtain ⟨hMem, -, hAfter⟩ := mem_rowsAfter_of_shown hRow'
      obtain rfl := Rows.eq_of_key hMem hRow hId
      rw [hMax] at hAfter
      omega
    · refine find?_apply.1 (mem_shown h.sequenced
        (mem_rowsAfter.mpr ⟨hRow, hOwner, ?_⟩) hRead)
      rw [hMax]
      omega
  · intro item hItem hKept
    change item ∈ (List.foldl Table.put _ _).rows at hItem
    rw [items_changes] at hItem
    rcases Table.mem_foldl_put hItem with hNew | hOld
    · obtain ⟨row, hRow, rfl⟩ := List.mem_map.mp hNew
      obtain ⟨hMem, hOwner, -⟩ := mem_rowsAfter_of_shown hRow
      exact ⟨row, hMem, hOwner, rfl⟩
    · exact h.held item hOld hKept

theorem Tracks.next (h : Tracks owner s) (event : Event)
    (hKnown : PurgesKnown runtime owner s event) :
    Tracks owner (system runtime owner event s).2 := by
  cases event with
  | write turn => exact h.write turn hKnown
  | page => exact h.page

/-- After the last page the client has every row of its owner. -/
theorem Tracks.agrees (h : Tracks owner s)
    (hLast : (changes s.db owner s.client.cursor).more = false) :
    Agrees owner (system runtime owner .page s).2 := by
  have hAfter : Tracks owner (system runtime owner .page s).2 := h.page
  have hAll : ∀ row ∈ s.db.items.rows, row.owner = ownerKey owner →
      (system runtime owner .page s).2.client.cache.find? row.id =
        some row.item := by
    intro row hRow hOwner
    refine hAfter.read row hRow hOwner ?_
    by_cases hOld : (row.sequence : Int) ≤ s.client.cursor
    · refine hOld.trans ?_
      change _ ≤ (changes s.db owner s.client.cursor).cursor
      rw [cursor_changes]
      cases hCase : (shown s.db owner s.client.cursor).getLast? with
      | none => exact Int.le_max_right _ _
      | some last =>
          have hNew := (mem_rowsAfter_of_shown
            (List.mem_of_getLast? hCase)).2.2
          exact (Int.le_max_right _ _).trans hNew.le
    · refine sequence_le_cursor ?_
      rw [shown_of_not_more hLast]
      refine mem_rowsAfter.mpr ⟨hRow, hOwner, ?_⟩
      rw [max_eq_right h.started]
      omega
  intro item
  constructor
  · rintro ⟨hItem, hKept⟩
    obtain ⟨row, hRow, hOwner, hId⟩ := hAfter.held item hItem hKept
    have hFound := hAll row hRow hOwner
    rw [hId, Table.find?_of_mem hItem] at hFound
    obtain rfl := Option.some.inj hFound
    exact ⟨row, hRow, hOwner, hKept, rfl⟩
  · rintro ⟨row, hRow, hOwner, hKept, rfl⟩
    exact ⟨Table.mem_of_find? (hAll row hRow hOwner), hKept⟩

end System

/-- **A client's cache converges.**  After any calls no two items have the
same sequence; and after any calls and pages in any order, in which no
tombstone is purged that the client does not know, a page that says there is
no more leaves the client with exactly the undeleted items of its owner. -/
theorem cache_converges (runtime : InboxRuntime) (owner : Owner) :
    (∀ turns : List Turn,
      ((run (inbox runtime) turns {}).items.rows.map
        ItemRow.sequence).Nodup) ∧
    ∀ s, Reached (system runtime owner) (PurgesKnown runtime owner) {} s →
      (changes s.db owner s.client.cursor).more = false →
      Agrees owner (system runtime owner .page s).2 := by
  refine ⟨fun turns => (sequenced_run runtime turns).nodup, ?_⟩
  intro s hReached hLast
  have hTracks : Tracks owner s := hReached.invariant (Tracks owner)
    tracks_start fun _ event h hKnown => h.next event hKnown
  exact hTracks.agrees hLast

end OpenApe.Ports.InboxCache
