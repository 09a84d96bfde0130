import OpenApe.Ports.HtmlRuns

/-!
# The life of a report

What every change of `HtmlRuns` keeps (`Inv`) and what it does to a row that
is already there (`Follows`), carried over whole runs.  A document that is
purged never changes again, and its versions are gone; up to then versions
are only added, and the two revisions count the changes of access and of
retention.
-/

namespace OpenApe.Ports.HtmlLifecycle

open Verified.JsText Verified.KeyedTable Verified.Machine
  Verified.Transactions.Action Verified.Unicode
open CentralValues (Unknown)
open ReportContracts HtmlStore PlansStore HtmlRuns

/-! ## A row and its later states -/

/-- Who may read a document. -/
def accessOf (document : HtmlDocument) : Access :=
  ⟨document.audience, document.readers, document.teamId⟩

/-- When a document ends. -/
def endsOf (document : HtmlDocument) : Option Int × Option Int :=
  (document.removedAt, document.expiresAt)

/-- A document, and a later state of it. -/
structure Follows (earlier later : HtmlDocument) : Prop where
  id : later.id = earlier.id
  owner : later.owner = earlier.owner
  createdAt : later.createdAt = earlier.createdAt
  versions : earlier.latestVersion ≤ later.latestVersion
  access : earlier.accessRevision ≤ later.accessRevision
  retention : earlier.retentionRevision ≤ later.retentionRevision
  audience : later.purgedAt = none → accessOf later = accessOf earlier ∨
    earlier.accessRevision < later.accessRevision
  ends : endsOf later = endsOf earlier ∨
    earlier.retentionRevision < later.retentionRevision
  bound : later.purgedAt = none → later.seriesId = earlier.seriesId ∧
    later.legacyPlanId = earlier.legacyPlanId
  purged : earlier.purgedAt.isSome → later = earlier

namespace Follows

theorem refl (document : HtmlDocument) : Follows document document :=
  { id := rfl
    owner := rfl
    createdAt := rfl
    versions := le_refl _
    access := le_refl _
    retention := le_refl _
    audience := fun _ => .inl rfl
    ends := .inl rfl
    bound := fun _ => ⟨rfl, rfl⟩
    purged := fun _ => rfl }

variable {a b c : HtmlDocument}

/-- A document that is not purged was not purged before. -/
theorem kept (h : Follows a b) (hKept : b.purgedAt = none) :
    a.purgedAt = none := by
  cases hPurged : a.purgedAt with
  | none => rfl
  | some time =>
      have hSame := h.purged (by rw [hPurged]; rfl)
      rw [hSame, hPurged] at hKept
      cases hKept

theorem trans (h : Follows a b) (h' : Follows b c) : Follows a c :=
  { id := h'.id.trans h.id
    owner := h'.owner.trans h.owner
    createdAt := h'.createdAt.trans h.createdAt
    versions := h.versions.trans h'.versions
    access := h.access.trans h'.access
    retention := h.retention.trans h'.retention
    audience := by
      intro hKept
      cases h'.audience hKept with
      | inr hGrown => exact .inr (h.access.trans_lt hGrown)
      | inl hSame =>
          cases h.audience (h'.kept hKept) with
          | inl hSame' => exact .inl (hSame.trans hSame')
          | inr hGrown => exact .inr (hGrown.trans_le h'.access)
    ends := by
      cases h'.ends with
      | inr hGrown => exact .inr (h.retention.trans_lt hGrown)
      | inl hSame =>
          cases h.ends with
          | inl hSame' => exact .inl (hSame.trans hSame')
          | inr hGrown => exact .inr (hGrown.trans_le h'.retention)
    bound := by
      intro hKept
      obtain ⟨hSeries, hLegacy⟩ := h'.bound hKept
      obtain ⟨hSeries', hLegacy'⟩ := h.bound (h'.kept hKept)
      exact ⟨hSeries.trans hSeries', hLegacy.trans hLegacy'⟩
    purged := by
      intro hPurged
      have hSame := h.purged hPurged
      rw [h'.purged (hSame ▸ hPurged), hSame] }

end Follows

/-! ## A database and its later states -/

structure Extends (before after : Reports) : Prop where
  store : after.instanceId = before.instanceId
  revision : before.revision ≤ after.revision
  documents : ∀ document ∈ before.documents.rows,
    ∃ later ∈ after.documents.rows, Follows document later
  versions : ∀ version ∈ before.versions.rows,
    version ∈ after.versions.rows ∨ ∃ document ∈ after.documents.rows,
      document.id = version.documentId ∧ document.purgedAt.isSome
  receipts : ∀ receipt ∈ before.receipts.rows,
    ∃ later ∈ after.receipts.rows, later.primary = receipt.primary ∧
      later.digest = receipt.digest ∧ later.documentId = receipt.documentId
  series : SeriesKept before.series after.series

namespace Extends

theorem refl (db : Reports) : Extends db db :=
  { store := rfl
    revision := le_refl _
    documents := fun document h => ⟨document, h, Follows.refl document⟩
    versions := fun _ h => .inl h
    receipts := fun receipt h => ⟨receipt, h, rfl, rfl, rfl⟩
    series := seriesKept_refl db.series }

theorem trans {a b c : Reports} (h : Extends a b) (h' : Extends b c) :
    Extends a c :=
  { store := h'.store.trans h.store
    revision := h.revision.trans h'.revision
    documents := by
      intro document hStored
      obtain ⟨middle, hMiddle, hFirst⟩ := h.documents document hStored
      obtain ⟨later, hLater, hSecond⟩ := h'.documents middle hMiddle
      exact ⟨later, hLater, hFirst.trans hSecond⟩
    versions := by
      intro version hStored
      cases h.versions version hStored with
      | inl hKept => exact h'.versions version hKept
      | inr hPurged =>
          obtain ⟨document, hDocument, hOf, hPurged⟩ := hPurged
          obtain ⟨later, hLater, hFollows⟩ := h'.documents document hDocument
          obtain rfl := hFollows.purged hPurged
          exact .inr ⟨later, hLater, hOf, hPurged⟩
    receipts := by
      intro receipt hStored
      obtain ⟨middle, hMiddle, hKey, hDigest, hOf⟩ := h.receipts receipt hStored
      obtain ⟨later, hLater, hKey', hDigest', hOf'⟩ :=
        h'.receipts middle hMiddle
      exact ⟨later, hLater, hKey'.trans hKey, hDigest'.trans hDigest,
        hOf'.trans hOf⟩
    series := by
      intro series hStored
      obtain ⟨middle, hMiddle, hId, hOwner⟩ := h.series series hStored
      obtain ⟨later, hLater, hId', hOwner'⟩ := h'.series middle hMiddle
      exact ⟨later, hLater, hId'.trans hId, hOwner'.trans hOwner⟩ }

/-- The row of a document is followed by the row of the same id. -/
theorem follows {a b : Reports} (h : Extends a b) {document later : HtmlDocument}
    (hStored : document ∈ a.documents.rows)
    (hLater : later ∈ b.documents.rows) (hId : later.id = document.id) :
    Follows document later := by
  obtain ⟨row, hRow, hFollows⟩ := h.documents document hStored
  rwa [List.inj_on_of_nodup_map b.documents.nodup hLater hRow
    (hId.trans hFollows.id.symm)]

end Extends

/-! ## Single changes -/

variable {now : Int} {db db' : Reports}

theorem follows_of_touch {document later : HtmlDocument}
    (h : Touch now document later) : Follows document later := by
  have hKept : document.purgedAt = none := by
    cases h with
    | access _ hLive _ => exact hLive.kept
    | retention _ hLive _ => exact hLive.kept
    | remove hLive => exact hLive.kept
    | restore _ hKept _ => exact hKept
  have hPurged : document.purgedAt.isSome → later = document := by
    rw [hKept]
    exact fun hSome => nomatch hSome
  cases h with
  | access access hLive hFree =>
      exact { Follows.refl document with
        access := Nat.le_succ _
        audience := fun _ => .inr (Nat.lt_succ_self _)
        purged := hPurged }
  | retention expiry hLive hFuture =>
      exact { Follows.refl document with
        retention := Nat.le_succ _
        ends := .inr (Nat.lt_succ_self _)
        purged := hPurged }
  | remove hLive =>
      exact { Follows.refl document with
        retention := Nat.le_succ _
        ends := .inr (Nat.lt_succ_self _)
        purged := hPurged }
  | restore expiry _ hFuture =>
      exact { Follows.refl document with
        access := Nat.le_succ _
        audience := fun _ => .inr (Nat.lt_succ_self _)
        retention := Nat.le_succ _
        ends := .inr (Nat.lt_succ_self _)
        purged := hPurged }

theorem follows_newVersion {document : HtmlDocument}
    (hLive : Live document now) :
    Follows document (newVersion (document.latestVersion + 1) now document) :=
  { Follows.refl document with
    versions := Nat.le_succ _
    purged := fun hPurged => by
      rw [hLive.kept] at hPurged
      cases hPurged }

theorem follows_purged {document : HtmlDocument}
    (hKept : document.purgedAt = none) :
    Follows document (HtmlStore.purged now document) :=
  { Follows.refl document with
    audience := fun hNone => nomatch hNone
    bound := fun hNone => nomatch hNone
    purged := fun hPurged => by
      rw [hKept] at hPurged
      cases hPurged }

/-- Changing the documents of a selection, each to a later state. -/
theorem documents_update {p : HtmlDocument → Bool}
    (f : HtmlDocument → HtmlDocument)
    (hf : ∀ document, (f document).id = document.id)
    (h : ∀ document ∈ db.documents.rows, p document = true →
      Follows document (f document)) :
    ∀ document ∈ db.documents.rows,
      ∃ later ∈ (db.documents.update p f hf).rows, Follows document later := by
  intro document hStored
  refine ⟨_, Table.mem_update.mpr ⟨document, hStored, rfl⟩, ?_⟩
  split
  · rename_i hSelected
    exact h document hStored hSelected
  · exact Follows.refl document

/-- The one document of an id. -/
theorem documents_updateOne {document : HtmlDocument}
    (f : HtmlDocument → HtmlDocument)
    (hf : ∀ document, (f document).id = document.id)
    (hStored : document ∈ db.documents.rows)
    (h : Follows document (f document)) :
    ∀ document' ∈ db.documents.rows, ∃ later ∈ (db.documents.update
      (fun row => row.id = document.id) f hf).rows,
        Follows document' later := by
  refine documents_update f hf fun row hRow hId => ?_
  rwa [List.inj_on_of_nodup_map db.documents.nodup hRow hStored
    (of_decide_eq_true hId)]

theorem purgeable_kept {document : HtmlDocument}
    (h : purgeable document now = true) : document.purgedAt = none := by
  rw [purgeable, Bool.and_eq_true, Option.isNone_iff_eq_none] at h
  exact h.1

theorem mem_insert {version : HtmlVersion}
    {versions : Rows HtmlVersion.place HtmlVersion.id}
    (hInsert : db.versions.insert? version = some versions)
    (row : HtmlVersion) :
    row ∈ versions.rows ↔ row ∈ db.versions.rows ∨ row = version := by
  rw [(Rows.insert?_eq_some.mp hInsert).2, List.mem_append,
    List.mem_singleton]

/-- A row under a new key leaves those that are there. -/
theorem mem_put_of_fresh {ρ κ : Type} [DecidableEq κ] {key : ρ → κ}
    {t : Table key} {row r : ρ} (hFresh : t.find? (key row) = none)
    (h : r ∈ t.rows) : r ∈ (t.put row).rows := by
  rw [Table.rows_put_of_none hFresh]
  exact List.mem_append_left _ h

/-- What a change does to the rows there are. -/
theorem extends_of_change (hInv : Inv db) (h : Change now db db') :
    Extends db db' := by
  cases h with
  | created document version versions hFresh hNew hPlace hInsert =>
      exact { Extends.refl db with
        documents := fun row hRow =>
          ⟨row, mem_put_of_fresh hFresh hRow, Follows.refl row⟩
        versions := fun row hRow =>
          .inl ((mem_insert hInsert row).mpr (.inl hRow)) }
  | versioned document version versions hStored hLive hPlace hInsert =>
      exact { Extends.refl db with
        documents := documents_updateOne
          (newVersion (document.latestVersion + 1) now) (fun _ => rfl) hStored
          (follows_newVersion hLive)
        versions := fun row hRow =>
          .inl ((mem_insert hInsert row).mpr (.inl hRow)) }
  | touched p f hf hTouch =>
      exact { Extends.refl db with
        documents := documents_update f hf fun row hRow hSelected =>
          follows_of_touch (hTouch row hRow hSelected)
        versions := fun row hRow => .inl hRow }
  | purged id hDue =>
      have hDocuments : ∀ document ∈ db.documents.rows,
          ∃ later ∈ (Purged now id db).documents.rows,
            Follows document later :=
        documents_update (HtmlStore.purged now) (fun _ => rfl)
          fun row hRow hId => follows_purged
            (purgeable_kept (hDue row hRow (of_decide_eq_true hId)))
      refine { Extends.refl db with
        documents := hDocuments
        versions := fun version hVersion => ?_
        receipts := fun receipt hReceipt => ?_ }
      · by_cases hOf : version.documentId = id
        · obtain ⟨document, hStored, hId⟩ := hInv.owned version hVersion
          refine .inr ⟨HtmlStore.purged now document, ?_, hId, rfl⟩
          exact mem_documents_purged.mpr
            ⟨document, hStored, if_pos (hId.trans hOf)⟩
        · exact .inl (Rows.mem_keep.mpr
            ⟨hVersion, decide_eq_true hOf⟩)
      · refine ⟨_, List.mem_map_of_mem hReceipt, ?_⟩
        split <;> exact ⟨rfl, rfl, rfl⟩
  | received receipt hFresh =>
      exact { Extends.refl db with
        receipts := fun row hRow =>
          ⟨row, mem_put_of_fresh hFresh hRow, rfl, rfl, rfl⟩ }
  | shared teams members invites series hSeries =>
      exact { Extends.refl db with series := hSeries }

/-! ## The invariant of the tables -/

/-- What a change of access or lifetime leaves alone. -/
theorem same_of_touch {document later : HtmlDocument}
    (h : Touch now document later) :
    document.purgedAt = none ∧ later.purgedAt = none ∧
      later.latestVersion = document.latestVersion ∧
      later.legacyPlanId = document.legacyPlanId := by
  cases h with
  | access _ hLive _ => exact ⟨hLive.kept, hLive.kept, rfl, rfl⟩
  | retention _ hLive _ => exact ⟨hLive.kept, hLive.kept, rfl, rfl⟩
  | remove hLive => exact ⟨hLive.kept, hLive.kept, rfl, rfl⟩
  | restore _ hKept _ => exact ⟨hKept, hKept, rfl, rfl⟩

theorem private_of_touch {document later : HtmlDocument}
    (h : Touch now document later)
    (hBefore : truthyText document.seriesId = true →
      document.audience = js "private")
    (hSeries : truthyText later.seriesId = true) :
    later.audience = js "private" := by
  cases h with
  | access _ _ hFree =>
      have hBound : truthyText document.seriesId = true := hSeries
      rw [hFree] at hBound
      cases hBound
  | retention _ _ _ => exact hBefore hSeries
  | remove _ => exact hBefore hSeries
  | restore _ _ _ => rfl

/-- No version belongs to a document that is not there. -/
theorem unowned_of_fresh (hInv : Inv db) {id : JsString}
    (hFresh : db.documents.find? id = none) :
    ∀ version ∈ db.versions.rows, version.documentId ≠ id := by
  intro version hVersion hOf
  obtain ⟨document, hStored, hId⟩ := hInv.owned version hVersion
  have hFound := Table.find?_of_mem hStored
  rw [hId, hOf, hFresh] at hFound
  cases hFound

theorem inv_created (hInv : Inv db) {document : HtmlDocument}
    {version : HtmlVersion}
    {versions : Rows HtmlVersion.place HtmlVersion.id}
    (hFresh : db.documents.find? document.id = none)
    (hNew : NewDocument now document)
    (hPlace : version.place = (document.id, 1))
    (hInsert : db.versions.insert? version = some versions) :
    Inv { db with
      documents := db.documents.put document
      versions := versions } := by
  have hUnowned := unowned_of_fresh hInv hFresh
  obtain ⟨hOf, hFirst⟩ : version.documentId = document.id ∧
      version.version = 1 := Prod.mk.inj hPlace
  have hNe : ∀ row ∈ db.documents.rows, row.id ≠ document.id := by
    intro row hRow hSame
    have hFound := Table.find?_of_mem hRow
    rw [hSame, hFresh] at hFound
    cases hFound
  refine ⟨?_, ?_, ?_, ?_, ?_⟩
  · intro row hRow
    cases Table.mem_of_mem_put hRow with
    | inl hSame => exact hSame ▸ hNew.legacy
    | inr hOld => exact hInv.names row hOld
  · intro row hRow
    cases (mem_insert hInsert row).mp hRow with
    | inl hOld =>
        obtain ⟨owner, hOwner, hId⟩ := hInv.owned row hOld
        exact ⟨owner, mem_put_of_fresh hFresh hOwner, hId⟩
    | inr hSame =>
        exact ⟨document, Table.mem_put_iff.mpr (.inl rfl), hSame ▸ hOf.symm⟩
  · intro row hRow hKept n
    cases Table.mem_put_iff.mp hRow with
    | inl hSame =>
        subst hSame
        rw [hNew.version]
        constructor
        · rintro ⟨stored, hStored, hAt⟩
          cases (mem_insert hInsert stored).mp hStored with
          | inl hOld => exact absurd (Prod.mk.inj hAt).1 (hUnowned stored hOld)
          | inr hSame =>
              have hNumber : stored.version = n := (Prod.mk.inj hAt).2
              rw [hSame, hFirst] at hNumber
              omega
        · rintro ⟨hLow, hHigh⟩
          obtain rfl : n = 1 := by omega
          exact ⟨version, (mem_insert hInsert version).mpr (.inr rfl), hPlace⟩
    | inr hOld =>
        rw [← hInv.numbered row hOld.1 hKept n]
        constructor
        · rintro ⟨stored, hStored, hAt⟩
          cases (mem_insert hInsert stored).mp hStored with
          | inl hOldVersion => exact ⟨stored, hOldVersion, hAt⟩
          | inr hSame =>
              have hId : stored.documentId = row.id := (Prod.mk.inj hAt).1
              rw [hSame, hOf] at hId
              exact absurd hId.symm hOld.2
        · rintro ⟨stored, hStored, hAt⟩
          exact ⟨stored, (mem_insert hInsert stored).mpr (.inl hStored), hAt⟩
  · intro row hRow hPurged stored hStored hSameId
    cases Table.mem_put_iff.mp hRow with
    | inl hSame =>
        rw [hSame, hNew.purgedAt] at hPurged
        cases hPurged
    | inr hOld =>
        cases (mem_insert hInsert stored).mp hStored with
        | inl hOldVersion =>
            exact hInv.emptied row hOld.1 hPurged stored hOldVersion hSameId
        | inr hSame =>
            rw [hSame, hOf] at hSameId
            exact hOld.2 hSameId.symm
  · intro row hRow hSeries
    cases Table.mem_of_mem_put hRow with
    | inl hSame => exact hSame ▸ hNew.series (hSame ▸ hSeries)
    | inr hOld => exact hInv.series row hOld hSeries

/-- The rows after one document is changed. -/
theorem mem_updateOne {document row : HtmlDocument}
    {f : HtmlDocument → HtmlDocument}
    (hStored : document ∈ db.documents.rows)
    (h : row ∈ db.documents.rows.map (fun row =>
      if (decide (row.id = document.id)) = true then f row else row)) :
    row = f document ∨ row ∈ db.documents.rows ∧ row.id ≠ document.id := by
  obtain ⟨old, hOld, hNew⟩ := List.mem_map.mp h
  split at hNew
  · rename_i hId
    rw [← hNew, List.inj_on_of_nodup_map db.documents.nodup hOld hStored
      (of_decide_eq_true hId)]
    exact .inl rfl
  · rename_i hId
    rw [← hNew]
    exact .inr ⟨hOld, fun hSame => hId (decide_eq_true hSame)⟩

theorem inv_versioned (hInv : Inv db) {document : HtmlDocument}
    {version : HtmlVersion}
    {versions : Rows HtmlVersion.place HtmlVersion.id}
    (hStored : document ∈ db.documents.rows) (hLive : Live document now)
    (hPlace : version.place = (document.id, document.latestVersion + 1))
    (hInsert : db.versions.insert? version = some versions) :
    Inv { db with
      documents := db.documents.update (fun row => row.id = document.id)
        (newVersion (document.latestVersion + 1) now) (fun _ => rfl)
      versions := versions } := by
  obtain ⟨hOf, hNext⟩ : version.documentId = document.id ∧
      version.version = document.latestVersion + 1 := Prod.mk.inj hPlace
  refine ⟨?_, ?_, ?_, ?_, ?_⟩
  · intro row hRow
    cases mem_updateOne hStored hRow with
    | inl hSame => exact hSame ▸ hInv.names document hStored
    | inr hOld => exact hInv.names row hOld.1
  · intro row hRow
    have hOwner : ∃ owner ∈ db.documents.rows, owner.id = row.documentId := by
      cases (mem_insert hInsert row).mp hRow with
      | inl hOld => exact hInv.owned row hOld
      | inr hSame => exact ⟨document, hStored, hSame ▸ hOf.symm⟩
    obtain ⟨owner, hOwner, hId⟩ := hOwner
    refine ⟨_, List.mem_map_of_mem hOwner, ?_⟩
    split <;> exact hId
  · intro row hRow hKept n
    cases mem_updateOne hStored hRow with
    | inl hSame =>
        subst hSame
        change (∃ stored ∈ versions.rows, stored.place = (document.id, n)) ↔
          1 ≤ n ∧ n ≤ document.latestVersion + 1
        have hBefore := hInv.numbered document hStored hLive.kept n
        constructor
        · rintro ⟨stored, hRow, hAt⟩
          cases (mem_insert hInsert stored).mp hRow with
          | inl hOld =>
              have hRange := hBefore.mp ⟨stored, hOld, hAt⟩
              omega
          | inr hSame =>
              have hNumber : stored.version = n := (Prod.mk.inj hAt).2
              rw [hSame, hNext] at hNumber
              omega
        · rintro ⟨hLow, hHigh⟩
          by_cases hLast : n = document.latestVersion + 1
          · exact ⟨version, (mem_insert hInsert version).mpr (.inr rfl),
              hLast ▸ hPlace⟩
          · obtain ⟨stored, hRow, hAt⟩ := hBefore.mpr ⟨hLow, by omega⟩
            exact ⟨stored, (mem_insert hInsert stored).mpr (.inl hRow), hAt⟩
    | inr hOld =>
        rw [← hInv.numbered row hOld.1 hKept n]
        constructor
        · rintro ⟨stored, hRow, hAt⟩
          cases (mem_insert hInsert stored).mp hRow with
          | inl hOldVersion => exact ⟨stored, hOldVersion, hAt⟩
          | inr hSame =>
              have hId : stored.documentId = row.id := (Prod.mk.inj hAt).1
              rw [hSame, hOf] at hId
              exact absurd hId.symm hOld.2
        · rintro ⟨stored, hRow, hAt⟩
          exact ⟨stored, (mem_insert hInsert stored).mpr (.inl hRow), hAt⟩
  · intro row hRow hPurged stored hStoredRow hSameId
    cases mem_updateOne hStored hRow with
    | inl hSame =>
        rw [hSame] at hPurged
        change document.purgedAt.isSome = true at hPurged
        rw [hLive.kept] at hPurged
        cases hPurged
    | inr hOld =>
        cases (mem_insert hInsert stored).mp hStoredRow with
        | inl hOldVersion =>
            exact hInv.emptied row hOld.1 hPurged stored hOldVersion hSameId
        | inr hSame =>
            rw [hSame, hOf] at hSameId
            exact hOld.2 hSameId.symm
  · intro row hRow hSeries
    cases mem_updateOne hStored hRow with
    | inl hSame =>
        subst hSame
        exact hInv.series document hStored hSeries
    | inr hOld => exact hInv.series row hOld.1 hSeries

theorem inv_touched (hInv : Inv db) {p : HtmlDocument → Bool}
    {f : HtmlDocument → HtmlDocument}
    {hf : ∀ document, (f document).id = document.id}
    (hTouch : ∀ document ∈ db.documents.rows, p document = true →
      Touch now document (f document)) :
    Inv { db with documents := db.documents.update p f hf } := by
  have hRows : ∀ row ∈ (db.documents.update p f hf).rows,
      row ∈ db.documents.rows ∨
        ∃ old ∈ db.documents.rows, row.id = old.id ∧ Touch now old row := by
    intro row hRow
    obtain ⟨old, hOld, hNew⟩ := Table.mem_update.mp hRow
    split at hNew
    · rename_i hSelected
      subst hNew
      exact .inr ⟨old, hOld, hf old, hTouch old hOld hSelected⟩
    · exact .inl (hNew ▸ hOld)
  refine ⟨?_, ?_, ?_, ?_, ?_⟩
  · intro row hRow
    obtain hOld | ⟨old, hOld, hId, hTouched⟩ := hRows row hRow
    · exact hInv.names row hOld
    · rw [(same_of_touch hTouched).2.2.2, hId]
      exact hInv.names old hOld
  · intro version hVersion
    obtain ⟨owner, hOwner, hId⟩ := hInv.owned version hVersion
    refine ⟨_, List.mem_map_of_mem hOwner, ?_⟩
    split
    · exact (hf owner).trans hId
    · exact hId
  · intro row hRow hKept n
    obtain hOld | ⟨old, hOld, hId, hTouched⟩ := hRows row hRow
    · exact hInv.numbered row hOld hKept n
    · rw [(same_of_touch hTouched).2.2.1, hId]
      exact hInv.numbered old hOld (same_of_touch hTouched).1 n
  · intro row hRow hPurged
    obtain hOld | ⟨old, hOld, hId, hTouched⟩ := hRows row hRow
    · exact hInv.emptied row hOld hPurged
    · rw [(same_of_touch hTouched).2.1] at hPurged
      cases hPurged
  · intro row hRow hSeries
    obtain hOld | ⟨old, hOld, hId, hTouched⟩ := hRows row hRow
    · exact hInv.series row hOld hSeries
    · exact private_of_touch hTouched (hInv.series old hOld) hSeries

theorem inv_purged (hInv : Inv db) (id : JsString) :
    Inv (Purged now id db) := by
  have hVersions : ∀ version, version ∈ (Purged now id db).versions.rows ↔
      version ∈ db.versions.rows ∧ version.documentId ≠ id := by
    intro version
    exact Rows.mem_keep.trans (and_congr_right fun _ => decide_eq_true_iff)
  have hRows : ∀ row ∈ (Purged now id db).documents.rows,
      (row ∈ db.documents.rows ∧ row.id ≠ id) ∨
        ∃ old ∈ db.documents.rows, old.id = id ∧
          row = HtmlStore.purged now old := by
    intro row hRow
    obtain ⟨old, hOld, hNew⟩ := mem_documents_purged.mp hRow
    split at hNew
    · rename_i hId
      exact .inr ⟨old, hOld, hId, hNew.symm⟩
    · rename_i hId
      exact .inl (hNew ▸ ⟨hOld, hId⟩)
  refine ⟨?_, ?_, ?_, ?_, ?_⟩
  · intro row hRow
    obtain ⟨hOld, -⟩ | ⟨old, -, -, rfl⟩ := hRows row hRow
    · exact hInv.names row hOld
    · exact .inl rfl
  · intro version hVersion
    obtain ⟨hOld, hOther⟩ := (hVersions version).mp hVersion
    obtain ⟨owner, hOwner, hId⟩ := hInv.owned version hOld
    exact ⟨owner, mem_documents_purged.mpr ⟨owner, hOwner,
      if_neg (fun hSame => hOther (hId.symm.trans hSame))⟩, hId⟩
  · intro row hRow hKept n
    obtain ⟨hOld, hOther⟩ | ⟨old, -, -, rfl⟩ := hRows row hRow
    · rw [← hInv.numbered row hOld hKept n]
      constructor
      · rintro ⟨version, hVersion, hAt⟩
        exact ⟨version, ((hVersions version).mp hVersion).1, hAt⟩
      · rintro ⟨version, hVersion, hAt⟩
        have hOf : version.documentId = row.id := (Prod.mk.inj hAt).1
        exact ⟨version, (hVersions version).mpr ⟨hVersion, hOf ▸ hOther⟩, hAt⟩
    · cases hKept
  · intro row hRow hPurged version hVersion
    obtain ⟨hStored, hOther⟩ := (hVersions version).mp hVersion
    obtain ⟨hOld, -⟩ | ⟨old, -, hId, rfl⟩ := hRows row hRow
    · exact hInv.emptied row hOld hPurged version hStored
    · exact fun hSame => hOther (hSame.trans hId)
  · intro row hRow hSeries
    obtain ⟨hOld, -⟩ | ⟨old, -, -, rfl⟩ := hRows row hRow
    · exact hInv.series row hOld hSeries
    · rfl

/-- Every change keeps the invariant. -/
theorem inv_of_change (hInv : Inv db) (h : Change now db db') : Inv db' := by
  cases h with
  | created document version versions hFresh hNew hPlace hInsert =>
      exact inv_created hInv hFresh hNew hPlace hInsert
  | versioned document version versions hStored hLive hPlace hInsert =>
      exact inv_versioned hInv hStored hLive hPlace hInsert
  | touched p f hf hTouch => exact inv_touched hInv hTouch
  | purged id hDue => exact inv_purged hInv id
  | received receipt hFresh => exact { hInv with }
  | shared teams members invites series hSeries => exact { hInv with }

theorem steps_inv (hInv : Inv db) (h : Steps now db db') : Inv db' := by
  induction h with
  | refl => exact hInv
  | tail _ hChange ih => exact inv_of_change ih hChange

theorem steps_extends (hInv : Inv db) (h : Steps now db db') :
    Extends db db' := by
  induction h with
  | refl => exact .refl db
  | tail hBefore hChange ih =>
      exact ih.trans (extends_of_change (steps_inv hInv hBefore) hChange)

theorem inv_nextRevision (hInv : Inv db) : Inv (nextRevision db) :=
  { hInv with }

theorem extends_nextRevision : Extends db (nextRevision db) :=
  { Extends.refl db with revision := Nat.le_succ _ }

theorem settled_inv (hInv : Inv db) (h : Settled now db db') : Inv db' := by
  cases h with
  | inl hSame => exact hSame ▸ hInv
  | inr hCommit =>
      obtain ⟨mid, hSteps, rfl⟩ := hCommit
      exact inv_nextRevision (steps_inv hInv hSteps)

theorem settled_extends (hInv : Inv db) (h : Settled now db db') :
    Extends db db' := by
  cases h with
  | inl hSame => exact hSame ▸ .refl db
  | inr hCommit =>
      obtain ⟨mid, hSteps, rfl⟩ := hCommit
      exact (steps_extends hInv hSteps).trans extends_nextRevision

/-! ## Recovery -/

/-- A document that was live at a time: it ends no earlier, and it is purged
thirty days after that at the earliest. -/
structure Recoverable (time : Int) (document : HtmlDocument) : Prop where
  removedAt : ∀ removed ∈ document.removedAt, time ≤ removed
  expiresAt : ∀ expiry ∈ document.expiresAt, time ≤ expiry
  purgedAt : ∀ purged ∈ document.purgedAt, time + recoveryMs ≤ purged

/-- All rows of an id are recoverable. -/
def RecoverableIn (time : Int) (id : JsString) (db : Reports) : Prop :=
  ∀ document ∈ db.documents.rows, document.id = id → Recoverable time document

/-- An end that is not past. -/
theorem lt_of_standing {ends : Option Int}
    (h : ends.filter (· ≤ now) = none) : ∀ e ∈ ends, now < e := by
  intro e he
  have hLater := Option.filter_eq_none_iff.mp h e he
  simpa using hLater

/-- A document stands while neither of its ends is past. -/
theorem removedAt_eq_none {document : HtmlDocument} :
    removedAt document now = none ↔
      document.removedAt.filter (· ≤ now) = none ∧
        document.expiresAt.filter (· ≤ now) = none := by
  unfold removedAt
  dsimp only
  split
  · simp_all
  · simp_all
  · rename_i hRemoved
    rw [hRemoved]
    exact ⟨fun h => ⟨rfl, h⟩, And.right⟩

theorem recoverable_of_live {document : HtmlDocument}
    (h : Live document now) : Recoverable now document := by
  have hEnds := removedAt_eq_none.mp h.standing
  refine ⟨fun e he => le_of_lt (lt_of_standing hEnds.1 e he),
    fun e he => le_of_lt (lt_of_standing hEnds.2 e he), ?_⟩
  intro time hTime
  rw [h.kept] at hTime
  cases hTime

theorem recoverable_of_touch {time : Int} (hTime : time ≤ now)
    {document later : HtmlDocument} (h : Recoverable time document)
    (hTouch : Touch now document later) : Recoverable time later := by
  cases hTouch with
  | access access _ _ => exact { h with }
  | retention expiry _ hFuture =>
      exact { h with
        expiresAt := fun e he => hTime.trans (le_of_lt (hFuture e he)) }
  | remove _ =>
      exact { h with
        removedAt := fun r hr => hTime.trans (Option.mem_some_iff.mp hr).le }
  | restore expiry _ hFuture =>
      exact { h with
        removedAt := fun r hr => nomatch hr
        expiresAt := fun e he => hTime.trans (le_of_lt (hFuture e he)) }

/-- A document that is due ended thirty days ago. -/
theorem recoverable_purged {time : Int} {document : HtmlDocument}
    (h : Recoverable time document) (hDue : purgeable document now = true) :
    Recoverable time (HtmlStore.purged now document) := by
  refine { h with purgedAt := fun purged hPurged => ?_ }
  obtain rfl : now = purged := Option.mem_some_iff.mp hPurged
  rw [purgeable, Bool.and_eq_true, Bool.or_eq_true, recoveryOver,
    recoveryOver, Option.any_eq_true, Option.any_eq_true] at hDue
  obtain ⟨removed, hRemoved, hOver⟩ | ⟨expiry, hExpiry, hOver⟩ := hDue.2
  · have hStart := h.removedAt removed hRemoved
    have hEnd := of_decide_eq_true hOver
    omega
  · have hStart := h.expiresAt expiry hExpiry
    have hEnd := of_decide_eq_true hOver
    omega

theorem recoverable_of_change {time : Int} {id : JsString}
    (hTime : time ≤ now) (h : RecoverableIn time id db)
    (hChange : Change now db db') : RecoverableIn time id db' := by
  cases hChange with
  | created document version versions hFresh hNew hPlace hInsert =>
      intro row hRow hId
      cases Table.mem_of_mem_put hRow with
      | inr hOld => exact h row hOld hId
      | inl hSame =>
          subst hSame
          refine ⟨fun r hr => ?_, fun e he => ?_, fun p hp => ?_⟩
          · rw [hNew.removedAt] at hr
            cases hr
          · exact hTime.trans (le_of_lt (hNew.expiresAt e he))
          · rw [hNew.purgedAt] at hp
            cases hp
  | versioned document version versions hStored hLive hPlace hInsert =>
      intro row hRow hId
      cases mem_updateOne hStored hRow with
      | inr hOld => exact h row hOld.1 hId
      | inl hSame =>
          subst hSame
          exact { h document hStored hId with }
  | touched p f hf hTouch =>
      intro row hRow hId
      obtain ⟨old, hOld, hNew⟩ := List.mem_map.mp hRow
      split at hNew
      · rename_i hSelected
        subst hNew
        exact recoverable_of_touch hTime (h old hOld ((hf old).symm.trans hId))
          (hTouch old hOld hSelected)
      · exact h row (hNew ▸ hOld) hId
  | purged purgedId hDue =>
      intro row hRow hId
      obtain ⟨old, hOld, hNew⟩ := mem_documents_purged.mp hRow
      split at hNew
      · rename_i hPurged
        subst hNew
        exact recoverable_purged (h old hOld hId) (hDue old hOld hPurged)
      · exact h row (hNew ▸ hOld) hId
  | received receipt hFresh => exact h
  | shared teams members invites series hSeries => exact h

theorem recoverable_of_settled {time : Int} {id : JsString}
    (hTime : time ≤ now) (h : RecoverableIn time id db)
    (hSettled : Settled now db db') : RecoverableIn time id db' := by
  cases hSettled with
  | inl hSame => exact hSame ▸ h
  | inr hCommit =>
      obtain ⟨mid, hSteps, rfl⟩ := hCommit
      have hMid : RecoverableIn time id mid := by
        induction hSteps with
        | refl => exact h
        | tail _ hChange ih => exact recoverable_of_change hTime ih hChange
      exact hMid

/-! ## Runs -/

/-- The tables of a new database. -/
def emptyReports (store : JsString) : Reports where
  instanceId := store
  revision := 0
  documents := Table.empty
  versions := Rows.empty
  receipts := Table.empty
  teams := Table.empty
  members := Table.empty
  invites := Table.empty
  series := Table.empty

theorem inv_emptyReports (store : JsString) : Inv (emptyReports store) :=
  { names := fun _ h => nomatch h
    owned := fun _ h => nomatch h
    numbered := fun _ h => nomatch h
    emptied := fun _ h => nomatch h
    series := fun _ h => nomatch h }

section Runs

variable [HtmlRuntime] [ReportRuntime] [CaseMapping] {s s' : Clocked}

theorem inv_of_turn {turn : Turn} (hInv : Inv s.db) :
    Inv (reports turn s).2.db :=
  settled_inv hInv (settled_perform hInv.names turn)

theorem inv_of_reached (hInv : Inv s.db) (h : Reached reports inTime s s') :
    Inv s'.db :=
  h.invariant (fun state => Inv state.db) hInv fun _ _ hBefore _ =>
    inv_of_turn hBefore

theorem extends_of_reached (hInv : Inv s.db)
    (h : Reached reports inTime s s') : Extends s.db s'.db := by
  refine @Reached.related _ _ _ _ _ _ (fun state => Inv state.db)
    (fun before after => Extends before.db after.db) hInv
    (fun _ _ hBefore _ => inv_of_turn hBefore) (fun before => .refl before.db)
    ?_ ?_ _ h
  · intro a b c hFirst hSecond
    exact hFirst.trans hSecond
  · intro before turn hBefore _
    exact settled_extends hBefore (settled_perform hBefore.names turn)

/-- A document that is live when a run starts can be recovered for thirty
days from then on. -/
theorem recoverable_of_reached (hInv : Inv s.db) {document : HtmlDocument}
    (hStored : document ∈ s.db.documents.rows) (hLive : Live document s.clock)
    (h : Reached reports inTime s s') :
    RecoverableIn s.clock document.id s'.db := by
  have hStart : RecoverableIn s.clock document.id s.db := by
    intro row hRow hId
    rw [List.inj_on_of_nodup_map s.db.documents.nodup hRow hStored hId]
    exact recoverable_of_live hLive
  have hAll := h.invariant (fun s' => (Inv s'.db ∧ s.clock ≤ s'.clock) ∧
      RecoverableIn s.clock document.id s'.db) ⟨⟨hInv, le_refl _⟩, hStart⟩ ?_
  · exact hAll.2
  · intro mid turn hMid hTime
    have hNow : s.clock ≤ turn.now := hMid.1.2.trans hTime
    have hSettled := settled_perform hMid.1.1.names turn
    exact ⟨⟨settled_inv hMid.1.1 hSettled, hNow⟩,
      recoverable_of_settled hNow hMid.2 hSettled⟩

end Runs

end OpenApe.Ports.HtmlLifecycle
