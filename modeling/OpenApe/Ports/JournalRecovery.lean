import OpenApe.Ports.HtmlLifecycle
import OpenApe.Ports.HtmlPolicyJournal

/-!
# Recovering from the policy journal

What `initializeHtmlPolicyJournal` leaves of an older database when the
journal is a later state of the same history: either it refuses, or the
policies are those of the later state (`SamePolicy`).  The loop over the
policies is carried by `Restoring`, in which every row still has the versions
it had in the older database.
-/

namespace OpenApe.Ports.JournalRecovery

open Verified.KeyedTable Verified.Transactions Verified.Transactions.Action
open CentralValues (maxSafeInteger)
open HtmlStore PlansStore HtmlRuns HtmlLifecycle HtmlPolicyJournal

/-! ## Equal policies -/

/-- The columns of a document that make up its policy: all but its latest
version and its times. -/
def policyOf (document : HtmlDocument) : HtmlDocument :=
  { document with latestVersion := 0, createdAt := 0, updatedAt := 0 }

/-- The policies of a database are those of another one, and its versions
are whole. -/
structure SamePolicy (newer db : Reports) : Prop where
  documents : ∀ id, (db.documents.find? id).map policyOf =
    (newer.documents.find? id).map policyOf
  teams : db.teams = newer.teams
  members : db.members = newer.members
  invites : db.invites = newer.invites
  publishers : ∀ id, (db.series.find? id).map savedPublisher =
    (newer.series.find? id).map savedPublisher
  keys : ∀ key, (db.receipts.find? key).map HtmlReceipt.digest =
    (newer.receipts.find? key).map HtmlReceipt.digest
  numbered : ∀ document ∈ db.documents.rows, document.purgedAt = none →
    ∀ n, (∃ version ∈ db.versions.rows,
      version.place = (document.id, n)) ↔ 1 ≤ n ∧ n ≤ document.latestVersion
  emptied : ∀ document ∈ db.documents.rows, document.purgedAt.isSome →
    ∀ version ∈ db.versions.rows, version.documentId ≠ document.id

variable {older newer db db' : Reports}

theorem samePolicy_self (hInv : Inv db) : SamePolicy db db :=
  { documents := fun _ => rfl
    teams := rfl
    members := rfl
    invites := rfl
    publishers := fun _ => rfl
    keys := fun _ => rfl
    numbered := hInv.numbered
    emptied := hInv.emptied }

/-! ## One policy -/

/-- What is left when a policy is applied: its row, with the version of the
row that was there; no versions of a purged document; and all receipts. -/
structure Applied (policy : HtmlDocument) (db db' : Reports) : Prop where
  row : ∃ row, row.id = policy.id ∧ policyOf row = policyOf policy ∧
    (policy.purgedAt = none → ∃ current ∈ db.documents.rows,
      current.id = policy.id ∧ row.latestVersion = current.latestVersion ∧
        policy.latestVersion ≤ current.latestVersion) ∧
    ∀ other, other ∈ db'.documents.rows ↔
      other = row ∨ other ∈ db.documents.rows ∧ other.id ≠ policy.id
  versions : ∀ version, version ∈ db'.versions.rows ↔
    version ∈ db.versions.rows ∧
      (policy.purgedAt.isSome → version.documentId ≠ policy.id)
  keys : ∀ key, (db'.receipts.find? key).map HtmlReceipt.digest =
    (db.receipts.find? key).map HtmlReceipt.digest
  rest : ∃ documents versions receipts, db' = { db with
    documents := documents, versions := versions, receipts := receipts }

/-- Storing a policy writes its row alone. -/
theorem returns_storePolicy {policy : HtmlDocument}
    (h : Returns (storePolicy policy (db.documents.find? policy.id)) db ()
      db') :
    ∃ row documents, row.id = policy.id ∧ policyOf row = policyOf policy ∧
      (∀ current, db.documents.find? policy.id = some current →
        row.latestVersion = current.latestVersion) ∧
      (∀ other, other ∈ Table.rows documents ↔
        other = row ∨ other ∈ db.documents.rows ∧ other.id ≠ policy.id) ∧
      db' = { db with documents := documents } := by
  cases hCurrent : db.documents.find? policy.id with
  | none =>
      rw [hCurrent] at h
      obtain ⟨-, rfl⟩ := returns_insertDocument h
      exact ⟨policy, _, rfl, rfl, (fun _ hSome => nomatch hSome),
        fun other => Table.mem_put_iff, rfl⟩
  | some current =>
      rw [hCurrent] at h
      obtain ⟨_, -, hUpdate⟩ := returns_query_bind.mp h
      obtain rfl := returns_write.mp hUpdate
      have hStored := Table.mem_of_find? hCurrent
      have hId := Table.key_of_find? hCurrent
      refine ⟨withPolicy policy current, _, hId, ?_, ?_, ?_, rfl⟩
      · change ({ policyOf policy with id := current.id } : HtmlDocument) = _
        rw [hId]
        rfl
      · rintro _ hSome
        obtain rfl := Option.some.inj hSome
        rfl
      · intro other
        constructor
        · intro hOther
          obtain ⟨old, hOld, hNew⟩ := List.mem_map.mp hOther
          split at hNew
          · rename_i hSame
            rw [← hNew, List.inj_on_of_nodup_map db.documents.nodup hOld
              hStored ((of_decide_eq_true hSame).trans hId.symm)]
            exact .inl rfl
          · rename_i hOtherId
            rw [← hNew]
            exact .inr ⟨hOld, fun hSame => hOtherId (decide_eq_true hSame)⟩
        · rintro (rfl | ⟨hOld, hNe⟩)
          · refine List.mem_map.mpr ⟨current, hStored, ?_⟩
            rw [if_pos (decide_eq_true hId)]
          · refine List.mem_map.mpr ⟨other, hOld, ?_⟩
            rw [if_neg (by simpa using hNe)]

theorem returns_emptyPurged {policy : HtmlDocument}
    (h : Returns (emptyPurged policy) db () db') :
    ∃ versions receipts,
      (∀ version, version ∈ Table.rows (Rows.toTable versions) ↔
        version ∈ db.versions.rows ∧
          (policy.purgedAt.isSome → version.documentId ≠ policy.id)) ∧
      (∀ key, (Table.find? receipts key).map HtmlReceipt.digest =
        (db.receipts.find? key).map HtmlReceipt.digest) ∧
      db' = { db with versions := versions, receipts := receipts } := by
  unfold emptyPurged at h
  split at h
  · rename_i hPurged
    rw [returns_write_bind] at h
    obtain rfl := returns_write.mp h
    refine ⟨_, _, fun version => ?_, fun key => ?_, rfl⟩
    · rw [Rows.mem_keep, decide_eq_true_iff]
      exact and_congr_right fun _ => ⟨fun hNe _ => hNe, fun hNe => hNe hPurged⟩
    · have hFind := Table.find?_update db.receipts
        (fun receipt => receipt.documentId = policy.id)
        (purgedReceipt policy.id) (fun _ => rfl) key
      refine (congrArg (Option.map HtmlReceipt.digest) hFind).trans ?_
      rw [Option.map_map]
      refine Option.map_congr fun receipt _ => ?_
      rw [Function.comp_apply]
      split <;> rfl
  · rename_i hKept
    obtain ⟨-, rfl⟩ := returns_pure.mp h
    exact ⟨db'.versions, db'.receipts,
      fun version => ⟨fun hMem => ⟨hMem, fun hPurged => absurd hPurged hKept⟩,
        And.left⟩, fun _ => rfl, rfl⟩

theorem returns_applyPolicy {policy : HtmlDocument}
    (h : Returns (applyPolicy policy) db () db') : Applied policy db db' := by
  rw [applyPolicy, returns_query_bind] at h
  obtain ⟨current, hRead, h⟩ := h
  obtain rfl := Except.ok.inj hRead
  rw [returns_check_bind] at h
  obtain ⟨_, hVersions, h⟩ := h
  rw [returns_check_bind] at h
  obtain ⟨_, -, h⟩ := h
  obtain ⟨_, mid, hStore, hEmpty⟩ := returns_bind.mp h
  obtain ⟨row, documents, hId, hPolicy, hLatest, hRows, rfl⟩ :=
    returns_storePolicy hStore
  obtain ⟨versions, receipts, hKept, hKeys, rfl⟩ := returns_emptyPurged hEmpty
  refine ⟨⟨row, hId, hPolicy, ?_, hRows⟩, hKept, hKeys,
    documents, versions, receipts, rfl⟩
  intro hUnpurged
  rw [throwIf_eq_ok, hUnpurged, Option.isNone_none, Bool.true_and] at hVersions
  cases hCurrent : db.documents.find? policy.id with
  | none =>
      rw [hCurrent] at hVersions
      cases hVersions
  | some current =>
      rw [hCurrent, Option.all_some, decide_eq_false_iff_not, not_lt]
        at hVersions
      exact ⟨current, Table.mem_of_find? hCurrent, Table.key_of_find? hCurrent,
        hLatest current hCurrent, hVersions⟩

/-! ## All policies -/

/-- Between two policies: the rows are those of the newer database, with the
versions they have in the older one. -/
structure Restoring (older newer db : Reports) : Prop where
  known : ∀ row ∈ db.documents.rows,
    ∃ policy ∈ newer.documents.rows, policy.id = row.id
  latest : ∀ row ∈ db.documents.rows, ∀ policy ∈ newer.documents.rows,
    policy.id = row.id → policy.purgedAt = none →
      ∃ old ∈ older.documents.rows, old.id = row.id ∧
        row.latestVersion = old.latestVersion
  versions : ∀ version ∈ db.versions.rows, version ∈ older.versions.rows
  kept : ∀ version ∈ older.versions.rows, version ∈ db.versions.rows ∨
    ∃ policy ∈ newer.documents.rows,
      policy.id = version.documentId ∧ policy.purgedAt.isSome
  keys : ∀ key, (db.receipts.find? key).map HtmlReceipt.digest =
    (older.receipts.find? key).map HtmlReceipt.digest
  rest : ∃ documents versions receipts, db = { older with
    documents := documents, versions := versions, receipts := receipts }

/-- The row of a policy has been brought up to it. -/
def InForce (policy : HtmlDocument) (db : Reports) : Prop :=
  (∃ row ∈ db.documents.rows, row.id = policy.id ∧
    policyOf row = policyOf policy ∧
    (policy.purgedAt = none → policy.latestVersion ≤ row.latestVersion)) ∧
  (policy.purgedAt.isSome →
    ∀ version ∈ db.versions.rows, version.documentId ≠ policy.id)

theorem restoring_start (h : Extends older newer) :
    Restoring older newer older :=
  { known := by
      intro row hRow
      obtain ⟨policy, hPolicy, hFollows⟩ := h.documents row hRow
      exact ⟨policy, hPolicy, hFollows.id⟩
    latest := fun row hRow _ _ _ _ => ⟨row, hRow, rfl, rfl⟩
    versions := fun _ hMem => hMem
    kept := fun _ hMem => .inl hMem
    keys := fun _ => rfl
    rest := ⟨older.documents, older.versions, older.receipts, rfl⟩ }

/-- The policies of a database with one id are one policy. -/
theorem policy_unique {a b : HtmlDocument} (ha : a ∈ newer.documents.rows)
    (hb : b ∈ newer.documents.rows) (hId : a.id = b.id) : a = b :=
  List.inj_on_of_nodup_map newer.documents.nodup ha hb hId

theorem restoring_applied (hBefore : Restoring older newer db)
    {policy : HtmlDocument} (hPolicy : policy ∈ newer.documents.rows)
    (h : Applied policy db db') : Restoring older newer db' := by
  obtain ⟨row, hId, -, hCurrent, hRows⟩ := h.row
  refine ⟨?_, ?_, ?_, ?_, ?_, ?_⟩
  · intro other hOther
    obtain rfl | hOld := (hRows other).mp hOther
    · exact ⟨policy, hPolicy, hId.symm⟩
    · exact hBefore.known other hOld.1
  · intro other hOther policy' hPolicy' hSame hKept
    obtain rfl | hOld := (hRows other).mp hOther
    · obtain rfl := policy_unique hPolicy' hPolicy (hSame.trans hId)
      obtain ⟨current, hStored, hCurrentId, hLatest, -⟩ := hCurrent hKept
      obtain ⟨old, hOldStored, hOldId, hOldLatest⟩ := hBefore.latest current
        hStored policy' hPolicy' hCurrentId.symm hKept
      exact ⟨old, hOldStored, hOldId.trans (hCurrentId.trans hId.symm),
        hLatest.trans hOldLatest⟩
    · exact hBefore.latest other hOld.1 policy' hPolicy' hSame hKept
  · intro version hVersion
    exact hBefore.versions version ((h.versions version).mp hVersion).1
  · intro version hVersion
    cases hBefore.kept version hVersion with
    | inr hPurged => exact .inr hPurged
    | inl hStored =>
        by_cases hOf : policy.purgedAt.isSome ∧ version.documentId = policy.id
        · exact .inr ⟨policy, hPolicy, hOf.2.symm, hOf.1⟩
        · exact .inl ((h.versions version).mpr ⟨hStored,
            fun hPurged hSame => hOf ⟨hPurged, hSame⟩⟩)
  · exact fun key => (h.keys key).trans (hBefore.keys key)
  · obtain ⟨documents, versions, receipts, rfl⟩ := h.rest
    obtain ⟨_, _, _, hRest⟩ := hBefore.rest
    exact ⟨documents, versions, receipts, by rw [hRest]⟩

theorem inForce_applied {policy : HtmlDocument}
    (h : Applied policy db db') : InForce policy db' := by
  obtain ⟨row, hId, hSame, hCurrent, hRows⟩ := h.row
  refine ⟨⟨row, (hRows row).mpr (.inl rfl), hId, hSame, ?_⟩, ?_⟩
  · intro hKept
    obtain ⟨current, -, -, hLatest, hLe⟩ := hCurrent hKept
    omega
  · intro hPurged version hVersion
    exact ((h.versions version).mp hVersion).2 hPurged

/-- Applying a policy leaves those in force that were. -/
theorem inForce_kept {policy other : HtmlDocument}
    (hPolicy : policy ∈ newer.documents.rows)
    (hOther : other ∈ newer.documents.rows) (hBefore : InForce other db)
    (h : Applied policy db db') : InForce other db' := by
  by_cases hSame : other.id = policy.id
  · obtain rfl := policy_unique hOther hPolicy hSame
    exact inForce_applied h
  · obtain ⟨⟨row, hRow, hId, hInForce⟩, hEmpty⟩ := hBefore
    obtain ⟨_, -, -, -, hRows⟩ := h.row
    have hKept := (hRows row).mpr (.inr ⟨hRow, fun h => hSame (hId ▸ h)⟩)
    exact ⟨⟨row, hKept, hId, hInForce⟩, fun hPurged version hVersion =>
      hEmpty hPurged version ((h.versions version).mp hVersion).1⟩

theorem returns_policies (hExtends : Extends older newer) {u : Unit}
    (h : Returns (each (capture newer).policies applyPolicy) older u db) :
    Restoring older newer db ∧
      ∀ policy ∈ newer.documents.rows, InForce policy db := by
  have hMem : ∀ policy, policy ∈ (capture newer).policies ↔
      policy ∈ newer.documents.rows := fun _ => List.mem_insertionSort _
  have hLoop := returns_each_all (Restoring older newer) InForce h
    (restoring_start hExtends) ?_
  · exact ⟨hLoop.1, fun policy hPolicy =>
      hLoop.2 policy ((hMem policy).mpr hPolicy)⟩
  · intro policy hPolicy before after hBefore hRun
    have hApplied := returns_applyPolicy hRun
    have hStored := (hMem policy).mp hPolicy
    exact ⟨restoring_applied hBefore hStored hApplied, inForce_applied hApplied,
      fun other hOther hInForce =>
        inForce_kept hStored ((hMem other).mp hOther) hInForce hApplied⟩

theorem purgedAt_of_policyOf {a b : HtmlDocument}
    (h : policyOf a = policyOf b) : a.purgedAt = b.purgedAt := by
  have hColumn := congrArg HtmlDocument.purgedAt h
  exact hColumn

/-- The documents and versions once all policies are in force. -/
theorem documents_of_inForce (hOlder : Inv older)
    (hExtends : Extends older newer) (hRestoring : Restoring older newer db)
    (hAll : ∀ policy ∈ newer.documents.rows, InForce policy db) :
    (∀ id, (db.documents.find? id).map policyOf =
      (newer.documents.find? id).map policyOf) ∧
    (∀ row ∈ db.documents.rows, row.purgedAt = none → ∀ n,
      (∃ version ∈ db.versions.rows, version.place = (row.id, n)) ↔
        1 ≤ n ∧ n ≤ row.latestVersion) ∧
    ∀ row ∈ db.documents.rows, row.purgedAt.isSome →
      ∀ version ∈ db.versions.rows, version.documentId ≠ row.id := by
  have hRow : ∀ row ∈ db.documents.rows, ∃ policy ∈ newer.documents.rows,
      policy.id = row.id ∧ policyOf row = policyOf policy := by
    intro row hRow
    obtain ⟨policy, hPolicy, hId⟩ := hRestoring.known row hRow
    obtain ⟨⟨row', hRow', hId', hSame, -⟩, -⟩ := hAll policy hPolicy
    obtain rfl := policy_unique hRow hRow' (hId.symm.trans hId'.symm)
    exact ⟨policy, hPolicy, hId, hSame⟩
  refine ⟨fun id => ?_, ?_, ?_⟩
  · cases hFound : newer.documents.find? id with
    | some policy =>
        obtain ⟨⟨row, hStored, hId, hSame, -⟩, -⟩ :=
          hAll policy (Table.mem_of_find? hFound)
        have hFind := Table.find?_of_mem hStored
        rw [hId, Table.key_of_find? hFound] at hFind
        rw [hFind, Option.map_some, Option.map_some, hSame]
    | none =>
        cases hFind : db.documents.find? id with
        | none => rfl
        | some row =>
            obtain ⟨policy, hPolicy, hId, -⟩ :=
              hRow row (Table.mem_of_find? hFind)
            have hTaken := Table.find?_of_mem hPolicy
            rw [hId, Table.key_of_find? hFind, hFound] at hTaken
            cases hTaken
  · intro row hStored hKept n
    obtain ⟨policy, hPolicy, hId, hSame⟩ := hRow row hStored
    have hPolicyKept : policy.purgedAt = none :=
      (purgedAt_of_policyOf hSame).symm.trans hKept
    obtain ⟨old, hOld, hOldId, hLatest⟩ :=
      hRestoring.latest row hStored policy hPolicy hId hPolicyKept
    have hFollows := hExtends.follows hOld hPolicy (hId.trans hOldId.symm)
    rw [hLatest, ← hOldId,
      ← hOlder.numbered old hOld (hFollows.kept hPolicyKept) n]
    constructor
    · rintro ⟨version, hVersion, hPlace⟩
      exact ⟨version, hRestoring.versions version hVersion, hPlace⟩
    · rintro ⟨version, hVersion, hPlace⟩
      cases hRestoring.kept version hVersion with
      | inl hStored => exact ⟨version, hStored, hPlace⟩
      | inr hPurged =>
          obtain ⟨other, hOther, hOf, hPurged⟩ := hPurged
          have hVersionOf : version.documentId = old.id :=
            (Prod.mk.inj hPlace).1
          rw [policy_unique hOther hPolicy (hOf.trans (hVersionOf.trans
            (hOldId.trans hId.symm))), hPolicyKept] at hPurged
          cases hPurged
  · intro row hStored hPurged version hVersion
    obtain ⟨policy, hPolicy, hId, hSame⟩ := hRow row hStored
    have hPolicyPurged : policy.purgedAt.isSome :=
      purgedAt_of_policyOf hSame ▸ hPurged
    rw [← hId]
    exact (hAll policy hPolicy).2 hPolicyPurged version hVersion

/-! ## Publishers, keys and teams -/

theorem returns_applyPublisher {saved : SavedPublisher}
    (h : Returns (applyPublisher saved) db () db') :
    ∃ series, db.series.find? saved.id = some series ∧
      series.owner = saved.owner ∧
      db' = { db with
        series := db.series.update (fun series => series.id = saved.id)
          (withPublisher saved) (fun _ => rfl) } := by
  rw [applyPublisher, returns_query_bind] at h
  obtain ⟨_, hOwner, h⟩ := h
  obtain rfl := returns_write.mp h
  rw [throwIf_eq_ok] at hOwner
  cases hFound : db.series.find? saved.id with
  | none =>
      rw [hFound] at hOwner
      cases hOwner
  | some series =>
      rw [hFound] at hOwner
      exact ⟨series, rfl, by simpa using hOwner, rfl⟩

/-- The series of each id after all publishers are applied. -/
theorem returns_publishers {mid : Reports}
    (hKnown : ∀ row ∈ mid.series.rows,
      ∃ series ∈ newer.series.rows, series.id = row.id) {u : Unit}
    (h : Returns (each (capture newer).publishers applyPublisher) mid u db) :
    (∀ id, (db.series.find? id).map savedPublisher =
      (newer.series.find? id).map savedPublisher) ∧
    ∃ series, db = { mid with series := series } := by
  have hMem : ∀ saved ∈ (capture newer).publishers,
      ∃ series ∈ newer.series.rows, savedPublisher series = saved := by
    intro saved hSaved
    exact List.mem_map.mp ((List.mem_insertionSort _).mp hSaved)
  have hLoop := returns_each_all
    (fun db => (∀ row ∈ db.series.rows,
        ∃ series ∈ newer.series.rows, series.id = row.id) ∧
      ∃ series, db = { mid with series := series })
    (fun saved db =>
      (db.series.find? saved.id).map savedPublisher = some saved) h
    ⟨hKnown, mid.series, rfl⟩ ?_
  · obtain ⟨⟨hRows, hRest⟩, hAll⟩ := hLoop
    refine ⟨fun id => ?_, hRest⟩
    cases hFound : newer.series.find? id with
    | some series =>
        have hSaved : savedPublisher series ∈ (capture newer).publishers :=
          (List.mem_insertionSort _).mpr
            (List.mem_map_of_mem (Table.mem_of_find? hFound))
        have hId : series.id = id := Table.key_of_find? hFound
        have hIs := hAll _ hSaved
        rw [show (savedPublisher series).id = id from hId] at hIs
        exact hIs
    | none =>
        cases hFind : db.series.find? id with
        | none => rfl
        | some row =>
            obtain ⟨series, hSeries, hId⟩ := hRows row (Table.mem_of_find? hFind)
            have hTaken := Table.find?_of_mem hSeries
            rw [hId, Table.key_of_find? hFind, hFound] at hTaken
            cases hTaken
  · intro saved hSaved before after hBefore hRun
    obtain ⟨⟨hRows, hRest⟩, series, hFound, hOwner, rfl⟩ :=
      And.intro hBefore (returns_applyPublisher hRun)
    have hFind := Table.find?_update before.series
      (fun series => series.id = saved.id) (withPublisher saved) (fun _ => rfl)
    refine ⟨⟨?_, ?_⟩, ?_, ?_⟩
    · intro row hRow
      obtain ⟨old, hOld, hNew⟩ := List.mem_map.mp hRow
      obtain ⟨kept, hKept, hId⟩ := hRows old hOld
      refine ⟨kept, hKept, hId.trans ?_⟩
      rw [← hNew]
      split <;> rfl
    · obtain ⟨_, rfl⟩ := hRest
      exact ⟨_, rfl⟩
    · refine (congrArg (Option.map savedPublisher) (hFind saved.id)).trans ?_
      rw [hFound]
      have hId : series.id = saved.id := Table.key_of_find? hFound
      simp only [Option.map_some, hId, decide_true, if_true]
      exact congrArg some (by rw [savedPublisher, withPublisher, hId, hOwner])
    · intro other hOther hBefore'
      refine (congrArg (Option.map savedPublisher) (hFind other.id)).trans ?_
      obtain ⟨row, hRow, hIs⟩ := Option.map_eq_some_iff.mp hBefore'
      rw [hRow]
      by_cases hSame : row.id = saved.id
      · obtain ⟨a, ha, rfl⟩ := hMem saved hSaved
        obtain ⟨b, hb, rfl⟩ := hMem other hOther
        have hIds : b.id = a.id :=
          (Table.key_of_find? hRow).symm.trans hSame
        obtain rfl := List.inj_on_of_nodup_map newer.series.nodup hb ha hIds
        simp only [Option.map_some, hSame, decide_true, if_true]
        rw [hRow] at hFound
        obtain rfl := Option.some.inj hFound
        exact congrArg some (by rw [savedPublisher, withPublisher, hSame, hOwner])
      · simp only [Option.map_some, hSame, decide_false]
        exact congrArg some hIs

theorem returns_applyReceipt {saved : SavedReceipt}
    (h : Returns (applyReceipt saved) db () db') :
    (∃ receipt, db.receipts.find? (tombstone saved).primary = some receipt ∧
      receipt.digest = saved.digest ∧ db' = db) ∨
    (db.receipts.find? (tombstone saved).primary = none ∧
      db' = { db with receipts := db.receipts.put (tombstone saved) }) := by
  rw [applyReceipt, returns_query_bind] at h
  obtain ⟨current, hRead, h⟩ := h
  obtain rfl := Except.ok.inj hRead
  rw [returns_check_bind] at h
  obtain ⟨_, hDigest, h⟩ := h
  rw [throwIf_eq_ok] at hDigest
  cases hFound : db.receipts.find? (tombstone saved).primary with
  | none =>
      rw [hFound] at h
      exact .inr ⟨rfl, (returns_insertReceipt h).2⟩
  | some receipt =>
      rw [hFound] at h hDigest
      exact .inl ⟨receipt, rfl, by simpa using hDigest,
        (returns_pure.mp h).2⟩

/-- The digest of each key after all receipts are applied. -/
theorem returns_receipts {mid : Reports}
    (hKnown : ∀ key, newer.receipts.find? key = none →
      mid.receipts.find? key = none) {u : Unit}
    (h : Returns (each (capture newer).receipts applyReceipt) mid u db) :
    (∀ key, (db.receipts.find? key).map HtmlReceipt.digest =
      (newer.receipts.find? key).map HtmlReceipt.digest) ∧
    ∃ receipts, db = { mid with receipts := receipts } := by
  have hMem : ∀ saved ∈ (capture newer).receipts,
      ∃ receipt ∈ newer.receipts.rows, savedReceipt receipt = saved := by
    intro saved hSaved
    exact List.mem_map.mp ((List.mem_insertionSort _).mp hSaved)
  have hLoop := returns_each_all
    (fun db => (∀ key, newer.receipts.find? key = none →
        db.receipts.find? key = none) ∧
      ∃ receipts, db = { mid with receipts := receipts })
    (fun saved db => (db.receipts.find? (tombstone saved).primary).map
      HtmlReceipt.digest = some saved.digest) h
    ⟨hKnown, mid.receipts, rfl⟩ ?_
  · obtain ⟨⟨hRows, hRest⟩, hAll⟩ := hLoop
    refine ⟨fun key => ?_, hRest⟩
    cases hFound : newer.receipts.find? key with
    | none => rw [hRows key hFound]
    | some receipt =>
        have hSaved : savedReceipt receipt ∈ (capture newer).receipts :=
          (List.mem_insertionSort _).mpr
            (List.mem_map_of_mem (Table.mem_of_find? hFound))
        have hKey : receipt.primary = key := Table.key_of_find? hFound
        have hIs := hAll _ hSaved
        rw [show (tombstone (savedReceipt receipt)).primary = key from hKey]
          at hIs
        exact hIs
  · intro saved hSaved before after hBefore hRun
    obtain ⟨receipt, hStored, rfl⟩ := hMem saved hSaved
    have hTaken : newer.receipts.find?
        (tombstone (savedReceipt receipt)).primary = some receipt :=
      Table.find?_of_mem hStored
    cases returns_applyReceipt hRun with
    | inl hThere =>
        obtain ⟨current, hFound, hDigest, rfl⟩ := hThere
        exact ⟨hBefore, by rw [hFound, Option.map_some, hDigest],
          fun _ _ hQ => hQ⟩
    | inr hNew =>
        obtain ⟨hFree, rfl⟩ := hNew
        obtain ⟨hRows, _, rfl⟩ := hBefore
        refine ⟨⟨fun key hNone => ?_, _, rfl⟩, ?_, fun other _ hQ => ?_⟩
        · have hNe : key ≠ (tombstone (savedReceipt receipt)).primary := by
            rintro rfl
            rw [hTaken] at hNone
            cases hNone
          exact (Table.find?_put_ne _ hNe).trans (hRows key hNone)
        · exact congrArg (Option.map HtmlReceipt.digest)
            (Table.find?_put_self _ (tombstone (savedReceipt receipt)))
        · have hNe : (tombstone other).primary ≠
              (tombstone (savedReceipt receipt)).primary := by
            intro hSame
            rw [hSame, hFree] at hQ
            cases hQ
          exact (congrArg (Option.map HtmlReceipt.digest)
            (Table.find?_put_ne _ hNe)).trans hQ

/-- A loop of insertions into one table appends the rows. -/
theorem returns_eachInsert {ρ κ : Type} [DecidableEq κ] {key : ρ → κ}
    (get : Reports → Table key) (set : Table key → Reports → Reports)
    (hGet : ∀ t db, get (set t db) = t)
    (hSet : ∀ t t' db, set t (set t' db) = set t db)
    (hSelf : ∀ db, set (get db) db = db) {insert : ρ → Call Unit}
    (hInsert : ∀ row db db', Returns (insert row) db () db' →
      (get db).find? (key row) = none ∧ db' = set ((get db).put row) db)
    {rows : List ρ} {u : Unit} (h : Returns (each rows insert) db u db') :
    ∃ t, t.rows = (get db).rows ++ rows ∧ db' = set t db := by
  induction rows generalizing db with
  | nil =>
      obtain ⟨-, rfl⟩ := returns_pure.mp h
      exact ⟨get db', (List.append_nil _).symm, (hSelf db').symm⟩
  | cons row rows ih =>
      obtain ⟨_, mid, hFirst, hRest⟩ := returns_bind.mp h
      obtain ⟨hFresh, rfl⟩ := hInsert row db mid hFirst
      obtain ⟨t, hRows, rfl⟩ := ih hRest
      refine ⟨t, ?_, hSet t _ db⟩
      rw [hRows, hGet, Table.rows_put_of_none hFresh, List.append_assoc]
      rfl

theorem returns_insertTeam {team : Team}
    (h : Returns (insertTeam team) db () db') :
    db.teams.find? team.id = none ∧
      db' = { db with teams := db.teams.put team } := by
  rw [insertTeam, returns_query_bind] at h
  obtain ⟨_, hFree, h⟩ := h
  rw [throwIf_eq_ok] at hFree
  exact ⟨by simpa using hFree, returns_write.mp h⟩

theorem returns_insertMember {member : TeamMember}
    (h : Returns (insertMember member) db () db') :
    db.members.find? member.primary = none ∧
      db' = { db with members := db.members.put member } := by
  rw [insertMember, returns_query_bind] at h
  obtain ⟨_, hFree, h⟩ := h
  rw [throwIf_eq_ok] at hFree
  exact ⟨by simpa using hFree, returns_write.mp h⟩

theorem returns_insertInvite {invite : TeamInvite}
    (h : Returns (insertInvite invite) db () db') :
    db.invites.find? invite.id = none ∧
      db' = { db with invites := db.invites.put invite } := by
  rw [insertInvite, returns_query_bind] at h
  obtain ⟨_, hFree, h⟩ := h
  rw [throwIf_eq_ok] at hFree
  exact ⟨by simpa using hFree, returns_write.mp h⟩

theorem returns_applyTeams
    (h : Returns (applyTeams (capture newer)) db () db') :
    db' = { db with
      teams := newer.teams
      members := newer.members
      invites := newer.invites } := by
  rw [applyTeams, returns_write_bind] at h
  obtain ⟨_, _, hTeams, h⟩ := returns_bind.mp h
  obtain ⟨teams, hTeamRows, rfl⟩ := returns_eachInsert Reports.teams
    (fun t db => { db with teams := t }) (fun _ _ => rfl) (fun _ _ _ => rfl)
    (fun _ => rfl) (fun _ _ _ => returns_insertTeam) hTeams
  obtain ⟨_, _, hMembers, hInvites⟩ := returns_bind.mp h
  obtain ⟨members, hMemberRows, rfl⟩ := returns_eachInsert Reports.members
    (fun t db => { db with members := t }) (fun _ _ => rfl) (fun _ _ _ => rfl)
    (fun _ => rfl) (fun _ _ _ => returns_insertMember) hMembers
  obtain ⟨invites, hInviteRows, rfl⟩ := returns_eachInsert Reports.invites
    (fun t db => { db with invites := t }) (fun _ _ => rfl) (fun _ _ _ => rfl)
    (fun _ => rfl) (fun _ _ _ => returns_insertInvite) hInvites
  obtain rfl : teams = newer.teams := Table.ext_rows hTeamRows
  obtain rfl : members = newer.members := Table.ext_rows hMemberRows
  obtain rfl : invites = newer.invites := Table.ext_rows hInviteRows
  rfl

/-! ## The whole journal -/

theorem returns_applyAll (hOlder : Inv older) (hExtends : Extends older newer)
    (h : Returns (applyAll (capture newer)) older () db) :
    SamePolicy newer db ∧ db.revision = newer.revision ∧
      db.instanceId = older.instanceId := by
  obtain ⟨_, afterPolicies, hPolicies, h⟩ := returns_bind.mp h
  obtain ⟨hRestoring, hAll⟩ := returns_policies hExtends hPolicies
  obtain ⟨hDocuments, hNumbered, hEmptied⟩ :=
    documents_of_inForce hOlder hExtends hRestoring hAll
  have hKeysBefore := hRestoring.keys
  obtain ⟨documents, versions, receipts, rfl⟩ := hRestoring.rest
  obtain ⟨_, afterPublishers, hPublishers, h⟩ := returns_bind.mp h
  obtain ⟨hSeries, series, rfl⟩ := returns_publishers (fun row hRow => by
    obtain ⟨kept, hKept, hId, -⟩ := hExtends.series row hRow
    exact ⟨kept, hKept, hId⟩) hPublishers
  obtain ⟨_, afterReceipts, hReceipts, h⟩ := returns_bind.mp h
  obtain ⟨hKeys, receipts', rfl⟩ := returns_receipts (fun key hNone => by
    have hDigest := hKeysBefore key
    cases hOld : older.receipts.find? key with
    | none =>
        rw [hOld, Option.map_none, Option.map_eq_none_iff] at hDigest
        exact hDigest
    | some receipt =>
        obtain ⟨later, hLater, hKey, -⟩ :=
          hExtends.receipts receipt (Table.mem_of_find? hOld)
        have hTaken := Table.find?_of_mem hLater
        rw [hKey, Table.key_of_find? hOld, hNone] at hTaken
        cases hTaken) hReceipts
  obtain ⟨_, afterTeams, hTeams, h⟩ := returns_bind.mp h
  obtain rfl := returns_applyTeams hTeams
  obtain rfl := returns_write.mp h
  exact ⟨{
    documents := hDocuments
    teams := rfl
    members := rfl
    invites := rfl
    publishers := hSeries
    keys := hKeys
    numbered := hNumbered
    emptied := hEmptied }, rfl, rfl⟩

/-- The journal is of this database, and it is not newer, or all of it is
applied. -/
theorem returns_apply {journal : PolicyJournal}
    (h : Returns (apply journal) older () db) :
    (journal.revision ≤ older.revision ∧ db = older) ∨
      (older.revision < journal.revision ∧
        Returns (applyAll journal) older () db) := by
  rw [apply, returns_transaction, returns_query_bind] at h
  obtain ⟨_, -, h⟩ := h
  rw [returns_query_bind] at h
  obtain ⟨current, hCurrent, h⟩ := h
  obtain rfl := Except.ok.inj hCurrent
  split at h
  · rename_i hOld
    exact .inl ⟨of_decide_eq_true hOld, (returns_pure.mp h).2⟩
  · rename_i hNew
    exact .inr ⟨by simpa using hNew, h⟩

/-- A journal of this database that is not newer is not applied. -/
theorem apply_of_le {journal : PolicyJournal}
    (hStore : journal.store = db.instanceId)
    (hOld : journal.revision ≤ db.revision) :
    Returns (apply journal) db () db := by
  rw [apply, returns_transaction, returns_query_bind]
  refine ⟨(), by simp [hStore], ?_⟩
  rw [returns_query_bind]
  refine ⟨true, by simp [hOld], ?_⟩
  exact returns_pure.mpr ⟨rfl, rfl⟩

theorem initialize_atomic (saved : Option PolicyJournal) :
    Atomic (initializeHtmlPolicyJournal saved) := by
  cases saved with
  | none =>
      intro s e s' hThrow
      exact (Prod.mk.inj hThrow).2.symm
  | some journal => exact atomic_check_bind fun _ => atomic_transaction _

/-- What starting the server on a database has done, where it did not
refuse. -/
theorem returns_initialize {saved : Option PolicyJournal}
    (h : Returns (initializeHtmlPolicyJournal saved) older () db) :
    (∀ journal ∈ saved, journal.revision ≤ maxSafeInteger) ∧
    (((∀ journal ∈ saved, journal.revision ≤ older.revision) ∧ db = older) ∨
      ∃ journal ∈ saved, older.revision < journal.revision ∧
        Returns (applyAll journal) older () db) := by
  cases saved with
  | none =>
      obtain ⟨-, rfl⟩ := returns_query.mp h
      exact ⟨(fun _ hNone => nomatch hNone),
        .inl ⟨(fun _ hNone => nomatch hNone), rfl⟩⟩
  | some journal =>
      rw [initializeHtmlPolicyJournal, returns_check_bind] at h
      obtain ⟨_, hSafe, h⟩ := h
      rw [throwIf_eq_ok, decide_eq_false_iff_not, not_lt] at hSafe
      refine ⟨fun other hOther => Option.mem_some_iff.mp hOther ▸ hSafe, ?_⟩
      obtain ⟨hOld, rfl⟩ | ⟨hNew, hRun⟩ := returns_apply h
      · exact .inl ⟨fun other hOther => Option.mem_some_iff.mp hOther ▸ hOld,
          rfl⟩
      · exact .inr ⟨journal, rfl, hNew, hRun⟩

/-- A journal that is not newer changes nothing. -/
theorem initialize_of_le {journal : PolicyJournal}
    (hStore : journal.store = db.instanceId)
    (hOld : journal.revision ≤ db.revision) :
    (initializeHtmlPolicyJournal (some journal) db).2 = db := by
  obtain ⟨_, after, hReturn, hRun⟩ | ⟨e, hThrow⟩ :=
    (initialize_atomic (some journal)).outcome db
  · rw [hRun]
    obtain ⟨-, h⟩ := returns_initialize hReturn
    obtain ⟨-, rfl⟩ | ⟨other, hOther, hNew, -⟩ := h
    · rfl
    · obtain rfl := Option.mem_some_iff.mp hOther
      omega
  · rw [hThrow]

theorem returns_initialize_of_le {journal : PolicyJournal}
    (hSafe : journal.revision ≤ maxSafeInteger)
    (hStore : journal.store = db.instanceId)
    (hOld : journal.revision ≤ db.revision) :
    Returns (initializeHtmlPolicyJournal (some journal)) db () db := by
  rw [initializeHtmlPolicyJournal, returns_check_bind]
  exact ⟨(), by simpa using hSafe, apply_of_le hStore hOld⟩

end OpenApe.Ports.JournalRecovery
