import OpenApe.Ports.PlansStore
import OpenApe.Verified.Machine

/-!
# Runs of the Reports store

All report transactions as the turns of one machine, under a clock that does
not go back.  `Change` says once what a committed transaction may have done
to the tables; every transaction is a sequence of such changes
(`steps_operation`), and what holds of all runs is read off them.
-/

namespace OpenApe.Ports.HtmlRuns

open Verified.JsText Verified.Json Verified.KeyedTable Verified.Machine
  Verified.Transactions Verified.Transactions.Action Verified.Unicode
open CentralValues (Unknown)
open ReportContracts HtmlStore PlansStore

/-! ## Single changes -/

/-- The document can be read: neither removed nor expired nor purged. -/
structure Live (document : HtmlDocument) (now : Int) : Prop where
  kept : document.purgedAt = none
  standing : removedAt document now = none

/-- What a change of one document may do, by the time it is made. -/
inductive Touch (now : Int) (document : HtmlDocument) : HtmlDocument → Prop
    where
  | access (access : Access) (hLive : Live document now)
      (hFree : truthyText document.seriesId = false) :
      Touch now document (withAccess access document)
  | retention (expiry : Option Int) (hLive : Live document now)
      (hFuture : ∀ e ∈ expiry, now < e) :
      Touch now document (withExpiry expiry document)
  | remove (hLive : Live document now) :
      Touch now document (removed now document)
  | restore (expiry : Option Int) (hKept : document.purgedAt = none)
      (hFuture : ∀ e ∈ expiry, now < e) :
      Touch now document (restored expiry document)

/-- A document as it is inserted. -/
structure NewDocument (now : Int) (document : HtmlDocument) : Prop where
  version : document.latestVersion = 1
  removedAt : document.removedAt = none
  purgedAt : document.purgedAt = none
  expiresAt : ∀ e ∈ document.expiresAt, now < e
  series : truthyText document.seriesId = true →
    document.audience = js "private"
  legacy : document.legacyPlanId = none ∨
    document.legacyPlanId = some document.id

/-- The tables after a document is purged. -/
def Purged (now : Int) (id : JsString) (db : Reports) : Reports :=
  { db with
    versions := db.versions.keep (fun version => version.documentId ≠ id)
    receipts := db.receipts.update (fun receipt => receipt.documentId = id)
      (purgedReceipt id) (purgedReceipt_primary id)
    documents := db.documents.update (fun document => document.id = id)
      (HtmlStore.purged now) (purged_id now) }

/-- The series are kept, with their owners. -/
def SeriesKept (before after : Table ReportSeries.id) : Prop :=
  ∀ series ∈ before.rows, ∃ kept ∈ after.rows,
    kept.id = series.id ∧ kept.owner = series.owner

inductive Change (now : Int) (db : Reports) : Reports → Prop where
  /-- A new document with its first version. -/
  | created (document : HtmlDocument) (version : HtmlVersion)
      (versions : Rows HtmlVersion.place HtmlVersion.id)
      (hFresh : db.documents.find? document.id = none)
      (hNew : NewDocument now document)
      (hPlace : version.place = (document.id, 1))
      (hInsert : db.versions.insert? version = some versions) :
      Change now db { db with
        documents := db.documents.put document
        versions := versions }
  /-- The next version of a live document. -/
  | versioned (document : HtmlDocument) (version : HtmlVersion)
      (versions : Rows HtmlVersion.place HtmlVersion.id)
      (hStored : document ∈ db.documents.rows) (hLive : Live document now)
      (hPlace : version.place = (document.id, document.latestVersion + 1))
      (hInsert : db.versions.insert? version = some versions) :
      Change now db { db with
        documents := db.documents.update (fun row => row.id = document.id)
          (newVersion (document.latestVersion + 1) now) (fun _ => rfl)
        versions := versions }
  /-- Documents whose access, lifetime or removal changes. -/
  | touched (p : HtmlDocument → Bool) (f : HtmlDocument → HtmlDocument)
      (hf : ∀ document, (f document).id = document.id)
      (hTouch : ∀ document ∈ db.documents.rows, p document = true →
        Touch now document (f document)) :
      Change now db { db with documents := db.documents.update p f hf }
  /-- A document that is purged. -/
  | purged (id : JsString)
      (hDue : ∀ document ∈ db.documents.rows, document.id = id →
        purgeable document now = true) :
      Change now db (Purged now id db)
  /-- The receipt of a key that was not used. -/
  | received (receipt : HtmlReceipt)
      (hFresh : db.receipts.find? receipt.primary = none) :
      Change now db { db with receipts := db.receipts.put receipt }
  /-- Teams and series. -/
  | shared (teams : Table Team.id) (members : Table TeamMember.primary)
      (invites : Table TeamInvite.id) (series : Table ReportSeries.id)
      (hSeries : SeriesKept db.series series) :
      Change now db { db with
        teams := teams, members := members, invites := invites
        series := series }

abbrev Steps (now : Int) : Reports → Reports → Prop :=
  Relation.ReflTransGen (Change now)

/-! ## Invariants of the tables -/

/-- A document's second name is its own id. -/
def OwnNames (db : Reports) : Prop :=
  ∀ document ∈ db.documents.rows, document.legacyPlanId = none ∨
    document.legacyPlanId = some document.id

/-- What the other facts rest on: versions belong to documents and are
numbered, and a document of a series is private. -/
structure Inv (db : Reports) : Prop where
  names : OwnNames db
  owned : ∀ version ∈ db.versions.rows, ∃ document ∈ db.documents.rows,
    document.id = version.documentId
  numbered : ∀ document ∈ db.documents.rows, document.purgedAt = none →
    ∀ n, (∃ version ∈ db.versions.rows, version.place = (document.id, n)) ↔
      1 ≤ n ∧ n ≤ document.latestVersion
  emptied : ∀ document ∈ db.documents.rows, document.purgedAt.isSome →
    ∀ version ∈ db.versions.rows, version.documentId ≠ document.id
  series : ∀ document ∈ db.documents.rows,
    truthyText document.seriesId = true → document.audience = js "private"

theorem documentRow_eq_ok {db : Reports} {id : JsString}
    {document : HtmlDocument} (hNames : OwnNames db) :
    documentRow db id = .ok document ↔
      document ∈ db.documents.rows ∧ document.id = id ∧
        document.purgedAt = none := by
  have hNamed : ∀ other ∈ db.documents.rows,
      (decide (other.id = id) || decide (other.legacyPlanId = some id)) =
        true → other.id = id := by
    intro other hOther hName
    rw [Bool.or_eq_true, decide_eq_true_eq, decide_eq_true_eq] at hName
    cases hName with
    | inl hId => exact hId
    | inr hLegacy =>
        cases hNames other hOther with
        | inl hNone => rw [hNone] at hLegacy; cases hLegacy
        | inr hOwn => rw [hOwn] at hLegacy; exact Option.some.inj hLegacy
  unfold documentRow
  constructor
  · intro h
    split at h
    · cases h
    · rename_i found hFound
      split_ifs at h with hPurged
      · have hMem := List.mem_of_find?_eq_some hFound
        have hName := List.find?_some hFound
        cases h
        exact ⟨hMem, hNamed document hMem hName, by simpa using hPurged⟩
  · rintro ⟨hMem, rfl, hKept⟩
    have hFound : db.documents.rows.find? (fun other =>
        decide (other.id = document.id) ||
          decide (other.legacyPlanId = some document.id)) = some document := by
      cases hFind : db.documents.rows.find? (fun other =>
          decide (other.id = document.id) ||
            decide (other.legacyPlanId = some document.id)) with
      | none =>
          have hMiss := List.find?_eq_none.mp hFind document hMem
          simp at hMiss
      | some found =>
          have hFoundMem := List.mem_of_find?_eq_some hFind
          have hName := List.find?_some hFind
          have hId := hNamed found hFoundMem hName
          rw [List.inj_on_of_nodup_map db.documents.nodup hFoundMem hMem hId]
    rw [hFound]
    simp [hKept]

theorem assertLive_eq_ok {document : HtmlDocument} {now : Int} {u : Unit}
    (h : assertLive document now = .ok u) : Live document now := by
  rw [assertLive, throwIf_eq_ok, Bool.or_eq_false_iff] at h
  exact ⟨by simpa using h.1, by simpa using h.2⟩

/-! ## Statements -/

section Statements

variable {db db' : Reports}

theorem returns_insertDocument {document : HtmlDocument}
    (h : Returns (insertDocument document) db () db') :
    db.documents.find? document.id = none ∧
      db' = { db with documents := db.documents.put document } := by
  rw [insertDocument, returns_query_bind] at h
  obtain ⟨_, hFree, h⟩ := h
  rw [throwIf_eq_ok, Bool.or_eq_false_iff] at hFree
  exact ⟨by simpa using hFree.1, returns_write.mp h⟩

theorem returns_insertVersionRow {version : HtmlVersion}
    (h : Returns (insertVersionRow version) db () db') :
    ∃ versions, db.versions.insert? version = some versions ∧
      db' = { db with versions := versions } := by
  rw [insertVersionRow, returns_query_bind] at h
  obtain ⟨versions, hInsert, h⟩ := h
  exact ⟨versions, required_eq_ok.mp hInsert, returns_write.mp h⟩

theorem returns_insertReceipt {receipt : HtmlReceipt}
    (h : Returns (insertReceipt receipt) db () db') :
    db.receipts.find? receipt.primary = none ∧
      db' = { db with receipts := db.receipts.put receipt } := by
  rw [insertReceipt, returns_query_bind] at h
  obtain ⟨_, hFree, h⟩ := h
  rw [throwIf_eq_ok] at hFree
  exact ⟨by simpa using hFree, returns_write.mp h⟩

/-- Only a private document may be bound to a series. -/
theorem private_of_assertSeries {input : PublishInput}
    {identity : ReportIdentity} {access : Access} {u : Unit}
    (h : assertSeries db input identity access = .ok u)
    (hSeries : truthyText input.seriesId = true) :
    access.mode = js "private" := by
  rw [assertSeries, if_pos hSeries, throwIf_eq_ok, Bool.not_eq_false',
    Option.any_eq_true] at h
  obtain ⟨series, -, h⟩ := h
  rw [Bool.and_eq_true, decide_eq_true_eq] at h
  exact h.2

theorem readPlan_eq_ok {id : JsString} {identity : ReportIdentity}
    {now : Int} {reading : PlanReading} (h : readPlan db id identity now = .ok reading) :
    documentRow db id = .ok reading.document ∧
      Live reading.document now := by
  unfold readPlan at h
  obtain ⟨document, hDocument, h⟩ := Verified.Fallible.bind_eq_ok.mp h
  obtain ⟨_, -, h⟩ := Verified.Fallible.bind_eq_ok.mp h
  obtain ⟨_, -, h⟩ := Verified.Fallible.bind_eq_ok.mp h
  obtain ⟨_, hLive, h⟩ := Verified.Fallible.bind_eq_ok.mp h
  obtain ⟨_, -, h⟩ := Verified.Fallible.bind_eq_ok.mp h
  obtain ⟨_, -, h⟩ := Verified.Fallible.bind_eq_ok.mp h
  obtain rfl := Except.ok.inj h
  exact ⟨hDocument, assertLive_eq_ok hLive⟩

/-- The version a caller named was the current one. -/
theorem isNumber_of_planVersion {value : Unknown} {current : Nat} {u : Unit}
    (h : planVersion value current = .ok u) :
    isNumber value current = true := by
  unfold planVersion at h
  split_ifs at h
  rw [throwIf_eq_ok, Bool.or_eq_false_iff, Bool.not_eq_false'] at h
  simpa using h.2

/-- The plan that is removed was read in its current version. -/
theorem returns_deleteOnce {id : JsString} {identity : ReportIdentity}
    {expected : Unknown} {now : Int} {u : Unit}
    (h : Returns (deleteOnce id identity expected now) db u db') :
    ∃ document, documentRow db id = .ok document ∧ Live document now ∧
      isNumber expected document.latestVersion = true ∧
      db' = { db with
        documents := db.documents.update (fun row => row.id = document.id)
          (removed now) (removed_id now) } := by
  rw [deleteOnce, returns_query_bind] at h
  obtain ⟨current, hCurrent, h⟩ := h
  rw [returns_check_bind] at h
  obtain ⟨_, -, h⟩ := h
  rw [returns_check_bind] at h
  obtain ⟨_, hVersion, h⟩ := h
  obtain rfl := returns_write.mp h
  obtain ⟨hDocument, hLive⟩ := readPlan_eq_ok hCurrent
  exact ⟨current.document, hDocument, hLive,
    isNumber_of_planVersion hVersion, rfl⟩

end Statements

/-! ## Publishing -/

section Publishing

variable [HtmlRuntime] [ReportRuntime] [CaseMapping] {db db' : Reports}
  {now : Int}

omit [HtmlRuntime] in
/-- What an update prepares: the next version of the named document, which
the caller knew to be current. -/
theorem returns_updateTarget {input : PublishInput} {id : JsString}
    {identity : ReportIdentity} {draft : Draft}
    (h : Returns (updateTarget input id identity now) db draft db') :
    documentRow db id = .ok draft.document ∧ Live draft.document now ∧
      isNumber input.expectedVersion draft.document.latestVersion = true ∧
      draft.version = draft.document.latestVersion + 1 ∧
      db' = { db with
        documents := db.documents.update
          (fun row => row.id = draft.document.id)
          (newVersion (draft.document.latestVersion + 1) now)
          (fun _ => rfl) } := by
  rw [updateTarget, returns_check_bind] at h
  obtain ⟨_, -, h⟩ := h
  rw [returns_query_bind] at h
  obtain ⟨document, hDocument, h⟩ := h
  rw [returns_query_bind] at h
  obtain ⟨_, -, h⟩ := h
  rw [returns_check_bind] at h
  obtain ⟨_, hLive, h⟩ := h
  rw [returns_check_bind] at h
  obtain ⟨_, hVersion, h⟩ := h
  rw [returns_query_bind] at h
  obtain ⟨stored, -, h⟩ := h
  obtain ⟨_, _, hUpdate, h⟩ := returns_bind.mp h
  obtain rfl := returns_write.mp hUpdate
  obtain ⟨rfl, rfl⟩ := returns_pure.mp h
  rw [throwIf_eq_ok, Bool.not_eq_false'] at hVersion
  exact ⟨hDocument, assertLive_eq_ok hLive, hVersion, rfl, rfl⟩

omit [HtmlRuntime] in
theorem returns_createTarget (hNames : OwnNames db) {input : PublishInput}
    {id : JsString} {identity : ReportIdentity} {draft : Draft}
    (h : Returns (createTarget input id identity now) db draft db') :
    db.documents.find? draft.document.id = none ∧
      NewDocument now draft.document ∧ draft.version = 1 ∧
      db' = { db with documents := db.documents.put draft.document } := by
  rw [createTarget, returns_check_bind] at h
  obtain ⟨_, -, h⟩ := h
  rw [returns_query_bind] at h
  obtain ⟨access, -, h⟩ := h
  rw [returns_query_bind] at h
  obtain ⟨_, hSeries, h⟩ := h
  rw [returns_check_bind] at h
  obtain ⟨expiry, hExpiry, h⟩ := h
  obtain ⟨_, s₁, hInsert, h⟩ := returns_bind.mp h
  obtain ⟨hFresh, rfl⟩ := returns_insertDocument hInsert
  rw [returns_query_bind] at h
  obtain ⟨document, hDocument, h⟩ := h
  rw [returns_pure] at h
  obtain ⟨rfl, rfl⟩ := h
  have hNew : NewDocument now
      (newDocument id input identity access expiry now) :=
    { version := rfl
      removedAt := rfl
      purgedAt := rfl
      expiresAt := lt_of_lifetime hExpiry
      series := private_of_assertSeries hSeries
      legacy := Or.inl rfl }
  have hAfter : OwnNames { db with
      documents := db.documents.put
        (newDocument id input identity access expiry now) } := by
    intro other hOther
    cases Table.mem_of_mem_put hOther with
    | inl hSame => exact hSame ▸ hNew.legacy
    | inr hOld => exact hNames other hOld
  obtain ⟨hMem, hId, -⟩ := (documentRow_eq_ok hAfter).mp hDocument
  cases Table.mem_put_iff.mp hMem with
  | inl hSame =>
      subst hSame
      exact ⟨hFresh, hNew, rfl, rfl⟩
  | inr hOld => exact absurd hId hOld.2

omit [ReportRuntime] [CaseMapping] in
/-- A draft is stored with its version, and with the receipt of a key that
was free. -/
theorem returns_storeDraft {draft : Draft} {publication : HtmlPublication}
    {digest key base versionId : JsString} {identity : ReportIdentity}
    {answer : PublishAnswer}
    (h : Returns (storeDraft draft publication digest identity key base
      versionId now) db answer db') :
    ∃ version versions receipt,
      version.place = (draft.document.id, draft.version) ∧
      db.versions.insert? version = some versions ∧
      db.receipts.find? receipt.primary = none ∧
      receipt.primary = (identity.subject, identity.actor, key) ∧
      receipt.digest = digest ∧ answer.replayed = false ∧
      db' = { db with
        versions := versions
        receipts := db.receipts.put receipt } := by
  unfold storeDraft at h
  obtain ⟨_, _, hVersion, h⟩ := returns_bind.mp h
  obtain ⟨versions, hInsert, rfl⟩ := returns_insertVersionRow hVersion
  obtain ⟨_, _, hReceipt, h⟩ := returns_bind.mp h
  obtain ⟨hFree, rfl⟩ := returns_insertReceipt hReceipt
  obtain ⟨rfl, rfl⟩ := returns_pure.mp h
  exact ⟨_, versions, _, rfl, hInsert, hFree, rfl, rfl, rfl, rfl⟩

/-- A publication that is not replayed: its draft, and the storing of it. -/
theorem returns_publishNew {input : PublishInput}
    {digest key base : JsString} {identity : ReportIdentity} {draws : Draws}
    {answer : PublishAnswer} :
    Returns (publishNew input digest identity key base draws now) db answer
        db' ↔
      ∃ draft mid publication,
        Returns (target input draws identity now) db draft mid ∧
        draft.publication = some publication ∧
        Returns (storeDraft draft publication digest identity key base
          draws.versionId now) mid answer db' := by
  simp only [publishNew, returns_bind, returns_check, required_eq_ok]
  constructor
  · rintro ⟨draft, mid, hTarget, publication, after, ⟨hGiven, hSame⟩, hStore⟩
    exact ⟨draft, mid, publication, hTarget, hGiven, hSame ▸ hStore⟩
  · rintro ⟨draft, mid, publication, hTarget, hGiven, hStore⟩
    exact ⟨draft, mid, hTarget, publication, mid, ⟨hGiven, rfl⟩, hStore⟩

theorem steps_publishNew (hNames : OwnNames db) {input : PublishInput}
    {digest key base : JsString} {identity : ReportIdentity} {draws : Draws}
    {answer : PublishAnswer}
    (h : Returns (publishNew input digest identity key base draws now) db
      answer db') : Steps now db db' := by
  obtain ⟨draft, mid, publication, hTarget, -, hStore⟩ :=
    returns_publishNew.mp h
  obtain ⟨version, versions, receipt, hPlace, hInsert, hFree, -, -, -, rfl⟩ :=
    returns_storeDraft hStore
  unfold target at hTarget
  split at hTarget
  · obtain ⟨hDocument, hLive, -, hNumber, rfl⟩ := returns_updateTarget hTarget
    obtain ⟨hStored, -, -⟩ := (documentRow_eq_ok hNames).mp hDocument
    exact .tail (.single (.versioned draft.document version versions hStored
      hLive (hNumber ▸ hPlace) hInsert)) (.received receipt hFree)
  · obtain ⟨hFresh, hNew, hFirst, rfl⟩ := returns_createTarget hNames hTarget
    exact .tail (.single (.created draft.document version versions hFresh hNew
      (hFirst ▸ hPlace) hInsert)) (.received receipt hFree)

omit [HtmlRuntime] [ReportRuntime] [CaseMapping] in
/-- A replay answers the receipt and changes nothing. -/
theorem returns_replay {receipt : HtmlReceipt} {digest : JsString}
    {identity : ReportIdentity} {answer : PublishAnswer}
    (h : Returns (replay receipt digest identity now) db answer db') :
    receipt.digest = digest ∧ answer.replayed = true ∧ db' = db := by
  rw [replay, returns_check_bind] at h
  obtain ⟨_, hDigest, h⟩ := h
  rw [returns_query_bind] at h
  obtain ⟨_, -, h⟩ := h
  rw [returns_query_bind] at h
  obtain ⟨_, -, h⟩ := h
  rw [returns_check_bind] at h
  obtain ⟨_, -, h⟩ := h
  obtain ⟨rfl, rfl⟩ := returns_pure.mp h
  rw [throwIf_eq_ok] at hDigest
  exact ⟨by simpa using hDigest, rfl, rfl⟩

/-- A publication is a replay of the key's receipt, or the key is new. -/
theorem returns_publishOnce {input : PublishInput}
    {digest key base : JsString} {identity : ReportIdentity} {draws : Draws}
    {answer : PublishAnswer} :
    Returns (publishOnce input digest identity key base draws now) db answer
        db' ↔
      (∃ receipt, db.receipts.find? (identity.subject, identity.actor, key) =
          some receipt ∧
        Returns (replay receipt digest identity now) db answer db') ∨
      (db.receipts.find? (identity.subject, identity.actor, key) = none ∧
        Returns (publishNew input digest identity key base draws now) db answer
          db') := by
  rw [publishOnce, returns_query_bind]
  simp only [Except.ok.injEq, exists_eq_left']
  cases hFind : db.receipts.find?
      (identity.subject, identity.actor, key) with
  | none => simp [publishUnless]
  | some receipt => simp [publishUnless]

theorem steps_publishOnce (hNames : OwnNames db) {input : PublishInput}
    {digest key base : JsString} {identity : ReportIdentity} {draws : Draws}
    {answer : PublishAnswer}
    (h : Returns (publishOnce input digest identity key base draws now) db
      answer db') : Steps now db db' := by
  cases returns_publishOnce.mp h with
  | inl hReplay =>
      obtain ⟨receipt, -, hReplay⟩ := hReplay
      rw [(returns_replay hReplay).2.2]
  | inr hNew => exact steps_publishNew hNames hNew.2

end Publishing

/-! ## Plans -/

section Plans

variable [HtmlRuntime] [ReportRuntime] {db db' : Reports} {now : Int}

/-- The plan that is written was read in its current version. -/
theorem returns_updatePlan {identity : ReportIdentity} {body : JsonValue}
    {id : JsString} {draws : Draws} {plan : PlanResult}
    (h : Returns (updatePlan identity body id draws now) db plan db') :
    ∃ document version versions,
      documentRow db id = .ok document ∧ Live document now ∧
      isNumber (body.field? (js "expected_version")) document.latestVersion =
        true ∧
      version.place = (document.id, document.latestVersion + 1) ∧
      db.versions.insert? version = some versions ∧
      db' = { db with
        versions := versions
        documents := db.documents.update (fun row => row.id = document.id)
          (newVersion (document.latestVersion + 1) now) (fun _ => rfl) } := by
  rw [updatePlan, returns_query_bind] at h
  obtain ⟨current, hCurrent, h⟩ := h
  rw [returns_check_bind] at h
  obtain ⟨_, -, h⟩ := h
  rw [returns_check_bind] at h
  obtain ⟨_, hVersion, h⟩ := h
  rw [returns_check_bind] at h
  obtain ⟨_, -, h⟩ := h
  obtain ⟨_, _, hRow, h⟩ := returns_bind.mp h
  obtain ⟨versions, hInsert, rfl⟩ := returns_insertVersionRow hRow
  obtain ⟨_, _, hUpdate, h⟩ := returns_bind.mp h
  obtain rfl := returns_write.mp hUpdate
  rw [returns_query_bind] at h
  obtain ⟨_, -, h⟩ := h
  obtain ⟨-, rfl⟩ := returns_pure.mp h
  obtain ⟨hDocument, hLive⟩ := readPlan_eq_ok hCurrent
  exact ⟨current.document, _, versions, hDocument, hLive,
    isNumber_of_planVersion hVersion, rfl, hInsert, rfl⟩

theorem steps_createPlan {identity : ReportIdentity} {body : JsonValue}
    {team : Option JsString} {draws : Draws} {plan : PlanResult}
    (h : Returns (createPlan identity body team draws now) db plan db') :
    Steps now db db' := by
  unfold createPlan at h
  split at h
  · cases (returns_check.mp h).1
  · rename_i team _
    rw [returns_query_bind] at h
    obtain ⟨_, -, h⟩ := h
    rw [returns_check_bind] at h
    obtain ⟨start, -, h⟩ := h
    obtain ⟨_, _, hDocument, h⟩ := returns_bind.mp h
    obtain ⟨hFresh, rfl⟩ := returns_insertDocument hDocument
    obtain ⟨_, _, hVersion, h⟩ := returns_bind.mp h
    obtain ⟨versions, hInsert, rfl⟩ := returns_insertVersionRow hVersion
    rw [returns_query_bind] at h
    obtain ⟨_, -, h⟩ := h
    obtain ⟨-, rfl⟩ := returns_pure.mp h
    have hNew : NewDocument now (newPlan draws.documentId team identity now) :=
      { version := rfl
        removedAt := rfl
        purgedAt := rfl
        expiresAt := fun _ he => nomatch he
        series := fun hSeries => nomatch hSeries
        legacy := Or.inr rfl }
    exact .single (.created _ _ versions hFresh hNew rfl hInsert)

theorem steps_writeOnce (hNames : OwnNames db) {identity : ReportIdentity}
    {body : JsonValue} {location : PlanLocation} {draws : Draws}
    {plan : PlanResult}
    (h : Returns (writeOnce identity body location draws now) db plan db') :
    Steps now db db' := by
  unfold writeOnce at h
  split at h
  · obtain ⟨document, version, versions, hDocument, hLive, -, hPlace, hInsert,
      rfl⟩ := returns_updatePlan h
    exact .single (.versioned document version versions
      ((documentRow_eq_ok hNames).mp hDocument).1 hLive hPlace hInsert)
  · exact steps_createPlan h

end Plans

/-! ## Managing a document -/

section Managing

variable {db db' : Reports} {now : Int}

theorem mem_of_documentRow {id : JsString} {document : HtmlDocument}
    (hNames : OwnNames db) (h : documentRow db id = .ok document) :
    document ∈ db.documents.rows :=
  ((documentRow_eq_ok hNames).mp h).1

/-- Changing one document by a change it may take. -/
theorem change_updateDocument {document : HtmlDocument}
    {f : HtmlDocument → HtmlDocument}
    {hf : ∀ document, (f document).id = document.id}
    (hStored : document ∈ db.documents.rows)
    (hTouch : Touch now document (f document)) :
    Change now db { db with
      documents := db.documents.update (fun row => row.id = document.id) f
        hf } := by
  refine .touched _ f hf fun row hRow hId => ?_
  rw [List.inj_on_of_nodup_map db.documents.nodup hRow hStored
    (of_decide_eq_true hId)]
  exact hTouch

theorem returns_removeDocument {document : HtmlDocument} {body : JsonValue}
    {u : Unit} (h : Returns (removeDocument document body now) db u db') :
    isNumber (body.field? (js "expectedVersion")) document.latestVersion =
        true ∧
      (db' = db ∨ removedAt document now = none ∧
        db' = { db with
          documents := db.documents.update (fun row => row.id = document.id)
            (removed now) (removed_id now) }) := by
  rw [removeDocument, returns_check_bind] at h
  obtain ⟨_, hVersion, h⟩ := h
  rw [throwIf_eq_ok, Bool.not_eq_false'] at hVersion
  refine ⟨hVersion, ?_⟩
  split at h
  · rename_i hStanding
    exact .inr ⟨Option.isNone_iff_eq_none.mp hStanding, returns_write.mp h⟩
  · exact .inl (returns_pure.mp h).2

section

variable [ReportRuntime]

theorem returns_restoreDocument {document : HtmlDocument} {body : JsonValue}
    {identity : ReportIdentity} {u : Unit}
    (h : Returns (restoreDocument document body identity now) db u db') :
    ∃ expiry, (∀ e ∈ expiry, now < e) ∧
      db' = { db with
        documents := db.documents.update (fun row => row.id = document.id)
          (restored expiry) (fun _ => rfl) } := by
  rw [restoreDocument, returns_check_bind] at h
  obtain ⟨_, -, h⟩ := h
  rw [returns_check_bind] at h
  obtain ⟨_, -, h⟩ := h
  rw [returns_query_bind] at h
  obtain ⟨_, -, h⟩ := h
  rw [returns_check_bind] at h
  obtain ⟨expiry, hExpiry, h⟩ := h
  exact ⟨expiry, lt_of_lifetime hExpiry, returns_write.mp h⟩

theorem returns_changeRetention {document : HtmlDocument} {body : JsonValue}
    {u : Unit} (h : Returns (changeRetention document body now) db u db') :
    Live document now ∧
      isNumber (body.field? (js "expectedRetentionRevision"))
        document.retentionRevision = true ∧
      ∃ expiry, (∀ e ∈ expiry, now < e) ∧ db' = { db with
        documents := db.documents.update (fun row => row.id = document.id)
          (withExpiry expiry) (fun _ => rfl) } := by
  rw [changeRetention, returns_check_bind] at h
  obtain ⟨_, hLive, h⟩ := h
  rw [returns_check_bind] at h
  obtain ⟨_, hRevision, h⟩ := h
  rw [returns_check_bind] at h
  obtain ⟨expiry, hExpiry, h⟩ := h
  rw [throwIf_eq_ok, Bool.not_eq_false'] at hRevision
  exact ⟨assertLive_eq_ok hLive, hRevision, expiry, lt_of_lifetime hExpiry,
    returns_write.mp h⟩

variable [CaseMapping]

theorem returns_changeAccess {document : HtmlDocument} {body : JsonValue}
    {identity : ReportIdentity} {u : Unit}
    (h : Returns (changeAccess document body identity now) db u db') :
    Live document now ∧
      isNumber (body.field? (js "expectedAccessRevision"))
        document.accessRevision = true ∧
      truthyText document.seriesId = false ∧
      ∃ access, db' = { db with
        documents := db.documents.update (fun row => row.id = document.id)
          (withAccess access) (fun _ => rfl) } := by
  rw [changeAccess, returns_check_bind] at h
  obtain ⟨_, hLive, h⟩ := h
  rw [returns_check_bind] at h
  obtain ⟨_, hRevision, h⟩ := h
  rw [returns_check_bind] at h
  obtain ⟨_, hFree, h⟩ := h
  rw [returns_query_bind] at h
  obtain ⟨access, -, h⟩ := h
  rw [throwIf_eq_ok, Bool.not_eq_false'] at hRevision
  exact ⟨assertLive_eq_ok hLive, hRevision, throwIf_eq_ok.mp hFree, access,
    returns_write.mp h⟩

/-- A lifecycle operation on the document it has read. -/
theorem returns_manageOnce {id action : JsString} {identity : ReportIdentity}
    {input : Unknown} {answer : HtmlDocument}
    (h : Returns (manageOnce id identity action input now) db answer db') :
    ∃ document kind body, documentRow db id = .ok document ∧
      htmlAction? action = some kind ∧
      object input kind.fields = .ok body ∧
      Returns (manageDocument document identity kind body now) db () db' ∧
      documentRow db' id = .ok answer := by
  rw [manageOnce, returns_query_bind] at h
  obtain ⟨document, hDocument, h⟩ := h
  rw [returns_query_bind] at h
  obtain ⟨_, -, h⟩ := h
  rw [returns_check_bind] at h
  obtain ⟨kind, hKind, h⟩ := h
  rw [returns_check_bind] at h
  obtain ⟨body, hBody, h⟩ := h
  obtain ⟨_, mid, hManage, h⟩ := returns_bind.mp h
  obtain ⟨hAnswer, rfl⟩ := returns_query.mp h
  exact ⟨document, kind, body, hDocument, required_eq_ok.mp hKind, hBody,
    hManage, hAnswer⟩

theorem steps_manageOnce (hNames : OwnNames db) {id action : JsString}
    {identity : ReportIdentity} {input : Unknown} {answer : HtmlDocument}
    (h : Returns (manageOnce id identity action input now) db answer db') :
    Steps now db db' := by
  obtain ⟨document, kind, body, hDocument, -, -, hManage, -⟩ :=
    returns_manageOnce h
  obtain ⟨hStored, -, hKept⟩ := (documentRow_eq_ok hNames).mp hDocument
  cases kind with
  | restore =>
      obtain ⟨expiry, hFuture, rfl⟩ := returns_restoreDocument hManage
      exact .single (change_updateDocument hStored
        (.restore expiry hKept hFuture))
  | remove =>
      obtain ⟨-, rfl | ⟨hStanding, rfl⟩⟩ := returns_removeDocument hManage
      · exact .refl
      · exact .single (change_updateDocument hStored
          (.remove ⟨hKept, hStanding⟩))
  | access =>
      obtain ⟨hLive, -, hFree, access, rfl⟩ := returns_changeAccess hManage
      exact .single (change_updateDocument hStored (.access access hLive hFree))
  | retention =>
      obtain ⟨hLive, -, expiry, hFuture, rfl⟩ := returns_changeRetention hManage
      exact .single (change_updateDocument hStored
        (.retention expiry hLive hFuture))

end

/-! ## Purging -/

theorem returns_purgeDocument {id : JsString} {u : Unit}
    (h : Returns (purgeDocument now id) db u db') :
    db' = Purged now id db := by
  rw [purgeDocument, returns_write_bind, returns_write_bind] at h
  exact returns_write.mp h

theorem mem_documents_purged {id : JsString} {document : HtmlDocument} :
    document ∈ (Purged now id db).documents.rows ↔
      ∃ old ∈ db.documents.rows,
        (if old.id = id then HtmlStore.purged now old else old) =
          document := by
  refine (List.mem_map (f := fun old =>
    if (decide (old.id = id)) = true then HtmlStore.purged now old
    else old)).trans ?_
  simp only [decide_eq_true_eq]

/-- Purging one document leaves the others as they are. -/
theorem mem_of_mem_purged {id : JsString} {document : HtmlDocument}
    (h : document ∈ (Purged now id db).documents.rows)
    (hOther : document.id ≠ id) : document ∈ db.documents.rows := by
  obtain ⟨old, hOld, hNew⟩ := mem_documents_purged.mp h
  split at hNew
  · rename_i hId
    subst hNew
    exact absurd hId hOther
  · exact hNew ▸ hOld

/-- The documents that are due are purged one after the other. -/
theorem steps_purgeEach {ids : List JsString} (hDistinct : ids.Nodup)
    (hDue : ∀ id ∈ ids, ∀ document ∈ db.documents.rows, document.id = id →
      purgeable document now = true) {u : Unit}
    (h : Returns (each ids (purgeDocument now)) db u db') :
    Steps now db db' := by
  induction ids generalizing db with
  | nil => exact (returns_pure.mp h).2 ▸ .refl
  | cons id ids ih =>
      obtain ⟨hNotMem, hRest⟩ := List.nodup_cons.mp hDistinct
      obtain ⟨_, mid, hFirst, h⟩ := returns_bind.mp h
      obtain rfl := returns_purgeDocument hFirst
      refine .head (.purged id (hDue id List.mem_cons_self))
        (ih hRest (fun other hOther document hStored hId => ?_) h)
      have hNe : document.id ≠ id :=
        fun hSame => hNotMem (hSame ▸ hId ▸ hOther)
      exact hDue other (List.mem_cons_of_mem id hOther) document
        (mem_of_mem_purged hStored hNe) hId

theorem steps_purgeOnce {count : Nat}
    (h : Returns (purgeOnce now) db count db') : Steps now db db' := by
  rw [purgeOnce, returns_query_bind] at h
  obtain ⟨candidates, hRead, h⟩ := h
  obtain rfl := Except.ok.inj hRead
  obtain ⟨_, mid, hEach, h⟩ := returns_bind.mp h
  obtain ⟨-, rfl⟩ := returns_pure.mp h
  refine steps_purgeEach
    (db.documents.nodup.sublist (List.filter_sublist.map _)) ?_ hEach
  intro id hId document hStored hSame
  obtain ⟨candidate, hCandidate, rfl⟩ := List.mem_map.mp hId
  obtain ⟨hMem, hDue⟩ := List.mem_filter.mp hCandidate
  rwa [List.inj_on_of_nodup_map db.documents.nodup hStored hMem hSame]

end Managing

/-! ## Teams and series -/

section Sharing

variable {db db' : Reports} {now : Int}

/-- Only teams, members, invites and series were written. -/
def Shared (before after : Reports) : Prop :=
  ∃ teams members invites series, SeriesKept before.series series ∧
    after = { before with
      teams := teams, members := members, invites := invites
      series := series }

theorem seriesKept_refl (series : Table ReportSeries.id) :
    SeriesKept series series :=
  fun row hRow => ⟨row, hRow, rfl, rfl⟩

/-- Writing teams, members and invites leaves the series alone. -/
theorem shared_teams {teams : Table Team.id}
    {members : Table TeamMember.primary} {invites : Table TeamInvite.id} :
    Shared db { db with
      teams := teams, members := members, invites := invites } :=
  ⟨teams, members, invites, db.series, seriesKept_refl db.series, rfl⟩

theorem Shared.step (h : Shared db db') : Change now db db' := by
  obtain ⟨teams, members, invites, series, hSeries, rfl⟩ := h
  exact .shared teams members invites series hSeries

theorem shared_insertTeam {team : Team}
    (h : Returns (insertTeam team) db () db') : Shared db db' := by
  rw [insertTeam, returns_query_bind] at h
  obtain ⟨_, -, h⟩ := h
  obtain rfl := returns_write.mp h
  exact shared_teams

theorem shared_insertMember {member : TeamMember}
    (h : Returns (insertMember member) db () db') : Shared db db' := by
  rw [insertMember, returns_query_bind] at h
  obtain ⟨_, -, h⟩ := h
  obtain rfl := returns_write.mp h
  exact shared_teams

theorem shared_insertInvite {invite : TeamInvite}
    (h : Returns (insertInvite invite) db () db') : Shared db db' := by
  rw [insertInvite, returns_query_bind] at h
  obtain ⟨_, -, h⟩ := h
  obtain rfl := returns_write.mp h
  exact shared_teams

theorem steps_createTeam [ReportRuntime] {identity : ReportIdentity}
    {input : Unknown} {id : JsString}
    (h : Returns (createTeam identity input id now) db () db') :
    Steps now db db' := by
  rw [createTeam, returns_check_bind] at h
  obtain ⟨_, -, h⟩ := h
  rw [returns_check_bind] at h
  obtain ⟨_, -, h⟩ := h
  rw [returns_check_bind] at h
  obtain ⟨_, -, h⟩ := h
  obtain ⟨_, mid, hTeam, hMember⟩ := returns_bind.mp h
  exact .tail (.single (shared_insertTeam hTeam).step)
    (shared_insertMember hMember).step

/-- A document of a team that stands is live. -/
theorem live_of_standing {team : JsString} {document : HtmlDocument}
    (h : standing team document now = true) : Live document now := by
  simp only [standing, Bool.and_eq_true, Option.isNone_iff_eq_none] at h
  obtain ⟨⟨⟨-, hKept⟩, hRemoved⟩, hExpiry⟩ := h
  refine ⟨hKept, ?_⟩
  rw [removedAt, hRemoved]
  cases hTime : document.expiresAt with
  | none => rfl
  | some time =>
      rw [hTime, Option.all_some, decide_eq_true_eq] at hExpiry
      simp [Option.filter, hExpiry]

/-- Removing a team removes its plans first. -/
theorem steps_removeTeam {id : JsString} {force : Bool}
    (h : Returns (removeTeam id force now) db () db') : Steps now db db' := by
  rw [removeTeam, returns_query_bind] at h
  obtain ⟨_, -, h⟩ := h
  rw [returns_query_bind] at h
  obtain ⟨_, -, h⟩ := h
  rw [returns_write_bind] at h
  obtain rfl := returns_write.mp h
  refine .tail (.single (.touched (activePlan id now) (removed now)
    (removed_id now) ?_)) shared_teams.step
  intro document _ hActive
  rw [activePlan, Bool.and_eq_true] at hActive
  exact .remove (live_of_standing hActive.1)

variable [ReportRuntime]

theorem shared_renameTeam {input : Unknown} {id : JsString}
    (h : Returns (renameTeam input id) db () db') : Shared db db' := by
  rw [renameTeam, returns_check_bind] at h
  obtain ⟨_, -, h⟩ := h
  rw [returns_query_bind] at h
  obtain ⟨_, -, h⟩ := h
  rw [returns_check_bind] at h
  obtain ⟨_, -, h⟩ := h
  rw [returns_check_bind] at h
  obtain ⟨_, -, h⟩ := h
  rw [returns_check_bind] at h
  obtain ⟨_, -, h⟩ := h
  obtain rfl := returns_write.mp h
  exact shared_teams

theorem shared_inviteMember {identity : ReportIdentity} {input : Unknown}
    {team id : JsString}
    (h : Returns (inviteMember identity input team id now) db () db') :
    Shared db db' := by
  rw [inviteMember, returns_check_bind] at h
  obtain ⟨_, -, h⟩ := h
  rw [returns_check_bind] at h
  obtain ⟨_, -, h⟩ := h
  rw [returns_check_bind] at h
  obtain ⟨_, -, h⟩ := h
  rw [returns_check_bind] at h
  obtain ⟨_, -, h⟩ := h
  exact shared_insertInvite h

theorem steps_changeTeam {team : JsString} {identity : ReportIdentity}
    {action : TeamAction}
    (h : Returns (changeTeam team identity action now) db () db') :
    Steps now db db' := by
  rw [changeTeam, returns_query_bind] at h
  obtain ⟨_, -, h⟩ := h
  cases action with
  | delete force => exact steps_removeTeam h
  | removeMember email =>
      obtain rfl := returns_write.mp h
      exact .single shared_teams.step
  | archive archived =>
      obtain rfl := returns_write.mp h
      exact .single shared_teams.step
  | rename input => exact .single (shared_renameTeam h).step
  | invite input id => exact .single (shared_inviteMember h).step
  | unknown => cases (returns_check.mp h).1

omit [ReportRuntime] in
theorem steps_joinTeam {invite : TeamInvite} {identity : ReportIdentity}
    (h : Returns (joinTeam invite identity now) db () db') :
    Steps now db db' := by
  rw [joinTeam, returns_check_bind] at h
  obtain ⟨_, -, h⟩ := h
  obtain ⟨_, mid, hMember, h⟩ := returns_bind.mp h
  obtain rfl := returns_write.mp h
  exact .tail (.single (shared_insertMember hMember).step) shared_teams.step

omit [ReportRuntime] in
theorem steps_acceptPlanInvite {id team : JsString}
    {identity : ReportIdentity}
    (h : Returns (acceptPlanInvite id team identity now) db () db') :
    Steps now db db' := by
  rw [acceptPlanInvite, returns_query_bind] at h
  obtain ⟨invite, -, h⟩ := h
  rw [returns_query_bind] at h
  obtain ⟨existing, -, h⟩ := h
  split at h
  · exact (returns_pure.mp h).2 ▸ .refl
  · exact steps_joinTeam h

omit [ReportRuntime] in
theorem shared_revokeInvite {id : JsString} {identity : ReportIdentity}
    (h : Returns (revokeInvite id identity now) db () db') :
    Shared db db' := by
  rw [revokeInvite, returns_query_bind] at h
  obtain ⟨_, -, h⟩ := h
  rw [returns_query_bind] at h
  obtain ⟨_, -, h⟩ := h
  obtain rfl := returns_write.mp h
  exact shared_teams

omit [ReportRuntime] in
/-- A series of a new id is added to those there are. -/
theorem shared_insertSeries {series : ReportSeries}
    (h : Returns (insertSeries series) db () db') : Shared db db' := by
  rw [insertSeries, returns_query_bind] at h
  obtain ⟨_, hFree, h⟩ := h
  obtain rfl := returns_write.mp h
  rw [throwIf_eq_ok, Bool.or_eq_false_iff] at hFree
  refine ⟨db.teams, db.members, db.invites, _, fun row hRow => ?_, rfl⟩
  have hNe : row.id ≠ series.id := by
    intro hSame
    have hTaken := Table.find?_of_mem hRow
    rw [hSame] at hTaken
    simp [hTaken] at hFree
  exact ⟨row, Table.mem_put_iff.mpr (.inr ⟨hRow, hNe⟩), rfl, rfl⟩

omit [ReportRuntime] in
theorem steps_createReportSeries {owner name id slug : JsString}
    (h : Returns (createReportSeries owner name id slug now) db () db') :
    Steps now db db' := by
  rw [createReportSeries, returns_query_bind] at h
  obtain ⟨taken, -, h⟩ := h
  split at h
  · exact (returns_pure.mp h).2 ▸ .refl
  · exact .single (shared_insertSeries h).step

omit [ReportRuntime] in
theorem shared_bindPublisher {id owner : JsString}
    {publisher : Option JsString} {expectedRevision : Unknown}
    (h : Returns (bindPublisher id owner publisher expectedRevision) db ()
      db') : Shared db db' := by
  rw [bindPublisher, returns_query_bind] at h
  obtain ⟨series, -, h⟩ := h
  rw [returns_check_bind] at h
  obtain ⟨_, -, h⟩ := h
  obtain rfl := returns_write.mp h
  refine ⟨db.teams, db.members, db.invites, _, fun row hRow => ?_, rfl⟩
  refine ⟨_, Table.mem_update.mpr ⟨row, hRow, rfl⟩, ?_⟩
  split <;> exact ⟨rfl, rfl⟩

end Sharing

/-! ## The machine -/

/-- A call with its arguments, and the ids it draws. -/
inductive ReportCall where
  | publishHtml (input : PublishInput) (raw : JsString)
      (identity : ReportIdentity) (key base : JsString) (draws : Draws)
  | writePlan (identity : ReportIdentity) (input : Unknown)
      (location : PlanLocation) (draws : Draws)
  | deletePlan (id : JsString) (identity : ReportIdentity)
      (expected : Unknown)
  | manageHtml (id : JsString) (identity : ReportIdentity)
      (action : JsString) (input : Unknown)
  | purgeHtml
  | createTeam (identity : ReportIdentity) (input : Unknown) (id : JsString)
  | changeTeam (team : JsString) (identity : ReportIdentity)
      (action : TeamAction)
  | acceptPlanInvite (id team : JsString) (identity : ReportIdentity)
  | revokeInvite (id : JsString) (identity : ReportIdentity)
  | createReportSeries (owner name id slug : JsString)
  | bindPublisher (id owner : JsString) (publisher : Option JsString)
      (expectedRevision : Unknown)

/-- A call at its time; `persisted` is whether the journal is written after
the commit. -/
structure Turn where
  call : ReportCall
  now : Int
  persisted : Bool

inductive Answer where
  | published (answer : PublishAnswer)
  | planned (plan : PlanResult)
  | managed (document : HtmlDocument)
  | purged (count : Nat)
  | done

/-! ## What a turn leaves behind -/

def nextRevision (db : Reports) : Reports :=
  { db with revision := db.revision + 1 }

/-- A transaction threw and changed nothing, or it was committed; then the
answer is its result where the journal was written. -/
theorem reportTransaction_outcome {α : Type} (persisted : Bool)
    (operation : Call α) (db : Reports) :
    (∃ e, reportTransaction persisted operation db = (.error e, db)) ∨
      ∃ a mid, Returns operation db a mid ∧
        reportTransaction persisted operation db =
          (if persisted then .ok a else .error journalUnavailable,
            nextRevision mid) := by
  cases hRun : operation db with
  | mk result mid =>
      have hTx : reportTransaction persisted operation db =
          match result with
          | .ok a => (if persisted then .ok a else .error journalUnavailable,
              nextRevision mid)
          | .error e => (.error e, db) := by
        change Action.bind (transaction (Action.bind operation _)) _ db = _
        simp only [Action.bind, transaction, hRun]
        cases result with
        | error e => rfl
        | ok a => cases persisted <;> rfl
      cases result with
      | error e => exact .inl ⟨e, hTx⟩
      | ok a => exact .inr ⟨a, mid, hRun, hTx⟩

/-- Nothing, or the steps of a transaction and the next revision. -/
def Settled (now : Int) (db after : Reports) : Prop :=
  after = db ∨ ∃ mid, Steps now db mid ∧ after = nextRevision mid

theorem settled_reportTransaction {α : Type} {persisted : Bool}
    {operation : Call α} {now : Int} {db : Reports}
    (h : ∀ a mid, Returns operation db a mid → Steps now db mid) :
    Settled now db (reportTransaction persisted operation db).2 := by
  obtain ⟨e, hThrow⟩ | ⟨a, mid, hReturn, hCommit⟩ :=
    reportTransaction_outcome persisted operation db
  · rw [hThrow]
    exact .inl rfl
  · rw [hCommit]
    exact .inr ⟨mid, h a mid hReturn, rfl⟩

/-- A check before a transaction changes nothing. -/
theorem settled_check_bind {α β : Type} {x : Except ReportFailure α}
    {g : α → Call β} {now : Int} {db : Reports}
    (h : ∀ a, Settled now db (g a db).2) :
    Settled now db ((check x >>= g) db).2 := by
  cases x with
  | error e => exact .inl rfl
  | ok a => exact h a

/-- A call with its result read as an answer. -/
def answering {α : Type} (f : α → Answer) (call : Call α) : Call Answer :=
  call >>= fun a => pure (f a)

def done (call : Call Unit) : Call Answer := answering (fun _ => .done) call

/-- The tables after a call do not depend on how its result is read. -/
theorem answering_snd {α : Type} (f : α → Answer) (call : Call α)
    (db : Reports) : (answering f call db).2 = (call db).2 := by
  change (Action.bind call _ db).2 = _
  unfold Action.bind
  cases hRun : call db with
  | mk result after => cases result <;> rfl

theorem settled_purgeHtml {now : Int} {persisted : Bool} {db : Reports} :
    Settled now db (purgeHtml now persisted db).2 := by
  change Settled now db ((if _ then _ else _ : Call Nat) db).2
  split
  · exact settled_reportTransaction fun _ _ => steps_purgeOnce
  · exact .inl rfl

section Runs

variable [HtmlRuntime] [ReportRuntime] [CaseMapping]

def perform (turn : Turn) : Call Answer :=
  match turn.call with
  | .publishHtml input raw identity key base draws =>
      answering .published (publishHtml input raw identity key base draws
        turn.now turn.persisted)
  | .writePlan identity input location draws =>
      answering .planned
        (writePlan identity input location draws turn.now turn.persisted)
  | .deletePlan id identity expected =>
      done (deletePlan id identity expected turn.now turn.persisted)
  | .manageHtml id identity action input =>
      answering .managed
        (manageHtml id identity action input turn.now turn.persisted)
  | .purgeHtml => answering .purged (purgeHtml turn.now turn.persisted)
  | .createTeam identity input id =>
      done (reportTransaction turn.persisted
        (createTeam identity input id turn.now))
  | .changeTeam team identity action =>
      done (reportTransaction turn.persisted
        (changeTeam team identity action turn.now))
  | .acceptPlanInvite id team identity =>
      done (reportTransaction turn.persisted
        (acceptPlanInvite id team identity turn.now))
  | .revokeInvite id identity =>
      done (reportTransaction turn.persisted
        (revokeInvite id identity turn.now))
  | .createReportSeries owner name id slug =>
      done (reportTransaction turn.persisted
        (createReportSeries owner name id slug turn.now))
  | .bindPublisher id owner publisher expectedRevision =>
      done (reportTransaction turn.persisted
        (bindPublisher id owner publisher expectedRevision))

/-- The tables, and the time of the last turn. -/
structure Clocked where
  clock : Int
  db : Reports

def reports : Machine Clocked Turn (Except ReportFailure Answer) :=
  fun turn s => ((perform turn s.db).1, ⟨turn.now, (perform turn s.db).2⟩)

/-- Time does not go back. -/
def inTime (s : Clocked) (turn : Turn) : Prop := s.clock ≤ turn.now

/-- Every turn leaves the tables as they are, or takes the steps of one
transaction. -/
theorem settled_perform {db : Reports} (hNames : OwnNames db) (turn : Turn) :
    Settled turn.now db (perform turn db).2 := by
  obtain ⟨call, now, persisted⟩ := turn
  cases call with
  | publishHtml input raw identity key base draws =>
      refine (answering_snd _ _ db).symm ▸ settled_check_bind fun _ => ?_
      exact settled_reportTransaction fun _ _ => steps_publishOnce hNames
  | writePlan identity input location draws =>
      refine (answering_snd _ _ db).symm ▸ settled_check_bind fun _ => ?_
      exact settled_reportTransaction fun _ _ => steps_writeOnce hNames
  | deletePlan id identity expected =>
      refine (answering_snd _ _ db).symm ▸
        settled_reportTransaction fun _ _ h => ?_
      obtain ⟨document, hDocument, hLive, -, rfl⟩ := returns_deleteOnce h
      exact .single (change_updateDocument
        (mem_of_documentRow hNames hDocument) (.remove hLive))
  | manageHtml id identity action input =>
      exact (answering_snd _ _ db).symm ▸
        settled_reportTransaction fun _ _ => steps_manageOnce hNames
  | purgeHtml => exact (answering_snd _ _ db).symm ▸ settled_purgeHtml
  | createTeam identity input id =>
      exact (answering_snd _ _ db).symm ▸
        settled_reportTransaction fun _ _ => steps_createTeam
  | changeTeam team identity action =>
      exact (answering_snd _ _ db).symm ▸
        settled_reportTransaction fun _ _ => steps_changeTeam
  | acceptPlanInvite id team identity =>
      exact (answering_snd _ _ db).symm ▸
        settled_reportTransaction fun _ _ => steps_acceptPlanInvite
  | revokeInvite id identity =>
      exact (answering_snd _ _ db).symm ▸
        settled_reportTransaction fun _ _ h =>
          .single (shared_revokeInvite h).step
  | createReportSeries owner name id slug =>
      exact (answering_snd _ _ db).symm ▸
        settled_reportTransaction fun _ _ => steps_createReportSeries
  | bindPublisher id owner publisher expectedRevision =>
      exact (answering_snd _ _ db).symm ▸
        settled_reportTransaction fun _ _ h =>
          .single (shared_bindPublisher h).step

end Runs

end OpenApe.Ports.HtmlRuns
