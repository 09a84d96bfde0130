import OpenApe.Ports.HtmlLifecycle

/-!
# The laws of the Reports store

What a successful call rests on (the version or revision it named was the
current one, its key was free or is answered again) and, with the invariant
of `HtmlLifecycle`, the laws that hold in every state that calls reach.
-/

namespace OpenApe.Ports.ReportLaws

open Verified.JsText Verified.Json Verified.KeyedTable Verified.Machine
  Verified.Transactions Verified.Transactions.Action Verified.Unicode
open CentralValues (Unknown)
open ReportContracts HtmlStore PlansStore HtmlRuns HtmlLifecycle

/-! ## Calls that take effect -/

/-- An answer that was given before. -/
def isReplay : Answer → Bool
  | .published answer => answer.replayed
  | _ => false

/-- The call succeeded, other than by a replay, or it changed documents or
versions. -/
def Effect (call : Call Answer) (db : Reports) : Prop :=
  (∃ answer, (call db).1 = .ok answer ∧ isReplay answer = false) ∨
    (call db).2.documents ≠ db.documents ∨
    (call db).2.versions ≠ db.versions

variable {α β : Type} {db db' : Reports} {now : Int}

theorem answering_check_bind {f : β → Answer} {x : Except ReportFailure α}
    {g : α → Call β} :
    answering f (check x >>= g) db =
      match x with
      | .ok a => answering f (g a) db
      | .error e => (.error e, db) := by
  cases x <;> rfl

/-- A call that throws and changes nothing takes no effect. -/
theorem not_effect_of_error {call : Call Answer} {e : ReportFailure}
    (hRun : call db = (.error e, db)) : ¬Effect call db := by
  intro h
  unfold Effect at h
  rw [hRun] at h
  obtain ⟨answer, hAnswer, -⟩ | hNe | hNe := h
  · cases hAnswer
  · exact hNe rfl
  · exact hNe rfl

/-- Behind a check a call takes effect only when the check passes. -/
theorem effect_check_bind {f : β → Answer} {x : Except ReportFailure α}
    {g : α → Call β} (h : Effect (answering f (check x >>= g)) db) :
    ∃ a, x = .ok a ∧ Effect (answering f (g a)) db := by
  cases x with
  | ok a => exact ⟨a, rfl, h⟩
  | error e => exact absurd h (not_effect_of_error answering_check_bind)

/-- A transaction threw and changed nothing, or its operation returned. -/
theorem answering_transaction (f : α → Answer) (persisted : Bool)
    (operation : Call α) (db : Reports) :
    (∃ e, answering f (reportTransaction persisted operation) db =
      (.error e, db)) ∨
    ∃ a mid, Returns operation db a mid ∧
      answering f (reportTransaction persisted operation) db =
        (if persisted then .ok (f a) else .error journalUnavailable,
          nextRevision mid) := by
  obtain ⟨e, hThrow⟩ | ⟨a, mid, hReturn, hCommit⟩ :=
    reportTransaction_outcome persisted operation db
  · refine .inl ⟨e, ?_⟩
    change Action.bind _ _ db = _
    rw [Action.bind, hThrow]
  · refine .inr ⟨a, mid, hReturn, ?_⟩
    change Action.bind _ _ db = _
    rw [Action.bind, hCommit]
    cases persisted <;> rfl

/-- A transaction takes effect only when its operation returns. -/
theorem effect_transaction {f : α → Answer} {persisted : Bool}
    {operation : Call α}
    (h : Effect (answering f (reportTransaction persisted operation)) db) :
    ∃ a mid, Returns operation db a mid ∧ (isReplay (f a) = false ∨
      mid.documents ≠ db.documents ∨ mid.versions ≠ db.versions) := by
  obtain ⟨e, hRun⟩ | ⟨a, mid, hReturn, hRun⟩ :=
    answering_transaction f persisted operation db
  · exact absurd h (not_effect_of_error hRun)
  · unfold Effect at h
    rw [hRun] at h
    refine ⟨a, mid, hReturn, h.imp_left fun hOk => ?_⟩
    obtain ⟨answer, hAnswer, hFresh⟩ := hOk
    cases persisted with
    | false => cases hAnswer
    | true =>
        obtain rfl := Except.ok.inj hAnswer
        exact hFresh

/-! ## Named versions and revisions -/

/-- The document a call names, and the version or revision it expects. -/
structure Expectation where
  id : JsString
  current : HtmlDocument → Nat
  named : Unknown

/-- The revision that a lifecycle action takes, and its field. -/
def revisionOf : HtmlAction → Option ((HtmlDocument → Nat) × String)
  | .remove => some (HtmlDocument.latestVersion, "expectedVersion")
  | .access => some (HtmlDocument.accessRevision, "expectedAccessRevision")
  | .retention =>
      some (HtmlDocument.retentionRevision, "expectedRetentionRevision")
  | .restore => none

/-- What a call on a document that exists expects of it. -/
def expectation : ReportCall → Option Expectation
  | .publishHtml input _ _ _ _ _ =>
      (input.documentId.filter (· != [])).map fun id =>
        ⟨id, HtmlDocument.latestVersion, input.expectedVersion⟩
  | .writePlan _ (some body) location _ =>
      (location.id.filter (· != [])).map fun id =>
        ⟨id, HtmlDocument.latestVersion, body.field? (js "expected_version")⟩
  | .deletePlan id _ expected =>
      some ⟨id, HtmlDocument.latestVersion, expected⟩
  | .manageHtml id _ action (some body) =>
      ((htmlAction? action).bind revisionOf).map fun revision =>
        ⟨id, revision.1, body.field? (js revision.2)⟩
  | _ => none

/-- A checked object is the value itself. -/
theorem eq_some_of_object {value : Unknown} {allowed : List String}
    {body : JsonValue} (h : object value allowed = .ok body) :
    value = some body := by
  unfold object at h
  split at h
  · split at h
    · cases h
    · obtain rfl := Except.ok.inj h
      rfl
  · cases h

section Runs

variable [HtmlRuntime] [ReportRuntime] [CaseMapping]

/-- The expected version is the current one of the document named. -/
def Current (e : Expectation) (db : Reports) : Prop :=
  ∃ document ∈ db.documents.rows, document.id = e.id ∧
    document.purgedAt = none ∧ isNumber e.named (e.current document) = true

omit [HtmlRuntime] [ReportRuntime] [CaseMapping] in
theorem current_of_documentRow (hNames : OwnNames db) {e : Expectation}
    {document : HtmlDocument} (hDocument : documentRow db e.id = .ok document)
    (hCurrent : isNumber e.named (e.current document) = true) :
    Current e db := by
  obtain ⟨hStored, hId, hKept⟩ := (documentRow_eq_ok hNames).mp hDocument
  exact ⟨document, hStored, hId, hKept, hCurrent⟩

theorem current_of_publish (hNames : OwnNames db) {input : PublishInput}
    {digest key base id : JsString} {identity : ReportIdentity}
    {draws : Draws} {answer : PublishAnswer}
    (hId : input.documentId.filter (· != []) = some id)
    (h : Returns (publishOnce input digest identity key base draws now) db
      answer db')
    (hEffect : isReplay (.published answer) = false ∨
      db'.documents ≠ db.documents ∨ db'.versions ≠ db.versions) :
    Current ⟨id, HtmlDocument.latestVersion, input.expectedVersion⟩ db := by
  cases returns_publishOnce.mp h with
  | inl hReplay =>
      obtain ⟨receipt, -, hReplay⟩ := hReplay
      obtain ⟨-, hReplayed, rfl⟩ := returns_replay hReplay
      obtain hFresh | hNe | hNe := hEffect
      · cases hReplayed.symm.trans hFresh
      · exact absurd rfl hNe
      · exact absurd rfl hNe
  | inr hNew =>
      obtain ⟨draft, mid, publication, hTarget, -, -⟩ :=
        returns_publishNew.mp hNew.2
      rw [target, hId] at hTarget
      obtain ⟨hDocument, -, hCurrent, -, -⟩ := returns_updateTarget hTarget
      exact current_of_documentRow hNames hDocument hCurrent

omit [HtmlRuntime] in
theorem current_of_manage (hNames : OwnNames db) {id action : JsString}
    {identity : ReportIdentity} {body : JsonValue} {answer : HtmlDocument}
    {revision : (HtmlDocument → Nat) × String}
    (hRevision : (htmlAction? action).bind revisionOf =
      some revision)
    (h : Returns (manageOnce id identity action (some body) now) db answer
      db') : Current ⟨id, revision.1, body.field? (js revision.2)⟩ db := by
  obtain ⟨document, kind, input, hDocument, hKind, hBody, hManage, -⟩ :=
    returns_manageOnce h
  obtain rfl := Option.some.inj (eq_some_of_object hBody)
  rw [hKind, Option.bind_some] at hRevision
  refine current_of_documentRow hNames hDocument ?_
  cases kind with
  | restore => cases hRevision
  | remove =>
      obtain rfl := Option.some.inj hRevision
      exact (returns_removeDocument hManage).1
  | access =>
      obtain rfl := Option.some.inj hRevision
      exact (returns_changeAccess hManage).2.1
  | retention =>
      obtain rfl := Option.some.inj hRevision
      exact (returns_changeRetention hManage).2.1

/-- A call that takes effect named the current version or revision. -/
theorem current_of_effect (hNames : OwnNames db) {turn : Turn}
    {e : Expectation} (hExpected : expectation turn.call = some e)
    (h : Effect (perform turn) db) : Current e db := by
  obtain ⟨call, now, persisted⟩ := turn
  cases call with
  | publishHtml input raw identity key base draws =>
      obtain ⟨id, hId, rfl⟩ := Option.map_eq_some_iff.mp hExpected
      obtain ⟨_, -, h⟩ := effect_check_bind h
      obtain ⟨answer, mid, hReturn, hEffect⟩ := effect_transaction h
      exact current_of_publish hNames hId hReturn hEffect
  | writePlan identity input location draws =>
      obtain ⟨body, hBody, h⟩ := effect_check_bind h
      obtain rfl := eq_some_of_object hBody
      obtain ⟨id, hId, rfl⟩ := Option.map_eq_some_iff.mp hExpected
      obtain ⟨plan, mid, hReturn, -⟩ := effect_transaction h
      rw [writeOnce, hId] at hReturn
      obtain ⟨document, _, _, hDocument, -, hCurrent, -⟩ :=
        returns_updatePlan hReturn
      exact current_of_documentRow hNames hDocument hCurrent
  | deletePlan id identity expected =>
      obtain rfl := Option.some.inj hExpected
      obtain ⟨_, mid, hReturn, -⟩ := effect_transaction h
      obtain ⟨document, hDocument, -, hCurrent, -⟩ := returns_deleteOnce hReturn
      exact current_of_documentRow hNames hDocument hCurrent
  | manageHtml id identity action input =>
      cases input with
      | none => cases hExpected
      | some body =>
          obtain ⟨revision, hRevision, rfl⟩ :=
            Option.map_eq_some_iff.mp hExpected
          obtain ⟨_, mid, hReturn, -⟩ := effect_transaction h
          exact current_of_manage hNames hRevision hReturn
  | _ => cases hExpected

end Runs

/-! ## Idempotency keys -/

/-- A publication under a key, at its time. -/
def publishing (input : PublishInput) (raw : JsString)
    (identity : ReportIdentity) (key base : JsString) (draws : Draws)
    (now : Int) (persisted : Bool) : Turn :=
  ⟨.publishHtml input raw identity key base draws, now, persisted⟩

/-- The receipt of a key, for these bytes. -/
def HasReceipt (db : Reports) (identity : ReportIdentity)
    (key digest : JsString) : Prop :=
  ∃ receipt ∈ db.receipts.rows,
    receipt.primary = (identity.subject, identity.actor, key) ∧
      receipt.digest = digest

section Keys

variable [HtmlRuntime] [ReportRuntime] [CaseMapping] {input : PublishInput}
  {raw key base : JsString} {identity : ReportIdentity} {draws : Draws}
  {persisted : Bool}

/-- A publication threw and changed nothing, or it returned. -/
theorem publishing_outcome (input : PublishInput) (raw : JsString)
    (identity : ReportIdentity) (key base : JsString) (draws : Draws)
    (now : Int) (persisted : Bool) (db : Reports) :
    (∃ e, perform (publishing input raw identity key base draws now persisted)
      db = (.error e, db)) ∨
    ∃ answer mid,
      Returns (publishOnce input (HtmlRuntime.hash raw) identity key base draws
        now) db answer mid ∧
      perform (publishing input raw identity key base draws now persisted)
        db = (if persisted then .ok (.published answer)
          else .error journalUnavailable, nextRevision mid) := by
  change (∃ e, answering .published (publishHtml input raw identity key base
      draws now persisted) db = _) ∨ ∃ answer mid, _ ∧ answering .published
        (publishHtml input raw identity key base draws now persisted) db = _
  rw [publishHtml, answering_check_bind]
  split
  · exact answering_transaction .published persisted _ db
  · exact .inl ⟨_, rfl⟩

/-- A publication that was committed leaves the receipt of its key. -/
theorem hasReceipt_of_committed
    (h : (perform (publishing input raw identity key base draws now persisted)
      db).2 ≠ db) :
    HasReceipt (perform (publishing input raw identity key base draws now
      persisted) db).2 identity key (HtmlRuntime.hash raw) := by
  obtain ⟨e, hRun⟩ | ⟨answer, mid, hReturn, hRun⟩ := publishing_outcome input
    raw identity key base draws now persisted db
  · rw [hRun] at h
    exact absurd rfl h
  rw [hRun]
  cases returns_publishOnce.mp hReturn with
  | inl hReplay =>
      obtain ⟨receipt, hFound, hReplay⟩ := hReplay
      obtain ⟨hDigest, -, rfl⟩ := returns_replay hReplay
      exact ⟨receipt, Table.mem_of_find? hFound, Table.key_of_find? hFound,
        hDigest⟩
  | inr hNew =>
      obtain ⟨draft, before, publication, -, -, hStore⟩ :=
        returns_publishNew.mp hNew.2
      obtain ⟨version, versions, receipt, -, -, -, hKey, hDigest, -, rfl⟩ :=
        returns_storeDraft hStore
      exact ⟨receipt, Table.mem_put_iff.mpr (.inl rfl), hKey, hDigest⟩

/-- Under a key that was used nothing is published again, and no other bytes
are answered. -/
theorem publishing_of_hasReceipt {digest : JsString}
    (h : HasReceipt db identity key digest) :
    let result := perform (publishing input raw identity key base draws now
      persisted) db
    result.2.documents = db.documents ∧ result.2.versions = db.versions ∧
      ∀ answer, result.1 = .ok answer →
        isReplay answer = true ∧ digest = HtmlRuntime.hash raw := by
  obtain ⟨receipt, hStored, hKey, rfl⟩ := h
  have hFound := Table.find?_of_mem hStored
  rw [hKey] at hFound
  dsimp only
  obtain ⟨e, hRun⟩ | ⟨answer, mid, hReturn, hRun⟩ := publishing_outcome input
    raw identity key base draws now persisted db
  · rw [hRun]
    exact ⟨rfl, rfl, fun _ hOk => nomatch hOk⟩
  rw [hRun]
  cases returns_publishOnce.mp hReturn with
  | inr hNew =>
      rw [hFound] at hNew
      exact nomatch hNew.1
  | inl hReplay =>
      obtain ⟨receipt', hFound', hReplay⟩ := hReplay
      obtain rfl := Option.some.inj (hFound.symm.trans hFound')
      obtain ⟨hDigest, hReplayed, rfl⟩ := returns_replay hReplay
      refine ⟨rfl, rfl, fun result hOk => ?_⟩
      cases persisted with
      | false => cases hOk
      | true =>
          obtain rfl := Except.ok.inj hOk
          exact ⟨hReplayed, hDigest⟩

omit [HtmlRuntime] [ReportRuntime] [CaseMapping] in
/-- Receipts are kept in every later state. -/
theorem hasReceipt_of_extends {digest : JsString} (hExtends : Extends db db')
    (h : HasReceipt db identity key digest) :
    HasReceipt db' identity key digest := by
  obtain ⟨receipt, hStored, hKey, hDigest⟩ := h
  obtain ⟨later, hLater, hKey', hDigest', -⟩ :=
    hExtends.receipts receipt hStored
  exact ⟨later, hLater, hKey'.trans hKey, hDigest'.trans hDigest⟩

end Keys

/-! ## Restored and purged documents -/

/-- No one but the owner reads the document. -/
structure Private (document : HtmlDocument) : Prop where
  audience : document.audience = js "private"
  readers : document.readers = []
  teamId : document.teamId = none

section Purged

variable {id : JsString} {document : HtmlDocument}

/-- A purged document is not found again. -/
theorem documentRow_of_purged (hNames : OwnNames db)
    (hStored : document ∈ db.documents.rows)
    (hPurged : document.purgedAt.isSome) :
    documentRow db document.id = .error missing := by
  cases hRow : documentRow db document.id with
  | ok other =>
      obtain ⟨hOther, hId, hKept⟩ := (documentRow_eq_ok hNames).mp hRow
      rw [List.inj_on_of_nodup_map db.documents.nodup hOther hStored hId]
        at hKept
      rw [hKept] at hPurged
      cases hPurged
  | error e =>
      unfold documentRow at hRow
      split at hRow
      · exact congrArg _ (Except.error.inj hRow).symm
      · split at hRow
        · exact congrArg _ (Except.error.inj hRow).symm
        · cases hRow

theorem readHtml_of_missing (h : documentRow db id = .error missing)
    (identity : Option ReportIdentity) (revision : Option Nat) :
    readHtml db id identity revision now = .error missing := by
  rw [readHtml, h]
  rfl

theorem readPlan_of_missing (h : documentRow db id = .error missing)
    (identity : ReportIdentity) :
    readPlan db id identity now = .error missing := by
  rw [readPlan, h]
  rfl

variable [HtmlRuntime] [ReportRuntime] [CaseMapping]

theorem manageHtml_of_missing (h : documentRow db id = .error missing)
    (identity : ReportIdentity) (action : JsString) (input : Unknown)
    (persisted : Bool) :
    perform ⟨.manageHtml id identity action input, now, persisted⟩ db =
      (.error missing, db) := by
  have hThrow : manageOnce id identity action input now db =
      (.error missing, db) := by
    change Action.bind (query fun db => documentRow db id) _ db = _
    rw [Action.bind, query, h]
  change Action.bind (Action.bind (transaction (Action.bind _ _)) _) _ db = _
  simp only [Action.bind, transaction, hThrow]

/-- A restoration that takes effect leaves the document private. -/
theorem private_of_restore (hNames : OwnNames db)
    {identity : ReportIdentity} {input : Unknown} {persisted : Bool}
    (h : Effect (perform
      ⟨.manageHtml id identity (js "restore") input, now, persisted⟩) db) :
    ∃ document ∈ (perform ⟨.manageHtml id identity (js "restore") input, now,
      persisted⟩ db).2.documents.rows,
      document.id = id ∧ Private document := by
  obtain ⟨e, hRun⟩ | ⟨answer, mid, hReturn, hRun⟩ := answering_transaction
    Answer.managed persisted (manageOnce id identity (js "restore") input now)
      db
  · exact absurd h (not_effect_of_error hRun)
  obtain ⟨document, kind, body, hDocument, hKind, -, hManage, -⟩ :=
    returns_manageOnce hReturn
  obtain rfl : HtmlAction.restore = kind := Option.some.inj hKind
  obtain ⟨expiry, -, rfl⟩ := returns_restoreDocument hManage
  obtain ⟨hStored, hId, -⟩ := (documentRow_eq_ok hNames).mp hDocument
  change ∃ row ∈ (answering Answer.managed (reportTransaction persisted
    (manageOnce id identity (js "restore") input now)) db).2.documents.rows, _
  rw [hRun]
  refine ⟨restored expiry document, ?_, hId, rfl, rfl, rfl⟩
  refine List.mem_map.mpr ⟨document, hStored, ?_⟩
  rw [if_pos (decide_eq_true rfl)]

end Purged

/-! ## The laws -/

section Laws

variable [HtmlRuntime] [ReportRuntime] [CaseMapping]

/-- What holds in a state, and of all that can follow it. -/
structure Lawful (s : Clocked) : Prop where
  /-- A document that is not purged has the versions from 1 to its latest. -/
  numbered : ∀ document ∈ s.db.documents.rows, document.purgedAt = none →
    ∀ n, (∃ version ∈ s.db.versions.rows,
      version.place = (document.id, n)) ↔ 1 ≤ n ∧ n ≤ document.latestVersion
  /-- A stored version stays as it is, until its document is purged. -/
  immutable : ∀ s', Reached reports inTime s s' →
    ∀ version ∈ s.db.versions.rows, version ∈ s'.db.versions.rows ∨
      ∃ document ∈ s'.db.documents.rows,
        document.id = version.documentId ∧ document.purgedAt.isSome
  /-- A call that takes effect named the current version or revision. -/
  current : ∀ turn e, expectation turn.call = some e →
    Effect (perform turn) s.db → Current e s.db
  /-- A key that was used publishes nothing again, and no other bytes. -/
  idempotent : ∀ input raw identity key base draws now persisted,
    inTime s (publishing input raw identity key base draws now persisted) →
    let first := reports
      (publishing input raw identity key base draws now persisted) s
    first.2.db ≠ s.db → ∀ s', Reached reports inTime first.2 s' →
    ∀ input' raw' identity' base' draws' now' persisted',
      identity'.subject = identity.subject →
      identity'.actor = identity.actor →
      let second := reports
        (publishing input' raw' identity' key base' draws' now' persisted') s'
      second.2.db.documents = s'.db.documents ∧
        second.2.db.versions = s'.db.versions ∧
        ∀ answer, second.1 = .ok answer → isReplay answer = true ∧
          HtmlRuntime.hash raw' = HtmlRuntime.hash raw ∧
          (Function.Injective HtmlRuntime.hash → raw' = raw)
  /-- The revisions grow with each change of who reads a document, and of
  when it ends. -/
  revised : ∀ s', Reached reports inTime s s' →
    ∀ document ∈ s.db.documents.rows, ∀ later ∈ s'.db.documents.rows,
      later.id = document.id →
      document.accessRevision ≤ later.accessRevision ∧
      document.retentionRevision ≤ later.retentionRevision ∧
      (later.purgedAt = none → accessOf later ≠ accessOf document →
        document.accessRevision < later.accessRevision) ∧
      (endsOf later ≠ endsOf document →
        document.retentionRevision < later.retentionRevision)
  /-- A document of a series is private. -/
  bound : ∀ document ∈ s.db.documents.rows,
    truthyText document.seriesId = true → document.audience = js "private"
  /-- A restored document is private. -/
  restored : ∀ id identity input now persisted,
    let call := perform
      ⟨.manageHtml id identity (js "restore") input, now, persisted⟩
    Effect call s.db → ∃ document ∈ (call s.db).2.documents.rows,
      document.id = id ∧ Private document
  /-- A document that is live at a time is not purged in the thirty days
  after it. -/
  recoverable : ∀ time, s.clock ≤ time → ∀ document ∈ s.db.documents.rows,
    Live document time → ∀ s', Reached reports inTime ⟨time, s.db⟩ s' →
    ∀ later ∈ s'.db.documents.rows, later.id = document.id →
      ∀ purged ∈ later.purgedAt, time + recoveryMs ≤ purged
  /-- A purged document has no versions; it stays as it is, and can be
  neither read nor managed. -/
  gone : ∀ document ∈ s.db.documents.rows, document.purgedAt.isSome →
    (∀ version ∈ s.db.versions.rows, version.documentId ≠ document.id) ∧
    ∀ s', Reached reports inTime s s' → document ∈ s'.db.documents.rows ∧
      (∀ identity revision now, readHtml s'.db document.id identity revision
        now = .error missing) ∧
      (∀ identity now, readPlan s'.db document.id identity now =
        .error missing) ∧
      ∀ identity action input now persisted,
        perform ⟨.manageHtml document.id identity action input, now, persisted⟩
          s'.db = (.error missing, s'.db)

theorem gone_of_inv {s : Clocked} (hInv : Inv s.db) {document : HtmlDocument}
    (hStored : document ∈ s.db.documents.rows)
    (hPurged : document.purgedAt.isSome) {s' : Clocked}
    (h : Reached reports inTime s s') :
    document ∈ s'.db.documents.rows ∧
      documentRow s'.db document.id = .error missing := by
  obtain ⟨later, hLater, hFollows⟩ :=
    (extends_of_reached hInv h).documents document hStored
  obtain rfl := hFollows.purged hPurged
  exact ⟨hLater,
    documentRow_of_purged (inv_of_reached hInv h).names hLater hPurged⟩

/-- The laws hold in every state that turns reach from a new database, in
any order, by any callers, at times that do not go back. -/
theorem lawful_of_reached (store : JsString) (start : Int) {s : Clocked}
    (h : Reached reports inTime ⟨start, emptyReports store⟩ s) :
    Lawful s := by
  have hInv : Inv s.db := inv_of_reached (inv_emptyReports store) h
  exact
    { numbered := hInv.numbered
      immutable := fun s' h' => (extends_of_reached hInv h').versions
      current := fun turn e hExpected hEffect =>
        current_of_effect hInv.names hExpected hEffect
      idempotent := by
        intro input raw identity key base draws now persisted _ first
          hCommitted s' h' input' raw' identity' base' draws' now' persisted'
          hSubject hActor second
        have hReceipt : HasReceipt s'.db identity' key (HtmlRuntime.hash raw) := by
          have hFirst := hasReceipt_of_extends
            (extends_of_reached (inv_of_turn hInv) h')
            (hasReceipt_of_committed hCommitted)
          rwa [HasReceipt, ← hSubject, ← hActor] at hFirst
        obtain ⟨hDocuments, hVersions, hAnswer⟩ :=
          @publishing_of_hasReceipt _ _ _ _ _ input' _ _ base' identity' draws'
            persisted' _ hReceipt
        refine ⟨hDocuments, hVersions, fun answer hOk => ?_⟩
        obtain ⟨hReplay, hDigest⟩ := hAnswer answer hOk
        exact ⟨hReplay, hDigest.symm, fun hHash => hHash hDigest.symm⟩
      revised := by
        intro s' h' document hStored later hLater hId
        have hFollows := (extends_of_reached hInv h').follows hStored hLater hId
        exact ⟨hFollows.access, hFollows.retention,
          fun hKept hChanged => (hFollows.audience hKept).resolve_left hChanged,
          fun hChanged => hFollows.ends.resolve_left hChanged⟩
      bound := hInv.series
      restored := fun id identity input now persisted =>
        private_of_restore hInv.names
      recoverable := by
        intro time _ document hStored hLive s' h' later hLater hId
        exact (recoverable_of_reached (s := ⟨time, s.db⟩) hInv hStored hLive h'
          later hLater hId).purgedAt
      gone := by
        intro document hStored hPurged
        refine ⟨hInv.emptied document hStored hPurged, fun s' h' => ?_⟩
        obtain ⟨hLater, hMissing⟩ := gone_of_inv hInv hStored hPurged h'
        exact ⟨hLater,
          fun identity revision now =>
            readHtml_of_missing hMissing identity revision,
          fun identity now => readPlan_of_missing hMissing identity,
          fun identity action input now persisted =>
            manageHtml_of_missing hMissing identity action input persisted⟩ }

end Laws

/-! ## A run -/

namespace Sample

/-- Page texts stand for their digests. -/
@[reducible] def runtime : HtmlRuntime where
  hash := fun text => text
  planPage := fun _ source => (source, [], [])

@[reducible] def labels : ReportRuntime where
  normalizeNfc := fun text => text
  parseDate := fun _ => none

def owner : ReportIdentity := { subject := js "o@x.y", actor := js "cli" }

def page (html : JsString) : HtmlPublication where
  html := html
  title := js "T"
  language := none
  category := none
  tags := []
  metadata := []
  externalImages := []
  externalLinks := []

def report : PublishInput where
  publication := some (page (js "a"))
  audience := some (.object [(js "mode", .string (js "public"))])

/-- A public report. -/
def create : Turn :=
  publishing report (js "a") owner (js "k1") [] ⟨js "d", js "v1"⟩ 0 true

def change : PublishInput where
  publication := some (page (js "b"))
  documentId := some (js "d")
  expectedVersion := some (.number (.ofNat 1))

/-- Its second version. -/
def update : Turn :=
  publishing change (js "b") owner (js "k2") [] ⟨js "d", js "v2"⟩ 1 true

def remove : Turn :=
  ⟨.manageHtml (js "d") owner (js "remove")
    (some (.object [(js "expectedVersion", .number (.ofNat 2))])), 2, true⟩

def purge : Turn := ⟨.purgeHtml, 2 + recoveryMs, true⟩

def team : Turn :=
  ⟨.createTeam owner (some (.object [(js "name", .string (js "T"))])) (js "t"),
    0, true⟩

/-- A new plan, for which a version is expected. -/
def plan : Turn :=
  ⟨.writePlan owner (some (.object [(js "title", .string (js "P")),
    (js "expected_version", .number (.ofNat 7))]))
    { team := some (js "t") } ⟨js "p", js "w1"⟩, 1, true⟩

def start : Clocked := ⟨0, emptyReports (js "s")⟩

/-- The states after the first turns. -/
def after (turns : List Turn) : Clocked :=
  @run _ _ _ (@reports runtime labels asciiCaseMapping) turns start

end Sample

open Sample in
theorem lawful_sample :
    @Lawful runtime labels asciiCaseMapping (after [create, update, remove]) :=
  @lawful_of_reached runtime labels asciiCaseMapping (js "s") 0 _
    (.turn (.turn (.turn .refl create (le_refl 0)) update
      (show (0 : Int) ≤ 1 by decide)) remove (show (1 : Int) ≤ 2 by decide))

open Sample in
/-- A publication that is sent again succeeds although the version it names
is no longer current; a new plan is stored whatever version it names; and
purging makes a public report private without raising its access revision. -/
theorem update_replayed_plan_unchecked_purge_unrevised :
    letI := runtime
    letI := labels
    letI := asciiCaseMapping
    ((expectation update.call).map (fun e => (e.id, e.named)) =
        some (js "d", some (.number (.ofNat 1))) ∧
      (perform update (after [create, update]).db).1.isOk = true ∧
      ((after [create, update]).db.documents.rows.map fun document =>
        (document.id, document.latestVersion)) = [(js "d", 2)]) ∧
    ((perform plan (after [team]).db).1.isOk = true ∧
      ((after [team, plan]).db.documents.rows.map fun document =>
        (document.id, document.latestVersion)) = [(js "p", 1)]) ∧
    (((after [create, update, remove]).db.documents.rows.map fun document =>
        (document.audience, document.accessRevision)) = [(js "public", 1)] ∧
      ((after [create, update, remove, purge]).db.documents.rows.map
        fun document => (document.audience, document.accessRevision)) =
          [(js "private", 1)]) := by
  refine ⟨⟨rfl, ?_⟩, ?_⟩
  · decide +kernel
  · decide +kernel

end OpenApe.Ports.ReportLaws
