import Mathlib.Data.List.Find
import OpenApe.Ports.PlansRoundTrip
import OpenApe.Ports.ReportLaws
import OpenApe.Verified.CodePoints

/-!
# Reading an imported snapshot back

After the import every row is found under its identity, so the comparison has
no differences; a document that nobody edited goes back to the plan it came
from.  A snapshot with another digest is refused, and one with the same digest
is only counted.
-/

namespace OpenApe.Ports.PlansRollback

open Verified.CodePoints (codePoints_middle)
open Verified.Fallible (ok_bind mapM_eq_ok)
open Verified.JsText Verified.KeyedTable Verified.Transactions
  Verified.Transactions.Action Verified.Unicode
open ReportContracts HtmlStore HtmlLifecycle PlansStore PlansMigration
  PlansRoundTrip

/-! ## What is found -/

theorem find?_of_rows {ρ κ : Type} [DecidableEq κ] {key : ρ → κ}
    {t : Table key} {rows : List ρ} (hRows : t.rows = rows) {row : ρ}
    (hRow : row ∈ rows) : t.find? (key row) = some row :=
  Table.find?_of_mem (hRows ▸ hRow)

/-- The plans, without the ids of their versions. -/
theorem plans_numbered (s : PlansSnapshot) (versionIds : Nat → JsString) :
    (numbered versionIds s.plans.zipIdx).map Prod.fst = s.plans := by
  rw [numbered, List.map_map]
  exact List.zipIdx_map_fst 0 s.plans

/-- Every plan was given a version id. -/
theorem mem_numbered {s : PlansSnapshot} (versionIds : Nat → JsString)
    {plan : Plan} (hPlan : plan ∈ s.plans) :
    ∃ versionId, (plan, versionId) ∈ numbered versionIds s.plans.zipIdx := by
  rw [← plans_numbered s versionIds] at hPlan
  obtain ⟨⟨_, versionId⟩, hMem, rfl⟩ := List.mem_map.mp hPlan
  exact ⟨versionId, hMem⟩

theorem drift_self {ρ : Type} [DecidableEq ρ] (table : String)
    (identity : JsString) (row : ρ) :
    drift table identity row (some row) = [] :=
  if_pos rfl

theorem difference_false {condition : Bool} (h : condition = false)
    (plan : Plan) (text : String) : difference condition plan text = [] := by
  rw [h]
  rfl

theorem documentDifferences_imported (plan : Plan) :
    documentDifferences plan (importedDocument plan) = [] := by
  rw [documentDifferences, difference_false, difference_false,
    difference_false]
  · rfl
  · simp [importedDocument]
  · simp [importedDocument]
  · simp [importedDocument]

/-- A transaction whose operation returns, where the journal is written. -/
theorem returns_migrationTransaction {α : Type} {operation : Migration α}
    {db db' : PlansDb} {a : α} (h : Returns operation db a db') :
    Returns (migrationTransaction true operation) db a
      { db' with
        reports := { db'.reports with
          revision := db'.reports.revision + 1 } } := by
  have hWork : Returns (do
      let result ← operation
      write fun db : PlansDb => { db with
        reports := { db.reports with revision := db.reports.revision + 1 } }
      pure result) db a { db' with
        reports := { db'.reports with
          revision := db'.reports.revision + 1 } } :=
    returns_bind.mpr ⟨a, db', h,
      returns_write_bind.mpr (returns_pure.mpr ⟨rfl, rfl⟩)⟩
  rw [migrationTransaction]
  refine returns_bind.mpr ⟨a, _, returns_transaction.mpr hWork, ?_⟩
  exact returns_check_bind.mpr ⟨(), rfl, returns_pure.mpr ⟨rfl, rfl⟩⟩

section Stored

variable [HtmlRuntime] [Collation] {s : PlansSnapshot}
  {versionIds : Nat → JsString} {now : Int} {db : PlansDb}

/-- The document of a plan has both its ids. -/
theorem planDocument_imported (h : Imported s versionIds now db) {plan : Plan}
    (hPlan : plan ∈ s.plans) :
    planDocument db plan.id = some (importedDocument plan) := by
  obtain ⟨versionId, hMem⟩ := mem_numbered versionIds hPlan
  have hRow : importedDocument plan ∈ db.reports.documents.rows := by
    rw [h.rows.documents]
    exact List.mem_map.mpr ⟨_, hMem, rfl⟩
  have hSame : ∀ document ∈ db.reports.documents.rows,
      (document.id = plan.id || document.legacyPlanId = some plan.id) =
        decide (document.id = plan.id) := by
    intro document hDocument
    rw [h.rows.documents] at hDocument
    obtain ⟨other, -, rfl⟩ := List.mem_map.mp hDocument
    change (decide (other.1.id = plan.id) ||
      decide (some other.1.id = some plan.id)) = decide (other.1.id = plan.id)
    simp only [Option.some.injEq, Bool.or_self]
  rw [planDocument, List.find?_congr hSame]
  exact Table.find?_of_mem hRow

theorem version_imported (h : Imported s versionIds now db) {plan : Plan}
    (hPlan : plan ∈ s.plans) :
    ∃ versionId, db.reports.versions.find? (plan.id, 1) =
      some (importedVersion plan versionId) := by
  obtain ⟨versionId, hMem⟩ := mem_numbered versionIds hPlan
  have hRow : importedVersion plan versionId ∈
      versionRows (numbered versionIds s.plans.zipIdx) :=
    List.mem_map.mpr ⟨_, hMem, rfl⟩
  exact ⟨versionId, find?_of_rows h.rows.versions hRow⟩

theorem import_imported (h : Imported s versionIds now db) {plan : Plan}
    (hPlan : plan ∈ s.plans) :
    db.imports.find? plan.id = some (importRow plan) := by
  obtain ⟨versionId, hMem⟩ := mem_numbered versionIds hPlan
  have hRow : importRow plan ∈
      importRows (numbered versionIds s.plans.zipIdx) :=
    List.mem_map.mpr ⟨_, hMem, rfl⟩
  exact find?_of_rows h.rows.imports hRow

/-! ## Comparing -/

omit [Collation] in
theorem storedStatus_importedVersion (plan : Plan) (versionId : JsString) :
    storedStatus (importedVersion plan versionId) = some plan.status := by
  simp [storedStatus, importedVersion, versionRow, planPage]

omit [Collation] in
theorem versionDifferences_imported (plan : Plan) (versionId : JsString) :
    versionDifferences plan (importRow plan)
      (some (importedVersion plan versionId)) = [] := by
  rw [versionDifferences, difference_false, difference_false]
  · rfl
  · rw [Option.any_some, storedStatus_importedVersion]
    simp [importedVersion, versionRow, planPage]
  · simp [importedVersion, versionRow, importRow]

/-- Nothing found. -/
def asImported : PlanFinding where
  purged := false
  changed := false
  differences := []

/-- **An imported plan** is found as it was. -/
theorem comparePlan_imported (h : Imported s versionIds now db) {plan : Plan}
    (hPlan : plan ∈ s.plans) : comparePlan db plan = asImported := by
  obtain ⟨versionId, hVersion⟩ := version_imported h hPlan
  have hIdentity : difference ((importedDocument plan).id ≠ plan.id ||
      (importedDocument plan).owner ≠ plan.ownerEmail ||
      (importedDocument plan).createdAt ≠ millis plan.createdAt) plan
      "identity, ownership or creation mismatch" = [] :=
    difference_false (by simp [importedDocument]) _ _
  have hFirst : db.reports.versions.find? ((importedDocument plan).id, 1) =
      some (importedVersion plan versionId) := hVersion
  have hSource : ¬(importRow plan).sourceDigest ≠ planDigest plan :=
    not_not_intro rfl
  rw [comparePlan, planDocument_imported h hPlan, import_imported h hPlan]
  simp only [if_neg hSource, hIdentity, documentDifferences_imported,
    hFirst, versionDifferences_imported]
  rfl

/-- What the comparison says of a snapshot that was just imported. -/
def unchanged (s : PlansSnapshot) : Reconciliation where
  digest := plansSnapshotDigest s
  plans := s.plans.length
  purged := 0
  changed := 0
  differences := []
  reconciled := true

/-- **The comparison** finds no difference. -/
theorem reconcilePlans_imported (hAccepted : validatePlansSnapshot s = .ok ())
    (h : Imported s versionIds now db) :
    reconcilePlans s db = .ok (unchanged s) := by
  have hReceipt : required
      (db.migration.filter fun receipt =>
        receipt.sourceDigest = plansSnapshotDigest s) sourceMismatch =
      .ok ⟨plansSnapshotDigest s, now, s.plans.length⟩ := by
    rw [h.migration, required_eq_ok]
    simp
  have hTeams : (s.teams.flatMap fun team =>
      drift "teams" team.id team (db.reports.teams.find? team.id)) = [] := by
    refine List.flatMap_eq_nil_iff.mpr fun team hTeam => ?_
    rw [find?_of_rows h.rows.teams hTeam, drift_self]
  have hMembers : (s.teamMembers.flatMap fun member =>
      drift "team_members" member.userEmail member
        (db.reports.members.find? member.primary)) = [] := by
    refine List.flatMap_eq_nil_iff.mpr fun member hMember => ?_
    rw [find?_of_rows h.rows.teamMembers hMember, drift_self]
  have hInvites : (s.teamInvites.flatMap fun invite =>
      drift "team_invites" invite.id invite
        (db.reports.invites.find? invite.id)) = [] := by
    refine List.flatMap_eq_nil_iff.mpr fun invite hInvite => ?_
    rw [find?_of_rows h.rows.teamInvites hInvite, drift_self]
  have hFindings : s.plans.map (comparePlan db) =
      s.plans.map fun _ => asImported :=
    List.map_congr_left fun plan hPlan => comparePlan_imported h hPlan
  have hNone : (s.plans.flatMap fun _ => asImported.differences) = [] :=
    List.flatMap_eq_nil_iff.mpr fun _ _ => rfl
  rw [reconcilePlans, hAccepted, ok_bind]
  simp only [hReceipt, ok_bind, hTeams, hMembers, hInvites, hFindings,
    List.flatMap_map, List.countP_map, hNone]
  simp [unchanged, asImported]

/-! ## Rolling back -/

omit [Collation] in
/-- **A document that nobody edited** goes back to its plan. -/
theorem rollbackDocument_imported {plan : Plan} (hPlan : Renderable plan)
    {versionId : JsString} (hVersion : db.reports.versions.find? (plan.id, 1) =
      some (importedVersion plan versionId)) (later : Int) :
    rollbackDocument db later (importedDocument plan) = .ok (some plan) := by
  have hSeconds : ∀ time : Int, seconds (millis time) = time := fun time =>
    Int.mul_ediv_cancel time (by decide)
  have hFirst : db.reports.versions.find? ((importedDocument plan).id,
      (importedDocument plan).latestVersion) =
        some (importedVersion plan versionId) := hVersion
  have hSource : (importedVersion plan versionId).source = some plan.bodyMd :=
    rfl
  have hActive : ((importedDocument plan).audience ≠ js "team" ||
      (importedDocument plan).expiresAt ≠ none) = false := by
    simp [importedDocument]
  have hExpired : ((importedDocument plan).expiresAt.any fun expiresAt =>
      expiresAt ≤ later) = false := rfl
  have hDeleted : (if (importedDocument plan).removedAt.isSome then
      (endOf (importedDocument plan) false).map seconds else none) =
        plan.deletedAt := by
    cases hEnd : plan.deletedAt with
    | none => simp [importedDocument, hEnd]
    | some time => simp [endOf, importedDocument, hEnd, hSeconds]
  have hCreated : seconds (importedDocument plan).createdAt = plan.createdAt :=
    hSeconds plan.createdAt
  have hUpdated : seconds (importedDocument plan).updatedAt = plan.updatedAt :=
    hSeconds plan.updatedAt
  rw [rollbackDocument, if_neg (by simp [importedDocument])]
  simp only [hFirst, hSource, hActive, hExpired, Bool.and_false, Bool.or_false,
    storedStatus_importedVersion, not_not_intro hPlan.status, hDeleted,
    hCreated, hUpdated, ↓reduceIte]
  rfl

/-- **The rollback** of a snapshot that was just imported gives it back. -/
theorem rollbackPlansSnapshot_imported
    (hPlans : ∀ plan ∈ s.plans, Renderable plan)
    (h : Imported s versionIds now db) (later : Int) :
    rollbackPlansSnapshot db later = .ok s := by
  have hLegacy : (db.reports.documents.rows.filter fun document =>
      document.legacyPlanId.isSome) =
        documentRows (numbered versionIds s.plans.zipIdx) := by
    rw [h.rows.documents, List.filter_eq_self]
    intro document hDocument
    obtain ⟨plan, -, rfl⟩ := List.mem_map.mp hDocument
    rfl
  have hRows : documentRows (numbered versionIds s.plans.zipIdx) =
      s.plans.map importedDocument := by
    rw [documentRows, ← Function.comp_def, ← List.map_map, plans_numbered]
  have hBack : (s.plans.map importedDocument).mapM (rollbackDocument db later) =
      .ok (s.plans.map some) := by
    rw [mapM_eq_ok, List.forall₂_map_left_iff, List.forall₂_map_right_iff,
      List.forall₂_same]
    intro plan hPlan
    obtain ⟨versionId, hVersion⟩ := version_imported h hPlan
    exact rollbackDocument_imported (hPlans plan hPlan) hVersion later
  rw [rollbackPlansSnapshot, hLegacy, hRows, hBack, ok_bind, h.rows.teams,
    h.rows.teamMembers, h.rows.teamInvites, List.filterMap_map]
  simp

/-! ## Importing again -/

/-- **The same digest**: nothing is written but the revision that every
transaction counts. -/
theorem returns_importPlans_again {s' : PlansSnapshot}
    (hAccepted : validatePlansSnapshot s' = .ok ())
    (h : Imported s versionIds now db)
    (hSame : plansSnapshotDigest s' = plansSnapshotDigest s)
    (ids : Nat → JsString) (later : Int) :
    Returns (importPlans ids s' later true) db
      ⟨plansSnapshotDigest s', 0, true, s'.plans.length⟩
      { db with reports :=
        { db.reports with revision := db.reports.revision + 1 } } := by
  have hPresent : (db.imports.rows.any fun row =>
      (db.reports.documents.find? row.documentId).isNone) = false := by
    rw [List.any_eq_false]
    intro row hRow
    rw [h.rows.imports] at hRow
    obtain ⟨plan, hPlan, rfl⟩ := List.mem_map.mp hRow
    have hDocument : db.reports.documents.find? plan.1.id =
        some (importedDocument plan.1) :=
      find?_of_rows h.rows.documents (List.mem_map_of_mem hPlan)
    simp [importRow, hDocument]
  have hReplay : Returns (importOnce ids s' later) db
      ⟨plansSnapshotDigest s', 0, true, s'.plans.length⟩ db := by
    rw [importOnce, returns_query_bind]
    refine ⟨_, rfl, ?_⟩
    rw [h.migration]
    refine returns_check_bind.mpr ⟨(), throwIf_eq_ok.mpr (by simp [hSame]), ?_⟩
    refine returns_query_bind.mpr ⟨(), throwIf_eq_ok.mpr hPresent, ?_⟩
    exact returns_pure.mpr ⟨rfl, rfl⟩
  rw [importPlans, returns_check_bind]
  exact ⟨(), hAccepted, returns_migrationTransaction hReplay⟩

/-- **Another digest** is refused. -/
theorem throws_importPlans_other {s' : PlansSnapshot}
    (hAccepted : validatePlansSnapshot s' = .ok ())
    (h : Imported s versionIds now db)
    (hOther : plansSnapshotDigest s' ≠ plansSnapshotDigest s)
    (ids : Nat → JsString) (later : Int) (persisted : Bool) :
    Throws (importPlans ids s' later persisted) db otherImported db := by
  have hRefused : Throws (importOnce ids s' later) db otherImported db := by
    have hRead : Returns (query fun db : PlansDb =>
        (.ok db.migration : Except ReportFailure _)) db
        (some ⟨plansSnapshotDigest s, now, s.plans.length⟩) db :=
      returns_query.mpr ⟨congrArg Except.ok h.migration, rfl⟩
    have hCheck : throwIf (plansSnapshotDigest s ≠ plansSnapshotDigest s')
        otherImported = .error otherImported := by
      simp [throwIf, Ne.symm hOther]
    rw [importOnce]
    exact hRead.bind_throws ((throws_check hCheck).bind _)
  rw [importPlans]
  refine (returns_check.mpr ⟨hAccepted, rfl⟩).bind_throws ?_
  rw [migrationTransaction]
  exact ((hRefused.bind _).transaction).bind _

/-! ## What the import can take -/

omit [Collation] in
theorem renderable_of_planPublication {plan : Plan}
    {publication : HtmlPublication}
    (h : planPublication plan.title plan.bodyMd plan.status none =
      .ok publication) : Renderable plan := by
  rw [planPublication] at h
  by_cases hStatus : plan.status ∈
      [js "draft", js "active", js "done", js "archived"]
  · rw [if_neg (not_not_intro hStatus)] at h
    by_cases hSize : 20 * 1024 * 1024 < utf8Length plan.bodyMd
    · rw [if_pos hSize] at h
      cases h
    · exact ⟨hStatus, Nat.le_of_not_lt hSize⟩
  · rw [if_pos hStatus] at h
    cases h

/-- **An import that returned** has rendered every plan. -/
theorem renderable_of_importPlans {persisted : Bool} {db' : PlansDb}
    {result : ImportResult} (hFirst : db.migration = none)
    (h : Returns (importPlans versionIds s now persisted) db result db') :
    ∀ plan ∈ s.plans, Renderable plan := by
  obtain ⟨_, -, hImport⟩ := returns_check_bind.mp h
  rw [migrationTransaction] at hImport
  obtain ⟨_, _, hWork, -⟩ := returns_bind.mp hImport
  obtain ⟨_, _, hOnce, -⟩ := returns_bind.mp (returns_transaction.mp hWork)
  obtain ⟨previous, hRead, hRun⟩ := returns_query_bind.mp hOnce
  obtain rfl : db.migration = previous := Except.ok.inj hRead
  rw [hFirst] at hRun
  -- the loop over the plans comes after those over the three other tables
  obtain ⟨_, _, -, hRun⟩ := returns_bind.mp hRun
  obtain ⟨_, _, -, hRun⟩ := returns_bind.mp hRun
  obtain ⟨_, _, -, hRun⟩ := returns_bind.mp hRun
  obtain ⟨_, _, hPlans, -⟩ := returns_bind.mp hRun
  have hAll := (returns_each_all (fun _ => True)
    (fun item _ => Renderable item.1) hPlans trivial
    fun item _ s s' _ hTurn => by
      obtain ⟨publication, hPage, -⟩ := returns_check_bind.mp hTurn
      exact ⟨trivial, renderable_of_planPublication hPage,
        fun _ _ hBefore => hBefore⟩).2
  intro plan hPlan
  rw [← List.zipIdx_map_fst 0 s.plans] at hPlan
  obtain ⟨item, hItem, rfl⟩ := List.mem_map.mp hPlan
  exact hAll item hItem

/-! ## The whole migration -/

/-- A reports database without rows. -/
def emptyPlans (store : JsString) : PlansDb where
  reports := emptyReports store
  migration := none
  imports := Table.empty

/-- What is true of the store once `s` is imported. -/
structure Kept (s : PlansSnapshot) (db : PlansDb) : Prop where
  /-- The comparison finds no difference. -/
  compared : ∃ result, reconcilePlans s db = .ok result ∧
    result.differences = [] ∧ result.reconciled = true
  /-- A rollback at any time gives a snapshot with the same digest. -/
  restored : ∀ later, ∃ s', rollbackPlansSnapshot db later = .ok s' ∧
    plansSnapshotDigest s' = plansSnapshotDigest s
  /-- Importing again writes no row. -/
  again : ∀ ids later, Returns (importPlans ids s later true) db
    ⟨plansSnapshotDigest s, 0, true, s.plans.length⟩
    { db with
      reports := { db.reports with revision := db.reports.revision + 1 } }
  /-- A snapshot with another digest is refused. -/
  refused : ∀ ids s' later persisted,
    plansSnapshotDigest s' ≠ plansSnapshotDigest s →
    ∃ e, Throws (importPlans ids s' later persisted) db e db ∧
      (validatePlansSnapshot s' = .ok () → e = otherImported)

/-- The import into an empty database succeeds and can be undone. -/
def Undoable (versionIds : Nat → JsString) (s : PlansSnapshot) (now : Int)
    (store : JsString) : Prop :=
  ∃ db, Returns (importPlans versionIds s now true) (emptyPlans store)
      ⟨plansSnapshotDigest s, s.plans.length, false, s.plans.length⟩ db ∧
    Kept s db

/-- The digest does not depend on the order of the rows. -/
def OrderFree (s : PlansSnapshot) : Prop :=
  ∀ s', validatePlansSnapshot s' = .ok () → SameRows s s' →
    plansSnapshotDigest s' = plansSnapshotDigest s

theorem kept_of_imported (hImportable : Importable s)
    (h : Imported s versionIds now db) : Kept s db where
  compared :=
    ⟨unchanged s, reconcilePlans_imported hImportable.accepted h, rfl, rfl⟩
  restored := fun later =>
    ⟨s, rollbackPlansSnapshot_imported hImportable.plans h later, rfl⟩
  again := fun ids later =>
    returns_importPlans_again hImportable.accepted h rfl ids later
  refused := by
    intro ids s' later persisted hOther
    cases hValid : validatePlansSnapshot s' with
    | error e =>
        refine ⟨e, ?_, fun hOk => nomatch hOk⟩
        rw [importPlans]
        exact (throws_check hValid).bind _
    | ok u =>
        exact ⟨otherImported,
          throws_importPlans_other hValid h hOther ids later persisted,
          fun _ => rfl⟩

/-- The import of a snapshot whose plans can all be rendered. -/
theorem undoable_of_importable (hImportable : Importable s)
    (hIds : Function.Injective versionIds) (now : Int) (store : JsString) :
    Undoable versionIds s now store := by
  have hBlank : Loaded [] [] [] [] [] [] (emptyPlans store) :=
    ⟨rfl, rfl, rfl, rfl, rfl, rfl⟩
  obtain ⟨db, hFirst, h⟩ := returns_importFirst hImportable hIds now hBlank
  have hOnce : Returns (importOnce versionIds s now) (emptyPlans store)
      ⟨plansSnapshotDigest s, s.plans.length, false, s.plans.length⟩ db := by
    rw [importOnce]
    exact returns_query_bind.mpr ⟨none, rfl, hFirst⟩
  refine ⟨{ db with
    reports := { db.reports with revision := db.reports.revision + 1 } }, ?_,
    kept_of_imported hImportable ⟨⟨h.rows.teams, h.rows.teamMembers,
      h.rows.teamInvites, h.rows.documents, h.rows.versions,
      h.rows.imports⟩, h.migration⟩⟩
  rw [importPlans]
  exact returns_check_bind.mpr ⟨(), hImportable.accepted,
    returns_migrationTransaction hOnce⟩

end Stored

/-! ## Orders and samples -/

/-- Code units are compared consistently. -/
theorem lawful_codeUnitCollation : @LawfulCollation codeUnitCollation := by
  let := codeUnitCollation
  have hLt : ∀ {a b : JsString}, Collation.localeCompare a b ≠ .gt ↔
      ¬b < a := by
    intro a b
    change (if a = b then Ordering.eq else if a < b then .lt else .gt) ≠ .gt ↔ _
    by_cases hSame : a = b
    · rw [if_pos hSame, hSame]
      exact iff_of_true nofun (List.lt_irrefl b)
    · rw [if_neg hSame]
      by_cases hLess : a < b
      · rw [if_pos hLess]
        exact iff_of_true nofun (List.lt_asymm hLess)
      · rw [if_neg hLess]
        exact iff_of_false (fun h => h rfl)
          (not_not_intro (Std.lt_of_le_of_ne hLess (Ne.symm hSame)))
  constructor
  · intro a b
    change (if b = a then Ordering.eq else if b < a then .lt else .gt) =
      (if a = b then Ordering.eq else if a < b then .lt else .gt).swap
    by_cases hSame : a = b
    · rw [if_pos hSame, if_pos hSame.symm]
      rfl
    · rw [if_neg hSame, if_neg (Ne.symm hSame)]
      by_cases hLess : a < b
      · rw [if_pos hLess, if_neg (List.lt_asymm hLess)]
        rfl
      · rw [if_neg hLess,
          if_pos (Std.lt_of_le_of_ne hLess (Ne.symm hSame))]
        rfl
  · intro a b c hab hbc
    rw [hLt] at hab hbc ⊢
    exact @Std.le_trans JsString _ _ _ _ _ hab hbc

namespace Sample

def versionId (n : Nat) : JsString := List.replicate n (unit 'v')

theorem versionId_injective : Function.Injective versionId := by
  intro m n h
  have hLength := congrArg List.length h
  rwa [versionId, versionId, List.length_replicate, List.length_replicate]
    at hLength

def team (id : JsString) : Team where
  id := id
  name := js "Team"
  description := none
  createdBy := js "a@x.y"
  createdAt := 1
  archivedAt := none

def plan (id : String) (deletedAt : Option Int) (bodyMd : JsString) : Plan where
  id := js id
  teamId := some (js "t")
  title := js "Plan"
  bodyMd := bodyMd
  status := js "active"
  ownerEmail := js "a@x.y"
  createdAt := 1
  updatedAt := 2
  updatedBy := js "b@x.y"
  deletedAt := deletedAt

/-- One team, its member and its invite, and two plans, one of them deleted. -/
def small : PlansSnapshot where
  teams := [team (js "t")]
  teamMembers := [⟨js "t", js "a@x.y", js "owner", 1⟩]
  teamInvites := [⟨js "i", js "t", js "a@x.y", none, 5, 0, 9, none, 1⟩]
  plans := [plan "p" none (js "# Plan"), plan "q" (some 3) (js "")]

/-- A plan with a given text. -/
def written (bodyMd : JsString) : PlansSnapshot where
  teams := [team (js "t")]
  teamMembers := []
  teamInvites := []
  plans := [plan "p" none bodyMd]

/-- A plan of one byte more than 20 MiB. -/
def large : PlansSnapshot :=
  written (List.replicate (20 * 1024 * 1024 + 1) (unit 'a'))

theorem utf8Length_replicate (n : Nat) :
    utf8Length (List.replicate n (unit 'a')) = n := by
  unfold utf8Length
  induction n with
  | zero => rfl
  | succ n ih =>
      have hPoints := codePoints_middle [] (u := unit 'a')
        (List.replicate n (unit 'a')) (by decide)
      rw [List.replicate_succ, show unit 'a' :: List.replicate n (unit 'a') =
        [] ++ unit 'a' :: List.replicate n (unit 'a') from rfl, hPoints]
      change 1 + ((codePoints (List.replicate n (unit 'a'))).map
        utf8Width).sum = n + 1
      rw [ih, Nat.add_comm]

/-- The two ways to write the letter é: precomposed, and with an accent. -/
def twins (first second : JsString) : PlansSnapshot where
  teams := [team first, team second]
  teamMembers := []
  teamInvites := []
  plans := []

/-- An `e` and the accent after it are one letter. -/
def composed : JsString → JsString
  | u :: v :: rest =>
      if u = 101 ∧ v = 769 then 233 :: composed rest
      else u :: composed (v :: rest)
  | rest => rest

/-- Texts that differ in composition alone compare equal. -/
@[reducible] def composing : Collation where
  localeCompare a b :=
    codeUnitCollation.localeCompare (composed a) (composed b)

/-- The twins, one way round and the other. -/
def oneWay : PlansSnapshot := twins [233] [101, 769]

def otherWay : PlansSnapshot := twins [101, 769] [233]

end Sample

end OpenApe.Ports.PlansRollback
