import OpenApe.Ports.PlansMigration

/-!
# The Plans migration can be undone

A snapshot that `validatePlansSnapshot` accepts has no identity twice, so
every row of it can be inserted; what the import leaves in the store is the
snapshot, row by row, and the comparison and the rollback read it off again.
The digest depends on the rows alone as long as no two of them tie in the
order they are sorted by.
-/

namespace OpenApe.Ports.PlansRoundTrip

open Verified.Fallible (bind_eq_ok)
open Verified.JsText Verified.Json Verified.KeyedTable Verified.Transactions
  Verified.Transactions.Action Verified.Unicode
open ReportContracts HtmlStore PlansStore PlansMigration

/-! ## What is accepted -/

theorem checkIdentities_eq_ok {table : String} {seen keys : List JsString} :
    checkIdentities table seen keys = .ok () ↔
      keys.Nodup ∧ ∀ key ∈ keys, key ∉ seen := by
  induction keys generalizing seen with
  | nil => simp [checkIdentities]
  | cons key keys ih =>
      rw [checkIdentities]
      by_cases hSeen : key ∈ seen
      · simp [hSeen, invalid]
      · rw [if_neg hSeen, ih, List.nodup_cons, List.forall_mem_cons]
        constructor
        · rintro ⟨hNodup, hFresh⟩
          refine ⟨⟨fun hMem => ?_, hNodup⟩, hSeen, fun other hOther hMem => ?_⟩
          · exact hFresh key hMem List.mem_cons_self
          · exact hFresh other hOther (List.mem_cons_of_mem key hMem)
        · rintro ⟨⟨hNot, hNodup⟩, _, hFresh⟩
          refine ⟨hNodup, fun other hOther hMem => ?_⟩
          rcases List.mem_cons.mp hMem with rfl | hMem
          · exact hNot hOther
          · exact hFresh other hOther hMem

/-- The identities of an accepted snapshot. -/
structure Accepted (snapshot : PlansSnapshot) : Prop where
  teams : (snapshot.teams.map Team.id).Nodup
  teamMembers : (snapshot.teamMembers.map TeamMember.primary).Nodup
  teamInvites : (snapshot.teamInvites.map TeamInvite.id).Nodup
  plans : (snapshot.plans.map Plan.id).Nodup

theorem accepted_of_validate {snapshot : PlansSnapshot}
    (h : validatePlansSnapshot snapshot = .ok ()) : Accepted snapshot := by
  rw [validatePlansSnapshot] at h
  simp only [bind_eq_ok] at h
  obtain ⟨_, hTeams, _, hMembers, _, hInvites, _, hPlans, _⟩ := h
  refine ⟨(checkIdentities_eq_ok.mp hTeams).1, ?_,
    (checkIdentities_eq_ok.mp hInvites).1, (checkIdentities_eq_ok.mp hPlans).1⟩
  -- the text of an identity is made of the two columns
  have hNodup := (checkIdentities_eq_ok.mp hMembers).1
  have hText : snapshot.teamMembers.map memberIdentity =
      (snapshot.teamMembers.map TeamMember.primary).map
        fun key => key.1 ++ 0 :: key.2 := by
    rw [List.map_map]
    rfl
  rw [hText] at hNodup
  exact hNodup.of_map _

/-! ## The digest -/

/-- What `localeCompare` is documented to be: a consistent comparison. -/
class LawfulCollation [Collation] : Prop where
  swap : ∀ a b : JsString, Collation.localeCompare b a =
    (Collation.localeCompare a b).swap
  trans : ∀ a b c : JsString, Collation.localeCompare a b ≠ .gt →
    Collation.localeCompare b c ≠ .gt → Collation.localeCompare a c ≠ .gt

section Digest

variable [Collation]

/-- The same rows, in whatever order. -/
structure SameRows (s s' : PlansSnapshot) : Prop where
  teams : ∀ team, team ∈ s.teams ↔ team ∈ s'.teams
  teamMembers : ∀ member, member ∈ s.teamMembers ↔ member ∈ s'.teamMembers
  teamInvites : ∀ invite, invite ∈ s.teamInvites ↔ invite ∈ s'.teamInvites
  plans : ∀ plan, plan ∈ s.plans ↔ plan ∈ s'.plans

/-- No two different rows compare equal. -/
def Distinguished {ρ : Type} (cells : ρ → List JsonValue) (rows : List ρ) :
    Prop :=
  ∀ a ∈ rows, ∀ b ∈ rows, Collation.localeCompare
    (stringify (.array (cells a))) (stringify (.array (cells b))) = .eq → a = b

structure Untied (s : PlansSnapshot) : Prop where
  teams : Distinguished teamCells s.teams
  teamMembers : Distinguished memberCells s.teamMembers
  teamInvites : Distinguished inviteCells s.teamInvites
  plans : Distinguished planCells s.plans

variable [LawfulCollation]

theorem rowLe_total (a b : JsonValue) : RowLe a b ∨ RowLe b a := by
  unfold RowLe
  rw [LawfulCollation.swap (stringify a) (stringify b)]
  cases Collation.localeCompare (stringify a) (stringify b) <;> simp

instance : Std.Total RowLe := ⟨rowLe_total⟩

instance : IsTrans JsonValue RowLe :=
  ⟨fun _ _ _ h h' => LawfulCollation.trans _ _ _ h h'⟩

/-- Rows that stand before each other compare equal. -/
theorem eq_of_rowLe {a b : JsonValue} (h : RowLe a b) (h' : RowLe b a) :
    Collation.localeCompare (stringify a) (stringify b) = .eq := by
  unfold RowLe at h h'
  rw [LawfulCollation.swap (stringify a) (stringify b)] at h'
  revert h h'
  cases Collation.localeCompare (stringify a) (stringify b) <;> simp

/-- Sorted rows depend on the set of rows alone. -/
theorem canonicalRows_congr {ρ κ : Type} {cells : ρ → List JsonValue}
    {key : ρ → κ} {rows rows' : List ρ} (hNodup : (rows.map key).Nodup)
    (hNodup' : (rows'.map key).Nodup) (hRows : ∀ row, row ∈ rows ↔ row ∈ rows')
    (hTies : Distinguished cells rows) :
    canonicalRows cells rows' = canonicalRows cells rows := by
  have hPerm : rows.Perm rows' :=
    (List.perm_ext_iff_of_nodup hNodup.of_map hNodup'.of_map).mpr hRows
  have hSame : (canonicalRows cells rows').Perm (canonicalRows cells rows) :=
    ((List.perm_insertionSort RowLe _).trans
      (hPerm.symm.map fun record => JsonValue.array (cells record))).trans
        (List.perm_insertionSort RowLe _).symm
  refine hSame.eq_of_pairwise ?_ (List.pairwise_insertionSort RowLe _)
    (List.pairwise_insertionSort RowLe _)
  intro a b ha hb hLe hLe'
  rw [canonicalRows, List.mem_insertionSort] at ha hb
  obtain ⟨x, hx, rfl⟩ := List.mem_map.mp ha
  obtain ⟨y, hy, rfl⟩ := List.mem_map.mp hb
  rw [hTies x ((hRows x).mpr hx) y hy (eq_of_rowLe hLe hLe')]

/-- **The digest** of a snapshot without ties depends on its rows alone. -/
theorem plansSnapshotDigest_sameRows [HtmlRuntime] {s s' : PlansSnapshot}
    (hAccepted : Accepted s) (hAccepted' : Accepted s')
    (hRows : SameRows s s') (hTies : Untied s) :
    plansSnapshotDigest s' = plansSnapshotDigest s := by
  simp only [plansSnapshotDigest, canonical, canonicalTable,
    canonicalRows_congr hAccepted.teams hAccepted'.teams hRows.teams
      hTies.teams,
    canonicalRows_congr hAccepted.teamMembers hAccepted'.teamMembers
      hRows.teamMembers hTies.teamMembers,
    canonicalRows_congr hAccepted.teamInvites hAccepted'.teamInvites
      hRows.teamInvites hTies.teamInvites,
    canonicalRows_congr hAccepted.plans hAccepted'.plans hRows.plans
      hTies.plans]

end Digest

/-! ## Single insertions -/

/-- What the import has written so far. -/
structure Loaded (teams : List Team) (teamMembers : List TeamMember)
    (teamInvites : List TeamInvite) (documents : List HtmlDocument)
    (versions : List HtmlVersion) (imports : List PlanImport)
    (db : PlansDb) : Prop where
  teams : db.reports.teams.rows = teams
  teamMembers : db.reports.members.rows = teamMembers
  teamInvites : db.reports.invites.rows = teamInvites
  documents : db.reports.documents.rows = documents
  versions : db.reports.versions.rows = versions
  imports : db.imports.rows = imports

theorem returns_onReports {α : Type} {call : Call α} {db : PlansDb} {a : α}
    {reports : Reports} (h : Returns call db.reports a reports) :
    Returns (onReports call) db a { db with reports := reports } := by
  have hCall : call db.reports = (.ok a, reports) := h
  change (_, _) = (_, _)
  rw [hCall]

/-- An item of a list whose keys are distinct has a key of its own. -/
theorem notMem_front {ρ κ : Type} (key : ρ → κ) {items front rest : List ρ}
    {item : ρ} (hNodup : (items.map key).Nodup)
    (hItems : items = front ++ item :: rest) :
    key item ∉ front.map key := by
  rw [hItems, List.map_append, List.map_cons, List.nodup_append] at hNodup
  intro hMem
  exact hNodup.2.2 _ hMem _ List.mem_cons_self rfl

/-- An insertion under a key that is not taken. -/
theorem returns_insert {σ : Type} {taken : σ → Bool} {error : ReportFailure}
    {f : σ → σ} {s : σ} (h : taken s = false) :
    Returns (do
      query fun db => throwIf (taken db) error
      write f) s () (f s) := by
  rw [returns_query_bind]
  exact ⟨(), throwIf_eq_ok.mpr h, returns_write.mpr rfl⟩

section Insertions

variable {teams : List Team} {teamMembers : List TeamMember}
  {teamInvites : List TeamInvite} {documents : List HtmlDocument}
  {versions : List HtmlVersion} {imports : List PlanImport} {db : PlansDb}

/-- A row with a new key finds its place free and is put at the end. -/
theorem rows_insert {ρ κ : Type} [DecidableEq κ] {key : ρ → κ}
    {t : Table key} {rows : List ρ} (hRows : t.rows = rows) {row : ρ}
    (hFresh : key row ∉ rows.map key) :
    t.find? (key row) = none ∧ (t.put row).rows = rows ++ [row] := by
  have hNone : t.find? (key row) = none := by
    cases hFound : t.find? (key row) with
    | none => rfl
    | some other =>
        refine absurd ?_ hFresh
        rw [← Table.key_of_find? hFound, ← hRows]
        exact List.mem_map_of_mem (Table.mem_of_find? hFound)
  exact ⟨hNone, hRows ▸ Table.rows_put_of_none hNone⟩

theorem loaded_insertTeam
    (h : Loaded teams teamMembers teamInvites documents versions imports db)
    {team : Team} (hFresh : team.id ∉ teams.map Team.id) :
    ∃ db', Returns (onReports (insertTeam team)) db () db' ∧
      Loaded (teams ++ [team]) teamMembers teamInvites documents versions
        imports db' := by
  obtain ⟨hNone, hRows⟩ := rows_insert h.teams hFresh
  exact ⟨_, returns_onReports (returns_insert (by rw [hNone]; rfl)),
    ⟨hRows, h.teamMembers, h.teamInvites, h.documents, h.versions, h.imports⟩⟩

theorem loaded_insertMember
    (h : Loaded teams teamMembers teamInvites documents versions imports db)
    {member : TeamMember}
    (hFresh : member.primary ∉ teamMembers.map TeamMember.primary) :
    ∃ db', Returns (onReports (insertMember member)) db () db' ∧
      Loaded teams (teamMembers ++ [member]) teamInvites documents versions
        imports db' := by
  obtain ⟨hNone, hRows⟩ := rows_insert h.teamMembers hFresh
  exact ⟨_, returns_onReports (returns_insert (by rw [hNone]; rfl)),
    ⟨h.teams, hRows, h.teamInvites, h.documents, h.versions, h.imports⟩⟩

theorem loaded_insertInvite
    (h : Loaded teams teamMembers teamInvites documents versions imports db)
    {invite : TeamInvite}
    (hFresh : invite.id ∉ teamInvites.map TeamInvite.id) :
    ∃ db', Returns (onReports (insertInvite invite)) db () db' ∧
      Loaded teams teamMembers (teamInvites ++ [invite]) documents versions
        imports db' := by
  obtain ⟨hNone, hRows⟩ := rows_insert h.teamInvites hFresh
  exact ⟨_, returns_onReports (returns_insert (by rw [hNone]; rfl)),
    ⟨h.teams, h.teamMembers, hRows, h.documents, h.versions, h.imports⟩⟩

theorem loaded_insertDocument
    (h : Loaded teams teamMembers teamInvites documents versions imports db)
    {document : HtmlDocument}
    (hFresh : document.id ∉ documents.map HtmlDocument.id)
    (hLegacy : document.legacyPlanId ∉
      documents.map HtmlDocument.legacyPlanId) :
    ∃ db', Returns (onReports (insertDocument document)) db () db' ∧
      Loaded teams teamMembers teamInvites (documents ++ [document]) versions
        imports db' := by
  obtain ⟨hNone, hRows⟩ := rows_insert h.documents hFresh
  have hOther : (db.reports.documents.rows.any fun other =>
      document.legacyPlanId.isSome &&
        other.legacyPlanId = document.legacyPlanId) = false := by
    rw [List.any_eq_false]
    intro other hMem hSame
    rw [Bool.and_eq_true, decide_eq_true_eq] at hSame
    rw [h.documents] at hMem
    exact hLegacy (hSame.2 ▸ List.mem_map_of_mem hMem)
  exact ⟨_, returns_onReports (returns_insert (by rw [hNone, hOther]; rfl)),
    ⟨h.teams, h.teamMembers, h.teamInvites, hRows, h.versions, h.imports⟩⟩

theorem loaded_insertVersion
    (h : Loaded teams teamMembers teamInvites documents versions imports db)
    {version : HtmlVersion}
    (hPlace : version.place ∉ versions.map HtmlVersion.place)
    (hFresh : version.id ∉ versions.map HtmlVersion.id) :
    ∃ db', Returns (onReports (insertVersionRow version)) db () db' ∧
      Loaded teams teamMembers teamInvites documents (versions ++ [version])
        imports db' := by
  have hFree : db.reports.versions.Free version := by
    intro row hRow
    rw [h.versions] at hRow
    exact ⟨fun hSame => hPlace (hSame ▸ List.mem_map_of_mem hRow),
      fun hSame => hFresh (hSame ▸ List.mem_map_of_mem hRow)⟩
  obtain ⟨versions', hInsert⟩ :
      ∃ versions', db.reports.versions.insert? version = some versions' := by
    cases hInsert : db.reports.versions.insert? version with
    | none => exact absurd hFree (Rows.insert?_eq_none.mp hInsert)
    | some versions' => exact ⟨versions', rfl⟩
  have hReturns : Returns (insertVersionRow version) db.reports ()
      { db.reports with versions := versions' } := by
    rw [insertVersionRow, returns_query_bind]
    exact ⟨versions', required_eq_ok.mpr hInsert, returns_write.mpr rfl⟩
  refine ⟨_, returns_onReports hReturns, ?_⟩
  refine ⟨h.teams, h.teamMembers, h.teamInvites, h.documents, ?_, h.imports⟩
  rw [← h.versions]
  exact (Rows.insert?_eq_some.mp hInsert).2

theorem loaded_insertImport
    (h : Loaded teams teamMembers teamInvites documents versions imports db)
    {row : PlanImport}
    (hFresh : row.documentId ∉ imports.map PlanImport.documentId) :
    ∃ db', Returns (insertImport row) db () db' ∧
      Loaded teams teamMembers teamInvites documents versions
        (imports ++ [row]) db' := by
  obtain ⟨hNone, hRows⟩ := rows_insert h.imports hFresh
  exact ⟨_, returns_insert (by rw [hNone]; rfl),
    ⟨h.teams, h.teamMembers, h.teamInvites, h.documents, h.versions, hRows⟩⟩

end Insertions

/-! ## The import -/

/-- The documents of plans, which come with the ids of their versions. -/
def documentRows (plans : List (Plan × JsString)) : List HtmlDocument :=
  plans.map fun plan => importedDocument plan.1

theorem ids_documentRows (plans : List (Plan × JsString)) :
    (documentRows plans).map HtmlDocument.id =
      plans.map fun plan => plan.1.id := by
  rw [documentRows, List.map_map]
  rfl

theorem legacyIds_documentRows (plans : List (Plan × JsString)) :
    (documentRows plans).map HtmlDocument.legacyPlanId =
      plans.map fun plan => some plan.1.id := by
  rw [documentRows, List.map_map]
  rfl

/-- The plans with the ids that their versions are given. -/
def numbered (versionIds : Nat → JsString) (plans : List (Plan × Nat)) :
    List (Plan × JsString) :=
  plans.map fun plan => (plan.1, versionIds plan.2)

/-- The ids of numbered plans are those of the plans. -/
theorem ids_numbered (versionIds : Nat → JsString)
    (plans : List (Plan × Nat)) :
    (numbered versionIds plans).map (fun plan => plan.1.id) =
      plans.map fun plan => plan.1.id := by
  rw [numbered, List.map_map]
  rfl

section Import

variable [HtmlRuntime]

/-- The page of a plan as the import writes it. -/
def planPage (plan : Plan) : HtmlPublication where
  html := (HtmlRuntime.planPage plan.title plan.bodyMd).1
  title := plan.title
  language := some (js "en")
  category := some (js "Plans")
  tags := []
  metadata := [(js "plans.status", plan.status),
    (js "plans.renderer", js "legacy-markdown/1")]
  externalImages := (HtmlRuntime.planPage plan.title plan.bodyMd).2.1
  externalLinks := (HtmlRuntime.planPage plan.title plan.bodyMd).2.2

/-- A plan that can be rendered: one of the four statuses, and no more than
20 MiB. -/
structure Renderable (plan : Plan) : Prop where
  status : plan.status ∈ [js "draft", js "active", js "done", js "archived"]
  size : utf8Length plan.bodyMd ≤ 20 * 1024 * 1024

theorem planPublication_eq {plan : Plan} (h : Renderable plan) :
    planPublication plan.title plan.bodyMd plan.status none =
      .ok (planPage plan) := by
  rw [planPublication, if_neg (not_not_intro h.status),
    if_neg (Nat.not_lt.mpr h.size)]
  have hKey : js "plans.renderer" ≠ js "plans.status" := by decide
  simp [planPage, Record.putEntry, hKey]

def importedVersion (plan : Plan) (versionId : JsString) : HtmlVersion :=
  versionRow versionId plan.id 1 (planPage plan) plan.updatedBy
    (millis plan.updatedAt) (some plan.bodyMd)

def importRow (plan : Plan) : PlanImport :=
  ⟨plan.id, planDigest plan, HtmlRuntime.hash (planPage plan).html⟩

def versionRows (plans : List (Plan × JsString)) : List HtmlVersion :=
  plans.map fun plan => importedVersion plan.1 plan.2

def importRows (plans : List (Plan × JsString)) : List PlanImport :=
  plans.map fun plan => importRow plan.1

theorem places_versionRows (plans : List (Plan × JsString)) :
    (versionRows plans).map HtmlVersion.place =
      plans.map fun plan => (plan.1.id, 1) := by
  rw [versionRows, List.map_map]
  rfl

theorem ids_versionRows (plans : List (Plan × JsString)) :
    (versionRows plans).map HtmlVersion.id = plans.map Prod.snd := by
  rw [versionRows, List.map_map]
  rfl

theorem ids_importRows (plans : List (Plan × JsString)) :
    (importRows plans).map PlanImport.documentId =
      plans.map fun plan => plan.1.id := by
  rw [importRows, List.map_map]
  rfl

/-- **One plan** under an id that no plan before it has. -/
theorem loaded_importPlan {teams : List Team} {teamMembers : List TeamMember}
    {teamInvites : List TeamInvite} {front : List (Plan × JsString)}
    {db : PlansDb}
    (h : Loaded teams teamMembers teamInvites (documentRows front)
      (versionRows front) (importRows front) db)
    {plan : Plan} {versionId : JsString} (hPlan : Renderable plan)
    (hId : plan.id ∉ front.map fun plan => plan.1.id)
    (hVersion : versionId ∉ front.map Prod.snd) :
    ∃ db', Returns (importPlan plan versionId) db () db' ∧
      Loaded teams teamMembers teamInvites
        (documentRows (front ++ [(plan, versionId)]))
        (versionRows (front ++ [(plan, versionId)]))
        (importRows (front ++ [(plan, versionId)])) db' := by
  have hOther : ∀ other ∈ front, other.1.id ≠ plan.id :=
    fun other hOther hSame => hId (List.mem_map.mpr ⟨other, hOther, hSame⟩)
  have hDocument : (importedDocument plan).id ∉
      (documentRows front).map HtmlDocument.id := by
    rw [ids_documentRows]
    exact hId
  have hLegacy : (importedDocument plan).legacyPlanId ∉
      (documentRows front).map HtmlDocument.legacyPlanId := by
    rw [legacyIds_documentRows]
    intro hMem
    obtain ⟨other, hFront, hSame⟩ := List.mem_map.mp hMem
    exact hOther other hFront (Option.some.inj hSame)
  have hPlace : (importedVersion plan versionId).place ∉
      (versionRows front).map HtmlVersion.place := by
    rw [places_versionRows]
    intro hMem
    obtain ⟨other, hFront, hSame⟩ := List.mem_map.mp hMem
    exact hOther other hFront (Prod.mk.inj hSame).1
  have hVersionId : (importedVersion plan versionId).id ∉
      (versionRows front).map HtmlVersion.id := by
    rw [ids_versionRows]
    exact hVersion
  have hImport : (importRow plan).documentId ∉
      (importRows front).map PlanImport.documentId := by
    rw [ids_importRows]
    exact hId
  obtain ⟨db₁, hRun₁, h₁⟩ :=
    loaded_insertDocument h hDocument hLegacy
  obtain ⟨db₂, hRun₂, h₂⟩ :=
    loaded_insertVersion h₁ hPlace hVersionId
  obtain ⟨db₃, hRun₃, h₃⟩ := loaded_insertImport h₂ hImport
  refine ⟨db₃, ?_, ?_⟩
  · rw [importPlan, returns_check_bind]
    refine ⟨planPage plan, planPublication_eq hPlan, ?_⟩
    exact returns_bind.mpr ⟨(), db₁, hRun₁,
      returns_bind.mpr ⟨(), db₂, hRun₂, hRun₃⟩⟩
  · simpa [documentRows, versionRows, importRows] using h₃

/-! ## The loops -/

/-- A snapshot that the import can take. -/
structure Importable (s : PlansSnapshot) : Prop where
  accepted : validatePlansSnapshot s = .ok ()
  plans : ∀ plan ∈ s.plans, Renderable plan

/-- The loop over the plans. -/
theorem loaded_plans {s : PlansSnapshot} (h : Importable s)
    {versionIds : Nat → JsString} (hIds : Function.Injective versionIds)
    {db : PlansDb}
    {teams : List Team} {teamMembers : List TeamMember}
    {teamInvites : List TeamInvite}
    (hStart : Loaded teams teamMembers teamInvites [] [] [] db) :
    ∃ db', Returns (each s.plans.zipIdx fun plan =>
        importPlan plan.1 (versionIds plan.2)) db () db' ∧
      Loaded teams teamMembers teamInvites
        (documentRows (numbered versionIds s.plans.zipIdx))
        (versionRows (numbered versionIds s.plans.zipIdx))
        (importRows (numbered versionIds s.plans.zipIdx)) db' := by
  have hPlanIds : (s.plans.zipIdx.map fun plan => plan.1.id).Nodup := by
    have hMap : (s.plans.zipIdx.map fun plan => plan.1.id) =
        (s.plans.zipIdx.map Prod.fst).map Plan.id := by
      rw [List.map_map]
      rfl
    rw [hMap, List.zipIdx_map_fst]
    exact (accepted_of_validate h.accepted).plans
  have hNumbers : (s.plans.zipIdx.map Prod.snd).Nodup := by
    rw [List.zipIdx_map_snd]
    exact List.nodup_range'
  refine returns_each_grow (fun front db => Loaded teams teamMembers
    teamInvites (documentRows (numbered versionIds front))
    (versionRows (numbered versionIds front))
    (importRows (numbered versionIds front)) db) hStart ?_
  intro front item rest db hItems hLoaded
  have hMem : item.1 ∈ s.plans := by
    have hItem : item ∈ s.plans.zipIdx := by
      rw [hItems]
      exact List.mem_append_right _ List.mem_cons_self
    have hFst := List.mem_map_of_mem (f := Prod.fst) hItem
    rwa [List.zipIdx_map_fst] at hFst
  have hId : item.1.id ∉ (numbered versionIds front).map
      fun plan => plan.1.id := by
    rw [ids_numbered]
    exact notMem_front (fun plan : Plan × Nat => plan.1.id) hPlanIds hItems
  have hVersion : versionIds item.2 ∉
      (numbered versionIds front).map Prod.snd := by
    intro hTaken
    rw [numbered, List.map_map] at hTaken
    obtain ⟨other, hOther, hSame⟩ := List.mem_map.mp hTaken
    refine notMem_front Prod.snd hNumbers hItems ?_
    rw [← hIds hSame]
    exact List.mem_map_of_mem hOther
  obtain ⟨db', hRun, hNext⟩ :=
    loaded_importPlan hLoaded (h.plans _ hMem) hId hVersion
  refine ⟨db', hRun, ?_⟩
  rw [numbered, List.map_append]
  exact hNext

/-- The store after the import. -/
structure Imported [Collation] (s : PlansSnapshot)
    (versionIds : Nat → JsString) (now : Int) (db : PlansDb) : Prop where
  rows : Loaded s.teams s.teamMembers s.teamInvites
    (documentRows (numbered versionIds s.plans.zipIdx))
    (versionRows (numbered versionIds s.plans.zipIdx))
    (importRows (numbered versionIds s.plans.zipIdx)) db
  migration : db.migration =
    some ⟨plansSnapshotDigest s, now, s.plans.length⟩

section Run

variable [Collation] {s : PlansSnapshot} {versionIds : Nat → JsString}

/-- **The import into an empty store** writes the snapshot. -/
theorem returns_importFirst (h : Importable s)
    (hIds : Function.Injective versionIds) (now : Int) {db : PlansDb}
    (hBlank : Loaded [] [] [] [] [] [] db) :
    ∃ db', Returns (importFirst versionIds s now) db
        ⟨plansSnapshotDigest s, s.plans.length, false, s.plans.length⟩ db' ∧
      Imported s versionIds now db' := by
  have hAccepted := accepted_of_validate h.accepted
  obtain ⟨db₁, hRun₁, h₁⟩ := returns_each_grow
    (f := fun team => onReports (insertTeam team))
    (fun front db => Loaded front [] [] [] [] [] db) hBlank
    (fun front team rest db hItems hLoaded => loaded_insertTeam hLoaded
      (notMem_front _ hAccepted.teams hItems))
  obtain ⟨db₂, hRun₂, h₂⟩ := returns_each_grow
    (f := fun member => onReports (insertMember member))
    (fun front db => Loaded s.teams front [] [] [] [] db) h₁
    (fun front member rest db hItems hLoaded => loaded_insertMember hLoaded
      (notMem_front _ hAccepted.teamMembers hItems))
  obtain ⟨db₃, hRun₃, h₃⟩ := returns_each_grow
    (f := fun invite => onReports (insertInvite invite))
    (fun front db => Loaded s.teams s.teamMembers front [] [] [] db) h₂
    (fun front invite rest db hItems hLoaded => loaded_insertInvite hLoaded
      (notMem_front _ hAccepted.teamInvites hItems))
  obtain ⟨db₄, hRun₄, h₄⟩ := loaded_plans h hIds h₃
  let receipt : MigrationReceipt :=
    ⟨plansSnapshotDigest s, now, s.plans.length⟩
  refine ⟨{ db₄ with migration := some receipt }, ?_, ?_⟩
  · have hReceipt : Returns (do
        write fun db : PlansDb => { db with migration := some receipt }
        pure (⟨plansSnapshotDigest s, s.plans.length, false,
          s.plans.length⟩ : ImportResult) : Migration ImportResult) db₄
        ⟨plansSnapshotDigest s, s.plans.length, false, s.plans.length⟩
        { db₄ with migration := some receipt } :=
      returns_write_bind.mpr (returns_pure.mpr ⟨rfl, rfl⟩)
    rw [importFirst]
    exact returns_bind.mpr ⟨(), db₁, hRun₁, returns_bind.mpr ⟨(), db₂, hRun₂,
      returns_bind.mpr ⟨(), db₃, hRun₃,
        returns_bind.mpr ⟨(), db₄, hRun₄, hReceipt⟩⟩⟩⟩
  · exact ⟨⟨h₄.teams, h₄.teamMembers, h₄.teamInvites, h₄.documents,
      h₄.versions, h₄.imports⟩, rfl⟩

end Run

end Import

end OpenApe.Ports.PlansRoundTrip
