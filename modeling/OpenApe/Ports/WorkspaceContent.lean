import OpenApe.Ports.PartKeys
import OpenApe.Ports.WorkspaceRuns

/-!
# The content of the workspace

`Content` is what every store of a run satisfies: staged and stored parts are
what their hashes name, and the parts of a runtime with data are together
what its hash names.  Only a publication changes the parts of a runtime, and
only its own.
-/

namespace OpenApe.Ports.WorkspaceContent

open Verified.Fallible Verified.JsText Verified.Json Verified.KeyedTable
  Verified.Machine Verified.Transactions Verified.Transactions.Action
open CentralValues CentralParts PartKeys WorkspaceStore WorkspaceRuns

/-! ## The invariant -/

/-- A stored part has a key, and unless it belongs to a table its text is
what its hash names and its validator has accepted it. -/
def PartSound (runtime : PartsRuntime) (part : PartRow) : Prop :=
  ∃ key, parsePartKey part.key = .ok key ∧
    (key.table = none →
      partHash runtime (stringify part.value) = part.hash ∧
        validatePart runtime part.key part.value = .ok ())

/-- The parts of a runtime are together what its hash names. -/
def CommittedAs (runtime : PartsRuntime) (db : Db) (row : RuntimeRow) :
    Prop :=
  manifestDigest runtime (manifest db row.id) = row.hash ∧
    validateManifest (partKeys db row.id) (reader db row.id) = .ok ()

structure Content (runtime : PartsRuntime) (db : Db) : Prop where
  staged : ∀ row ∈ db.stagedParts.rows,
    partHash runtime (stringify row.value) = row.hash
  parts : ∀ part ∈ db.parts.rows, PartSound runtime part
  committed : ∀ row ∈ db.runtimes.rows, hasData row = true →
    CommittedAs runtime db row

theorem content_empty (runtime : PartsRuntime) : Content runtime {} where
  staged := by
    intro row hRow
    cases hRow
  parts := by
    intro part hPart
    cases hPart
  committed := by
    intro row hRow
    cases hRow

/-- Two stores in which a runtime has the same parts. -/
structure SameParts (db db' : Db) (runtimeId : JsString) : Prop where
  rows : partsOf db' runtimeId = partsOf db runtimeId
  find : ∀ key, db'.parts.find? (runtimeId, key) =
    db.parts.find? (runtimeId, key)

theorem SameParts.of_eq {db db' : Db} (h : db'.parts = db.parts)
    (runtimeId : JsString) : SameParts db db' runtimeId where
  rows := by rw [partsOf, h, partsOf]
  find := fun key => by rw [h]

theorem SameParts.trans {a b c : Db} {runtimeId : JsString}
    (h : SameParts a b runtimeId) (h' : SameParts b c runtimeId) :
    SameParts a c runtimeId where
  rows := h'.rows.trans h.rows
  find := fun key => (h'.find key).trans (h.find key)

theorem SameParts.manifest {db db' : Db} {runtimeId : JsString}
    (h : SameParts db db' runtimeId) :
    manifest db' runtimeId = manifest db runtimeId := by
  rw [WorkspaceStore.manifest, h.rows, WorkspaceStore.manifest]

theorem SameParts.partKeys {db db' : Db} {runtimeId : JsString}
    (h : SameParts db db' runtimeId) :
    partKeys db' runtimeId = partKeys db runtimeId := by
  rw [WorkspaceStore.partKeys, h.rows, WorkspaceStore.partKeys]

theorem SameParts.reader {db db' : Db} {runtimeId : JsString}
    (h : SameParts db db' runtimeId) :
    reader db' runtimeId = reader db runtimeId := by
  funext key
  rw [WorkspaceStore.reader, h.find, WorkspaceStore.reader]

theorem CommittedAs.of_same {runtime : PartsRuntime} {db db' : Db}
    {row row' : RuntimeRow} (h : CommittedAs runtime db row)
    (hSame : SameParts db db' row.id) (hId : row'.id = row.id)
    (hHash : row'.hash = row.hash) : CommittedAs runtime db' row' := by
  rw [CommittedAs, hId, hHash, hSame.manifest, hSame.partKeys, hSame.reader]
  exact h

/-- A call that leaves the parts alone, and the hashes of the runtimes it
keeps, keeps the content. -/
theorem Content.frame {runtime : PartsRuntime} {db db' : Db}
    (h : Content runtime db) (hParts : db'.parts = db.parts)
    (hStaged : ∀ row ∈ db'.stagedParts.rows,
      partHash runtime (stringify row.value) = row.hash)
    (hRuntimes : ∀ row' ∈ db'.runtimes.rows, hasData row' = true →
      ∃ row ∈ db.runtimes.rows, row'.id = row.id ∧ row'.hash = row.hash ∧
        row'.partsHash = row.partsHash) : Content runtime db' where
  staged := hStaged
  parts := by
    rw [hParts]
    exact h.parts
  committed := by
    intro row' hRow' hData
    obtain ⟨row, hRow, hId, hHash, hPartsHash⟩ := hRuntimes row' hRow' hData
    have hData' : hasData row = true := by
      rw [hasData, ← hHash, ← hPartsHash]
      exact hData
    exact (h.committed row hRow hData').of_same (.of_eq hParts row.id) hId
      hHash

/-- The same for a call that leaves runtimes, parts and staged parts. -/
theorem Content.same {runtime : PartsRuntime} {db db' : Db}
    (h : Content runtime db) (hRuntimes : db'.runtimes = db.runtimes)
    (hParts : db'.parts = db.parts)
    (hStaged : db'.stagedParts = db.stagedParts) : Content runtime db' := by
  refine h.frame hParts (by rw [hStaged]; exact h.staged) ?_
  intro row hRow _
  rw [hRuntimes] at hRow
  exact ⟨row, hRow, rfl, rfl, rfl⟩

/-! ## Connecting and staging -/

theorem Content.begun {runtime : PartsRuntime} {now : Clock}
    {lease : JsString} {actor : WorkspaceActor} {db db' : Db}
    (h : Content runtime db) (hBegun : Begun now lease actor db db') :
    Content runtime db' := by
  refine h.frame hBegun.parts ?_ ?_
  · intro row hRow
    rw [hBegun.stagedParts] at hRow
    exact h.staged row (List.mem_of_mem_filter hRow)
  · intro row' hRow' hData
    rw [hBegun.runtimes] at hRow'
    rcases Table.mem_of_mem_put hRow' with rfl | hOld
    · cases hPrevious : db.runtimes.find? actor.id with
      | none =>
          rw [hPrevious] at hData
          cases hData
      | some row =>
          exact ⟨row, Table.mem_of_find? hPrevious, rfl, rfl, rfl⟩
    · exact ⟨row', hOld, rfl, rfl, rfl⟩

theorem Content.beaten {runtime : PartsRuntime} {actor : WorkspaceActor}
    {lease : JsString} {db db' : Db} (h : Content runtime db)
    (hBeaten : Beaten actor lease db db') : Content runtime db' := by
  refine h.frame hBeaten.parts (by rw [hBeaten.stagedParts]; exact h.staged) ?_
  intro row' hRow' _
  obtain ⟨found, -, ⟨heartbeat, seenAt, hRuntimes⟩ | hRuntimes⟩ :=
    hBeaten.runtimes
  · rw [hRuntimes] at hRow'
    obtain ⟨row, hRow, rfl⟩ := Table.mem_update.mp hRow'
    refine ⟨row, hRow, ?_⟩
    split_ifs <;> exact ⟨rfl, rfl, rfl⟩
  · rw [hRuntimes] at hRow'
    obtain ⟨row, hRow, rfl⟩ := Table.mem_update.mp hRow'
    refine ⟨row, hRow, ?_⟩
    split_ifs <;> exact ⟨rfl, rfl, rfl⟩

theorem checkStagedEntry_eq_ok {runtime : PartsRuntime}
    {entry : JsString × JsonValue}
    (h : checkStagedEntry runtime entry = .ok ()) :
    partHash runtime (stringify entry.2) = entry.1 := by
  simp only [checkStagedEntry, bind_eq_ok, throwIf_eq_ok,
    Bool.or_eq_false_iff] at h
  obtain ⟨_, ⟨-, hHash⟩, -⟩ := h
  exact not_not.mp (of_decide_eq_false hHash)

theorem mem_foldl_putNew {runtimeId : JsString}
    {entries : List (JsString × JsonValue)} {staged : StagedParts}
    {row : StagedRow}
    (h : row ∈ (entries.foldl (fun staged entry =>
      staged.putNew ⟨runtimeId, entry.1, entry.2⟩) staged).rows) :
    row ∈ staged.rows ∨ ∃ entry ∈ entries,
      row = ⟨runtimeId, entry.1, entry.2⟩ := by
  induction entries generalizing staged with
  | nil => exact .inl h
  | cons entry entries ih =>
      rcases ih h with hFirst | ⟨entry', hMem, hRow⟩
      · rcases Table.mem_of_mem_putNew hFirst with hNew | hOld
        · exact .inr ⟨entry, List.mem_cons_self, hNew⟩
        · exact .inl hOld
      · exact .inr ⟨entry', List.mem_cons_of_mem _ hMem, hRow⟩

theorem Content.stage {runtime : PartsRuntime} {actor : WorkspaceActor}
    {lease : JsString} {entries : List (JsString × JsonValue)} {db db' : Db}
    (h : Content runtime db)
    (hStaged : Staged runtime actor lease entries db db') :
    Content runtime db' := by
  obtain ⟨found, -, hParts⟩ := hStaged.stagedParts
  refine h.frame hStaged.parts ?_ ?_
  · intro row hRow
    rw [hParts] at hRow
    rcases mem_foldl_putNew hRow with hOld | ⟨entry, hMem, rfl⟩
    · exact h.staged row hOld
    · exact checkStagedEntry_eq_ok (forM_eq_ok.mp hStaged.checked entry hMem)
  · intro row hRow _
    rw [hStaged.runtimes] at hRow
    exact ⟨row, hRow, rfl, rfl, rfl⟩

/-! ## Publishing -/

/-- The content of a hash, staged or stored, is what the hash names. -/
theorem hash_of_partContent {runtime : PartsRuntime} {db : Db}
    {runtimeId hash : JsString} {value : JsonValue}
    (hStaged : ∀ row ∈ db.stagedParts.rows,
      partHash runtime (stringify row.value) = row.hash)
    (hParts : ∀ part ∈ db.parts.rows, PartSound runtime part)
    (h : partContent db runtimeId hash = .ok value) :
    partHash runtime (stringify value) = hash := by
  unfold partContent at h
  cases hFind : db.stagedParts.find? (runtimeId, hash) with
  | some row =>
      rw [hFind] at h
      cases h
      have hKey := Table.key_of_find? hFind
      rw [hStaged row (Table.mem_of_find? hFind)]
      exact congrArg Prod.snd hKey
  | none =>
      rw [hFind] at h
      dsimp only at h
      split at h
      · rename_i part hPart
        cases h
        have hMem := List.mem_of_find?_eq_some hPart
        have hSame := List.find?_some hPart
        obtain ⟨hHash, hTable⟩ := of_decide_eq_true hSame
        obtain ⟨key, hKey, hSound⟩ := hParts part (List.mem_of_mem_filter hMem)
        rw [← hHash]
        exact (hSound ((isNotTable_iff hKey).mp hTable)).1
      · cases h

theorem partSound_of_newContent {runtime : PartsRuntime} {db : Db}
    {runtimeId key hash : JsString} {value : JsonValue}
    (hStaged : ∀ row ∈ db.stagedParts.rows,
      partHash runtime (stringify row.value) = row.hash)
    (hParts : ∀ part ∈ db.parts.rows, PartSound runtime part)
    (h : newContent runtime db runtimeId key hash = .ok value) :
    PartSound runtime ⟨runtimeId, key, hash, value⟩ := by
  simp only [newContent, bind_eq_ok] at h
  obtain ⟨part, hPart, h⟩ := h
  refine ⟨part, hPart, fun hTable => ?_⟩
  rw [hTable, Option.isSome_none, if_neg Bool.false_ne_true] at h
  simp only [bind_eq_ok, pure, Except.pure, Except.ok.injEq] at h
  obtain ⟨value', hContent, _, hValid, rfl⟩ := h
  exact ⟨hash_of_partContent hStaged hParts hContent, hValid⟩

/-- What the loop over the changed parts keeps. -/
structure Changing (runtime : PartsRuntime) (runtimeId : JsString)
    (db s : Db) : Prop where
  rest : s = { db with parts := s.parts }
  parts : ∀ part ∈ s.parts.rows, PartSound runtime part
  others : ∀ other, other ≠ runtimeId → SameParts db s other

theorem changing_write {runtime : PartsRuntime} {runtimeId : JsString}
    {db s : Db} {parts : Parts} (h : Changing runtime runtimeId db s)
    (hParts : ∀ part ∈ parts.rows, PartSound runtime part)
    (hOthers : ∀ other, other ≠ runtimeId →
      parts.rows.filter (fun part => part.runtimeId = other) =
          s.parts.rows.filter (fun part => part.runtimeId = other) ∧
        ∀ key, parts.find? (other, key) = s.parts.find? (other, key)) :
    Changing runtime runtimeId db { s with parts := parts } where
  rest := congrArg (fun t : Db => { t with parts := parts }) h.rest
  parts := hParts
  others := by
    intro other hOther
    have hFirst := h.others other hOther
    obtain ⟨hRows, hFind⟩ := hOthers other hOther
    exact hFirst.trans ⟨hRows, hFind⟩

theorem changing_changes {runtime : PartsRuntime} {runtimeId : JsString}
    {current : CentralManifest} {changes : List (JsString × Option JsString)}
    {db db' : Db} {u : Unit} (hContent : Content runtime db)
    (h : Returns (each changes (applyChange runtime runtimeId current)) db u
      db') : Changing runtime runtimeId db db' := by
  refine returns_each (Changing runtime runtimeId db) h
    ⟨rfl, hContent.parts, fun other _ => .of_eq rfl other⟩ ?_
  intro entry _ s s' hInv hTurn
  unfold applyChange at hTurn
  cases hHash : entry.2 with
  | none =>
      rw [hHash] at hTurn
      rw [returns_write.mp hTurn]
      refine changing_write hInv ?_ ?_
      · intro part hPart
        exact hInv.parts part (Table.mem_remove.mp hPart).1
      · intro other hOther
        refine ⟨Table.filter_remove_of_not ?_, fun key => ?_⟩
        · intro part hKey
          rw [show part.runtimeId = runtimeId from congrArg Prod.fst hKey]
          exact decide_eq_false (Ne.symm hOther)
        · exact Table.find?_remove_ne _
            (fun hKey => hOther (congrArg Prod.fst hKey))
  | some hash =>
      simp only [hHash] at hTurn
      split at hTurn
      · rw [(returns_pure.mp hTurn).2]
        exact hInv
      · simp only [returns_query_bind, returns_write] at hTurn
        obtain ⟨value, hValue, rfl⟩ := hTurn
        have hStaged : s.stagedParts = db.stagedParts := by rw [hInv.rest]
        refine changing_write hInv ?_ ?_
        · intro part hPart
          rcases Table.mem_of_mem_put hPart with rfl | hOld
          · exact partSound_of_newContent
              (by rw [hStaged]; exact hContent.staged) hInv.parts hValue
          · exact hInv.parts part hOld
        · intro other hOther
          refine ⟨Table.filter_put_of_not ?_, fun key => ?_⟩
          · intro part hKey
            rw [show part.runtimeId = runtimeId from congrArg Prod.fst hKey]
            exact decide_eq_false (Ne.symm hOther)
          · exact Table.find?_put_ne _
              (fun hKey => hOther (congrArg Prod.fst hKey))

/-- The row of a runtime after a publication. -/
theorem mem_publishedRuntimes {found row' : RuntimeRow} {hash : JsString}
    {runtimes : Runtimes} (hFound : runtimes.find? found.id = some found)
    (h : row' ∈ (publishedRuntimes found hash runtimes).rows) :
    (row'.id = found.id ∧ row'.hash = hash) ∨
      (row' ∈ runtimes.rows ∧ row'.id ≠ found.id) := by
  unfold publishedRuntimes at h
  split_ifs at h with hHash
  · obtain ⟨row, hRow, rfl⟩ := Table.mem_update.mp h
    by_cases hId : row.id = found.id
    · rw [if_pos (decide_eq_true hId)]
      exact .inl ⟨hId, rfl⟩
    · rw [if_neg (by simp [hId])]
      exact .inr ⟨hRow, hId⟩
  · obtain ⟨row, hRow, rfl⟩ := Table.mem_update.mp h
    by_cases hId : row.id = found.id
    · rw [if_pos (decide_eq_true hId)]
      have hSame := Table.find?_of_mem hRow
      rw [hId, hFound] at hSame
      refine .inl ⟨hId, ?_⟩
      rw [← Option.some.inj hSame]
      exact not_not.mp hHash
    · rw [if_neg (by simp [hId])]
      exact .inr ⟨hRow, hId⟩

theorem Content.published {runtime : PartsRuntime} {actor : WorkspaceActor}
    {found : RuntimeRow} {id hash requestHash : JsString}
    {changes : List (JsString × Option JsString)}
    {completion : Option Completion} {db changed db' : Db}
    {answer : PublishAnswer} (h : Content runtime db)
    (hFound : db.runtimes.find? found.id = some found)
    (hPublished : Published runtime actor found id changes hash requestHash
      completion db answer changed db') : Content runtime db' := by
  obtain ⟨after, hCommitted, hSame⟩ := hPublished.committed
  have hChanging := changing_changes h hPublished.applied
  have hRuntimes : changed.runtimes = db.runtimes := by rw [hChanging.rest]
  have hStaged : changed.stagedParts = db.stagedParts := by
    rw [hChanging.rest]
  have hParts : db'.parts = changed.parts :=
    hSame.parts.trans hCommitted.parts
  refine ⟨?_, ?_, ?_⟩
  · intro row hRow
    rw [hSame.stagedParts, hCommitted.stagedParts, hStaged] at hRow
    exact h.staged row (List.mem_of_mem_filter hRow)
  · rw [hParts]
    exact hChanging.parts
  · intro row' hRow' hData
    rw [hSame.runtimes, hCommitted.runtimes, hRuntimes] at hRow'
    rcases mem_publishedRuntimes hFound hRow' with ⟨hId, hHash⟩ | ⟨hRow, hId⟩
    · have hOwn := SameParts.of_eq hParts found.id
      rw [CommittedAs, hId, hHash, hOwn.manifest, hOwn.partKeys, hOwn.reader]
      exact ⟨hPublished.digest, hPublished.valid⟩
    · exact (h.committed row' hRow hData).of_same
        ((hChanging.others row'.id hId).trans (.of_eq hParts row'.id)) rfl rfl

/-! ## Every turn -/

theorem Content.effect {runtime : PartsRuntime} {db db' : Db}
    (hContent : Content runtime db) (h : Effect runtime db db') :
    Content runtime db' := by
  cases h with
  | begun _ _ _ h => exact hContent.begun h
  | beaten _ _ h => exact hContent.beaten h
  | staged _ _ _ h => exact hContent.stage h
  | same h => exact hContent.same h.runtimes h.parts h.stagedParts
  | accepted h => exact hContent.same h.runtimes h.parts h.stagedParts
  | claimed h =>
      cases h with
      | idle h => exact hContent.same h.runtimes h.parts h.stagedParts
      | expired _ _ _ h =>
          exact hContent.same h.runtimes h.parts h.stagedParts
      | started _ _ _ h =>
          exact hContent.same h.runtimes h.parts h.stagedParts
  | published hFound _ h => exact hContent.published hFound h

/-- **The content of every store of a run is what its hashes name.** -/
theorem content_run (runtime : WorkspaceRuntime) (turns : List Turn) :
    Content runtime.toPartsRuntime (run (workspace runtime) turns {}) :=
  run_invariant (content_empty runtime.toPartsRuntime)
    (fun _ _ hEffect hContent => hContent.effect hEffect) turns

/-! ## Revisions -/

/-- The revision goes up by one exactly where the hash changes, and a new
runtime has neither. -/
def RevisionStep (before after : Runtimes) : Prop :=
  ∀ id row', after.find? id = some row' →
    (∃ row, before.find? id = some row ∧
      ((row'.hash = row.hash ∧ row'.revision = row.revision) ∨
        (row'.hash ≠ row.hash ∧ row'.revision = row.revision + 1))) ∨
    (before.find? id = none ∧ row'.hash = [] ∧ row'.revision = 0)

theorem RevisionStep.of_same {before after : Runtimes}
    (h : after = before) : RevisionStep before after := by
  intro id row' hRow'
  rw [h] at hRow'
  exact .inl ⟨row', hRow', .inl ⟨rfl, rfl⟩⟩

/-- An update that leaves hash and revision. -/
theorem RevisionStep.of_update {before : Runtimes} {p : RuntimeRow → Bool}
    {f : RuntimeRow → RuntimeRow} {hf : ∀ row, (f row).id = row.id}
    (h : ∀ row, (f row).hash = row.hash ∧ (f row).revision = row.revision) :
    RevisionStep before (before.update p f hf) := by
  intro id row' hRow'
  rw [Table.find?_update] at hRow'
  obtain ⟨row, hRow, rfl⟩ := Option.map_eq_some_iff.mp hRow'
  refine .inl ⟨row, hRow, .inl ?_⟩
  split_ifs
  · exact h row
  · exact ⟨rfl, rfl⟩

theorem revisionStep_begun {now : Clock} {lease : JsString}
    {actor : WorkspaceActor} {db db' : Db} (h : Begun now lease actor db db') :
    RevisionStep db.runtimes db'.runtimes := by
  intro id row' hRow'
  have hId : (connectedRow (db.runtimes.find? actor.id) actor lease).id =
      actor.id := by
    cases hPrevious : db.runtimes.find? actor.id with
    | none => rfl
    | some row =>
        change row.id = actor.id
        exact Table.key_of_find? hPrevious
  rw [h.runtimes, Table.find?_put, hId] at hRow'
  split_ifs at hRow' with hSame
  · subst hSame
    obtain rfl := Option.some.inj hRow'
    cases hPrevious : db.runtimes.find? actor.id with
    | none => exact .inr ⟨rfl, rfl, rfl⟩
    | some row => exact .inl ⟨row, rfl, .inl ⟨rfl, rfl⟩⟩
  · exact .inl ⟨row', hRow', .inl ⟨rfl, rfl⟩⟩

theorem revisionStep_beaten {actor : WorkspaceActor} {lease : JsString}
    {db db' : Db} (h : Beaten actor lease db db') :
    RevisionStep db.runtimes db'.runtimes := by
  obtain ⟨found, -, ⟨heartbeat, seenAt, hRuntimes⟩ | hRuntimes⟩ := h.runtimes
  · rw [hRuntimes]
    exact .of_update fun _ => ⟨rfl, rfl⟩
  · rw [hRuntimes]
    exact .of_update fun _ => ⟨rfl, rfl⟩

theorem revisionStep_published {found : RuntimeRow} {hash : JsString}
    {runtimes : Runtimes} (hFound : runtimes.find? found.id = some found) :
    RevisionStep runtimes (publishedRuntimes found hash runtimes) := by
  unfold publishedRuntimes
  split_ifs with hHash
  · intro id row' hRow'
    rw [Table.find?_update] at hRow'
    obtain ⟨row, hRow, rfl⟩ := Option.map_eq_some_iff.mp hRow'
    refine .inl ⟨row, hRow, ?_⟩
    split_ifs with hId
    · have hSame := Table.find?_of_mem (Table.mem_of_find? hRow)
      rw [of_decide_eq_true hId, hFound] at hSame
      obtain rfl := Option.some.inj hSame
      exact .inr ⟨Ne.symm hHash, rfl⟩
    · exact .inl ⟨rfl, rfl⟩
  · exact .of_update fun _ => ⟨rfl, rfl⟩

theorem revision_of_effect {runtime : PartsRuntime} {db db' : Db}
    (h : Effect runtime db db') :
    RevisionStep db.runtimes db'.runtimes := by
  cases h with
  | begun _ _ _ h => exact revisionStep_begun h
  | beaten _ _ h => exact revisionStep_beaten h
  | staged _ _ _ h => exact .of_same h.runtimes
  | same h => exact .of_same h.runtimes
  | accepted h => exact .of_same h.runtimes
  | claimed h =>
      cases h with
      | idle h => exact .of_same h.runtimes
      | expired _ _ _ h => exact .of_same h.runtimes
      | started _ _ _ h => exact .of_same h.runtimes
  | published hFound _ h =>
      obtain ⟨after, hCommitted, hSame⟩ := h.committed
      rw [hSame.runtimes, hCommitted.runtimes,
        parts_of_returns_changes h.applied]
      exact revisionStep_published hFound

theorem revision_turn (runtime : WorkspaceRuntime) (turn : Turn) (db : Db) :
    RevisionStep db.runtimes (workspace runtime turn db).2.runtimes :=
  turn_effect (R := fun db db' => RevisionStep db.runtimes db'.runtimes)
    (fun _ _ => revision_of_effect) turn db

end OpenApe.Ports.WorkspaceContent
