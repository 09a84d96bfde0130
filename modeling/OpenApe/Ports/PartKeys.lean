import OpenApe.Ports.CentralSnapshots
import OpenApe.Ports.WorkspaceStore

/-!
# Keys of parts

What `parsePartKey` reads back from the keys that `podKey` and `subKey`
print, and how the keys of tables differ from the others.
-/

namespace OpenApe.Ports.PartKeys

open Verified.JsText Verified.Unicode
open CentralValues CentralParts WorkspaceStore

theorem dropPrefix?_eq_some {text start rest : JsString} :
    text.dropPrefix? start = some rest ↔ text = start ++ rest := by
  rw [List.dropPrefix?_eq_some_iff]
  constructor
  · rintro ⟨start', rfl, hEq⟩
    rw [eq_of_beq hEq]
  · rintro rfl
    exact ⟨start, rfl, beq_self_eq_true start⟩

theorem parsePartKey_eq_ok {key : JsString} {part : PartKey} :
    parsePartKey key = .ok part ↔ matchKey key = some part := by
  unfold parsePartKey
  cases matchKey key <;> simp

/-! ## Tables -/

theorem parseSelection_eq_some {podId tail : JsString} {part : PartKey}
    (h : parseSelection podId tail = some part) :
    ∃ (kind : PartKind) (id : JsString), kind ≠ .pod ∧ isSelection id = true ∧
      tail = js "/" ++ kind.text ++ js "/" ++ id ∧
      part = { podId := some podId, kind := some kind, id := some id } := by
  unfold parseSelection at h
  obtain ⟨kind, hKind, h⟩ := List.exists_of_findSome?_eq_some h
  cases hDrop : tail.dropPrefix? (js "/" ++ kind.text ++ js "/") with
  | none =>
      rw [hDrop] at h
      cases h
  | some id =>
      rw [hDrop] at h
      dsimp only at h
      split_ifs at h with hSelection
      refine ⟨kind, id, ?_, hSelection, dropPrefix?_eq_some.mp hDrop,
        (Option.some.inj h).symm⟩
      rintro rfl
      exact absurd hKind (by decide)

/-- What the key of a Pod's part is made of. -/
theorem parsePodKey_eq_some {rest : JsString} {part : PartKey}
    (h : parsePodKey rest = some part) :
    isUuid (rest.take 36) = true ∧
      ((rest.drop 36 = [] ∧
          part = { podId := some (rest.take 36), kind := some .pod }) ∨
        parseSelection (rest.take 36) (rest.drop 36) = some part) := by
  unfold parsePodKey at h
  split_ifs at h with hUuid hEnd
  · exact ⟨hUuid, .inl ⟨List.isEmpty_iff.mp hEnd, (Option.some.inj h).symm⟩⟩
  · exact ⟨hUuid, .inr h⟩

theorem table_of_parsePodKey {rest : JsString} {part : PartKey}
    (h : parsePodKey rest = some part) : part.table = none := by
  obtain ⟨-, ⟨-, rfl⟩ | hSelection⟩ := parsePodKey_eq_some h
  · rfl
  · obtain ⟨kind, id, -, -, -, rfl⟩ := parseSelection_eq_some hSelection
    rfl

theorem isNotTable_pod (rest : JsString) :
    isNotTable (js "pod/" ++ rest) = true := by
  have hPod : js "pod/" = [112, 111, 100, 47] := by decide
  have hTable : js "table/" = [116, 97, 98, 108, 101, 47] := by decide
  have hUnit : ((116 : CodeUnit) == asciiLower 112) = false := by decide
  rw [isNotTable, hPod, hTable, List.map_append, List.map_cons,
    List.cons_append, List.isPrefixOf, hUnit]
  rfl

theorem isNotTable_table (rest : JsString) :
    isNotTable (js "table/" ++ rest) = false := by
  have hLower : (js "table/").map asciiLower = js "table/" := by decide
  rw [isNotTable, List.map_append, hLower]
  simp

/-- `NOT LIKE 'table/%'` leaves out the keys of tables, and no others. -/
theorem isNotTable_iff {key : JsString} {part : PartKey}
    (h : parsePartKey key = .ok part) :
    isNotTable key = true ↔ part.table = none := by
  rw [parsePartKey_eq_ok] at h
  unfold matchKey at h
  split_ifs at h with hFixed
  · obtain rfl := Option.some.inj h
    refine iff_of_true ?_ rfl
    rcases hFixed with rfl | rfl | rfl <;> decide
  · cases hPod : key.dropPrefix? (js "pod/") with
    | some rest =>
        rw [hPod] at h
        rw [dropPrefix?_eq_some.mp hPod]
        exact iff_of_true (isNotTable_pod rest) (table_of_parsePodKey h)
    | none =>
        rw [hPod] at h
        cases hTable : key.dropPrefix? (js "table/") with
        | none =>
            rw [hTable] at h
            cases h
        | some rest =>
            rw [hTable] at h
            unfold parseTableKey at h
            dsimp only at h
            split_ifs at h
            rw [dropPrefix?_eq_some.mp hTable, isNotTable_table,
              ← Option.some.inj h]
            simp

/-! ## The keys of a Pod's parts -/

theorem isUuid_length {id : JsString} (h : isUuid id = true) :
    id.length = 36 := by
  have hLoose := isLooseId_of_isUuid h
  unfold isLooseId at hLoose
  simp only [Bool.and_eq_true, beq_iff_eq] at hLoose
  exact hLoose.1

theorem matchKey_pod (rest : JsString) :
    matchKey (js "pod/" ++ rest) = parsePodKey rest := by
  have hDrop : (js "pod/" ++ rest).dropPrefix? (js "pod/") = some rest :=
    dropPrefix?_eq_some.mpr rfl
  have hPod : js "pod/" = [112, 111, 100, 47] := by decide
  have hWorkspace : js "workspace" = 119 :: js "orkspace" := by decide
  have hArtifacts : js "artifacts" = 97 :: js "rtifacts" := by decide
  have hSchema : js "schema" = 115 :: js "chema" := by decide
  rw [matchKey, hDrop, if_neg]
  rw [hPod, hWorkspace, hArtifacts, hSchema]
  simp

/-- The kinds of subordinate parts stand apart in their first letter. -/
theorem dropPrefix?_kind {kind other : PartKind} (h : other ≠ kind)
    (hOther : other ≠ .pod) (hKind : kind ≠ .pod) (id : JsString) :
    (js "/" ++ kind.text ++ js "/" ++ id).dropPrefix?
      (js "/" ++ other.text ++ js "/") = none := by
  cases kind <;> cases other <;>
    first | exact absurd rfl h | exact absurd rfl hOther
          | exact absurd rfl hKind | rfl

theorem parseSelection_kind {kind : PartKind} (hKind : kind ≠ .pod)
    (podId id : JsString) :
    parseSelection podId (js "/" ++ kind.text ++ js "/" ++ id) =
      if isSelection id then
        some { podId := some podId, kind := some kind, id := some id }
      else none := by
  have hOwn : (js "/" ++ kind.text ++ js "/" ++ id).dropPrefix?
      (js "/" ++ kind.text ++ js "/") = some id :=
    dropPrefix?_eq_some.mpr rfl
  have hOther : ∀ other : PartKind, other ≠ kind → other ≠ .pod →
      (js "/" ++ kind.text ++ js "/" ++ id).dropPrefix?
        (js "/" ++ other.text ++ js "/") = none :=
    fun other h hPod => dropPrefix?_kind h hPod hKind id
  unfold parseSelection
  simp only [List.findSome?_cons, List.findSome?_nil]
  cases kind with
  | pod => exact absurd rfl hKind
  | version =>
      rw [hOwn, hOther .run (by decide) (by decide),
        hOther .events (by decide) (by decide)]
      dsimp only
      split_ifs <;> rfl
  | run =>
      rw [hOwn, hOther .version (by decide) (by decide),
        hOther .events (by decide) (by decide)]
      dsimp only
      split_ifs <;> rfl
  | events =>
      rw [hOwn, hOther .version (by decide) (by decide),
        hOther .run (by decide) (by decide)]
      dsimp only
      split_ifs <;> rfl

theorem matchKey_subKey {podId : JsString} (h : isUuid podId = true)
    {kind : PartKind} (hKind : kind ≠ .pod) (id : JsString) :
    matchKey (subKey podId kind id) =
      if isSelection id then
        some { podId := some podId, kind := some kind, id := some id }
      else none := by
  have hLength := isUuid_length h
  have hTail : (js "/" ++ kind.text ++ js "/" ++ id).isEmpty = false := by
    cases kind <;> rfl
  rw [subKey, podKey, List.append_assoc, List.append_assoc, matchKey_pod,
    parsePodKey, List.take_left' hLength, List.drop_left' hLength, if_pos h,
    hTail, if_neg (by decide), parseSelection_kind hKind]

end OpenApe.Ports.PartKeys
