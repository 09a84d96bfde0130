import Mathlib.Data.List.Nodup

/-!
# Keyed tables

A table is a list of rows no two of which have the same key: a `Map` in
insertion order, or the rows of a database table under its primary key.  The
uniqueness is a field, so a lookup by key is the only lookup there is and
every operation below keeps it by construction.

`mapRows` is an update that leaves the keys alone (`UPDATE … SET` on all rows
or on those a condition selects), `put` inserts a row or replaces the one of
the same key, `remove` deletes it, and `keep` deletes the rows that fail a
condition.
-/

namespace OpenApe.Verified.KeyedTable

/-- A list without its repetitions repeats nothing. -/
theorem nodup_eraseDups {α : Type} [BEq α] [LawfulBEq α] (as : List α) :
    as.eraseDups.Nodup := by
  match as with
  | [] => exact List.nodup_nil
  | a :: as =>
      rw [List.eraseDups_cons, List.nodup_cons]
      constructor
      · rw [List.mem_eraseDups, List.mem_filter]
        simp
      · exact nodup_eraseDups _
  termination_by as.length
  decreasing_by
    exact Nat.lt_succ_of_le (List.length_filter_le _ as)

/-- Rows with pairwise distinct keys, in order. -/
structure Table {ρ κ : Type} (key : ρ → κ) where
  rows : List ρ
  nodup : (rows.map key).Nodup

namespace Table

variable {ρ κ : Type} {key : ρ → κ}

instance [DecidableEq ρ] : DecidableEq (Table key) := fun t u =>
  decidable_of_iff (t.rows = u.rows)
    ⟨fun h => by cases t; cases u; cases h; rfl, fun h => h ▸ rfl⟩

theorem ext_rows {t u : Table key} (h : t.rows = u.rows) : t = u := by
  cases t
  cases u
  cases h
  rfl

/-- The table without rows. -/
def empty : Table key := ⟨[], List.nodup_nil⟩

/-- Changes rows in place, keeping their keys. -/
def mapRows (t : Table key) (f : ρ → ρ) (hf : ∀ r, key (f r) = key r) :
    Table key where
  rows := t.rows.map f
  nodup := by
    have hKeys : (t.rows.map f).map key = t.rows.map key := by
      rw [List.map_map]
      exact List.map_congr_left (fun r _ => hf r)
    rw [hKeys]
    exact t.nodup

variable [DecidableEq κ]

/-- The row of a key. -/
def find? (t : Table key) (k : κ) : Option ρ :=
  t.rows.find? (fun r => key r = k)

theorem key_of_find? {t : Table key} {k : κ} {r : ρ}
    (h : t.find? k = some r) : key r = k := by
  have := List.find?_some h
  simpa using this

theorem mem_of_find? {t : Table key} {k : κ} {r : ρ}
    (h : t.find? k = some r) : r ∈ t.rows :=
  List.mem_of_find?_eq_some h

/-- Every row is the row of its key. -/
theorem find?_of_mem {t : Table key} {r : ρ} (h : r ∈ t.rows) :
    t.find? (key r) = some r := by
  cases hFound : t.find? (key r) with
  | none =>
      have := List.find?_eq_none.mp hFound r h
      simp at this
  | some found =>
      have hKey := key_of_find? hFound
      have hMem := mem_of_find? hFound
      exact congrArg some (List.inj_on_of_nodup_map t.nodup hMem h hKey)

theorem find?_eq_some_iff {t : Table key} {k : κ} {r : ρ} :
    t.find? k = some r ↔ r ∈ t.rows ∧ key r = k := by
  constructor
  · intro h
    exact ⟨mem_of_find? h, key_of_find? h⟩
  · rintro ⟨hMem, rfl⟩
    exact find?_of_mem hMem

@[simp] theorem find?_mapRows (t : Table key) (f : ρ → ρ)
    (hf : ∀ r, key (f r) = key r) (k : κ) :
    (t.mapRows f hf).find? k = (t.find? k).map f := by
  simp only [find?, mapRows, List.find?_map]
  congr 2
  funext r
  simp [hf]

/-- Inserts a row, or replaces the row of the same key where it stands. -/
def put (t : Table key) (row : ρ) : Table key :=
  if h : (t.find? (key row)).isSome then
    t.mapRows (fun r => if key r = key row then row else r)
      (fun r => by split <;> simp_all)
  else
    { rows := t.rows ++ [row]
      nodup := by
        have hFresh : key row ∉ t.rows.map key := by
          intro hMem
          obtain ⟨r, hr, hKey⟩ := List.mem_map.mp hMem
          have hFound := find?_of_mem hr
          rw [hKey] at hFound
          simp [hFound] at h
        simpa [List.map_append, List.nodup_append] using
          ⟨t.nodup, fun r hr hKey =>
            hFresh (List.mem_map.mpr ⟨r, hr, hKey⟩)⟩ }

@[simp] theorem find?_put_self (t : Table key) (row : ρ) :
    (t.put row).find? (key row) = some row := by
  rw [find?_eq_some_iff]
  refine ⟨?_, rfl⟩
  unfold put
  split
  · rename_i h
    obtain ⟨r, hr⟩ := Option.isSome_iff_exists.mp h
    exact List.mem_map.mpr
      ⟨r, mem_of_find? hr, by simp [key_of_find? hr]⟩
  · simp

theorem find?_put_ne (t : Table key) {row : ρ} {k : κ} (h : k ≠ key row) :
    (t.put row).find? k = t.find? k := by
  unfold put
  split
  · rw [find?_mapRows]
    cases hFound : t.find? k with
    | none => rfl
    | some r =>
        have hKey : key r ≠ key row := key_of_find? hFound ▸ h
        simp [hKey]
  · have hKey : ¬key row = k := fun hEq => h hEq.symm
    simp [find?, List.find?_append, hKey]

theorem find?_put (t : Table key) (row : ρ) (k : κ) :
    (t.put row).find? k = if k = key row then some row else t.find? k := by
  split
  · rename_i h
    rw [h, find?_put_self]
  · rename_i h
    exact find?_put_ne t h

/-- The rows after `put` are the new one and the old ones of other keys. -/
theorem mem_put_iff {t : Table key} {row r : ρ} :
    r ∈ (t.put row).rows ↔ r = row ∨ (r ∈ t.rows ∧ key r ≠ key row) := by
  constructor
  · intro h
    have hFound := find?_of_mem h
    rw [find?_put] at hFound
    split at hFound
    · exact .inl (Option.some.inj hFound).symm
    · rename_i hKey
      exact .inr ⟨mem_of_find? hFound, hKey⟩
  · rintro (rfl | ⟨hMem, hKey⟩)
    · exact mem_of_find? (find?_put_self t r)
    · have hFound := find?_put_ne t hKey
      rw [find?_of_mem hMem] at hFound
      exact mem_of_find? hFound

/-- A row of the table after `put` is the new row, or an old one. -/
theorem mem_of_mem_put {t : Table key} {row r : ρ}
    (h : r ∈ (t.put row).rows) : r = row ∨ r ∈ t.rows :=
  (mem_put_iff.mp h).imp_right And.left

/-- A row under a new key comes last. -/
theorem rows_put_of_none {t : Table key} {row : ρ}
    (h : t.find? (key row) = none) : (t.put row).rows = t.rows ++ [row] := by
  unfold put
  rw [dif_neg (by rw [h]; exact Bool.false_ne_true)]

/-- `UPDATE … SET … WHERE p`, which leaves the keys alone. -/
def update (t : Table key) (p : ρ → Bool) (f : ρ → ρ)
    (hf : ∀ r, key (f r) = key r) : Table key :=
  t.mapRows (fun r => if p r then f r else r)
    (fun r => by split <;> simp [hf])

theorem find?_update (t : Table key) (p : ρ → Bool) (f : ρ → ρ)
    (hf : ∀ r, key (f r) = key r) (k : κ) :
    (t.update p f hf).find? k =
      (t.find? k).map (fun r => if p r then f r else r) :=
  find?_mapRows t _ _ k

omit [DecidableEq κ] in
theorem mem_update {t : Table key} {p : ρ → Bool} {f : ρ → ρ}
    {hf : ∀ r, key (f r) = key r} {r : ρ} :
    r ∈ (t.update p f hf).rows ↔
      ∃ old ∈ t.rows, (if p old then f old else old) = r :=
  List.mem_map

/-- `INSERT OR IGNORE`: a row under a stored key is not written. -/
def putNew (t : Table key) (row : ρ) : Table key :=
  if (t.find? (key row)).isSome then t else t.put row

/-- `putNew` leaves the stored rows. -/
theorem find?_putNew {t : Table key} {row r : ρ} {k : κ}
    (h : t.find? k = some r) : (t.putNew row).find? k = some r := by
  unfold putNew
  split
  · exact h
  · rename_i hNew
    rw [find?_put_ne t, h]
    rintro rfl
    simp [h] at hNew

theorem mem_of_mem_putNew {t : Table key} {row r : ρ}
    (h : r ∈ (t.putNew row).rows) : r = row ∨ r ∈ t.rows := by
  unfold putNew at h
  split at h
  · exact .inr h
  · exact mem_of_mem_put h

/-- Deletes the row of a key. -/
def remove (t : Table key) (k : κ) : Table key where
  rows := t.rows.filter (fun r => key r ≠ k)
  nodup := t.nodup.sublist (List.filter_sublist.map key)

@[simp] theorem find?_remove_self (t : Table key) (k : κ) :
    (t.remove k).find? k = none := by
  simp [find?, remove, List.find?_eq_none]

theorem find?_remove_ne (t : Table key) {k k' : κ} (h : k ≠ k') :
    (t.remove k').find? k = t.find? k := by
  unfold find? remove
  rw [List.find?_filter]
  congr 1
  funext r
  by_cases hKey : key r = k
  · simp [hKey, h]
  · simp [hKey]

/-- Deleting leaves no row where there was none. -/
theorem find?_remove_of_none {t : Table key} {k : κ} (h : t.find? k = none)
    (k' : κ) : (t.remove k').find? k = none := by
  by_cases hKey : k = k'
  · rw [hKey, find?_remove_self]
  · rw [find?_remove_ne t hKey, h]

theorem mem_remove {t : Table key} {k : κ} {r : ρ} :
    r ∈ (t.remove k).rows ↔ r ∈ t.rows ∧ key r ≠ k := by
  simp [remove]

/-! Writing outside of a selection does not change the selection. -/

theorem filter_put_of_not {t : Table key} {row : ρ} {p : ρ → Bool}
    (h : ∀ r, key r = key row → p r = false) :
    (t.put row).rows.filter p = t.rows.filter p := by
  unfold put
  split
  · simp only [mapRows]
    induction t.rows with
    | nil => rfl
    | cons r rows ih =>
        rw [List.map_cons, List.filter_cons, List.filter_cons, ih]
        by_cases hKey : key r = key row
        · simp [hKey, h row rfl, h r hKey]
        · rw [if_neg hKey]
  · rw [List.filter_append, List.filter_cons_of_neg (by simp [h row rfl])]
    simp

theorem filter_remove_of_not {t : Table key} {k : κ} {p : ρ → Bool}
    (h : ∀ r, key r = k → p r = false) :
    (t.remove k).rows.filter p = t.rows.filter p := by
  simp only [remove, List.filter_filter]
  refine List.filter_congr fun r _ => ?_
  by_cases hKey : key r = k
  · simp [hKey, h r hKey]
  · simp [hKey]

/-- Deletes the rows for which `p` does not hold. -/
def keep (t : Table key) (p : ρ → Bool) : Table key where
  rows := t.rows.filter p
  nodup := t.nodup.sublist (List.filter_sublist.map key)

theorem find?_keep (t : Table key) (p : ρ → Bool) (k : κ) :
    (t.keep p).find? k = (t.find? k).filter p := by
  ext row
  rw [Option.filter_eq_some_iff, find?_eq_some_iff, find?_eq_some_iff]
  simp only [keep, List.mem_filter]
  tauto

/-- Replacing a row by itself changes nothing. -/
theorem put_of_find? {t : Table key} {row : ρ}
    (h : t.find? (key row) = some row) : t.put row = t := by
  refine ext_rows ?_
  unfold put
  rw [dif_pos (by rw [h]; rfl)]
  refine (List.map_congr_left (g := id) ?_).trans (List.map_id _)
  intro r hr
  split
  · rename_i hKey
    exact List.inj_on_of_nodup_map t.nodup (mem_of_find? h) hr hKey.symm
  · rfl

/-! ## Several rows at once -/

/-- Among rows of distinct keys a key selects one row. -/
theorem filter_key_eq {rows : List ρ} (hKeys : (rows.map key).Nodup) {row : ρ}
    (h : row ∈ rows) : rows.filter (fun r => key r = key row) = [row] := by
  induction rows with
  | nil => cases h
  | cons first rows ih =>
      rw [List.map_cons, List.nodup_cons] at hKeys
      rcases List.mem_cons.mp h with rfl | hRest
      · rw [List.filter_cons_of_pos (by simp), List.filter_eq_nil_iff.mpr]
        intro r hr hKey
        exact hKeys.1 (List.mem_map.mpr ⟨r, hr, of_decide_eq_true hKey⟩)
      · rw [List.filter_cons_of_neg, ih hKeys.2 hRest]
        intro hKey
        exact hKeys.1 (List.mem_map.mpr
          ⟨row, hRest, (of_decide_eq_true hKey).symm⟩)

theorem find?_foldl_remove (ks : List κ) (t : Table key) (k : κ) :
    (ks.foldl remove t).find? k = if k ∈ ks then none else t.find? k := by
  induction ks generalizing t with
  | nil => rfl
  | cons k' ks ih =>
      rw [List.foldl_cons, ih]
      by_cases hRest : k ∈ ks
      · rw [if_pos hRest, if_pos (List.mem_cons_of_mem k' hRest)]
      · rw [if_neg hRest]
        by_cases hKey : k = k'
        · rw [hKey, find?_remove_self, if_pos List.mem_cons_self]
        · rw [find?_remove_ne t hKey, if_neg]
          rw [List.mem_cons]
          exact fun h => h.elim hKey hRest

/-- The keys that are not written keep their rows. -/
theorem find?_foldl_put_of_notMem {rows : List ρ} {k : κ}
    (h : k ∉ rows.map key) (t : Table key) :
    (rows.foldl put t).find? k = t.find? k := by
  induction rows generalizing t with
  | nil => rfl
  | cons row rows ih =>
      rw [List.map_cons, List.mem_cons, not_or] at h
      rw [List.foldl_cons, ih h.2, find?_put_ne t h.1]

theorem mem_foldl_put {rows : List ρ} {t : Table key} {r : ρ}
    (h : r ∈ (rows.foldl put t).rows) : r ∈ rows ∨ r ∈ t.rows := by
  induction rows generalizing t with
  | nil => exact .inr h
  | cons row rows ih =>
      rcases ih h with hMem | hMem
      · exact .inl (List.mem_cons_of_mem row hMem)
      · rcases mem_of_mem_put hMem with rfl | hOld
        · exact .inl List.mem_cons_self
        · exact .inr hOld

/-- The keys of a table that rows were written into. -/
theorem isSome_find?_foldl_put {rows : List ρ} {t : Table key} {k : κ} :
    ((rows.foldl put t).find? k).isSome = true ↔
      k ∈ rows.map key ∨ (t.find? k).isSome = true := by
  induction rows generalizing t with
  | nil => simp
  | cons row rows ih =>
      rw [List.foldl_cons, ih, find?_put, List.map_cons, List.mem_cons]
      by_cases hKey : k = key row
      · simp [hKey]
      · simp [hKey]

/-- Rows of distinct keys are all written. -/
theorem find?_foldl_put_of_mem {rows : List ρ} (hKeys : (rows.map key).Nodup)
    {row : ρ} (h : row ∈ rows) (t : Table key) :
    (rows.foldl put t).find? (key row) = some row := by
  induction rows generalizing t with
  | nil => cases h
  | cons first rows ih =>
      rw [List.map_cons, List.nodup_cons] at hKeys
      rw [List.foldl_cons]
      rcases List.mem_cons.mp h with rfl | hRest
      · rw [find?_foldl_put_of_notMem hKeys.1, find?_put_self]
      · exact ih hKeys.2 hRest _

/-- Lookup by key in the rows in any order. -/
theorem find?_perm {t : Table key} {rows : List ρ} (h : rows.Perm t.rows)
    (k : κ) : rows.find? (fun r => key r = k) = t.find? k := by
  cases hFound : t.find? k with
  | none =>
      rw [List.find?_eq_none]
      intro r hr
      exact List.find?_eq_none.mp hFound r (h.mem_iff.mp hr)
  | some row =>
      have hMem := h.mem_iff.mpr (mem_of_find? hFound)
      cases hRow : rows.find? (fun r => key r = k) with
      | none =>
          have hMiss := List.find?_eq_none.mp hRow row hMem
          simp [key_of_find? hFound] at hMiss
      | some row' =>
          have hKey : key row' = k := by
            simpa using List.find?_some hRow
          have hRows := find?_of_mem
            (h.mem_iff.mp (List.mem_of_find?_eq_some hRow))
          rw [hKey, hFound] at hRows
          exact hRows.symm

end Table

end OpenApe.Verified.KeyedTable
