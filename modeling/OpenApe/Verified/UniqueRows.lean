import OpenApe.Verified.KeyedTable

/-!
# Tables with two unique keys

A table under a primary key may have a second `UNIQUE` constraint.  `Rows`
carries both as fields; an insertion that would break one of them fails, and
a lookup by either key finds the only row there is.
-/

namespace OpenApe.Verified.KeyedTable

/-- Rows with pairwise distinct keys of two kinds. -/
structure Rows {ρ κ ι : Type} (key : ρ → κ) (other : ρ → ι) extends
    Table key where
  nodup_other : (rows.map other).Nodup

namespace Rows

variable {ρ κ ι : Type} {key : ρ → κ} {other : ρ → ι}

theorem ext_rows {t u : Rows key other} (h : t.rows = u.rows) : t = u := by
  obtain ⟨t, ht⟩ := t
  obtain ⟨u, hu⟩ := u
  obtain rfl : t = u := Table.ext_rows h
  rfl

/-- The same rows under the other key. -/
def mirror (t : Rows key other) : Table other := ⟨t.rows, t.nodup_other⟩

def empty : Rows key other := ⟨Table.empty, List.nodup_nil⟩

/-- `UPDATE … SET … WHERE p`, which leaves both keys alone. -/
def update (t : Rows key other) (p : ρ → Bool) (f : ρ → ρ)
    (hf : ∀ r, key (f r) = key r) (hOther : ∀ r, other (f r) = other r) :
    Rows key other where
  toTable := t.toTable.update p f hf
  nodup_other := (t.mirror.update p f hOther).nodup

/-- Deletes the rows for which `p` does not hold. -/
def keep (t : Rows key other) (p : ρ → Bool) : Rows key other where
  rows := t.rows.filter p
  nodup := t.nodup.sublist (List.filter_sublist.map key)
  nodup_other := t.nodup_other.sublist (List.filter_sublist.map other)

theorem mem_keep {t : Rows key other} {p : ρ → Bool} {r : ρ} :
    r ∈ (t.keep p).rows ↔ r ∈ t.rows ∧ p r = true :=
  List.mem_filter

/-- Two rows of one key are the same row. -/
theorem eq_of_key {t : Rows key other} {r r' : ρ} (h : r ∈ t.rows)
    (h' : r' ∈ t.rows) (hKey : key r = key r') : r = r' :=
  List.inj_on_of_nodup_map t.nodup h h' hKey

theorem eq_of_other {t : Rows key other} {r r' : ρ} (h : r ∈ t.rows)
    (h' : r' ∈ t.rows) (hOther : other r = other r') : r = r' :=
  List.inj_on_of_nodup_map t.nodup_other h h' hOther

variable [DecidableEq ι]

/-- The row of a value of the other key. -/
def byOther? (t : Rows key other) (k : ι) : Option ρ := t.mirror.find? k

theorem byOther?_eq_some_iff {t : Rows key other} {k : ι} {r : ρ} :
    t.byOther? k = some r ↔ r ∈ t.rows ∧ other r = k :=
  Table.find?_eq_some_iff

theorem byOther?_of_mem {t : Rows key other} {r : ρ} (h : r ∈ t.rows) :
    t.byOther? (other r) = some r :=
  byOther?_eq_some_iff.mpr ⟨h, rfl⟩

theorem byOther?_eq_none_iff {t : Rows key other} {k : ι} :
    t.byOther? k = none ↔ ∀ r ∈ t.rows, other r ≠ k := by
  simp only [byOther?, Table.find?, mirror, List.find?_eq_none,
    decide_eq_true_eq, ne_eq]

/-! ## Inserting -/

variable [DecidableEq κ]

/-- Whether neither key of a row is taken. -/
def Free (t : Rows key other) (row : ρ) : Prop :=
  ∀ r ∈ t.rows, key r ≠ key row ∧ other r ≠ other row

instance (t : Rows key other) (row : ρ) : Decidable (t.Free row) :=
  inferInstanceAs (Decidable (∀ r ∈ t.rows, _))

omit [DecidableEq ι] [DecidableEq κ] in
theorem nodup_append_singleton {α : Type} {f : ρ → α} {rows : List ρ}
    {row : ρ} (h : (rows.map f).Nodup) (hFree : ∀ r ∈ rows, f r ≠ f row) :
    ((rows ++ [row]).map f).Nodup := by
  rw [List.map_append, List.map_singleton, List.nodup_append]
  refine ⟨h, List.nodup_singleton _, ?_⟩
  intro a ha b hb hEq
  obtain ⟨r, hr, rfl⟩ := List.mem_map.mp ha
  exact hFree r hr (hEq.trans (List.mem_singleton.mp hb))

/-- `INSERT`, which fails on a key that is taken. -/
def insert? (t : Rows key other) (row : ρ) : Option (Rows key other) :=
  if h : t.Free row then
    some {
      rows := t.rows ++ [row]
      nodup := nodup_append_singleton t.nodup fun r hr => (h r hr).1
      nodup_other :=
        nodup_append_singleton t.nodup_other fun r hr => (h r hr).2 }
  else none

theorem insert?_eq_some {t t' : Rows key other} {row : ρ} :
    t.insert? row = some t' ↔ t.Free row ∧ t'.rows = t.rows ++ [row] := by
  unfold insert?
  split
  · rename_i hFree
    rw [Option.some.injEq]
    constructor
    · rintro rfl
      exact ⟨hFree, rfl⟩
    · rintro ⟨-, hRows⟩
      exact ext_rows hRows.symm
  · rename_i hTaken
    constructor
    · intro h
      cases h
    · exact fun h => absurd h.1 hTaken

theorem insert?_eq_none {t : Rows key other} {row : ρ} :
    t.insert? row = none ↔ ¬t.Free row := by
  unfold insert?
  split
  · rename_i hFree
    constructor
    · intro h
      cases h
    · exact fun h => absurd hFree h
  · rename_i hTaken
    exact ⟨fun _ => hTaken, fun _ => rfl⟩

theorem byOther?_insert? {t t' : Rows key other} {row : ρ}
    (h : t.insert? row = some t') (k : ι) :
    t'.byOther? k = if k = other row then some row else t.byOther? k := by
  obtain ⟨hFree, hRows⟩ := insert?_eq_some.mp h
  split
  · rename_i hKey
    rw [byOther?_eq_some_iff, hRows]
    exact ⟨List.mem_append_right _ (List.mem_singleton_self row), hKey.symm⟩
  · rename_i hKey
    have hMiss : ¬other row = k := fun hEq => hKey hEq.symm
    simp [byOther?, Table.find?, mirror, hRows, List.find?_append, hMiss]

/-- Changing the row of a key changes the lookup of that row alone. -/
theorem byOther?_updateKey {t : Rows key other} {row : ρ} {f : ρ → ρ}
    {hf : ∀ r, key (f r) = key r} {hOther : ∀ r, other (f r) = other r}
    (h : row ∈ t.rows) (k : ι) :
    (t.update (fun r => key r = key row) f hf hOther).byOther? k =
      if k = other row then some (f row) else t.byOther? k := by
  have hFind : (t.update (fun r => key r = key row) f hf hOther).byOther? k =
      (t.byOther? k).map fun r =>
        if (decide (key r = key row)) = true then f r else r :=
    Table.find?_update t.mirror _ f hOther k
  rw [hFind]
  split
  · rename_i hKey
    rw [hKey, byOther?_of_mem h, Option.map_some, decide_eq_true rfl,
      if_pos rfl]
  · rename_i hKey
    cases hOld : t.byOther? k with
    | none => rfl
    | some r =>
        obtain ⟨hMem, hEq⟩ := byOther?_eq_some_iff.mp hOld
        have hNe : key r ≠ key row := by
          intro hSame
          exact hKey (by rw [← hEq, eq_of_key hMem h hSame])
        rw [Option.map_some, if_neg (by simp [hNe])]

end Rows

end OpenApe.Verified.KeyedTable
