import OpenApe.Ports.CliPermissions

/-!
# What merging keeps

`mergeCliAuthorizationDetails` inserts the details into a map keyed by their
canonical permission, where the first detail of a permission stays.  Here the
map is replaced by the list it leaves: the details no earlier one shares its
permission with, each under its canonical permission.
-/

namespace OpenApe.Ports.CliPermissionsMerging

open Verified.JsText
open GrantTypes CliPermissions

variable [Collation]

/-- The detail under its canonical permission. -/
def canonicalized (detail : CliAuthorizationDetail) : CliAuthorizationDetail :=
  { detail with permission := canonicalPermission detail }

@[simp] theorem canonicalPermission_canonicalized
    (detail : CliAuthorizationDetail) :
    canonicalPermission (canonicalized detail) =
      canonicalPermission detail := rfl

/-- The first details of the permissions that were not seen. -/
def firstByPermission (seen : List JsString) :
    List CliAuthorizationDetail → List CliAuthorizationDetail
  | [] => []
  | detail :: rest =>
      if canonicalPermission detail ∈ seen then firstByPermission seen rest
      else canonicalized detail ::
        firstByPermission (canonicalPermission detail :: seen) rest

/-- The map accumulates exactly the first details. -/
private theorem foldl_mergeStep
    (byPermission : List (JsString × CliAuthorizationDetail))
    {seen : List JsString} (details : List CliAuthorizationDetail)
    (hSeen : ∀ key, key ∈ seen ↔ key ∈ byPermission.map Prod.fst) :
    (details.foldl mergeStep byPermission).map Prod.snd =
      byPermission.map Prod.snd ++ firstByPermission seen details := by
  induction details generalizing byPermission seen with
  | nil => simp [firstByPermission]
  | cons detail rest ih =>
      rw [List.foldl_cons]
      by_cases hMem : canonicalPermission detail ∈ seen
      · have hStep : mergeStep byPermission detail = byPermission := by
          have hAny := (hSeen _).mp hMem
          simp only [List.mem_map] at hAny
          simp only [mergeStep, List.any_eq_true, beq_iff_eq, if_pos hAny]
        rw [hStep, ih byPermission hSeen]
        simp [firstByPermission, hMem]
      · have hStep : mergeStep byPermission detail = byPermission ++
            [(canonicalPermission detail, canonicalized detail)] := by
          have hAny := mt (hSeen _).mpr hMem
          simp only [List.mem_map] at hAny
          simp only [mergeStep, List.any_eq_true, beq_iff_eq, if_neg hAny]
          rfl
        have hGrown : ∀ key, key ∈ canonicalPermission detail :: seen ↔
            key ∈ (byPermission ++ [(canonicalPermission detail,
              canonicalized detail)]).map Prod.fst := by
          intro key
          simp only [List.mem_cons, hSeen, List.map_append, List.map_cons,
            List.map_nil, List.mem_append, List.not_mem_nil, or_false]
          exact or_comm
        rw [hStep, ih _ hGrown]
        simp [firstByPermission, hMem]

/-- **What a merge returns.** -/
theorem mergeCliAuthorizationDetails_eq
    (detailSets : List (List CliAuthorizationDetail)) :
    mergeCliAuthorizationDetails detailSets =
      firstByPermission [] detailSets.flatten :=
  foldl_mergeStep [] detailSets.flatten (fun _ => Iff.rfl)

/-- A detail stands in a list before every other of its permission. -/
def FirstOfPermission (details : List CliAuthorizationDetail)
    (detail : CliAuthorizationDetail) : Prop :=
  ∃ before after, details = before ++ detail :: after ∧
    ∀ earlier ∈ before,
      canonicalPermission earlier ≠ canonicalPermission detail

theorem mem_firstByPermission {seen : List JsString}
    {details : List CliAuthorizationDetail} {kept : CliAuthorizationDetail} :
    kept ∈ firstByPermission seen details ↔
      ∃ detail, FirstOfPermission details detail ∧
        canonicalPermission detail ∉ seen ∧ kept = canonicalized detail := by
  induction details generalizing seen with
  | nil => simp [firstByPermission, FirstOfPermission]
  | cons first rest ih =>
      have hFirst : ∀ detail, FirstOfPermission (first :: rest) detail ↔
          detail = first ∨ (FirstOfPermission rest detail ∧
            canonicalPermission first ≠ canonicalPermission detail) := by
        intro detail
        constructor
        · rintro ⟨before, after, hSplit, hBefore⟩
          cases before with
          | nil => exact .inl (List.cons.inj hSplit).1.symm
          | cons earlier before =>
              obtain ⟨rfl, hRest⟩ := List.cons.inj hSplit
              exact .inr ⟨⟨before, after, hRest, fun other hOther =>
                hBefore other (List.mem_cons_of_mem _ hOther)⟩,
                hBefore first List.mem_cons_self⟩
        · rintro (rfl | ⟨⟨before, after, rfl, hBefore⟩, hNe⟩)
          · exact ⟨[], rest, rfl, by simp⟩
          · exact ⟨first :: before, after, rfl, by
              simpa using ⟨hNe, hBefore⟩⟩
      unfold firstByPermission
      split
      · rename_i hMem
        rw [ih]
        refine exists_congr (fun detail => ?_)
        rw [hFirst]
        constructor
        · rintro ⟨hRest, hNot, hKept⟩
          exact ⟨.inr ⟨hRest, fun hEq => hNot (hEq ▸ hMem)⟩, hNot, hKept⟩
        · rintro ⟨rfl | ⟨hRest, _⟩, hNot, hKept⟩
          · exact absurd hMem hNot
          · exact ⟨hRest, hNot, hKept⟩
      · rename_i hMem
        rw [List.mem_cons, ih]
        constructor
        · rintro (hKept | ⟨detail, hRest, hNot, hKept⟩)
          · exact ⟨first, (hFirst first).mpr (.inl rfl), hMem, hKept⟩
          · simp only [List.mem_cons, not_or] at hNot
            exact ⟨detail, (hFirst detail).mpr
              (.inr ⟨hRest, fun hEq => hNot.1 hEq.symm⟩), hNot.2, hKept⟩
        · rintro ⟨detail, hDetail, hNot, hKept⟩
          rcases (hFirst detail).mp hDetail with rfl | ⟨hRest, hNe⟩
          · exact .inl hKept
          · refine .inr ⟨detail, hRest, ?_, hKept⟩
            simp only [List.mem_cons, not_or]
            exact ⟨fun hEq => hNe hEq.symm, hNot⟩

/-- A detail is in a merge exactly when it is first among all details. -/
theorem mem_mergeCliAuthorizationDetails
    {detailSets : List (List CliAuthorizationDetail)}
    {kept : CliAuthorizationDetail} :
    kept ∈ mergeCliAuthorizationDetails detailSets ↔
      ∃ detail, FirstOfPermission detailSets.flatten detail ∧
        kept = canonicalized detail := by
  simp [mergeCliAuthorizationDetails_eq, mem_firstByPermission]

/-- Every detail of a merge stands under its canonical permission, and no two
share it. -/
private theorem firstByPermission_canonical (seen : List JsString)
    (details : List CliAuthorizationDetail) :
    ((firstByPermission seen details).map canonicalPermission).Nodup ∧
      ∀ kept ∈ firstByPermission seen details,
        canonicalPermission kept ∉ seen ∧
          kept.permission = canonicalPermission kept := by
  constructor
  · induction details generalizing seen with
    | nil => simp [firstByPermission]
    | cons detail rest ih =>
        unfold firstByPermission
        split
        · exact ih seen
        · rw [List.map_cons, List.nodup_cons]
          refine ⟨fun hMem => ?_, ih _⟩
          obtain ⟨kept, hKept, hEq⟩ := List.mem_map.mp hMem
          obtain ⟨first, _, hNot, rfl⟩ := mem_firstByPermission.mp hKept
          simp only [canonicalPermission_canonicalized] at hEq
          exact hNot (by simp [hEq])
  · intro kept hKept
    obtain ⟨detail, _, hNot, rfl⟩ := mem_firstByPermission.mp hKept
    exact ⟨hNot, rfl⟩

private theorem firstByPermission_of_nodup {seen : List JsString}
    {details : List CliAuthorizationDetail}
    (hNodup : (details.map canonicalPermission).Nodup)
    (hCanonical : ∀ detail ∈ details,
      detail.permission = canonicalPermission detail)
    (hFresh : ∀ detail ∈ details, canonicalPermission detail ∉ seen) :
    firstByPermission seen details = details := by
  induction details generalizing seen with
  | nil => rfl
  | cons detail rest ih =>
      rw [List.map_cons, List.nodup_cons] at hNodup
      have hSelf : canonicalized detail = detail := by
        have hPermission := hCanonical detail List.mem_cons_self
        unfold canonicalized
        rw [← hPermission]
      have hRest : firstByPermission (canonicalPermission detail :: seen)
          rest = rest := by
        refine ih hNodup.2 (fun other hOther =>
          hCanonical other (List.mem_cons_of_mem _ hOther)) ?_
        intro other hOther
        simp only [List.mem_cons, not_or]
        exact ⟨fun hEq => hNodup.1
            (List.mem_map.mpr ⟨other, hOther, hEq⟩),
          hFresh other (List.mem_cons_of_mem _ hOther)⟩
      rw [firstByPermission, if_neg (hFresh detail List.mem_cons_self),
        hSelf, hRest]

/-- A merge changes nothing exactly when every detail stands under its
canonical permission and no two share it. -/
theorem mergeCliAuthorizationDetails_eq_flatten_iff
    (detailSets : List (List CliAuthorizationDetail)) :
    mergeCliAuthorizationDetails detailSets = detailSets.flatten ↔
      (detailSets.flatten.map canonicalPermission).Nodup ∧
        ∀ detail ∈ detailSets.flatten,
          detail.permission = canonicalPermission detail := by
  rw [mergeCliAuthorizationDetails_eq]
  constructor
  · intro hEq
    obtain ⟨hNodup, hCanonical⟩ :=
      firstByPermission_canonical [] detailSets.flatten
    rw [hEq] at hNodup hCanonical
    exact ⟨hNodup, fun detail hDetail => (hCanonical detail hDetail).2⟩
  · rintro ⟨hNodup, hCanonical⟩
    exact firstByPermission_of_nodup hNodup hCanonical (by simp)

/-- What is dropped as seen need not be dropped before. -/
private theorem firstByPermission_again {seen seen' : List JsString}
    (h : seen' ⊆ seen) (details : List CliAuthorizationDetail)
    {rest rest' : List CliAuthorizationDetail}
    (hRest : ∀ seen, firstByPermission seen rest =
      firstByPermission seen rest') :
    firstByPermission seen (firstByPermission seen' details ++ rest) =
      firstByPermission seen (details ++ rest') := by
  induction details generalizing seen seen' with
  | nil => exact hRest seen
  | cons detail details ih =>
      rw [firstByPermission, List.cons_append, firstByPermission]
      by_cases hMem' : canonicalPermission detail ∈ seen'
      · rw [if_pos hMem', if_pos (h hMem'), ih h]
      · rw [if_neg hMem', List.cons_append, firstByPermission,
          canonicalPermission_canonicalized]
        by_cases hMem : canonicalPermission detail ∈ seen
        · rw [if_pos hMem, if_pos hMem, ih (List.cons_subset.mpr ⟨hMem, h⟩)]
        · rw [if_neg hMem, if_neg hMem, ih (List.cons_subset_cons _ h)]
          rfl

/-- **Merges compose**: details merged group by group and then together are
merged as at once. -/
theorem merge_regroups (groups : List (List (List CliAuthorizationDetail))) :
    mergeCliAuthorizationDetails
        (groups.map mergeCliAuthorizationDetails) =
      mergeCliAuthorizationDetails groups.flatten := by
  have hGroups : ∀ seen, firstByPermission seen
      (groups.map mergeCliAuthorizationDetails).flatten =
        firstByPermission seen groups.flatten.flatten := by
    induction groups with
    | nil => exact fun _ => rfl
    | cons group groups ih =>
        intro seen
        rw [List.map_cons, List.flatten_cons, List.flatten_cons,
          List.flatten_append, mergeCliAuthorizationDetails_eq]
        exact firstByPermission_again (List.nil_subset seen) _ ih
  simpa only [mergeCliAuthorizationDetails_eq] using hGroups []

end OpenApe.Ports.CliPermissionsMerging
