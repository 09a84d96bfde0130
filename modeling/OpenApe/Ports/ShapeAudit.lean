import Mathlib.Data.List.Pairwise
import OpenApe.Ports.ShapeImports

/-!
# The shape store and its audit

A store is `Consistent` when the names of each tier are apart, its size is
within the limit, and the audit of each shape is an unbroken chain that ends
in what is stored.  `Writes` is what one batch has to fit to keep it so; the
plan of an import and a removal fit it by what they read of the tier.
-/

namespace OpenApe.Ports.ShapeAudit

open Verified.JsText Verified.Fallible Verified.KeyedTable
  Verified.Programs.Program
open ShapeToml (TomlParser)
open ShapeTiers ShapeImports

/-! ## Chains of entries -/

/-- The digest and the text that the last entry leaves. -/
def lastDigest (changes : List ShapeChange) : Option JsString :=
  changes.foldl (fun _ c => c.digest) none

def lastToml (changes : List ShapeChange) : Option JsString :=
  changes.foldl (fun _ c => c.toml) none

/-- Each entry starts from what the entry before leaves. -/
def Chained : Option JsString → Option JsString → List ShapeChange → Prop
  | _, _, [] => True
  | digest, toml, c :: changes =>
      c.previousDigest = digest ∧ c.previousToml = toml ∧
        Chained c.digest c.toml changes

theorem lastDigest_concat (changes : List ShapeChange) (c : ShapeChange) :
    lastDigest (changes ++ [c]) = c.digest := by
  simp [lastDigest, List.foldl_append]

theorem lastToml_concat (changes : List ShapeChange) (c : ShapeChange) :
    lastToml (changes ++ [c]) = c.toml := by
  simp [lastToml, List.foldl_append]

private theorem chained_append {changes : List ShapeChange} {c : ShapeChange}
    {digest toml : Option JsString} (h : Chained digest toml changes)
    (hDigest : c.previousDigest = changes.foldl (fun _ c => c.digest) digest)
    (hToml : c.previousToml = changes.foldl (fun _ c => c.toml) toml) :
    Chained digest toml (changes ++ [c]) := by
  induction changes generalizing digest toml with
  | nil => exact ⟨hDigest, hToml, trivial⟩
  | cons first changes ih => exact ⟨h.1, h.2.1, ih h.2.2 hDigest hToml⟩

theorem chained_concat {changes : List ShapeChange} {c : ShapeChange}
    (h : Chained none none changes)
    (hDigest : c.previousDigest = lastDigest changes)
    (hToml : c.previousToml = lastToml changes) :
    Chained none none (changes ++ [c]) := chained_append h hDigest hToml

/-- The newest entry of the audit leaves the last text. -/
theorem head?_listShapeChanges {π : Type} (store : ShapeStore π)
    (tier : TierRef) (cliId : JsString) :
    (store.listShapeChanges tier 1 cliId).head?.bind ShapeChange.toml =
      lastToml (store.entries tier cliId) := by
  unfold ShapeStore.listShapeChanges
  rcases List.eq_nil_or_concat (store.entries tier cliId) with
    hNil | ⟨changes, c, hConcat⟩
  · simp [hNil, lastToml]
  · simp [hConcat, lastToml_concat]

/-! ## Consistent stores -/

section Store

variable {π : Type}

/-- The names of a tier are apart, its size is within the limit, and the
entries of every shape chain up to what is stored. -/
structure Consistent (store : ShapeStore π) : Prop where
  distinct : ∀ tier, ∀ a ∈ (store.tierMap tier).rows,
    ∀ b ∈ (store.tierMap tier).rows, a ≠ b → shares a b = false
  limited : ∀ tier, (store.tierMap tier).rows.length ≤ perScope tier.scope
  chained : ∀ tier cliId, Chained none none (store.entries tier cliId)
  current : ∀ tier cliId, lastDigest (store.entries tier cliId) =
    ((store.tierMap tier).find? cliId).map (·.digest)

/-- The text that the audit and the rows of a tier have of a shape. -/
structure TextsKept (tier : TierRef) (shapes : Shapes π) (cliId : JsString)
    (toml : Option JsString) : Prop where
  upper : tier.scope ≠ .instanceTier →
    toml = (shapes.find? cliId).bind (·.toml)
  absent : shapes.find? cliId = none → toml = none
  textless : tier.scope = .instanceTier →
    ∀ row ∈ shapes.find? cliId, row.toml = none

/-- A consistent store whose texts agree with its audit. -/
structure Sound (store : ShapeStore π) : Prop extends Consistent store where
  texts : ∀ tier cliId, TextsKept tier (store.tierMap tier) cliId
    (lastToml (store.entries tier cliId))

theorem sound_empty : Sound (ShapeStore.empty : ShapeStore π) := by
  have hRows : ∀ tier, (ShapeStore.empty : ShapeStore π).tierMap tier =
      Table.empty := by
    intro tier
    unfold ShapeStore.tierMap
    split <;> rfl
  refine ⟨⟨?_, ?_, fun _ _ => trivial, ?_⟩, ?_⟩
  · intro tier a ha
    rw [hRows] at ha
    cases ha
  · intro tier
    rw [hRows]
    exact Nat.zero_le _
  · intro tier cliId
    rw [hRows]
    rfl
  · intro tier cliId
    rw [hRows]
    exact ⟨fun _ => rfl, fun _ => rfl, fun _ row hRow => nomatch hRow⟩

theorem TierRef.ext_of {tier tier' : TierRef}
    (hScope : tier.scope = tier'.scope) (hKey : tier.key = tier'.key) :
    tier = tier' := by
  cases tier
  cases tier'
  cases hScope
  cases hKey
  rfl

theorem tierMap_setTierMap (store : ShapeStore π) (tier tier' : TierRef)
    (shapes : Shapes π) :
    (store.setTierMap tier shapes).tierMap tier' =
      if tier' = tier then shapes else store.tierMap tier' := by
  by_cases hTier : tier' = tier
  · rw [if_pos hTier, hTier]
    unfold ShapeStore.setTierMap ShapeStore.tierMap
    split <;> simp
  · rw [if_neg hTier]
    have hKeys : tier'.scope = tier.scope → tier'.key ≠ tier.key :=
      fun hScope hKey => hTier (TierRef.ext_of hScope hKey)
    unfold ShapeStore.setTierMap ShapeStore.tierMap
    cases hScope : tier.scope with
    | instanceTier =>
        cases hScope' : tier'.scope with
        | instanceTier =>
            exact absurd ((tier'.instanceKey hScope').trans
              (tier.instanceKey hScope).symm)
              (hKeys (hScope'.trans hScope.symm))
        | domain => rfl
        | personal => rfl
    | domain =>
        cases hScope' : tier'.scope with
        | instanceTier => rfl
        | domain =>
            exact Function.update_of_ne
              (hKeys (hScope'.trans hScope.symm)) _ _
        | personal => rfl
    | personal =>
        cases hScope' : tier'.scope with
        | instanceTier => rfl
        | domain => rfl
        | personal =>
            exact Function.update_of_ne
              (hKeys (hScope'.trans hScope.symm)) _ _

theorem audit_setTierMap (store : ShapeStore π) (tier : TierRef)
    (shapes : Shapes π) :
    (store.setTierMap tier shapes).audit = store.audit := by
  unfold ShapeStore.setTierMap
  split <;> rfl

/-- The shapes of the batch's tier after it. -/
def written (store : ShapeStore π) (batch : ShapeChangeBatch π) : Shapes π :=
  batch.save.foldl
    (fun shapes shape => shapes.put (ShapeStore.kept batch.tier shape))
    (batch.remove.foldl Table.remove (store.tierMap batch.tier))

theorem tierMap_apply (store : ShapeStore π) (batch : ShapeChangeBatch π)
    (tier : TierRef) :
    (store.applyShapeChanges batch).tierMap tier =
      if tier = batch.tier then written store batch
      else store.tierMap tier :=
  tierMap_setTierMap store batch.tier tier (written store batch)

theorem entries_apply (store : ShapeStore π) (batch : ShapeChangeBatch π)
    (tier : TierRef) (cliId : JsString) :
    (store.applyShapeChanges batch).entries tier cliId =
      store.entries tier cliId ++ batch.changes.filter (fun change =>
        change.scope = tier.scope ∧ change.scopeKey = tier.key ∧
          change.cliId = cliId) := by
  simp only [ShapeStore.entries, ShapeStore.applyShapeChanges,
    audit_setTierMap, List.filter_append]

/-! ## What a batch has to fit -/

/-- A batch that keeps its tier in order and records what it does. -/
structure Writes (store : ShapeStore π) (batch : ShapeChangeBatch π) :
    Prop where
  tiers : ∀ c ∈ batch.changes,
    c.scope = batch.tier.scope ∧ c.scopeKey = batch.tier.key
  nodup : (batch.changes.map ShapeChange.cliId).Nodup
  linked : ∀ c ∈ batch.changes,
    c.previousDigest = lastDigest (store.entries batch.tier c.cliId) ∧
      c.previousToml = lastToml (store.entries batch.tier c.cliId)
  recorded : ∀ c ∈ batch.changes,
    c.digest = ((written store batch).find? c.cliId).map (·.digest) ∧
      TextsKept batch.tier (written store batch) c.cliId c.toml
  frame : ∀ cliId, cliId ∉ batch.changes.map ShapeChange.cliId →
    (written store batch).find? cliId =
      (store.tierMap batch.tier).find? cliId
  distinct : ∀ a ∈ (written store batch).rows,
    ∀ b ∈ (written store batch).rows, a ≠ b → shares a b = false
  limited : (written store batch).rows.length ≤ perScope batch.tier.scope

/-- The entries of a shape after a batch: one more where the batch records
it. -/
theorem entries_cases {store : ShapeStore π} {batch : ShapeChangeBatch π}
    (h : Writes store batch) (tier : TierRef) (cliId : JsString) :
    ((tier ≠ batch.tier ∨
          cliId ∉ batch.changes.map ShapeChange.cliId) ∧
        (store.applyShapeChanges batch).entries tier cliId =
          store.entries tier cliId) ∨
      (tier = batch.tier ∧ ∃ c ∈ batch.changes, c.cliId = cliId ∧
        (store.applyShapeChanges batch).entries tier cliId =
          store.entries tier cliId ++ [c]) := by
  rw [entries_apply]
  by_cases hTier : tier = batch.tier
  · have hFilter : batch.changes.filter (fun change =>
        change.scope = tier.scope ∧ change.scopeKey = tier.key ∧
          change.cliId = cliId) =
        batch.changes.filter (fun change => change.cliId = cliId) := by
      refine List.filter_congr (fun c hc => ?_)
      obtain ⟨hScope, hKey⟩ := h.tiers c hc
      simp [hTier, hScope, hKey]
    rw [hFilter]
    by_cases hMem : cliId ∈ batch.changes.map ShapeChange.cliId
    · obtain ⟨c, hc, rfl⟩ := List.mem_map.mp hMem
      refine .inr ⟨hTier, c, hc, rfl, ?_⟩
      congr 1
      exact Table.filter_key_eq h.nodup hc
    · refine .inl ⟨.inr hMem, ?_⟩
      rw [List.filter_eq_nil_iff.mpr, List.append_nil]
      intro c hc hKey
      exact hMem (List.mem_map.mpr ⟨c, hc, of_decide_eq_true hKey⟩)
  · refine .inl ⟨.inl hTier, ?_⟩
    rw [List.filter_eq_nil_iff.mpr, List.append_nil]
    intro c hc hSelected
    obtain ⟨hScope, hKey⟩ := h.tiers c hc
    obtain ⟨hScope', hKey', -⟩ := of_decide_eq_true hSelected
    exact hTier (TierRef.ext_of (hScope'.symm.trans hScope)
      (hKey'.symm.trans hKey))

/-- **One write** keeps the store sound. -/
theorem sound_apply {store : ShapeStore π} {batch : ShapeChangeBatch π}
    (hStore : Sound store) (h : Writes store batch) :
    Sound (store.applyShapeChanges batch) := by
  refine ⟨⟨?_, ?_, ?_, ?_⟩, ?_⟩
  · intro tier
    rw [tierMap_apply]
    split
    · exact h.distinct
    · exact hStore.distinct tier
  · intro tier
    rw [tierMap_apply]
    split
    · rename_i hTier
      exact hTier ▸ h.limited
    · exact hStore.limited tier
  · intro tier cliId
    rcases entries_cases h tier cliId with
      ⟨_, hSame⟩ | ⟨rfl, c, hc, rfl, hMore⟩
    · rw [hSame]
      exact hStore.chained tier cliId
    · rw [hMore]
      obtain ⟨hDigest, hToml⟩ := h.linked c hc
      exact chained_concat (hStore.chained _ _) hDigest hToml
  · intro tier cliId
    rw [tierMap_apply]
    rcases entries_cases h tier cliId with
      ⟨hOther, hSame⟩ | ⟨rfl, c, hc, rfl, hMore⟩
    · rw [hSame, hStore.current tier cliId]
      split
      · rename_i hTier
        rw [h.frame cliId (hOther.resolve_left (not_not.mpr hTier)), hTier]
      · rfl
    · rw [hMore, lastDigest_concat, if_pos rfl]
      exact (h.recorded c hc).1
  · intro tier cliId
    rw [tierMap_apply]
    rcases entries_cases h tier cliId with
      ⟨hOther, hSame⟩ | ⟨rfl, c, hc, rfl, hMore⟩
    · have hTexts := hStore.texts tier cliId
      rw [hSame]
      split
      · rename_i hTier
        have hFrame := h.frame cliId
          (hOther.resolve_left (not_not.mpr hTier))
        rw [← hTier] at hFrame
        exact ⟨by rw [hFrame]; exact hTexts.upper,
          by rw [hFrame]; exact hTexts.absent,
          by rw [hFrame]; exact hTexts.textless⟩
      · exact hTexts
    · rw [hMore, lastToml_concat, if_pos rfl]
      exact (h.recorded c hc).2

end Store

/-! ## Names -/

section Names

variable {π : Type}

theorem shares_eq_true {a b : StoredShape π} :
    shares a b = true ↔ ∃ name ∈ names a, name ∈ names b := by
  simp [shares]

theorem shares_comm (a b : StoredShape π) : shares a b = shares b a := by
  rw [Bool.eq_iff_iff, shares_eq_true, shares_eq_true]
  constructor
  · rintro ⟨name, ha, hb⟩
    exact ⟨name, hb, ha⟩
  · rintro ⟨name, hb, ha⟩
    exact ⟨name, ha, hb⟩

theorem shares_of_cliId {a b : StoredShape π} (h : a.cliId = b.cliId) :
    shares a b = true :=
  shares_eq_true.mpr ⟨a.cliId, by simp [names], by simp [names, h]⟩

theorem shares_congr {a a' b b' : StoredShape π} (ha : names a = names a')
    (hb : names b = names b') : shares a b = shares a' b' := by
  unfold shares
  rw [ha, hb]

/-- No two shapes of the list share a name. -/
abbrev Apart (shapes : List (StoredShape π)) : Prop :=
  shapes.Pairwise (fun a b => shares a b = false)

theorem cliIds_nodup {shapes : List (StoredShape π)} (h : Apart shapes) :
    (shapes.map (·.cliId)).Nodup := by
  rw [List.Nodup, List.pairwise_map]
  refine h.imp (fun {a b} hApart hId => ?_)
  rw [shares_of_cliId hId] at hApart
  cases hApart

theorem apart_of_checkTwins {before shapes : List (StoredShape π)}
    (h : checkTwins before shapes = .ok ()) :
    Apart shapes ∧ ∀ b ∈ before, ∀ shape ∈ shapes, shares b shape = false := by
  induction shapes generalizing before with
  | nil => exact ⟨.nil, fun _ _ _ hMem => nomatch hMem⟩
  | cons shape shapes ih =>
      unfold checkTwins at h
      cases hTwin : before.find? (fun other => shares other shape) with
      | some twin => simp [hTwin] at h
      | none =>
          rw [hTwin] at h
          obtain ⟨hApart, hBefore⟩ := ih h
          refine ⟨.cons (fun other hOther => hBefore shape (by simp) other
            hOther) hApart, fun b hb other hOther => ?_⟩
          rcases List.mem_cons.mp hOther with rfl | hRest
          · simpa using List.find?_eq_none.mp hTwin b hb
          · exact hBefore b (by simp [hb]) other hRest

theorem apart_of_checkClashes {scope : ShapeTier}
    {kept shapes : List (StoredShape π)}
    (h : checkClashes scope kept shapes = .ok ()) :
    ∀ shape ∈ shapes, ∀ other ∈ kept, shares other shape = false := by
  induction shapes with
  | nil => exact fun _ hMem => nomatch hMem
  | cons shape shapes ih =>
      unfold checkClashes at h
      cases hClash : kept.find? (fun other => shares other shape) with
      | some clash => simp [hClash] at h
      | none =>
          rw [hClash] at h
          refine List.forall_mem_cons.mpr ⟨fun other hOther => ?_, ih h⟩
          simpa using List.find?_eq_none.mp hClash other hOther

theorem names_keepDescription (scope : ShapeTier)
    (existing : List (StoredShape π)) (item : ImportItem)
    (shape : StoredShape π) :
    names (keepDescription scope existing item shape) = names shape := by
  unfold keepDescription
  split
  · split <;> rfl
  · rfl

private theorem map_snd_zip_sublist {α β : Type} (as : List α)
    (bs : List β) : ((as.zip bs).map Prod.snd).Sublist bs := by
  induction as generalizing bs with
  | nil => exact List.nil_sublist bs
  | cons a as ih =>
      cases bs with
      | nil => exact .slnil
      | cons b bs => exact (ih bs).cons_cons b

/-- Keeping descriptions leaves the names of a batch apart. -/
theorem apart_keepDescription (scope : ShapeTier)
    (existing : List (StoredShape π)) (items : List ImportItem)
    {shapes : List (StoredShape π)} (h : Apart shapes) :
    Apart ((items.zip shapes).map (fun item =>
      keepDescription scope existing item.1 item.2)) := by
  rw [Apart, List.pairwise_map]
  have hShapes : ((items.zip shapes).map Prod.snd).Pairwise
      (fun a b => shares a b = false) :=
    h.sublist (map_snd_zip_sublist items shapes)
  rw [List.pairwise_map] at hShapes
  refine hShapes.imp (fun {a b} hApart => ?_)
  rw [shares_congr (names_keepDescription scope existing a.1 a.2)
    (names_keepDescription scope existing b.1 b.2)]
  exact hApart

end Names

/-! ## The plan of an import -/

section Stored

variable {π : Type}

/-- What a tier keeps of a shape that is saved. -/
def stored (tier : TierRef) (shape : StoredShape π) : StoredShape π :=
  ShapeStore.kept tier (handed tier.scope shape)

theorem names_stored (tier : TierRef) (shape : StoredShape π) :
    names (stored tier shape) = names shape := by
  unfold stored ShapeStore.kept handed
  split <;> split_ifs <;> rfl

theorem stored_cliId (tier : TierRef) (shape : StoredShape π) :
    (stored tier shape).cliId = shape.cliId := by
  unfold stored ShapeStore.kept handed
  split <;> split_ifs <;> rfl

theorem stored_digest (tier : TierRef) (shape : StoredShape π) :
    (stored tier shape).digest = shape.digest := by
  unfold stored ShapeStore.kept handed
  split <;> split_ifs <;> rfl

theorem stored_toml (tier : TierRef) (shape : StoredShape π) :
    (stored tier shape).toml =
      if tier.scope = .instanceTier then none else shape.toml := by
  unfold stored ShapeStore.kept handed
  split <;> split_ifs <;> simp_all

/-- The texts of a shape that is saved. -/
theorem textsKept_stored {tier : TierRef} {shapes : Shapes π}
    {shape : StoredShape π}
    (h : shapes.find? shape.cliId = some (stored tier shape)) :
    TextsKept tier shapes shape.cliId shape.toml := by
  refine ⟨fun hScope => ?_, fun hNone => ?_, fun hScope row hRow => ?_⟩
  · rw [h, Option.bind_some, stored_toml, if_neg hScope]
  · rw [h] at hNone
    cases hNone
  · rw [h] at hRow
    cases hRow
    rw [stored_toml, if_pos hScope]

/-- The texts of a shape that is gone. -/
theorem textsKept_none {tier : TierRef} {shapes : Shapes π}
    {cliId : JsString} (h : shapes.find? cliId = none) :
    TextsKept tier shapes cliId none :=
  ⟨fun _ => by rw [h]; rfl, fun _ => rfl, fun _ row hRow => by
    rw [h] at hRow
    cases hRow⟩

theorem cliId_of_find? {shapes : Shapes π} {cliId : JsString}
    {row : StoredShape π} (h : shapes.find? cliId = some row) :
    row.cliId = cliId := by
  have hKey := Table.key_of_find? h
  exact hKey

/-- What an entry records of the shape before it, where the texts of
IdP-wide shapes were read from the audit. -/
theorem linked_change {store : ShapeStore π} (hStore : Sound store)
    {writer : ShapeWriter} {source : Option ImportSource} {now : Int}
    {tomls : List (JsString × JsString)} {action : ChangeAction}
    {cliId : JsString} {previous next : Option (StoredShape π)}
    (hPrevious : (store.tierMap writer.toTierRef).find? cliId = previous)
    (hUpper : writer.scope ≠ .instanceTier → tomls = [])
    (hInstance : writer.scope = .instanceTier → previous.isSome →
      tomls.lookup cliId = lastToml (store.entries writer.toTierRef cliId)) :
    (change writer source now tomls action previous next).previousDigest =
        lastDigest (store.entries writer.toTierRef cliId) ∧
      (change writer source now tomls action previous next).previousToml =
        lastToml (store.entries writer.toTierRef cliId) := by
  constructor
  · rw [hStore.current writer.toTierRef cliId, hPrevious]
    rfl
  have hTexts := hStore.texts writer.toTierRef cliId
  cases previous with
  | none =>
      rw [hTexts.absent hPrevious]
      rfl
  | some row =>
      have hKey := cliId_of_find? hPrevious
      simp only [change, Option.bind_some]
      by_cases hScope : writer.scope = .instanceTier
      · rw [hTexts.textless hScope row hPrevious, hKey,
          ← hInstance hScope rfl]
        rfl
      · rw [hUpper hScope, hTexts.upper hScope, hPrevious]
        simp

end Stored

section Import

variable {π : Type} [DecidableEq π]

theorem names_of_unchanged {scope : ShapeTier}
    {previous : Option (StoredShape π)} {shape : StoredShape π}
    (h : compareShape scope previous shape = .unchanged) :
    ∃ row, previous = some row ∧ names row = names shape := by
  cases previous with
  | none => cases h
  | some row =>
      refine ⟨row, rfl, ?_⟩
      simp only [compareShape, ne_eq] at h
      split_ifs at h with hDigest hSame
      unfold content at hSame
      split_ifs at hSame <;> simp_all [names]

/-- The batch that an import hands to the store. -/
def importBatch (writer : ShapeWriter) (source : Option ImportSource)
    (now : Int) (tomls : List (JsString × JsString)) (plan : Plan π) :
    ShapeChangeBatch π where
  tier := writer.toTierRef
  save := plan.save.map (handed writer.scope)
  remove := plan.report.removed
  changes := planChanges writer source now tomls plan

variable {store : ShapeStore π} {writer : ShapeWriter} {dryRun prune : Bool}
  {now : Int} {incoming existing : List (StoredShape π)}
  {source : Option ImportSource} {tomls : List (JsString × JsString)}

/-- A batch that passed its checks against the tier. -/
structure Checked (store : ShapeStore π) (writer : ShapeWriter) (prune : Bool)
    (incoming existing : List (StoredShape π)) : Prop where
  read : existing.Perm (store.tierMap writer.toTierRef).rows
  apart : Apart incoming
  checked : checkBatch writer.scope prune incoming existing = .ok ()

omit [DecidableEq π] in
theorem Checked.clashFree (h : Checked store writer prune incoming existing) :
    (∀ shape ∈ incoming, ∀ other ∈ staying prune incoming existing,
        shares other shape = false) ∧
      (staying prune incoming existing).length + incoming.length ≤
        perScope writer.scope := by
  obtain ⟨_, _, hChecked⟩ := bind_eq_ok.mp h.checked
  obtain ⟨_, hClashes, hLimit⟩ := bind_eq_ok.mp hChecked
  refine ⟨apart_of_checkClashes hClashes, ?_⟩
  by_contra hMore
  rw [checkLimit, if_pos (not_le.mp hMore)] at hLimit
  cases hLimit

omit [DecidableEq π] in
theorem Checked.previousOf_eq
    (h : Checked store writer prune incoming existing) (cliId : JsString) :
    previousOf existing cliId =
      (store.tierMap writer.toTierRef).find? cliId :=
  Table.find?_perm h.read cliId

/-- The incoming shapes that are saved. -/
def changed (writer : ShapeWriter) (incoming existing : List (StoredShape π)) :
    List (StoredShape π) :=
  incoming.filter (fun shape => compareShape writer.scope
    (previousOf existing shape.cliId) shape ≠ .unchanged)

/-- The row of an incoming shape that is saved. -/
def savedRow (writer : ShapeWriter) (now : Int)
    (existing : List (StoredShape π)) (shape : StoredShape π) :
    StoredShape π :=
  stored writer.toTierRef
    (savedShape writer now (previousOf existing shape.cliId) shape)

theorem written_import :
    written store (importBatch writer source now tomls
        (planBatch writer dryRun prune now incoming existing)) =
      ((changed writer incoming existing).map
        (savedRow writer now existing)).foldl Table.put
        (((pruned prune incoming existing).map (·.cliId)).foldl Table.remove
          (store.tierMap writer.toTierRef)) := by
  simp only [written, importBatch, planBatch, List.foldl_map, List.map_map,
    changed, savedRow, stored]
  rfl

variable (h : Checked store writer prune incoming existing)

include h

/-- What the store has of a shape after the import. -/
theorem find?_written_changed {shape : StoredShape π}
    (hShape : shape ∈ changed writer incoming existing) :
    (written store (importBatch writer source now tomls
      (planBatch writer dryRun prune now incoming existing))).find?
        shape.cliId = some (savedRow writer now existing shape) := by
  have hIds : ((changed writer incoming existing).map
      (savedRow writer now existing)).map (·.cliId) =
      (changed writer incoming existing).map (·.cliId) := by
    rw [List.map_map]
    exact List.map_congr_left (fun shape _ => stored_cliId _ _)
  have hNodup : (((changed writer incoming existing).map
      (savedRow writer now existing)).map (·.cliId)).Nodup := by
    rw [hIds]
    exact (cliIds_nodup h.apart).sublist (List.filter_sublist.map _)
  rw [written_import]
  have hRow := Table.find?_foldl_put_of_mem hNodup
    (List.mem_map_of_mem (f := savedRow writer now existing) hShape)
  have hKey : (savedRow writer now existing shape).cliId = shape.cliId :=
    stored_cliId _ _
  rw [← hKey]
  exact hRow _

omit h in
theorem find?_written_other {cliId : JsString}
    (hId : cliId ∉ (changed writer incoming existing).map (·.cliId)) :
    (written store (importBatch writer source now tomls
      (planBatch writer dryRun prune now incoming existing))).find? cliId =
      (((pruned prune incoming existing).map (·.cliId)).foldl Table.remove
        (store.tierMap writer.toTierRef)).find? cliId := by
  have hOther : cliId ∉ ((changed writer incoming existing).map
      (savedRow writer now existing)).map (·.cliId) := by
    rw [List.map_map]
    intro hMem
    obtain ⟨shape, hShape, hKey⟩ := List.mem_map.mp hMem
    have hSaved : (savedRow writer now existing shape).cliId = shape.cliId :=
      stored_cliId _ _
    exact hId (List.mem_map.mpr ⟨shape, hShape, hSaved.symm.trans hKey⟩)
  rw [written_import, Table.find?_foldl_put_of_notMem hOther]

omit h in
theorem find?_written_pruned {row : StoredShape π}
    (hRow : row ∈ pruned prune incoming existing) :
    (written store (importBatch writer source now tomls
      (planBatch writer dryRun prune now incoming existing))).find?
        row.cliId = none := by
  have hUnnamed : row.cliId ∉ incoming.map (·.cliId) := by
    unfold pruned at hRow
    split at hRow
    · exact of_decide_eq_true (List.mem_filter.mp hRow).2
    · cases hRow
  rw [find?_written_other, Table.find?_foldl_remove,
    if_pos (List.mem_map_of_mem hRow)]
  intro hMem
  obtain ⟨shape, hShape, hKey⟩ := List.mem_map.mp hMem
  exact hUnnamed (List.mem_map.mpr
    ⟨shape, List.mem_of_mem_filter hShape, hKey⟩)

omit h in
theorem find?_written_of_notMem {cliId : JsString}
    (hId : cliId ∉ (changed writer incoming existing).map (·.cliId))
    (hStays : cliId ∉ (pruned prune incoming existing).map (·.cliId)) :
    (written store (importBatch writer source now tomls
      (planBatch writer dryRun prune now incoming existing))).find? cliId =
      (store.tierMap writer.toTierRef).find? cliId := by
  rw [find?_written_other hId, Table.find?_foldl_remove, if_neg hStays]

omit h in
theorem mem_changed_or (writer : ShapeWriter)
    (existing : List (StoredShape π)) {shape : StoredShape π}
    (hShape : shape ∈ incoming) :
    shape ∈ changed writer incoming existing ∨
      ∃ row, previousOf existing shape.cliId = some row ∧
        names row = names shape := by
  by_cases hSame : compareShape writer.scope
      (previousOf existing shape.cliId) shape = .unchanged
  · exact .inr (names_of_unchanged hSame)
  · exact .inl (List.mem_filter.mpr ⟨hShape, decide_eq_true hSame⟩)

/-- Every shape of the tier after the import has the names of an incoming
shape, or of one that stayed. -/
theorem exists_names_of_written {row : StoredShape π}
    (hRow : row ∈ (written store (importBatch writer source now tomls
      (planBatch writer dryRun prune now incoming existing))).rows) :
    ∃ shape ∈ staying prune incoming existing ++ incoming,
      names row = names shape := by
  have hFound := Table.find?_of_mem hRow
  by_cases hChanged : row.cliId ∈
      (changed writer incoming existing).map (·.cliId)
  · obtain ⟨shape, hShape, hKey⟩ := List.mem_map.mp hChanged
    rw [← hKey, find?_written_changed h hShape] at hFound
    refine ⟨shape, List.mem_append_right _
      (List.mem_of_mem_filter hShape), ?_⟩
    rw [← Option.some.inj hFound]
    exact names_stored _ _
  · have hStays : row.cliId ∉ (pruned prune incoming existing).map
        (·.cliId) := by
      intro hMem
      obtain ⟨gone, hGone, hKey⟩ := List.mem_map.mp hMem
      rw [← hKey, find?_written_pruned hGone] at hFound
      cases hFound
    rw [find?_written_of_notMem hChanged hStays] at hFound
    have hOld : row ∈ existing :=
      h.read.mem_iff.mpr (Table.mem_of_find? hFound)
    by_cases hNamed : row.cliId ∈ incoming.map (·.cliId)
    · obtain ⟨shape, hShape, hKey⟩ := List.mem_map.mp hNamed
      rcases mem_changed_or writer existing hShape with
        hSaved | ⟨other, hOther, hNames⟩
      · exact absurd (List.mem_map.mpr ⟨shape, hSaved, hKey⟩) hChanged
      · rw [hKey, h.previousOf_eq, hFound] at hOther
        cases hOther
        exact ⟨shape, List.mem_append_right _ hShape, hNames⟩
    · refine ⟨row, List.mem_append_left _ ?_, rfl⟩
      have hUnnamed : row ∈ unnamed incoming existing :=
        List.mem_filter.mpr ⟨hOld, decide_eq_true hNamed⟩
      cases prune with
      | true => exact absurd (List.mem_map_of_mem hUnnamed) hStays
      | false => exact hUnnamed

omit [DecidableEq π] in
/-- The incoming shapes and those that stay are apart. -/
theorem apart_of_checked (hStore : Sound store) {a b : StoredShape π}
    (ha : a ∈ staying prune incoming existing ++ incoming)
    (hb : b ∈ staying prune incoming existing ++ incoming)
    (hId : a.cliId ≠ b.cliId) : shares a b = false := by
  have hStay : ∀ c ∈ staying prune incoming existing,
      c ∈ (store.tierMap writer.toTierRef).rows := by
    intro c hc
    unfold staying at hc
    split at hc
    · cases hc
    · exact h.read.mem_iff.mp (List.mem_of_mem_filter hc)
  have hNe : a ≠ b := fun hEq => hId (congrArg (·.cliId) hEq)
  rcases List.mem_append.mp ha with ha | ha
  · rcases List.mem_append.mp hb with hb | hb
    · exact hStore.distinct _ a (hStay a ha) b (hStay b hb) hNe
    · exact h.clashFree.1 b hb a ha
  · rcases List.mem_append.mp hb with hb | hb
    · rw [shares_comm]
      exact h.clashFree.1 a ha b hb
    · have hSymm : Std.Symm (fun a b : StoredShape π => shares a b = false) :=
        ⟨fun a b hApart => by rw [shares_comm]; exact hApart⟩
      exact h.apart.forall ha hb hNe

omit h in
theorem mem_planChanges {c : ShapeChange}
    (hMem : c ∈ planChanges writer source now tomls
      (planBatch writer dryRun prune now incoming existing)) :
    (∃ shape ∈ changed writer incoming existing, ∃ action,
      c = change writer source now tomls action
        (previousOf existing shape.cliId)
        (some (savedShape writer now (previousOf existing shape.cliId)
          shape))) ∨
    (∃ row ∈ pruned prune incoming existing,
      c = change writer source now tomls .remove (some row) none) := by
  rcases List.mem_append.mp hMem with hSave | hRemove
  · obtain ⟨saved, hSaved, rfl⟩ := List.mem_map.mp hSave
    obtain ⟨shape, hShape, rfl⟩ := List.mem_map.mp hSaved
    exact .inl ⟨shape, hShape, _, rfl⟩
  · obtain ⟨row, hRow, rfl⟩ := List.mem_map.mp hRemove
    exact .inr ⟨row, hRow, rfl⟩

omit h in
/-- The shapes that the entries of an import are about. -/
theorem cliIds_planChanges :
    (planChanges writer source now tomls
      (planBatch writer dryRun prune now incoming existing)).map
        ShapeChange.cliId =
      (changed writer incoming existing).map (·.cliId) ++
        (pruned prune incoming existing).map (·.cliId) := by
  simp only [planChanges, planBatch, List.map_append, List.map_map]
  rfl

theorem nodup_planChanges :
    ((planChanges writer source now tomls
      (planBatch writer dryRun prune now incoming existing)).map
        ShapeChange.cliId).Nodup := by
  rw [cliIds_planChanges, List.nodup_append]
  have hChanged : ((changed writer incoming existing).map (·.cliId)).Nodup :=
    (cliIds_nodup h.apart).sublist (List.filter_sublist.map _)
  have hExisting : (existing.map (·.cliId)).Nodup :=
    (h.read.map _).nodup_iff.mpr (store.tierMap writer.toTierRef).nodup
  have hPruned : (pruned prune incoming existing).Sublist existing ∧
      ∀ row ∈ pruned prune incoming existing,
        row.cliId ∉ incoming.map (·.cliId) := by
    unfold pruned
    split
    · exact ⟨List.filter_sublist, fun row hRow =>
        of_decide_eq_true (List.mem_filter.mp hRow).2⟩
    · exact ⟨List.nil_sublist _, fun row hRow => nomatch hRow⟩
  refine ⟨hChanged, hExisting.sublist (hPruned.1.map _), ?_⟩
  rintro cliId hSaved _ hGone rfl
  obtain ⟨shape, hShape, rfl⟩ := List.mem_map.mp hSaved
  obtain ⟨row, hRow, hKey⟩ := List.mem_map.mp hGone
  exact hPruned.2 row hRow (List.mem_map.mpr
    ⟨shape, List.mem_of_mem_filter hShape, hKey.symm⟩)

/-- **The plan of an import** fits the store it was made from. -/
theorem writes_import (hStore : Sound store)
    (hUpper : writer.scope ≠ .instanceTier → tomls = [])
    (hInstance : writer.scope = .instanceTier →
      ∀ cliId ∈ (changed writer incoming existing).map (·.cliId) ++
          (pruned prune incoming existing).map (·.cliId),
        ((store.tierMap writer.toTierRef).find? cliId).isSome →
        tomls.lookup cliId =
          lastToml (store.entries writer.toTierRef cliId)) :
    Writes store (importBatch writer source now tomls
      (planBatch writer dryRun prune now incoming existing)) := by
  have hPruned : ∀ row ∈ pruned prune incoming existing,
      (store.tierMap writer.toTierRef).find? row.cliId = some row := by
    intro row hRow
    refine Table.find?_of_mem (h.read.mem_iff.mp ?_)
    unfold pruned at hRow
    split at hRow
    · exact List.mem_of_mem_filter hRow
    · cases hRow
  constructor
  case tiers =>
    intro c hc
    rcases mem_planChanges hc with ⟨shape, _, _, rfl⟩ | ⟨row, _, rfl⟩
    · exact ⟨rfl, rfl⟩
    · exact ⟨rfl, rfl⟩
  case nodup => exact nodup_planChanges h
  case linked =>
    intro c hc
    rcases mem_planChanges hc with ⟨shape, hShape, _, rfl⟩ | ⟨row, hRow, rfl⟩
    · refine linked_change hStore (h.previousOf_eq _).symm hUpper ?_
      rw [h.previousOf_eq]
      exact fun hScope => hInstance hScope _
        (List.mem_append_left _ (List.mem_map_of_mem hShape))
    · refine linked_change hStore (hPruned row hRow) hUpper
        (fun hScope _ => ?_)
      refine hInstance hScope row.cliId
        (List.mem_append_right _ (List.mem_map_of_mem hRow)) ?_
      rw [hPruned row hRow]
      rfl
  case recorded =>
    intro c hc
    rcases mem_planChanges hc with ⟨shape, hShape, _, rfl⟩ | ⟨row, hRow, rfl⟩
    · refine ⟨?_, textsKept_stored (find?_written_changed h hShape)⟩
      change some shape.digest = (Table.find? _ shape.cliId).map _
      rw [find?_written_changed h hShape, Option.map_some, savedRow,
        stored_digest]
      rfl
    · refine ⟨?_, textsKept_none (find?_written_pruned hRow)⟩
      change none = (Table.find? _ row.cliId).map _
      rw [find?_written_pruned hRow]
      rfl
  case frame =>
    intro cliId hOther
    change cliId ∉ (planChanges writer source now tomls _).map _ at hOther
    rw [cliIds_planChanges, List.mem_append, not_or] at hOther
    exact find?_written_of_notMem hOther.1 hOther.2
  case distinct =>
    intro a ha b hb hNe
    obtain ⟨a', ha', hNamesA⟩ := exists_names_of_written h ha
    obtain ⟨b', hb', hNamesB⟩ := exists_names_of_written h hb
    rw [shares_congr hNamesA hNamesB]
    refine apart_of_checked h hStore ha' hb' (fun hId => hNe ?_)
    have hKeys : a.cliId = b.cliId := by
      rw [(List.cons.inj hNamesA).1, hId, ← (List.cons.inj hNamesB).1]
    exact List.inj_on_of_nodup_map (Table.nodup _) ha hb hKeys
  case limited =>
    refine le_trans ?_ h.clashFree.2
    rw [← List.length_append]
    have hIds : ∀ cliId ∈ (written store (importBatch writer source now tomls
        (planBatch writer dryRun prune now incoming existing))).rows.map
          (·.cliId),
        cliId ∈ (staying prune incoming existing ++ incoming).map
          (·.cliId) := by
      intro cliId hMem
      obtain ⟨row, hRow, rfl⟩ := List.mem_map.mp hMem
      obtain ⟨shape, hShape, hNames⟩ := exists_names_of_written h hRow
      exact List.mem_map.mpr ⟨shape, hShape, (List.cons.inj hNames).1.symm⟩
    have hLength := (List.subperm_of_subset (Table.nodup _) hIds).length_le
    rwa [List.length_map, List.length_map] at hLength

end Import

/-! ## A removal -/

section Removal

variable {π : Type} {store : ShapeStore π} {writer : ShapeWriter} {now : Int}
  {tomls : List (JsString × JsString)} {cliId : JsString}
  {previous : StoredShape π}

/-- The batch that a removal hands to the store. -/
def removalBatch (writer : ShapeWriter) (now : Int)
    (tomls : List (JsString × JsString)) (cliId : JsString)
    (previous : StoredShape π) : ShapeChangeBatch π where
  tier := writer.toTierRef
  save := []
  remove := [cliId]
  changes := [change writer none now tomls .remove (some previous) none]

/-- **A removal** fits the store in which it found the shape. -/
theorem writes_removal (hStore : Sound store)
    (hFound : (store.tierMap writer.toTierRef).find? cliId = some previous)
    (hUpper : writer.scope ≠ .instanceTier → tomls = [])
    (hInstance : writer.scope = .instanceTier →
      tomls.lookup cliId = lastToml (store.entries writer.toTierRef cliId)) :
    Writes store (removalBatch writer now tomls cliId previous) := by
  have hKey := cliId_of_find? hFound
  have hWritten : written store (removalBatch writer now tomls cliId previous)
      = (store.tierMap writer.toTierRef).remove cliId := rfl
  have hRows : ∀ row ∈ ((store.tierMap writer.toTierRef).remove cliId).rows,
      row ∈ (store.tierMap writer.toTierRef).rows := fun row hRow =>
    List.mem_of_mem_filter hRow
  constructor
  case tiers =>
    intro c hc
    cases List.mem_singleton.mp hc
    exact ⟨rfl, rfl⟩
  case nodup => exact List.nodup_singleton _
  case linked =>
    intro c hc
    cases List.mem_singleton.mp hc
    change _ = lastDigest (store.entries _ previous.cliId) ∧
      _ = lastToml (store.entries _ previous.cliId)
    rw [hKey]
    exact linked_change hStore hFound hUpper
      (fun hScope _ => hInstance hScope)
  case recorded =>
    intro c hc
    cases List.mem_singleton.mp hc
    have hNone : (written store
        (removalBatch writer now tomls cliId previous)).find?
          previous.cliId = none := by
      rw [hWritten, hKey, Table.find?_remove_self]
    refine ⟨?_, textsKept_none hNone⟩
    change none = (Table.find? _ previous.cliId).map _
    rw [hNone]
    rfl
  case frame =>
    intro other hOther
    rw [hWritten]
    refine Table.find?_remove_ne _ (fun hSame => hOther ?_)
    exact List.mem_singleton.mpr (hSame.trans hKey.symm)
  case distinct =>
    rw [hWritten]
    exact fun a ha b hb => hStore.distinct _ a (hRows a ha) b (hRows b hb)
  case limited =>
    rw [hWritten]
    exact (List.length_filter_le _ _).trans (hStore.limited _)

end Removal

end OpenApe.Ports.ShapeAudit
