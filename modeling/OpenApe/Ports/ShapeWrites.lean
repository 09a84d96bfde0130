import OpenApe.Ports.ShapeAudit

/-!
# Runs of shape writes

The programs of `ShapeImports` as the queue runs them.  Up to its one write a
program only reads, so what it plans fits the store it writes to, and every
run of the queue keeps the store sound (`shapes_audited`).
-/

namespace OpenApe.Ports.ShapeWrites

open Verified.JsText Verified.Json Verified.Fallible Verified.KeyedTable
  Verified.Programs.Program Verified.SerialQueue
open GrantTypes
open ShapeToml (TomlParser)
open ShapeImports ShapeAudit

/-! ## Reading -/

section Reads

variable {π γ α β : Type} [Collation]

/-- A call that writes nothing. -/
def Reads : ShapeCall π → Prop
  | .applyShapeChanges _ => False
  | _ => True

omit [Collation] in
theorem attempt_ok {w w' : ShapeWorld π γ} {reply answer : β}
    {store : ShapeStore π}
    (h : w.attempt reply store = (.ok answer, w')) :
    answer = reply ∧ w'.store = store := by
  unfold ShapeWorld.attempt at h
  dsimp only at h
  split at h
  · cases h
  · cases h
    exact ⟨rfl, rfl⟩

omit [Collation] in
theorem attempt_store (w : ShapeWorld π γ) (reply : β)
    (store : ShapeStore π) :
    (w.attempt reply store).2.store = w.store ∨
      (w.attempt reply store).2.store = store := by
  unfold ShapeWorld.attempt
  dsimp only
  split
  · exact .inl rfl
  · exact .inr rfl

theorem store_of_reads {call : ShapeCall π} (h : Reads call)
    (w : ShapeWorld π γ) : (shapeHandler call w).2.store = w.store := by
  cases call with
  | listTier tier => exact (attempt_store w _ _).elim id id
  | listShapeChanges tier limit cliId => exact (attempt_store w _ _).elim id id
  | applyShapeChanges batch => exact h.elim
  | now => rfl
  | describeImpact writer report incoming existing => rfl
  | scopeGrants writer => rfl

theorem exec_reads {p : ShapeProgram π γ α} (hp : Asks Reads p)
    (w : ShapeWorld π γ) : (exec shapeHandler p w).2.store = w.store := by
  have hAlong : Along shapeHandler
      (fun s : ShapeWorld π γ => s.store = w.store) p w :=
    along_of_asks (fun _ s hCall hs => (store_of_reads hCall s).trans hs) hp
      rfl
  exact hAlong.finish

theorem along_reads {p : ShapeProgram π γ α} (hp : Asks Reads p)
    {w : ShapeWorld π γ} (hw : Sound w.store) :
    Along shapeHandler (fun w => Sound w.store) p w :=
  along_of_asks (fun _ s hCall hs => by rwa [store_of_reads hCall s]) hp hw

/-- A program that reads before it goes on. -/
theorem along_reads_bind {p : ShapeProgram π γ α}
    {f : α → ShapeProgram π γ β} (hp : Asks Reads p) {w : ShapeWorld π γ}
    (hw : Sound w.store)
    (hf : ∀ a w₁, exec shapeHandler p w = (.ok a, w₁) →
      w₁.store = w.store →
      Along shapeHandler (fun w => Sound w.store) (f a) w₁) :
    Along shapeHandler (fun w => Sound w.store) (p >>= f) w := by
  refine along_bind (along_reads hp hw) (fun a w₁ hRun => hf a w₁ hRun ?_)
  have hStore := exec_reads hp w
  rwa [hRun] at hStore

end Reads

/-! ## The plan of an import -/

section Texts

variable {π γ : Type}

theorem asks_lastInstanceToml (cliIds : List JsString) :
    Asks Reads (lastInstanceToml cliIds : ShapeProgram π γ _) := by
  induction cliIds with
  | nil => exact asks_pure _ _
  | cons cliId cliIds ih =>
      refine asks_bind (asks_perform trivial) (fun changes =>
        asks_bind ih (fun rest => ?_))
      split <;> exact asks_pure _ _

theorem asks_previousTexts (textless : Bool) (cliIds : List JsString) :
    Asks Reads (previousTexts textless cliIds : ShapeProgram π γ _) := by
  unfold previousTexts
  split
  · exact asks_lastInstanceToml _
  · exact asks_pure _ _

/-- What was last imported for the shapes that were asked for. -/
theorem lookup_lastInstanceToml [Collation] {cliIds : List JsString}
    {w w' : ShapeWorld π γ} {tomls : List (JsString × JsString)}
    (h : exec shapeHandler (lastInstanceToml cliIds) w = (.ok tomls, w'))
    (cliId : JsString) :
    tomls.lookup cliId =
      if cliId ∈ cliIds then lastToml (w.store.entries instanceTier cliId)
      else none := by
  induction cliIds generalizing w w' tomls with
  | nil =>
      cases h
      rfl
  | cons first cliIds ih =>
      obtain ⟨changes, w₁, hRead, h⟩ := exec_bind_eq_ok h
      obtain ⟨rest, w₂, hRest, h⟩ := exec_bind_eq_ok h
      rw [exec_perform] at hRead
      obtain ⟨rfl, hStore⟩ := attempt_ok hRead
      have hLookup := ih hRest
      rw [hStore] at hLookup
      rw [head?_listShapeChanges] at h
      by_cases hFirst : cliId = first
      · rw [if_pos (by rw [hFirst]; exact List.mem_cons_self)]
        subst hFirst
        cases hLast : lastToml (w.store.entries instanceTier cliId) with
        | some toml =>
            rw [hLast] at h
            cases h
            simp
        | none =>
            rw [hLast] at h
            cases h
            rw [hLookup, hLast, ite_self]
      · have hSame : tomls.lookup cliId = rest.lookup cliId := by
          split at h
          · cases h
            rw [List.lookup_cons, beq_false_of_ne hFirst]
          · cases h
            rfl
        rw [hSame, hLookup]
        simp only [List.mem_cons, hFirst, false_or]

end Texts

section Plans

variable {π γ : Type} [DecidableEq π] [Collation]

omit [DecidableEq π] [Collation] in
theorem eq_instanceTier {tier : TierRef} (h : tier.scope = .instanceTier) :
    tier = instanceTier := TierRef.ext_of h (tier.instanceKey h)

omit [DecidableEq π] in
theorem perm_listTier {store : ShapeStore π} {tier : TierRef} :
    (store.listTier tier).Perm (store.tierMap tier).rows :=
  List.perm_insertionSort _ _

/-- A plan that fits the store it was made from. -/
structure Planned (store : ShapeStore π) (writer : ShapeWriter)
    (dryRun : Bool) (source : Option ImportSource)
    (planned : Plan π × List ShapeChange) : Prop where
  exists_checked : ∃ prune now incoming existing tomls,
    Checked store writer prune incoming existing ∧
    planned.1 = planBatch writer dryRun prune now incoming existing ∧
    planned.2 = planChanges writer source now tomls planned.1 ∧
    (writer.scope ≠ .instanceTier → tomls = []) ∧
    (writer.scope = .instanceTier →
      ∀ cliId ∈ (changed writer incoming existing).map (·.cliId) ++
          (pruned prune incoming existing).map (·.cliId),
        ((store.tierMap writer.toTierRef).find? cliId).isSome →
        tomls.lookup cliId =
          lastToml (store.entries writer.toTierRef cliId))

omit [Collation] in
theorem asks_planImport (writer : ShapeWriter) (input : ImportBody)
    (dryRun : Bool) (incoming : List (StoredShape π)) :
    Asks Reads (planImport writer input dryRun incoming :
      ShapeProgram π γ _) := by
  refine asks_bind (asks_perform trivial) (fun existing =>
    asks_bind (asks_ofExcept _ _) (fun _ =>
      asks_bind (asks_perform trivial) (fun now =>
        asks_bind (asks_previousTexts _ _) (fun tomls => asks_pure _ _))))

/-- **The plan** of an import, whose shapes were read apart, fits the
store. -/
theorem planned_of_planImport {writer : ShapeWriter} {input : ImportBody}
    {dryRun : Bool} {incoming : List (StoredShape π)}
    (hApart : Apart incoming) {w w' : ShapeWorld π γ}
    {planned : Plan π × List ShapeChange}
    (h : exec shapeHandler (planImport writer input dryRun incoming) w =
      (.ok planned, w')) :
    Planned w.store writer dryRun input.source planned := by
  obtain ⟨existing, w₁, hRead, h⟩ := exec_bind_eq_ok h
  rw [exec_perform] at hRead
  obtain ⟨rfl, hStore⟩ := attempt_ok hRead
  obtain ⟨_, w₂, hCheck, h⟩ := exec_bind_eq_ok h
  rw [exec_ofExcept] at hCheck
  obtain ⟨hChecked, rfl⟩ := Prod.mk.inj hCheck
  obtain ⟨now, w₃, hNow, h⟩ := exec_bind_eq_ok h
  have hClock : w₃.store = w₁.store := by
    cases hNow
    rfl
  obtain ⟨tomls, w₄, hTomls, h⟩ := exec_bind_eq_ok h
  cases h
  refine ⟨input.prune, now, _, w.store.listTier writer.toTierRef, tomls,
    ⟨perm_listTier, apart_keepDescription _ _ _ hApart, hChecked⟩, rfl, rfl,
    fun hUpper => ?_, fun hScope cliId hMem hSome => ?_⟩
  · rw [previousTexts, if_neg (by simpa using hUpper)] at hTomls
    cases hTomls
    rfl
  · rw [previousTexts, if_pos (by simpa using hScope)] at hTomls
    rw [lookup_lastInstanceToml hTomls, hClock, hStore,
      ← eq_instanceTier hScope, if_pos]
    refine List.mem_filter.mpr ⟨?_, ?_⟩
    · simp only [planBatch, List.map_map]
      exact hMem
    · rw [previousOf, Table.find?_perm perm_listTier]
      exact hSome

end Plans

/-! ## The writes -/

section Writes

variable {π γ : Type} [DecidableEq π] [Collation] (parser : TomlParser)
  (hash : JsString → JsString) (cardsOf : JsString → π)

omit [DecidableEq π] in
theorem apart_of_readBatch {writer : ShapeWriter} {urlId : Option JsString}
    {input : ImportBody} {incoming : List (StoredShape π)}
    (h : readBatch parser hash cardsOf writer urlId input = .ok incoming) :
    Apart incoming := by
  obtain ⟨_, _, h⟩ := bind_eq_ok.mp h
  obtain ⟨parsed, _, h⟩ := bind_eq_ok.mp h
  obtain ⟨_, _, h⟩ := bind_eq_ok.mp h
  obtain ⟨_, hTwins, h⟩ := bind_eq_ok.mp h
  cases h
  exact (apart_of_checkTwins hTwins).1

omit [Collation] in
/-- A planned batch fits the store. -/
theorem writes_of_planned {store : ShapeStore π} (hStore : Sound store)
    {writer : ShapeWriter} {dryRun : Bool} {source : Option ImportSource}
    {planned : Plan π × List ShapeChange}
    (h : Planned store writer dryRun source planned) :
    Writes store
      { tier := writer.toTierRef
        save := planned.1.save.map (handed writer.scope)
        remove := planned.1.report.removed
        changes := planned.2 } := by
  obtain ⟨prune, now, incoming, existing, tomls, hChecked, hPlan, hChanges,
    hUpper, hInstance⟩ := h.exists_checked
  rw [hChanges, hPlan]
  exact writes_import hChecked hStore hUpper hInstance

omit [DecidableEq π] in
/-- The one write of a program, after which it ends. -/
theorem along_apply {α : Type} {w : ShapeWorld π γ} (hw : Sound w.store)
    {batch : ShapeChangeBatch π} (hBatch : Writes w.store batch)
    (value : α) :
    Along shapeHandler (fun w => Sound w.store)
      (perform (I := shapeInterface π γ) (.applyShapeChanges batch) >>=
        fun _ => (pure value : ShapeProgram π γ α)) w := by
  have hWrite : Along shapeHandler (fun w => Sound w.store)
      (perform (I := shapeInterface π γ) (.applyShapeChanges batch)) w := by
    refine along_perform hw ?_
    change Sound (w.attempt () _).2.store
    rcases attempt_store w () (w.store.applyShapeChanges batch) with
      hSame | hWritten
    · rw [hSame]
      exact hw
    · rw [hWritten]
      exact sound_apply hw hBatch
  refine along_bind hWrite (fun _ w₁ hRun => ?_)
  have hFinish := hWrite.finish
  rw [hRun] at hFinish
  exact hFinish

/-- **An import** keeps the store sound at every point. -/
theorem along_importNow (writer : ShapeWriter) (body : JsonValue)
    (dryRun : Bool) (urlId : Option JsString) {w : ShapeWorld π γ}
    (hw : Sound w.store) :
    Along shapeHandler (fun w => Sound w.store)
      (importNow parser hash cardsOf writer body dryRun urlId) w := by
  refine along_reads_bind (asks_ofExcept _ _) hw (fun input w₁ hInput _ => ?_)
  rw [exec_ofExcept] at hInput
  obtain ⟨hRead, rfl⟩ := Prod.mk.inj hInput
  refine along_reads_bind (asks_ofExcept _ _) hw
    (fun incoming w₂ hIncoming _ => ?_)
  rw [exec_ofExcept] at hIncoming
  obtain ⟨hBatch, rfl⟩ := Prod.mk.inj hIncoming
  refine along_reads_bind (asks_planImport _ _ _ _) hw
    (fun planned w₁ hPlan hStore => ?_)
  have hPlanned := planned_of_planImport
    (apart_of_readBatch parser hash cardsOf hBatch) hPlan
  obtain ⟨plan, changes⟩ := planned
  have hReport : Reads (.describeImpact writer plan.report plan.incoming
      plan.existing) := trivial
  refine along_reads_bind (asks_perform hReport) (hStore ▸ hw)
    (fun impact w₂ _ hSame => ?_)
  have hWrites := writes_of_planned hw hPlanned
  rw [← hStore, ← hSame] at hWrites
  rw [← hStore, ← hSame] at hw
  split
  · exact along_apply hw hWrites _
  · exact hw

omit [DecidableEq π] in
/-- **A removal** keeps the store sound at every point. -/
theorem along_removeNow (writer : ShapeWriter) (cliId : JsString)
    {w : ShapeWorld π γ} (hw : Sound w.store) :
    Along shapeHandler (fun w => Sound w.store) (removeNow writer cliId) w := by
  have hList : Reads (.listTier writer.toTierRef : ShapeCall π) := trivial
  have hGrants : Reads (.scopeGrants writer : ShapeCall π) := trivial
  have hNow : Reads (.now : ShapeCall π) := trivial
  refine along_reads_bind (asks_perform hList) hw
    (fun existing w₁ hRead hStore₁ => ?_)
  rw [exec_perform] at hRead
  obtain ⟨rfl, -⟩ := attempt_ok hRead
  rw [← hStore₁] at hw ⊢
  rw [previousOf, Table.find?_perm perm_listTier]
  cases hFound : (w₁.store.tierMap writer.toTierRef).find? cliId with
  | none => exact hw
  | some previous =>
      refine along_reads_bind (asks_throwIf _ _ _) hw
        (fun _ w₂ _ hStore₂ => ?_)
      rw [← hStore₂] at hw hFound
      refine along_reads_bind (asks_perform hGrants) hw
        (fun grants w₃ _ hStore₃ => ?_)
      rw [← hStore₃] at hw hFound
      refine along_reads_bind (asks_perform hNow) hw
        (fun now w₄ _ hStore₄ => ?_)
      rw [← hStore₄] at hw hFound
      refine along_reads_bind (asks_previousTexts _ _) hw
        (fun tomls w₅ hTomls hStore₅ => ?_)
      have hWrites : Writes w₄.store
          (removalBatch writer now tomls cliId previous) := by
        refine writes_removal hw hFound (fun hUpper => ?_)
          (fun hScope => ?_)
        · rw [previousTexts, if_neg (by simp [hUpper])] at hTomls
          cases hTomls
          rfl
        · have hTextless := (hw.texts writer.toTierRef cliId).textless hScope
            previous hFound
          rw [previousTexts, if_pos (by simp [hTextless, hScope])] at hTomls
          rw [lookup_lastInstanceToml hTomls,
            if_pos (List.mem_singleton.mpr rfl), eq_instanceTier hScope]
      rw [← hStore₅] at hw hWrites
      exact along_apply hw hWrites _

end Writes

/-! ## Refused writes -/

section Refused

variable {π γ α β : Type} [Collation]

/-- A write that fails, or was asked to write nothing, leaves the store. -/
def Unchanged (store : ShapeStore π) (dryRun : Bool)
    (result : Except JsError α × ShapeWorld π γ) : Prop :=
  result.1.isOk = false ∨ dryRun = true → result.2.store = store

theorem unchanged_bind {store : ShapeStore π} {dryRun : Bool}
    {p : ShapeProgram π γ α} {f : α → ShapeProgram π γ β}
    (hp : Asks Reads p) {w : ShapeWorld π γ} (hw : w.store = store)
    (hf : ∀ a w₁, w₁.store = store →
      Unchanged store dryRun (exec shapeHandler (f a) w₁)) :
    Unchanged store dryRun (exec shapeHandler (p >>= f) w) := by
  have hStore := (exec_reads hp w).trans hw
  rw [exec_bind]
  cases hRun : exec shapeHandler p w with
  | mk result w₁ =>
      rw [hRun] at hStore
      cases result with
      | ok a => exact hf a w₁ hStore
      | error error => exact fun _ => hStore

theorem unchanged_apply {store : ShapeStore π} {w : ShapeWorld π γ}
    (hw : w.store = store) (batch : ShapeChangeBatch π) (value : α) :
    Unchanged store false (exec shapeHandler
      (perform (I := shapeInterface π γ) (.applyShapeChanges batch) >>=
        fun _ => (pure value : ShapeProgram π γ α)) w) := by
  have hAttempt : exec shapeHandler
      (perform (I := shapeInterface π γ) (.applyShapeChanges batch)) w =
      w.attempt () (w.store.applyShapeChanges batch) := exec_perform _ _ _
  rw [exec_bind, hAttempt, ShapeWorld.attempt]
  dsimp only
  cases w.faults 0 with
  | some error => exact fun _ => hw
  | none =>
      rintro (hFailed | hDry)
      · cases hFailed
      · cases hDry

section Writes

variable [DecidableEq π] (parser : TomlParser) (hash : JsString → JsString)
  (cardsOf : JsString → π)

theorem unchanged_importNow (writer : ShapeWriter) (body : JsonValue)
    (dryRun : Bool) (urlId : Option JsString) {store : ShapeStore π}
    {w : ShapeWorld π γ} (hw : w.store = store) :
    Unchanged store dryRun (exec shapeHandler
      (importNow parser hash cardsOf writer body dryRun urlId) w) := by
  refine unchanged_bind (asks_ofExcept _ _) hw (fun input w₁ hw => ?_)
  refine unchanged_bind (asks_ofExcept _ _) hw (fun incoming w₂ hw => ?_)
  refine unchanged_bind (asks_planImport _ _ _ _) hw (fun planned w₃ hw => ?_)
  obtain ⟨plan, changes⟩ := planned
  have hReport : Reads (.describeImpact writer plan.report plan.incoming
      plan.existing) := trivial
  refine unchanged_bind (asks_perform hReport) hw (fun impact w₄ hw => ?_)
  cases dryRun with
  | true => exact fun _ => hw
  | false =>
      split
      · exact unchanged_apply hw _ _
      · exact fun _ => hw

omit [DecidableEq π] in
theorem unchanged_removeNow (writer : ShapeWriter) (cliId : JsString)
    {store : ShapeStore π} {w : ShapeWorld π γ} (hw : w.store = store) :
    Unchanged store false (exec shapeHandler (removeNow writer cliId) w) := by
  have hList : Reads (.listTier writer.toTierRef : ShapeCall π) := trivial
  have hGrants : Reads (.scopeGrants writer : ShapeCall π) := trivial
  have hNow : Reads (.now : ShapeCall π) := trivial
  refine unchanged_bind (asks_perform hList) hw (fun existing w₁ hw => ?_)
  cases previousOf existing cliId with
  | none => exact fun _ => hw
  | some previous =>
      refine unchanged_bind (asks_throwIf _ _ _) hw (fun _ w₂ hw => ?_)
      refine unchanged_bind (asks_perform hGrants) hw (fun grants w₃ hw => ?_)
      refine unchanged_bind (asks_perform hNow) hw (fun now w₄ hw => ?_)
      refine unchanged_bind (asks_previousTexts _ _) hw
        (fun tomls w₅ hw => ?_)
      exact unchanged_apply hw _ _

theorem unchanged_body (write : ShapeWrite) (w : ShapeWorld π γ) :
    Unchanged w.store write.dryRun
      (exec shapeHandler (write.body parser hash cardsOf) w) := by
  have hMap : ∀ {α β : Type} (f : α → β) (p : ShapeProgram π γ α) dryRun,
      Unchanged w.store dryRun (exec shapeHandler p w) →
      Unchanged w.store dryRun (exec shapeHandler (f <$> p) w) := by
    intro α β f p dryRun hp
    rw [exec_map]
    rintro (hFailed | hDry)
    · refine hp (.inl ?_)
      revert hFailed
      cases (exec shapeHandler p w).1 <;> exact id
    · exact hp (.inr hDry)
  cases write with
  | importShapes writer body dryRun =>
      exact hMap _ _ _ (unchanged_importNow parser hash cardsOf writer body
        dryRun none rfl)
  | publishTierShape writer cliId body dryRun =>
      exact hMap _ _ _ (unchanged_importNow parser hash cardsOf writer
        (publishBody body) dryRun (some cliId) rfl)
  | removeTierShape writer cliId =>
      exact hMap _ _ _ (unchanged_removeNow writer cliId rfl)

theorem along_body (write : ShapeWrite) (w : ShapeWorld π γ)
    (hw : Sound w.store) :
    Along shapeHandler (fun w => Sound w.store)
      (write.body parser hash cardsOf) w := by
  cases write with
  | importShapes writer body dryRun =>
      exact along_map _ (along_importNow parser hash cardsOf writer body
        dryRun none hw)
  | publishTierShape writer cliId body dryRun =>
      exact along_map _ (along_importNow parser hash cardsOf writer
        (publishBody body) dryRun (some cliId) hw)
  | removeTierShape writer cliId =>
      exact along_map _ (along_removeNow writer cliId hw)

/-! ## Every run -/

/-- **The shape tiers stay in order**: at every point of every run of
imports, publications and removals, issued at any time by any writers, the
store and its audit are consistent.  The writes ran one after the other, each
from the store the one before left, and those that were refused or dry
changed nothing. -/
theorem shapes_audited (clock : Nat → Int) (grants : Nat → Except JsError γ)
    (faults : Nat → Option JsError) (turns : List (Turn ShapeWrite)) :
    let first : ShapeWorld π γ := ⟨ShapeStore.empty, clock, grants, faults⟩
    let q := run shapeHandler (ShapeWrite.body parser hash cardsOf) turns
      (start ShapeWrite (shapeInterface π γ) JsError
        (ImportOutcome π γ ⊕ γ) first)
    Consistent q.state.store ∧
      Serial shapeHandler (ShapeWrite.body parser hash cardsOf) first q ∧
      ∀ write ∈ q.settled,
        write.result.isOk = false ∨ write.call.dryRun = true →
        write.after.store = write.before.store := by
  intro first q
  have hSerial := serial_run shapeHandler
    (ShapeWrite.body parser hash cardsOf) turns first
  refine ⟨?_, hSerial, fun write hWrite hRefused => ?_⟩
  · exact (run_along shapeHandler (ShapeWrite.body parser hash cardsOf)
      (fun w => Sound w.store) (along_body parser hash cardsOf) turns first
      sound_empty).toConsistent
  · have hAlone := hSerial.alone write hWrite
    have hUnchanged := unchanged_body parser hash cardsOf write.call
      write.before
    rw [hAlone] at hUnchanged
    exact hUnchanged hRefused

end Writes

end Refused

end OpenApe.Ports.ShapeWrites
