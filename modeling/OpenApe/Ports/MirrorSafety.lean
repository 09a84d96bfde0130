import OpenApe.Ports.MirrorReconcile

/-!
# What a reconciliation may do to a mirror

A reconciliation works with readings that are out of date by the time it acts,
so its safety rests on what it knows of them, and on the push: a ref only
moves forward, and a deletion names the value it removes.  The states it read
stay right, since only reconciliations write them and they run one after
another; and what it records as replicated is a reading of the source that a
reading of the target agrees with.
-/

namespace OpenApe.Ports.MirrorSafety

open MirrorRefs MirrorReconcile
open Verified.JsText Verified.KeyedTable Verified.Programs.Program
  Verified.RelyGuarantee Verified.SerialJobs
open Verified.TextPieces (join_pieces)

/-! ## Errors -/

theorem intercalate_eq_nil {separator : JsString} (hNe : separator ≠ [])
    {parts : List JsString} (h : separator.intercalate parts = [])
    (other : JsString) : other.intercalate parts = [] := by
  cases parts with
  | nil => rfl
  | cons part parts =>
      cases parts with
      | nil =>
          rw [List.intercalate_singleton] at h ⊢
          exact h
      | cons next parts =>
          rw [List.intercalate_cons_cons] at h
          simp [hNe] at h

/-- Nothing is redacted away. -/
theorem redactToken_ne_nil {text : JsString} (token : JsString)
    (h : text ≠ []) : redactToken text token ≠ [] := by
  intro hNil
  rw [redactToken] at hNil
  split at hNil
  · exact h hNil
  · rename_i hToken
    have hJoin := join_pieces hToken text
    rw [intercalate_eq_nil (by decide) hNil token] at hJoin
    exact h hJoin.symm

theorem take_ne_nil {text : JsString} (h : text ≠ []) :
    text.take 2000 ≠ [] := by
  rw [Ne, List.take_eq_nil_iff, not_or]
  exact ⟨by decide, h⟩

/-- An error that is not blank is reported as one. -/
theorem truthy_caught {message : JsString} (h : message ≠ [])
    (targetSha : Option JsString) :
    truthy (caught targetSha message).error = true :=
  decide_eq_true (take_ne_nil h)

theorem remoteError_ne_nil {failure : Failure} (h : failure.message ≠ [])
    (mirror : Mirror) : remoteError mirror failure ≠ [] :=
  take_ne_nil (redactToken_ne_nil mirror.token h)

theorem pushError_ne_nil {failure : Failure} (h : pushRaw failure ≠ [])
    (mirror : Mirror) : pushError mirror failure ≠ [] :=
  take_ne_nil (redactToken_ne_nil mirror.token h)

/-! ## What stays as it was -/

/-- The states and the run are the same, and no reading is lost. -/
structure Still (w w' : World) : Prop where
  states : w'.states = w.states
  run : w'.run = w.run
  readings : ∀ reading ∈ w.readings, reading ∈ w'.readings

theorem Still.refl (w : World) : Still w w := ⟨rfl, rfl, fun _ h => h⟩

theorem Still.trans {w w' w'' : World} (h : Still w w') (h' : Still w' w'') :
    Still w w'' :=
  ⟨h'.states.trans h.states, h'.run.trans h.run,
    fun _ hMem => h'.readings _ (h.readings _ hMem)⟩

theorem still_of_meanwhile {w w' : World} (h : Meanwhile w w') :
    Still w w' :=
  ⟨h.1, h.2.2.1, fun _ hMem => h.2.2.2 ▸ hMem⟩

variable {descends : JsString → JsString → Prop}

/-- Only `upsertState` writes a state. -/
theorem still_of_effect {call : Call} {w w' : World}
    {reply : Call.Reply call} (h : Effect descends call w reply w')
    (hCall : ∀ row, call ≠ .upsertState row) : Still w w' := by
  cases call with
  | upsertState row => exact absurd rfl (hCall row)
  | selectMirrors =>
      rw [h.2]
      exact Still.refl w
  | selectStates mirrorId =>
      rw [h.2]
      exact Still.refl w
  | forEachRef =>
      rw [h.2]
      exact ⟨rfl, rfl, fun _ hMem => List.mem_append_left _ hMem⟩
  | lsRemote mirror =>
      rw [h.2]
      exact ⟨rfl, rfl, fun _ hMem => List.mem_append_left _ hMem⟩
  | push mirror ref lease sourceSha =>
      obtain ⟨after, _, rfl⟩ := h
      exact ⟨rfl, rfl, fun _ hMem => hMem⟩
  | now =>
      obtain rfl : w' = w := h
      exact Still.refl w'
  | ulid =>
      obtain rfl : w' = w := h
      exact Still.refl w'
  | insertPush row =>
      obtain rfl : w' = _ := h
      exact ⟨rfl, rfl, fun _ hMem => hMem⟩
  | sleep ms =>
      obtain rfl : w' = w := h
      exact Still.refl w'

theorem still_of_answer {call : Call} {w w' : World}
    {reply : Except Failure (Call.Reply call)}
    (h : Answer descends call w reply w')
    (hCall : ∀ row, call ≠ .upsertState row) : Still w w' := by
  cases reply with
  | ok reply => exact still_of_effect h hCall
  | error failure =>
      rcases h with rfl | ⟨_, reply, hEffect⟩
      · exact Still.refl w'
      · exact still_of_effect hEffect hCall

/-- Only `push` changes a target. -/
theorem targets_of_answer {call : Call} {w w' : World}
    {reply : Except Failure (Call.Reply call)}
    (h : Answer descends call w reply w')
    (hCall : ∀ mirror ref lease sha, call ≠ .push mirror ref lease sha) :
    w'.targets = w.targets := by
  have hEffect : ∀ reply, Effect descends call w reply w' →
      w'.targets = w.targets := by
    intro reply hEffect
    cases call with
    | push mirror ref lease sha => exact absurd rfl (hCall mirror ref lease sha)
    | selectMirrors => rw [hEffect.2]
    | selectStates mirrorId => rw [hEffect.2]
    | forEachRef => rw [hEffect.2]; rfl
    | lsRemote mirror => rw [hEffect.2]; rfl
    | now => rw [show w' = w from hEffect]
    | ulid => rw [show w' = w from hEffect]
    | upsertState row => rw [show w' = _ from hEffect]
    | insertPush row => rw [show w' = _ from hEffect]
    | sleep ms => rw [show w' = w from hEffect]
  cases reply with
  | ok reply => exact hEffect reply h
  | error failure =>
      rcases h with rfl | ⟨_, reply, h⟩
      · rfl
      · exact hEffect reply h

/-- A call that leaves the targets alone keeps the work on them. -/
theorem keepsWork_of_targets {call : Call} {w w' : World}
    (h : w'.targets = w.targets) : KeepsWork descends call w w' := by
  intro url ref sha hSha
  rw [h, hSha]
  exact .inl rfl

theorem SeenEqual.still {w w' : World} (h : Still w w')
    {mirrorId ref : JsString} {sha : Option JsString}
    (hSeen : SeenEqual w mirrorId ref sha) :
    SeenEqual w' mirrorId ref sha := by
  obtain ⟨run, source, mirror, target, hSource, hTarget, hRest⟩ := hSeen
  exact ⟨run, source, mirror, target, h.readings _ hSource,
    h.readings _ hTarget, hRest⟩

theorem RowSeen.still {w w' : World} (h : Still w w') {row : RefState}
    (hRow : RowSeen w row) : RowSeen w' row := by
  unfold RowSeen at hRow ⊢
  cases hSynced : row.syncedAt with
  | none =>
      rw [hSynced] at hRow
      exact hRow
  | some time =>
      rw [hSynced] at hRow
      exact SeenEqual.still h hRow

theorem recordsSeen_still {w w' : World} (h : Still w w')
    (hRecords : RecordsSeen w) : RecordsSeen w' := by
  intro row hRow
  rw [h.states] at hRow
  exact RowSeen.still h (hRecords row hRow)

/-! ## Reliance and guarantee -/

theorem meanwhile_refl (w : World) : Meanwhile w w := ⟨rfl, rfl, rfl, rfl⟩

theorem meanwhile_trans {w w' w'' : World} (h : Meanwhile w w')
    (h' : Meanwhile w' w'') : Meanwhile w w'' :=
  ⟨h'.1.trans h.1, h'.2.1.trans h.2.1, h'.2.2.1.trans h.2.2.1,
    h'.2.2.2.trans h.2.2.2⟩

/-- Beside everyone else, with legible answers; the work is kept, and the
records stay right. -/
def rules (descends : JsString → JsString → Prop) :
    Rules mirroring Failure World where
  rely := Meanwhile
  answer := fun call w reply w' =>
    Answer descends call w reply w' ∧ LegibleReply w call reply
  guarantee := fun call w _ w' =>
    KeepsWork descends call w w' ∧ (RecordsSeen w → RecordsSeen w')
  rely_refl := meanwhile_refl
  rely_trans := meanwhile_trans

/-- Calls that write neither a target nor a state. -/
theorem guarantee_of_other {call : Call} {w w' : World}
    {reply : Except Failure (Call.Reply call)}
    (h : (rules descends).answer call w reply w')
    (hPush : ∀ mirror ref lease sha, call ≠ .push mirror ref lease sha)
    (hUpsert : ∀ row, call ≠ .upsertState row) :
    (rules descends).guarantee call w reply w' :=
  ⟨keepsWork_of_targets (targets_of_answer h.1 hPush),
    recordsSeen_still (still_of_answer h.1 hUpsert)⟩

/-! ## What a reconciliation knows -/

/-- The state of a ref still records what the row read before does. -/
def Current (w : World) (mirror : Mirror) (ref : JsString)
    (old : Option RefState) : Prop :=
  (w.states.find? (mirror.id, ref)).bind RefState.lastSuccessfulSha =
      old.bind RefState.lastSuccessfulSha ∧
    (w.states.find? (mirror.id, ref)).bind RefState.syncedAt =
      old.bind RefState.syncedAt

def SourceRead (w : World) (source : RefMap) : Prop :=
  ∃ refs, (w.run, .source refs) ∈ w.readings ∧
    ∀ ref, RefMap.get source ref = refs.get ref

def TargetRead (w : World) (mirror : Mirror) (observed : RefMap) : Prop :=
  ∃ refs, (w.run, .target mirror refs) ∈ w.readings ∧
    ∀ ref, RefMap.get observed ref = refs.get ref

/-- What the attempts hand on is a reading of this run. -/
def ObservedRead (w : World) (mirror : Mirror) (observed : Option RefMap) :
    Prop :=
  ∀ map, observed = some map → TargetRead w mirror map

theorem observedRead_none (w : World) (mirror : Mirror) :
    ObservedRead w mirror none := fun _ h => by cases h

theorem observedRead_some {w : World} {mirror : Mirror} {map : RefMap}
    (h : TargetRead w mirror map) : ObservedRead w mirror (some map) := by
  intro map' hSame
  obtain rfl := Option.some.inj hSame
  exact h

theorem TargetRead.grow {w w' : World} (hRun : w'.run = w.run)
    (hReadings : ∀ reading ∈ w.readings, reading ∈ w'.readings)
    {mirror : Mirror} {observed : RefMap} (h : TargetRead w mirror observed) :
    TargetRead w' mirror observed := by
  obtain ⟨refs, hMem, hGet⟩ := h
  exact ⟨refs, hRun ▸ hReadings _ hMem, hGet⟩

theorem SourceRead.still {w w' : World} (h : Still w w') {source : RefMap}
    (hSource : SourceRead w source) : SourceRead w' source := by
  obtain ⟨refs, hMem, hGet⟩ := hSource
  exact ⟨refs, h.run ▸ h.readings _ hMem, hGet⟩

theorem Current.still {w w' : World} (h : Still w w') {mirror : Mirror}
    {ref : JsString} {old : Option RefState}
    (hCurrent : Current w mirror ref old) : Current w' mirror ref old := by
  rw [Current, h.states]
  exact hCurrent

/-- Source and target were read alike in this run. -/
theorem seenEqual_of_reads {w : World} {mirror : Mirror} {source : RefMap}
    (hSource : SourceRead w source) {observed : RefMap}
    (hTarget : TargetRead w mirror observed) {ref : JsString}
    (hSame : RefMap.get source ref = RefMap.get observed ref) :
    SeenEqual w mirror.id ref (RefMap.get source ref) := by
  obtain ⟨refs, hRefs, hGet⟩ := hSource
  obtain ⟨refs', hRefs', hGet'⟩ := hTarget
  exact ⟨w.run, refs, mirror, refs', hRefs, hRefs', rfl, (hGet ref).symm,
    (hGet' ref).symm.trans hSame.symm⟩

/-! ## The calls of a reconciliation -/

section Calls

variable {w : World} {mirror : Mirror}

/-- A call that writes neither a target nor a state, and what follows. -/
theorem safe_call_then {α : Type} {P : α → World → Prop} {call : Call}
    {f : Call.Reply call → Reconciling α}
    (hPush : ∀ mirror ref lease sha, call ≠ .push mirror ref lease sha)
    (hUpsert : ∀ row, call ≠ .upsertState row)
    (hf : ∀ reply w', Still w w' →
      Safe (rules descends) (Returns True P) (f reply) w') :
    Safe (rules descends) (Returns True P)
      (perform (I := mirroring) call >>= f) w := by
  refine safe_perform_then (fun _ => trivial) ?_ ?_
  · exact fun w₁ _ reply w₂ hAnswer =>
      guarantee_of_other hAnswer hPush hUpsert
  · intro w₁ hRely reply w₂ hAnswer
    exact hf reply w₂ ((still_of_meanwhile hRely).trans
      (still_of_answer hAnswer.1 hUpsert))

/-- The source is read as it is. -/
theorem safe_localMirrorRefs :
    Safe (rules descends)
      (Returns True fun source w' => Still w w' ∧ SourceRead w' source)
      localMirrorRefs w := by
  refine safe_perform_then (fun _ => trivial) ?_ ?_
  · exact fun w₁ _ reply w₂ hAnswer =>
      guarantee_of_other hAnswer (by simp) (by simp)
  · intro w₁ hRely stdout w₂ hAnswer
    refine safe_return fun w₃ hRely' => ?_
    obtain ⟨⟨rfl, hRead⟩, hPlain⟩ := hAnswer
    have hPlain : Plain w₁.source := hPlain
    have hStill : Still w₁ w₂ := by
      rw [hRead]
      exact ⟨rfl, rfl, fun _ hMem => List.mem_append_left _ hMem⟩
    refine ⟨(still_of_meanwhile hRely).trans (hStill.trans
      (still_of_meanwhile hRely')), ?_⟩
    refine SourceRead.still (still_of_meanwhile hRely') ?_
    refine ⟨w₁.source, ?_, fun ref => ?_⟩
    · rw [hRead]
      exact List.mem_append_right _ (List.mem_singleton_self _)
    · rw [parseMirrorRefs_localOutput hPlain]
      rfl

/-- So is the target, or an error says why not. -/
theorem safe_remoteMirrorRefs :
    Safe (rules descends)
      (Returns True fun result w' => Still w w' ∧
        match result with
        | .ok observed => TargetRead w' mirror observed
        | .error message => message ≠ [])
      (remoteMirrorRefs mirror) w := by
  refine safe_ask fun w₁ hRely reply w₂ hAnswer => ?_
  refine ⟨guarantee_of_other hAnswer (by simp) (by simp), ?_⟩
  have hStill : Still w w₂ := (still_of_meanwhile hRely).trans
    (still_of_answer hAnswer.1 (by simp))
  cases reply with
  | ok stdout =>
      refine safe_return fun w₃ hRely' => ?_
      have hLater := still_of_meanwhile hRely'
      refine ⟨hStill.trans hLater, ?_⟩
      obtain ⟨⟨rfl, hRead⟩, hPlain⟩ := hAnswer
      have hPlain : Plain (w₁.targets mirror.url) := hPlain
      refine TargetRead.grow hLater.run hLater.readings ?_
      refine ⟨w₁.targets mirror.url, ?_, fun ref => ?_⟩
      · rw [hRead]
        exact List.mem_append_right _ (List.mem_singleton_self _)
      · rw [parseMirrorRefs_remoteOutput hPlain]
        rfl
  | error failure =>
      refine safe_return fun w₃ hRely' => ?_
      refine ⟨hStill.trans (still_of_meanwhile hRely'), ?_⟩
      have hMessage : failure.message ≠ [] := hAnswer.2
      exact remoteError_ne_nil hMessage mirror

end Calls

/-! ## The push -/

/-- What the states say was replicated last. -/
def lastOf (w : World) (mirror : Mirror) (ref : JsString) :
    Option JsString :=
  (w.states.find? (mirror.id, ref)).bind RefState.lastSuccessfulSha

/-- A repository that a push may leave behind. -/
theorem keepsWork_pushed {w w' : World} {mirror : Mirror} {ref : JsString}
    {lease : Option (Option JsString)} {sourceSha : Option JsString}
    {after : Refs}
    (hPushed : Pushed descends (w.targets mirror.url) ref lease sourceSha
      after)
    (hTargets : w'.targets = Function.update w.targets mirror.url after)
    (hLease : sourceSha = none → ∃ leased, lease = some leased ∧
      (leased ≠ none → lastOf w mirror ref = leased)) :
    KeepsWork descends (.push mirror ref lease sourceSha) w w' := by
  obtain ⟨hUpdated, hLeased, hForward⟩ := hPushed
  intro url name sha hSha
  by_cases hUrl : url = mirror.url
  · subst hUrl
    rw [hTargets, Function.update_self, hUpdated name]
    by_cases hName : name = ref
    · subst hName
      rw [if_pos rfl]
      cases sourceSha with
      | some new =>
          rcases hForward sha hSha with rfl | hDescends
          · exact .inl rfl
          · exact .inr hDescends
      | none =>
          obtain ⟨leased, hSome, hLast⟩ := hLease rfl
          have hValue : leased = some sha :=
            (hLeased leased hSome).symm.trans hSha
          have hRecorded : lastOf w mirror name = some sha := by
            rw [← hValue]
            exact hLast (by simp [hValue])
          obtain ⟨row, hRow, hRowLast⟩ := Option.bind_eq_some_iff.mp hRecorded
          exact ⟨mirror, lease, row, rfl, rfl, hRow, hRowLast⟩
    · rw [if_neg hName, hSha]
      exact .inl rfl
  · rw [hTargets, Function.update_of_ne hUrl, hSha]
    exact .inl rfl

/-- A push is within the guarantee when it deletes only what it leases from
the states. -/
theorem guarantee_of_push {w w' : World} {mirror : Mirror} {ref : JsString}
    {lease : Option (Option JsString)} {sourceSha : Option JsString}
    {reply : Except Failure Unit}
    (h : (rules descends).answer (.push mirror ref lease sourceSha) w reply w')
    (hLease : sourceSha = none → ∃ leased, lease = some leased ∧
      (leased ≠ none → lastOf w mirror ref = leased)) :
    (rules descends).guarantee (.push mirror ref lease sourceSha) w reply
      w' := by
  refine ⟨?_, recordsSeen_still (still_of_answer h.1 (by simp))⟩
  have hAnswer := h.1
  cases reply with
  | ok reply =>
      obtain ⟨after, hPushed, rfl⟩ := hAnswer
      exact keepsWork_pushed hPushed rfl hLease
  | error failure =>
      rcases hAnswer with rfl | ⟨_, _, after, hPushed, rfl⟩
      · exact keepsWork_of_targets rfl
      · exact keepsWork_pushed hPushed rfl hLease

/-! ## One ref -/

/-- What an attempt brings back: the states as they were, and what it saw. -/
structure Outcome (w w' : World) (mirror : Mirror) (ref : JsString)
    (sourceSha : Option JsString) (tried : Tried) : Prop where
  still : Still w w'
  observed : ObservedRead w' mirror tried.observed
  equal : truthy tried.error = false →
    ∃ map, TargetRead w' mirror map ∧ RefMap.get map ref = sourceSha

section OneRef

variable {w : World} {mirror : Mirror} {ref : JsString}
  {sourceSha : Option JsString}

/-- A caught error claims nothing. -/
theorem outcome_caught {w' : World} (hStill : Still w w')
    (targetSha : Option JsString) {message : JsString} (h : message ≠ []) :
    Outcome w w' mirror ref sourceSha (caught targetSha message) where
  still := hStill
  observed := observedRead_none w' mirror
  equal := fun hFalse => by
    rw [truthy_caught h] at hFalse
    cases hFalse

theorem outcome_equal {w' : World} (hStill : Still w w') {map : RefMap}
    (hRead : TargetRead w' mirror map)
    (hSame : sourceSha = RefMap.get map ref) :
    Outcome w w' mirror ref sourceSha
      ⟨some map, RefMap.get map ref, none⟩ where
  still := hStill
  observed := observedRead_some hRead
  equal := fun _ => ⟨map, hRead, hSame.symm⟩

theorem Outcome.after {w₁ w' : World} {tried : Tried} (h : Still w w₁)
    (hOutcome : Outcome w₁ w' mirror ref sourceSha tried) :
    Outcome w w' mirror ref sourceSha tried :=
  ⟨h.trans hOutcome.still, hOutcome.observed, hOutcome.equal⟩

theorem safe_verifyPush (targetSha : Option JsString) :
    Safe (rules descends)
      (Returns True fun tried w' => Outcome w w' mirror ref sourceSha tried)
      (verifyPush mirror ref sourceSha targetSha) w := by
  refine safe_then safe_remoteMirrorRefs fun result w₁ hResult => ?_
  obtain ⟨hStill, hResult⟩ := hResult
  cases result with
  | error message =>
      exact safe_return fun w₂ hRely => outcome_caught
        (hStill.trans (still_of_meanwhile hRely)) targetSha hResult
  | ok observed =>
      dsimp only
      by_cases hSame : sourceSha = RefMap.get observed ref
      · rw [if_neg (not_not_intro hSame)]
        refine safe_return fun w₂ hRely => ?_
        have hLater := still_of_meanwhile hRely
        exact outcome_equal (hStill.trans hLater)
          (hResult.grow hLater.run hLater.readings) hSame
      · rw [if_pos hSame]
        exact safe_return fun w₂ hRely => outcome_caught
          (hStill.trans (still_of_meanwhile hRely)) _ (by decide)

/-- What `mayDeleteMirrorRef` lets through is the value last replicated. -/
theorem last_of_mayDelete {last targetSha : Option JsString}
    (h : mayDeleteMirrorRef last targetSha = true) (hNe : targetSha ≠ none) :
    last = targetSha := by
  rw [mayDeleteMirrorRef, Bool.or_eq_true, beq_iff_eq] at h
  rcases h with hNone | hSame
  · exact absurd hNone hNe
  · rw [Bool.and_eq_true, beq_iff_eq] at hSame
    exact hSame.2

theorem safe_pushRefToMirror {targetSha : Option JsString}
    (hMay : sourceSha = none → targetSha ≠ none →
      lastOf w mirror ref = targetSha) :
    Safe (rules descends)
      (Returns True fun error w' => Still w w' ∧ error ≠ some [])
      (pushRefToMirror mirror ref sourceSha targetSha) w := by
  refine safe_ask fun w₁ hRely reply w₂ hAnswer => ?_
  have hBefore := still_of_meanwhile hRely
  have hStill : Still w w₂ :=
    hBefore.trans (still_of_answer hAnswer.1 (by simp))
  constructor
  · refine guarantee_of_push hAnswer fun hNone => ?_
    refine ⟨targetSha, if_pos hNone, fun hNe => ?_⟩
    have hLast : lastOf w₁ mirror ref = lastOf w mirror ref := by
      rw [lastOf, hBefore.states, lastOf]
    rw [hLast]
    exact hMay hNone hNe
  · cases reply with
    | ok reply =>
        exact safe_return fun w₃ hRely' =>
          ⟨hStill.trans (still_of_meanwhile hRely'), by simp⟩
    | error failure =>
        refine safe_return fun w₃ hRely' =>
          ⟨hStill.trans (still_of_meanwhile hRely'), fun hNil => ?_⟩
        have hRaw : pushRaw failure ≠ [] := hAnswer.2
        exact pushError_ne_nil hRaw mirror (Option.some.inj hNil)

theorem safe_tryPush {observed : RefMap}
    (hObserved : TargetRead w mirror observed) :
    Safe (rules descends)
      (Returns True fun tried w' => Outcome w w' mirror ref sourceSha tried)
      (tryPush mirror (lastOf w mirror ref) ref sourceSha observed) w := by
  rw [tryPush]
  by_cases hSame : sourceSha = RefMap.get observed ref
  · rw [if_pos hSame]
    refine safe_return fun w₁ hRely => ?_
    have hLater := still_of_meanwhile hRely
    exact outcome_equal hLater (hObserved.grow hLater.run hLater.readings)
      hSame
  rw [if_neg hSame]
  split
  · exact safe_return fun w₁ hRely => outcome_caught
      (still_of_meanwhile hRely) _ (by decide)
  · rename_i hRefused
    have hMay : sourceSha = none → RefMap.get observed ref ≠ none →
        lastOf w mirror ref = RefMap.get observed ref := by
      intro hNone hNe
      refine last_of_mayDelete ?_ hNe
      simpa [hNone] using hRefused
    refine safe_then (safe_pushRefToMirror hMay) fun error w₁ hError => ?_
    cases error with
    | none =>
        exact safe_weaken (safe_verifyPush _) fun tried w' hTried =>
          hTried.after hError.1
    | some error =>
        refine safe_return fun w₂ hRely => outcome_caught
          (hError.1.trans (still_of_meanwhile hRely)) _ fun hNil => ?_
        exact hError.2 (by rw [hNil])

/-- **The attempt**: whatever happens meanwhile, a ref it reports as equal was
read equal. -/
theorem safe_tryRef {observed : Option RefMap}
    (hObserved : ObservedRead w mirror observed) :
    Safe (rules descends)
      (Returns True fun tried w' => Outcome w w' mirror ref sourceSha tried)
      (tryRef mirror (lastOf w mirror ref) ref sourceSha observed) w := by
  have hObserve : Safe (rules descends)
      (Returns True fun result w' => Still w w' ∧
        match result with
        | .ok observed => TargetRead w' mirror observed
        | .error message => message ≠ [])
      (observe mirror observed) w := by
    cases observed with
    | none => exact safe_remoteMirrorRefs
    | some map =>
        refine safe_return fun w₁ hRely => ?_
        have hLater := still_of_meanwhile hRely
        exact ⟨hLater, (hObserved map rfl).grow hLater.run hLater.readings⟩
  refine safe_then hObserve fun result w₁ hResult => ?_
  obtain ⟨hStill, hResult⟩ := hResult
  cases result with
  | error message =>
      exact safe_return fun w₂ hRely => outcome_caught
        (hStill.trans (still_of_meanwhile hRely)) none hResult
  | ok map =>
      have hLast : lastOf w mirror ref = lastOf w₁ mirror ref := by
        rw [lastOf, lastOf, hStill.states]
      rw [hLast]
      exact safe_weaken (safe_tryPush hResult) fun tried w' hTried =>
        hTried.after hStill

end OneRef

/-! ## The record of a ref -/

/-- What an attempt leaves: the states of other refs as they were, this one's
record right. -/
structure Recorded (w w' : World) (mirror : Mirror) (ref : JsString) :
    Prop where
  run : w'.run = w.run
  readings : ∀ reading ∈ w.readings, reading ∈ w'.readings
  others : ∀ key, key ≠ (mirror.id, ref) →
    w'.states.find? key = w.states.find? key

theorem Recorded.trans {w w' w'' : World} {mirror : Mirror} {ref : JsString}
    (h : Recorded w w' mirror ref) (h' : Recorded w' w'' mirror ref) :
    Recorded w w'' mirror ref where
  run := h'.run.trans h.run
  readings := fun _ hMem => h'.readings _ (h.readings _ hMem)
  others := fun key hKey => (h'.others key hKey).trans (h.others key hKey)

theorem Still.recorded {w w' : World} (h : Still w w') (mirror : Mirror)
    (ref : JsString) : Recorded w w' mirror ref :=
  ⟨h.run, h.readings, fun key _ => by rw [h.states]⟩

/-- A row was written, and nothing else of the states. -/
structure Put (w w' : World) (row : RefState) : Prop where
  states : w'.states = w.states.put row
  run : w'.run = w.run
  readings : ∀ reading ∈ w.readings, reading ∈ w'.readings

theorem Put.recorded {w w' : World} {row : RefState} (h : Put w w' row)
    {mirror : Mirror} {ref : JsString} (hKey : row.key = (mirror.id, ref)) :
    Recorded w w' mirror ref where
  run := h.run
  readings := h.readings
  others := fun key hOther => by
    rw [h.states]
    rw [← hKey] at hOther
    exact Table.find?_put_ne w.states hOther

section Record

variable {w : World} {mirror : Mirror} {ref : JsString}
  {sourceSha : Option JsString} {old : Option RefState} {tried : Tried}

/-- The row of an attempt records what was seen. -/
theorem rowSeen_stateOf (hRecords : RecordsSeen w)
    (hCurrent : Current w mirror ref old)
    (hEqual : truthy tried.error = false →
      SeenEqual w mirror.id ref sourceSha) (now : Int) :
    RowSeen w (stateOf mirror old ref sourceSha tried now) := by
  cases hError : truthy tried.error with
  | false =>
      simp only [RowSeen, stateOf, hError]
      exact hEqual hError
  | true =>
      simp only [RowSeen, stateOf, hError, if_true]
      -- an error leaves the record as the stored row has it
      rw [← hCurrent.1, ← hCurrent.2]
      cases hFound : w.states.find? (mirror.id, ref) with
      | none => exact rfl
      | some row =>
          have hRow := hRecords row (Table.mem_of_find? hFound)
          have hKey : row.key = (mirror.id, ref) := Table.key_of_find? hFound
          obtain ⟨hId, hRef⟩ := Prod.mk.inj hKey
          rw [RowSeen, hId, hRef] at hRow
          exact hRow

/-- The row is written: the records stay right when the row is. -/
theorem guarantee_of_upsert {w' : World} {row : RefState}
    {reply : Except Failure Unit}
    (h : (rules descends).answer (.upsertState row) w reply w')
    (hRow : RecordsSeen w → RowSeen w row) :
    (rules descends).guarantee (.upsertState row) w reply w' := by
  refine ⟨keepsWork_of_targets (targets_of_answer h.1 (by simp)), ?_⟩
  intro hRecords
  have hPut : RecordsSeen { w with states := w.states.put row } := by
    intro stored hStored
    rcases Table.mem_of_mem_put hStored with rfl | hOld
    · exact hRow hRecords
    · exact hRecords stored hOld
  have hAnswer := h.1
  cases reply with
  | ok reply =>
      rw [show w' = _ from hAnswer]
      exact hPut
  | error failure =>
      rcases hAnswer with rfl | ⟨_, _, hEffect⟩
      · exact hRecords
      · rw [show w' = _ from hEffect]
        exact hPut

theorem safe_upsertState_then {α : Type} {P : α → World → Prop}
    {row : RefState} {f : Unit → Reconciling α}
    (hRow : ∀ w', Still w w' → RecordsSeen w' → RowSeen w' row)
    (hf : ∀ w', Put w w' row →
      Safe (rules descends) (Returns True P) (f ()) w') :
    Safe (rules descends) (Returns True P) (upsertState row >>= f) w := by
  refine safe_perform_then (fun _ => trivial) ?_ ?_
  · exact fun w₁ hRely reply w₂ hAnswer =>
      guarantee_of_upsert hAnswer (hRow w₁ (still_of_meanwhile hRely))
  · intro w₁ hRely reply w₂ hAnswer
    have hBefore := still_of_meanwhile hRely
    refine hf w₂ ?_
    rw [show w₂ = { w₁ with states := w₁.states.put row } from hAnswer.1]
    exact ⟨by rw [hBefore.states], hBefore.run, hBefore.readings⟩

theorem safe_recordPush (started now : Int) :
    Safe (rules descends) (Returns True fun _ w' => Still w w')
      (recordPush mirror old ref sourceSha tried started now) w := by
  rw [recordPush]
  split
  · refine safe_call_then (by simp) (by simp) fun id w₁ h₁ => ?_
    refine safe_call_then (by simp) (by simp) fun ended w₂ h₂ => ?_
    refine safe_perform (fun _ => trivial) ?_ ?_
    · exact fun w₃ _ reply w₄ hAnswer =>
        guarantee_of_other hAnswer (by simp) (by simp)
    · intro w₃ hRely reply w₄ hAnswer w₅ hRely'
      exact (h₁.trans h₂).trans ((still_of_meanwhile hRely).trans
        ((still_of_answer hAnswer.1 (by simp)).trans
          (still_of_meanwhile hRely')))
  · exact safe_return fun w₁ hRely => still_of_meanwhile hRely

/-- **One attempt at a ref.** -/
theorem safe_attempt (hCurrent : Current w mirror ref old)
    {observed : Option RefMap} (hObserved : ObservedRead w mirror observed) :
    Safe (rules descends)
      (Returns True fun tried w' => Recorded w w' mirror ref ∧
        ObservedRead w' mirror tried.observed ∧
        (truthy tried.error = true → Current w' mirror ref old))
      (attempt mirror old ref observed) w := by
  refine safe_then safe_localMirrorRefs fun source w₁ hSource => ?_
  obtain ⟨h₁, hSource⟩ := hSource
  refine safe_call_then (by simp) (by simp) fun started w₂ h₂ => ?_
  have hStill₂ := h₁.trans h₂
  have hLast : old.bind RefState.lastSuccessfulSha = lastOf w₂ mirror ref :=
    (hCurrent.still hStill₂).1.symm
  rw [hLast]
  have hObserved₂ : ObservedRead w₂ mirror observed := fun map hMap =>
    (hObserved map hMap).grow hStill₂.run hStill₂.readings
  refine safe_then (safe_tryRef hObserved₂) fun tried w₃ hTried => ?_
  refine safe_call_then (by simp) (by simp) fun (time : Int) w₄ h₄ => ?_
  have hStill₄ := hStill₂.trans (hTried.still.trans h₄)
  have hRow : ∀ w', Still w₄ w' → RecordsSeen w' →
      RowSeen w' (stateOf mirror old ref (RefMap.get source ref) tried
        (time / 1000)) := by
    intro w' hLater hRecords
    refine rowSeen_stateOf hRecords
      (hCurrent.still (hStill₄.trans hLater)) (fun hOk => ?_) _
    obtain ⟨map, hMap, hSame⟩ := hTried.equal hOk
    have hAfter := h₄.trans hLater
    exact seenEqual_of_reads
      (hSource.still (h₂.trans (hTried.still.trans hAfter)))
      (hMap.grow hAfter.run hAfter.readings) hSame.symm
  refine safe_upsertState_then hRow fun w₅ h₅ => ?_
  refine safe_then (safe_recordPush _ _) fun _ w₆ h₆ => ?_
  refine safe_return fun w₇ hRely => ?_
  have hEnd := h₆.trans (still_of_meanwhile hRely)
  have hPut : Recorded w₄ w₅ mirror ref := h₅.recorded rfl
  refine ⟨(hStill₄.recorded mirror ref).trans
    (hPut.trans (hEnd.recorded mirror ref)), fun map hMap => ?_,
    fun hError => ?_⟩
  · have hRead := (hTried.observed map hMap).grow h₄.run h₄.readings
    exact (hRead.grow h₅.run h₅.readings).grow hEnd.run hEnd.readings
  · refine Current.still hEnd ?_
    have hFound := Table.find?_put_self w₄.states
      (stateOf mirror old ref (RefMap.get source ref) tried (time / 1000))
    rw [← h₅.states] at hFound
    have hFound : w₅.states.find? (mirror.id, ref) = _ := hFound
    rw [Current, hFound]
    simp [stateOf, hError]

/-- **The attempts at a ref**: those at other refs find their states as they
were. -/
theorem safe_attempts (left : Nat) (hCurrent : Current w mirror ref old)
    {observed : Option RefMap} (hObserved : ObservedRead w mirror observed) :
    Safe (rules descends)
      (Returns True fun observed w' => Recorded w w' mirror ref ∧
        ObservedRead w' mirror observed)
      (attempts mirror old ref left observed) w := by
  induction left generalizing w observed with
  | zero =>
      refine safe_return fun w₁ hRely => ?_
      have hLater := still_of_meanwhile hRely
      exact ⟨hLater.recorded mirror ref, fun map hMap =>
        (hObserved map hMap).grow hLater.run hLater.readings⟩
  | succ left ih =>
      refine safe_then (safe_attempt hCurrent hObserved)
        fun tried w₁ hTried => ?_
      obtain ⟨hRecorded, hRead, hSame⟩ := hTried
      have hStop : Safe (rules descends)
          (Returns True fun observed w' => Recorded w w' mirror ref ∧
            ObservedRead w' mirror observed)
          (pure tried.observed) w₁ := by
        refine safe_return fun w₂ hRely => ?_
        have hLater := still_of_meanwhile hRely
        exact ⟨hRecorded.trans (hLater.recorded mirror ref), fun map hMap =>
          (hRead map hMap).grow hLater.run hLater.readings⟩
      split
      · exact hStop
      · rename_i hError
        split
        · exact hStop
        split
        · exact hStop
        -- a failed attempt left the record of this ref as it was
        have hCurrent₁ : Current w₁ mirror ref old :=
          hSame (by simpa using hError)
        refine safe_call_then (by simp) (by simp) fun _ w₂ h₂ => ?_
        have hRead₂ : ObservedRead w₂ mirror tried.observed :=
          fun map hMap => (hRead map hMap).grow h₂.run h₂.readings
        refine safe_weaken (ih (hCurrent₁.still h₂) hRead₂)
          fun observed w' hLater => ?_
        exact ⟨hRecorded.trans ((h₂.recorded mirror ref).trans hLater.1),
          hLater.2⟩

end Record

/-! ## All refs of all mirrors -/

/-- **The refs of a mirror**, none of them twice. -/
theorem safe_eachRef {w : World} {mirror : Mirror} {known : List RefState}
    {refs : List JsString} (hNodup : refs.Nodup)
    (hCurrent : ∀ ref ∈ refs, Current w mirror ref (rowOf known ref))
    {observed : Option RefMap} (hObserved : ObservedRead w mirror observed) :
    Safe (rules descends) (Returns True fun _ _ => True)
      (eachRef mirror known refs observed) w := by
  induction refs generalizing w observed with
  | nil => exact safe_return fun _ _ => trivial
  | cons ref refs ih =>
      obtain ⟨hFresh, hNodup⟩ := List.nodup_cons.mp hNodup
      have hFirst := hCurrent ref List.mem_cons_self
      refine safe_then (safe_attempts 3 hFirst hObserved)
        fun observed w₁ hLater => ?_
      refine ih hNodup (fun other hOther => ?_) hLater.2
      have hKey : (mirror.id, other) ≠ (mirror.id, ref) := by
        intro hSame
        rw [← (Prod.mk.inj hSame).2] at hFresh
        exact hFresh hOther
      rw [Current, hLater.1.others _ hKey]
      exact hCurrent other (List.mem_cons_of_mem ref hOther)

/-- The rows of a mirror, by ref, are the rows of the table. -/
theorem rowOf_selected (states : Table RefState.key) (mirrorId ref : JsString) :
    rowOf (states.rows.filter fun row => row.mirrorId == mirrorId) ref =
      states.find? (mirrorId, ref) := by
  have hRow : ∀ row,
      row ∈ (states.rows.filter fun row => row.mirrorId == mirrorId).reverse →
        (row.ref == ref) = true →
          states.find? (mirrorId, ref) = some row := by
    intro row hMem hRef
    obtain ⟨hStored, hMirror⟩ :=
      List.mem_filter.mp (List.mem_reverse.mp hMem)
    have hKey : row.key = (mirrorId, ref) :=
      Prod.ext (beq_iff_eq.mp hMirror) (beq_iff_eq.mp hRef)
    rw [← hKey]
    exact Table.find?_of_mem hStored
  rw [rowOf]
  cases hFound : (states.rows.filter
      fun row => row.mirrorId == mirrorId).reverse.find?
        fun row => row.ref == ref with
  | some row =>
      have hRef : row.ref = ref := by simpa using List.find?_some hFound
      exact (hRow row (List.mem_of_find?_eq_some hFound)
        (beq_iff_eq.mpr hRef)).symm
  | none =>
      cases hStored : states.find? (mirrorId, ref) with
      | none => rfl
      | some row =>
          have hKey : row.key = (mirrorId, ref) := Table.key_of_find? hStored
          obtain ⟨hId, hRef⟩ := Prod.mk.inj hKey
          have hNot := List.find?_eq_none.mp hFound row
            (List.mem_reverse.mpr (List.mem_filter.mpr
              ⟨Table.mem_of_find? hStored, beq_iff_eq.mpr hId⟩))
          exact absurd (beq_iff_eq.mpr hRef) hNot

theorem nodup_allRefs (source : RefMap) (known : List RefState) :
    (allRefs source known).Nodup := nodup_eraseDups _

theorem safe_eachMirror (w : World) (mirrors : List Mirror) :
    Safe (rules descends) (Returns True fun _ _ => True)
      (eachMirror mirrors) w := by
  induction mirrors generalizing w with
  | nil => exact safe_return fun _ _ => trivial
  | cons mirror mirrors ih =>
      refine safe_perform_then (fun _ => trivial) ?_ ?_
      · exact fun w₁ _ reply w₂ hAnswer =>
          guarantee_of_other hAnswer (by simp) (by simp)
      intro w₁ _ known w₂ hAnswer
      obtain ⟨⟨hKnown, rfl⟩, _⟩ := hAnswer
      refine safe_then safe_localMirrorRefs fun source w₃ hSource => ?_
      refine safe_then (safe_eachRef (nodup_allRefs source known)
        (fun ref _ => ?_) (observedRead_none w₃ mirror))
        fun _ w₄ _ => ih w₄
      refine Current.still hSource.1 ?_
      rw [hKnown, rowOf_selected]
      exact ⟨rfl, rfl⟩

/-- **A reconciliation is safe** whatever happens meanwhile. -/
theorem safe_reconcile (w : World) :
    Safe (rules descends) (Returns True fun _ _ => True) reconcile w :=
  safe_call_then (by simp) (by simp) fun targets w' _ =>
    safe_eachMirror w' (targets.filter fun mirror => mirror.enabled != 0)

/-! ## Every run -/

/-- What a run of reconciliations needs. -/
theorem discipline (descends : JsString → JsString → Prop) :
    Discipline (reconcileMirrors descends) Legible (rules descends)
      RecordsSeen where
  env := fun h _ => h
  answer := fun h hOk => ⟨h, hOk⟩
  program := fun _ => (safe_reconcile _).mono fun _ _ _ => trivial
  enter := fun h row hRow => h row hRow
  rely := fun h hRecords => recordsSeen_still (still_of_meanwhile h) hRecords
  guarantee := fun h hRecords => h.2 hRecords

end OpenApe.Ports.MirrorSafety
