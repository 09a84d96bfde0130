import OpenApe.Ports.MirrorSafety

/-!
# What an undisturbed reconciliation achieves

When nothing else happens and every call succeeds, what a reconciliation reads
is what there is.  Each ref of the source is then brought to the mirror at the
first attempt, and stays there while the others are.
-/

namespace OpenApe.Ports.MirrorConvergence

open MirrorRefs MirrorReconcile
open Verified.JsText Verified.Programs.Program Verified.RelyGuarantee

variable {descends : JsString → JsString → Prop}

def Unchanged (w w' : World) : Prop := w' = w

theorem unchanged_refl (w : World) : Unchanged w w := rfl

theorem unchanged_trans {w w' w'' : World} (h : Unchanged w w')
    (h' : Unchanged w' w'') : Unchanged w w'' :=
  Eq.trans h' h

/-- Nothing else happens, and every call succeeds. -/
def quietRules (descends : JsString → JsString → Prop) :
    Rules mirroring Failure World where
  rely := Unchanged
  answer := fun call w reply w' =>
    ∃ value, reply = .ok value ∧ Effect descends call w value w' ∧
      LegibleReply w call reply
  guarantee := fun _ _ _ _ => True
  rely_refl := unchanged_refl
  rely_trans := unchanged_trans

/-- The ref is at the mirror what it is at the source. -/
def Equal (w : World) (url ref : JsString) : Prop :=
  (w.targets url).get ref = w.source.get ref

/-- Source and mirrors are the same, and refs that were equal still are. -/
structure Progress (w w' : World) : Prop where
  source : w'.source = w.source
  mirrors : w'.mirrors = w.mirrors
  equal : ∀ url ref, Equal w url ref → Equal w' url ref

theorem Progress.refl (w : World) : Progress w w :=
  ⟨rfl, rfl, fun _ _ h => h⟩

theorem Progress.trans {w w' w'' : World} (h : Progress w w')
    (h' : Progress w' w'') : Progress w w'' :=
  ⟨h'.source.trans h.source, h'.mirrors.trans h.mirrors,
    fun url ref hEqual => h'.equal url ref (h.equal url ref hEqual)⟩

/-- A map that says what the mirror has. -/
def Actual (w : World) (mirror : Mirror) (map : RefMap) : Prop :=
  ∀ ref, RefMap.get map ref = (w.targets mirror.url).get ref

def ObservedActual (w : World) (mirror : Mirror) (observed : Option RefMap) :
    Prop :=
  ∀ map, observed = some map → Actual w mirror map

/-- Nothing but the targets changed, or not even they. -/
structure Same (w w' : World) : Prop where
  source : w'.source = w.source
  mirrors : w'.mirrors = w.mirrors
  targets : w'.targets = w.targets

theorem Same.progress {w w' : World} (h : Same w w') : Progress w w' where
  source := h.source
  mirrors := h.mirrors
  equal := fun url ref hEqual => by
    rw [Equal, h.targets, h.source]
    exact hEqual

theorem Same.trans {w w' w'' : World} (h : Same w w') (h' : Same w' w'') :
    Same w w'' :=
  ⟨h'.source.trans h.source, h'.mirrors.trans h.mirrors,
    h'.targets.trans h.targets⟩

theorem Same.actual {w w' : World} (h : Same w w') {mirror : Mirror}
    {map : RefMap} (hActual : Actual w mirror map) : Actual w' mirror map := by
  intro ref
  rw [h.targets]
  exact hActual ref

theorem same_of_effect {call : Call} {w w' : World}
    {reply : Call.Reply call} (h : Effect descends call w reply w')
    (hPush : ∀ mirror ref lease sha, call ≠ .push mirror ref lease sha) :
    Same w w' := by
  cases call with
  | push mirror ref lease sha => exact absurd rfl (hPush mirror ref lease sha)
  | selectMirrors =>
      rw [h.2]
      exact ⟨rfl, rfl, rfl⟩
  | selectStates mirrorId =>
      rw [h.2]
      exact ⟨rfl, rfl, rfl⟩
  | forEachRef =>
      rw [h.2]
      exact ⟨rfl, rfl, rfl⟩
  | lsRemote mirror =>
      rw [h.2]
      exact ⟨rfl, rfl, rfl⟩
  | now =>
      rw [show w' = w from h]
      exact ⟨rfl, rfl, rfl⟩
  | ulid =>
      rw [show w' = w from h]
      exact ⟨rfl, rfl, rfl⟩
  | upsertState row =>
      rw [show w' = _ from h]
      exact ⟨rfl, rfl, rfl⟩
  | insertPush row =>
      rw [show w' = _ from h]
      exact ⟨rfl, rfl, rfl⟩
  | sleep ms =>
      rw [show w' = w from h]
      exact ⟨rfl, rfl, rfl⟩

/-! ## The calls -/

section Calls

variable {w : World} {mirror : Mirror} {ref : JsString}

/-- A call that is no push, and what follows. -/
theorem quiet_call_then {α : Type} {P : α → World → Prop} {call : Call}
    {f : Call.Reply call → Reconciling α}
    (hPush : ∀ mirror ref lease sha, call ≠ .push mirror ref lease sha)
    (hf : ∀ reply w', Effect descends call w reply w' → Same w w' →
      LegibleReply w call (.ok reply) →
        Safe (quietRules descends) (Returns False P) (f reply) w') :
    Safe (quietRules descends) (Returns False P)
      (perform (I := mirroring) call >>= f) w := by
  refine safe_perform_then ?_ (fun _ _ _ _ _ => trivial) ?_
  · rintro w₁ failure w₂ ⟨value, hError, _⟩
    cases hError
  · rintro w₁ rfl reply w₂ ⟨value, hValue, hEffect, hLegible⟩
    obtain rfl := Except.ok.inj hValue
    exact hf reply w₂ hEffect (same_of_effect hEffect hPush) hLegible

theorem quiet_localMirrorRefs :
    Safe (quietRules descends)
      (Returns False fun source w' => Same w w' ∧
        ∀ ref, RefMap.get source ref = w.source.get ref)
      localMirrorRefs w := by
  refine quiet_call_then (by simp) fun stdout w₁ hEffect hSame hPlain => ?_
  obtain ⟨rfl, _⟩ := hEffect
  have hPlain : Plain w.source := hPlain
  refine safe_return fun w₂ hRely => ?_
  rw [show w₂ = w₁ from hRely]
  refine ⟨hSame, fun ref => ?_⟩
  rw [parseMirrorRefs_localOutput hPlain]
  rfl

theorem quiet_remoteMirrorRefs :
    Safe (quietRules descends)
      (Returns False fun result w' => Same w w' ∧
        ∃ map, result = .ok map ∧ Actual w' mirror map)
      (remoteMirrorRefs mirror) w := by
  refine safe_ask fun w₁ hRely reply w₂ hAnswer => ?_
  rw [show w₁ = w from hRely] at hAnswer
  obtain ⟨stdout, rfl, hEffect, hPlain⟩ := hAnswer
  have hSame := same_of_effect hEffect (by simp)
  refine ⟨trivial, safe_return fun w₃ hRely' => ?_⟩
  rw [show w₃ = w₂ from hRely']
  obtain ⟨rfl, _⟩ := hEffect
  have hPlain : Plain (w.targets mirror.url) := hPlain
  refine ⟨hSame, _, rfl, fun ref => ?_⟩
  rw [parseMirrorRefs_remoteOutput hPlain, hSame.targets]
  rfl

/-- A push makes the ref equal, and leaves the others alone. -/
theorem progress_pushed {w' : World} {lease : Option (Option JsString)}
    (hEffect : Effect descends
      (.push mirror ref lease (w.source.get ref)) w () w') :
    Progress w w' ∧ Equal w' mirror.url ref := by
  obtain ⟨after, ⟨hUpdated, _⟩, rfl⟩ := hEffect
  constructor
  · refine ⟨rfl, rfl, fun url name hEqual => ?_⟩
    show (Function.update w.targets mirror.url after url).get name =
      w.source.get name
    by_cases hUrl : url = mirror.url
    · subst hUrl
      rw [Function.update_self, hUpdated name]
      by_cases hName : name = ref
      · rw [if_pos hName, hName]
      · rw [if_neg hName]
        exact hEqual
    · rw [Function.update_of_ne hUrl]
      exact hEqual
  · show (Function.update w.targets mirror.url after mirror.url).get ref =
      w.source.get ref
    rw [Function.update_self, hUpdated ref, if_pos rfl]

end Calls

/-! ## One ref -/

/-- What an attempt achieves: what it hands on is what there is, and a ref of
the source is at the mirror. -/
structure Achieved (w w' : World) (mirror : Mirror) (ref : JsString)
    (tried : Tried) : Prop where
  progress : Progress w w'
  observed : ObservedActual w' mirror tried.observed
  done : w.source.get ref ≠ none →
    truthy tried.error = false ∧ Equal w' mirror.url ref

section OneRef

variable {w : World} {mirror : Mirror} {ref : JsString}

theorem achieved_equal {w' : World} (hProgress : Progress w w')
    {map : RefMap} (hActual : Actual w' mirror map)
    (hEqual : w.source.get ref = RefMap.get map ref) :
    Achieved w w' mirror ref ⟨some map, RefMap.get map ref, none⟩ where
  progress := hProgress
  observed := fun map' hMap => by
    obtain rfl := Option.some.inj hMap
    exact hActual
  done := fun _ => ⟨rfl, by
    rw [Equal, hProgress.source, hEqual]
    exact (hActual ref).symm⟩

/-- What was pushed is found at the mirror. -/
theorem quiet_verifyPush (targetSha : Option JsString)
    (hEqual : Equal w mirror.url ref) :
    Safe (quietRules descends)
      (Returns False fun tried w' => Achieved w w' mirror ref tried)
      (verifyPush mirror ref (w.source.get ref) targetSha) w := by
  refine safe_then quiet_remoteMirrorRefs fun result w₁ hResult => ?_
  obtain ⟨hSame, map, rfl, hActual⟩ := hResult
  have hGet : w.source.get ref = RefMap.get map ref := by
    rw [hActual ref, hSame.targets]
    exact hEqual.symm
  dsimp only
  rw [if_neg (not_not_intro hGet)]
  refine safe_return fun w₂ hRely => ?_
  rw [show w₂ = w₁ from hRely]
  exact achieved_equal hSame.progress hActual hGet

theorem quiet_pushRefToMirror (targetSha : Option JsString) :
    Safe (quietRules descends)
      (Returns False fun error w' => error = none ∧ Progress w w' ∧
        Equal w' mirror.url ref)
      (pushRefToMirror mirror ref (w.source.get ref) targetSha) w := by
  refine safe_ask fun w₁ hRely reply w₂ hAnswer => ?_
  rw [show w₁ = w from hRely] at hAnswer
  obtain ⟨_, rfl, hEffect, _⟩ := hAnswer
  refine ⟨trivial, safe_return fun w₃ hRely' => ?_⟩
  rw [show w₃ = w₂ from hRely']
  exact ⟨rfl, progress_pushed hEffect⟩

theorem Achieved.after {w₁ w' : World} {tried : Tried}
    (h : Progress w w₁) (hAchieved : Achieved w₁ w' mirror ref tried) :
    Achieved w w' mirror ref tried where
  progress := h.trans hAchieved.progress
  observed := hAchieved.observed
  done := fun hSome => hAchieved.done (h.source.symm ▸ hSome)

theorem quiet_tryPush {last : Option JsString} {map : RefMap}
    (hActual : Actual w mirror map) :
    Safe (quietRules descends)
      (Returns False fun tried w' => Achieved w w' mirror ref tried)
      (tryPush mirror last ref (w.source.get ref) map) w := by
  rw [tryPush]
  by_cases hSame : w.source.get ref = RefMap.get map ref
  · rw [if_pos hSame]
    refine safe_return fun w₁ hRely => ?_
    rw [show w₁ = w from hRely]
    exact achieved_equal (Progress.refl w) hActual hSame
  rw [if_neg hSame]
  split
  · -- a deletion that is refused: the source does not have the ref
    rename_i hRefused
    refine safe_return fun w₁ hRely => ?_
    rw [show w₁ = w from hRely]
    have hAbsent : w.source.get ref = none := by
      rw [Bool.and_eq_true, beq_iff_eq] at hRefused
      exact hRefused.1
    exact
      { progress := Progress.refl w
        observed := fun _ hMap => absurd hMap (by simp [caught])
        done := fun hSome => absurd hAbsent hSome }
  · refine safe_then (quiet_pushRefToMirror _) fun error w₁ hPush => ?_
    obtain ⟨rfl, hProgress, hEqual⟩ := hPush
    dsimp only
    rw [← hProgress.source]
    exact safe_weaken (quiet_verifyPush _ hEqual) fun tried w' hTried =>
      hTried.after hProgress

theorem quiet_tryRef {last : Option JsString} {observed : Option RefMap}
    (hObserved : ObservedActual w mirror observed) :
    Safe (quietRules descends)
      (Returns False fun tried w' => Achieved w w' mirror ref tried)
      (tryRef mirror last ref (w.source.get ref) observed) w := by
  have hObserve : Safe (quietRules descends)
      (Returns False fun result w' => Same w w' ∧
        ∃ map, result = .ok map ∧ Actual w' mirror map)
      (observe mirror observed) w := by
    cases observed with
    | none => exact quiet_remoteMirrorRefs
    | some map =>
        refine safe_return fun w₁ hRely => ?_
        rw [show w₁ = w from hRely]
        exact ⟨⟨rfl, rfl, rfl⟩, map, rfl, hObserved map rfl⟩
  refine safe_then hObserve fun result w₁ hResult => ?_
  obtain ⟨hSame, map, rfl, hActual⟩ := hResult
  dsimp only
  rw [← hSame.source]
  exact safe_weaken (quiet_tryPush hActual) fun tried w' hTried =>
    hTried.after hSame.progress

theorem quiet_recordPush {old : Option RefState} {sourceSha : Option JsString}
    {tried : Tried} (started now : Int) :
    Safe (quietRules descends) (Returns False fun _ w' => Same w w')
      (recordPush mirror old ref sourceSha tried started now) w := by
  rw [recordPush]
  split
  · refine quiet_call_then (by simp) fun id w₁ _ h₁ _ => ?_
    refine quiet_call_then (by simp) fun ended w₂ _ h₂ _ => ?_
    refine safe_perform ?_ (fun _ _ _ _ _ => trivial) ?_
    · rintro w₃ failure w₄ ⟨value, hError, _⟩
      cases hError
    · rintro w₃ rfl reply w₄ ⟨value, _, hEffect, _⟩ w₅ rfl
      exact (h₁.trans h₂).trans (same_of_effect hEffect (by simp))
  · refine safe_return fun w₁ hRely => ?_
    rw [show w₁ = w from hRely]
    exact ⟨rfl, rfl, rfl⟩

theorem Achieved.before {w' w₁ : World} {tried : Tried}
    (hAchieved : Achieved w w' mirror ref tried) (h : Same w' w₁) :
    Achieved w w₁ mirror ref tried where
  progress := hAchieved.progress.trans h.progress
  observed := fun map hMap => h.actual (hAchieved.observed map hMap)
  done := fun hSome =>
    ⟨(hAchieved.done hSome).1,
      h.progress.equal mirror.url ref (hAchieved.done hSome).2⟩

/-- **One attempt** is enough. -/
theorem quiet_attempt {old : Option RefState} {observed : Option RefMap}
    (hObserved : ObservedActual w mirror observed) :
    Safe (quietRules descends)
      (Returns False fun tried w' => Achieved w w' mirror ref tried)
      (attempt mirror old ref observed) w := by
  refine safe_then quiet_localMirrorRefs fun source w₁ hSource => ?_
  obtain ⟨h₁, hSource⟩ := hSource
  refine quiet_call_then (by simp) fun started w₂ _ h₂ _ => ?_
  have hSame := h₁.trans h₂
  have hObserved₂ : ObservedActual w₂ mirror observed := fun map hMap =>
    hSame.actual (hObserved map hMap)
  rw [hSource ref, ← hSame.source]
  refine safe_then (quiet_tryRef hObserved₂) fun tried w₃ hTried => ?_
  refine quiet_call_then (by simp) fun time w₄ _ h₄ _ => ?_
  refine quiet_call_then (by simp) fun _ w₅ _ h₅ _ => ?_
  refine safe_then (quiet_recordPush _ _) fun _ w₆ h₆ => ?_
  refine safe_return fun w₇ hRely => ?_
  rw [show w₇ = w₆ from hRely]
  exact (hTried.before (h₄.trans (h₅.trans h₆))).after hSame.progress

/-- **The attempts at a ref**: one is enough. -/
theorem quiet_attempts {old : Option RefState} (left : Nat)
    {observed : Option RefMap}
    (hObserved : ObservedActual w mirror observed) :
    Safe (quietRules descends)
      (Returns False fun observed w' => Progress w w' ∧
        ObservedActual w' mirror observed ∧
        (0 < left → w.source.get ref ≠ none → Equal w' mirror.url ref))
      (attempts mirror old ref left observed) w := by
  induction left generalizing w observed with
  | zero =>
      refine safe_return fun w₁ hRely => ?_
      rw [show w₁ = w from hRely]
      exact ⟨Progress.refl w, hObserved, fun hLess => absurd hLess (by simp)⟩
  | succ left ih =>
      refine safe_then (quiet_attempt hObserved) fun tried w₁ hTried => ?_
      have hStop : Safe (quietRules descends)
          (Returns False fun observed w' => Progress w w' ∧
            ObservedActual w' mirror observed ∧
            (0 < left + 1 → w.source.get ref ≠ none →
              Equal w' mirror.url ref))
          (pure tried.observed) w₁ := by
        refine safe_return fun w₂ hRely => ?_
        rw [show w₂ = w₁ from hRely]
        exact ⟨hTried.progress, hTried.observed,
          fun _ hSome => (hTried.done hSome).2⟩
      split
      · exact hStop
      · rename_i hError
        split
        · exact hStop
        split
        · exact hStop
        -- further attempts are made only where the source has no such ref
        have hAbsent : w.source.get ref = none := by
          by_contra hSome
          exact hError (by rw [(hTried.done hSome).1]; rfl)
        refine quiet_call_then (by simp) fun _ w₂ _ h₂ _ => ?_
        have hObserved₂ : ObservedActual w₂ mirror tried.observed :=
          fun map hMap => h₂.actual (hTried.observed map hMap)
        refine safe_weaken (ih hObserved₂) fun observed w' hLater => ?_
        exact ⟨hTried.progress.trans (h₂.progress.trans hLater.1), hLater.2.1,
          fun _ hSome => absurd hAbsent hSome⟩

end OneRef

/-! ## All refs of all mirrors -/

/-- **The refs of a mirror** are at it when the loop ends. -/
theorem quiet_eachRef {w : World} {mirror : Mirror} {known : List RefState}
    {refs : List JsString} {observed : Option RefMap}
    (hObserved : ObservedActual w mirror observed) :
    Safe (quietRules descends)
      (Returns False fun _ w' => Progress w w' ∧
        ∀ ref ∈ refs, w.source.get ref ≠ none → Equal w' mirror.url ref)
      (eachRef mirror known refs observed) w := by
  induction refs generalizing w observed with
  | nil =>
      refine safe_return fun w₁ hRely => ?_
      rw [show w₁ = w from hRely]
      exact ⟨Progress.refl w, fun _ hMem => absurd hMem List.not_mem_nil⟩
  | cons ref refs ih =>
      refine safe_then (quiet_attempts 3 hObserved) fun observed w₁ hFirst => ?_
      obtain ⟨hProgress, hObserved₁, hEqual⟩ := hFirst
      refine safe_weaken (ih hObserved₁) fun _ w' hRest => ?_
      refine ⟨hProgress.trans hRest.1, fun other hOther hSome => ?_⟩
      rcases List.mem_cons.mp hOther with rfl | hOther
      · exact hRest.1.equal mirror.url other (hEqual (by simp) hSome)
      · exact hRest.2 other hOther (hProgress.source.symm ▸ hSome)

/-- Every ref of the source is gone through. -/
theorem mem_allRefs {source : RefMap} {known : List RefState}
    {ref : JsString} (h : RefMap.get source ref ≠ none) :
    ref ∈ allRefs source known := by
  obtain ⟨sha, hSha⟩ := Option.ne_none_iff_exists'.mp h
  rw [RefMap.get, Option.map_eq_some_iff] at hSha
  obtain ⟨entry, hFound, _⟩ := hSha
  have hKey : entry.1 = ref := by simpa using List.find?_some hFound
  have hMem := List.mem_reverse.mp (List.mem_of_find?_eq_some hFound)
  rw [allRefs, List.mem_eraseDups, ← hKey]
  exact List.mem_append_left _ (List.mem_map_of_mem hMem)

theorem quiet_eachMirror (w : World) (mirrors : List Mirror) :
    Safe (quietRules descends)
      (Returns False fun _ w' => Progress w w' ∧
        ∀ mirror ∈ mirrors, ∀ ref, w.source.get ref ≠ none →
          Equal w' mirror.url ref)
      (eachMirror mirrors) w := by
  induction mirrors generalizing w with
  | nil =>
      refine safe_return fun w₁ hRely => ?_
      rw [show w₁ = w from hRely]
      exact ⟨Progress.refl w, fun _ hMem => absurd hMem List.not_mem_nil⟩
  | cons mirror mirrors ih =>
      refine quiet_call_then (by simp) fun known w₁ _ h₁ _ => ?_
      refine safe_then quiet_localMirrorRefs fun source w₂ hSource => ?_
      obtain ⟨h₂, hSource⟩ := hSource
      have hSame := h₁.trans h₂
      refine safe_then (quiet_eachRef fun _ hMap => by cases hMap)
        fun _ w₃ hMirror => ?_
      refine safe_weaken (ih w₃) fun _ w' hRest => ?_
      have hProgress := hSame.progress.trans hMirror.1
      refine ⟨hProgress.trans hRest.1, fun other hOther ref hSome => ?_⟩
      rcases List.mem_cons.mp hOther with rfl | hOther
      · refine hRest.1.equal other.url ref (hMirror.2 ref (mem_allRefs ?_) ?_)
        · rw [hSource ref, h₁.source]
          exact hSome
        · rw [hSame.source]
          exact hSome
      · exact hRest.2 other hOther ref (hProgress.source.symm ▸ hSome)

/-- **An undisturbed reconciliation** brings every ref of the source to every
enabled mirror. -/
theorem quiet_reconcile (w : World) :
    Safe (quietRules descends) (Returns False fun _ w' => Mirrored w')
      reconcile w := by
  refine quiet_call_then (by simp) fun targets w₁ hEffect h₁ _ => ?_
  obtain ⟨rfl, _⟩ := hEffect
  refine safe_weaken (quiet_eachMirror w₁ _) fun _ w' hEnd => ?_
  obtain ⟨hProgress, hAll⟩ := hEnd
  intro mirror hMirror hEnabled ref sha hSha
  rw [hProgress.mirrors, h₁.mirrors] at hMirror
  have hListed : mirror ∈ w.mirrors.filter fun mirror => mirror.enabled != 0 :=
    List.mem_filter.mpr ⟨hMirror, bne_iff_ne.mpr hEnabled⟩
  have hSome : w₁.source.get ref ≠ none := by
    rw [← hProgress.source, hSha]
    simp
  exact (hAll mirror hListed ref hSome).trans hSha

end OpenApe.Ports.MirrorConvergence
