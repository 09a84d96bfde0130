import OpenApe.Ports.MirrorConvergence

/-!
# Mirroring destroys no foreign work

`protects` puts together what a reconciliation guarantees beside others and
what it achieves alone, for every run.  It needs refs whose names hold no
white space: git allows any but the ASCII blank, and a name that holds some is
read as the part before it (`protects_noBreakSpace`).
-/

namespace OpenApe.Ports.MirrorProtection

open MirrorRefs MirrorReconcile MirrorSafety MirrorConvergence
open Verified.JsText Verified.KeyedTable Verified.SerialJobs

/-- A call that was answered succeeded. -/
theorem answer_of_answered {descends : JsString → JsString → Prop}
    {i : Nat} {call : Call} {w w' : World}
    {reply : Except Failure (Call.Reply call)}
    (hAnswer : Answer descends call w reply w')
    (hOk : Answered w (.call i call reply)) :
    (quietRules descends).answer call w reply w' := by
  cases reply with
  | ok value => exact ⟨value, rfl, hAnswer, hOk⟩
  | error failure => exact hOk.elim

/-- **Mirroring destroys no foreign work** where refs and errors are legible,
and an undisturbed reconciliation is complete where it is answered. -/
theorem protects (descends : JsString → JsString → Prop) :
    Protects descends Legible Answered := by
  intro world labels s hEmpty hPath
  have hStart : RecordsSeen world := by
    intro row hRow
    rw [hEmpty] at hRow
    exact absurd hRow List.not_mem_nil
  have hSound : Sound (rules descends) RecordsSeen s :=
    sound_path (discipline descends) hPath (sound_initial hStart)
  refine ⟨?_, hSound.world, ?_⟩
  · intro i call reply s' hStep hOk
    exact (hSound.call (discipline descends) hStep hOk).1.1
  · intro i inner s' hQuiet
    obtain ⟨result, hResult⟩ := post_of_quiet
      (fun hAnswer hOk => answer_of_answered hAnswer hOk.1)
      (fun w hOk => hOk.2) hSound.chain (quiet_reconcile _) hQuiet
    cases result with
    | ok value => exact hResult
    | error failure => exact hResult.elim

/-! ## A name with white space -/

section SingleRef

variable {ref sha : JsString}

theorem names_single (h : isRefName ref = true ∧ isObjectName sha = true) :
    ∀ entry ∈ [(ref, sha)], isRefName entry.1 = true := by
  intro entry hEntry
  rw [List.mem_singleton.mp hEntry]
  exact h.1

theorem shas_single (h : isRefName ref = true ∧ isObjectName sha = true) :
    ∀ entry ∈ [(ref, sha)], isObjectName entry.2 = true := by
  intro entry hEntry
  rw [List.mem_singleton.mp hEntry]
  exact h.2

theorem nodup_single (ref sha : JsString) :
    ([(ref, sha)].map Prod.fst).Nodup := List.nodup_singleton ref

end SingleRef

/-- A repository with one ref. -/
def singleRef (ref sha : JsString)
    (h : isRefName ref = true ∧ isObjectName sha = true) : Refs where
  entries := [(ref, sha)]
  nodup := nodup_single ref sha
  names := names_single h
  shas := shas_single h

theorem nodup_none : (([] : RefMap).map Prod.fst).Nodup := List.nodup_nil

theorem forall_none {P : JsString × JsString → Prop} :
    ∀ entry ∈ ([] : RefMap), P entry :=
  fun _ hEntry => absurd hEntry List.not_mem_nil

def noRefs : Refs where
  entries := []
  nodup := nodup_none
  names := forall_none
  shas := forall_none

/-- What the calls answer, when a push creates the only ref. -/
def answerAlone : (call : Call) → World → Option (Call.Reply call × World)
  | .selectMirrors, w => some (w.mirrors, w)
  | .selectStates mirrorId, w =>
      some (w.states.rows.filter fun row => row.mirrorId == mirrorId, w)
  | .forEachRef, w => some (localOutput w.source, w.read (.source w.source))
  | .lsRemote mirror, w =>
      some (remoteOutput (w.targets mirror.url),
        w.read (.target mirror (w.targets mirror.url)))
  | .push mirror ref none (some sha), w =>
      if h : isRefName ref = true ∧ isObjectName sha = true then
        if (w.targets mirror.url).entries = [] then
          some ((),
            { w with
              targets := Function.update w.targets mirror.url
                (singleRef ref sha h) })
        else none
      else none
  | .push _ _ _ _, _ => none
  | .now, w => some ((0 : Int), w)
  | .ulid, w => some (([] : JsString), w)
  | .upsertState row, w => some ((), { w with states := w.states.put row })
  | .insertPush row, w => some ((), { w with pushes := w.pushes ++ [row] })
  | .sleep _, w => some ((), w)

/-- A program run alone, as far as calls are answered. -/
def runAlone : Reconciling Unit → World → Option World
  | .done _, w => some w
  | .fail _, _ => none
  | .ask call next, w =>
      match answerAlone call w with
      | some (reply, w') => runAlone (next (.ok reply)) w'
      | none => none

theorem updated_single {before : Refs} (hEmpty : before.entries = [])
    {ref sha : JsString}
    (h : isRefName ref = true ∧ isObjectName sha = true) :
    Updated before ref (some sha) (singleRef ref sha h) := by
  intro name
  have hBefore : before.get name = none := by
    rw [Refs.get, hEmpty]
    rfl
  rw [hBefore]
  by_cases hName : name = ref
  · rw [if_pos hName, hName, Refs.get_eq_some_iff]
    exact List.mem_singleton_self _
  · rw [if_neg hName]
    cases hGet : (singleRef ref sha h).get name with
    | none => rfl
    | some other =>
        have hEntry := List.mem_singleton.mp (Refs.get_eq_some_iff.mp hGet)
        exact absurd (Prod.mk.inj hEntry).1 hName

/-- What is answered alone is an answer. -/
theorem effect_of_answerAlone {descends : JsString → JsString → Prop}
    {call : Call} {w w' : World} {reply : Call.Reply call}
    (h : answerAlone call w = some (reply, w')) :
    Effect descends call w reply w' := by
  cases call with
  | push mirror ref lease sourceSha =>
      cases lease with
      | some leased => simp [answerAlone] at h
      | none =>
          cases sourceSha with
          | none => simp [answerAlone] at h
          | some sha =>
              rw [answerAlone] at h
              split at h
              · rename_i hValid
                split at h
                · rename_i hEmpty
                  obtain ⟨_, rfl⟩ := Prod.mk.inj (Option.some.inj h)
                  refine ⟨singleRef ref sha hValid,
                    ⟨updated_single hEmpty hValid, by simp, ?_⟩, rfl⟩
                  intro old hOld
                  rw [Refs.get, hEmpty] at hOld
                  cases hOld
                · cases h
              · cases h
  | selectMirrors =>
      obtain ⟨rfl, rfl⟩ := Prod.mk.inj (Option.some.inj h)
      exact ⟨rfl, rfl⟩
  | selectStates mirrorId =>
      obtain ⟨rfl, rfl⟩ := Prod.mk.inj (Option.some.inj h)
      exact ⟨rfl, rfl⟩
  | forEachRef =>
      obtain ⟨rfl, rfl⟩ := Prod.mk.inj (Option.some.inj h)
      exact ⟨rfl, rfl⟩
  | lsRemote mirror =>
      obtain ⟨rfl, rfl⟩ := Prod.mk.inj (Option.some.inj h)
      exact ⟨rfl, rfl⟩
  | now => exact (Prod.mk.inj (Option.some.inj h)).2.symm
  | ulid => exact (Prod.mk.inj (Option.some.inj h)).2.symm
  | upsertState row => exact (Prod.mk.inj (Option.some.inj h)).2.symm
  | insertPush row => exact (Prod.mk.inj (Option.some.inj h)).2.symm
  | sleep ms => exact (Prod.mk.inj (Option.some.inj h)).2.symm

/-- A call that succeeds disturbs nothing. -/
theorem undisturbed_ok (i : Nat) (call : Call) (reply : Call.Reply call) :
    Undisturbed (.call i call (.ok reply)) := by
  cases call <;> trivial

/-- A run alone is an undisturbed run of its job. -/
theorem path_of_runAlone (descends : JsString → JsString → Prop) {i : Nat}
    {p : Reconciling Unit} {w' : World}
    {s : System mirroring Failure Unit World}
    (hJob : s.jobs[i]? = some (.active p))
    (hRun : runAlone p s.world = some w') :
    ∃ labels s', s'.world = w' ∧
      Path (reconcileMirrors descends)
        (fun _ label => True ∧ Undisturbed label) s
        (labels ++ [.settle i]) s' := by
  induction p generalizing s with
  | done value =>
      obtain rfl := Option.some.inj hRun
      exact ⟨[], { s with jobs := s.jobs.set i .settled }, rfl,
        .cons (.settle hJob trivial) ⟨trivial, trivial⟩ (.nil _)⟩
  | fail error => cases hRun
  | ask call next ih =>
      rw [runAlone] at hRun
      split at hRun
      · rename_i reply w₁ hAnswer
        have hStep : Step (reconcileMirrors descends) s
            (.call i call (.ok reply))
            { s with
              world := w₁
              jobs := s.jobs.set i (.active (next (.ok reply))) } :=
          .call hJob (effect_of_answerAlone hAnswer)
        obtain ⟨labels, s', hWorld, hPath⟩ := ih (.ok reply)
          (s := { s with
            world := w₁
            jobs := s.jobs.set i (.active (next (.ok reply))) })
          (List.getElem?_set_self (List.getElem?_eq_some_iff.mp hJob).1) hRun
        exact ⟨.call i call (.ok reply) :: labels, s', hWorld,
          .cons hStep ⟨trivial, undisturbed_ok i call reply⟩ hPath⟩
      · cases hRun

/-- `feature x`, with a no-break space. -/
def spacedRef : JsString :=
  js "refs/heads/feature" ++ 0x00A0 :: js "x"

def someSha : JsString := List.replicate 40 (unit 'a')

theorem spacedRef_valid :
    isRefName spacedRef = true ∧ isObjectName someSha = true := by
  decide

/-- One branch, and a mirror without any. -/
def spacedWorld : World where
  mirrors := [⟨js "m1", js "https://forge.example/r.git", js "u", js "t", 1⟩]
  source := singleRef spacedRef someSha spacedRef_valid
  targets := fun _ => noRefs
  states := Table.empty
  pushes := []
  run := 0
  readings := []

/-- At the end of a run alone: what the source has of the branch, and what
each mirror has of it. -/
def leftBy (w : World) :
    Option JsString × List (Int × Option JsString) :=
  (w.source.get spacedRef, w.mirrors.map fun mirror =>
    (mirror.enabled, (w.targets mirror.url).get spacedRef))

/-- The branch does not arrive under its name. -/
theorem leftBy_spacedWorld :
    (runAlone reconcile { spacedWorld with run := 1 }).map leftBy =
      some (some someSha, [(1, none)]) := by
  decide +kernel

/-- A world where the branch was left behind is not mirrored. -/
theorem not_mirrored_of_leftBy {w : World}
    (h : leftBy w = (some someSha, [(1, none)])) : ¬Mirrored w := by
  intro hMirrored
  obtain ⟨hSource, hMirrors⟩ := Prod.mk.inj h
  have hFound : ((1 : Int), (none : Option JsString)) ∈
      w.mirrors.map fun mirror =>
        (mirror.enabled, (w.targets mirror.url).get spacedRef) := by
    rw [hMirrors]
    exact List.mem_singleton_self _
  obtain ⟨mirror, hMirror, hEntry⟩ := List.mem_map.mp hFound
  obtain ⟨hEnabled, hAbsent⟩ := Prod.mk.inj hEntry
  have hThere := hMirrored mirror hMirror (by rw [hEnabled]; decide)
    spacedRef someSha hSource
  rw [hAbsent] at hThere
  cases hThere

/-- A branch whose name holds a no-break space is not mirrored. -/
theorem protects_noBreakSpace :
    ¬Protects (fun _ _ => False) (fun _ _ => True) (fun _ _ => True) := by
  intro hProtects
  obtain ⟨w', hRun, hLeft⟩ := Option.map_eq_some_iff.mp leftBy_spacedWorld
  -- one trigger, and the reconciliation that it starts
  have hTrigger : Path (reconcileMirrors fun _ _ => False) (fun _ _ => True)
      (initial spacedWorld) [.trigger]
      ⟨spacedWorld, some 0, [.waiting none]⟩ :=
    .cons (.trigger _) trivial (.nil _)
  have hStart : Step (reconcileMirrors fun _ _ => False)
      (⟨spacedWorld, some 0, [.waiting none]⟩ :
        System mirroring Failure Unit World) (.start 0)
      ⟨{ spacedWorld with run := 1 }, some 0, [.active reconcile]⟩ :=
    .start rfl (fun _ h => by cases h)
  obtain ⟨labels, s', hWorld, hPath⟩ :=
    path_of_runAlone (fun _ _ => False) (i := 0)
      (s := ⟨{ spacedWorld with run := 1 }, some 0, [.active reconcile]⟩)
      rfl hRun
  have hMirrored := (hProtects spacedWorld _ _ rfl hTrigger).2.2 0 labels s'
    (.cons hStart ⟨trivial, trivial⟩ hPath)
  rw [hWorld] at hMirrored
  exact not_mirrored_of_leftBy hLeft hMirrored

end OpenApe.Ports.MirrorProtection
