import OpenApe.Ports.YoloEvaluator

/-!
# The YOLO explanation against the YOLO decision

The two trees agree on every branch but two.  The decision refuses a line
without segments before it looks at anything else, which the explanation
never does; and the decision ignores a deny-list policy without rules, which
the explanation reads as a policy that denies nothing.
`explanation_agrees_iff` says that these are all the disagreements.
-/

namespace OpenApe.Ports.YoloAgreement

open Verified.JsText
open GrantTypes ShellSegments YoloEvaluator

/-! ## The modes one by one -/

/-- In allow-list mode the trees agree on every line with a segment. -/
theorem allowList_agrees (base : YoloMissExplanation) (p : YoloPolicy)
    (risk : Option RiskLevel) {segments : List JsString}
    (hSegments : segments ≠ []) :
    (allowListDecision p risk segments).isSome = true ↔
      (allowListMiss base p risk segments).reason = .wouldHaveApproved := by
  have hUnmatched :
      0 < (segments.filter
        (fun seg => !segmentAllowed p.allowPatterns seg)).length ↔
      ¬(0 < p.allowPatterns.length ∧
        segments.all (segmentAllowed p.allowPatterns) = true) := by
    rw [List.length_pos_iff_exists_mem]
    constructor
    · rintro ⟨seg, hSeg⟩ ⟨_, hAll⟩
      obtain ⟨hMem, hNot⟩ := List.mem_filter.mp hSeg
      simp [List.all_eq_true.mp hAll seg hMem] at hNot
    · intro hNot
      by_contra hNone
      have hAll : ∀ seg ∈ segments,
          segmentAllowed p.allowPatterns seg = true := by
        intro seg hMem
        by_contra hSeg
        exact hNone ⟨seg, List.mem_filter.mpr ⟨hMem, by simp [hSeg]⟩⟩
      refine hNot ⟨?_, List.all_eq_true.mpr hAll⟩
      -- A segment is only allowed by some pattern.
      obtain ⟨seg, hMem⟩ := List.exists_mem_of_ne_nil _ hSegments
      obtain ⟨pattern, hPattern, _⟩ := List.any_eq_true.mp (hAll seg hMem)
      exact List.length_pos_of_mem hPattern
  simp only [allowListDecision, allowListMiss, hUnmatched]
  split_ifs <;> simp_all

/-- In allow-list mode the explanation approves a line without segments. -/
theorem allowListMiss_nil (base : YoloMissExplanation) (p : YoloPolicy)
    (risk : Option RiskLevel) :
    (allowListMiss base p risk []).reason = .wouldHaveApproved := by
  simp [allowListMiss]

theorem denyListMiss_reason_iff (base : YoloMissExplanation) (p : YoloPolicy)
    (risk : Option RiskLevel) (segments : List JsString) :
    (denyListMiss base p risk segments).reason = .wouldHaveApproved ↔
      riskAboveThreshold risk p.denyRiskThreshold = false ∧
        (segments.any containsCommandSubstitution = true →
          p.denyPatterns.any containsCommandSubstitution = true) := by
  have hSome : 0 < (segments.filter containsCommandSubstitution).length ↔
      segments.any containsCommandSubstitution = true := by
    rw [List.length_pos_iff_exists_mem, List.any_eq_true]
    simp only [List.mem_filter]
  simp only [denyListMiss, hSome]
  generalize segments.any containsCommandSubstitution = nested
  generalize p.denyPatterns.any containsCommandSubstitution = governed
  split_ifs <;> simp_all

theorem denyListDecision_isSome_iff (p : YoloPolicy)
    (risk : Option RiskLevel) (segments : List JsString) :
    (denyListDecision p risk segments).isSome = true ↔
      (0 < p.denyPatterns.length ∨ p.denyRiskThreshold.isSome = true) ∧
        riskAboveThreshold risk p.denyRiskThreshold = false ∧
        (segments.any containsCommandSubstitution = true →
          p.denyPatterns.any containsCommandSubstitution = true) := by
  simp only [denyListDecision]
  generalize segments.any containsCommandSubstitution = nested
  generalize p.denyPatterns.any containsCommandSubstitution = governed
  split_ifs <;> cases nested <;> cases governed <;> simp_all

/-- In deny-list mode the trees agree unless the policy has no rule and the
line no nested command. -/
theorem denyList_agrees_iff (base : YoloMissExplanation) (p : YoloPolicy)
    (risk : Option RiskLevel) (segments : List JsString) :
    ((denyListDecision p risk segments).isSome = true ↔
      (denyListMiss base p risk segments).reason = .wouldHaveApproved) ↔
    ¬(p.denyPatterns = [] ∧ p.denyRiskThreshold = none ∧
      segments.any containsCommandSubstitution = false) := by
  rw [denyListDecision_isSome_iff, denyListMiss_reason_iff]
  by_cases hRules :
      0 < p.denyPatterns.length ∨ p.denyRiskThreshold.isSome = true
  · have hSome : ¬(p.denyPatterns = [] ∧ p.denyRiskThreshold = none ∧
        segments.any containsCommandSubstitution = false) := by
      rintro ⟨hNil, hNone, _⟩
      simp [hNil, hNone] at hRules
    simp only [hRules, true_and, hSome, not_false_eq_true]
  · obtain ⟨hNil, hNone⟩ :
        p.denyPatterns = [] ∧ p.denyRiskThreshold = none := by
      simpa [not_or] using hRules
    have hRisk : riskAboveThreshold risk none = false := by
      cases risk <;> rfl
    simp [hNil, hNone, hRisk]

/-! ## The agreement -/

/-- The lines the two functions read differently under a policy in force: no
deny pattern hits, and either the line has no segment and no risk threshold
of a deny-list refuses it, or the policy is a deny-list without rules and the
line has no nested command. -/
def LineReadApart (ctx : YoloDecisionContext) (p : YoloPolicy)
    (target : JsString) (segments : List JsString) : Prop :=
  ¬DenyPatternHits p target ctx.outerTarget segments ∧
    ((segments = [] ∧
        (p.mode = .denyList →
          riskAboveThreshold ctx.resolvedRisk p.denyRiskThreshold = false)) ∨
      (p.mode = .denyList ∧ p.denyPatterns = [] ∧
        p.denyRiskThreshold = none ∧
        segments.any containsCommandSubstitution = false))

/-- The contexts the two functions read differently. -/
def ReadApart (clock : Int) (ctx : YoloDecisionContext) : Prop :=
  ∃ p target, ctx.policy = some p ∧
    policyExpired p (ctx.now.getD clock) = false ∧
    presentText ctx.target = some target ∧
    LineReadApart ctx p target (judgedSegments ctx.targetKind target)

/-- The two trees once the policy is in force and the line is known. -/
theorem judged_agrees_iff (ctx : YoloDecisionContext) (p : YoloPolicy)
    (target : JsString) {segments : List JsString}
    (hSegments : ∀ seg ∈ segments, seg ≠ []) :
    ((judgeSegments ctx p target segments).isSome = true ↔
      (explainSegments ctx p target segments).reason = .wouldHaveApproved) ↔
    ¬LineReadApart ctx p target segments := by
  have hVeto := denyVeto_eq_true_iff p target ctx.outerTarget segments
  have hDenial := firstDenial_isSome_iff p target ctx.outerTarget hSegments
  unfold judgeSegments explainSegments LineReadApart
  by_cases hHits : DenyPatternHits p target ctx.outerTarget segments
  · obtain ⟨denial, hSome⟩ :=
      Option.isSome_iff_exists.mp (hDenial.mpr hHits)
    simp [hVeto.mpr hHits, hSome, hHits]
  · have hVetoFalse :
        denyVeto p target ctx.outerTarget segments = false := by
      simpa using mt hVeto.mp hHits
    have hNone : firstDenial p target ctx.outerTarget segments = none := by
      simpa using mt hDenial.mp hHits
    simp only [hVetoFalse, hNone, hHits, not_false_eq_true, true_and,
      Bool.false_eq_true, if_false]
    by_cases hNil : segments = []
    · subst hNil
      have hThreshold : p.denyRiskThreshold = none →
          riskAboveThreshold ctx.resolvedRisk p.denyRiskThreshold =
            false := by
        intro h
        rw [h]
        cases ctx.resolvedRisk <;> rfl
      cases hMode : p.mode with
      | allowList => simp [allowListMiss_nil]
      | denyList =>
          simp only [List.length_nil, if_true, Option.isSome_none,
            Bool.false_eq_true, false_iff, denyListMiss_reason_iff,
            List.any_nil, false_implies, and_true, true_and, forall_const]
          tauto
    · have hLength : segments.length ≠ 0 := by simpa using hNil
      simp only [if_neg hLength, hNil, false_and, false_or]
      cases hMode : p.mode with
      | allowList =>
          simpa using allowList_agrees _ p ctx.resolvedRisk hNil
      | denyList =>
          simpa using denyList_agrees_iff _ p ctx.resolvedRisk segments

/-- **Explanation and decision**: a request is approved exactly when the
explanation says it would have been, except in the contexts that the two
functions read apart, where the explanation is wrong. -/
theorem explanation_agrees_iff (clock : Int) (ctx : YoloDecisionContext) :
    ((evaluateYoloPolicy clock ctx).isSome = true ↔
      (explainYoloMiss clock ctx).reason = .wouldHaveApproved) ↔
    ¬ReadApart clock ctx := by
  unfold ReadApart evaluateYoloPolicy explainYoloMiss
  cases hPolicy : ctx.policy with
  | none => simp
  | some p =>
      cases hExpired : policyExpired p (ctx.now.getD clock) with
      | true => simp [hExpired]
      | false =>
          cases hTarget : presentText ctx.target with
          | none => simp [hExpired]
          | some target =>
              have hNe : target ≠ [] := by
                simpa using (Option.filter_eq_some_iff.mp hTarget).2
              have hAgrees := judged_agrees_iff ctx p target
                (fun _ hSeg => judgedSegments_ne_nil ctx.targetKind hNe hSeg)
              simpa [hExpired] using hAgrees

/-- A context with nothing but an allow-list policy and a line that is a
single operator. -/
def operatorLine : YoloDecisionContext where
  policy := some
    { agentEmail := js "a@x", audience := js "ape-shell", mode := .allowList,
      enabledBy := js "o@x", denyRiskThreshold := none, denyPatterns := [],
      allowPatterns := [js "ls"], enabledAt := 1, expiresAt := none,
      updatedAt := 1 }
  target := some (js ";")
  outerTarget := none
  targetKind := none
  resolvedRisk := none
  now := none

theorem explanation_contradicts_operatorLine :
    ¬((evaluateYoloPolicy 0 operatorLine).isSome = true ↔
      (explainYoloMiss 0 operatorLine).reason = .wouldHaveApproved) := by
  decide

end OpenApe.Ports.YoloAgreement
