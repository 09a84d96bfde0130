import OpenApe.Verified.RegExpPieces

/-!
# The merge policy

Port of `merge-policy.ts`: the changed files of a pull request are classified
by the repo's globs, and the class, the assessor's judgment and the master
switch decide how the request may be merged.  `decideMerge_spec` says what a
decision without a human rests on.
-/

namespace OpenApe.Ports.MergeDecisions

open Verified.JsText Verified.RegExpPieces
open Verified.RegExpSource (dot)

inductive ChangeClass where
  | chore
  | code
  | risk
  deriving DecidableEq

structure MergePolicy where
  autoMergeEnabled : Bool
  autoPaths : List JsString
  riskPaths : List JsString

structure AgentRiskAssessment where
  risky : Bool
  reason : Option JsString

def secureDefaultPolicy : MergePolicy where
  autoMergeEnabled := false
  autoPaths := []
  riskPaths := []

/-! ## Globs -/

/-- The pieces of the expression, after what precedes a glob's rest. -/
def globToRegExp : JsString → List (Piece CodeUnit)
  | [] => []
  | c :: rest =>
      if c = unit '*' then
        match rest with
        | next :: after =>
            if next = unit '*' then
              -- a slash that follows is consumed
              match after with
              | slash :: more =>
                  if slash = unit '/' then ⟨dot, .many⟩ :: globToRegExp more
                  else ⟨dot, .many⟩ :: globToRegExp (slash :: more)
              | [] => [⟨dot, .many⟩]
            else ⟨(· != unit '/'), .many⟩ :: globToRegExp (next :: after)
        | [] => [⟨(· != unit '/'), .many⟩]
      else if c = unit '?' then ⟨(· != unit '/'), .once⟩ :: globToRegExp rest
      else ⟨(· == c), .once⟩ :: globToRegExp rest

def matchesAny (path : JsString) (globs : List JsString) : Bool :=
  globs.any fun glob => accepts (globToRegExp glob) path

/-! ## Decisions -/

def classifyChange (paths : List JsString) (policy : MergePolicy) :
    ChangeClass :=
  if paths = [] then .code
  else if paths.any fun p => matchesAny p policy.riskPaths then .risk
  else if policy.autoPaths ≠ [] ∧
      paths.all (fun p => matchesAny p policy.autoPaths) = true then .chore
  else .code

structure MergeDecision where
  classification : ChangeClass
  autoMerge : Bool
  needsReview : Bool
  needsHuman : Bool
  reason : JsString

/-- `reason ? ': ' + reason : ''` -/
def because : Option JsString → JsString
  | none | some [] => []
  | some reason => js ": " ++ reason

def decideMerge (paths : List JsString) (policy : MergePolicy)
    (agentRisk : AgentRiskAssessment) : MergeDecision :=
  let globClass := classifyChange paths policy
  let isRisk := globClass = .risk || agentRisk.risky
  let classification := if isRisk then .risk else globClass
  if !policy.autoMergeEnabled then
    ⟨classification, false, false, true,
      js "auto-merge not enabled for this repo — human approval required " ++
        js "(set autoMergeEnabled in .openape/coding.json to opt in)"⟩
  else if isRisk then
    let why := if agentRisk.risky then
        js "agent judged this risky" ++ because agentRisk.reason
      else js "matches a repo/derived risk path"
    ⟨classification, false, false, true,
      why ++ js " — human approval required"⟩
  else if classification = .chore then
    ⟨classification, true, false, false,
      js "chore/docs only — auto-merge on green CI"⟩
  else
    ⟨classification, true, true, false,
      js "code change — auto-merge after reviewer-agent approval"⟩

/-- A change that is not at risk touches no risk path. -/
theorem matchesAny_risk_of_classify {paths : List JsString}
    {policy : MergePolicy} (h : classifyChange paths policy ≠ .risk) :
    ∀ p ∈ paths, matchesAny p policy.riskPaths = false := by
  intro p hp
  rw [classifyChange, if_neg (List.ne_nil_of_mem hp)] at h
  by_cases hRisk : (paths.any fun p => matchesAny p policy.riskPaths) = true
  · rw [if_pos hRisk] at h
    exact absurd rfl h
  · rw [List.any_eq_true, not_exists] at hRisk
    simpa [hp] using hRisk p

/-- The paths of a chore are all auto paths. -/
theorem matchesAny_auto_of_classify {paths : List JsString}
    {policy : MergePolicy} (h : classifyChange paths policy = .chore) :
    ∀ p ∈ paths, matchesAny p policy.autoPaths = true := by
  rw [classifyChange] at h
  split at h
  · cases h
  · split at h
    · cases h
    · split at h
      · rename_i hAuto
        exact List.all_eq_true.mp hAuto.2
      · cases h

/-- What a decision without a human rests on. -/
theorem decideMerge_spec {paths : List JsString} {policy : MergePolicy}
    {agentRisk : AgentRiskAssessment}
    (h : (decideMerge paths policy agentRisk).needsHuman = false) :
    policy.autoMergeEnabled = true ∧ agentRisk.risky = false ∧
      (∀ p ∈ paths, matchesAny p policy.riskPaths = false) ∧
      ((decideMerge paths policy agentRisk).needsReview = false →
        ∀ p ∈ paths, matchesAny p policy.autoPaths = true) := by
  have hEnabled : policy.autoMergeEnabled = true := by
    by_contra hOff
    rw [Bool.not_eq_true] at hOff
    rw [decideMerge, hOff, if_pos (by decide)] at h
    cases h
  have hRisk : (decide (classifyChange paths policy = .risk) ||
      agentRisk.risky) = false := by
    by_contra hOn
    rw [Bool.not_eq_false] at hOn
    rw [decideMerge, hEnabled, if_neg (by decide), if_pos hOn] at h
    cases h
  obtain ⟨hClass, hAgent⟩ := Bool.or_eq_false_iff.mp hRisk
  refine ⟨hEnabled, hAgent,
    matchesAny_risk_of_classify (of_decide_eq_false hClass), fun hReview => ?_⟩
  by_cases hChore : classifyChange paths policy = .chore
  · exact matchesAny_auto_of_classify hChore
  · have hClassified : ¬(if (decide (classifyChange paths policy = .risk) ||
        agentRisk.risky) = true then ChangeClass.risk
        else classifyChange paths policy) = .chore := by
      rw [hRisk, if_neg (by decide)]
      exact hChore
    rw [decideMerge, hEnabled, if_neg (by decide),
      if_neg (Bool.eq_false_iff.mp hRisk), if_neg hClassified] at hReview
    cases hReview

end OpenApe.Ports.MergeDecisions
