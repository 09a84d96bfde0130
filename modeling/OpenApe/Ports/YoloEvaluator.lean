import OpenApe.Verified.RegExpSource
import OpenApe.Ports.GrantTypes
import OpenApe.Ports.ShellSegments

/-!
# YOLO evaluation (`apps/openape-free-idp/server/utils/yolo-evaluator.ts`)

`evaluateYoloPolicy` decides whether a request is approved without its
owner, and `explainYoloMiss` says why it was not.  They are two decision
trees over the same predicates; each branch on the policy's mode is a
definition of its own here.  The once-per-policy console warning is left
out, being the only effect of either function.

An absent `now` is read from `clock`, in seconds.
-/

namespace OpenApe.Ports.YoloEvaluator

open Verified.JsText Verified.Glob Verified.RegExpSource
open GrantTypes ShellSegments

/-! ## Policies and contexts -/

inductive YoloMode
  | denyList
  | allowList
  deriving DecidableEq

structure YoloPolicy where
  agentEmail : JsString
  audience : JsString
  mode : YoloMode
  enabledBy : JsString
  denyRiskThreshold : Option RiskLevel
  denyPatterns : List JsString
  allowPatterns : List JsString
  enabledAt : Int
  expiresAt : Option Int
  updatedAt : Int
  deriving DecidableEq

inductive TargetKind
  | command
  | host
  deriving DecidableEq

structure YoloDecisionContext where
  policy : Option YoloPolicy
  target : Option JsString
  outerTarget : Option JsString
  targetKind : Option TargetKind
  resolvedRisk : Option RiskLevel
  now : Option Int
  deriving DecidableEq

/-- An approval; its `kind` is always `'yolo'`. -/
structure YoloDecision where
  decidedBy : JsString
  deriving DecidableEq

/-- `RISK_ORDER` -/
def riskOrder : RiskLevel → Nat
  | .low => 1
  | .medium => 2
  | .high => 3
  | .critical => 4

/-! ## Patterns -/

/-- The characters `matchesGlob` escapes; `*` and `?` are not among them. -/
def escapedUnits : JsString := js "\\^$.+()\x7b\x7d[]|"

def globSource (pattern : JsString) : JsString :=
  js "^" ++
    replaceUnit (unit '?') (js ".")
      (replaceUnit (unit '*') (js ".*") (escape escapedUnits pattern)) ++
    js "$"

/-- `*` matches any run of characters, `?` exactly one; an expression that
does not compile matches nothing. -/
def matchesGlob (input pattern : JsString) : Bool :=
  (test (globSource pattern) input).getD false

/-- The token a pattern's character stands for. -/
def globToken (u : CodeUnit) : Token CodeUnit :=
  if u = unit '*' then .run else if u = unit '?' then .one else .lit u

private def globPiece (u : CodeUnit) : JsString :=
  replaceUnit (unit '?') (js ".")
    (replaceUnit (unit '*') (js ".*")
      (if u ∈ escapedUnits then [unit '\\', u] else [u]))

private theorem readsAs_globPiece (u : CodeUnit) :
    ReadsAs (globPiece u) (globToken u) := by
  by_cases hStar : u = unit '*'
  · subst hStar
    exact readsAs_run
  by_cases hMark : u = unit '?'
  · subst hMark
    exact readsAs_one
  have hToken : globToken u = .lit u := by
    simp only [globToken, if_neg hStar, if_neg hMark]
  rw [hToken]
  by_cases hEscaped : u ∈ escapedUnits
  · have hPiece : globPiece u = [unit '\\', u] := by
      have hSlashStar : unit '\\' ≠ unit '*' := by decide
      have hSlashMark : unit '\\' ≠ unit '?' := by decide
      simp [globPiece, replaceUnit, hEscaped, hStar, hMark, hSlashStar,
        hSlashMark]
    rw [hPiece]
    refine readsAs_escaped ?_
    have hSubset : ∀ v ∈ escapedUnits, v ∈ syntaxUnits := by
      simpa using (by decide : escapedUnits.all syntaxUnits.contains = true)
    exact hSubset u hEscaped
  · have hPiece : globPiece u = [u] := by
      simp [globPiece, replaceUnit, hEscaped, hStar, hMark]
    rw [hPiece]
    refine readsAs_literal ?_
    have hSubset : ∀ v ∈ syntaxUnits,
        v ∈ escapedUnits ∨ v = unit '*' ∨ v = unit '?' := by
      simpa using (by decide : syntaxUnits.all (fun v =>
        escapedUnits.contains v || (v == unit '*' || v == unit '?')) = true)
    intro hSyntax
    rcases hSubset u hSyntax with h | h | h
    · exact hEscaped h
    · exact hStar h
    · exact hMark h

/-- Every pattern compiles, and to the tokens of its characters. -/
theorem matchesGlob_eq_accepts (input pattern : JsString) :
    matchesGlob input pattern =
      accepts dot (pattern.map globToken) input := by
  have hSource : globSource pattern =
      js "^" ++ pattern.flatMap globPiece ++ js "$" := by
    unfold globPiece
    simp only [globSource, replaceUnit, escape, List.flatMap_assoc]
  rw [matchesGlob, test, hSource,
    parse_anchored (fun u _ => readsAs_globPiece u)]
  rfl

/-! ## The predicates both trees use -/

/-- `text && text.length ? text : null`: an empty string is no text. -/
def presentText (text : Option JsString) : Option JsString :=
  text.filter (fun text => text ≠ [])

/-- `p.expiresAt != null && p.expiresAt <= now` -/
def policyExpired (p : YoloPolicy) (now : Int) : Bool :=
  match p.expiresAt with
  | none => false
  | some expiresAt => expiresAt ≤ now

def judgedSegments (targetKind : Option TargetKind) (target : JsString) :
    List JsString :=
  if targetKind = some .host then [target] else splitCommandSegments target

def denyHit (denyPatterns : List JsString) (text : JsString) : Bool :=
  denyPatterns.any (fun pattern => matchesGlob text pattern)

def segmentAllowed (allowPatterns : List JsString) (seg : JsString) : Bool :=
  let needsExplicitOptIn := containsCommandSubstitution seg
  allowPatterns.any (fun pattern =>
    matchesGlob seg pattern &&
      (!needsExplicitOptIn || containsCommandSubstitution pattern))

/-! ## The decision -/

/-- The veto of the deny patterns: on the full line, on a segment, or on the
outer form. -/
def denyVeto (p : YoloPolicy) (target : JsString)
    (outerTarget : Option JsString) (segments : List JsString) : Bool :=
  decide (0 < p.denyPatterns.length) &&
    (denyHit p.denyPatterns target ||
      segments.any (denyHit p.denyPatterns) ||
      (presentText outerTarget).any (denyHit p.denyPatterns))

/-- `RISK_ORDER[risk] <= RISK_ORDER[threshold]`, where both are set. -/
def riskWithinThreshold (risk threshold : Option RiskLevel) : Bool :=
  match risk, threshold with
  | some risk, some threshold => riskOrder risk ≤ riskOrder threshold
  | _, _ => false

/-- `RISK_ORDER[risk] > RISK_ORDER[threshold]`, where both are set. -/
def riskAboveThreshold (risk threshold : Option RiskLevel) : Bool :=
  match risk, threshold with
  | some risk, some threshold => riskOrder threshold < riskOrder risk
  | _, _ => false

def allowListDecision (p : YoloPolicy) (resolvedRisk : Option RiskLevel)
    (segments : List JsString) : Option YoloDecision :=
  if 0 < p.allowPatterns.length ∧ segments.all (segmentAllowed p.allowPatterns)
  then some ⟨p.enabledBy⟩
  else if riskWithinThreshold resolvedRisk p.denyRiskThreshold then
    some ⟨p.enabledBy⟩
  else none

def denyListDecision (p : YoloPolicy) (resolvedRisk : Option RiskLevel)
    (segments : List JsString) : Option YoloDecision :=
  let hasDenyRules :=
    0 < p.denyPatterns.length ∨ p.denyRiskThreshold.isSome = true
  if ¬hasDenyRules then none
  else if riskAboveThreshold resolvedRisk p.denyRiskThreshold then none
  else
    let ownerGovernsSubstitution :=
      p.denyPatterns.any containsCommandSubstitution
    if !ownerGovernsSubstitution && segments.any containsCommandSubstitution
    then none
    else some ⟨p.enabledBy⟩

/-- The decision on a line, once the policy is in force. -/
def judgeSegments (ctx : YoloDecisionContext) (p : YoloPolicy)
    (target : JsString) (segments : List JsString) : Option YoloDecision :=
  if segments.length = 0 then none
  else if denyVeto p target ctx.outerTarget segments then none
  else match p.mode with
    | .allowList => allowListDecision p ctx.resolvedRisk segments
    | .denyList => denyListDecision p ctx.resolvedRisk segments

def evaluateYoloPolicy (clock : Int) (ctx : YoloDecisionContext) :
    Option YoloDecision :=
  let now := ctx.now.getD clock
  match ctx.policy with
  | none => none
  | some p =>
      if policyExpired p now then none
      else match presentText ctx.target with
        | none => none
        | some target =>
            judgeSegments ctx p target (judgedSegments ctx.targetKind target)

/-! ## The explanation -/

inductive YoloMissReason
  | noPolicy
  | policyExpired
  | noTarget
  | deniedByPattern
  | segmentsNotAllowed
  | riskAboveThreshold
  | wouldHaveApproved
  deriving DecidableEq

structure YoloMissExplanation where
  reason : YoloMissReason
  segments : Option (List JsString) := none
  allowedSegments : Option (List JsString) := none
  unmatchedSegments : Option (List JsString) := none
  substitutionSegments : Option (List JsString) := none
  deniedBy : Option JsString := none
  deniedSegment : Option JsString := none
  expiredAt : Option Int := none
  resolvedRisk : Option (Option RiskLevel) := none
  riskThreshold : Option (Option RiskLevel) := none
  mode : Option YoloMode := none
  deriving DecidableEq

/-- One turn of the loop over the deny patterns: the text it vetoes, the
segments first. -/
def deniedText (target : JsString) (outerTarget : Option JsString)
    (segments : List JsString) (pattern : JsString) : Option JsString :=
  match presentText (segments.find? (fun sgm => matchesGlob sgm pattern)) with
  | some seg => some seg
  | none =>
      if matchesGlob target pattern then some target
      else (presentText outerTarget).filter (fun text => matchesGlob text pattern)

/-- The loop over the deny patterns: the first that vetoes, and what. -/
def firstDenial (p : YoloPolicy) (target : JsString)
    (outerTarget : Option JsString) (segments : List JsString) :
    Option (JsString × JsString) :=
  p.denyPatterns.findSome? (fun pattern =>
    (deniedText target outerTarget segments pattern).map
      (fun text => (pattern, text)))

def allowListMiss (base : YoloMissExplanation) (p : YoloPolicy)
    (resolvedRisk : Option RiskLevel) (segments : List JsString) :
    YoloMissExplanation :=
  let allowed := segments.filter (segmentAllowed p.allowPatterns)
  let unmatched :=
    segments.filter (fun seg => !segmentAllowed p.allowPatterns seg)
  let riskApproves := riskWithinThreshold resolvedRisk p.denyRiskThreshold
  if 0 < unmatched.length ∧ ¬riskApproves then
    { base with
      reason := .segmentsNotAllowed
      allowedSegments := some allowed
      unmatchedSegments := some unmatched
      substitutionSegments :=
        some (unmatched.filter containsCommandSubstitution) }
  else { base with reason := .wouldHaveApproved }

def denyListMiss (base : YoloMissExplanation) (p : YoloPolicy)
    (resolvedRisk : Option RiskLevel) (segments : List JsString) :
    YoloMissExplanation :=
  if riskAboveThreshold resolvedRisk p.denyRiskThreshold then
    { base with reason := .riskAboveThreshold }
  else
    let substitution := segments.filter containsCommandSubstitution
    if 0 < substitution.length ∧
        ¬p.denyPatterns.any containsCommandSubstitution then
      { base with
        reason := .segmentsNotAllowed
        unmatchedSegments := some substitution
        substitutionSegments := some substitution }
    else { base with reason := .wouldHaveApproved }

/-- The explanation for a line, once the policy is in force. -/
def explainSegments (ctx : YoloDecisionContext) (p : YoloPolicy)
    (target : JsString) (segments : List JsString) : YoloMissExplanation :=
  -- Every return below sets its own reason.
  let base : YoloMissExplanation :=
    { reason := .wouldHaveApproved, segments := some segments,
      mode := some p.mode, resolvedRisk := some ctx.resolvedRisk,
      riskThreshold := some p.denyRiskThreshold }
  match firstDenial p target ctx.outerTarget segments with
  | some (pattern, text) =>
      { base with
        reason := .deniedByPattern
        deniedBy := some pattern
        deniedSegment := some text }
  | none =>
      match p.mode with
      | .allowList => allowListMiss base p ctx.resolvedRisk segments
      | .denyList => denyListMiss base p ctx.resolvedRisk segments

def explainYoloMiss (clock : Int) (ctx : YoloDecisionContext) :
    YoloMissExplanation :=
  let now := ctx.now.getD clock
  match ctx.policy with
  | none => { reason := .noPolicy }
  | some p =>
      if policyExpired p now then
        { reason := .policyExpired, expiredAt := p.expiresAt,
          mode := some p.mode }
      else match presentText ctx.target with
        | none => { reason := .noTarget, mode := some p.mode }
        | some target =>
            explainSegments ctx p target
              (judgedSegments ctx.targetKind target)

/-! ## The veto in both trees -/

/-- Some deny pattern matches the full line, a segment of it or the outer
form. -/
def DenyPatternHits (p : YoloPolicy) (target : JsString)
    (outerTarget : Option JsString) (segments : List JsString) : Prop :=
  ∃ pattern ∈ p.denyPatterns,
    matchesGlob target pattern = true ∨
      (∃ seg ∈ segments, matchesGlob seg pattern = true) ∨
      ∃ text ∈ presentText outerTarget, matchesGlob text pattern = true

theorem judgedSegments_ne_nil (kind : Option TargetKind)
    {target seg : JsString} (hTarget : target ≠ [])
    (hSeg : seg ∈ judgedSegments kind target) : seg ≠ [] := by
  unfold judgedSegments at hSeg
  split at hSeg
  · rwa [List.mem_singleton.mp hSeg]
  · simpa using (List.mem_filter.mp hSeg).2

theorem denyVeto_eq_true_iff (p : YoloPolicy) (target : JsString)
    (outerTarget : Option JsString) (segments : List JsString) :
    denyVeto p target outerTarget segments = true ↔
      DenyPatternHits p target outerTarget segments := by
  simp only [denyVeto, denyHit, DenyPatternHits, Bool.and_eq_true,
    Bool.or_eq_true, decide_eq_true_eq, List.any_eq_true, Option.any_eq_true]
  constructor
  · rintro ⟨_, (⟨pattern, hPattern, hHit⟩ |
      ⟨seg, hSeg, pattern, hPattern, hHit⟩) |
      ⟨text, hText, pattern, hPattern, hHit⟩⟩
    · exact ⟨pattern, hPattern, .inl hHit⟩
    · exact ⟨pattern, hPattern, .inr (.inl ⟨seg, hSeg, hHit⟩)⟩
    · exact ⟨pattern, hPattern, .inr (.inr ⟨text, hText, hHit⟩)⟩
  · rintro ⟨pattern, hPattern, hHit⟩
    refine ⟨List.length_pos_of_mem hPattern, ?_⟩
    rcases hHit with hHit | ⟨seg, hSeg, hHit⟩ | ⟨text, hText, hHit⟩
    · exact .inl (.inl ⟨pattern, hPattern, hHit⟩)
    · exact .inl (.inr ⟨seg, hSeg, pattern, hPattern, hHit⟩)
    · exact .inr ⟨text, hText, pattern, hPattern, hHit⟩

/-- A pattern's turn of the loop denies exactly when the pattern hits one of
the texts the veto looks at. -/
theorem deniedText_isSome_iff {target : JsString}
    (outerTarget : Option JsString) {segments : List JsString}
    (hSegments : ∀ seg ∈ segments, seg ≠ []) (pattern : JsString) :
    (deniedText target outerTarget segments pattern).isSome = true ↔
      matchesGlob target pattern = true ∨
        (∃ seg ∈ segments, matchesGlob seg pattern = true) ∨
        ∃ text ∈ presentText outerTarget,
          matchesGlob text pattern = true := by
  unfold deniedText
  cases hFind : segments.find? (fun sgm => matchesGlob sgm pattern) with
  | some seg =>
      have hMem := List.mem_of_find?_eq_some hFind
      have hHit : matchesGlob seg pattern = true :=
        List.find?_some (p := fun sgm => matchesGlob sgm pattern) hFind
      have hPresent : presentText (some seg) = some seg := by
        simp [presentText, hSegments seg hMem]
      simp only [hPresent, Option.isSome_some, true_iff]
      exact .inr (.inl ⟨seg, hMem, hHit⟩)
  | none =>
      have hNoSegment :
          ¬∃ seg ∈ segments, matchesGlob seg pattern = true := by
        rintro ⟨seg, hMem, hHit⟩
        exact List.find?_eq_none.mp hFind seg hMem hHit
      have hPresent : presentText none = none := rfl
      simp only [hPresent, hNoSegment, false_or]
      by_cases hLine : matchesGlob target pattern = true
      · simp [hLine]
      · cases presentText outerTarget <;> simp [hLine, Option.filter]

theorem firstDenial_isSome_iff (p : YoloPolicy) (target : JsString)
    (outerTarget : Option JsString) {segments : List JsString}
    (hSegments : ∀ seg ∈ segments, seg ≠ []) :
    (firstDenial p target outerTarget segments).isSome = true ↔
      DenyPatternHits p target outerTarget segments := by
  rw [firstDenial, List.findSome?_isSome_iff]
  simp only [Option.isSome_map, deniedText_isSome_iff _ hSegments]
  rfl

end OpenApe.Ports.YoloEvaluator
