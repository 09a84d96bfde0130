import OpenApe.Ports.YoloEvaluator

/-!
# The deny patterns as a veto

The meaning a policy's owner gives a pattern is `PolicyGlob`: `*` is any run
of characters and `?` any one.  The evaluator compiles a pattern to a regular
expression whose dot stops at line breaks, so what it tests is `LineGlob`,
the same glob with wildcards that stand for no line break; the two agree on
texts without one.

`deny_vetoes_and_allow_covers` is what the evaluation guarantees in both
modes: a deny pattern that hits the line or a judged segment is a veto, and
in allow-list mode an approval rests on a pattern for every judged segment or
on the risk threshold.
-/

namespace OpenApe.Ports.YoloVeto

open Verified.JsText Verified.Glob Verified.RegExpSource
open GrantTypes ShellSegments YoloEvaluator

/-! ## The meaning of a pattern -/

/-- The reference meaning: `*` is any run of characters, `?` is exactly one,
and every other character stands for itself. -/
def PolicyGlob (pattern text : JsString) : Prop :=
  Matches (fun _ => true) (pattern.map globToken) text

/-- The same with wildcards that stand for no line break. -/
def LineGlob (pattern text : JsString) : Prop :=
  Matches dot (pattern.map globToken) text

instance (pattern text : JsString) : Decidable (PolicyGlob pattern text) :=
  inferInstanceAs (Decidable (Matches _ _ _))

/-- What the evaluator tests. -/
theorem matchesGlob_eq_true_iff (text pattern : JsString) :
    matchesGlob text pattern = true ↔ LineGlob pattern text := by
  rw [matchesGlob_eq_accepts, accepts_iff, LineGlob]

theorem policyGlob_of_lineGlob {pattern text : JsString}
    (h : LineGlob pattern text) : PolicyGlob pattern text :=
  Matches.mono (fun _ _ => rfl) h

/-! ## What an approval rests on -/

/-- An approval comes from the branch of the mode, past the veto. -/
theorem evaluateYoloPolicy_isSome {clock : Int} {ctx : YoloDecisionContext}
    {p : YoloPolicy} (hPolicy : ctx.policy = some p)
    (h : (evaluateYoloPolicy clock ctx).isSome = true) :
    ∃ target, presentText ctx.target = some target ∧
      denyVeto p target ctx.outerTarget
        (judgedSegments ctx.targetKind target) = false ∧
      (p.mode = .allowList → (allowListDecision p ctx.resolvedRisk
        (judgedSegments ctx.targetKind target)).isSome = true) := by
  simp only [evaluateYoloPolicy, hPolicy] at h
  split at h
  · simp at h
  cases hTarget : presentText ctx.target with
  | none => simp [hTarget] at h
  | some target =>
      refine ⟨target, rfl, ?_⟩
      simp only [hTarget, judgeSegments] at h
      split at h
      · simp at h
      split at h
      · simp at h
      · rename_i hVeto
        refine ⟨by simpa using hVeto, fun hMode => ?_⟩
        simpa [hMode] using h

/-- In allow-list mode every segment is allowed or the risk is low enough. -/
theorem allowListDecision_isSome {p : YoloPolicy} {risk : Option RiskLevel}
    {segments : List JsString}
    (h : (allowListDecision p risk segments).isSome = true) :
    (∀ seg ∈ segments, ∃ pattern ∈ p.allowPatterns, LineGlob pattern seg) ∨
      riskWithinThreshold risk p.denyRiskThreshold = true := by
  unfold allowListDecision at h
  split at h
  · rename_i hAllowed
    refine .inl fun seg hSeg => ?_
    have hSegment := List.all_eq_true.mp hAllowed.2 seg hSeg
    obtain ⟨pattern, hPattern, hHit⟩ := List.any_eq_true.mp hSegment
    simp only [Bool.and_eq_true] at hHit
    exact ⟨pattern, hPattern, (matchesGlob_eq_true_iff _ _).mp hHit.1⟩
  · split at h
    · exact .inr (by assumption)
    · simp at h

/-- A text is present exactly when it is there and not empty. -/
private theorem presentText_some {text : Option JsString} {line : JsString}
    (h : presentText text = some line) : text = some line :=
  (Option.filter_eq_some_iff.mp h).1

/-- The texts of a line a deny pattern is tried on. -/
def JudgedText (kind : Option TargetKind) (target text : JsString) : Prop :=
  text = target ∨ text ∈ judgedSegments kind target

/-! ## The guarantee -/

/-- The veto and the allow patterns as the evaluator upholds them. -/
def VetoHolds (clock : Int) (ctx : YoloDecisionContext) (p : YoloPolicy)
    (target : JsString) : Prop :=
  ((∃ pattern ∈ p.denyPatterns, ∃ text,
      JudgedText ctx.targetKind target text ∧ LineGlob pattern text) →
    evaluateYoloPolicy clock ctx = none) ∧
  (p.mode = .allowList → (evaluateYoloPolicy clock ctx).isSome = true →
    (∀ seg ∈ judgedSegments ctx.targetKind target,
      ∃ pattern ∈ p.allowPatterns, PolicyGlob pattern seg) ∨
    riskWithinThreshold ctx.resolvedRisk p.denyRiskThreshold = true)

/-- **Deny patterns veto and allow patterns cover.**  Whatever the mode, no
request is approved whose line or whose judged segment is an instance of a
deny pattern with wildcards that stay within a line; and in allow-list mode
an approval has an allow pattern for every judged segment, unless the risk is
within the policy's threshold. -/
theorem deny_vetoes_and_allow_covers (clock : Int)
    (ctx : YoloDecisionContext) (p : YoloPolicy) (target : JsString)
    (hPolicy : ctx.policy = some p) (hTarget : ctx.target = some target) :
    VetoHolds clock ctx p target := by
  have hApproval : ∀ line, presentText ctx.target = some line →
      line = target := by
    intro line hLine
    have hSome := presentText_some hLine
    rw [hTarget, Option.some.injEq] at hSome
    exact hSome.symm
  constructor
  · rintro ⟨pattern, hPattern, text, hJudged, hHit⟩
    by_contra hNot
    have hSome : (evaluateYoloPolicy clock ctx).isSome = true := by
      simpa [Option.isSome_iff_ne_none] using hNot
    obtain ⟨line, hLine, hVeto, _⟩ := evaluateYoloPolicy_isSome hPolicy hSome
    have hLineEq := hApproval line hLine
    subst hLineEq
    have hMatches := (matchesGlob_eq_true_iff text pattern).mpr hHit
    have hDenied : DenyPatternHits p line ctx.outerTarget
        (judgedSegments ctx.targetKind line) := by
      refine ⟨pattern, hPattern, ?_⟩
      rcases hJudged with rfl | hSeg
      · exact .inl hMatches
      · exact .inr (.inl ⟨text, hSeg, hMatches⟩)
    rw [(denyVeto_eq_true_iff _ _ _ _).mpr hDenied] at hVeto
    exact absurd hVeto (by simp)
  · intro hMode hSome
    obtain ⟨line, hLine, _, hAllow⟩ := evaluateYoloPolicy_isSome hPolicy hSome
    have hLineEq := hApproval line hLine
    subst hLineEq
    rcases allowListDecision_isSome (hAllow hMode) with hAllowed | hRisk
    · refine .inl fun seg hSeg => ?_
      obtain ⟨pattern, hPattern, hGlob⟩ := hAllowed seg hSeg
      exact ⟨pattern, hPattern, policyGlob_of_lineGlob hGlob⟩
    · exact .inr hRisk

/-! ## The stronger reading -/

/-- The veto read without exceptions: patterns as `PolicyGlob`, every target
split into shell segments, and allow patterns as the only ground for an
approval in allow-list mode. -/
def StrictVetoHolds (clock : Int) (ctx : YoloDecisionContext)
    (p : YoloPolicy) (target : JsString) : Prop :=
  ((∃ pattern ∈ p.denyPatterns, PolicyGlob pattern target ∨
      ∃ seg ∈ splitCommandSegments target, PolicyGlob pattern seg) →
    evaluateYoloPolicy clock ctx = none) ∧
  (p.mode = .allowList → (evaluateYoloPolicy clock ctx).isSome = true →
    ∀ seg ∈ splitCommandSegments target,
      ∃ pattern ∈ p.allowPatterns, PolicyGlob pattern seg)

/-- A policy of the owner `o@x` with a risk threshold. -/
def thresholdPolicy (mode : YoloMode) (denyPatterns : List JsString) :
    YoloPolicy where
  agentEmail := js "a@x"
  audience := js "ape-shell"
  mode := mode
  enabledBy := js "o@x"
  denyRiskThreshold := some .low
  denyPatterns := denyPatterns
  allowPatterns := []
  enabledAt := 1
  expiresAt := none
  updatedAt := 1

def judging (p : YoloPolicy) (kind : TargetKind) (target : JsString) :
    YoloDecisionContext where
  policy := some p
  target := some target
  outerTarget := none
  targetKind := some kind
  resolvedRisk := some .low
  now := none

/-- The witness: a denied command inside a chain. -/
theorem deny_vetoes_and_allow_covers_chain :
    VetoHolds 0 (judging (thresholdPolicy .allowList [js "rm *"]) .command
      (js "ls && rm -rf x")) (thresholdPolicy .allowList [js "rm *"])
      (js "ls && rm -rf x") :=
  deny_vetoes_and_allow_covers _ _ _ _ rfl rfl

/-- A low-risk command no allow pattern names is approved in allow-list
mode. -/
private theorem strictVeto_fails_threshold :
    ¬StrictVetoHolds 0
      (judging (thresholdPolicy .allowList []) .command (js "ls"))
      (thresholdPolicy .allowList []) (js "ls") := by
  intro h
  have hApproved : (evaluateYoloPolicy 0 (judging
      (thresholdPolicy .allowList []) .command (js "ls"))).isSome = true := by
    decide
  obtain ⟨pattern, hPattern, _⟩ :=
    h.2 rfl hApproved (js "ls") (by decide)
  exact absurd hPattern (List.not_mem_nil)

/-- A host is one segment, whatever operators its text has. -/
private theorem strictVeto_fails_host :
    ¬StrictVetoHolds 0
      (judging (thresholdPolicy .denyList [js "b"]) .host (js "a;b"))
      (thresholdPolicy .denyList [js "b"]) (js "a;b") := by
  intro h
  have hApproved : evaluateYoloPolicy 0 (judging
      (thresholdPolicy .denyList [js "b"]) .host (js "a;b")) ≠ none := by
    decide
  exact hApproved (h.1 ⟨js "b", List.mem_singleton.mpr rfl,
    .inr ⟨js "b", by decide, by decide⟩⟩)

/-- A quoted line break carries a command past the pattern that denies
it. -/
private theorem strictVeto_fails_lineBreak :
    ¬StrictVetoHolds 0
      (judging (thresholdPolicy .denyList [js "rm *"]) .command
        (js "rm 'a\nb'"))
      (thresholdPolicy .denyList [js "rm *"]) (js "rm 'a\nb'") := by
  intro h
  have hApproved : evaluateYoloPolicy 0 (judging
      (thresholdPolicy .denyList [js "rm *"]) .command
      (js "rm 'a\nb'")) ≠ none := by
    decide
  exact hApproved (h.1 ⟨js "rm *", List.mem_singleton.mpr rfl,
    .inl (by decide)⟩)

/-- **The exceptions**: the strict reading fails for a low-risk command, for
a host and for a quoted line break. -/
theorem strictVeto_fails :
    ¬StrictVetoHolds 0
      (judging (thresholdPolicy .allowList []) .command (js "ls"))
      (thresholdPolicy .allowList []) (js "ls") ∧
    ¬StrictVetoHolds 0
      (judging (thresholdPolicy .denyList [js "b"]) .host (js "a;b"))
      (thresholdPolicy .denyList [js "b"]) (js "a;b") ∧
    ¬StrictVetoHolds 0
      (judging (thresholdPolicy .denyList [js "rm *"]) .command
        (js "rm 'a\nb'"))
      (thresholdPolicy .denyList [js "rm *"]) (js "rm 'a\nb'") :=
  ⟨strictVeto_fails_threshold, strictVeto_fails_host,
    strictVeto_fails_lineBreak⟩

end OpenApe.Ports.YoloVeto
