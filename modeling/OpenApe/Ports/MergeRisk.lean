import OpenApe.Ports.MergeDecisions
import OpenApe.Verified.CodePoints
import OpenApe.Verified.PathGlob

/-!
# Risks that the merge policy misses

A glob becomes a regular expression over UTF-16 code units in which `**`
stops at a line break and `**/` also reads part of a name
(`accepts_globToRegExp`).  Read as a path glob over characters it has other
matches: a path with a line break escapes its risk glob, and `**/x` lets `ax`
pass for an auto path.  `missesNoRisk_iff` says on which changes a decision is
nevertheless as the globs say.
-/

namespace OpenApe.Ports.MergeRisk

open MergeDecisions
open Verified.JsText Verified.PathGlob
open Verified.RegExpPieces (Piece Quantifier accepts accepts_iff)
open Verified.RegExpSource (dot)
open Verified.Unicode (codePoints)

/-! ## The reference reading -/

def signs : Signs CodeUnit := ⟨unit '*', unit '/', unit '?'⟩

/-- The same signs as characters. -/
def characterSigns : Signs Nat := signs.map UInt16.toNat

/-- The path is an instance of the glob, character by character. -/
def Matches (glob path : JsString) : Prop :=
  Reads (plain characterSigns.slash) (tokens characterSigns (codePoints glob))
    (codePoints path)

/-- `decideMerge` with the judgment that may be missing. -/
def decide? (paths : List JsString) (policy : MergePolicy)
    (agentRisk : Option AgentRiskAssessment) : MergeDecision :=
  decideMerge paths policy (agentRisk.getD ⟨false, none⟩)

/-- The decision never misses a declared risk. -/
structure MissesNoRisk (paths : List JsString) (policy : MergePolicy)
    (agentRisk : Option AgentRiskAssessment) : Prop where
  merged : (decide? paths policy agentRisk).autoMerge = true →
    policy.autoMergeEnabled = true ∧
      (∀ judgment, agentRisk = some judgment → judgment.risky = false) ∧
      ∀ p ∈ paths, ∀ glob ∈ policy.riskPaths, ¬Matches glob p
  unreviewed : (decide? paths policy agentRisk).autoMerge = true →
    (decide? paths policy agentRisk).needsReview = false →
      paths ≠ [] ∧ ∀ p ∈ paths, ∃ glob ∈ policy.autoPaths, Matches glob p

/-! ## What the expression reads -/

/-- `**` stays within a line, with or without the slash behind it, and `?` is
one code unit. -/
def inLine : Wildcards CodeUnit where
  directories x := ∀ u ∈ x, dot u = true
  anything x := ∀ u ∈ x, dot u = true
  run x := unit '/' ∉ x
  one x := ∃ u, x = [u] ∧ u ≠ unit '/'

/-- The path is an instance of the glob with every `**` within a line. -/
def MatchesInLine (glob path : JsString) : Prop :=
  Reads inLine (tokens signs glob) path

/-- The pieces of a list of tokens. -/
def pieceOf : Token CodeUnit → Piece CodeUnit
  | .directories | .anything => ⟨dot, .many⟩
  | .run => ⟨(· != unit '/'), .many⟩
  | .one => ⟨(· != unit '/'), .once⟩
  | .symbol u => ⟨(· == u), .once⟩

theorem globToRegExp_eq (glob : JsString) :
    globToRegExp glob = (tokens signs glob).map pieceOf := by
  induction glob using tokens.induct signs with
  | case1 => rfl
  | case2 => rfl
  | case3 => rfl
  | case4 more ih =>
      rw [tokens_directories, List.map_cons, ← ih]
      rfl
  | case5 c more hc ih =>
      rw [tokens_anything hc, List.map_cons, ← ih, globToRegExp.eq_def]
      exact if_neg hc
  | case6 b after hb ih =>
      rw [tokens_run hb, List.map_cons, ← ih, globToRegExp.eq_def]
      exact if_neg hb
  | case7 rest ha ih =>
      rw [tokens_one ha, List.map_cons, ← ih, globToRegExp.eq_def]
      rfl
  | case8 a rest hStar hMark ih =>
      rw [tokens_symbol hStar hMark, List.map_cons, ← ih, globToRegExp.eq_def]
      exact (if_neg hStar).trans (if_neg hMark)

theorem reads_pieceOf (t : Token CodeUnit) (x : JsString) :
    (pieceOf t).Reads x ↔ inLine.Token t x := by
  cases t with
  | directories => exact Iff.rfl
  | anything => exact Iff.rfl
  | run =>
      show (∀ u ∈ x, (u != unit '/') = true) ↔ unit '/' ∉ x
      simp only [bne_iff_ne]
      exact ⟨fun h hMem => h _ hMem rfl, fun h u hu hSame => h (hSame ▸ hu)⟩
  | one =>
      show (∃ u, x = [u] ∧ (u != unit '/') = true) ↔
        ∃ u, x = [u] ∧ u ≠ unit '/'
      simp only [bne_iff_ne]
  | symbol u =>
      show (∃ v, x = [v] ∧ (v == u) = true) ↔ x = [u]
      simp

theorem accepts_globToRegExp {glob path : JsString} :
    accepts (globToRegExp glob) path = true ↔ MatchesInLine glob path := by
  rw [accepts_iff, globToRegExp_eq, MatchesInLine]
  induction tokens signs glob generalizing path with
  | nil => exact Iff.rfl
  | cons t ts ih =>
      refine exists_congr fun x => exists_congr fun y => and_congr_right ?_
      intro _
      exact and_congr (reads_pieceOf t x) ih

theorem matchesAny_iff {path : JsString} {globs : List JsString} :
    matchesAny path globs = true ↔ ∃ glob ∈ globs, MatchesInLine glob path := by
  simp only [matchesAny, List.any_eq_true, accepts_globToRegExp]

/-! ## The condition -/

/-- The agent saw no risk. -/
def NotRisky (agentRisk : Option AgentRiskAssessment) : Prop :=
  ∀ judgment, agentRisk = some judgment → judgment.risky = false

/-- A risk glob matches some path within a line. -/
def RiskInLine (paths : List JsString) (policy : MergePolicy) : Prop :=
  ∃ p ∈ paths, ∃ glob ∈ policy.riskPaths, MatchesInLine glob p

/-- A change that touches a risk path does so within a line, and paths that
are all auto paths are so with whole directories. -/
structure GlobsKept (paths : List JsString) (policy : MergePolicy) :
    Prop where
  risk : (∃ p ∈ paths, ∃ glob ∈ policy.riskPaths, Matches glob p) →
    RiskInLine paths policy
  auto : ¬RiskInLine paths policy →
    (∀ p ∈ paths, ∃ glob ∈ policy.autoPaths, MatchesInLine glob p) →
      ∀ p ∈ paths, ∃ glob ∈ policy.autoPaths, Matches glob p

theorem risky_getD_iff {agentRisk : Option AgentRiskAssessment} :
    (agentRisk.getD ⟨false, none⟩).risky = false ↔ NotRisky agentRisk := by
  cases agentRisk with
  | none => exact ⟨fun _ _ h => (by cases h), fun _ => rfl⟩
  | some judgment =>
      constructor
      · intro hSafe other hSame
        rw [← Option.some.inj hSame]
        exact hSafe
      · intro hSafe
        exact hSafe judgment rfl

theorem classifyChange_risk {paths : List JsString} {policy : MergePolicy} :
    classifyChange paths policy = .risk ↔ RiskInLine paths policy := by
  have hAny : (paths.any fun p => matchesAny p policy.riskPaths) = true ↔
      RiskInLine paths policy := by
    simp only [List.any_eq_true, matchesAny_iff]
    rfl
  rw [← hAny, classifyChange]
  by_cases hNil : paths = []
  · rw [if_pos hNil, hNil]
    simp
  · rw [if_neg hNil]
    split
    · rename_i hRisk
      exact iff_of_true rfl hRisk
    · rename_i hRisk
      refine iff_of_false ?_ hRisk
      split <;> decide

theorem classifyChange_chore {paths : List JsString} {policy : MergePolicy}
    (hSafe : ¬RiskInLine paths policy) :
    classifyChange paths policy = .chore ↔ paths ≠ [] ∧
      ∀ p ∈ paths, ∃ glob ∈ policy.autoPaths, MatchesInLine glob p := by
  have hRisk := mt classifyChange_risk.mp hSafe
  rw [classifyChange] at hRisk ⊢
  by_cases hNil : paths = []
  · rw [if_pos hNil]
    exact iff_of_false (by decide) fun h => h.1 hNil
  · rw [if_neg hNil] at hRisk ⊢
    split at hRisk
    · exact absurd rfl hRisk
    · rename_i hNone
      obtain ⟨p, hp⟩ := List.exists_mem_of_ne_nil paths hNil
      simp only [if_neg hNone, ← matchesAny_iff, ← List.all_eq_true]
      constructor
      · intro h
        split at h
        · rename_i hAuto
          exact ⟨hNil, hAuto.2⟩
        · cases h
      · rintro ⟨-, hAuto⟩
        obtain ⟨glob, hGlob, -⟩ :=
          matchesAny_iff.mp (List.all_eq_true.mp hAuto p hp)
        exact if_pos ⟨List.ne_nil_of_mem hGlob, hAuto⟩

/-- When the agent may merge. -/
theorem autoMerge_iff {paths : List JsString} {policy : MergePolicy}
    {agentRisk : Option AgentRiskAssessment} :
    (decide? paths policy agentRisk).autoMerge = true ↔
      policy.autoMergeEnabled = true ∧ NotRisky agentRisk ∧
        ¬RiskInLine paths policy := by
  rw [← risky_getD_iff, ← classifyChange_risk, decide?]
  generalize agentRisk.getD ⟨false, none⟩ = judgment
  rw [decideMerge]
  cases policy.autoMergeEnabled
  · simp
  · cases judgment.risky
    · cases classifyChange paths policy <;> simp
    · simp

/-- When nobody looks at what the agent merges. -/
theorem needsReview_iff {paths : List JsString} {policy : MergePolicy}
    {agentRisk : Option AgentRiskAssessment}
    (h : (decide? paths policy agentRisk).autoMerge = true) :
    (decide? paths policy agentRisk).needsReview = false ↔
      classifyChange paths policy = .chore := by
  obtain ⟨hEnabled, hAgent, hSafe⟩ := autoMerge_iff.mp h
  rw [← risky_getD_iff] at hAgent
  rw [← classifyChange_risk] at hSafe
  revert hAgent
  rw [decide?]
  generalize agentRisk.getD ⟨false, none⟩ = judgment
  intro hAgent
  rw [decideMerge, hEnabled, hAgent]
  cases hClass : classifyChange paths policy with
  | risk => exact absurd hClass hSafe
  | chore => simp
  | code => simp

/-- A decision misses no risk if and only if auto-merge is off, the agent saw
a risk, or the globs match as they are meant. -/
theorem missesNoRisk_iff (paths : List JsString) (policy : MergePolicy)
    (agentRisk : Option AgentRiskAssessment) :
    MissesNoRisk paths policy agentRisk ↔
      (policy.autoMergeEnabled = true → NotRisky agentRisk →
        GlobsKept paths policy) := by
  constructor
  · intro h hEnabled hAgent
    have hMerge : ∀ hSafe : ¬RiskInLine paths policy,
        (decide? paths policy agentRisk).autoMerge = true :=
      fun hSafe => autoMerge_iff.mpr ⟨hEnabled, hAgent, hSafe⟩
    refine ⟨?_, fun hSafe hAuto p hp => ?_⟩
    · rintro ⟨p, hp, glob, hGlob, hMatch⟩
      by_contra hSafe
      exact (h.merged (hMerge hSafe)).2.2 p hp glob hGlob hMatch
    · have hChore := (classifyChange_chore hSafe).mpr
        ⟨List.ne_nil_of_mem hp, hAuto⟩
      have hReview := (needsReview_iff (hMerge hSafe)).mpr hChore
      exact (h.unreviewed (hMerge hSafe) hReview).2 p hp
  · intro h
    refine ⟨fun hMerge => ?_, fun hMerge hReview => ?_⟩
    · obtain ⟨hEnabled, hAgent, hSafe⟩ := autoMerge_iff.mp hMerge
      have hKept := h hEnabled hAgent
      exact ⟨hEnabled, hAgent, fun p hp glob hGlob hMatch =>
        hSafe (hKept.risk ⟨p, hp, glob, hGlob, hMatch⟩)⟩
    · obtain ⟨hEnabled, hAgent, hSafe⟩ := autoMerge_iff.mp hMerge
      have hChore := (needsReview_iff hMerge).mp hReview
      obtain ⟨hSome, hAuto⟩ := (classifyChange_chore hSafe).mp hChore
      exact ⟨hSome, (h hEnabled hAgent).auto hSafe hAuto⟩

/-- A risk glob with `**` does not see a path with a line break. -/
theorem missesNoRisk_lineBreak :
    ¬MissesNoRisk [js "src/a\nb"] ⟨true, [], [js "src/**"]⟩ none := by
  intro h
  have hMerge : (decide? [js "src/a\nb"] ⟨true, [], [js "src/**"]⟩
      none).autoMerge = true := by decide +kernel
  obtain ⟨-, -, hNone⟩ := h.merged hMerge
  refine hNone _ List.mem_cons_self _ List.mem_cons_self ?_
  have hGlob : tokens characterSigns (codePoints (js "src/**")) =
      [.symbol 0x73, .symbol 0x72, .symbol 0x63, .symbol 0x2F, .anything] := by
    decide +kernel
  have hPath : codePoints (js "src/a\nb") =
      [0x73, 0x72, 0x63, 0x2F, 0x61, 0x0A, 0x62] := by decide +kernel
  rw [Matches, hGlob, hPath]
  exact ⟨[_], _, rfl, rfl, [_], _, rfl, rfl, [_], _, rfl, rfl, [_], _, rfl, rfl,
    [0x61, 0x0A, 0x62], [], rfl, trivial, rfl⟩

end OpenApe.Ports.MergeRisk
