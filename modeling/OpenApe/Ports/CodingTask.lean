import OpenApe.Ports.CodingCommands
import OpenApe.Ports.MergeDecisions
import OpenApe.Verified.Transcripts

/-!
# A coding task and its merge

Port of `runCodingTask` and `gateMerge`.  The shell, the policy loader, the
coding loop, the risk assessor and the reviewer are the environment: each is
asked by a call and may answer anything, also by an error.  A shell call names
the step of the run that makes it.  The trace, the log and the loop's
configuration are left out, and `buildBranchName` is a parameter.

`merge_armed` lists everything that precedes a merge command.
-/

namespace OpenApe.Ports.CodingTask

open Verified.JsText Verified.Programs Verified.Programs.Program
open Verified.ShellReading (fill)
open Verified.Transcripts
open Verified.Unicode (asciiLower)
open CodingCommands GitWorktree MergeDecisions

/-! ## The environment -/

/-- The steps of a run that go to the shell. -/
inductive Step where
  | worktree
  | listing
  | diff
  | commit
  | push
  | pullRequest
  | merge
  deriving DecidableEq

structure ShellResult where
  stdout : JsString
  stderr : JsString
  exitCode : Int

structure LoopRequest where
  systemPrompt : JsString
  userMessage : JsString
  maxSteps : Nat

structure RunResult where
  ok : Bool
  stepCount : Nat

structure ReviewRequest where
  prRef : JsString
  diff : JsString
  classification : ChangeClass

structure ReviewVerdict where
  approved : Bool
  reason : Option JsString

inductive Call where
  | shell (step : Step) (line : JsString)
  | resolvePolicy (worktree : JsString)
  | loop (request : LoopRequest)
  | assess (paths : List JsString) (diff : JsString)
  | review (request : ReviewRequest)

def Call.Reply : Call → Type
  | .shell _ _ => ShellResult
  | .resolvePolicy _ => MergePolicy
  | .loop _ => RunResult
  | .assess _ _ => AgentRiskAssessment
  | .review _ => ReviewVerdict

@[reducible] def coding : Interface := ⟨Call, Call.Reply⟩

abbrev Coding := Program coding JsString

@[reducible] def shell (step : Step) (line : JsString) : Coding ShellResult :=
  perform (I := coding) (.shell step line)

@[reducible] def resolvePolicy (worktree : JsString) : Coding MergePolicy :=
  perform (I := coding) (.resolvePolicy worktree)

@[reducible] def loop (request : LoopRequest) : Coding RunResult :=
  perform (I := coding) (.loop request)

@[reducible] def riskAssessor (paths : List JsString) (diff : JsString) :
    Coding AgentRiskAssessment :=
  perform (I := coding) (.assess paths diff)

@[reducible] def reviewer (request : ReviewRequest) : Coding ReviewVerdict :=
  perform (I := coding) (.review request)

/-! ## Tasks -/

structure IssueRef where
  number : JsString
  title : JsString
  body : Option JsString
  type : Option JsString

structure CodingTaskInput where
  issue : IssueRef
  repo : JsString
  forge : JsString

structure CodingTaskDeps where
  env : Env
  persona : JsString
  maxSteps : Nat
  policy : Option MergePolicy
  /-- `resolvePolicy` is given. -/
  resolvesPolicy : Bool
  squash : Bool
  /-- `buildBranchName` with the naming of the deployment. -/
  buildBranchName : IssueRef → Except JsString JsString
  /-- `GIT_AUTHOR_EMAIL` -/
  authorEmail : Option JsString
  /-- `GIT_AUTHOR_NAME` -/
  authorName : Option JsString

inductive MergeOutcome where
  | autoArmed
  | awaitingHuman
  | reviewerBlocked
  | runFailed
  deriving DecidableEq

structure CodingTaskResult where
  branch : JsString
  worktree : JsString
  runOk : Bool
  changedFiles : List JsString
  decision : Option MergeDecision
  outcome : MergeOutcome
  prRef : Option JsString
  reason : JsString

/-- `text?.trim()`, where it is not empty. -/
def trimmed? (text : Option JsString) : Option JsString :=
  match text.map trim with
  | none | some [] => none
  | some words => some words

def defaultInstructions : JsString :=
  js "Work in the provided worktree. When done:\n" ++
  js "- ensure the verification command passes (no PR on red)\n" ++
  js "- open a PR that references this issue\n" ++
  js "- leave risk-path / agent-judged-risky changes for human approval"

def buildTaskPrompt (issue : IssueRef) (persona : JsString) : JsString :=
  (js "\n\n").intercalate ((trimmed? (some persona)).toList ++
    [js "Issue #" ++ issue.number ++ js ": " ++ issue.title,
      (trimmed? issue.body).getD (js "(no description provided)"),
      defaultInstructions])

/-! ## Texts of the run -/

/-- `DIFF_CAP` -/
def diffCap : Nat := 60 * 1024

def issueDigits (issue : IssueRef) : JsString := issue.number.filter isDigit

def prTitle (issue : IssueRef) : JsString :=
  issue.type.getD (js "fix") ++ js ": " ++ issue.title ++ js " (#" ++
    issueDigits issue ++ js ")"

def prBody (issue : IssueRef) : JsString :=
  js "Resolves #" ++ issueDigits issue ++
    js ".\n\nAutomated by the OpenApe coding agent."

/-- `stdout.split('\n').map(s => s.trim()).filter(Boolean)` -/
def changedFilesOf (stdout : JsString) : List JsString :=
  ((stdout.splitOn (unit '\n')).map trim).filter fun path => !path.isEmpty

/-- `(value || fallback).replace(/'/g, '')` -/
def author (value : Option JsString) (fallback : JsString) : JsString :=
  (match value with
    | none | some [] => fallback
    | some text => text).filter (· != unit '\'')

def listingLine (worktree : JsString) : JsString :=
  fill (words "git -C " ++ q worktree ++ words " add -A && git -C " ++
    q worktree ++ words " diff --cached --name-only")

def diffLine (worktree : JsString) : JsString :=
  fill (words "git -C " ++ q worktree ++ words " diff --cached")

def commitLine (deps : CodingTaskDeps) (worktree : JsString)
    (issue : IssueRef) : JsString :=
  fill (words "git -C " ++ q worktree ++ words " -c user.email=" ++
    q (author deps.authorEmail (js "coding-agent@openape.ai")) ++
    words " -c user.name=" ++
    q (author deps.authorName (js "OpenApe Coding Agent")) ++
    words " commit -m " ++ shq (prTitle issue))

/-- `cd '${worktree}' && ${command}` -/
def inWorktree (worktree command : JsString) : JsString :=
  fill (words "cd " ++ q worktree ++ words " && ") ++ command

/-- `(stderr || stdout).slice(0, 300)` -/
def failure (result : ShellResult) : JsString :=
  (if result.stderr = [] then result.stdout else result.stderr).take 300

/-- The digits after a mark that stands here. -/
def digitsAfter (mark : String) (text : JsString) : Option JsString :=
  if (js mark).isPrefixOf (text.map asciiLower) then
    match (text.drop (js mark).length).takeWhile isDigit with
    | [] => none
    | digits => some digits
  else none

/-- `/\/pull\/(\d+)|!(\d+)|\bpr\/(\d+)/i` at a place; `\b` looks at the unit
before it. -/
def prRefAt (before : Option CodeUnit) (text : JsString) : Option JsString :=
  (digitsAfter "/pull/" text).or ((digitsAfter "!" text).or
    (if before.any isTaskWord then none else digitsAfter "pr/" text))
where
  /-- `/\w/` -/
  isTaskWord (u : CodeUnit) : Bool :=
    isDigit u || isLetter u || u == unit '_'

/-- The reference of a pull request in what the forge printed. -/
def prRefFrom (before : Option CodeUnit) : JsString → Option JsString
  | [] => none
  | u :: rest =>
      match prRefAt before (u :: rest) with
      | some ref => some ref
      | none => prRefFrom (some u) rest

/-! ## The gate -/

structure GateOutcome where
  armMerge : Bool
  awaitingHuman : Bool
  reason : JsString

def gateMerge (decision : MergeDecision) (prRef diff : JsString) :
    Coding GateOutcome :=
  if decision.needsHuman then
    pure ⟨false, true, js "risk-path change — handed off to human reviewer"⟩
  else if !decision.needsReview then
    pure ⟨true, false, js "chore change — no reviewer gate"⟩
  else do
    let verdict ← reviewer ⟨prRef, diff, decision.classification⟩
    if verdict.approved then
      pure ⟨true, false, js "reviewer approved" ++ because verdict.reason⟩
    else
      pure ⟨false, false, js "reviewer blocked" ++ because verdict.reason⟩

/-! ## The run -/

def policyOf (deps : CodingTaskDeps) (worktree : JsString) :
    Coding MergePolicy :=
  if deps.resolvesPolicy then resolvePolicy worktree
  else pure (deps.policy.getD secureDefaultPolicy)

def runCodingTask (input : CodingTaskInput) (deps : CodingTaskDeps) :
    Coding CodingTaskResult := do
  let branch ← ofExcept (deps.buildBranchName input.issue)
  let taskId := taskIdFromIssue input.issue.number
  let worktree ← ofExcept (worktreePathFor deps.env taskId)
  let create ← ofExcept
    (buildCreateCommand deps.env input.repo taskId branch false)
  let wt ← shell .worktree (fill create)
  if wt.exitCode ≠ 0 then
    return ⟨branch, worktree, false, [], none, .runFailed, none,
      js "worktree create failed: " ++ wt.stderr.take 300⟩
  let policy ← policyOf deps worktree
  let run ← loop ⟨deps.persona,
    buildTaskPrompt input.issue deps.persona ++ js "\n\nWorktree: " ++
      worktree, deps.maxSteps⟩
  if run.ok ≠ true then
    return ⟨branch, worktree, false, [], none, .runFailed, none,
      js "coding loop errored after " ++ js (toString run.stepCount) ++
        js " steps"⟩
  -- neither the exit code of the listing nor that of the diff is looked at
  let names ← shell .listing (listingLine worktree)
  let changedFiles := changedFilesOf names.stdout
  if changedFiles = [] then
    return ⟨branch, worktree, true, [], none, .runFailed, none,
      js "no changes produced — nothing to PR"⟩
  let diffRes ← shell .diff (diffLine worktree)
  let diff := diffRes.stdout.take diffCap
  let agentRisk ← riskAssessor changedFiles diff
  let decision := decideMerge changedFiles policy agentRisk
  let commit ← shell .commit (commitLine deps worktree input.issue)
  if commit.exitCode ≠ 0 then
    return ⟨branch, worktree, true, changedFiles, some decision, .runFailed,
      some branch, js "commit failed: " ++ failure commit⟩
  let push ← shell .push
    (fill (buildPushCommand input.forge input.repo worktree branch))
  if push.exitCode ≠ 0 then
    return ⟨branch, worktree, true, changedFiles, some decision, .runFailed,
      some branch, js "push failed: " ++ failure push⟩
  let prCmd ← ofExcept (buildPrCreate ⟨input.forge, prTitle input.issue,
    prBody input.issue, branch, none⟩)
  let pr ← shell .pullRequest (inWorktree worktree (fill prCmd))
  if pr.exitCode ≠ 0 then
    return ⟨branch, worktree, true, changedFiles, some decision, .runFailed,
      some branch, js "pr create failed: " ++ failure pr⟩
  let prRef := (prRefFrom none pr.stdout).getD branch
  if decision.needsHuman then
    return ⟨branch, worktree, true, changedFiles, some decision,
      .awaitingHuman, some prRef, decision.reason⟩
  let gate ← gateMerge decision prRef diff
  if gate.armMerge ≠ true then
    return ⟨branch, worktree, true, changedFiles, some decision,
      .reviewerBlocked, some prRef, gate.reason⟩
  let mergeCmd ← ofExcept
    (buildPrMerge ⟨input.forge, prRef, true, deps.squash, true⟩)
  let _ ← shell .merge (inWorktree worktree (fill mergeCmd))
  return ⟨branch, worktree, true, changedFiles, some decision, .autoArmed,
    some prRef, gate.reason⟩

/-! ## What precedes a merge -/

/-- The answers that a run with a merge has got; the verdict is the
reviewer's, where it was asked. -/
structure Precedents where
  branch : JsString
  worktree : JsString
  createLine : JsString
  pushLine : JsString
  prLine : JsString
  wt : ShellResult
  policy : MergePolicy
  run : RunResult
  names : ShellResult
  diff : ShellResult
  agentRisk : AgentRiskAssessment
  commit : ShellResult
  push : ShellResult
  pr : ShellResult
  verdict : Option ReviewVerdict

namespace Precedents

variable (p : Precedents)

def changedFiles : List JsString := changedFilesOf p.names.stdout

/-- The part of the diff that is shown. -/
def shown : JsString := p.diff.stdout.take diffCap

def decision : MergeDecision :=
  decideMerge p.changedFiles p.policy p.agentRisk

def prRef : JsString := (prRefFrom none p.pr.stdout).getD p.branch

def policyEvents (deps : CodingTaskDeps) (worktree : JsString)
    (policy : MergePolicy) : List (Event coding JsString) :=
  if deps.resolvesPolicy then [⟨.resolvePolicy worktree, .ok policy⟩] else []

def reviewEvents (request : ReviewRequest) :
    Option ReviewVerdict → List (Event coding JsString)
  | none => []
  | some verdict => [⟨.review request, .ok verdict⟩]

/-- All calls of the run before the merge, in their order. -/
def events (input : CodingTaskInput) (deps : CodingTaskDeps) :
    List (Event coding JsString) :=
  ⟨.shell .worktree p.createLine, .ok p.wt⟩ ::
    (policyEvents deps p.worktree p.policy ++
      ⟨.loop ⟨deps.persona, buildTaskPrompt input.issue deps.persona ++
        js "\n\nWorktree: " ++ p.worktree, deps.maxSteps⟩, .ok p.run⟩ ::
      ⟨.shell .listing (listingLine p.worktree), .ok p.names⟩ ::
      ⟨.shell .diff (diffLine p.worktree), .ok p.diff⟩ ::
      ⟨.assess p.changedFiles p.shown, .ok p.agentRisk⟩ ::
      ⟨.shell .commit (commitLine deps p.worktree input.issue),
        .ok p.commit⟩ ::
      ⟨.shell .push p.pushLine, .ok p.push⟩ ::
      ⟨.shell .pullRequest p.prLine, .ok p.pr⟩ ::
      reviewEvents ⟨p.prRef, p.shown, p.decision.classification⟩ p.verdict)

/-- The checks of the run and of its gate. -/
structure Passed (deps : CodingTaskDeps) : Prop where
  policy : deps.resolvesPolicy = false →
    p.policy = deps.policy.getD secureDefaultPolicy
  worktree : p.wt.exitCode = 0
  run : p.run.ok = true
  changed : p.changedFiles ≠ []
  commit : p.commit.exitCode = 0
  push : p.push.exitCode = 0
  pr : p.pr.exitCode = 0
  human : p.decision.needsHuman = false
  review : p.decision.needsReview = false ∨
    ∃ verdict, p.verdict = some verdict ∧ verdict.approved = true

/-- What justifies the merge. -/
structure Justified (deps : CodingTaskDeps) : Prop where
  policy : deps.resolvesPolicy = false →
    p.policy = deps.policy.getD secureDefaultPolicy
  enabled : p.policy.autoMergeEnabled = true
  notRisky : p.agentRisk.risky = false
  noRiskPath : ∀ path ∈ p.changedFiles,
    matchesAny path p.policy.riskPaths = false
  autoOrApproved :
    (∀ path ∈ p.changedFiles, matchesAny path p.policy.autoPaths = true) ∨
      ∃ verdict, p.verdict = some verdict ∧ verdict.approved = true
  exits : p.wt.exitCode = 0 ∧ p.commit.exitCode = 0 ∧ p.push.exitCode = 0 ∧
    p.pr.exitCode = 0

theorem Passed.justified {p : Precedents} {deps : CodingTaskDeps}
    (h : p.Passed deps) : p.Justified deps := by
  obtain ⟨hEnabled, hRisky, hPaths, hAuto⟩ := decideMerge_spec h.human
  exact ⟨h.policy, hEnabled, hRisky, hPaths, h.review.imp_left hAuto,
    h.worktree, h.commit, h.push, h.pr⟩

end Precedents

open Precedents

section Merge

variable {line : JsString} {α : Type}

/-- A step of the shell before the merge. -/
theorem reaches_shell {step : Step} {command : JsString}
    {f : ShellResult → Coding α} {events : List (Event coding JsString)}
    (hStep : step ≠ .merge)
    (h : Reaches (.shell .merge line : coding.Call)
      (shell step command >>= f) events) :
    ∃ result rest, events = ⟨.shell step command, .ok result⟩ :: rest ∧
      Reaches (.shell .merge line : coding.Call) (f result) rest :=
  reaches_perform_bind_ne (fun hSame => hStep (Call.shell.inj hSame).1) h

/-- Another call before the merge. -/
theorem reaches_call {call : coding.Call}
    {f : coding.Reply call → Coding α} {events : List (Event coding JsString)}
    (hOther : ∀ step command, call ≠ .shell step command)
    (h : Reaches (.shell .merge line : coding.Call)
      (perform call >>= f) events) :
    ∃ reply rest, events = ⟨call, .ok reply⟩ :: rest ∧
      Reaches (.shell .merge line : coding.Call) (f reply) rest :=
  reaches_perform_bind_ne (hOther _ _) h

/-- The policy is the loaded one, or the static one. -/
theorem reaches_policyOf {deps : CodingTaskDeps} {worktree : JsString}
    {f : MergePolicy → Coding α} {events : List (Event coding JsString)}
    (h : Reaches (.shell .merge line : coding.Call)
      (policyOf deps worktree >>= f) events) :
    ∃ policy rest, events = policyEvents deps worktree policy ++ rest ∧
      (deps.resolvesPolicy = false →
        policy = deps.policy.getD secureDefaultPolicy) ∧
      Reaches (.shell .merge line : coding.Call) (f policy) rest := by
  rw [policyOf] at h
  cases hResolves : deps.resolvesPolicy with
  | true =>
      rw [hResolves, if_pos rfl] at h
      obtain ⟨policy, rest, rfl, hNext⟩ := @reaches_call line α
        (.resolvePolicy worktree) f events (fun _ _ hSame => (nomatch hSame)) h
      refine ⟨policy, rest, ?_, fun hOff => (nomatch hOff), hNext⟩
      have hPolicy : policyEvents deps worktree policy =
          [⟨.resolvePolicy worktree, .ok policy⟩] := if_pos hResolves
      rw [hPolicy]
      rfl
  | false =>
      rw [hResolves, if_neg (by decide)] at h
      have hPolicy : policyEvents deps worktree
          (deps.policy.getD secureDefaultPolicy) = [] :=
        if_neg (Bool.eq_false_iff.mp hResolves)
      refine ⟨_, events, ?_, fun _ => rfl, h⟩
      rw [hPolicy]
      rfl

/-- The gate arms a merge without a review, or on an approval. -/
theorem reaches_gateMerge {decision : MergeDecision} {prRef diff : JsString}
    {f : GateOutcome → Coding α} {events : List (Event coding JsString)}
    (hHuman : decision.needsHuman = false)
    (h : Reaches (.shell .merge line : coding.Call)
      (gateMerge decision prRef diff >>= f) events) :
    ∃ gate verdict rest,
      events = reviewEvents ⟨prRef, diff, decision.classification⟩ verdict ++
        rest ∧
      (gate.armMerge = true → decision.needsReview = false ∨
        ∃ approval, verdict = some approval ∧ approval.approved = true) ∧
      Reaches (.shell .merge line : coding.Call) (f gate) rest := by
  rw [gateMerge, hHuman, if_neg (by decide)] at h
  cases hReview : decision.needsReview with
  | false =>
      rw [hReview, if_pos (by decide)] at h
      exact ⟨_, none, events, rfl, fun _ => .inl rfl, h⟩
  | true =>
      rw [hReview, if_neg (by decide), bind_assoc] at h
      obtain ⟨verdict, rest, rfl, hNext⟩ := @reaches_call line α
        (.review ⟨prRef, diff, decision.classification⟩) _ events
        (fun _ _ hSame => (nomatch hSame)) h
      cases hApproved : ReviewVerdict.approved verdict with
      | true =>
          rw [hApproved, if_pos rfl] at hNext
          exact ⟨_, some verdict, rest, rfl,
            fun _ => .inr ⟨verdict, rfl, hApproved⟩, hNext⟩
      | false =>
          rw [hApproved, if_neg (by decide)] at hNext
          refine ⟨_, some verdict, rest, rfl, ?_, hNext⟩
          exact fun hArm => (nomatch hArm)

/-- The calls before a merge, and the checks they have passed. -/
theorem precedents_of_reaches {input : CodingTaskInput}
    {deps : CodingTaskDeps} {events : List (Event coding JsString)}
    (h : Reaches (.shell .merge line : coding.Call)
      (runCodingTask input deps) events) :
    ∃ p : Precedents, events = p.events input deps ∧ p.Passed deps := by
  obtain ⟨branch, -, h1⟩ := reaches_ofExcept_bind h
  obtain ⟨worktree, -, h2⟩ := reaches_ofExcept_bind h1
  obtain ⟨create, -, h3⟩ := reaches_ofExcept_bind h2
  obtain ⟨wt, events, rfl, h4⟩ := reaches_shell (by decide) h3
  obtain ⟨hWt, h5⟩ := reaches_of_early h4
  obtain ⟨policy, events, rfl, hPolicy, h6⟩ := reaches_policyOf h5
  obtain ⟨run, events, rfl, h7⟩ := @reaches_call line _ (.loop _) _ _
    (fun _ _ hSame => (nomatch hSame)) h6
  obtain ⟨hRun, h8⟩ := reaches_of_early h7
  obtain ⟨names, events, rfl, h9⟩ := reaches_shell (by decide) h8
  obtain ⟨hChanged, h10⟩ := reaches_of_early h9
  obtain ⟨diff, events, rfl, h11⟩ := reaches_shell (by decide) h10
  obtain ⟨agentRisk, events, rfl, h12⟩ := @reaches_call line _ (.assess _ _) _ _
    (fun _ _ hSame => (nomatch hSame)) h11
  obtain ⟨commit, events, rfl, h13⟩ := reaches_shell (by decide) h12
  obtain ⟨hCommit, h14⟩ := reaches_of_early h13
  obtain ⟨push, events, rfl, h15⟩ := reaches_shell (by decide) h14
  obtain ⟨hPush, h16⟩ := reaches_of_early h15
  obtain ⟨prCmd, -, h17⟩ := reaches_ofExcept_bind h16
  obtain ⟨pr, events, rfl, h18⟩ := reaches_shell (by decide) h17
  obtain ⟨hPr, h19⟩ := reaches_of_early h18
  obtain ⟨hHuman, h20⟩ := reaches_of_early h19
  obtain ⟨gate, verdict, events, rfl, hGate, h21⟩ :=
    reaches_gateMerge (Bool.eq_false_iff.mpr hHuman) h20
  obtain ⟨hArm, h22⟩ := reaches_of_early h21
  obtain ⟨mergeCmd, -, h23⟩ := reaches_ofExcept_bind h22
  rcases @reaches_perform_bind coding JsString _ _ (.shell .merge _) _ _ h23
    with ⟨-, rfl⟩ | ⟨merged, rest, rfl, hDone⟩
  · refine ⟨⟨branch, worktree, fill create,
      fill (buildPushCommand input.forge input.repo worktree branch),
      inWorktree worktree (fill prCmd), wt, policy, run, names, diff,
      agentRisk, commit, push, pr, verdict⟩, ?_, ?_⟩
    · rw [List.append_nil]
      rfl
    · exact ⟨hPolicy, not_not.mp hWt, not_not.mp hRun, hChanged,
        not_not.mp hCommit, not_not.mp hPush, not_not.mp hPr,
        Bool.eq_false_iff.mpr hHuman, hGate (not_not.mp hArm)⟩
  · exact absurd hDone not_reaches_pure

/-- Before a merge command come exactly the calls of `Precedents.events`: the
policy allows an automatic merge, the assessor has seen every listed path and
the first part of the diff and found no risk, no listed path is at risk, all
are auto paths or the reviewer has seen that part and approved, and the steps
that create, commit, push and open the request have exited with 0. -/
theorem merge_armed {input : CodingTaskInput} {deps : CodingTaskDeps}
    {events : List (Event coding JsString)}
    (h : Reaches (.shell .merge line : coding.Call)
      (runCodingTask input deps) events) :
    ∃ p : Precedents, events = p.events input deps ∧ p.Justified deps := by
  obtain ⟨p, hEvents, hPassed⟩ := precedents_of_reaches h
  exact ⟨p, hEvents, hPassed.justified⟩

end Merge

/-! ## A run whose listing fails -/

def isMerge : coding.Call → Bool
  | .shell .merge _ => true
  | _ => false

/-- The listing exits with 1 after it has printed one file; the diff prints
what is given. -/
def sampleAnswer (diff : JsString) :
    (call : coding.Call) → Except JsString (coding.Reply call)
  | .shell .listing _ => .ok (⟨js "a.ts", [], 1⟩ : ShellResult)
  | .shell .diff _ => .ok (⟨diff, [], 0⟩ : ShellResult)
  | .shell _ _ => .ok (⟨[], [], 0⟩ : ShellResult)
  | .resolvePolicy _ => .ok secureDefaultPolicy
  | .loop _ => .ok (⟨true, 1⟩ : RunResult)
  | .assess _ _ => .ok (⟨false, none⟩ : AgentRiskAssessment)
  | .review _ => .ok (⟨true, none⟩ : ReviewVerdict)

def sampleInput : CodingTaskInput where
  issue := ⟨js "1", js "Fix", none, none⟩
  repo := js "x"
  forge := js "github"

def sampleDeps : CodingTaskDeps where
  env := ⟨js "/h", js "/h", none, none⟩
  persona := []
  maxSteps := 1
  policy := some ⟨true, [], []⟩
  resolvesPolicy := false
  squash := false
  buildBranchName := fun _ => .ok (js "b")
  authorEmail := none
  authorName := none

/-- The run merges, and its answers are the ones given. -/
theorem sampleRun_reaches (diff : JsString) :
    ∃ events line, Reaches (.shell .merge line : coding.Call)
      (runCodingTask sampleInput sampleDeps) events ∧
      ∀ event ∈ events, event.reply = sampleAnswer diff event.call := by
  have hSome : (reachedBy (sampleAnswer diff) isMerge
      (runCodingTask sampleInput sampleDeps)).isSome = true := rfl
  obtain ⟨⟨events, call⟩, hFound⟩ := Option.isSome_iff_exists.mp hSome
  obtain ⟨hGoal, hReplies⟩ := reply_of_mem_reachedBy hFound
  have hReaches := reaches_of_reachedBy hFound
  obtain ⟨line, rfl⟩ : ∃ line, call = .shell .merge line := by
    cases call with
    | shell step line =>
        cases step with
        | merge => exact ⟨line, rfl⟩
        | _ => cases hGoal
    | _ => cases hGoal
  exact ⟨events, line, hReaches, hReplies⟩

/-- A merge is issued after a listing that failed, and the assessor was shown
less than the diff. -/
theorem merge_armed_on_part :
    ∃ events line, Reaches (.shell .merge line : coding.Call)
      (runCodingTask sampleInput sampleDeps) events ∧
      ∃ listing names command diff paths shown risk,
        ⟨.shell .listing listing, .ok names⟩ ∈ events ∧
        (names : ShellResult).exitCode ≠ 0 ∧
        ⟨.shell .diff command, .ok diff⟩ ∈ events ∧
        ⟨.assess paths shown, .ok risk⟩ ∈ events ∧
        shown ≠ (diff : ShellResult).stdout := by
  obtain ⟨events, line, hReaches, hReplies⟩ :=
    sampleRun_reaches (List.replicate (diffCap + 1) (unit 'x'))
  obtain ⟨p, rfl, -⟩ := precedents_of_reaches hReaches
  have hListing : ⟨.shell .listing (listingLine p.worktree), .ok p.names⟩ ∈
      p.events sampleInput sampleDeps := by
    simp [Precedents.events]
  have hDiff : ⟨.shell .diff (diffLine p.worktree), .ok p.diff⟩ ∈
      p.events sampleInput sampleDeps := by
    simp [Precedents.events]
  have hAssess : ⟨.assess p.changedFiles p.shown, .ok p.agentRisk⟩ ∈
      p.events sampleInput sampleDeps := by
    simp [Precedents.events]
  refine ⟨_, line, hReaches, _, _, _, _, _, _, _, hListing, ?_, hDiff, hAssess,
    ?_⟩
  · have hNames : p.names = ⟨js "a.ts", [], 1⟩ :=
      Except.ok.inj (hReplies _ hListing)
    rw [hNames]
    decide
  · have hStdout : p.diff.stdout =
        List.replicate (diffCap + 1) (unit 'x') :=
      congrArg ShellResult.stdout (Except.ok.inj (hReplies _ hDiff))
    rw [Precedents.shown, hStdout]
    intro hSame
    have hLength := congrArg List.length hSame
    rw [List.length_take, List.length_replicate] at hLength
    omega

theorem merge_armed_sample :
    ∃ events line, Reaches (.shell .merge line : coding.Call)
      (runCodingTask sampleInput sampleDeps) events ∧
      ∃ p : Precedents, events = p.events sampleInput sampleDeps ∧
        p.Justified sampleDeps := by
  obtain ⟨events, line, hReaches, -⟩ := sampleRun_reaches (js "diff")
  exact ⟨events, line, hReaches, merge_armed hReaches⟩

end OpenApe.Ports.CodingTask
