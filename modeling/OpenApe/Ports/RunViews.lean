import OpenApe.Ports.CentralValues

/-!
# Run views (`runs.ts`)

`parseRunView`: at most 100 run records and 500 events in rising sequence,
with the optional timing and pending approvals.  The fields of one approval
are the business of `parseRunApproval`, a parameter.
-/

namespace OpenApe.Ports.RunViews

open Verified.JsText Verified.Json
open CentralValues

/-- `parseRunApproval`, for its effect of throwing. -/
abbrev ApprovalParser := JsonValue → Except WorkspaceError Unit

/-! ## One run -/

/-- The condition of 'Invalid automatic recovery state'. -/
def badRecovery (run : Unknown) : Bool :=
  let recovery := member run "automaticRecovery"
  truthy recovery &&
    (!isOneOf ["retry", "isolated", "hold", "continued"]
        (member recovery "disposition") ||
      (text? (member recovery "reason")).isNone ||
      !isSafeInteger (member recovery "attempt") ||
      (!isNull (member recovery "nextAt") &&
        !isSafeInteger (member recovery "nextAt")))

/-- The condition that a run's `recovery` adds to 'Invalid run record'. -/
def badReview (recovery : Unknown) : Bool :=
  !isNull recovery &&
    (!truthy recovery ||
      !isOneOf ["ready", "needsReview", "retryQueued"]
        (member recovery "state") ||
      (!isNull (member recovery "error") &&
        (text? (member recovery "error")).isNone))

def runStates : List String :=
  ["running", "completed", "completedWithGaps", "failed", "cancelled",
    "blocked", "interrupted"]

/-- The condition of 'Invalid run record'. -/
def badRun (run : Unknown) : Bool :=
  !truthy run || badReview (member run "recovery") ||
    !isLooseId (textOf (member run "id")) ||
    !isLooseId (textOf (member run "podId")) ||
    !isHash (textOf (member run "scriptHash")) ||
    !isOneOf runStates (member run "state") ||
    !isSafeInteger (member run "startedAt") ||
    (!isNull (member run "finishedAt") &&
      !isSafeInteger (member run "finishedAt")) ||
    (text? (member run "summary")).isNone ||
    (!isNull (member run "error") && (text? (member run "error")).isNone) ||
    !isSafeFrom 0 (member run "checkpointRevision")

def checkRun (run : JsonValue) : Except WorkspaceError Unit := do
  throwIf (badRecovery (some run))
    (.error (js "Invalid automatic recovery state"))
  throwIf (badRun (some run)) (.error (js "Invalid run record"))

/-! ## Timing and approvals -/

/-- The condition of 'Invalid run timing'. -/
def badTiming (timing : Unknown) : Bool :=
  truthy timing &&
    (!isSafeFrom 0 (member timing "activeMs") ||
      !isSafeFrom 0 (member timing "waitingMs"))

/-- `const { runId, ...approval } = item` and the checks of both. -/
def checkApproval (parseRunApproval : ApprovalParser) (item : JsonValue) :
    Except WorkspaceError Unit := do
  let runId ← property (some item) "runId"
  throwIf (!isLooseId (textOf runId)) (.error (js "Invalid approval run"))
  parseRunApproval (item.without [js "runId"])

def checkApprovals (parseRunApproval : ApprovalParser) (approvals : Unknown) :
    Except WorkspaceError Unit :=
  match approvals with
  | none => .ok ()
  | some (.array items) => do
      throwIf (decide (32 < items.length))
        (.error (js "Invalid pending approvals"))
      items.forM (checkApproval parseRunApproval)
  | some _ => .error (.error (js "Invalid pending approvals"))

/-! ## Events -/

/-- The condition of 'Invalid run event' after the sequence `previous`. -/
def badEvent (previous : Int) (event : Unknown) : Bool :=
  !truthy event || !isSafeFrom (previous + 1) (member event "sequence") ||
    (text? (member event "type")).isNone ||
    !isSafeInteger (member event "at")

def checkEvents : Int → List JsonValue → Except WorkspaceError Unit
  | _, [] => .ok ()
  | previous, event :: events =>
      if badEvent previous (some event) then
        .error (.error (js "Invalid run event"))
      else
        checkEvents ((safeInteger? (member (some event) "sequence")).getD 0)
          events

/-! ## The view -/

/-- `view.runs` and `view.events`, where both are short enough arrays. -/
def viewCollections (view : JsonValue) :
    Except WorkspaceError (List JsonValue × List JsonValue) :=
  match view.field? (js "runs"), view.field? (js "events") with
  | some (.array runs), some (.array events) =>
      if runs.length ≤ 100 ∧ events.length ≤ 500 then .ok (runs, events)
      else .error (.error (js "Invalid run view collections"))
  | _, _ => .error (.error (js "Invalid run view collections"))

/-- The checks of the members of a view, in the order of the source. -/
def checkView (parseRunApproval : ApprovalParser) (view : JsonValue)
    (runs events : List JsonValue) : Except WorkspaceError Unit := do
  runs.forM checkRun
  throwIf (badTiming (view.field? (js "timing")))
    (.error (js "Invalid run timing"))
  checkApprovals parseRunApproval (view.field? (js "approvals"))
  checkEvents 0 events

def parseRunView (parseRunApproval : ApprovalParser) (value : Unknown) :
    Except WorkspaceError JsonValue := do
  let view ← plainObject "Invalid run view" value
  let collections ← viewCollections view
  checkView parseRunApproval view collections.1 collections.2
  return view

end OpenApe.Ports.RunViews
