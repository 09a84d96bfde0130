import OpenApe.Ports.RefreshTokens
import OpenApe.Verified.Interleaving

/-!
# Refresh-token calls as a machine

Between two statements a call of the store is at one of few places.  `Stage`
lists them with what the call remembers there, and `Stage.advance` is the
turn of a call: its next statement and where that leads.  `run_pool` says
that this machine runs exactly as the programs do, so a run can be argued
about place by place.
-/

namespace OpenApe.Ports.RefreshMachine

open Verified.JsText Verified.Programs.Program Verified.Interleaving
open GrantTypes RefreshTokens

/-! ## Calls -/

/-- A call of the store. -/
inductive RefreshCall where
  | create (userId clientId : JsString) (ttlMs : Option Int)
  | consume (token : JsString)
  | revokeByToken (token : JsString)
  | revokeFamily (familyId : JsString)
  | revokeByUser (userId : JsString)
  deriving DecidableEq

inductive RefreshAnswer where
  | created (result : RefreshTokenResult)
  | consumed (result : RefreshConsumeResult)
  | revoked
  deriving DecidableEq

abbrev RefreshThread := RefreshProgram RefreshAnswer

abbrev RefreshPool := Pool refreshDb JsError RefreshAnswer RefreshWorld

section Machine

variable (hashToken : JsString → JsString)

def RefreshCall.program : RefreshCall → RefreshThread
  | create userId clientId ttlMs =>
      .created <$> RefreshTokens.create hashToken userId clientId ttlMs
  | consume token => .consumed <$> RefreshTokens.consume hashToken token
  | revokeByToken token =>
      (fun _ => .revoked) <$> RefreshTokens.revokeByToken hashToken token
  | revokeFamily familyId =>
      (fun _ => .revoked) <$> RefreshTokens.revokeFamily familyId
  | revokeByUser userId =>
      (fun _ => .revoked) <$> RefreshTokens.revokeByUser userId

/-- All calls at their start. -/
def inFlight (calls : List RefreshCall) (w : RefreshWorld) : RefreshPool :=
  ⟨calls.map (RefreshCall.program hashToken), w⟩

/-! ## Stages -/

/-- Where a call is, and what it remembers. -/
inductive Stage where
  | start (call : RefreshCall)
  /-- A family was drawn and is inserted next. -/
  | seeded (seed : FamilySeed) (family : RefreshTokenFamily)
  /-- The family is inserted and its first token comes next. -/
  | opened (seed : FamilySeed) (family : RefreshTokenFamily)
  /-- A consumption has read its token and checks the family next. -/
  | found (tokenHash : JsString) (entry : RefreshTokenRow)
  /-- A consumption of a used token revokes the family next. -/
  | rejecting (entry : RefreshTokenRow)
  /-- A consumption has passed its checks and marks the token next. -/
  | rotating (tokenHash : JsString) (entry : RefreshTokenRow)
      (family : RefreshTokenFamily)
  /-- The token is marked and its successor is inserted next. -/
  | replacing (entry : RefreshTokenRow) (family : RefreshTokenFamily)
      (newToken : JsString)
  /-- The successor is inserted and becomes the current token next. -/
  | closing (entry : RefreshTokenRow) (newToken : JsString)
  /-- `revokeByToken` has read its token and revokes the family next. -/
  | revoking (familyId : JsString)
  | ended (result : Except JsError RefreshAnswer)

/-- The answer of a consumption. -/
def consumedAnswer (entry : RefreshTokenRow) (newToken : JsString) :
    RefreshConsumeResult where
  newToken := newToken
  userId := entry.userId
  clientId := entry.clientId
  familyId := entry.familyId

/-- What is left to do at a stage. -/
def Stage.program : Stage → RefreshThread
  | start call => call.program hashToken
  | seeded seed family => .created <$> (do
      statement (.insertFamily family)
      statement (.insertToken (firstTokenRow family))
      pure { token := seed.token, familyId := seed.familyId })
  | opened seed family => .created <$> (do
      statement (.insertToken (firstTokenRow family))
      pure { token := seed.token, familyId := seed.familyId })
  | found tokenHash entry =>
      .consumed <$> consumeEntry hashToken tokenHash entry
  | rejecting entry => .consumed <$> rejectReuse entry
  | rotating tokenHash entry family =>
      .consumed <$> rotate hashToken tokenHash entry family
  | replacing entry family newToken => .consumed <$> (do
      statement (.insertToken
        (successorRow entry family (hashToken newToken)))
      statement (.setCurrentToken entry.familyId (hashToken newToken))
      pure (consumedAnswer entry newToken))
  | closing entry newToken => .consumed <$> (do
      statement (.setCurrentToken entry.familyId (hashToken newToken))
      pure (consumedAnswer entry newToken))
  | revoking familyId =>
      (fun _ => .revoked) <$> RefreshTokens.revokeFamily familyId
  | ended result => ofExcept result

/-- Goes on after a statement that may be refused. -/
def Stage.orThrow (reply : Except JsError Unit) (next : Stage) : Stage :=
  match reply with
  | .ok () => next
  | .error error => .ended (.error error)

/-- Where the checks of a consumption lead. -/
def checkEntry (tokenHash : JsString) (entry : RefreshTokenRow)
    (family : Option RefreshTokenFamily) (now : Int) : Stage :=
  match family with
  | none => .ended (.error tokenFamilyRevoked)
  | some family =>
      if family.revoked then .ended (.error tokenFamilyRevoked)
      else if entry.expiresAt < now then .ended (.error refreshTokenExpired)
      else if entry.used then .rejecting entry
      else .rotating tokenHash entry family

variable (runtime : RefreshRuntime)

/-- The turn of a call. -/
def Stage.advance (stage : Stage) (w : RefreshWorld) : Stage × RefreshWorld :=
  match stage with
  | start (.create userId clientId ttlMs) =>
      let seed : FamilySeed :=
        { token := runtime.newToken w.moment
          familyId := runtime.newFamilyId w.moment
          now := runtime.now w.moment }
      (.seeded seed (familyRow hashToken userId clientId ttlMs seed), w.later)
  | start (.consume token) =>
      (match w.tokens.find? (hashToken token) with
        | none => .ended (.error invalidRefreshToken)
        | some entry => .found (hashToken token) entry, w.later)
  | start (.revokeByToken token) =>
      (match w.tokens.find? (hashToken token) with
        | none => .ended (.ok .revoked)
        | some entry => .revoking entry.familyId, w.later)
  | start (.revokeFamily familyId) | revoking familyId =>
      (.ended (.ok .revoked), w.withFamilies (revokeWhere
        (fun family => family.familyId = familyId) w.families))
  | start (.revokeByUser userId) =>
      (.ended (.ok .revoked), w.withFamilies (revokeWhere
        (fun family => family.userId = userId && !family.revoked)
        w.families))
  | seeded seed family =>
      let (reply, families) :=
        insertInto "refresh_token_families.family_id" w.families family
      (.orThrow reply (.opened seed family), w.withFamilies families)
  | opened seed family =>
      let (reply, tokens) := insertInto "refresh_tokens.token_hash" w.tokens
        (firstTokenRow family)
      (.orThrow reply (.ended (.ok (.created
        { token := seed.token, familyId := seed.familyId }))),
        w.withTokens tokens)
  | found tokenHash entry =>
      (checkEntry tokenHash entry (w.families.find? entry.familyId)
        (runtime.now w.moment), w.later)
  | rejecting entry =>
      (.ended (.error reuseDetected), w.withFamilies (revokeWhere
        (fun family => family.familyId = entry.familyId) w.families))
  | rotating tokenHash entry family =>
      (.replacing entry family (runtime.newToken w.moment),
        w.withTokens (useToken tokenHash w.tokens))
  | replacing entry family newToken =>
      let (reply, tokens) := insertInto "refresh_tokens.token_hash" w.tokens
        (successorRow entry family (hashToken newToken))
      (.orThrow reply (.closing entry newToken), w.withTokens tokens)
  | closing entry newToken =>
      (.ended (.ok (.consumed (consumedAnswer entry newToken))),
        w.withFamilies (setCurrent entry.familyId (hashToken newToken)
          w.families))
  | ended result => (.ended result, w)

/-- **The stages step as the programs do.** -/
theorem step_program (stage : Stage) (w : RefreshWorld) :
    step (refreshHandler runtime) (stage.program hashToken) w =
      ((stage.advance hashToken runtime w).1.program hashToken,
        (stage.advance hashToken runtime w).2) := by
  cases stage with
  | start call =>
      cases call with
      | create userId clientId ttlMs => exact step_map_perform_bind _ _ _ _ _
      | consume token =>
          refine (step_map_perform_bind _ _ _ _ _).trans ?_
          simp only [refreshHandler, Stage.advance]
          cases w.tokens.find? (hashToken token) <;> rfl
      | revokeByToken token =>
          refine (step_map_perform_bind _ _ _ _ _).trans ?_
          simp only [refreshHandler, Stage.advance]
          cases w.tokens.find? (hashToken token) <;> rfl
      | revokeFamily familyId => rfl
      | revokeByUser userId => rfl
  | seeded seed family =>
      refine (step_map_perform_bind _ _ _ _ _).trans ?_
      simp only [refreshHandler, Stage.advance]
      cases (insertInto "refresh_token_families.family_id" w.families
        family).1 <;> rfl
  | opened seed family =>
      refine (step_map_perform_bind _ _ _ _ _).trans ?_
      simp only [refreshHandler, Stage.advance]
      cases (insertInto "refresh_tokens.token_hash" w.tokens
        (firstTokenRow family)).1 <;> rfl
  | found tokenHash entry =>
      refine (step_map_perform_bind _ _ _ _ _).trans ?_
      simp only [refreshHandler, Stage.advance, checkEntry]
      cases w.families.find? entry.familyId with
      | none => rfl
      | some family =>
          dsimp only
          split_ifs <;> rfl
  | rejecting entry => exact step_map_perform_bind _ _ _ _ _
  | rotating tokenHash entry family => exact step_map_perform_bind _ _ _ _ _
  | replacing entry family newToken =>
      refine (step_map_perform_bind _ _ _ _ _).trans ?_
      simp only [refreshHandler, Stage.advance]
      cases (insertInto "refresh_tokens.token_hash" w.tokens
        (successorRow entry family (hashToken newToken))).1 <;> rfl
  | closing entry newToken => exact step_map_perform_bind _ _ _ _ _
  | revoking familyId => rfl
  | ended result => cases result <;> rfl

/-! ## Runs -/

/-- The calls by their stages, over one database. -/
structure Machine where
  stages : List Stage
  world : RefreshWorld

/-- The pool of programs a machine stands for. -/
def Machine.pool (m : Machine) : RefreshPool :=
  ⟨m.stages.map (Stage.program hashToken), m.world⟩

def Machine.turn (i : Nat) (m : Machine) : Machine :=
  match m.stages[i]? with
  | none => m
  | some stage =>
      ⟨m.stages.set i (stage.advance hashToken runtime m.world).1,
        (stage.advance hashToken runtime m.world).2⟩

def Machine.run : List Nat → Machine → Machine
  | [], m => m
  | i :: schedule, m => run schedule (m.turn hashToken runtime i)

theorem turn_pool (i : Nat) (m : Machine) :
    (Verified.Interleaving.turn (refreshHandler runtime) i (m.pool hashToken)).1 =
      (m.turn hashToken runtime i).pool hashToken := by
  have hThread : (m.pool hashToken).threads[i]? =
      m.stages[i]?.map (Stage.program hashToken) := List.getElem?_map
  unfold Machine.turn
  cases hStage : m.stages[i]? with
  | none =>
      rw [hStage] at hThread
      exact turn_of_getElem?_none _ hThread
  | some stage =>
      rw [hStage] at hThread
      rw [turn_of_getElem? _ hThread]
      simp only [Machine.pool, step_program, List.map_set]

/-- **The machine runs as the programs do.** -/
theorem run_pool (schedule : List Nat) (m : Machine) :
    Verified.Interleaving.run (refreshHandler runtime) schedule (m.pool hashToken) =
      (m.run hashToken runtime schedule).pool hashToken := by
  induction schedule generalizing m with
  | nil => rfl
  | cons i schedule ih =>
      rw [Verified.Interleaving.run, turn_pool]
      exact ih _

/-- Only a call that has ended returns. -/
theorem ended_of_program_done {stage : Stage} {answer : RefreshAnswer}
    (h : stage.program hashToken = done answer) :
    stage = .ended (.ok answer) := by
  cases stage with
  | start call =>
      cases call <;> cases h
  | ended result =>
      cases result with
      | ok value =>
          cases h
          rfl
      | error error => cases h
  | _ => cases h

/-- Only a call that has ended throws. -/
theorem ended_of_program_fail {stage : Stage} {error : JsError}
    (h : stage.program hashToken = fail error) :
    stage = .ended (.error error) := by
  cases stage with
  | start call =>
      cases call <;> cases h
  | ended result =>
      cases result with
      | ok value => cases h
      | error thrown =>
          cases h
          rfl
  | _ => cases h

theorem run_append (early late : List Nat) (m : Machine) :
    m.run hashToken runtime (early ++ late) =
      (m.run hashToken runtime early).run hashToken runtime late := by
  induction early generalizing m with
  | nil => rfl
  | cons i early ih => exact ih _

end Machine

end OpenApe.Ports.RefreshMachine
