import OpenApe.Ports.GrantTypes

/-!
# Authorization tokens (`packages/grants/src/authz-jwt.ts`)

The token that allows one program call under an approved grant.  The signature
is a parameter; `now` is the clock reading in seconds and `jti` the random id
of the token.
-/

namespace OpenApe.Ports.AuthzJwt

open Verified.JsText
open GrantTypes

/-- `OpenApeAuthZClaims` -/
structure AuthZClaims where
  brokered : Option BrokeredGrant
  iss : JsString
  sub : JsString
  aud : JsString
  targetHost : JsString
  iat : Int
  exp : Int
  jti : JsString
  grantId : JsString
  grantType : GrantType
  approval : GrantType
  permissions : Option (List JsString) := none
  authorizationDetails : Option (List AuthorizationDetail) := none
  scope : Option (List JsString) := none
  delegate : Option JsString := none
  cmdHash : Option JsString := none
  command : Option (List JsString) := none
  executionContext : Option ExecutionContext := none
  argvHash : Option JsString := none
  programSha256 : Option JsString := none
  decidedBy : Option JsString := none
  runAs : Option JsString := none
  deriving DecidableEq

/-- `brokeredGrantAuthority`: the binding without display metadata. -/
def brokeredGrantAuthority (value : BrokeredGrant) : BrokeredGrant :=
  { value with requesterName := none }

/-- `...(text ? { text } : {})` -/
def ifTruthy (text : Option JsString) : Option JsString :=
  if truthy text then text else none

def notApproved (status : GrantStatus) : JsError :=
  plainError (js "Grant is not approved: " ++ status.text)

def alreadyExpired : JsError := plainError (js "Grant has already expired")

/-- The one program call a command token allows. -/
structure CommandTokenCall where
  argvHash : JsString
  programSha256 : JsString
  detail : CliAuthorizationDetail
  executionContext : ExecutionContext
  deriving DecidableEq

/-- `COMMAND_TOKEN_LIFETIME_SECONDS` -/
def commandTokenLifetimeSeconds : Int := 300

/-- `Math.min(now + COMMAND_TOKEN_LIFETIME_SECONDS, grant.expires_at ??
Infinity)` -/
def commandExpiry (grant : OpenApeGrant) (now : Int) : Int :=
  match grant.expiresAt with
  | none => now + commandTokenLifetimeSeconds
  | some expiresAt => min (now + commandTokenLifetimeSeconds) expiresAt

/-- The token and its end. -/
def issueCommandJWT (sign : AuthZClaims → JsString) (grant : OpenApeGrant)
    (call : CommandTokenCall) (issuer : JsString) (now : Int)
    (jti : JsString) : Except JsError (JsString × Int) :=
  let exp := commandExpiry grant now
  if grant.status ≠ .approved then .error (notApproved grant.status)
  else if exp ≤ now then .error alreadyExpired
  else .ok (sign
    { brokered := grant.brokered.map brokeredGrantAuthority
      iss := issuer
      sub := grant.request.requester
      aud := grant.request.audience
      targetHost := grant.request.targetHost
      iat := now
      exp := exp
      jti := jti
      grantId := grant.id
      grantType := grant.request.grantTypeOrOnce
      approval := grant.request.grantTypeOrOnce
      permissions := some [call.detail.permission]
      authorizationDetails := some [.openapeCli call.detail]
      command := call.executionContext.argv
      executionContext := some call.executionContext
      argvHash := some call.argvHash
      programSha256 := some call.programSha256
      decidedBy := ifTruthy grant.decidedBy
      runAs := ifTruthy grant.request.runAs }, exp)

/-- A command token is issued for an approved grant until `expires_at`. -/
theorem issueCommandJWT_isOk_iff (sign : AuthZClaims → JsString)
    (grant : OpenApeGrant) (call : CommandTokenCall) (issuer : JsString)
    (now : Int) (jti : JsString) :
    (issueCommandJWT sign grant call issuer now jti).isOk = true ↔
      grant.status = .approved ∧
        ∀ expiresAt, grant.expiresAt = some expiresAt → now < expiresAt := by
  have hExpiry : commandExpiry grant now ≤ now ↔
      ∃ expiresAt, grant.expiresAt = some expiresAt ∧ expiresAt ≤ now := by
    unfold commandExpiry commandTokenLifetimeSeconds
    cases grant.expiresAt with
    | none =>
        simp only [reduceCtorEq, false_and, exists_false, iff_false]
        omega
    | some expiresAt =>
        simp only [Option.some.injEq, exists_eq_left']
        omega
  unfold issueCommandJWT
  by_cases hStatus : grant.status = .approved
  · by_cases hExpired : commandExpiry grant now ≤ now
    · obtain ⟨expiresAt, hSome, hLe⟩ := hExpiry.mp hExpired
      simp only [hStatus, hExpired, hSome, ne_eq, not_true_eq_false,
        if_false, if_true, Option.some.injEq, forall_eq', true_and]
      simpa [Except.isOk, Except.toBool] using hLe
    · simp only [hStatus, hExpired, ne_eq, not_true_eq_false, if_false,
        true_and]
      refine iff_of_true rfl ?_
      intro expiresAt hSome
      by_contra hLe
      exact hExpired (hExpiry.mpr ⟨expiresAt, hSome, by omega⟩)
  · simp [hStatus, Except.isOk, Except.toBool]

end OpenApe.Ports.AuthzJwt
