import OpenApe.Ports.GrantTypes
import OpenApe.Verified.KeyedTable
import OpenApe.Verified.Programs

/-!
# The token exchange (`packages/auth/src/idp/token.ts`)

`handleTokenExchange` as a program over the code store and the services it
awaits.  The code store is that of `drizzle-code-store.ts`, one call for each
statement; the in-memory store behaves as the same statements without a turn
of another program between them.  A reply is delivered together with what
the program reads before its next await: the clock in milliseconds and a
random id.
-/

namespace OpenApe.Ports.TokenExchange

open Verified.JsText Verified.KeyedTable Verified.Programs
  Verified.Programs.Program
open GrantTypes

/-! ## Data -/

inductive ActorType where
  | human
  | agent
  deriving DecidableEq

/-- `DDISADelegateClaim`; its `act` is always `'agent'`. -/
structure DelegateClaim where
  sub : JsString
  grantId : JsString
  deriving DecidableEq

structure DelegationActClaim where
  sub : JsString
  deriving DecidableEq

structure CodeEntry where
  code : JsString
  clientId : JsString
  redirectUri : JsString
  codeChallenge : JsString
  userId : JsString
  nonce : Option JsString := none
  expiresAt : Int
  act : Option ActorType := none
  delegate : Option DelegateClaim := none
  scope : Option JsString := none
  authorizationDetails : Option (List AuthorizationDetail) := none
  delegationAct : Option DelegationActClaim := none
  delegationGrant : Option JsString := none
  deriving DecidableEq

structure TokenExchangeParams where
  grantType : JsString
  code : JsString
  codeVerifier : JsString
  redirectUri : JsString
  clientId : JsString
  deriving DecidableEq

structure TokenExchangeResult where
  idToken : JsString
  accessToken : JsString
  tokenType : JsString
  expiresIn : Nat
  assertion : JsString
  refreshToken : Option JsString := none
  authorizationDetails : Option (List AuthorizationDetail) := none
  deriving DecidableEq

structure UserClaims where
  email : Option JsString := none
  name : Option JsString := none
  approver : Option JsString := none
  deriving DecidableEq

structure AssertionClaimsInput where
  sub : JsString
  aud : JsString
  nonce : Option JsString := none
  act : Option ActorType := none
  delegate : Option DelegateClaim := none
  email : Option JsString := none
  name : Option JsString := none
  approver : Option JsString := none
  authorizationDetails : Option (List AuthorizationDetail) := none
  delegationAct : Option DelegationActClaim := none
  delegationGrant : Option JsString := none
  scope : Option (List JsString) := none
  deriving DecidableEq

/-- The `act` claim: a kind of actor, or the delegate that acts. -/
inductive ActClaim where
  | actor (kind : ActorType)
  | delegation (claim : DelegationActClaim)
  deriving DecidableEq

structure AssertionClaims where
  iss : JsString
  sub : JsString
  aud : JsString
  act : ActClaim
  iat : Int
  exp : Int
  jti : JsString
  nonce : Option JsString
  delegationGrant : Option JsString
  scope : Option (List JsString)
  delegate : Option DelegateClaim
  email : Option JsString
  name : Option JsString
  approver : Option JsString
  authorizationDetails : Option (List AuthorizationDetail)
  deriving DecidableEq

structure SigningKey where
  kid : JsString
  privateKey : JsString
  deriving DecidableEq

/-! ## The awaited calls -/

inductive TokenCall where
  | selectCode (code : JsString)
  | deleteCode (code : JsString)
  | generateCodeChallenge (verifier : JsString)
  | resolveUserClaims (userId : JsString) (scope : Option JsString)
  | getSigningKey
  | signJWT (payload : AssertionClaims) (key : SigningKey)
  | createRefreshToken (userId clientId : JsString)
  deriving DecidableEq

/-- The replies; `selectCode` comes with the clock, and `getSigningKey` with
the clock and a random id. -/
@[reducible] def TokenCall.Reply : TokenCall → Type
  | selectCode _ => Option CodeEntry × Int
  | deleteCode _ => Unit
  | generateCodeChallenge _ => JsString
  | resolveUserClaims _ _ => UserClaims
  | getSigningKey => SigningKey × Int × JsString
  | signJWT _ _ => JsString
  | createRefreshToken _ _ => JsString

@[reducible] def tokenServices : Interface := ⟨TokenCall, TokenCall.Reply⟩

abbrev TokenProgram := Program tokenServices JsError

def tokenCall (call : TokenCall) : TokenProgram call.Reply :=
  perform (I := tokenServices) call

/-! ## The code store -/

/-- `createDrizzleCodeStore().find`: an expired row is deleted. -/
def findCode (code : JsString) : TokenProgram (Option CodeEntry) := do
  let (row, now) ← tokenCall (.selectCode code)
  match row with
  | none => pure none
  | some row =>
      if row.expiresAt < now then do
        tokenCall (.deleteCode code)
        pure none
      else pure (some row)

/-! ## Assertions -/

/-- The payload of an assertion signed at `now`, in seconds. -/
def assertionPayload (claims : AssertionClaimsInput) (issuer : JsString)
    (now : Int) (jti : JsString) : AssertionClaims where
  iss := issuer
  sub := claims.sub
  aud := claims.aud
  act :=
    match claims.delegationAct with
    | some claim => .delegation claim
    | none => .actor (claims.act.getD .human)
  iat := now
  exp := now + 300
  jti := jti
  nonce := claims.nonce.filter (fun nonce => nonce ≠ [])
  delegationGrant := claims.delegationGrant.filter (fun grant => grant ≠ [])
  -- An empty list survives: it means that nothing is allowed.
  scope := claims.scope
  delegate := claims.delegate
  email := claims.email.filter (fun email => email ≠ [])
  name := claims.name.filter (fun name => name ≠ [])
  approver := claims.approver.filter (fun approver => approver ≠ [])
  authorizationDetails :=
    claims.authorizationDetails.filter (fun details => details ≠ [])

def issueAssertion (claims : AssertionClaimsInput) (issuer : JsString) :
    TokenProgram JsString := do
  let (key, now, jti) ← tokenCall .getSigningKey
  tokenCall (.signJWT (assertionPayload claims issuer (now / 1000) jti) key)

/-! ## The exchange -/

/-- The issuer, and which optional services are passed. -/
structure ExchangeOptions where
  issuer : JsString
  resolvesUserClaims : Bool := true
  hasRefreshTokenStore : Bool := true
  deriving DecidableEq

/-- `(scope ?? '').split(/\s+/).filter(Boolean)` -/
def scopesOf (scope : Option JsString) : List JsString :=
  ((scope.getD []).splitOnP isTrimmed).filter (fun word => word ≠ [])

/-- `new Error(message)` -/
def exchangeError (message : String) : JsError := plainError (js message)

/-- What follows the deletion of the code. -/
def issueTokens (options : ExchangeOptions) (params : TokenExchangeParams)
    (codeEntry : CodeEntry) : TokenProgram TokenExchangeResult := do
  let extraClaims ←
    if options.resolvesUserClaims then
      tokenCall (.resolveUserClaims codeEntry.userId codeEntry.scope)
    else pure {}
  let assertion ← issueAssertion
    { sub := codeEntry.userId
      aud := params.clientId
      nonce := codeEntry.nonce
      act := codeEntry.act
      delegate := codeEntry.delegate
      email := extraClaims.email
      name := extraClaims.name
      approver := extraClaims.approver
      authorizationDetails := codeEntry.authorizationDetails
      delegationAct := codeEntry.delegationAct
      delegationGrant := codeEntry.delegationGrant } options.issuer
  let result : TokenExchangeResult :=
    { idToken := assertion
      accessToken := assertion
      tokenType := js "Bearer"
      expiresIn := 300
      assertion := assertion
      authorizationDetails := codeEntry.authorizationDetails.filter
        (fun details => details ≠ []) }
  if (scopesOf codeEntry.scope).contains (js "offline_access") &&
      options.hasRefreshTokenStore then do
    let token ← tokenCall
      (.createRefreshToken codeEntry.userId params.clientId)
    pure { result with refreshToken := some token }
  else pure result

/-- The checks of an entry that was found, up to its deletion. -/
def redeem (options : ExchangeOptions) (params : TokenExchangeParams)
    (codeEntry : CodeEntry) : TokenProgram TokenExchangeResult := do
  throwIf (codeEntry.clientId ≠ params.clientId)
    (exchangeError "Client ID mismatch")
  throwIf (codeEntry.redirectUri ≠ params.redirectUri)
    (exchangeError "Redirect URI mismatch")
  let computedChallenge ←
    tokenCall (.generateCodeChallenge params.codeVerifier)
  throwIf (computedChallenge ≠ codeEntry.codeChallenge)
    (exchangeError "PKCE verification failed")
  tokenCall (.deleteCode params.code)
  issueTokens options params codeEntry

def handleTokenExchange (options : ExchangeOptions)
    (params : TokenExchangeParams) : TokenProgram TokenExchangeResult := do
  throwIf (params.grantType ≠ js "authorization_code")
    (exchangeError "Unsupported grant_type")
  match ← findCode params.code with
  | none => fail (exchangeError "Invalid or expired authorization code")
  | some codeEntry => redeem options params codeEntry

/-! ## The database and the services -/

/-- What the services answer at the n-th call of a run. -/
structure TokenAnswers where
  now : Nat → Int
  randomUUID : Nat → JsString
  generateCodeChallenge : JsString → JsString
  resolveUserClaims :
    Nat → JsString → Option JsString → Except JsError UserClaims
  getSigningKey : Nat → Except JsError SigningKey
  signJWT : Nat → AssertionClaims → SigningKey → Except JsError JsString
  createRefreshToken : Nat → JsString → JsString → Except JsError JsString

abbrev CodeTable := Table CodeEntry.code

/-- The table `codes`, and how many calls were answered. -/
structure TokenWorld where
  codes : CodeTable
  moment : Nat

/-- Executes one call. -/
def tokenHandler (answers : TokenAnswers) :
    Handler tokenServices JsError TokenWorld :=
  fun call w =>
    let later : TokenWorld := { w with moment := w.moment + 1 }
    match call with
    | .selectCode code =>
        (.ok (w.codes.find? code, answers.now w.moment), later)
    | .deleteCode code =>
        (.ok (), { later with codes := w.codes.remove code })
    | .generateCodeChallenge verifier =>
        (.ok (answers.generateCodeChallenge verifier), later)
    | .resolveUserClaims userId scope =>
        (answers.resolveUserClaims w.moment userId scope, later)
    | .getSigningKey =>
        ((answers.getSigningKey w.moment).map (fun key =>
          (key, answers.now w.moment, answers.randomUUID w.moment)), later)
    | .signJWT payload key =>
        (answers.signJWT w.moment payload key, later)
    | .createRefreshToken userId clientId =>
        (answers.createRefreshToken w.moment userId clientId, later)

end OpenApe.Ports.TokenExchange
