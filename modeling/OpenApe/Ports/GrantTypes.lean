import OpenApe.Verified.JsText

/-!
# The grant data model

The records `@openape/core` exchanges about grants, with every field the
ported functions read or write.  Optional properties are `Option`s; epoch
seconds and durations are integers, since nothing in the request path keeps
a client from sending a negative one.  Property names are the source's, in
camel case.
-/

namespace OpenApe.Ports.GrantTypes

open Verified.JsText

/-! ## Enumerations -/

inductive GrantType where
  | once
  | timed
  | always
  deriving DecidableEq, Repr

inductive GrantStatus where
  | pending
  | approved
  | denied
  | revoked
  | expired
  | used
  | withdrawn
  deriving DecidableEq, Repr

inductive GrantCategory where
  | command
  | delegation
  | standing
  deriving DecidableEq, Repr

inductive RiskLevel where
  | low
  | medium
  | high
  | critical
  deriving DecidableEq, Repr

/-! ## Authorization details -/

/-- A CLI resource; without a selector it stands for every instance. -/
structure CliResourceRef where
  resource : JsString
  selector : Option Record := none
  deriving DecidableEq

structure CliConstraints where
  exactCommand : Option Bool := none
  singleUse : Option Bool := none
  deriving DecidableEq

/-- An authorization detail of type `openape_cli`. -/
structure CliAuthorizationDetail where
  cliId : JsString
  operationId : JsString
  resourceChain : List CliResourceRef
  action : JsString
  approval : Option GrantType := none
  reason : Option JsString := none
  grantId : Option JsString := none
  permission : JsString
  display : JsString
  risk : RiskLevel
  constraints : Option CliConstraints := none
  deriving DecidableEq

/-- An authorization detail of type `openape_grant`. -/
structure GrantAuthorizationDetail where
  action : JsString
  locations : Option (List JsString) := none
  approval : Option GrantType := none
  reason : Option JsString := none
  grantId : Option JsString := none
  deriving DecidableEq

/-- An entry of `authorization_details`.  Older clients stored entries of
neither declared shape; all that is ever read of one is its JSON text. -/
inductive AuthorizationDetail where
  | openapeCli (detail : CliAuthorizationDetail)
  | openapeGrant (detail : GrantAuthorizationDetail)
  | other (json : JsString)
  deriving DecidableEq

namespace AuthorizationDetail

/-- The detail, when its type is `openape_cli`. -/
def cli? : AuthorizationDetail → Option CliAuthorizationDetail
  | openapeCli detail => some detail
  | openapeGrant _ => none
  | other _ => none

end AuthorizationDetail

/-! ## Requests -/

structure ExecutionFile where
  path : JsString
  sha256 : JsString
  deriving DecidableEq

structure ExecutionContext where
  files : Option (List ExecutionFile) := none
  argv : Option (List JsString) := none
  argvHash : Option JsString := none
  adapterId : JsString
  adapterVersion : JsString
  adapterDigest : JsString
  adapterOwner : Option JsString := none
  adapterDomain : Option JsString := none
  resolvedExecutable : JsString
  contextBindings : Option Record := none
  programSha256 : Option JsString := none
  versionTested : Option Bool := none
  deriving DecidableEq

structure GrantBatch where
  id : JsString
  title : Option JsString := none
  description : Option JsString := none
  size : Option Int := none
  deriving DecidableEq

structure GrantSummary where
  title : JsString
  description : Option JsString := none
  origin : Option JsString := none
  link : Option JsString := none
  deriving DecidableEq

structure GrantSubmitter where
  delegate : JsString
  delegationGrant : JsString
  deriving DecidableEq

/-- What a stored request of `type: 'standing'` carries besides the fields it
shares with every request. -/
structure StandingPattern where
  owner : JsString
  cliId : Option JsString := none
  resourceChainTemplate : List CliResourceRef
  action : Option JsString := none
  maxRisk : Option RiskLevel := none
  deriving DecidableEq

structure OpenApeGrantRequest where
  reference : Option JsString := none
  requester : JsString
  targetHost : JsString
  audience : JsString
  grantType : Option GrantType := none
  permissions : Option (List JsString) := none
  authorizationDetails : Option (List AuthorizationDetail) := none
  command : Option (List JsString) := none
  cmdHash : Option JsString := none
  executionContext : Option ExecutionContext := none
  duration : Option Int := none
  reason : Option JsString := none
  waitsUntil : Option Int := none
  summary : Option GrantSummary := none
  batch : Option GrantBatch := none
  submittedBy : Option GrantSubmitter := none
  runAs : Option JsString := none
  delegator : Option JsString := none
  delegate : Option JsString := none
  scopes : Option (List JsString) := none
  standing : Option StandingPattern := none
  deriving DecidableEq

structure BrokeredGrant where
  connectionId : JsString
  brokerIssuer : JsString
  agentIssuer : JsString
  owner : JsString
  keyId : JsString
  requesterName : Option JsString := none
  deriving DecidableEq

structure OpenApeGrant where
  brokered : Option BrokeredGrant := none
  id : JsString
  type : Option GrantCategory := none
  request : OpenApeGrantRequest
  status : GrantStatus
  decidedBy : Option JsString := none
  createdAt : Int
  decidedAt : Option Int := none
  expiresAt : Option Int := none
  usedAt : Option Int := none
  withdrawReason : Option JsString := none
  decidedByStandingGrant : Option JsString := none
  autoApprovalKind : Option JsString := none
  deriving DecidableEq

/-! ## Errors -/

/-- The class of a thrown error; `http` is an error with a status code. -/
inductive ErrorKind where
  | error
  | invalidGrantReference
  | grantReferenceConflict
  | invalidGrantBatch
  | http (statusCode : Nat)
  deriving DecidableEq, Repr

structure JsError where
  kind : ErrorKind
  message : JsString
  deriving DecidableEq

/-- `new Error(message)` -/
def plainError (message : JsString) : JsError := ⟨.error, message⟩

/-- The text of a status, as messages print it. -/
def GrantStatus.text : GrantStatus → JsString
  | .pending => js "pending"
  | .approved => js "approved"
  | .denied => js "denied"
  | .revoked => js "revoked"
  | .expired => js "expired"
  | .used => js "used"
  | .withdrawn => js "withdrawn"

/-! ## Truthiness -/

/-- `!!text`: neither absent nor empty. -/
def truthy (text : Option JsString) : Bool :=
  match text with
  | none => false
  | some s => !s.isEmpty

/-- `!!number`: neither absent nor zero. -/
def truthyNumber (n : Option Int) : Bool :=
  match n with
  | none => false
  | some n => n != 0

@[simp] theorem truthy_some (s : JsString) :
    truthy (some s) = !s.isEmpty := rfl

/-- `grant_type ?? 'once'`. -/
def OpenApeGrantRequest.grantTypeOrOnce (request : OpenApeGrantRequest) :
    GrantType :=
  request.grantType.getD .once

/-! ## Broker binding -/

/-- `sameBrokeredGrant`: display metadata is no part of the binding. -/
def sameBrokeredGrant (left right : Option BrokeredGrant) : Bool :=
  match left, right with
  | none, none => true
  | some left, some right =>
      left.connectionId == right.connectionId &&
        left.brokerIssuer == right.brokerIssuer &&
        left.agentIssuer == right.agentIssuer &&
        left.owner == right.owner && left.keyId == right.keyId
  | _, _ => false

/-! ## Shape tiers -/

/-- The shape an execution context was resolved with. -/
structure ShapeTierFacts where
  adapterOwner : Option JsString := none
  adapterDomain : Option JsString := none
  adapterDigest : Option JsString := none
  deriving DecidableEq

def shapeTierFacts (context : Option ExecutionContext) : ShapeTierFacts where
  adapterOwner := context.bind ExecutionContext.adapterOwner
  adapterDomain := context.bind ExecutionContext.adapterDomain
  adapterDigest := context.map ExecutionContext.adapterDigest

/-- Whether a shape is personal or of a domain. -/
def ShapeTierFacts.scoped (facts : ShapeTierFacts) : Bool :=
  truthy facts.adapterOwner || truthy facts.adapterDomain

/-- Scoped shapes are the same only with their digest; the registry's shapes
bind none. -/
def sameShapeTier (a b : ShapeTierFacts) : Bool :=
  if !a.scoped && !b.scoped then true
  else a.adapterOwner == b.adapterOwner &&
    a.adapterDomain == b.adapterDomain && a.adapterDigest == b.adapterDigest

end OpenApe.Ports.GrantTypes
