import OpenApe.Ports.GrantTypes
import OpenApe.Verified.Unicode

/-!
# Grant references (`packages/grants/src/grant-reference.ts`)

A reference names one request of a requester; a second submission under the
same key must ask for the same authority.  The key and the binding are JSON
texts in the source, used only to be compared.  They are injective on what
they list, so they are kept here as the values they list: the binding is the
request without its presentation fields, its records in canonical order.
-/

namespace OpenApe.Ports.GrantReference

open Verified.JsText Verified.Unicode
open GrantTypes

def invalidGrantReference (message : JsString) : JsError :=
  ⟨.invalidGrantReference, message⟩

/-- `new GrantReferenceConflictError()` -/
def grantReferenceConflict : JsError :=
  ⟨.grantReferenceConflict,
    js "The reference is already bound to a different authorization request"⟩

def parseGrantReference (value : Option JsString) :
    Except JsError (Option JsString) :=
  match value with
  | none => .ok none
  | some text =>
      if (trim text).isEmpty || 512 < utf8Length text ||
          (codePoints text).any
            (fun c => isControl c || isFormat c || isSurrogate c)
      then .error (invalidGrantReference (js
        "reference must be 1–512 UTF-8 bytes without control or format characters"))
      else .ok (some text)

def assertGrantReferenceRequest (request : OpenApeGrantRequest) :
    Except JsError Unit :=
  match parseGrantReference request.reference with
  | .error error => .error error
  | .ok none => .ok ()
  | .ok (some _) =>
      let command := request.command.getD []
      if request.grantType ≠ some .once || command.isEmpty ||
          command.any (fun arg => (0 : CodeUnit) ∈ arg) ||
          truthy request.runAs || truthy request.delegator ||
          truthy request.delegate || request.scopes.isSome ||
          request.duration.isSome
      then .error (invalidGrantReference (js
        "reference requires an exact single-use command without delegation or duration"))
      else .ok ()

/-- The authority a broker binds, without display names. -/
structure BrokerKey where
  connectionId : JsString
  brokerIssuer : JsString
  agentIssuer : JsString
  owner : JsString
  keyId : JsString
  deriving DecidableEq

structure GrantReferenceKey where
  requester : JsString
  reference : JsString
  broker : Option BrokerKey
  deriving DecidableEq

def grantReferenceKey (requester reference : JsString)
    (brokered : Option BrokeredGrant) : GrantReferenceKey where
  requester := requester
  reference := reference
  broker := brokered.map (fun b =>
    ⟨b.connectionId, b.brokerIssuer, b.agentIssuer, b.owner, b.keyId⟩)

/-- The key of a stored grant, when its request carries a reference. -/
def referenceKeyOf (grant : OpenApeGrant) : Option GrantReferenceKey :=
  grant.request.reference.map (fun reference =>
    grantReferenceKey grant.request.requester reference grant.brokered)

/-! ## The binding -/

/-- `canonical` on a record: its entries sorted by key. -/
def canonicalRecord (r : Record) : Record where
  entries := r.entries.insertionSort (fun a b => a.1 ≤ b.1)
  nodup := ((List.perm_insertionSort _ _).map Prod.fst).nodup_iff.mpr r.nodup

def canonicalDetail : AuthorizationDetail → AuthorizationDetail
  | .openapeCli detail =>
      .openapeCli { detail with
        resourceChain := detail.resourceChain.map (fun ref =>
          { ref with selector := ref.selector.map canonicalRecord }) }
  | detail => detail

/-- The request without its presentation fields, in canonical form. -/
def grantReferenceBinding (request : OpenApeGrantRequest) :
    OpenApeGrantRequest :=
  { request with
    reference := none
    batch := none
    summary := none
    reason := none
    submittedBy := none
    authorizationDetails :=
      request.authorizationDetails.map (fun details =>
        details.map canonicalDetail)
    executionContext := request.executionContext.map (fun context =>
      { context with
        contextBindings := context.contextBindings.map canonicalRecord }) }

def assertSameReferencedGrant (existing incoming : OpenApeGrant) :
    Except JsError Unit :=
  if existing.request.reference ≠ incoming.request.reference ||
      referenceKeyOf existing ≠ referenceKeyOf incoming ||
      grantReferenceBinding existing.request ≠
        grantReferenceBinding incoming.request
  then .error grantReferenceConflict
  else .ok ()

end OpenApe.Ports.GrantReference
