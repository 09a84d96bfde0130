import OpenApe.Ports.StandingApproval
import OpenApe.Verified.JsonReading

/-!
# What a reused approval covers (`utils/grant-reuse.ts`)

`reusable` compares the CLI details where there are any, and whole lists, as
joined texts, only where there are none.  So a reused grant covers a request
up to two things: other details beside CLI details, which nothing compares,
and permission lists that print alike (`findReusableGrant_covers_iff`).

An entry that is no CLI detail is compared by its JSON text; two entries are
equal when their texts are, which determines them as JSON values.
-/

namespace OpenApe.Ports.ReuseCoverage

open Verified.JsText Verified.Json
open GrantTypes CliPermissions GrantReuse CreateEndpoint StandingApproval

/-! ## Texts of details -/

/-- What `JSON.stringify` promises of the texts of details: each is the text
of some JSON value. -/
def IsJsonText (detailSignature : AuthorizationDetail → JsString) : Prop :=
  ∀ detail, ∃ value, detailSignature detail = stringify value

theorem exists_values {texts : List JsString}
    (h : ∀ text ∈ texts, ∃ value, text = stringify value) :
    ∃ values : List JsonValue, texts = values.map stringify := by
  induction texts with
  | nil => exact ⟨[], rfl⟩
  | cons text texts ih =>
      rw [List.forall_mem_cons] at h
      obtain ⟨⟨value, rfl⟩, hRest⟩ := h
      obtain ⟨values, rfl⟩ := ih hRest
      exact ⟨value :: values, rfl⟩

/-- Sorted lists that join to one text, joined from texts of JSON values, have
the same texts. -/
theorem perm_of_sortedText {texts texts' : List JsString}
    (hTexts : ∀ text ∈ texts, ∃ value, text = stringify value)
    (hTexts' : ∀ text ∈ texts', ∃ value, text = stringify value)
    (h : sortedText texts = sortedText texts') : texts.Perm texts' := by
  have hPerm := List.perm_insertionSort (fun a b : JsString => a ≤ b) texts
  have hPerm' := List.perm_insertionSort (fun a b : JsString => a ≤ b) texts'
  obtain ⟨values, hSorted⟩ := exists_values fun text hText =>
    hTexts text (hPerm.mem_iff.mp hText)
  obtain ⟨values', hSorted'⟩ := exists_values fun text hText =>
    hTexts' text (hPerm'.mem_iff.mp hText)
  rw [sortedText, sortedText, hSorted, hSorted'] at h
  rw [hSorted, intercalate_stringify_injective h, ← hSorted'] at hPerm
  exact hPerm.symm.trans hPerm'

/-! ## Lists of details -/

theorem mem_coverableCliDetails {request : OpenApeGrantRequest}
    {detail : CliAuthorizationDetail} :
    detail ∈ coverableCliDetails request.authorizationDetails ↔
      .openapeCli detail ∈ entriesOf request :=
  mem_cliDetails_iff

/-- A request without CLI details, and a grant without them. -/
def NoCliDetails (granted request : OpenApeGrantRequest) : Prop :=
  coverableCliDetails request.authorizationDetails = [] ∧
    coverableCliDetails granted.authorizationDetails = []

/-- A request without CLI details has entries of other types only. -/
theorem cli?_of_noCliDetails {granted request : OpenApeGrantRequest}
    (h : NoCliDetails granted request) {entry : AuthorizationDetail}
    (hEntry : entry ∈ entriesOf request) : entry.cli? = none := by
  cases entry with
  | openapeCli detail =>
      have hMem := mem_coverableCliDetails.mpr hEntry
      rw [h.1] at hMem
      cases hMem
  | openapeGrant detail => rfl
  | other json => rfl

/-- A check that answers no where a condition holds. -/
theorem of_guard {condition : Prop} [Decidable condition] {rest : Bool}
    (h : (if condition then false else rest) = true) :
    ¬condition ∧ rest = true := by
  by_cases hCondition : condition
  · rw [if_pos hCondition] at h
    cases h
  · rw [if_neg hCondition] at h
    exact ⟨hCondition, h⟩

/-- What the comparison of requests without CLI details has checked. -/
theorem sameExactCommand_spec {detailSignature : AuthorizationDetail → JsString}
    {granted request : OpenApeGrantRequest}
    (h : sameExactCommand detailSignature granted request = true) :
    (truthy request.cmdHash = true ∨ truthy granted.cmdHash = true →
      granted.cmdHash = request.cmdHash) ∧
    sortedText (request.permissions.getD []) =
      sortedText (granted.permissions.getD []) ∧
    sortedText ((entriesOf request).map detailSignature) =
      sortedText ((entriesOf granted).map detailSignature) := by
  obtain ⟨hHash, h⟩ := of_guard h
  obtain ⟨hPermissions, h⟩ := of_guard h
  obtain ⟨hDetails, -⟩ := of_guard h
  simp only [Bool.and_eq_true, Bool.or_eq_true, decide_eq_true_eq, ne_eq,
    not_and, Decidable.not_not] at hHash hPermissions hDetails
  refine ⟨hHash, ?_, ?_⟩
  · cases hRequest : request.permissions with
    | some permissions =>
        rw [hRequest] at hPermissions
        exact hPermissions (.inl rfl)
    | none =>
        cases hGranted : granted.permissions with
        | some permissions =>
            rw [hRequest, hGranted] at hPermissions
            exact hPermissions (.inr rfl)
        | none => rfl
  · rw [entriesOf, entriesOf]
    cases hRequest : request.authorizationDetails with
    | some details =>
        rw [hRequest] at hDetails
        exact hDetails (.inl rfl)
    | none =>
        cases hGranted : granted.authorizationDetails with
        | some details =>
            rw [hRequest, hGranted] at hDetails
            exact hDetails (.inr rfl)
        | none => rfl

/-! ## What is covered -/

section Coverage

variable [Collation] (detailSignature : AuthorizationDetail → JsString)

/-- One of a grant's details covers a CLI detail, or is the other detail. -/
def EntryHeld (granted : OpenApeGrantRequest) : AuthorizationDetail → Prop
  | .openapeCli detail =>
      ∃ held ∈ coverableCliDetails granted.authorizationDetails,
        cliAuthorizationDetailCovers held detail = true
  | other => ∃ held ∈ entriesOf granted,
      detailSignature held = detailSignature other

/-- A grant covers all that a request asks for. -/
structure CoversRequest (grant : OpenApeGrant) (request : OpenApeGrantRequest)
    (brokered : Option BrokeredGrant) : Prop where
  details : ∀ entry ∈ entriesOf request,
    EntryHeld detailSignature grant.request entry
  command : NoCliDetails grant.request request →
    grant.request.cmdHash = request.cmdHash ∧
    (request.permissions.getD []).Perm (grant.request.permissions.getD []) ∧
    ((entriesOf request).map detailSignature).Perm
      ((entriesOf grant.request).map detailSignature)
  broker : sameBrokeredGrant grant.brokered brokered = true
  targetHost : grant.request.targetHost = request.targetHost
  audience : grant.request.audience = request.audience
  runAs : grant.request.runAs = request.runAs
  delegator : grant.request.delegator = request.delegator
  delegate : grant.request.delegate = request.delegate

/-- The pairs of a request and a grant for which the comparisons tell all:
beside CLI details no other detail that the grant has not, and without CLI
details no two permission lists that print alike and no empty hash for an
absent one. -/
structure Comparable (granted request : OpenApeGrantRequest) : Prop where
  others : ¬ NoCliDetails granted request →
    ∀ entry ∈ entriesOf request, entry.cli? = none →
      ∃ held ∈ entriesOf granted,
        detailSignature held = detailSignature entry
  permissions : NoCliDetails granted request →
    sortedText (request.permissions.getD []) =
        sortedText (granted.permissions.getD []) →
      (request.permissions.getD []).Perm (granted.permissions.getD [])
  hash : NoCliDetails granted request →
    truthy request.cmdHash = false → truthy granted.cmdHash = false →
      granted.cmdHash = request.cmdHash

end Coverage

/-! ## Reused grants -/

section Reuse

variable [Collation] {detailSignature : AuthorizationDetail → JsString}
  {grant : OpenApeGrant} {request : OpenApeGrantRequest}
  {brokered : Option BrokeredGrant} {now : Int}

/-- What `reusable` has checked. -/
structure Reusable (detailSignature : AuthorizationDetail → JsString)
    (grant : OpenApeGrant) (request : OpenApeGrantRequest)
    (brokered : Option BrokeredGrant) : Prop where
  broker : sameBrokeredGrant grant.brokered brokered = true
  targetHost : grant.request.targetHost = request.targetHost
  audience : grant.request.audience = request.audience
  runAs : grant.request.runAs = request.runAs
  delegator : grant.request.delegator = request.delegator
  delegate : grant.request.delegate = request.delegate
  covered : ¬ NoCliDetails grant.request request →
    cliAuthorizationDetailsCover
      (coverableCliDetails grant.request.authorizationDetails)
      (coverableCliDetails request.authorizationDetails) = true
  command : NoCliDetails grant.request request →
    sameExactCommand detailSignature grant.request request = true

theorem reusable_spec
    (h : reusable detailSignature grant request brokered now = true) :
    Reusable detailSignature grant request brokered := by
  obtain ⟨-, h⟩ := of_guard h
  obtain ⟨-, h⟩ := of_guard h
  obtain ⟨-, h⟩ := of_guard h
  obtain ⟨-, h⟩ := of_guard h
  obtain ⟨hBroker, h⟩ := of_guard h
  obtain ⟨hHost, h⟩ := of_guard h
  obtain ⟨hAudience, h⟩ := of_guard h
  obtain ⟨hRunAs, h⟩ := of_guard h
  obtain ⟨hDelegator, h⟩ := of_guard h
  obtain ⟨hDelegate, h⟩ := of_guard h
  have hCases : ¬ NoCliDetails grant.request request ↔
      (!(coverableCliDetails request.authorizationDetails).isEmpty ||
        !(coverableCliDetails grant.request.authorizationDetails).isEmpty) =
          true := by
    rw [NoCliDetails, not_and_or, Bool.or_eq_true, Bool.not_eq_true',
      Bool.not_eq_true', List.isEmpty_eq_false_iff, List.isEmpty_eq_false_iff]
  refine {
    broker := by simpa using hBroker
    targetHost := Decidable.not_not.mp hHost
    audience := Decidable.not_not.mp hAudience
    runAs := Decidable.not_not.mp hRunAs
    delegator := (Decidable.not_not.mp hDelegator).symm
    delegate := (Decidable.not_not.mp hDelegate).symm
    covered := fun hSome => ?_
    command := fun hNone => ?_ }
  · rw [if_pos (hCases.mp hSome)] at h
    obtain ⟨-, h⟩ := of_guard h
    obtain ⟨-, h⟩ := of_guard h
    obtain ⟨hCovers, -⟩ := of_guard h
    simpa using hCovers
  · rw [if_neg (mt hCases.mpr (not_not.mpr hNone))] at h
    exact h

theorem entryHeld_of_other {granted : OpenApeGrantRequest}
    {entry : AuthorizationDetail} (h : entry.cli? = none) :
    EntryHeld detailSignature granted entry ↔
      ∃ held ∈ entriesOf granted,
        detailSignature held = detailSignature entry := by
  cases entry with
  | openapeCli detail => cases h
  | openapeGrant detail => exact Iff.rfl
  | other json => exact Iff.rfl

theorem Reusable.coversRequest_iff
    (h : Reusable detailSignature grant request brokered)
    (hSignature : IsJsonText detailSignature) :
    CoversRequest detailSignature grant request brokered ↔
      Comparable detailSignature grant.request request := by
  constructor
  · intro hCovers
    refine ⟨?_, ?_, ?_⟩
    · intro _ entry hEntry hOther
      exact (entryHeld_of_other hOther).mp (hCovers.details entry hEntry)
    · intro hNone _
      exact (hCovers.command hNone).2.1
    · intro hNone _ _
      exact (hCovers.command hNone).1
  · intro hComparable
    have hCommand : NoCliDetails grant.request request →
        grant.request.cmdHash = request.cmdHash ∧
        (request.permissions.getD []).Perm
          (grant.request.permissions.getD []) ∧
        ((entriesOf request).map detailSignature).Perm
          ((entriesOf grant.request).map detailSignature) := by
      intro hNone
      obtain ⟨hHash, hPermissions, hDetails⟩ :=
        sameExactCommand_spec (h.command hNone)
      have hTexts : ∀ entries : List AuthorizationDetail,
          ∀ text ∈ entries.map detailSignature,
            ∃ value, text = stringify value := by
        intro entries text hText
        obtain ⟨entry, -, rfl⟩ := List.mem_map.mp hText
        exact hSignature entry
      refine ⟨?_, hComparable.permissions hNone hPermissions,
        perm_of_sortedText (hTexts _) (hTexts _) hDetails⟩
      by_cases hTruthy : truthy request.cmdHash = true ∨
          truthy grant.request.cmdHash = true
      · exact hHash hTruthy
      · rw [not_or, Bool.not_eq_true, Bool.not_eq_true] at hTruthy
        exact hComparable.hash hNone hTruthy.1 hTruthy.2
    refine {
      details := ?_
      command := hCommand
      broker := h.broker
      targetHost := h.targetHost
      audience := h.audience
      runAs := h.runAs
      delegator := h.delegator
      delegate := h.delegate }
    intro entry hEntry
    by_cases hNone : NoCliDetails grant.request request
    · -- the lists are equal as wholes
      rw [entryHeld_of_other (cli?_of_noCliDetails hNone hEntry)]
      have hMem := (hCommand hNone).2.2.mem_iff.mp
        (List.mem_map.mpr ⟨entry, hEntry, rfl⟩)
      exact List.mem_map.mp hMem
    · cases hCli : entry.cli? with
      | none =>
          rw [entryHeld_of_other hCli]
          exact hComparable.others hNone entry hEntry hCli
      | some detail =>
          have hShape : entry = .openapeCli detail := by
            cases entry <;> simp_all [AuthorizationDetail.cli?]
          subst hShape
          have hAll := List.all_eq_true.mp (h.covered hNone) detail
            (mem_coverableCliDetails.mpr hEntry)
          exact List.any_eq_true.mp hAll

/-- A reused grant covers the whole request exactly where the comparisons tell
all. -/
theorem findReusableGrant_covers_iff (hSignature : IsJsonText detailSignature)
    {existing : List OpenApeGrant}
    (h : findReusableGrant detailSignature existing request brokered now =
      some grant) :
    CoversRequest detailSignature grant request brokered ↔
      Comparable detailSignature grant.request request := by
  have hFound : reusable detailSignature grant request brokered now = true :=
    by
      rw [findReusableGrant] at h
      exact List.find?_eq_some_iff_append.mp h |>.1
  exact (reusable_spec hFound).coversRequest_iff hSignature

end Reuse

/-! ## A request with another detail -/

/-- The text of an entry that has an action and nothing else. -/
def actionText : AuthorizationDetail → JsString
  | .openapeGrant detail => stringify (.object
      [(js "type", .string (js "openape_grant")),
        (js "action", .string detail.action)])
  | .openapeCli detail => stringify (.string detail.permission)
  | .other json => stringify (.string json)

theorem isJsonText_actionText : IsJsonText actionText := by
  intro detail
  cases detail with
  | openapeCli detail => exact ⟨_, rfl⟩
  | openapeGrant detail => exact ⟨_, rfl⟩
  | other json => exact ⟨_, rfl⟩

def listRepositories : CliAuthorizationDetail where
  cliId := js "gh"
  operationId := js "repo.list"
  resourceChain := [{ resource := js "repo" }]
  action := js "list"
  permission := js "gh.repo[*]#list"
  display := js "List"
  risk := .low

def requestOf (details : List AuthorizationDetail) (permissions : List JsString)
    : OpenApeGrantRequest where
  requester := js "agent@example.com"
  targetHost := js "host"
  audience := js "shapes"
  grantType := some .always
  permissions := some permissions
  authorizationDetails := some details

/-- A lasting approval for listing repositories. -/
def listGrant : OpenApeGrant where
  id := js "grant"
  type := some .command
  status := .approved
  createdAt := 1000
  request := requestOf [.openapeCli listRepositories] [js "gh.repo[*]#list"]

/-- A request to list repositories and to transfer funds. -/
def transferRequest : OpenApeGrantRequest :=
  requestOf [.openapeCli listRepositories,
      .openapeGrant { action := js "transfer-funds" }]
    [js "gh.repo[*]#list", js "transfer-funds"]

def plainServices : CreateServices Unit where
  computeCmdHash := id
  computeArgvHash := List.flatten
  actionOf := id
  summaryOrBatchRefused _ := none
  referenced _ := pure ()
  undecided _ := pure ()

/-- The approval for listing repositories answers the transfer too. -/
theorem reusedGrant_leaves_transfer :
    letI := codeUnitCollation
    prepareRequest plainServices transferRequest = .ok transferRequest ∧
    findReusableGrant actionText [listGrant] transferRequest none 2000 =
      some listGrant ∧
    ¬ CoversRequest actionText listGrant transferRequest none := by
  let _ := codeUnitCollation
  refine ⟨by decide, by decide, fun hCovers => ?_⟩
  obtain ⟨held, hHeld, hText⟩ := hCovers.details
    (.openapeGrant { action := js "transfer-funds" }) (by decide)
  have hOnly : ∀ held ∈ entriesOf listGrant.request, actionText held ≠
      actionText (.openapeGrant { action := js "transfer-funds" }) := by
    decide
  exact hOnly held hHeld hText

theorem findReusableGrant_covers_list :
    letI := codeUnitCollation
    CoversRequest actionText listGrant
      (requestOf [.openapeCli listRepositories] [js "gh.repo[*]#list"])
      none := by
  let _ := codeUnitCollation
  have hFound : findReusableGrant actionText [listGrant]
      (requestOf [.openapeCli listRepositories] [js "gh.repo[*]#list"]) none
      2000 = some listGrant := by
    decide
  have hSome : ¬ NoCliDetails listGrant.request
      (requestOf [.openapeCli listRepositories] [js "gh.repo[*]#list"]) := by
    rintro ⟨hNone, -⟩
    cases hNone
  refine (findReusableGrant_covers_iff isJsonText_actionText hFound).mpr {
    others := fun _ entry hEntry hOther => ?_
    permissions := fun hNone => absurd hNone hSome
    hash := fun hNone => absurd hNone hSome }
  obtain rfl := List.mem_singleton.mp hEntry
  cases hOther

end OpenApe.Ports.ReuseCoverage
