import Mathlib.Data.List.Sort
import OpenApe.Verified.SqlLogic
import OpenApe.Ports.Grants

/-!
# Access to a repository

The issue tracker asks in SQL, over the stored rows, whether a subject may
read or write a repository; the git transport asks in TypeScript, over the
grants a store reads back.  A `StoredGrant` is a grant with the JSON text its
row keeps.  The main result is that both give one answer, at every second.
-/

namespace OpenApe.Ports.RepositoryAccess

open Verified.JsText Verified.Json Verified.SqlLogic Verified.SqlLogic.Truth
open GrantTypes Grants

/-! ## Levels of access -/

inductive GitAccess where
  | read
  | write
  | admin
  deriving DecidableEq, Repr

/-- `ACCESS_RANK` -/
def accessRank : GitAccess → Nat
  | .read => 1
  | .write => 2
  | .admin => 3

def accessAllows (access required : GitAccess) : Bool :=
  accessRank required ≤ accessRank access

/-- The scope that carries a level. -/
def levelScope : GitAccess → JsString
  | .read => js "git:read"
  | .write => js "git:write"
  | .admin => js "git:admin"

/-- The level a scope carries. -/
def gitScope? (scope : JsString) : Option GitAccess :=
  if scope = js "git:read" then some .read
  else if scope = js "git:write" then some .write
  else if scope = js "git:admin" then some .admin
  else none

def repoScope (owner name : JsString) : JsString :=
  js "repo:" ++ owner ++ js "/" ++ name

/-- `if (!best || ACCESS_RANK[access] > ACCESS_RANK[best]) best = access` -/
def better (best : Option GitAccess) (access : GitAccess) :
    Option GitAccess :=
  match best with
  | none => some access
  | some held =>
      if accessRank held < accessRank access then some access else some held

/-- One pass over a list, keeping the best access an item gives. -/
def bestAccess {α : Type} (given : α → Option GitAccess) (items : List α) :
    Option GitAccess :=
  items.foldl (fun best item =>
    match given item with
    | none => best
    | some access => better best access) none

def accessFromScopes (scopes : Option (List JsString))
    (owner name : JsString) : Option GitAccess :=
  match scopes with
  | none => none
  | some scopes =>
      if repoScope owner name ∈ scopes then bestAccess gitScope? scopes
      else none

/-- What one grant gives on the repository. -/
def accessOfGrant (email owner name audience : JsString) (nowSec : Int)
    (grant : OpenApeGrant) : Option GitAccess :=
  if grant.status ≠ .approved || isGrantExpired grant nowSec then none
  else if grant.request.delegate ≠ some email ||
      grant.request.audience ≠ audience then none
  else accessFromScopes grant.request.scopes owner name

def accessFromGrants (delegateGrants : List OpenApeGrant)
    (email owner name audience : JsString) (nowSec : Int) :
    Option GitAccess :=
  bestAccess (accessOfGrant email owner name audience nowSec) delegateGrants

/-! ## Rows -/

structure GrantRow where
  id : JsString
  status : JsString
  type : Option JsString
  requester : JsString
  targetHost : JsString
  audience : JsString
  grantType : JsString
  request : JsonValue
  createdAt : Int
  decidedAt : Option Int
  decidedBy : Option JsString
  expiresAt : Option Int
  usedAt : Option Int

/-- What the predicate reads of a repository. -/
structure RepoRow where
  ownerEmail : JsString
  owner : JsString
  name : JsString

def grantTypeText : GrantType → JsString
  | .once => js "once"
  | .timed => js "timed"
  | .always => js "always"

def categoryText : GrantCategory → JsString
  | .command => js "command"
  | .delegation => js "delegation"
  | .standing => js "standing"

/-- `request` is the grant's request as the JSON column keeps it. -/
def grantToRow (grant : OpenApeGrant) (request : JsonValue) : GrantRow where
  id := grant.id
  status := grant.status.text
  type := grant.type.map categoryText
  requester := grant.request.requester
  targetHost := grant.request.targetHost
  audience := grant.request.audience
  grantType := grantTypeText (grant.request.grantType.getD .once)
  request := request
  createdAt := grant.createdAt
  decidedAt := grant.decidedAt
  decidedBy := grant.decidedBy
  expiresAt := grant.expiresAt
  usedAt := grant.usedAt

/-- A document that is a request's JSON in the members read here; a member
that is `undefined` is not written. -/
structure RequestJson (request : OpenApeGrantRequest) (json : JsonValue) :
    Prop where
  delegate : json.field? (js "delegate") = request.delegate.map .string
  audience : json.field? (js "audience") = some (.string request.audience)
  grantType : json.field? (js "grant_type") =
    request.grantType.map (fun type => .string (grantTypeText type))
  scopes : json.field? (js "scopes") =
    request.scopes.map (fun scopes => .array (scopes.map .string))

/-- A grant, and the document its row keeps of the request. -/
structure StoredGrant where
  grant : OpenApeGrant
  json : JsonValue
  members : RequestJson grant.request json

def StoredGrant.row (stored : StoredGrant) : GrantRow :=
  grantToRow stored.grant stored.json

/-- The grant as it is read back: a row has no other columns. -/
def rowToGrant (stored : StoredGrant) : OpenApeGrant where
  id := stored.row.id
  type := stored.grant.type
  request := stored.grant.request
  status := stored.grant.status
  createdAt := stored.row.createdAt
  decidedAt := stored.row.decidedAt
  decidedBy := stored.row.decidedBy
  expiresAt := stored.row.expiresAt
  usedAt := stored.row.usedAt

/-- `json_extract(request, '$.delegate') = delegate` on delegations. -/
def delegatedTo (delegate : JsString) (row : GrantRow) : Truth :=
  both (equal row.type (some (js "delegation")))
    (equal (jsonExtract row.request (js "delegate"))
      (some (.text delegate)))

def findByDelegate (grants : List StoredGrant) (delegate : JsString) :
    List OpenApeGrant :=
  ((grants.filter (fun stored =>
      (delegatedTo delegate stored.row).holds)).insertionSort
    (fun a b => b.row.createdAt ≤ a.row.createdAt)).map rowToGrant

/-! ## The predicate -/

def levels : GitAccess → List JsString
  | .admin => [js "git:admin"]
  | .write => [js "git:admin", js "git:write"]
  | .read => [js "git:admin", js "git:write", js "git:read"]

/-- The grant has run out: timed, with an end that is not zero and past. -/
def rowExpired (row : GrantRow) (now : Int) : Truth :=
  both (both
    (equal (some ((jsonExtract row.request (js "grant_type")).getD
      (.text []))) (some (.text (js "timed"))))
    (some (row.expiresAt.getD 0 != 0)))
    (compares (fun expiresAt now => decide (expiresAt ≤ now)) row.expiresAt
      (some now))

/-- `EXISTS (SELECT 1 FROM json_each(request, '$.scopes') WHERE …)` -/
def scopeExists (row : GrantRow) (condition : Option Scalar → Truth) : Truth :=
  existsRow (jsonEach (row.request.field? (js "scopes"))) condition

/-- What the predicate asks of one grant. -/
def grantGives (repo : RepoRow) (subject audience : JsString)
    (required : GitAccess) (now : Int) (row : GrantRow) : Truth :=
  both (equal row.type (some (js "delegation")))
    (both (equal (some row.status) (some (js "approved")))
    (both (equal (jsonExtract row.request (js "delegate"))
      (some (.text subject)))
    (both (equal (jsonExtract row.request (js "audience"))
      (some (.text audience)))
    (both (negate (rowExpired row now))
    (both (scopeExists row (fun value =>
      equal value (some (.text (repoScope repo.owner repo.name)))))
    (scopeExists row (fun value =>
      isIn value ((levels required).map .text))))))))

def repositoryAccessPredicate (grants : List GrantRow) (repo : RepoRow)
    (subject audience : JsString) (required : GitAccess) (now : Int) :
    Truth :=
  either (equal (some repo.ownerEmail) (some subject))
    (existsRow grants (grantGives repo subject audience required now))

/-! ## The best access -/

/-- The access is there and allows the level. -/
def reaches (access : Option GitAccess) (level : GitAccess) : Bool :=
  access.any (fun access => accessAllows access level)

theorem reaches_iff (access : Option GitAccess) (level : GitAccess) :
    reaches access level = true ↔
      ∃ a, access = some a ∧ accessAllows a level = true := by
  cases access <;> simp [reaches]

theorem reaches_better (best : Option GitAccess) (access level : GitAccess) :
    reaches (better best access) level =
      (reaches best level || accessAllows access level) := by
  cases best with
  | none => simp [better, reaches]
  | some held =>
      cases held <;> cases access <;> cases level <;> rfl

/-- Keeping the best access keeps every level that some item reaches. -/
theorem reaches_bestAccess {α : Type} (given : α → Option GitAccess)
    (items : List α) (level : GitAccess) :
    reaches (bestAccess given items) level = true ↔
      ∃ item ∈ items, reaches (given item) level = true := by
  have hFold : ∀ best : Option GitAccess,
      reaches (items.foldl (fun best item =>
        match given item with
        | none => best
        | some access => better best access) best) level =
      (reaches best level ||
        items.any (fun item => reaches (given item) level)) := by
    induction items with
    | nil => simp
    | cons item items ih =>
        intro best
        rw [List.foldl_cons, ih, List.any_cons, ← Bool.or_assoc]
        cases hGiven : given item with
        | none => simp [reaches]
        | some access => rw [reaches_better]; rfl
  rw [bestAccess, hFold]
  simp [reaches]

/-- An access is determined by the levels it reaches. -/
theorem eq_of_reaches {a b : Option GitAccess}
    (h : ∀ level, reaches a level = true ↔ reaches b level = true) :
    a = b := by
  have hRead := h .read
  have hWrite := h .write
  have hAdmin := h .admin
  revert hRead hWrite hAdmin
  rcases a with _ | _ | _ | _ <;> rcases b with _ | _ | _ | _ <;> decide

theorem gitScope?_eq_some_iff (scope : JsString) (access : GitAccess) :
    gitScope? scope = some access ↔ scope = levelScope access := by
  have hWrite : js "git:write" ≠ js "git:read" := by decide
  have hAdminRead : js "git:admin" ≠ js "git:read" := by decide
  have hAdminWrite : js "git:admin" ≠ js "git:write" := by decide
  unfold gitScope?
  split_ifs with hScope hScope' hScope'' <;> cases access <;>
    simp_all [levelScope, hWrite.symm, hAdminRead.symm, hAdminWrite.symm]

theorem mem_levels_iff (scope : JsString) (required : GitAccess) :
    scope ∈ levels required ↔
      reaches (gitScope? scope) required = true := by
  rw [reaches_iff]
  simp only [gitScope?_eq_some_iff]
  constructor
  · intro hScope
    cases required <;> simp only [levels, List.mem_cons, List.not_mem_nil,
      or_false] at hScope
    · rcases hScope with rfl | rfl | rfl
      · exact ⟨.admin, rfl, rfl⟩
      · exact ⟨.write, rfl, rfl⟩
      · exact ⟨.read, rfl, rfl⟩
    · rcases hScope with rfl | rfl
      · exact ⟨.admin, rfl, rfl⟩
      · exact ⟨.write, rfl, rfl⟩
    · subst hScope
      exact ⟨.admin, rfl, rfl⟩
  · rintro ⟨access, rfl, hAllows⟩
    cases required <;> cases access <;>
      simp_all [levels, levelScope, accessAllows, accessRank]

/-- The two conditions on a scope list, as the transport reads it. -/
theorem reaches_accessFromScopes (scopes : Option (List JsString))
    (owner name : JsString) (level : GitAccess) :
    reaches (accessFromScopes scopes owner name) level = true ↔
      ∃ list, scopes = some list ∧ repoScope owner name ∈ list ∧
        ∃ scope ∈ list, scope ∈ levels level := by
  simp only [mem_levels_iff]
  cases scopes with
  | none => simp [accessFromScopes, reaches]
  | some list =>
      by_cases hRepo : repoScope owner name ∈ list
      · simp [accessFromScopes, hRepo, reaches_bestAccess]
      · simp [accessFromScopes, hRepo, reaches]

/-- What one grant must be for the transport to count it. -/
theorem reaches_accessOfGrant (email owner name audience : JsString)
    (nowSec : Int) (grant : OpenApeGrant) (level : GitAccess) :
    reaches (accessOfGrant email owner name audience nowSec grant) level =
        true ↔
      grant.status = .approved ∧ isGrantExpired grant nowSec = false ∧
      grant.request.delegate = some email ∧
      grant.request.audience = audience ∧
      reaches (accessFromScopes grant.request.scopes owner name) level =
        true := by
  unfold accessOfGrant
  split_ifs with hForce hFor
  · simp only [Bool.or_eq_true, decide_eq_true_eq] at hForce
    rcases hForce with hStatus | hExpired
    · simp [reaches, hStatus]
    · simp [reaches, hExpired]
  · simp only [Bool.or_eq_true, decide_eq_true_eq] at hFor
    rcases hFor with hDelegate | hAudience
    · simp [reaches, hDelegate]
    · simp [reaches, hAudience]
  · simp only [Bool.or_eq_true, decide_eq_true_eq, not_or, not_not,
      Bool.not_eq_true] at hForce hFor
    simp [hForce, hFor]

/-! ## One stored grant -/

theorem jsonExtract_delegate (stored : StoredGrant) :
    jsonExtract stored.row.request (js "delegate") =
      stored.grant.request.delegate.map .text := by
  show (stored.json.field? (js "delegate")).bind scalar? = _
  rw [stored.members.delegate]
  cases stored.grant.request.delegate <;> rfl

theorem jsonExtract_audience (stored : StoredGrant) :
    jsonExtract stored.row.request (js "audience") =
      some (.text stored.grant.request.audience) := by
  show (stored.json.field? (js "audience")).bind scalar? = _
  rw [stored.members.audience]
  rfl

theorem jsonExtract_grantType (stored : StoredGrant) :
    jsonExtract stored.row.request (js "grant_type") =
      stored.grant.request.grantType.map (fun type =>
        .text (grantTypeText type)) := by
  show (stored.json.field? (js "grant_type")).bind scalar? = _
  rw [stored.members.grantType]
  cases stored.grant.request.grantType <;> rfl

theorem jsonEach_scopes (stored : StoredGrant) :
    jsonEach (stored.row.request.field? (js "scopes")) =
      (stored.grant.request.scopes.getD []).map (fun scope =>
        some (.text scope)) := by
  show jsonEach (stored.json.field? (js "scopes")) = _
  rw [stored.members.scopes]
  cases stored.grant.request.scopes with
  | none => rfl
  | some scopes => exact jsonEach_strings scopes

theorem holds_rowExpired (stored : StoredGrant) (now : Int) :
    (rowExpired stored.row now).holds = true ↔
      stored.grant.request.grantType = some .timed ∧
      ∃ expiresAt, stored.grant.expiresAt = some expiresAt ∧
        expiresAt ≠ 0 ∧ expiresAt ≤ now := by
  have hType : ((stored.grant.request.grantType.map (fun type =>
      Scalar.text (grantTypeText type))).getD (.text [])) =
        .text (js "timed") ↔ stored.grant.request.grantType = some .timed := by
    cases stored.grant.request.grantType with
    | none => decide
    | some type => cases type <;> decide
  have hExpires : stored.row.expiresAt = stored.grant.expiresAt := rfl
  rw [rowExpired, jsonExtract_grantType, hExpires]
  simp only [holds_both, Bool.and_eq_true, holds_equal_some,
    Option.some.injEq, decide_eq_true_eq, hType, holds_some, bne_iff_ne,
    holds_compares, Option.mem_def, and_assoc]
  refine and_congr_right (fun _ => ?_)
  cases stored.grant.expiresAt with
  | none => simp
  | some expiresAt => simp

/-- NOT sees a known truth value: an unknown condition would leave the grant
in force in neither way. -/
theorem holds_not_rowExpired (stored : StoredGrant) (now : Int) :
    (negate (rowExpired stored.row now)).holds =
      !(rowExpired stored.row now).holds := by
  rw [holds_negate]
  have hExpires : stored.row.expiresAt = stored.grant.expiresAt := rfl
  rw [rowExpired, hExpires]
  cases stored.grant.expiresAt with
  | none => simp
  | some expiresAt => simp [equal, compares]

/-- An approved grant's row has run out when `isGrantExpired` says so. -/
theorem holds_not_rowExpired_iff {stored : StoredGrant}
    (hApproved : stored.grant.status = .approved) (now : Int) :
    (negate (rowExpired stored.row now)).holds = true ↔
      isGrantExpired (rowToGrant stored) now = false := by
  have hExpired : (rowExpired stored.row now).holds = true ↔
      isGrantExpired (rowToGrant stored) now = true := by
    rw [holds_rowExpired]
    show _ ↔ (decide (stored.grant.status = .approved) &&
      decide (stored.grant.request.grantType = some .timed) &&
      stored.grant.expiresAt.any (fun expiresAt =>
        expiresAt ≠ 0 && expiresAt ≤ now)) = true
    cases stored.grant.expiresAt <;> simp [hApproved]
  rw [holds_not_rowExpired, Bool.not_eq_true', ← Bool.not_eq_true, hExpired,
    Bool.not_eq_true]

theorem holds_type_iff (stored : StoredGrant) :
    (equal stored.row.type (some (js "delegation"))).holds = true ↔
      stored.grant.type = some .delegation := by
  show (equal (stored.grant.type.map categoryText) _).holds = true ↔ _
  rw [holds_equal_some, decide_eq_true_eq]
  cases stored.grant.type with
  | none => decide
  | some category => cases category <;> decide

theorem holds_status_iff (stored : StoredGrant) :
    (equal (some stored.row.status) (some (js "approved"))).holds = true ↔
      stored.grant.status = .approved := by
  show (equal (some stored.grant.status.text) _).holds = true ↔ _
  rw [holds_equal_some, decide_eq_true_eq]
  cases stored.grant.status <;> decide

theorem holds_delegate_iff (stored : StoredGrant) (subject : JsString) :
    (equal (jsonExtract stored.row.request (js "delegate"))
        (some (.text subject))).holds = true ↔
      stored.grant.request.delegate = some subject := by
  rw [jsonExtract_delegate, holds_equal_some, decide_eq_true_eq]
  cases stored.grant.request.delegate <;> simp

theorem holds_scopeExists_iff (stored : StoredGrant)
    (condition : Option Scalar → Truth) :
    (scopeExists stored.row condition).holds = true ↔
      ∃ scope ∈ stored.grant.request.scopes.getD [],
        (condition (some (.text scope))).holds = true := by
  rw [scopeExists, jsonEach_scopes, holds_existsRow]
  simp

/-- The row passes the predicate's conditions when the grant read back is a
delegation to the subject that reaches the level. -/
theorem holds_grantGives (stored : StoredGrant) (repo : RepoRow)
    (subject audience : JsString) (required : GitAccess) (now : Int) :
    (grantGives repo subject audience required now stored.row).holds = true ↔
      (delegatedTo subject stored.row).holds = true ∧
        reaches (accessOfGrant subject repo.owner repo.name audience now
          (rowToGrant stored)) required = true := by
  have hAudience : (equal (jsonExtract stored.row.request (js "audience"))
      (some (.text audience))).holds = true ↔
        stored.grant.request.audience = audience := by
    rw [jsonExtract_audience, holds_equal_some]
    simp
  have hRepo : (scopeExists stored.row (fun value =>
      equal value (some (.text (repoScope repo.owner repo.name))))).holds =
        true ↔ repoScope repo.owner repo.name ∈
          stored.grant.request.scopes.getD [] := by
    rw [holds_scopeExists_iff]
    simp [holds_equal_some]
  have hLevel : (scopeExists stored.row (fun value =>
      isIn value ((levels required).map .text))).holds = true ↔
        ∃ scope ∈ stored.grant.request.scopes.getD [],
          scope ∈ levels required := by
    rw [holds_scopeExists_iff]
    simp
  have hScopes : reaches (accessFromScopes (rowToGrant stored).request.scopes
      repo.owner repo.name) required = true ↔
        repoScope repo.owner repo.name ∈
            stored.grant.request.scopes.getD [] ∧
          ∃ scope ∈ stored.grant.request.scopes.getD [],
            scope ∈ levels required := by
    rw [reaches_accessFromScopes]
    show (∃ list, stored.grant.request.scopes = some list ∧ _) ↔ _
    cases stored.grant.request.scopes <;> simp
  rw [reaches_accessOfGrant, hScopes, grantGives, delegatedTo]
  simp only [holds_both, Bool.and_eq_true, holds_type_iff, holds_status_iff,
    holds_delegate_iff, hAudience, hRepo, hLevel]
  show _ ↔ _ ∧ stored.grant.status = .approved ∧ _ ∧
    stored.grant.request.delegate = some subject ∧
    stored.grant.request.audience = audience ∧ _
  constructor
  · rintro ⟨hType, hApproved, hDelegate, hFor, hForce, hScope⟩
    exact ⟨⟨hType, hDelegate⟩, hApproved,
      (holds_not_rowExpired_iff hApproved now).mp hForce, hDelegate, hFor,
      hScope⟩
  · rintro ⟨⟨hType, hDelegate⟩, hApproved, hForce, -, hFor, hScope⟩
    exact ⟨hType, hApproved, hDelegate, hFor,
      (holds_not_rowExpired_iff hApproved now).mpr hForce, hScope⟩

/-! ## Both paths agree -/

theorem mem_findByDelegate (grants : List StoredGrant) (delegate : JsString)
    (grant : OpenApeGrant) :
    grant ∈ findByDelegate grants delegate ↔
      ∃ stored ∈ grants, (delegatedTo delegate stored.row).holds = true ∧
        rowToGrant stored = grant := by
  simp only [findByDelegate, List.mem_map, List.mem_insertionSort,
    List.mem_filter, and_assoc]

/-- The transport reaches a level when some stored grant does. -/
theorem reaches_accessFromGrants (grants : List StoredGrant) (repo : RepoRow)
    (subject audience : JsString) (now : Int) (level : GitAccess) :
    reaches (accessFromGrants (findByDelegate grants subject) subject
        repo.owner repo.name audience now) level = true ↔
      (existsRow (grants.map StoredGrant.row)
        (grantGives repo subject audience level now)).holds = true := by
  rw [accessFromGrants, reaches_bestAccess, holds_existsRow]
  constructor
  · rintro ⟨grant, hGrant, hReaches⟩
    obtain ⟨stored, hStored, hDelegated, rfl⟩ :=
      (mem_findByDelegate grants subject grant).mp hGrant
    exact ⟨stored.row, List.mem_map_of_mem hStored,
      (holds_grantGives stored repo subject audience level now).mpr
        ⟨hDelegated, hReaches⟩⟩
  · rintro ⟨row, hRow, hGives⟩
    obtain ⟨stored, hStored, rfl⟩ := List.mem_map.mp hRow
    obtain ⟨hDelegated, hReaches⟩ :=
      (holds_grantGives stored repo subject audience level now).mp hGives
    exact ⟨rowToGrant stored, (mem_findByDelegate grants subject _).mpr
      ⟨stored, hStored, hDelegated, rfl⟩, hReaches⟩

/-- A grant that is revoked or has run out gives nothing. -/
theorem holds_grantGives_of_ended {stored : StoredGrant} {now : Int}
    (hEnded : stored.grant.status ≠ .approved ∨
      isGrantExpired stored.grant now = true)
    (repo : RepoRow) (subject audience : JsString) (level : GitAccess) :
    (grantGives repo subject audience level now stored.row).holds =
      false := by
  rw [← Bool.not_eq_true, holds_grantGives, reaches_accessOfGrant]
  rintro ⟨-, hApproved, hForce, -⟩
  rcases hEnded with hStatus | hExpired
  · exact hStatus hApproved
  · have hSame : isGrantExpired (rowToGrant stored) now =
        isGrantExpired stored.grant now := rfl
    rw [hSame, hExpired] at hForce
    cases hForce

/-- The issue tracker's predicate and the git transport agree on every
repository, subject, audience, second and level; and a grant that is not
approved, or has run out by this second, counts on neither path. -/
theorem repositoryAccessPredicate_iff (grants : List StoredGrant)
    (repo : RepoRow) (subject audience : JsString) (now : Int)
    (level : GitAccess) :
    ((repositoryAccessPredicate (grants.map StoredGrant.row) repo subject
        audience level now).holds = true ↔
      repo.ownerEmail = subject ∨
        ∃ access, accessFromGrants (findByDelegate grants subject) subject
            repo.owner repo.name audience now = some access ∧
          accessAllows access level = true) ∧
    ∀ before stored after, grants = before ++ stored :: after →
      (stored.grant.status ≠ .approved ∨
        isGrantExpired stored.grant now = true) →
      repositoryAccessPredicate (grants.map StoredGrant.row) repo subject
          audience level now =
        repositoryAccessPredicate ((before ++ after).map StoredGrant.row)
          repo subject audience level now ∧
      accessFromGrants (findByDelegate grants subject) subject repo.owner
          repo.name audience now =
        accessFromGrants (findByDelegate (before ++ after) subject) subject
          repo.owner repo.name audience now := by
  constructor
  · rw [← reaches_iff, reaches_accessFromGrants, repositoryAccessPredicate,
      holds_either, Bool.or_eq_true, holds_equal_some, decide_eq_true_eq,
      Option.some.injEq]
  · rintro before stored after rfl hEnded
    have hNone := holds_grantGives_of_ended hEnded repo subject audience
    have hExists : ∀ other, existsRow
        ((before ++ stored :: after).map StoredGrant.row)
          (grantGives repo subject audience other now) =
        existsRow ((before ++ after).map StoredGrant.row)
          (grantGives repo subject audience other now) := by
      intro other
      rw [List.map_append, List.map_cons, List.map_append,
        existsRow_append_cons (hNone other)]
    constructor
    · rw [repositoryAccessPredicate, repositoryAccessPredicate,
        hExists level]
    · refine eq_of_reaches (fun other => ?_)
      rw [reaches_accessFromGrants, reaches_accessFromGrants, hExists other]

/-- Write access on one repository, up to the hundredth second. -/
def timedWrite : StoredGrant where
  grant :=
    { id := js "g"
      type := some .delegation
      request :=
        { requester := js "owner@example.com"
          targetHost := js "repos"
          audience := js "repos"
          grantType := some .timed
          delegate := some (js "agent@example.com")
          scopes := some [js "git:write", js "repo:owner/app"] }
      status := .approved
      createdAt := 0
      expiresAt := some 100 }
  json := .object
    [(js "audience", .string (js "repos")),
      (js "grant_type", .string (js "timed")),
      (js "delegate", .string (js "agent@example.com")),
      (js "scopes", .array
        [.string (js "git:write"), .string (js "repo:owner/app")])]
  members := ⟨rfl, rfl, rfl, rfl⟩

def appRepo : RepoRow :=
  ⟨js "owner@example.com", js "owner", js "app"⟩

/-- In force on both paths a second before its end, and on neither at it. -/
theorem repositoryAccessPredicate_timedWrite :
    (repositoryAccessPredicate [timedWrite.row] appRepo
      (js "agent@example.com") (js "repos") .read 99).holds = true ∧
    (repositoryAccessPredicate [timedWrite.row] appRepo
      (js "agent@example.com") (js "repos") .read 100).holds = false := by
  have hBefore := repositoryAccessPredicate_iff [timedWrite] appRepo
    (js "agent@example.com") (js "repos") 99 .read
  have hEnd := repositoryAccessPredicate_iff [timedWrite] appRepo
    (js "agent@example.com") (js "repos") 100 .read
  constructor
  · exact hBefore.1.mpr (Or.inr ⟨.write, by decide, rfl⟩)
  · have hGone := (hEnd.2 [] timedWrite [] rfl (Or.inr (by decide))).1
    exact (congrArg holds hGone).trans (by decide)

end OpenApe.Ports.RepositoryAccess
