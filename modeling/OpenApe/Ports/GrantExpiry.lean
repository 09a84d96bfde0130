import OpenApe.Ports.AuthzJwt
import OpenApe.Ports.Similarity
import OpenApe.Ports.StandingGrants

/-!
# When a timed approval ends

The status of a timed grant flips only when something introspects it, so
every reader of a listing repeats the rule of `isGrantExpired`.  A reader is
given here with everything else it looks at; it uses a grant when the grant
passes its filter.  The main result says at which seconds the five readers
agree with `isGrantExpired`.
-/

namespace OpenApe.Ports.GrantExpiry

open Verified.JsText
open GrantTypes Grants GrantReuse StandingGrants Similarity AuthzJwt

/-- A reader of approved grants, and what it compares them with. -/
inductive Reader where
  | evaluateStandingGrants (incoming : OpenApeGrantRequest)
  | findCoveringGrant (call : ProgramCallScope)
      (brokered : Option BrokeredGrant)
  | findReusableGrant (detailSignature : AuthorizationDetail → JsString)
      (request : OpenApeGrantRequest) (brokered : Option BrokeredGrant)
  | findSimilarCliGrants (incoming : OpenApeGrantRequest)
  | issueCommandJWT (sign : AuthZClaims → JsString) (call : CommandTokenCall)
      (issuer jti : JsString)

/-- The grant, if it never expired. -/
def unexpiring (grant : OpenApeGrant) : OpenApeGrant :=
  { grant with expiresAt := none }

/-- `isGrantExpired` of an approved timed grant is `outlived`. -/
theorem isGrantExpired_eq_outlived {grant : OpenApeGrant}
    (hApproved : grant.status = .approved)
    (hTimed : grant.request.grantType = some .timed) (now : Int) :
    isGrantExpired grant now = outlived grant.expiresAt now := by
  rw [Bool.eq_iff_iff]
  cases hExpires : grant.expiresAt <;>
    simp [isGrantExpired, outlived, hApproved, hTimed, hExpires]

theorem outlived_eq_false_iff (expiresAt : Option Int) (now : Int) :
    outlived expiresAt now = false ↔
      ∀ deadline, expiresAt = some deadline → deadline = 0 ∨ now < deadline := by
  cases expiresAt with
  | none => simp [outlived]
  | some deadline => simp [outlived, or_iff_not_imp_left]

theorem comparable_of_outlived {incoming : OpenApeGrantRequest}
    {grant : OpenApeGrant} {now : Int}
    (h : outlived grant.expiresAt now = true) :
    comparable incoming now grant = false := by
  unfold comparable
  simp only [h, if_true]
  split_ifs <;> rfl

theorem comparable_iff_of_unexpiring {incoming : OpenApeGrantRequest}
    {grant : OpenApeGrant} {now : Int}
    (h : comparable incoming now (unexpiring grant) = true) :
    comparable incoming now grant = true ↔
      outlived grant.expiresAt now = false := by
  cases hOut : outlived grant.expiresAt now with
  | true => simp [comparable_of_outlived hOut]
  | false =>
      have hNone : outlived (unexpiring grant).expiresAt now = false := rfl
      have hSame : comparable incoming now grant =
          comparable incoming now (unexpiring grant) := by
        unfold comparable
        simp only [hOut, hNone]
        rfl
      simp [hSame, h]

theorem applicable_of_ended {incoming : OpenApeGrantRequest}
    {grant : OpenApeGrant} {now : Int}
    (h : grant.expiresAt.any (fun expiresAt =>
      expiresAt != 0 && expiresAt < now) = true) :
    applicable incoming now grant = none := by
  unfold applicable
  simp only [h, if_true]
  split
  · rfl
  · cases standingGrantRequest? grant.request with
    | none => rfl
    | some req =>
        dsimp only
        split_ifs <;> rfl

/-- A standing grant still applies at the second at which it expires. -/
theorem applicable_iff_of_unexpiring {incoming : OpenApeGrantRequest}
    {grant : OpenApeGrant} {now : Int}
    (h : (applicable incoming now (unexpiring grant)).isSome = true) :
    (applicable incoming now grant).isSome = true ↔
      ∀ expiresAt, grant.expiresAt = some expiresAt →
        expiresAt = 0 ∨ now ≤ expiresAt := by
  have hIn : grant.expiresAt.any (fun expiresAt =>
      expiresAt != 0 && expiresAt < now) = false ↔
      ∀ expiresAt, grant.expiresAt = some expiresAt →
        expiresAt = 0 ∨ now ≤ expiresAt := by
    cases grant.expiresAt with
    | none => simp
    | some expiresAt =>
        simp only [Option.any_some, Option.some.injEq, forall_eq',
          Bool.and_eq_false_iff, bne_eq_false_iff_eq, decide_eq_false_iff_not,
          not_lt]
  rw [← hIn]
  cases hAny : grant.expiresAt.any (fun expiresAt =>
      expiresAt != 0 && expiresAt < now) with
  | true => simp [applicable_of_ended hAny]
  | false =>
      have hSame : applicable incoming now grant =
          applicable incoming now (unexpiring grant) := by
        have hNone : (unexpiring grant).expiresAt.any (fun expiresAt =>
            expiresAt != 0 && expiresAt < now) = false := rfl
        unfold applicable
        simp only [hAny, hNone]
        rfl
      simp [hSame, h]

section Readers

variable [Collation]

/-- The reader lets the grant through at this second. -/
def Reader.uses (reader : Reader) (grant : OpenApeGrant) (now : Int) : Bool :=
  match reader with
  | .evaluateStandingGrants incoming => (applicable incoming now grant).isSome
  | .findCoveringGrant call brokered => coversCall grant call brokered now
  | .findReusableGrant detailSignature request brokered =>
      reusable detailSignature grant request brokered now
  | .findSimilarCliGrants incoming => (similarMatch incoming now grant).isSome
  | .issueCommandJWT sign call issuer jti =>
      (AuthzJwt.issueCommandJWT sign grant call issuer now jti).isOk

/-- Whether the reader finds what it looks for in a listing. -/
def Reader.answers (reader : Reader) (grants : List OpenApeGrant)
    (now : Int) : Bool :=
  match reader with
  | .evaluateStandingGrants incoming =>
      (matchStandingGrants incoming grants now).isSome
  | .findCoveringGrant call brokered =>
      (GrantReuse.findCoveringGrant grants call brokered now).isSome
  | .findReusableGrant detailSignature request brokered =>
      (GrantReuse.findReusableGrant detailSignature grants request brokered
        now).isSome
  | .findSimilarCliGrants incoming =>
      (Similarity.findSimilarCliGrants incoming grants now).isSome
  | .issueCommandJWT sign call issuer jti =>
      grants.any (fun grant =>
        (AuthzJwt.issueCommandJWT sign grant call issuer now jti).isOk)

theorem coversCall_iff_of_unexpiring {grant : OpenApeGrant}
    {call : ProgramCallScope} {brokered : Option BrokeredGrant} {now : Int}
    (h : coversCall (unexpiring grant) call brokered now = true) :
    coversCall grant call brokered now = true ↔
      outlived grant.expiresAt now = false := by
  obtain ⟨hStatus, _, hCommand, hCovers, hBinds⟩ :=
    (coversCall_iff _ _ _ _).mp h
  rw [coversCall_iff]
  constructor
  · rintro ⟨_, hIn, _⟩
    exact hIn
  · intro hIn
    exact ⟨hStatus, hIn, hCommand, hCovers, hBinds⟩

theorem reusable_of_outlived {detailSignature : AuthorizationDetail → JsString}
    {grant : OpenApeGrant} {request : OpenApeGrantRequest}
    {brokered : Option BrokeredGrant} {now : Int}
    (h : outlived grant.expiresAt now = true) :
    reusable detailSignature grant request brokered now = false := by
  unfold reusable
  simp only [h, if_true]
  split_ifs <;> rfl

theorem reusable_eq_of_not_outlived
    {detailSignature : AuthorizationDetail → JsString}
    {grant : OpenApeGrant} {request : OpenApeGrantRequest}
    {brokered : Option BrokeredGrant} {now : Int}
    (h : outlived grant.expiresAt now = false) :
    reusable detailSignature grant request brokered now =
      reusable detailSignature (unexpiring grant) request brokered now := by
  have hNone : outlived (unexpiring grant).expiresAt now = false := rfl
  unfold reusable
  simp only [h, hNone]
  rfl

theorem similarMatch_isSome_iff (incoming : OpenApeGrantRequest) (now : Int)
    (grant : OpenApeGrant) :
    (similarMatch incoming now grant).isSome = true ↔
      comparable incoming now grant = true ∧
      similarIndices (cliDetails grant.request.authorizationDetails)
        (cliDetails incoming.authorizationDetails) ≠ [] := by
  simp only [similarMatch, List.isEmpty_iff]
  cases comparable incoming now grant with
  | true => simp
  | false => simp

/-! ## All readers -/

/-- The reader's own rule for a grant that ends at `expiresAt`. -/
def Reader.inForce (reader : Reader) (expiresAt : Option Int) (now : Int) :
    Prop :=
  match reader with
  | .evaluateStandingGrants _ =>
      ∀ deadline, expiresAt = some deadline → deadline = 0 ∨ now ≤ deadline
  | .issueCommandJWT _ _ _ _ => ∀ deadline, expiresAt = some deadline → now < deadline
  | .findCoveringGrant _ _ | .findReusableGrant _ _ _
  | .findSimilarCliGrants _ => outlived expiresAt now = false

/-- Nothing but its end keeps a reader from a grant it would otherwise use. -/
theorem uses_iff_inForce {reader : Reader} {grant : OpenApeGrant} {now : Int}
    (h : reader.uses (unexpiring grant) now = true) :
    reader.uses grant now = true ↔ reader.inForce grant.expiresAt now := by
  cases reader with
  | evaluateStandingGrants incoming => exact applicable_iff_of_unexpiring h
  | findCoveringGrant call brokered => exact coversCall_iff_of_unexpiring h
  | findReusableGrant detailSignature request brokered =>
      change reusable _ _ _ _ _ = true ↔ outlived _ _ = false
      cases hOut : outlived grant.expiresAt now with
      | true => simp [reusable_of_outlived hOut]
      | false =>
          rw [reusable_eq_of_not_outlived hOut]
          exact iff_of_true h rfl
  | findSimilarCliGrants incoming =>
      obtain ⟨hComparable, hSimilar⟩ :=
        (similarMatch_isSome_iff _ _ _).mp h
      refine (similarMatch_isSome_iff _ _ _).trans ?_
      rw [comparable_iff_of_unexpiring hComparable]
      exact and_iff_left hSimilar
  | issueCommandJWT sign call issuer jti =>
      obtain ⟨hApproved, _⟩ := (issueCommandJWT_isOk_iff _ _ _ _ _ _).mp h
      refine (issueCommandJWT_isOk_iff _ _ _ _ _ _).trans ?_
      exact and_iff_right hApproved

/-- Past its end no reader uses a grant. -/
theorem uses_of_ended {reader : Reader} {grant : OpenApeGrant}
    {expiresAt now : Int} (hExpires : grant.expiresAt = some expiresAt)
    (hNonzero : expiresAt ≠ 0) (hPast : expiresAt < now) :
    reader.uses grant now = false := by
  have hOut : outlived grant.expiresAt now = true := by
    simp [outlived, hExpires, hNonzero, hPast.le]
  rw [Bool.eq_false_iff]
  intro hUses
  cases reader with
  | evaluateStandingGrants incoming =>
      have hEnded : applicable incoming now grant = none :=
        applicable_of_ended (by simp [hExpires, hNonzero, hPast])
      simp [Reader.uses, hEnded] at hUses
  | findCoveringGrant call brokered =>
      have hIn := ((coversCall_iff _ _ _ _).mp hUses).2.1
      rw [hOut] at hIn
      cases hIn
  | findReusableGrant detailSignature request brokered =>
      have hNot : reusable detailSignature grant request brokered now =
          false := reusable_of_outlived hOut
      exact absurd (hUses.symm.trans hNot) (by simp)
  | findSimilarCliGrants incoming =>
      have hComparable := ((similarMatch_isSome_iff _ _ _).mp hUses).1
      rw [comparable_of_outlived hOut] at hComparable
      cases hComparable
  | issueCommandJWT sign call issuer jti =>
      have hBefore := ((issueCommandJWT_isOk_iff _ _ _ _ _ _).mp hUses).2
        expiresAt hExpires
      omega

/-- Some request is read against every standing grant that never expires. -/
theorem exists_uses_standing {grant : OpenApeGrant}
    {req : StandingGrantRequest} (hApproved : grant.status = .approved)
    (hStanding : standingGrantRequest? grant.request = some req)
    (now : Int) :
    ∃ incoming, (Reader.evaluateStandingGrants incoming).uses
      (unexpiring grant) now = true := by
  let incoming : OpenApeGrantRequest :=
    { requester := req.delegate
      targetHost := req.targetHost
      audience := req.audience }
  refine ⟨incoming, ?_⟩
  simp [Reader.uses, applicable, unexpiring, hApproved, hStanding, incoming]

/-- At this second every reader lets the grant through that would if it never
expired, exactly while it is not expired. -/
def ReadersAgree (grant : OpenApeGrant) (now : Int) : Prop :=
  grant.status = .approved → grant.request.grantType = some .timed →
    ∀ reader : Reader, reader.uses (unexpiring grant) now = true →
      (reader.uses grant now = true ↔ isGrantExpired grant now = false)

/-- **When all readers agree on the end of a timed approval**: unless it ends
at second 0, which only the command token takes for an end, or it is a
standing grant at the very second at which it ends. -/
theorem readersAgree_iff (grant : OpenApeGrant) (now : Int) :
    ReadersAgree grant now ↔
      ¬(grant.status = .approved ∧ grant.request.grantType = some .timed ∧
        ((grant.expiresAt = some 0 ∧ 0 ≤ now) ∨
          (grant.expiresAt = some now ∧ now ≠ 0 ∧
            ∃ req, standingGrantRequest? grant.request = some req))) := by
  constructor
  · rintro hAgree ⟨hApproved, hTimed, hEnd⟩
    have hRule : ∀ reader : Reader,
        reader.uses (unexpiring grant) now = true →
        (reader.inForce grant.expiresAt now ↔
          outlived grant.expiresAt now = false) := by
      intro reader hUses
      rw [← uses_iff_inForce hUses,
        ← isGrantExpired_eq_outlived hApproved hTimed]
      exact hAgree hApproved hTimed reader hUses
    rcases hEnd with ⟨hZero, hNow⟩ | ⟨hLast, hNow, req, hStanding⟩
    · let token : Reader := .issueCommandJWT (fun _ => [])
        { argvHash := [], programSha256 := []
          detail :=
            { cliId := [], operationId := [], resourceChain := [],
              action := [], permission := [], display := [], risk := .low }
          executionContext :=
            { adapterId := [], adapterVersion := [], adapterDigest := [],
              resolvedExecutable := [] } } [] []
      have hUses : token.uses (unexpiring grant) now = true :=
        (issueCommandJWT_isOk_iff _ _ _ _ _ _).mpr
          ⟨hApproved, fun _ hNone => by cases hNone⟩
      have hIn := (hRule token hUses).mpr
        ((outlived_eq_false_iff _ _).mpr
          (fun deadline hSome => .inl (by
            rw [hZero] at hSome
            exact (Option.some.inj hSome).symm)))
      have hBefore : now < 0 := hIn 0 hZero
      omega
    · obtain ⟨incoming, hUses⟩ :=
        exists_uses_standing hApproved hStanding now
      have hIn := (hRule _ hUses).mp (fun deadline hSome => .inr (by
        rw [hLast] at hSome
        exact (Option.some.inj hSome).le))
      rcases (outlived_eq_false_iff _ _).mp hIn now hLast with hZero | hLess
      · exact hNow hZero
      · omega
  · intro hNot hApproved hTimed reader hUses
    rw [uses_iff_inForce hUses, isGrantExpired_eq_outlived hApproved hTimed]
    cases reader with
    | findCoveringGrant call brokered => exact Iff.rfl
    | findReusableGrant detailSignature request brokered => exact Iff.rfl
    | findSimilarCliGrants incoming => exact Iff.rfl
    | evaluateStandingGrants incoming =>
        rw [outlived_eq_false_iff]
        refine forall₂_congr (fun deadline hSome => ?_)
        have hStanding : ∃ req,
            standingGrantRequest? grant.request = some req := by
          obtain ⟨req, hReq⟩ := Option.isSome_iff_exists.mp hUses
          exact ⟨req, (applicable_eq_some hReq).2.1⟩
        have hOther : ¬(deadline = now ∧ now ≠ 0) := by
          rintro ⟨rfl, hNow⟩
          exact hNot ⟨hApproved, hTimed, .inr ⟨hSome, hNow, hStanding⟩⟩
        omega
    | issueCommandJWT sign call issuer jti =>
        rw [outlived_eq_false_iff]
        refine forall₂_congr (fun deadline hSome => ?_)
        have hOther : ¬(deadline = 0 ∧ 0 ≤ now) := by
          rintro ⟨rfl, hNow⟩
          exact hNot ⟨hApproved, hTimed, .inl ⟨hSome, hNow⟩⟩
        omega

end Readers

/-- A standing grant at the second at which it expires. -/
private def lastSecond : OpenApeGrant where
  id := js "standing"
  status := .approved
  type := some .standing
  createdAt := 1000
  expiresAt := some 4600
  request :=
    { requester := js "agent@example.com", targetHost := js "*",
      audience := js "shapes", grantType := some .timed,
      duration := some 3600, delegate := some (js "agent@example.com")
      standing := some
        { owner := js "owner@example.com", resourceChainTemplate := [] } }

/-- The evaluation still uses it, and `isGrantExpired` reports its end. -/
theorem not_readersAgree_lastSecond :
    letI := codeUnitCollation
    ¬ReadersAgree lastSecond 4600 := by
  let _ := codeUnitCollation
  intro hAgree
  have hUses := hAgree rfl rfl
    (.evaluateStandingGrants
      { requester := js "agent@example.com", targetHost := js "host",
        audience := js "shapes" }) (by decide)
  exact absurd hUses (by decide)

end OpenApe.Ports.GrantExpiry
