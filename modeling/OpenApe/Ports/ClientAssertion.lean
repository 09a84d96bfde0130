import Mathlib.Algebra.Order.Ring.Rat
import Mathlib.Tactic.Linarith
import Mathlib.Tactic.NormNum
import OpenApe.Ports.GrantTypes
import OpenApe.Verified.KeyedTable

/-!
# Replay protection of client assertions
(`packages/auth/src/idp/client-assertion.ts`)

`validateClientAssertion` over the two stores of used token ids, `stores.ts`
in memory and `drizzle-jti-store.ts`.  A call reads the clock several times;
`CallTimes` holds its readings in order, in milliseconds.  Seconds are
rationals, as `exp` may be any number.

The entry of a used id lives for what is left of the assertion's life, but at
least 60 seconds, while the verifier accepts the assertion until 5 seconds
after `exp`, or for ever without `exp`.  In between the assertion is accepted
again.  `accepted_once` says that nothing else goes wrong.
-/

namespace OpenApe.Ports.ClientAssertion

open Verified.JsText Verified.KeyedTable
open GrantTypes

/-! ## Token verification -/

/-- The claims that are read, with `exp` in seconds. -/
structure JwtPayload where
  iss : Option JsString := none
  sub : Option JsString := none
  jti : Option JsString := none
  exp : Option ℚ := none
  deriving DecidableEq

/-- The library that verifies tokens, without its check of `exp`: the payload
of a token, and whether the token passes for a key and an audience at a time
in seconds. -/
structure Jose (κ : Type) where
  decodeJwt : JsString → Except JsError JwtPayload
  verify : JsString → κ → JsString → Int → Except JsError Unit

/-- `Math.floor(now / 1000)` -/
def seconds (now : Int) : Int := now / 1000

/-- The `clockTolerance` that the caller passes, in seconds. -/
def clockTolerance : Int := 5

/-- A token is refused from `exp + clockTolerance` on. -/
def expired (payload : JwtPayload) (now : Int) : Bool :=
  match payload.exp with
  | none => false
  | some exp => decide (exp ≤ ((seconds now - clockTolerance : Int) : ℚ))

/-- `new Error(message)` -/
def assertionError (message : String) : JsError := plainError (js message)

def jwtVerify (jose : Jose κ) (assertion : JsString) (key : κ)
    (audience : JsString) (now : Int) : Except JsError JwtPayload := do
  jose.verify assertion key audience (seconds now)
  let payload ← jose.decodeJwt assertion
  if expired payload now then
    throw (assertionError "\"exp\" claim timestamp check failed")
  pure payload

/-! ## The stores of used ids -/

structure JtiRow where
  jti : JsString
  expiresAt : ℚ
  deriving DecidableEq

abbrev JtiTable := Table JtiRow.jti

inductive JtiStore where
  | inMemory
  | drizzle
  deriving DecidableEq

/-- Whether the entry is past its end. -/
def JtiRow.isPast (row : JtiRow) (now : Int) : Bool :=
  decide (row.expiresAt < (now : ℚ))

/-- The in-memory store first drops every entry past its end, the database
store the entry of the id. -/
def hasBeenUsed (store : JtiStore) (jti : JsString) (now : Int)
    (jtis : JtiTable) : Bool × JtiTable :=
  match store with
  | .inMemory =>
      let kept := jtis.keep (fun row => !row.isPast now)
      ((kept.find? jti).isSome, kept)
  | .drizzle =>
      match jtis.find? jti with
      | none => (false, jtis)
      | some row =>
          if row.isPast now then (false, jtis.remove jti) else (true, jtis)

/-- The database store reads the clock once for the insertion, at `now`, and
once for the update on a conflict, at `again`. -/
def markUsed (store : JtiStore) (jti : JsString) (ttlMs : ℚ)
    (now again : Int) (jtis : JtiTable) : JtiTable :=
  match store with
  | .inMemory => jtis.put ⟨jti, now + ttlMs⟩
  | .drizzle =>
      match jtis.find? jti with
      | none => jtis.put ⟨jti, now + ttlMs⟩
      | some _ => jtis.put ⟨jti, again + ttlMs⟩

/-! ## The validation -/

/-- The clock readings of one call, in order. -/
structure CallTimes where
  verify : Int
  check : Int
  ttl : Int
  mark : Int
  again : Int
  verify_le : verify ≤ check
  check_le : check ≤ ttl
  ttl_le : ttl ≤ mark
  mark_le : mark ≤ again

/-- A call: the assertion, the audience, the agents' keys at the time, and
when it happens. -/
structure AssertionCall (κ : Type) where
  assertion : JsString
  expectedAudience : JsString
  resolveAgentKey : JsString → Option κ
  times : CallTimes

structure ClientAssertionResult where
  sub : JsString
  iss : JsString
  deriving DecidableEq

/-- `Math.max((exp ?? 0) - Math.floor(now / 1000), 60) * 1000` -/
def ttlMs (payload : JwtPayload) (now : Int) : ℚ :=
  max (payload.exp.getD 0 - ((seconds now : Int) : ℚ)) 60 * 1000

/-- What comes before the check of the token id: the verified payload, its
issuer and its id. -/
def verifyCall (jose : Jose κ) (call : AssertionCall κ) :
    Except JsError (JwtPayload × JsString × JsString) := do
  let claims ← jose.decodeJwt call.assertion
  match claims.iss.filter (fun iss => iss ≠ []) with
  | none => throw (assertionError "Missing iss claim in client assertion")
  | some iss =>
  match claims.jti.filter (fun jti => jti ≠ []) with
  | none => throw (assertionError "Missing jti claim in client assertion")
  | some jti =>
  match call.resolveAgentKey iss with
  | none => throw (assertionError "Unknown agent")
  | some publicKey =>
  let payload ← jwtVerify jose call.assertion publicKey
    call.expectedAudience call.times.verify
  pure (payload, iss, jti)

def validateClientAssertion (jose : Jose κ) (store : JtiStore)
    (call : AssertionCall κ) (jtis : JtiTable) :
    Except JsError ClientAssertionResult × JtiTable :=
  match verifyCall jose call with
  | .error error => (.error error, jtis)
  | .ok (payload, iss, jti) =>
      let (used, checked) := hasBeenUsed store jti call.times.check jtis
      if used then
        (.error (assertionError "JTI already used (replay)"), checked)
      else
        (.ok { sub := payload.sub.getD iss, iss := iss },
          markUsed store jti (ttlMs payload call.times.ttl) call.times.mark
            call.times.again checked)

/-- Calls one after another, and what each returned. -/
def validateAll (jose : Jose κ) (store : JtiStore) :
    List (AssertionCall κ) → JtiTable →
      List (AssertionCall κ × Except JsError ClientAssertionResult)
  | [], _ => []
  | call :: calls, jtis =>
      let (outcome, later) := validateClientAssertion jose store call jtis
      (call, outcome) :: validateAll jose store calls later

/-! ## What verification says about the assertion -/

/-- The payload and the id of a call that passes are those of its
assertion. -/
theorem verifyCall_ok {jose : Jose κ} {call : AssertionCall κ}
    {payload : JwtPayload} {iss jti : JsString}
    (h : verifyCall jose call = .ok (payload, iss, jti)) :
    jose.decodeJwt call.assertion = .ok payload ∧ payload.jti = some jti ∧
      expired payload call.times.verify = false := by
  unfold verifyCall jwtVerify at h
  cases hClaims : jose.decodeJwt call.assertion with
  | error error => simp [hClaims, bind, Except.bind] at h
  | ok claims =>
      simp only [hClaims, bind, Except.bind, pure, Except.pure] at h
      cases hIss : claims.iss.filter (fun iss => decide (iss ≠ [])) with
      | none =>
          simp only [hIss] at h
          cases h
      | some issuer =>
      cases hJti : claims.jti.filter (fun jti => decide (jti ≠ [])) with
      | none =>
          simp only [hIss, hJti] at h
          cases h
      | some id =>
      cases hKey : call.resolveAgentKey issuer with
      | none =>
          simp only [hIss, hJti, hKey] at h
          cases h
      | some key =>
      simp only [hIss, hJti, hKey] at h
      split at h
      · cases h
      · rename_i passed hPassed
        split at hPassed
        · cases hPassed
        · split at hPassed
          · cases hPassed
          · rename_i hExpired
            cases hPassed
            cases h
            refine ⟨rfl, (Option.filter_eq_some_iff.mp hJti).1, ?_⟩
            simpa using hExpired

/-- Two calls with one assertion that pass have one payload and one id. -/
theorem verifyCall_same {jose : Jose κ} {first second : AssertionCall κ}
    {payload payload' : JwtPayload} {iss iss' jti jti' : JsString}
    (hSame : first.assertion = second.assertion)
    (hFirst : verifyCall jose first = .ok (payload, iss, jti))
    (hSecond : verifyCall jose second = .ok (payload', iss', jti')) :
    payload' = payload ∧ jti' = jti := by
  obtain ⟨hDecode, hJti, _⟩ := verifyCall_ok hFirst
  obtain ⟨hDecode', hJti', _⟩ := verifyCall_ok hSecond
  rw [hSame, hDecode'] at hDecode
  cases hDecode
  rw [hJti'] at hJti
  exact ⟨rfl, Option.some.inj hJti⟩

/-! ## Used ids -/

/-- Until `ends` the id has an entry that is not past its end. -/
def Guarded (jti : JsString) (ends : ℚ) (now : Int) (jtis : JtiTable) :
    Prop :=
  ends < (now : ℚ) ∨
    ∃ row, jtis.find? jti = some row ∧ ends ≤ row.expiresAt

theorem Guarded.mono {jti : JsString} {ends : ℚ} {now now' : Int}
    {jtis : JtiTable} (hNow : now ≤ now') (h : Guarded jti ends now jtis) :
    Guarded jti ends now' jtis := by
  rcases h with hPast | hRow
  · exact .inl (lt_of_lt_of_le hPast (by exact_mod_cast hNow))
  · exact .inr hRow

/-- An entry that a check drops is past its end. -/
theorem find?_hasBeenUsed (store : JtiStore) (jti jti' : JsString)
    (now : Int) (jtis : JtiTable) :
    (hasBeenUsed store jti' now jtis).2.find? jti = jtis.find? jti ∨
      ((hasBeenUsed store jti' now jtis).2.find? jti = none ∧
        ∃ row, jtis.find? jti = some row ∧ row.isPast now = true) := by
  cases store with
  | inMemory =>
      simp only [hasBeenUsed, Table.find?_keep]
      cases hRow : jtis.find? jti with
      | none => exact .inl rfl
      | some row =>
          cases hPast : row.isPast now with
          | true => exact .inr ⟨by simp [hPast], row, rfl, hPast⟩
          | false => exact .inl (by simp [hPast])
  | drizzle =>
      simp only [hasBeenUsed]
      cases hRow : jtis.find? jti' with
      | none => exact .inl rfl
      | some row =>
          simp only
          split
          · rename_i hPast
            by_cases hSame : jti = jti'
            · subst hSame
              exact .inr ⟨Table.find?_remove_self _ _, row, hRow, hPast⟩
            · exact .inl (Table.find?_remove_ne _ hSame)
          · exact .inl rfl

/-- An id that a check reports unused has no entry afterwards. -/
theorem find?_hasBeenUsed_of_false {store : JtiStore} {jti : JsString}
    {now : Int} {jtis : JtiTable}
    (h : (hasBeenUsed store jti now jtis).1 = false) :
    (hasBeenUsed store jti now jtis).2.find? jti = none := by
  cases store with
  | inMemory => simpa [hasBeenUsed] using h
  | drizzle =>
      simp only [hasBeenUsed] at h ⊢
      cases hRow : jtis.find? jti with
      | none => exact hRow
      | some row =>
          simp only [hRow] at h ⊢
          split at h
          · rename_i hPast
            simp [hPast]
          · cases h

theorem guarded_hasBeenUsed {jti : JsString} {ends : ℚ} {now now' : Int}
    {jtis : JtiTable} (store : JtiStore) (jti' : JsString)
    (hNow : now ≤ now') (h : Guarded jti ends now jtis) :
    Guarded jti ends now' (hasBeenUsed store jti' now' jtis).2 := by
  rcases h.mono hNow with hPast | ⟨row, hRow, hEnds⟩
  · exact .inl hPast
  · rcases find?_hasBeenUsed store jti jti' now' jtis with hKept |
      ⟨_, dropped, hDropped, hPast⟩
    · exact .inr ⟨row, hKept.trans hRow, hEnds⟩
    · rw [hRow] at hDropped
      cases hDropped
      exact .inl (lt_of_le_of_lt hEnds (of_decide_eq_true hPast))

/-- A guarded id is reported unused only after the guard's end. -/
theorem ends_lt_of_unused {store : JtiStore} {jti : JsString} {ends : ℚ}
    {now now' : Int} {jtis : JtiTable} (hNow : now ≤ now')
    (h : Guarded jti ends now jtis)
    (hUnused : (hasBeenUsed store jti now' jtis).1 = false) :
    ends < (now' : ℚ) := by
  rcases guarded_hasBeenUsed store jti hNow h with hPast | ⟨row, hRow, _⟩
  · exact hPast
  · rw [find?_hasBeenUsed_of_false hUnused] at hRow
    cases hRow

/-- The entry that is marked, whichever statement writes it. -/
theorem markUsed_eq_put (store : JtiStore) (jti : JsString) (ttl : ℚ)
    {now again : Int} (hAgain : now ≤ again) (jtis : JtiTable) :
    ∃ expiresAt, now + ttl ≤ expiresAt ∧
      markUsed store jti ttl now again jtis = jtis.put ⟨jti, expiresAt⟩ := by
  have hLater : (now : ℚ) + ttl ≤ again + ttl := by
    have : (now : ℚ) ≤ again := by exact_mod_cast hAgain
    linarith
  cases store with
  | inMemory => exact ⟨_, le_refl _, rfl⟩
  | drizzle =>
      simp only [markUsed]
      cases jtis.find? jti with
      | none => exact ⟨_, le_refl _, rfl⟩
      | some _ => exact ⟨_, hLater, rfl⟩

theorem guarded_markUsed_self (store : JtiStore) (jti : JsString) (ttl : ℚ)
    {now again : Int} (hAgain : now ≤ again) (jtis : JtiTable) :
    Guarded jti (now + ttl) now (markUsed store jti ttl now again jtis) := by
  obtain ⟨expiresAt, hEnds, hPut⟩ :=
    markUsed_eq_put store jti ttl hAgain jtis
  exact .inr ⟨_, hPut ▸ Table.find?_put_self _ _, hEnds⟩

theorem guarded_markUsed_ne {jti jti' : JsString} {ends : ℚ} {now : Int}
    {jtis : JtiTable} (store : JtiStore) (ttl : ℚ) {mark again : Int}
    (hAgain : mark ≤ again) (hNe : jti ≠ jti')
    (h : Guarded jti ends now jtis) :
    Guarded jti ends now (markUsed store jti' ttl mark again jtis) := by
  obtain ⟨expiresAt, _, hPut⟩ := markUsed_eq_put store jti' ttl hAgain jtis
  rw [hPut]
  rcases h with hPast | ⟨row, hRow, hEnds⟩
  · exact .inl hPast
  · exact .inr ⟨row, (Table.find?_put_ne _ hNe).trans hRow, hEnds⟩

/-! ## One call -/

def accepted : Except JsError ClientAssertionResult → Bool
  | .ok _ => true
  | .error _ => false

/-- The end of the entry that a call writes. -/
def entryEnd (payload : JwtPayload) (times : CallTimes) : ℚ :=
  times.mark + ttlMs payload times.ttl

/-- A call is accepted when it passes and its id is not used. -/
theorem accepted_iff (jose : Jose κ) (store : JtiStore)
    (call : AssertionCall κ) (jtis : JtiTable) :
    accepted (validateClientAssertion jose store call jtis).1 = true ↔
      ∃ payload iss jti, verifyCall jose call = .ok (payload, iss, jti) ∧
        (hasBeenUsed store jti call.times.check jtis).1 = false := by
  unfold validateClientAssertion
  cases hVerify : verifyCall jose call with
  | error error => simp [accepted]
  | ok passed =>
      obtain ⟨payload, iss, jti⟩ := passed
      cases hUsed : (hasBeenUsed store jti call.times.check jtis).1 with
      | true =>
          simp only [hUsed, if_true, accepted]
          simp [hUsed]
      | false => simp [hUsed, accepted]

/-- An accepted call guards its id until the end of its entry. -/
theorem guarded_of_accepted {jose : Jose κ} {store : JtiStore}
    {call : AssertionCall κ} {jtis : JtiTable} {payload : JwtPayload}
    {iss jti : JsString}
    (hVerify : verifyCall jose call = .ok (payload, iss, jti))
    (hUnused : (hasBeenUsed store jti call.times.check jtis).1 = false) :
    Guarded jti (entryEnd payload call.times) call.times.again
      (validateClientAssertion jose store call jtis).2 := by
  have hState : (validateClientAssertion jose store call jtis).2 =
      markUsed store jti (ttlMs payload call.times.ttl) call.times.mark
        call.times.again (hasBeenUsed store jti call.times.check jtis).2 := by
    simp [validateClientAssertion, hVerify, hUnused]
  rw [hState]
  exact (guarded_markUsed_self store jti _ call.times.mark_le _).mono
    call.times.mark_le

/-- **One call** keeps every guard, to the end of the call. -/
theorem guarded_validate {jose : Jose κ} (store : JtiStore)
    {call : AssertionCall κ} {jtis : JtiTable} {jti : JsString} {ends : ℚ}
    {now : Int} (hNow : now ≤ call.times.verify)
    (h : Guarded jti ends now jtis) :
    Guarded jti ends call.times.again
      (validateClientAssertion jose store call jtis).2 := by
  have hCheck : now ≤ call.times.check := hNow.trans call.times.verify_le
  have hAgain : call.times.check ≤ call.times.again :=
    call.times.check_le.trans (call.times.ttl_le.trans call.times.mark_le)
  cases hVerify : verifyCall jose call with
  | error error =>
      simp only [validateClientAssertion, hVerify]
      exact h.mono (hCheck.trans hAgain)
  | ok passed =>
      obtain ⟨payload, iss, jti'⟩ := passed
      have hChecked := guarded_hasBeenUsed store jti' hCheck h
      cases hUsed : (hasBeenUsed store jti' call.times.check jtis).1 with
      | true =>
          simp only [validateClientAssertion, hVerify, hUsed, if_true]
          exact hChecked.mono hAgain
      | false =>
          simp only [validateClientAssertion, hVerify, hUsed]
          by_cases hSame : jti = jti'
          · subst hSame
            have hEnds := ends_lt_of_unused hCheck h hUsed
            exact Guarded.mono hAgain (.inl hEnds)
          · exact guarded_markUsed_ne store _ call.times.mark_le hSame
              (hChecked.mono hAgain)

/-! ## Every run -/

/-- The calls happen one after another. -/
def InOrder (calls : List (AssertionCall κ)) : Prop :=
  calls.Pairwise (fun first second =>
    first.times.again ≤ second.times.verify)

/-- No assertion is accepted again. -/
def AcceptedOnce
    (outcomes : List (AssertionCall κ × Except JsError ClientAssertionResult)) :
    Prop :=
  outcomes.Pairwise (fun first second =>
    first.1.assertion = second.1.assertion → accepted first.2 = true →
      accepted second.2 = false)

/-- Both calls carry one assertion and pass its verification, and the second
looks for the id after the end of the entry that the first writes. -/
def InGap (jose : Jose κ) (first second : AssertionCall κ) : Prop :=
  first.assertion = second.assertion ∧
    ∃ payload iss jti passed,
      verifyCall jose first = .ok (payload, iss, jti) ∧
      verifyCall jose second = .ok passed ∧
      entryEnd payload first.times < second.times.check

theorem mem_validateAll {jose : Jose κ} {store : JtiStore}
    {calls : List (AssertionCall κ)} {jtis : JtiTable}
    {entry : AssertionCall κ × Except JsError ClientAssertionResult}
    (h : entry ∈ validateAll jose store calls jtis) : entry.1 ∈ calls := by
  induction calls generalizing jtis with
  | nil => cases h
  | cons call calls ih =>
      rcases List.mem_cons.mp h with rfl | hTail
      · exact List.mem_cons_self
      · exact List.mem_cons_of_mem _ (ih hTail)

/-- What a run accepts passes verification. -/
theorem passes_of_accepted {jose : Jose κ} {store : JtiStore}
    {calls : List (AssertionCall κ)} {jtis : JtiTable}
    {entry : AssertionCall κ × Except JsError ClientAssertionResult}
    (hMem : entry ∈ validateAll jose store calls jtis)
    (hAccepted : accepted entry.2 = true) :
    ∃ passed, verifyCall jose entry.1 = .ok passed := by
  induction calls generalizing jtis with
  | nil => cases hMem
  | cons call calls ih =>
      rcases List.mem_cons.mp hMem with rfl | hTail
      · obtain ⟨_, _, _, hVerify, _⟩ :=
          (accepted_iff jose store call jtis).mp hAccepted
        exact ⟨_, hVerify⟩
      · exact ih hTail

/-- **A run** from a guarded id accepts a call with that id only after the
guard's end. -/
theorem ends_lt_of_accepted {jose : Jose κ} {store : JtiStore}
    {calls : List (AssertionCall κ)} {jtis : JtiTable} {jti : JsString}
    {ends : ℚ} {now : Int} (hOrder : InOrder calls)
    (hNow : ∀ call ∈ calls, now ≤ call.times.verify)
    (h : Guarded jti ends now jtis)
    {entry : AssertionCall κ × Except JsError ClientAssertionResult}
    (hMem : entry ∈ validateAll jose store calls jtis)
    (hAccepted : accepted entry.2 = true) {payload : JwtPayload}
    {iss : JsString}
    (hVerify : verifyCall jose entry.1 = .ok (payload, iss, jti)) :
    ends < (entry.1.times.check : ℚ) := by
  induction calls generalizing jtis now with
  | nil => cases hMem
  | cons call calls ih =>
      have hFirst := hNow call List.mem_cons_self
      obtain ⟨hLater, hRest⟩ := List.pairwise_cons.mp hOrder
      rcases List.mem_cons.mp hMem with rfl | hTail
      · obtain ⟨payload', iss', jti', hVerify', hUnused⟩ :=
          (accepted_iff jose store call jtis).mp hAccepted
        rw [hVerify] at hVerify'
        cases hVerify'
        exact ends_lt_of_unused (hFirst.trans call.times.verify_le) h hUnused
      · exact ih hRest hLater (guarded_validate store hFirst h) hTail

/-- **An assertion is accepted at most once** in every run of calls one after
another, whatever the store holds at the start, if no call falls into the
gap between the end of an earlier call's entry and the end of the
assertion. -/
theorem accepted_once (jose : Jose κ) (store : JtiStore)
    (calls : List (AssertionCall κ)) (jtis : JtiTable)
    (hOrder : InOrder calls)
    (hGap : calls.Pairwise (fun first second => ¬InGap jose first second)) :
    AcceptedOnce (validateAll jose store calls jtis) := by
  induction calls generalizing jtis with
  | nil => exact List.Pairwise.nil
  | cons call calls ih =>
      obtain ⟨hLater, hRest⟩ := List.pairwise_cons.mp hOrder
      obtain ⟨hNoGap, hGaps⟩ := List.pairwise_cons.mp hGap
      refine List.pairwise_cons.mpr ⟨?_, ih _ hRest hGaps⟩
      intro entry hMem hSame hFirst
      by_contra hSecond
      have hSecond : accepted entry.2 = true := by simpa using hSecond
      obtain ⟨payload, iss, jti, hVerify, hUnused⟩ :=
        (accepted_iff jose store call jtis).mp hFirst
      obtain ⟨⟨payload', iss', jti'⟩, hVerify'⟩ :=
        passes_of_accepted hMem hSecond
      obtain ⟨_, rfl⟩ := verifyCall_same hSame hVerify hVerify'
      refine hNoGap entry.1 (mem_validateAll hMem)
        ⟨hSame, payload, iss, _, _, hVerify, hVerify', ?_⟩
      exact ends_lt_of_accepted hRest hLater
        (guarded_of_accepted hVerify hUnused) hMem hSecond hVerify'

/-! ## The gap -/

/-- A check of an id whose entry is past its end, or that has no entry. -/
theorem unused_of_past {store : JtiStore} {jti : JsString} {now : Int}
    {jtis : JtiTable}
    (h : ∀ row, jtis.find? jti = some row → row.isPast now = true) :
    (hasBeenUsed store jti now jtis).1 = false := by
  cases store with
  | inMemory =>
      simp only [hasBeenUsed, Table.find?_keep]
      cases hRow : jtis.find? jti with
      | none => rfl
      | some row => simp [h row hRow]
  | drizzle =>
      simp only [hasBeenUsed]
      cases hRow : jtis.find? jti with
      | none => rfl
      | some row => simp [h row hRow]

/-- The entry of an id that had none ends with the time it was marked. -/
theorem find?_markUsed_of_none (store : JtiStore) {jti : JsString} (ttl : ℚ)
    (now again : Int) {jtis : JtiTable} (h : jtis.find? jti = none) :
    (markUsed store jti ttl now again jtis).find? jti =
      some ⟨jti, now + ttl⟩ := by
  cases store with
  | inMemory => exact Table.find?_put_self _ (JtiRow.mk jti (now + ttl))
  | drizzle =>
      simp only [markUsed, h]
      exact Table.find?_put_self _ (JtiRow.mk jti (now + ttl))

/-- On an empty store **the gap is exactly** where two calls with one
assertion are both accepted. -/
theorem accepted_twice_iff (jose : Jose κ) (store : JtiStore)
    {first second : AssertionCall κ}
    (hOrder : first.times.again ≤ second.times.verify)
    (hSame : first.assertion = second.assertion) :
    (accepted (validateClientAssertion jose store first .empty).1 = true ∧
      accepted (validateClientAssertion jose store second
        (validateClientAssertion jose store first .empty).2).1 = true) ↔
      InGap jose first second := by
  constructor
  · rintro ⟨hFirst, hSecond⟩
    obtain ⟨payload, iss, jti, hVerify, hUnused⟩ :=
      (accepted_iff jose store first .empty).mp hFirst
    obtain ⟨payload', iss', jti', hVerify', hUnused'⟩ :=
      (accepted_iff jose store second _).mp hSecond
    obtain ⟨_, rfl⟩ := verifyCall_same hSame hVerify hVerify'
    exact ⟨hSame, payload, iss, _, _, hVerify, hVerify',
      ends_lt_of_unused (hOrder.trans second.times.verify_le)
        (guarded_of_accepted hVerify hUnused) hUnused'⟩
  · rintro ⟨_, payload, iss, jti, ⟨payload', iss', jti'⟩, hVerify, hVerify',
      hEnd⟩
    obtain ⟨_, rfl⟩ := verifyCall_same hSame hVerify hVerify'
    have hUnused : (hasBeenUsed store jti' first.times.check .empty).1 =
        false := unused_of_past (fun row hRow => by cases hRow)
    have hEntry : (validateClientAssertion jose store first .empty).2.find?
        jti' = some ⟨jti', entryEnd payload first.times⟩ := by
      simp only [validateClientAssertion, hVerify, hUnused]
      exact find?_markUsed_of_none store _ _ _
        (find?_hasBeenUsed_of_false hUnused)
    refine ⟨(accepted_iff jose store first .empty).mpr
        ⟨_, _, _, hVerify, hUnused⟩,
      (accepted_iff jose store second _).mpr
        ⟨_, _, _, hVerify', unused_of_past ?_⟩⟩
    intro row hRow
    rw [hEntry] at hRow
    cases hRow
    exact decide_eq_true hEnd

/-! ## An assertion that is replayed -/

/-- Every token is `payload`, and passes. -/
def joseOf (payload : JwtPayload) : Jose Unit where
  decodeJwt _ := .ok payload
  verify _ _ _ _ := .ok ()

/-- An assertion that ends at the second 100. -/
def shortLived : JwtPayload where
  iss := some (js "agent@example.com")
  jti := some (js "j")
  exp := some 100

/-- A call whose clock readings are all `now`. -/
def callAt (now : Int) : AssertionCall Unit where
  assertion := js "assertion"
  expectedAudience := js "https://idp.example/token"
  resolveAgentKey _ := some ()
  times := ⟨now, now, now, now, now, le_refl _, le_refl _, le_refl _,
    le_refl _⟩

theorem verifyCall_callAt (now : Int)
    (h : expired shortLived now = false) :
    verifyCall (joseOf shortLived) (callAt now) =
      .ok (shortLived, js "agent@example.com", js "j") := by
  have hPasses : jwtVerify (joseOf shortLived) (js "assertion") ()
      (js "https://idp.example/token") now = .ok shortLived := by
    simp only [jwtVerify, joseOf, bind, Except.bind, h]
    rfl
  change (jwtVerify (joseOf shortLived) (js "assertion") ()
    (js "https://idp.example/token") now >>= fun payload =>
      pure (payload, js "agent@example.com", js "j")) = _
  rw [hPasses]
  rfl

/-- The theorem at work: a replay while the entry lasts. -/
theorem accepted_once_replay :
    AcceptedOnce (validateAll (joseOf shortLived) .drizzle
      [callAt 0, callAt 99000] .empty) :=
  accepted_once _ _ _ _ (by simp [InOrder, callAt])
    (by
      simp only [List.pairwise_cons, List.mem_singleton, forall_eq,
        List.not_mem_nil, false_implies, implies_true, List.Pairwise.nil,
        and_true]
      rintro ⟨_, payload, iss, jti, passed, hVerify, _, hEnd⟩
      rw [verifyCall_callAt 0 (by decide)] at hVerify
      cases hVerify
      exact absurd hEnd (by decide +kernel))

/-- The assertion is accepted at 0 s and again at 101 s, by either store: its
entry ended at 100 s, and the verifier accepts it until 105 s. -/
theorem not_acceptedOnce_tolerance :
    ¬AcceptedOnce (validateAll (joseOf shortLived) .inMemory
      [callAt 0, callAt 101000] .empty) ∧
    ¬AcceptedOnce (validateAll (joseOf shortLived) .drizzle
      [callAt 0, callAt 101000] .empty) := by
  have hGap : InGap (joseOf shortLived) (callAt 0) (callAt 101000) :=
    ⟨rfl, _, _, _, _, verifyCall_callAt 0 (by decide),
      verifyCall_callAt 101000 (by decide +kernel), by decide +kernel⟩
  have hTwice : ∀ store, ¬AcceptedOnce (validateAll (joseOf shortLived) store
      [callAt 0, callAt 101000] .empty) := by
    intro store hOnce
    have hOrder : (callAt 0).times.again ≤ (callAt 101000).times.verify := by
      decide
    obtain ⟨hFirst, hSecond⟩ :=
      (accepted_twice_iff (joseOf shortLived) store hOrder rfl).mpr hGap
    have hRefused :=
      (List.pairwise_cons.mp hOnce).1 _ List.mem_cons_self rfl hFirst
    exact Bool.false_ne_true (hRefused.symm.trans hSecond)
  exact ⟨hTwice .inMemory, hTwice .drizzle⟩

end OpenApe.Ports.ClientAssertion
