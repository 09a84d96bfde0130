import OpenApe.Ports.TokenExchange
import OpenApe.Verified.Interleaving

/-!
# Single use of authorization codes

An exchange finds the code, awaits the PKCE digest and only then deletes the
code.  A second exchange that finds the code in between goes the same way, so
both return tokens.  A thread is `Waiting` until it has found the code live
and `Holding` from then on until it deletes it; the monitor `watchCode`
follows a run and stops where a second exchange finds a code that is held.
In every run it accepts, at most one exchange returns.
-/

namespace OpenApe.Ports.CodeSingleUse

open Verified.JsText Verified.KeyedTable Verified.Programs.Program
  Verified.Interleaving
open GrantTypes TokenExchange

abbrev ExchangeThread := TokenProgram TokenExchangeResult

abbrev ExchangePool :=
  Pool tokenServices JsError TokenExchangeResult TokenWorld

abbrev TokenEvent := Event tokenServices JsError TokenWorld

/-! ## Events -/

/-- The reply of a select that found the row before its end. -/
def liveRow (reply : Except JsError (Option CodeEntry × Int)) : Bool :=
  match reply with
  | .ok (some row, now) => !decide (row.expiresAt < now)
  | _ => false

/-- A call and its reply: the code was found live. -/
def foundLive (code : JsString) (call : TokenCall)
    (reply : Except JsError call.Reply) : Bool :=
  match call, reply with
  | .selectCode selected, reply => selected == code && liveRow reply
  | _, _ => false

/-- The call deletes the code. -/
def deletesCode (code : JsString) (call : TokenCall) : Bool :=
  match call with
  | .deleteCode deleted => deleted == code
  | _ => false

/-- Follows whether the code is held: found live and not deleted since.  A
run stops being accepted when a held code is found live again. -/
def watchCode (code : JsString) (held : Bool) (event : TokenEvent) :
    Option Bool :=
  if foundLive code event.call event.reply then
    if held then none else some true
  else if deletesCode code event.call then some false
  else some held

/-- No exchange finds the code live between the moment another found it and
the deletion that follows. -/
def NoOverlap (code : JsString) (events : List TokenEvent) : Prop :=
  Accepts (watchCode code) false events

instance (code : JsString) (events : List TokenEvent) :
    Decidable (NoOverlap code events) :=
  inferInstanceAs (Decidable (Accepts _ _ _))

/-! ## Threads -/

/-- The thread has found the code live: it returns only after it has deleted
the code. -/
def Holding (code : JsString) : ExchangeThread → Prop
  | .done _ => False
  | .fail _ => True
  | .ask call next =>
      (∀ reply, foundLive code call reply = false) ∧
        (deletesCode code call = false → ∀ reply, Holding code (next reply))

/-- The thread has not found the code live: it returns only after it has. -/
def Waiting (code : JsString) : ExchangeThread → Prop
  | .done _ => False
  | .fail _ => True
  | .ask call next => ∀ reply,
      (foundLive code call reply = true → Holding code (next reply)) ∧
        (foundLive code call reply = false → Waiting code (next reply))

private theorem holding_throwIf {code : JsString} (condition : Bool)
    (error : JsError) {f : Unit → ExchangeThread} (h : Holding code (f ())) :
    Holding code (throwIf condition error >>= f) := by
  rw [throwIf_bind]
  split
  · trivial
  · exact h

theorem holding_redeem (options : ExchangeOptions)
    (params : TokenExchangeParams) (codeEntry : CodeEntry) :
    Holding params.code (redeem options params codeEntry) := by
  unfold redeem tokenCall
  refine holding_throwIf _ _ (holding_throwIf _ _ ?_)
  rw [perform_bind]
  refine ⟨fun _ => rfl, fun _ reply => ?_⟩
  cases reply with
  | error error => trivial
  | ok computed =>
      refine holding_throwIf _ _ ?_
      rw [perform_bind]
      refine ⟨fun _ => rfl, fun hDelete => ?_⟩
      simp [deletesCode] at hDelete

/-- An exchange waits at its start: it acts on what its find returns. -/
theorem waiting_handleTokenExchange (options : ExchangeOptions)
    (params : TokenExchangeParams) :
    Waiting params.code (handleTokenExchange options params) := by
  unfold handleTokenExchange
  rw [throwIf_bind]
  split
  · trivial
  rw [findCode, tokenCall, bind_assoc, perform_bind]
  intro reply
  rcases reply with error | ⟨row, now⟩
  · exact ⟨fun hLive => by simp [foundLive, liveRow] at hLive,
      fun _ => trivial⟩
  cases row with
  | none =>
      exact ⟨fun hLive => by simp [foundLive, liveRow] at hLive,
        fun _ => trivial⟩
  | some row =>
      dsimp only
      split
      · rename_i hExpired
        refine ⟨fun hLive => ?_, fun _ => ?_⟩
        · simp [foundLive, liveRow, hExpired] at hLive
        · rw [tokenCall, bind_assoc, perform_bind]
          intro reply
          refine ⟨fun hLive => by simp [foundLive] at hLive, fun _ => ?_⟩
          cases reply <;> trivial
      · rename_i hExpired
        refine ⟨fun _ => holding_redeem options params row, fun hLive => ?_⟩
        simp [foundLive, liveRow, hExpired] at hLive

/-! ## The table -/

/-- Nothing inserts a code: once it is gone it stays gone. -/
theorem find?_tokenHandler_of_none (answers : TokenAnswers)
    (call : TokenCall) {w : TokenWorld} {code : JsString}
    (h : w.codes.find? code = none) :
    (tokenHandler answers call w).2.codes.find? code = none := by
  cases call with
  | deleteCode deleted => exact Table.find?_remove_of_none h deleted
  | selectCode _ | generateCodeChallenge _ | resolveUserClaims _ _
  | getSigningKey | signJWT _ _ | createRefreshToken _ _ => exact h

theorem find?_tokenHandler_of_deletes (answers : TokenAnswers)
    {call : TokenCall} (w : TokenWorld) {code : JsString}
    (h : deletesCode code call = true) :
    (tokenHandler answers call w).2.codes.find? code = none := by
  cases call with
  | deleteCode deleted =>
      have hSame : deleted = code := by simpa [deletesCode] using h
      subst hSame
      exact Table.find?_remove_self w.codes deleted
  | selectCode _ | generateCodeChallenge _ | resolveUserClaims _ _
  | getSigningKey | signJWT _ _ | createRefreshToken _ _ => cases h

/-- A code that is found live is in the table. -/
theorem find?_ne_none_of_foundLive {answers : TokenAnswers}
    {call : TokenCall} {w : TokenWorld} {code : JsString}
    (h : foundLive code call (tokenHandler answers call w).1 = true) :
    w.codes.find? code ≠ none := by
  cases call with
  | selectCode selected =>
      obtain ⟨hCode, hLive⟩ : selected = code ∧ liveRow
          (.ok (w.codes.find? selected, answers.now w.moment)) = true := by
        simpa [foundLive, tokenHandler] using h
      subst hCode
      intro hNone
      simp [liveRow, hNone] at hLive
  | deleteCode _ | generateCodeChallenge _ | resolveUserClaims _ _
  | getSigningKey | signJWT _ _ | createRefreshToken _ _ => cases h

/-! ## The invariant of a run -/

/-- All threads but the one at `i` wait; and the code is gone, or nobody has
found it, or the thread at `i` holds it. -/
def Exclusive (code : JsString) (i : Nat) (held : Bool)
    (pool : ExchangePool) : Prop :=
  (∀ (j : Nat) (thread : ExchangeThread), j ≠ i →
    pool.threads[j]? = some thread → Waiting code thread) ∧
  (pool.state.codes.find? code = none ∨
    (held = false ∧ ∀ thread, pool.threads[i]? = some thread →
      Waiting code thread) ∨
    (held = true ∧ ∀ thread, pool.threads[i]? = some thread →
      Holding code thread))

/-- The three kinds of events a monitored run has. -/
theorem watchCode_cases {code : JsString} {held held' : Bool}
    {event : TokenEvent} (h : watchCode code held event = some held') :
    (foundLive code event.call event.reply = true ∧ held = false ∧
        held' = true) ∨
      (foundLive code event.call event.reply = false ∧
        (deletesCode code event.call = true ∨
          (deletesCode code event.call = false ∧ held' = held))) := by
  unfold watchCode at h
  split at h
  · rename_i hLive
    split at h
    · cases h
    · exact .inl ⟨hLive, by simp_all, (Option.some.inj h).symm⟩
  · rename_i hLive
    refine .inr ⟨by simpa using hLive, ?_⟩
    split at h
    · exact .inl (by assumption)
    · rename_i hDeletes
      exact .inr ⟨by simpa using hDeletes, (Option.some.inj h).symm⟩

/-- **One turn** keeps the invariant, perhaps with another thread. -/
theorem exclusive_turn (answers : TokenAnswers) {code : JsString} {i : Nat}
    {held held' : Bool} {pool : ExchangePool} {k : Nat} {call : TokenCall}
    {next : Except JsError call.Reply → ExchangeThread}
    (hThread : pool.threads[k]? = some (.ask call next))
    (hWatch : watchCode code held
      (eventOf (tokenHandler answers) call pool.state) = some held')
    (hInv : Exclusive code i held pool) :
    ∃ i', Exclusive code i' held'
      ⟨pool.threads.set k (next (tokenHandler answers call pool.state).1),
        (tokenHandler answers call pool.state).2⟩ := by
  obtain ⟨hOthers, hState⟩ := hInv
  rcases watchCode_cases hWatch with ⟨hLive, hFree, hHeld⟩ |
    ⟨hNotLive, hRest⟩
  · -- Nobody held the code, and this thread holds it now.
    have hAll : ∀ thread, pool.threads[i]? = some thread →
        Waiting code thread := by
      rcases hState with hNone | ⟨_, hWaiting⟩ | ⟨hTaken, _⟩
      · exact absurd hNone (find?_ne_none_of_foundLive hLive)
      · exact hWaiting
      · rw [hFree] at hTaken
        cases hTaken
    have hEvery : ∀ (j : Nat) (thread : ExchangeThread),
        pool.threads[j]? = some thread → Waiting code thread := by
      intro j thread hGet
      by_cases hj : j = i
      · exact hAll thread (hj ▸ hGet)
      · exact hOthers j thread hj hGet
    refine ⟨k, fun j thread hj hGet => ?_,
      .inr (.inr ⟨hHeld, fun thread hGet => ?_⟩)⟩
    · rcases getElem?_set_cases hGet with ⟨hSame, _⟩ | ⟨_, hGet⟩
      · exact absurd hSame hj
      · exact hEvery j thread hGet
    · rcases getElem?_set_cases hGet with ⟨_, rfl⟩ | ⟨hNe, _⟩
      · exact (hEvery k _ hThread _).1 hLive
      · exact absurd rfl hNe
  · refine ⟨i, fun j thread hj hGet => ?_, ?_⟩
    · rcases getElem?_set_cases hGet with ⟨rfl, rfl⟩ | ⟨_, hGet⟩
      · exact (hOthers j _ hj hThread _).2 hNotLive
      · exact hOthers j thread hj hGet
    · rcases hRest with hDeletes | ⟨hKeeps, hSame⟩
      · exact .inl (find?_tokenHandler_of_deletes answers _ hDeletes)
      · subst hSame
        rcases hState with hNone | ⟨hHeld, hWaiting⟩ | ⟨hHeld, hHolding⟩
        · exact .inl (find?_tokenHandler_of_none answers call hNone)
        · refine .inr (.inl ⟨hHeld, fun thread hGet => ?_⟩)
          rcases getElem?_set_cases hGet with ⟨rfl, rfl⟩ | ⟨_, hGet⟩
          · exact (hWaiting _ hThread _).2 hNotLive
          · exact hWaiting thread hGet
        · refine .inr (.inr ⟨hHeld, fun thread hGet => ?_⟩)
          rcases getElem?_set_cases hGet with ⟨rfl, rfl⟩ | ⟨_, hGet⟩
          · exact (hHolding _ hThread).2 hKeeps _
          · exact hHolding thread hGet

/-! ## The guarantee -/

/-- The exchanges of a list of requests, all at their start. -/
def exchanging (options : ExchangeOptions)
    (requests : List TokenExchangeParams) (w : TokenWorld) : ExchangePool :=
  ⟨requests.map (handleTokenExchange options), w⟩

/-- At most one exchange of the pool has returned tokens. -/
def AtMostOneReturned (pool : ExchangePool) : Prop :=
  ∀ (i j : Nat) (result result' : TokenExchangeResult),
    pool.threads[i]? = some (done result) →
    pool.threads[j]? = some (done result') → i = j

/-- **A code is exchanged at most once** in every interleaving of exchanges
of it in which no exchange finds the code live after another has and before
it is deleted. -/
theorem code_exchanged_once (answers : TokenAnswers)
    (options : ExchangeOptions) (code : JsString)
    (requests : List TokenExchangeParams)
    (hCode : ∀ params ∈ requests, params.code = code) (w : TokenWorld)
    (schedule : List Nat)
    (hOverlap : NoOverlap code (trace (tokenHandler answers) schedule
      (exchanging options requests w))) :
    AtMostOneReturned (run (tokenHandler answers) schedule
      (exchanging options requests w)) := by
  have hStart : ∀ (j : Nat) (thread : ExchangeThread),
      (exchanging options requests w).threads[j]? = some thread →
      Waiting code thread := by
    intro j thread hGet
    obtain ⟨params, hParams, rfl⟩ :=
      List.mem_map.mp (List.mem_of_getElem? hGet)
    exact hCode params hParams ▸ waiting_handleTokenExchange options params
  obtain ⟨_, i, hOthers, _⟩ := run_monitored (watchCode code)
    (fun held pool => ∃ i, Exclusive code i held pool)
    (fun _ _ _ _ _ _ hThread hWatch hInv => by
      obtain ⟨i, hInv⟩ := hInv
      exact exclusive_turn answers hThread hWatch hInv)
    hOverlap
    ⟨0, fun j thread _ => hStart j thread,
      .inr (.inl ⟨rfl, fun thread => hStart 0 thread⟩)⟩
  have hOnly : ∀ (j : Nat) (result : TokenExchangeResult), (run (tokenHandler answers) schedule
      (exchanging options requests w)).threads[j]? = some (done result) →
      j = i := by
    intro j result hGet
    by_contra hNe
    exact hOthers j _ hNe hGet
  intro j j' result result' hGet hGet'
  rw [hOnly j result hGet, hOnly j' result' hGet']

/-! ## Two exchanges of one code -/

/-- Services that answer every call, at the millisecond 0. -/
def quietAnswers : TokenAnswers where
  now _ := 0
  randomUUID _ := js "jti"
  generateCodeChallenge verifier := verifier
  resolveUserClaims _ _ _ := .ok {}
  getSigningKey _ := .ok ⟨js "kid", js "key"⟩
  signJWT _ _ _ := .ok (js "assertion")
  createRefreshToken _ _ _ := .ok (js "refresh")

/-- A code of the client `app`, whose PKCE challenge is its verifier. -/
def issuedCode : CodeEntry where
  code := js "c"
  clientId := js "app"
  redirectUri := js "https://app.example"
  codeChallenge := js "v"
  userId := js "u@example.com"
  expiresAt := 600000

def rightParams : TokenExchangeParams where
  grantType := js "authorization_code"
  code := js "c"
  codeVerifier := js "v"
  redirectUri := js "https://app.example"
  clientId := js "app"

/-- Two exchanges of the code that was issued. -/
def twoExchanges : ExchangePool :=
  exchanging { issuer := js "https://idp.example" }
    [rightParams, rightParams] ⟨⟨[issuedCode], by simp⟩, 0⟩

/-- The theorem at work: the second exchange starts when the first is
done. -/
theorem code_exchanged_once_sequential :
    AtMostOneReturned (run (tokenHandler quietAnswers)
      [0, 0, 0, 0, 0, 0, 1] twoExchanges) :=
  code_exchanged_once quietAnswers _ (js "c") [rightParams, rightParams]
    (by
      intro params hParams
      simp only [List.mem_cons, List.not_mem_nil, or_false, or_self]
        at hParams
      rw [hParams]
      rfl)
    _ _ (by decide)

/-- Both exchanges find the code before either deletes it, and both
return. -/
theorem not_atMostOneReturned_overlap :
    ¬AtMostOneReturned (run (tokenHandler quietAnswers)
      [0, 1, 0, 1, 0, 1, 0, 0, 0, 1, 1, 1] twoExchanges) := by
  intro h
  have hBoth : ∃ result result', (run (tokenHandler quietAnswers)
      [0, 1, 0, 1, 0, 1, 0, 0, 0, 1, 1, 1] twoExchanges).threads =
      [done result, done result'] := ⟨_, _, rfl⟩
  obtain ⟨result, result', hThreads⟩ := hBoth
  have hSame := h 0 1 result result' (by rw [hThreads]; rfl)
    (by rw [hThreads]; rfl)
  exact absurd hSame (by decide)

end OpenApe.Ports.CodeSingleUse
