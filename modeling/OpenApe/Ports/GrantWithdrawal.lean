import OpenApe.Ports.GrantsLifecycle
import OpenApe.Verified.Interference

/-!
# The answer of a withdrawal
(`packages/grants/src/grant-withdraw.ts`, `drizzle-grant-store.ts`)

`withdrawReferencedGrant` reads the grant of a reference key, tries to replace
its status in one conditional update and, when the update replaced nothing,
reads again.  Decisions about the grant, its use and other withdrawals take
their turns between these calls.  Two facts about the rows carry the answer
through: no call gives a row another reference key, and no call changes the
status of a withdrawn row.
-/

namespace OpenApe.Ports.GrantWithdrawal

open Verified.JsText Verified.KeyedTable Verified.Programs.Program
  Verified.Interleaving Verified.Interference
open GrantTypes GrantReference GrantStore DrizzleGrantStore Grants
  GrantsLifecycle

/-! ## The parties -/

/-- A grant operation, or the claim a program authorization makes alone. -/
inductive Party where
  | operation (operation : Operation)
  | claimOnce (grantId : JsString) (usedAt : Int)
  deriving DecidableEq

inductive Outcome where
  | answered (answer : Answer)
  | claimed (isClaimed : Bool)
  deriving DecidableEq

def Party.program : Party → GrantProgram Outcome
  | .operation op => Outcome.answered <$> op.program
  | .claimOnce grantId usedAt =>
      Outcome.claimed <$> storeCall (.claimOnce grantId usedAt)

/-- All parties at their start, over one database. -/
def meeting (parties : List Party) (w : World Database) :
    Pool grantStore JsError Outcome (World Database) :=
  ⟨parties.map Party.program, w⟩

theorem poolAsks_meeting (parties : List Party) (w : World Database) :
    PoolAsks LifecycleCall (meeting parties w) := by
  intro thread hThread
  obtain ⟨party, _, rfl⟩ := List.mem_map.mp hThread
  cases party with
  | operation op => exact asks_map (asks_operation op) Outcome.answered
  | claimOnce grantId usedAt =>
      have hClaim : Asks LifecycleCall
          (storeCall (.claimOnce grantId usedAt)) := asks_perform trivial
      exact asks_map hClaim Outcome.claimed

/-! ## What the calls keep -/

/-- The row of the grant carries the reference key. -/
def Carries (key : GrantReferenceKey) (gid : JsString) (w : World Database) :
    Prop :=
  RowIs (fun row => row.referenceKey = some key) gid w

/-- The row of the grant has the status. -/
def HasStatus (status : GrantStatus) (gid : JsString) (w : World Database) :
    Prop :=
  RowIs (fun row => row.status = status) gid w

theorem carries_of_call {key : GrantReferenceKey} {gid : JsString}
    (call : GrantStoreCall) (w : World Database) (hCall : LifecycleCall call)
    (h : Carries key gid w) : Carries key gid (drizzleStore call w).2 :=
  binding_of_call (q := fun _ referenceKey => referenceKey = some key) hCall h

/-- No status is written over a withdrawal. -/
theorem updateStatus_withdrawn {grants : GrantRows} {gid : JsString}
    {row : GrantRow} (hRow : grants.find? gid = some row)
    (hWithdrawn : row.status = .withdrawn) (id : JsString)
    (status : GrantStatus) (extra : GrantUpdate) :
    (DrizzleGrantStore.updateStatus grants id status extra).2.find? gid =
      some row := by
  rcases updateStatus_cases grants id status extra with
    ⟨error, h⟩ | ⟨existing, hExisting, hAllowed, h⟩
  · rw [h]
    exact hRow
  · rw [h]
    have hKey : existing.id = id := Table.key_of_find? hExisting
    have hOther : gid ≠ existing.id := by
      intro hSame
      rw [← hKey, ← hSame, hRow] at hExisting
      obtain rfl := Option.some.inj hExisting
      exact (guards_of_allowed hAllowed).2.1 hWithdrawn
    have hFind :
        (grants.put (updatedRow existing status extra)).find? gid =
          grants.find? gid := Table.find?_put_ne grants hOther
    exact hFind.trans hRow

/-- **A withdrawn grant stays withdrawn.** -/
theorem withdrawn_of_call {gid : JsString} (call : GrantStoreCall)
    (w : World Database) (hCall : LifecycleCall call)
    (h : HasStatus .withdrawn gid w) :
    HasStatus .withdrawn gid (drizzleStore call w).2 := by
  obtain ⟨row, hRow, hWithdrawn⟩ := h
  have hTerminal : isTerminal row.status = true := by
    rw [hWithdrawn]
    rfl
  have hExpired := find?_expirePendingRequests hRow hTerminal
  cases call with
  | findById id => exact ⟨row, hExpired, hWithdrawn⟩
  | listGrants params => exact ⟨row, hExpired, hWithdrawn⟩
  | updateStatus id status extra =>
      exact ⟨row, updateStatus_withdrawn hExpired hWithdrawn id status extra,
        hWithdrawn⟩
  | claimOnce id usedAt =>
      exact ⟨row, claimOnce_settled hRow hTerminal id usedAt, hWithdrawn⟩
  | withdraw id withdrawnAt reason =>
      exact ⟨row, withdraw_settled hRow hTerminal id withdrawnAt reason,
        hWithdrawn⟩
  | now => exact ⟨row, hRow, hWithdrawn⟩
  | createReferenced grant => exact hCall.elim
  | save grant => exact hCall.elim
  | findByRequester requester => exact hCall.elim
  | randomUUID => exact hCall.elim

/-! ## The two store calls of a withdrawal -/

/-- The reading of the grant of a reference key. -/
abbrev readOf (key : GrantReferenceKey) : GrantStoreCall :=
  .listGrants { referenceKey := some key, limit := some 1 }

/-- The rows of a reference key, as they are listed. -/
private def rowsOf (key : GrantReferenceKey) (grants : GrantRows) :
    List GrantRow :=
  (grants.rows.filter (fun row => row.referenceKey = some key)).insertionSort
    (fun a b => DrizzleGrantStore.listedBefore a b)

private theorem mem_rowsOf {key : GrantReferenceKey} {grants : GrantRows}
    {row : GrantRow} : row ∈ rowsOf key grants ↔
      row ∈ grants.rows ∧ row.referenceKey = some key := by
  simp [rowsOf, List.mem_insertionSort]

private theorem read_eq (key : GrantReferenceKey) (w : World Database) :
    (drizzleStore (readOf key) w).1 = .ok (MemoryStore.pageOf 1
      ((rowsOf key (expirePendingRequests w).store.grants).map
        rowToGrant)) := by
  have hListed : DrizzleGrantStore.listed
      { referenceKey := some key, limit := some 1 } =
        fun row => decide (row.referenceKey = some key) := by
    funext row
    simp [DrizzleGrantStore.listed, DrizzleGrantStore.requesterMatches,
      truthy]
  change DrizzleGrantStore.listGrants (expirePendingRequests w).store.grants
    { referenceKey := some key, limit := some 1 } = _
  simp only [DrizzleGrantStore.listGrants, hListed]
  rfl

/-- The reading shows a row of the key, as it is after the call. -/
theorem read_some {key : GrantReferenceKey} {w : World Database}
    {page : GrantPage} (hPage : (drizzleStore (readOf key) w).1 = .ok page)
    {grant : OpenApeGrant} (hGrant : page.data.head? = some grant) :
    RowIs (fun row => row.referenceKey = some key ∧
      row.status = grant.status) grant.id (drizzleStore (readOf key) w).2 := by
  rw [read_eq] at hPage
  obtain rfl := Except.ok.inj hPage
  have hMem : grant ∈ (rowsOf key
      (expirePendingRequests w).store.grants).map rowToGrant :=
    List.mem_of_mem_take (List.mem_of_mem_head? hGrant)
  obtain ⟨row, hRow, rfl⟩ := List.mem_map.mp hMem
  obtain ⟨hStored, hKey⟩ := mem_rowsOf.mp hRow
  exact ⟨row, Table.find?_of_mem hStored, hKey, rfl⟩

/-- The reading shows nothing only when no row has the key. -/
theorem read_none {key : GrantReferenceKey} {w : World Database}
    {page : GrantPage} (hPage : (drizzleStore (readOf key) w).1 = .ok page)
    (hNone : page.data.head? = none) :
    ∀ row ∈ (drizzleStore (readOf key) w).2.store.grants.rows,
      row.referenceKey ≠ some key := by
  rw [read_eq] at hPage
  obtain rfl := Except.ok.inj hPage
  intro row hRow hKey
  have hMem : row ∈ rowsOf key (expirePendingRequests w).store.grants :=
    mem_rowsOf.mpr ⟨hRow, hKey⟩
  obtain ⟨first, rest, hRows⟩ := List.exists_cons_of_ne_nil
    (List.ne_nil_of_mem hMem)
  simp [MemoryStore.pageOf, hRows] at hNone

/-- A call that withdrew a grant. -/
def Withdrew (event : GrantEvent) : Prop :=
  match event with
  | ⟨.withdraw _ _ _, .ok (some _), _, _⟩ => True
  | _ => False

theorem withdrew_iff {id : JsString} {withdrawnAt : Int}
    {reason : Option JsString} {w : World Database}
    {previous : Option GrantStatus}
    (hReply : (drizzleStore (.withdraw id withdrawnAt reason) w).1 =
      .ok previous) :
    Withdrew (eventOf drizzleStore (.withdraw id withdrawnAt reason) w) ↔
      previous.isSome = true := by
  rw [eventOf, hReply]
  cases previous with
  | none => exact ⟨fun h => h.elim, fun h => absurd h Bool.false_ne_true⟩
  | some previous => exact ⟨fun _ => rfl, fun _ => trivial⟩

/-- A withdrawal that answers a status has replaced it. -/
theorem withdraw_some {key : GrantReferenceKey} {gid : JsString}
    {w : World Database} {withdrawnAt : Int} {reason : Option JsString}
    {previous : GrantStatus} (hCarries : Carries key gid w)
    (hReply : (drizzleStore (.withdraw gid withdrawnAt reason) w).1 =
      .ok (some previous)) :
    HasStatus previous gid w ∧ previous ≠ .withdrawn ∧
      RowIs (fun row => row.referenceKey = some key ∧
        row.status = .withdrawn) gid
          (drizzleStore (.withdraw gid withdrawnAt reason) w).2 := by
  obtain ⟨carrier, hCarrier, hKey⟩ := hCarries
  change Except.ok (DrizzleGrantStore.withdraw w.store.grants gid withdrawnAt
    reason).1 = _ at hReply
  have hPrevious := Except.ok.inj hReply
  rcases withdraw_cases w.store.grants gid withdrawnAt reason with
    hCase | ⟨row, hRow, hOpen, hCase⟩
  · rw [hCase] at hPrevious
    cases hPrevious
  · obtain rfl : carrier = row := Option.some.inj (hCarrier.symm.trans hRow)
    rw [hCase] at hPrevious
    obtain rfl := Option.some.inj hPrevious
    have hOpenStatus : carrier.status ≠ .withdrawn := by
      rcases hOpen with h | ⟨h, _⟩ <;> rw [h] <;> decide
    refine ⟨⟨carrier, hRow, rfl⟩, hOpenStatus, ?_⟩
    refine ⟨{ carrier with
      status := .withdrawn
      decidedAt := some withdrawnAt
      withdrawReason := reason }, ?_, hKey, rfl⟩
    change (DrizzleGrantStore.withdraw w.store.grants gid withdrawnAt
      reason).2.find? gid = _
    rw [hCase]
    obtain rfl : carrier.id = gid := Table.key_of_find? hRow
    exact Table.find?_put_self w.store.grants
      { carrier with
        status := .withdrawn
        decidedAt := some withdrawnAt
        withdrawReason := reason }

/-! ## The answer -/

/-- The status an answer reports, and of which grant. -/
def reported : GrantWithdrawResult → Option (JsString × GrantStatus)
  | .unknown => none
  | .withdrawn gid _ => some (gid, .withdrawn)
  | .alreadyDecided gid status => some (gid, status)

/-- What an answer says of the calls the withdrawal made and of the state it
left behind. -/
structure Truthful (key : GrantReferenceKey) (own : List GrantEvent)
    (w : World Database) (result : GrantWithdrawResult) : Prop where
  /-- The grant had the reported status when the withdrawal made its last
  call, which is the conditional update or a later one. -/
  had : ∀ gid status, reported result = some (gid, status) →
    ∃ event, own.getLast? = some event ∧
      RowIs (fun row => row.referenceKey = some key ∧ row.status = status)
        gid event.after
  forGood : ∀ gid, reported result = some (gid, .withdrawn) →
    HasStatus .withdrawn gid w
  replaced : ∀ gid previous, result = .withdrawn gid previous →
    previous ≠ .withdrawn →
      ∃ event ∈ own, Withdrew event ∧ HasStatus previous gid event.before ∧
        HasStatus .withdrawn gid event.after
  untouched : (∀ gid previous, result = .withdrawn gid previous →
    previous = .withdrawn) → ∀ event ∈ own, ¬Withdrew event
  absent : result = .unknown → ∃ event, own.getLast? = some event ∧
    ∀ row ∈ event.after.store.grants.rows, row.referenceKey ≠ some key

theorem rowIs_mono {p q : GrantRow → Prop} {gid : JsString}
    {w : World Database} (hImp : ∀ row, p row → q row) (h : RowIs p gid w) :
    RowIs q gid w := by
  obtain ⟨row, hRow, hp⟩ := h
  exact ⟨row, hRow, hImp row hp⟩

abbrev Follows (key : GrantReferenceKey) :
    GrantProgram GrantWithdrawResult → List GrantEvent → World Database →
      Prop :=
  Amid drizzleStore LifecycleCall (Truthful key)

/-- A reading withdraws nothing. -/
theorem not_withdrew_read (key : GrantReferenceKey) (w : World Database) :
    ¬Withdrew (eventOf drizzleStore (readOf key) w) := id

section Settled

variable {key : GrantReferenceKey} {gid : JsString} {own : List GrantEvent}
  {last : GrantEvent}

/-- A grant that was read as withdrawn stays withdrawn. -/
theorem follows_withdrawn (hOwn : ∀ event ∈ own, ¬Withdrew event)
    (hLast : own.getLast? = some last)
    (hRow : RowIs (fun row => row.referenceKey = some key ∧
      row.status = .withdrawn) gid last.after) :
    Follows key (pure (.withdrawn gid .withdrawn)) own last.after := by
  refine amid_pure fun w' hLater => ?_
  have hNow : HasStatus .withdrawn gid last.after :=
    rowIs_mono (fun _ h => h.2) hRow
  constructor
  · intro _ _ hReported
    cases hReported
    exact ⟨last, hLast, hRow⟩
  · intro _ hReported
    cases hReported
    exact hLater.keeps withdrawn_of_call hNow
  · intro _ _ hResult hPrevious
    cases hResult
    exact absurd rfl hPrevious
  · exact fun _ => hOwn
  · intro hResult
    cases hResult

/-- The status of a grant that another decision settled. -/
theorem follows_decided (hOwn : ∀ event ∈ own, ¬Withdrew event)
    (hLast : own.getLast? = some last) {status : GrantStatus}
    (hStatus : status ≠ .withdrawn)
    (hRow : RowIs (fun row => row.referenceKey = some key ∧
      row.status = status) gid last.after) :
    Follows key (pure (.alreadyDecided gid status)) own last.after := by
  refine amid_pure fun w' _ => ?_
  constructor
  · intro _ _ hReported
    cases hReported
    exact ⟨last, hLast, hRow⟩
  · intro _ hReported
    cases hReported
    exact absurd rfl hStatus
  · intro _ _ hResult
    cases hResult
  · exact fun _ => hOwn
  · intro hResult
    cases hResult

/-- The status that the withdrawal itself replaced. -/
theorem follows_replaced {previous : GrantStatus} (hTried : Withdrew last)
    (hBefore : HasStatus previous gid last.before)
    (hOpen : previous ≠ .withdrawn)
    (hRow : RowIs (fun row => row.referenceKey = some key ∧
      row.status = .withdrawn) gid last.after) :
    Follows key (pure (.withdrawn gid previous)) (own ++ [last])
      last.after := by
  refine amid_pure fun w' hLater => ?_
  have hNow : HasStatus .withdrawn gid last.after :=
    rowIs_mono (fun _ h => h.2) hRow
  constructor
  · intro _ _ hReported
    cases hReported
    exact ⟨last, List.getLast?_concat, hRow⟩
  · intro _ hReported
    cases hReported
    exact hLater.keeps withdrawn_of_call hNow
  · intro _ _ hResult _
    cases hResult
    exact ⟨last, List.mem_append_right own List.mem_cons_self, hTried,
      hBefore, hNow⟩
  · intro hNever
    exact absurd (hNever gid previous rfl) hOpen
  · intro hResult
    cases hResult

/-- No grant has the key. -/
theorem follows_unknown (hRead : ¬Withdrew last)
    (hAbsent : ∀ row ∈ last.after.store.grants.rows,
      row.referenceKey ≠ some key) :
    Follows key (pure .unknown) [last] last.after := by
  refine amid_pure fun w' _ => ?_
  constructor
  · intro _ _ hReported
    cases hReported
  · intro _ hReported
    cases hReported
  · intro _ _ hResult
    cases hResult
  · intro _ event hEvent
    rwa [List.mem_singleton.mp hEvent]
  · exact fun _ => ⟨last, rfl, hAbsent⟩

/-- The answer after the second reading. -/
theorem follows_settledResult {grant : OpenApeGrant}
    (hOwn : ∀ event ∈ own, ¬Withdrew event)
    (hLast : own.getLast? = some last)
    (hRow : RowIs (fun row => row.referenceKey = some key ∧
      row.status = grant.status) grant.id last.after) :
    Follows key (settledResult grant) own last.after := by
  unfold settledResult
  cases hStatus : grant.status with
  | withdrawn => exact follows_withdrawn hOwn hLast (hStatus ▸ hRow)
  | denied => exact follows_decided hOwn hLast (by decide) (hStatus ▸ hRow)
  | revoked => exact follows_decided hOwn hLast (by decide) (hStatus ▸ hRow)
  | expired => exact follows_decided hOwn hLast (by decide) (hStatus ▸ hRow)
  | used => exact follows_decided hOwn hLast (by decide) (hStatus ▸ hRow)
  | pending => trivial
  | approved => trivial

end Settled

/-! ## The run of a withdrawal -/

section Steps

variable {key : GrantReferenceKey} {own : List GrantEvent}
  {w : World Database}

theorem not_withdrew_concat {last : GrantEvent}
    (hOwn : ∀ event ∈ own, ¬Withdrew event) (hLast : ¬Withdrew last) :
    ∀ event ∈ own ++ [last], ¬Withdrew event := by
  intro event hEvent
  rcases List.mem_append.mp hEvent with hOld | hNew
  · exact hOwn event hOld
  · rwa [List.mem_singleton.mp hNew]

/-- Reading the grant of the key, and going on. -/
theorem follows_findReferenced
    {f : Option OpenApeGrant → GrantProgram GrantWithdrawResult}
    (hSome : ∀ last grant, ¬Withdrew last →
      RowIs (fun row => row.referenceKey = some key ∧
        row.status = grant.status) grant.id last.after →
      Follows key (f (some grant)) (own ++ [last]) last.after)
    (hNone : ∀ last, ¬Withdrew last →
      (∀ row ∈ last.after.store.grants.rows, row.referenceKey ≠ some key) →
      Follows key (f none) (own ++ [last]) last.after) :
    Follows key (findReferenced key >>= f) own w := by
  refine amid_bind (amid_perform_bind fun w' page _ hPage => ?_)
  refine amid_pure fun w'' hLater => ?_
  have hRead := not_withdrew_read key w'
  cases hHead : page.data.head? with
  | none => exact (hNone _ hRead (read_none hPage hHead)).later hLater
  | some grant =>
      exact (hSome _ grant hRead (read_some hPage hHead)).later hLater

/-- Trying to withdraw the grant, and going on. -/
theorem follows_withdrawOpen {grant : OpenApeGrant}
    {reason : Option JsString}
    {f : Option GrantStatus → GrantProgram GrantWithdrawResult}
    (hOwn : ∀ event ∈ own, ¬Withdrew event)
    (hCarries : Carries key grant.id w)
    (hSome : ∀ front tried previous, Withdrew tried →
      HasStatus previous grant.id tried.before → previous ≠ .withdrawn →
      RowIs (fun row => row.referenceKey = some key ∧
        row.status = .withdrawn) grant.id tried.after →
      Follows key (f (some previous)) (front ++ [tried]) tried.after)
    (hNone : ∀ own' w', (∀ event ∈ own', ¬Withdrew event) →
      Follows key (f none) own' w') :
    Follows key (withdrawOpen grant reason >>= f) own w := by
  unfold withdrawOpen
  split
  · refine amid_bind (amid_perform_bind fun w₁ now hLater₁ _ => ?_)
    refine @amid_perform grantStore JsError _ drizzleStore LifecycleCall
      (.withdraw grant.id now reason) _ _ _
      fun w₂ w₃ previous hLater₂ hReply hLater₃ => ?_
    have hBefore : ∀ event ∈ own ++ [eventOf drizzleStore .now w₁],
        ¬Withdrew event := not_withdrew_concat hOwn id
    have hCarries₂ : Carries key grant.id w₂ :=
      hLater₂.keeps carries_of_call
        (carries_of_call .now w₁ trivial
          (hLater₁.keeps carries_of_call hCarries))
    cases previous with
    | none =>
        refine hNone _ w₃ (not_withdrew_concat hBefore fun hWithdrew => ?_)
        exact absurd ((withdrew_iff hReply).mp hWithdrew)
          Bool.false_ne_true
    | some previous =>
        obtain ⟨hStatus, hOpen, hRow⟩ := withdraw_some hCarries₂ hReply
        exact (hSome _ _ previous ((withdrew_iff hReply).mpr rfl) hStatus
          hOpen hRow).later hLater₃
  · exact hNone own w hOwn

end Steps

/-- **One withdrawal among other calls** answers what happened. -/
theorem follows_withdrawReferencedGrant (key : GrantReferenceKey)
    (reason : Option JsString) (w : World Database) :
    Follows key (withdrawReferencedGrant {} key reason) [] w := by
  refine amid_throwIf_bind fun _ => ?_
  refine follows_findReferenced (fun last grant hRead hRow => ?_)
    (fun last hRead hAbsent => ?_)
  · refine follows_withdrawOpen
      (not_withdrew_concat (fun _ h => absurd h List.not_mem_nil) hRead)
      (rowIs_mono (fun _ h => h.1) hRow) ?_ ?_
    · intro front tried previous hTried hBefore hOpen hAfter
      exact follows_replaced hTried hBefore hOpen hAfter
    · intro own' w' hOwn
      refine follows_findReferenced (fun last grant hRead hRow => ?_)
        (fun last _ _ => trivial)
      exact follows_settledResult (not_withdrew_concat hOwn hRead)
        List.getLast?_concat hRow
  · exact follows_unknown hRead hAbsent

/-- What an answer says stays true whatever the others do next. -/
theorem Truthful.later {key : GrantReferenceKey} {own : List GrantEvent}
    {w w' : World Database} {result : GrantWithdrawResult}
    (h : Truthful key own w result)
    (hLater : Later drizzleStore LifecycleCall w w') :
    Truthful key own w' result :=
  { h with
    forGood := fun gid hReported =>
      hLater.keeps withdrawn_of_call (h.forGood gid hReported) }

/-- What an outcome says where it is the answer of a withdrawal. -/
def outcomeTruthful (key : GrantReferenceKey) (own : List GrantEvent)
    (w : World Database) : Outcome → Prop
  | .answered (.withdrawal result) => Truthful key own w result
  | _ => True

/-- **A withdrawal answers what happened**: whatever the other parties are,
however the store calls interleave and whatever the clock reads, the answer
is true of the calls that the withdrawal made, and stays true in every
continuation of the run. -/
theorem withdrawReferencedGrant_truthful (parties : List Party)
    (w : World Database) (i : Nat) (referenceKey : GrantReferenceKey)
    (reason : Option JsString)
    (hParty : parties[i]? =
      some (.operation (.withdraw referenceKey reason)))
    (schedule : List Nat) (result : GrantWithdrawResult)
    (hAnswer : (run drizzleStore schedule (meeting parties w)).threads[i]? =
      some (.done (.answered (.withdrawal result))))
    (later : List Nat) :
    Truthful referenceKey
      (traceOf drizzleStore i schedule (meeting parties w))
      (run drizzleStore (schedule ++ later) (meeting parties w)).state
      result := by
  have hPool := poolAsks_meeting parties w
  have hThread : (meeting parties w).threads[i]? =
      some (Party.program (.operation (.withdraw referenceKey reason))) := by
    simp only [meeting, List.getElem?_map, hParty, Option.map_some]
  have hFollows : Amid drizzleStore LifecycleCall (outcomeTruthful referenceKey)
      (Party.program (.operation (.withdraw referenceKey reason))) []
      (meeting parties w).state :=
    amid_map (amid_map
      (follows_withdrawReferencedGrant referenceKey reason w))
  have hTrue : Truthful referenceKey _ _ result :=
    post_of_done hPool hThread hFollows hAnswer
  rw [run_append]
  exact hTrue.later (later_run (poolAsks_run schedule hPool) later)

/-- A pending request with a reference. -/
def referencedRow : GrantRow :=
  grantToRow
    { id := js "g", status := .pending, createdAt := 0
      request :=
        { requester := js "a@x", targetHost := js "h", audience := js "x",
          grantType := some .once, reference := some (js "r") } }

def referencedKey : GrantReferenceKey :=
  grantReferenceKey (js "a@x") (js "r") none

def oneReferenced : World Database where
  store := { grants := Table.empty.put referencedRow
             connections := Table.empty }
  clock := fun _ => 1
  uuids := fun _ => []

/-- The request is withdrawn while it is being approved. -/
theorem withdrawReferencedGrant_truthful_racing :
    Truthful referencedKey
      (traceOf drizzleStore 0 [1, 0, 0, 1, 0]
        (meeting [.operation (.withdraw referencedKey none),
          .operation (.approve (js "g") (js "o@x") none)] oneReferenced))
      (run drizzleStore ([1, 0, 0, 1, 0] ++ [1, 1])
        (meeting [.operation (.withdraw referencedKey none),
          .operation (.approve (js "g") (js "o@x") none)] oneReferenced)).state
      (.withdrawn (js "g") .pending) :=
  withdrawReferencedGrant_truthful _ _ 0 referencedKey none rfl
    [1, 0, 0, 1, 0] _ rfl [1, 1]

end OpenApe.Ports.GrantWithdrawal
