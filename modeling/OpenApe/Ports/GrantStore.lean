import OpenApe.Ports.GrantReference
import OpenApe.Verified.KeyedTable
import OpenApe.Verified.Programs

/-!
# The grant store (`packages/grants/src/stores.ts`, `grant-cursor.ts`)

The calls of a `GrantStore`, together with the two readings of the runtime
that grant functions make: the clock in seconds and a random id.  A program
over this interface is a grant function; a store is a handler of it.

`memoryStore` is the handler of `InMemoryGrantStore`.  Every row it returns
is a copy, so a grant value here never aliases the store.
-/

namespace OpenApe.Ports.GrantStore

open Verified.JsText Verified.KeyedTable Verified.Programs
open GrantTypes GrantReference

/-! ## The interface -/

/-- The part of `Partial<OpenApeGrant>` that updates carry. -/
structure GrantUpdate where
  request : Option OpenApeGrantRequest := none
  decidedBy : Option JsString := none
  decidedAt : Option Int := none
  expiresAt : Option Int := none
  usedAt : Option Int := none
  decidedByStandingGrant : Option JsString := none
  autoApprovalKind : Option JsString := none
  deriving DecidableEq

/-- `requester?: string | string[]` -/
inductive RequesterParam where
  | one (requester : JsString)
  | many (requesters : List JsString)
  deriving DecidableEq

structure GrantListParams where
  limit : Option Int := none
  cursor : Option JsString := none
  brokerOwner : Option (Option JsString) := none
  requesterFilter : Option JsString := none
  batch : Option JsString := none
  reference : Option JsString := none
  referenceKey : Option GrantReferenceKey := none
  status : Option GrantStatus := none
  excludeStatus : Option GrantStatus := none
  requester : Option RequesterParam := none
  deriving DecidableEq

structure GrantPage where
  data : List OpenApeGrant
  cursor : Option JsString
  hasMore : Bool
  deriving DecidableEq

inductive GrantStoreCall where
  | createReferenced (grant : OpenApeGrant)
  | save (grant : OpenApeGrant)
  | findById (id : JsString)
  | updateStatus (id : JsString) (status : GrantStatus) (extra : GrantUpdate)
  | findByRequester (requester : JsString)
  | listGrants (params : GrantListParams)
  | claimOnce (id : JsString) (usedAt : Int)
  | withdraw (id : JsString) (withdrawnAt : Int) (reason : Option JsString)
  | now
  | randomUUID
  deriving DecidableEq

/-- What each call answers. -/
@[reducible] def GrantStoreCall.Reply : GrantStoreCall → Type
  | createReferenced _ => OpenApeGrant × Bool
  | save _ => Unit
  | findById _ => Option OpenApeGrant
  | updateStatus _ _ _ => Unit
  | findByRequester _ => List OpenApeGrant
  | listGrants _ => GrantPage
  | claimOnce _ _ => Bool
  | withdraw _ _ _ => Option GrantStatus
  | now => Int
  | randomUUID => JsString

@[reducible] def grantStore : Interface :=
  ⟨GrantStoreCall, GrantStoreCall.Reply⟩

/-- A function that works on a grant store. -/
abbrev GrantProgram := Program grantStore JsError

/-- The optional methods a store implements. -/
structure GrantStoreMethods where
  createReferenced : Bool := true
  claimOnce : Bool := true
  withdraw : Bool := true
  deriving DecidableEq

/-- A store and what the runtime will answer: the clock readings and the
random ids to come, in order. -/
structure World (σ : Type) where
  store : σ
  clock : Nat → Int
  uuids : Nat → JsString

namespace World

variable {σ : Type}

/-- The next clock reading. -/
def now (w : World σ) : Int := w.clock 0

/-- The world after a clock reading. -/
def tick (w : World σ) : World σ :=
  { w with clock := fun n => w.clock (n + 1) }

def setStore (w : World σ) (store : σ) : World σ := { w with store := store }

@[simp] theorem tick_store (w : World σ) : w.tick.store = w.store := rfl

@[simp] theorem setStore_store (w : World σ) (store : σ) :
    (w.setStore store).store = store := rfl

@[simp] theorem setStore_now (w : World σ) (store : σ) :
    (w.setStore store).now = w.now := rfl

end World

/-! ## Cursors -/

def isDigit (u : CodeUnit) : Bool := 0x30 ≤ u && u ≤ 0x39

def digitsValue (digits : JsString) : Nat :=
  digits.foldl (fun n d => 10 * n + (d.toNat - 0x30)) 0

structure GrantCursor where
  createdAt : Int
  id : Option JsString
  deriving DecidableEq

/-- Reads `/^(\d+)(?::(.{1,256}))?$/`; the number must be a safe integer. -/
def parseGrantCursor (cursor : JsString) : Except JsError GrantCursor :=
  let digits := cursor.takeWhile isDigit
  let rest := cursor.dropWhile isDigit
  let invalid := Except.error (plainError (js "Invalid grant cursor"))
  if digits.isEmpty || 2 ^ 53 - 1 < digitsValue digits then invalid
  else match rest with
    | [] => .ok ⟨digitsValue digits, none⟩
    | colon :: id =>
        if colon = unit ':' && !id.isEmpty && id.length ≤ 256 &&
            !id.any isLineTerminator
        then .ok ⟨digitsValue digits, some id⟩
        else invalid

def grantCursor (grant : OpenApeGrant) : JsString :=
  js (toString grant.createdAt) ++ js ":" ++ grant.id

/-! ## The in-memory store -/

/-- The grants of `InMemoryGrantStore`, in insertion order. -/
abbrev GrantTable := Table OpenApeGrant.id

/-- `{ ...grant, status, ...extra }` -/
def withUpdate (grant : OpenApeGrant) (status : GrantStatus)
    (extra : GrantUpdate) : OpenApeGrant :=
  { grant with
    status := status
    request := extra.request.getD grant.request
    decidedBy := extra.decidedBy <|> grant.decidedBy
    decidedAt := extra.decidedAt <|> grant.decidedAt
    expiresAt := extra.expiresAt <|> grant.expiresAt
    usedAt := extra.usedAt <|> grant.usedAt
    decidedByStandingGrant :=
      extra.decidedByStandingGrant <|> grant.decidedByStandingGrant
    autoApprovalKind := extra.autoApprovalKind <|> grant.autoApprovalKind }

@[simp] theorem withUpdate_id (grant : OpenApeGrant) (status : GrantStatus)
    (extra : GrantUpdate) : (withUpdate grant status extra).id = grant.id :=
  rfl

@[simp] theorem withUpdate_status (grant : OpenApeGrant)
    (status : GrantStatus) (extra : GrantUpdate) :
    (withUpdate grant status extra).status = status := rfl

namespace MemoryStore

def createReferenced (grants : GrantTable) (grant : OpenApeGrant) :
    Except JsError (OpenApeGrant × Bool) × GrantTable :=
  match assertGrantReferenceRequest grant.request with
  | .error error => (.error error, grants)
  | .ok () =>
      if !truthy grant.request.reference then
        (.error (plainError (js "A reference is required")), grants)
      else match grants.rows.find?
          (fun item => item.request.reference.isSome ∧
            referenceKeyOf item = referenceKeyOf grant) with
        | some existing =>
            match assertSameReferencedGrant existing grant with
            | .error error => (.error error, grants)
            | .ok () => (.ok (existing, false), grants)
        | none => (.ok (grant, true), grants.put grant)

def save (grants : GrantTable) (grant : OpenApeGrant) :
    Except JsError Unit × GrantTable :=
  if grant.request.reference.isSome then
    (.error (plainError
      (js "Use atomic createReferenced for a referenced grant")), grants)
  else (.ok (), grants.put grant)

def updateStatus (grants : GrantTable) (id : JsString)
    (status : GrantStatus) (extra : GrantUpdate) :
    Except JsError Unit × GrantTable :=
  match grants.find? id with
  | none => (.error (plainError (js "Grant not found: " ++ id)), grants)
  | some grant =>
      let same :=
        match extra.request with
        | some request =>
            if truthy grant.request.reference then
              assertSameReferencedGrant grant { grant with request := request }
            else .ok ()
        | none => .ok ()
      match same with
      | .error error => (.error error, grants)
      | .ok () => (.ok (), grants.put (withUpdate grant status extra))

def findByRequester (grants : GrantTable) (requester : JsString) :
    List OpenApeGrant :=
  grants.rows.filter (fun grant => grant.request.requester = requester)

theorem mem_findByRequester {grants : GrantTable} {requester : JsString}
    {grant : OpenApeGrant} :
    grant ∈ findByRequester grants requester ↔
      grant ∈ grants.rows ∧ grant.request.requester = requester := by
  simp [findByRequester]

def claimOnce (grants : GrantTable) (id : JsString) (usedAt : Int) :
    Bool × GrantTable :=
  match grants.find? id with
  | none => (false, grants)
  | some grant =>
      if grant.status ≠ .approved then (false, grants)
      else (true,
        grants.put { grant with status := .used, usedAt := some usedAt })

def withdraw (grants : GrantTable) (id : JsString) (withdrawnAt : Int)
    (reason : Option JsString) : Option GrantStatus × GrantTable :=
  match grants.find? id with
  | none => (none, grants)
  | some grant =>
      if grant.status = .pending ∨
          (grant.status = .approved ∧ grant.request.grantType = some .once)
      then (some grant.status, grants.put
        { grant with
          status := .withdrawn
          decidedAt := some withdrawnAt
          withdrawReason := reason <|> grant.withdrawReason })
      else (none, grants)

/-- The requester filter of `listGrants`. -/
def requesterMatches (params : GrantListParams) (g : OpenApeGrant) : Bool :=
  let has (requesters : List JsString) : Bool :=
    match params.brokerOwner, g.brokered with
    | some owner, some brokered => some brokered.owner = owner
    | _, _ => g.request.requester ∈ requesters
  match params.requester with
  | none => true
  | some (.one requester) => requester.isEmpty || has [requester]
  | some (.many requesters) => has requesters

/-- The other filters of `listGrants`; an empty parameter filters nothing. -/
def listed (params : GrantListParams) (g : OpenApeGrant) : Bool :=
  params.status.all (fun status => g.status = status) &&
    params.excludeStatus.all (fun status => g.status ≠ status) &&
    requesterMatches params g &&
    (!truthy params.requesterFilter ||
      params.requesterFilter = some g.request.requester) &&
    (!truthy params.batch ||
      params.batch = g.request.batch.map GrantBatch.id) &&
    (!truthy params.reference || params.reference = g.request.reference) &&
    params.referenceKey.all (fun key => referenceKeyOf g = some key)

/-- Newest first, the greater id first among equals. -/
def listedBefore (a b : OpenApeGrant) : Bool :=
  b.createdAt < a.createdAt ||
    (a.createdAt = b.createdAt && decide (b.id ≤ a.id))

/-- Strictly behind the cursor. -/
def behindCursor (position : GrantCursor) (g : OpenApeGrant) : Bool :=
  g.createdAt < position.createdAt ||
    match position.id with
    | none => false
    | some id => g.createdAt = position.createdAt && decide (g.id < id)

def pageOf (limit : Nat) (grants : List OpenApeGrant) : GrantPage where
  data := grants.take limit
  cursor := (grants.take limit).getLast?.map grantCursor
  hasMore := limit < grants.length

def listGrants (grants : GrantTable) (params : GrantListParams) :
    Except JsError GrantPage :=
  let limit := (min (max (params.limit.getD 20) 1) 100).toNat
  let sorted := (grants.rows.filter (listed params)).insertionSort
    (fun a b => listedBefore a b)
  if truthy params.cursor then
    match parseGrantCursor (params.cursor.getD []) with
    | .error error => .error error
    | .ok position => .ok (pageOf limit (sorted.filter (behindCursor position)))
  else .ok (pageOf limit sorted)

/-- What a page lists is stored and passes the filters. -/
theorem mem_of_listGrants {grants : GrantTable} {params : GrantListParams}
    {page : GrantPage} (h : listGrants grants params = .ok page)
    {grant : OpenApeGrant} (hGrant : grant ∈ page.data) :
    grant ∈ grants.rows ∧ listed params grant = true := by
  have hSorted : ∀ grant ∈ (grants.rows.filter (listed params)).insertionSort
      (fun a b => listedBefore a b),
      grant ∈ grants.rows ∧ listed params grant = true := by
    intro grant hMem
    rw [List.mem_insertionSort] at hMem
    exact List.mem_filter.mp hMem
  unfold listGrants at h
  dsimp only at h
  split at h
  · split at h
    · cases h
    · cases h
      exact hSorted grant (List.mem_filter.mp (List.mem_of_mem_take hGrant)).1
  · cases h
    exact hSorted grant (List.mem_of_mem_take hGrant)

end MemoryStore

/-- `InMemoryGrantStore` -/
def memoryStore : Program.Handler grantStore JsError (World GrantTable) :=
  fun call w =>
    match call with
    | .createReferenced grant =>
        let (reply, grants) := MemoryStore.createReferenced w.store grant
        (reply, w.setStore grants)
    | .save grant =>
        let (reply, grants) := MemoryStore.save w.store grant
        (reply, w.setStore grants)
    | .findById id => (.ok (w.store.find? id), w)
    | .updateStatus id status extra =>
        let (reply, grants) := MemoryStore.updateStatus w.store id status extra
        (reply, w.setStore grants)
    | .findByRequester requester =>
        (.ok (MemoryStore.findByRequester w.store requester), w)
    | .listGrants params => (MemoryStore.listGrants w.store params, w)
    | .claimOnce id usedAt =>
        let (reply, grants) := MemoryStore.claimOnce w.store id usedAt
        (.ok reply, w.setStore grants)
    | .withdraw id withdrawnAt reason =>
        let (reply, grants) :=
          MemoryStore.withdraw w.store id withdrawnAt reason
        (.ok reply, w.setStore grants)
    | .now => (.ok w.now, w.tick)
    | .randomUUID =>
        (.ok (w.uuids 0), { w with uuids := fun n => w.uuids (n + 1) })

/-! ## What a call writes -/

/-- The row that a call puts into the table, where it writes. -/
def Written (grants : GrantTable) :
    (call : GrantStoreCall) → (row : OpenApeGrant) → Prop
  | .createReferenced grant, row | .save grant, row => row = grant
  | .updateStatus id status extra, row =>
      ∃ old, grants.find? id = some old ∧ row = withUpdate old status extra
  | .claimOnce id usedAt, row =>
      ∃ old, grants.find? id = some old ∧
        row = { old with status := .used, usedAt := some usedAt }
  | .withdraw id withdrawnAt reason, row =>
      ∃ old, grants.find? id = some old ∧
        row = { old with
          status := .withdrawn
          decidedAt := some withdrawnAt
          withdrawReason := reason <|> old.withdrawReason }
  | _, _ => False

/-- A call leaves the table as it is, or puts one row into it. -/
theorem memoryStore_writes (call : GrantStoreCall) (w : World GrantTable) :
    (memoryStore call w).2.store = w.store ∨
      ∃ row, Written w.store call row ∧
        (memoryStore call w).2.store = w.store.put row := by
  cases call with
  | createReferenced grant =>
      simp only [memoryStore, MemoryStore.createReferenced]
      split
      · exact .inl rfl
      · split
        · exact .inl rfl
        · split
          · split <;> exact .inl rfl
          · exact .inr ⟨grant, rfl, rfl⟩
  | save grant =>
      simp only [memoryStore, MemoryStore.save]
      split
      · exact .inl rfl
      · exact .inr ⟨grant, rfl, rfl⟩
  | updateStatus id status extra =>
      simp only [memoryStore, MemoryStore.updateStatus]
      cases hFound : w.store.find? id with
      | none => exact .inl rfl
      | some old =>
          dsimp only
          split
          · exact .inl rfl
          · exact .inr ⟨_, ⟨old, hFound, rfl⟩, rfl⟩
  | claimOnce id usedAt =>
      simp only [memoryStore, MemoryStore.claimOnce]
      cases hFound : w.store.find? id with
      | none => exact .inl rfl
      | some old =>
          dsimp only
          split
          · exact .inl rfl
          · exact .inr ⟨_, ⟨old, hFound, rfl⟩, rfl⟩
  | withdraw id withdrawnAt reason =>
      simp only [memoryStore, MemoryStore.withdraw]
      cases hFound : w.store.find? id with
      | none => exact .inl rfl
      | some old =>
          dsimp only
          split
          · exact .inr ⟨_, ⟨old, hFound, rfl⟩, rfl⟩
          · exact .inl rfl
  | findById id | findByRequester requester | listGrants params | now
  | randomUUID => exact .inl rfl

/-- Every row after a call was there, or is written by it. -/
theorem mem_memoryStore {call : GrantStoreCall} {w : World GrantTable}
    {row : OpenApeGrant} (h : row ∈ (memoryStore call w).2.store.rows) :
    row ∈ w.store.rows ∨ Written w.store call row := by
  rcases memoryStore_writes call w with hSame | ⟨written, hWritten, hPut⟩
  · rw [hSame] at h
    exact .inl h
  · rw [hPut] at h
    rcases Table.mem_of_mem_put h with rfl | hOld
    · exact .inr hWritten
    · exact .inl hOld

end OpenApe.Ports.GrantStore
