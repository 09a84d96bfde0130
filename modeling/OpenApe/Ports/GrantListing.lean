import Mathlib.Data.Bool.AllAny
import OpenApe.Ports.DrizzleGrantStore
import OpenApe.Verified.CodePoints
import OpenApe.Verified.Paging

/-!
# Listing grants page by page
(`packages/grants/src/stores.ts`, `grant-cursor.ts`,
`modules/nuxt-auth-idp/src/runtime/server/utils/grant-store.ts`,
`apps/openape-free-idp/server/utils/drizzle-grant-store.ts`)

Three stores continue a listing behind the creation time and the id of the
last grant of a page.  The in-memory store lists what it holds; the file
store and the Drizzle store first expire the requests that nobody has
answered for two days.

The order of all three is strict, so each cursor stands for exactly what
remains, and following the cursors shows every listed grant once.
-/

namespace OpenApe.Ports.GrantListing

open Verified.JsText Verified.KeyedTable Verified.Paging Verified.Unicode
  Verified.CodePoints
open GrantTypes GrantReference GrantStore DrizzleGrantStore

/-! ## The file store -/

namespace FileStore

/-- `PENDING_REQUEST_TTL_S` -/
def pendingRequestTtlS : Int := 48 * 3600

def expireIfStale (now : Int) (grant : OpenApeGrant) : OpenApeGrant :=
  let cutoff := now - pendingRequestTtlS
  if grant.status = .pending ∧ grant.createdAt < cutoff then
    { grant with status := .expired }
  else grant

@[simp] theorem expireIfStale_id (now : Int) (grant : OpenApeGrant) :
    (expireIfStale now grant).id = grant.id := by
  unfold expireIfStale
  dsimp only
  split <;> rfl

@[simp] theorem expireIfStale_createdAt (now : Int) (grant : OpenApeGrant) :
    (expireIfStale now grant).createdAt = grant.createdAt := by
  unfold expireIfStale
  dsimp only
  split <;> rfl

theorem expireIfStale_idem (now : Int) (grant : OpenApeGrant) :
    expireIfStale now (expireIfStale now grant) = expireIfStale now grant := by
  by_cases hStale : grant.status = .pending ∧
      grant.createdAt < now - pendingRequestTtlS
  · simp [expireIfStale, hStale]
  · simp only [expireIfStale, if_neg hStale]

/-- Reads every grant; stale ones are written back as expired. -/
def getAllGrants (now : Int) (grants : GrantTable) : GrantTable :=
  grants.mapRows (expireIfStale now) (expireIfStale_id now)

theorem getAllGrants_idem (now : Int) (grants : GrantTable) :
    getAllGrants now (getAllGrants now grants) = getAllGrants now grants := by
  refine Table.ext_rows ?_
  show (grants.rows.map (expireIfStale now)).map (expireIfStale now) = _
  rw [List.map_map]
  exact List.map_congr_left fun grant _ => expireIfStale_idem now grant

/-- The filter of `listGrants`. -/
def listed (params : GrantListParams) (grant : OpenApeGrant) : Bool :=
  if params.excludeStatus.any (grant.status = ·) then false
  else if truthy params.reference &&
      grant.request.reference != params.reference then false
  else if params.referenceKey.any (fun key =>
      grant.request.reference.isNone || referenceKeyOf grant != some key)
    then false
  else if params.status.any (grant.status ≠ ·) then false
  else if !MemoryStore.requesterMatches params grant then false
  else if truthy params.requesterFilter &&
      some grant.request.requester != params.requesterFilter then false
  else if truthy params.batch &&
      grant.request.batch.map GrantBatch.id != params.batch then false
  else true

def listGrants (now : Int) (grants : GrantTable) (params : GrantListParams) :
    Except JsError GrantPage × GrantTable :=
  let limit := (min (max (params.limit.getD 20) 1) 100).toNat
  let allGrants := getAllGrants now grants
  let sorted := (allGrants.rows.filter (listed params)).insertionSort
    (fun a b => MemoryStore.listedBefore a b)
  if truthy params.cursor then
    match parseGrantCursor (params.cursor.getD []) with
    | .error error => (.error error, allGrants)
    | .ok position =>
        (.ok (MemoryStore.pageOf limit
          (sorted.filter (MemoryStore.behindCursor position))), allGrants)
  else (.ok (MemoryStore.pageOf limit sorted), allGrants)

end FileStore

/-! ## The listings at one moment -/

/-- `listGrants` of a store at a fixed time: its answer, and the store that it
leaves. -/
abbrev Listing (σ : Type) :=
  GrantListParams → σ → Except JsError GrantPage × σ

def memoryListing : Listing GrantTable := fun params grants =>
  (MemoryStore.listGrants grants params, grants)

def fileListing (now : Int) : Listing GrantTable := fun params grants =>
  FileStore.listGrants now grants params

def drizzleListing (now : Int) : Listing GrantRows := fun params rows =>
  (DrizzleGrantStore.listGrants (expireRequests now rows) params,
    expireRequests now rows)

/-- The call of the in-memory store. -/
theorem memoryStore_listGrants (params : GrantListParams)
    (w : World GrantTable) :
    memoryStore (.listGrants params) w =
      ((memoryListing params w.store).1,
        w.setStore (memoryListing params w.store).2) := rfl

/-- The call of the Drizzle store, which reads the clock once. -/
theorem drizzleStore_listGrants (params : GrantListParams)
    (w : World Database) :
    drizzleStore (.listGrants params) w =
      ((drizzleListing w.now params w.store.grants).1,
        (setGrants w (drizzleListing w.now params w.store.grants).2).tick) :=
  rfl

/-- The page of an answer. -/
def toPage (page : GrantPage) : Page OpenApeGrant JsString :=
  ⟨page.data, page.cursor, page.hasMore⟩

/-- One call of a walk: the filters stay, the cursor is the last answer's. -/
def answers {σ : Type} (listing : Listing σ) (params : GrantListParams)
    (cursor : Option JsString) (store : σ) :
    Except JsError (Page OpenApeGrant JsString) × σ :=
  let answer := listing { params with cursor := cursor } store
  (answer.1.map toPage, answer.2)

/-- Following the cursors from the start comes to an end, and shows each of
the entries once, the newest first. -/
def ShowsEach {σ : Type} (listing : Listing σ) (params : GrantListParams)
    (store : σ) (entries : List OpenApeGrant) : Prop :=
  ∃ shown, (∀ collected,
      Collects (answers listing params) store collected ↔ collected = shown) ∧
    shown.Perm entries ∧ shown.Pairwise fun a b => b.createdAt ≤ a.createdAt

/-! ## The cursor of a grant -/

theorem utf16_of_isDigit {c : Char} (h : c.isDigit = true) :
    utf16 c = [unit c] := by
  have hRange := Char.isDigit_iff_toNat.mp h
  have hSmall : c.val < 0x10000 := by
    rw [UInt32.lt_iff_toNat_lt]
    exact lt_of_le_of_lt hRange.2 (by decide)
  rw [utf16, if_pos hSmall, unit]

theorem toNat_unit_of_isDigit {c : Char} (h : c.isDigit = true) :
    (unit c).toNat = c.toNat := by
  have hRange := Char.isDigit_iff_toNat.mp h
  have hNine : c.toNat ≤ 57 := hRange.2
  rw [unit, UInt32.toNat_toUInt16]
  exact Nat.mod_eq_of_lt (lt_of_le_of_lt hNine (by decide))

/-- Digits are read as the units they are written with. -/
theorem flatMap_digits {digits : List Char}
    (h : ∀ c ∈ digits, c.isDigit = true) :
    digits.flatMap utf16 = digits.map unit := by
  induction digits with
  | nil => rfl
  | cons c rest ih =>
      rw [List.flatMap_cons, List.map_cons,
        utf16_of_isDigit (h c List.mem_cons_self),
        ih fun d hd => h d (List.mem_cons_of_mem c hd)]
      rfl

theorem foldl_digits {digits : List Char}
    (h : ∀ c ∈ digits, c.isDigit = true) (n : Nat) :
    (digits.map unit).foldl (fun n d => 10 * n + (d.toNat - 0x30)) n =
      Nat.ofDigitChars 10 digits n := by
  induction digits generalizing n with
  | nil => rfl
  | cons c rest ih =>
      rw [List.map_cons, List.foldl_cons, Nat.ofDigitChars_cons,
        toNat_unit_of_isDigit (h c List.mem_cons_self),
        ih fun d hd => h d (List.mem_cons_of_mem c hd)]
      rfl

theorem isDigit_unit {c : Char} (h : c.isDigit = true) :
    isDigit (unit c) = true := by
  have hRange := Char.isDigit_iff_toNat.mp h
  have hUnit := toNat_unit_of_isDigit h
  have hZero : (0x30 : CodeUnit).toNat ≤ (unit c).toNat := by
    rw [hUnit]
    exact hRange.1
  have hNine : (unit c).toNat ≤ (0x39 : CodeUnit).toNat := by
    rw [hUnit]
    exact hRange.2
  rw [isDigit, Bool.and_eq_true, decide_eq_true_iff, decide_eq_true_iff]
  exact ⟨UInt16.le_iff_toNat_le.mpr hZero, UInt16.le_iff_toNat_le.mpr hNine⟩

/-- A time that is no negative number is printed in digits, which are read
back. -/
theorem digits_of_time {n : Int} (h : 0 ≤ n) : ∃ digits : JsString,
    js (toString n) = digits ∧ digits ≠ [] ∧
      (∀ u ∈ digits, isDigit u = true) ∧ (digitsValue digits : Int) = n := by
  obtain ⟨m, rfl⟩ := Int.eq_ofNat_of_zero_le h
  have hDigits : ∀ c ∈ Nat.toDigits 10 m, c.isDigit = true := fun c hc =>
    Nat.isDigit_of_mem_toDigits (by decide) (by decide) hc
  refine ⟨(Nat.toDigits 10 m).map unit, ?_, ?_, ?_, ?_⟩
  · show (m.repr.toList).flatMap utf16 = _
    rw [Nat.toList_repr, flatMap_digits hDigits]
  · rw [Ne, List.map_eq_nil_iff]
    exact Nat.toDigits_ne_nil
  · intro u hu
    obtain ⟨c, hc, rfl⟩ := List.mem_map.mp hu
    exact isDigit_unit (hDigits c hc)
  · rw [digitsValue, foldl_digits hDigits, Nat.ofDigitChars_ten_toDigits]

/-- A grant as the code creates them: its time is a safe number of seconds,
and its id, a random UUID, is a short line without surrogates. -/
structure Pageable (grant : OpenApeGrant) : Prop where
  time : 0 ≤ grant.createdAt ∧ grant.createdAt ≤ 9007199254740991
  id : grant.id ≠ [] ∧ grant.id.length ≤ 256
  line : ∀ u ∈ grant.id, isLineTerminator u = false
  plain : ∀ u ∈ grant.id, isHighSurrogate u = false

/-- The cursor of a grant is read back as its time and its id. -/
theorem parseGrantCursor_grantCursor {grant : OpenApeGrant}
    (h : Pageable grant) : parseGrantCursor (grantCursor grant) =
      .ok ⟨grant.createdAt, some grant.id⟩ := by
  obtain ⟨digits, hText, hNonempty, hAll, hValue⟩ := digits_of_time h.time.1
  have hColon : isDigit (unit ':') = false := by decide
  have hTake : (digits ++ unit ':' :: grant.id).takeWhile isDigit = digits := by
    rw [List.takeWhile_append_of_pos hAll,
      List.takeWhile_cons_of_neg (by rw [hColon]; decide), List.append_nil]
  have hDrop : (digits ++ unit ':' :: grant.id).dropWhile isDigit =
      unit ':' :: grant.id := by
    rw [List.dropWhile_append_of_pos hAll,
      List.dropWhile_cons_of_neg (by rw [hColon]; decide)]
  have hRead : ¬(digits.isEmpty ||
      decide (2 ^ 53 - 1 < digitsValue digits)) = true := by
    have hBound := h.time.2
    rw [decide_eq_false (by omega), Bool.or_false, List.isEmpty_iff]
    exact hNonempty
  have hLine : grant.id.any isLineTerminator = false := by
    rw [List.any_eq_false]
    exact fun u hu => Bool.eq_false_iff.mp (h.line u hu)
  have hCursor : grantCursor grant = digits ++ unit ':' :: grant.id := by
    rw [grantCursor, hText, List.append_assoc]
    rfl
  unfold parseGrantCursor
  dsimp only
  rw [hCursor, hTake, hDrop, if_neg hRead]
  simp [h.id.1, h.id.2, hLine, hValue]

/-! ## One walk through a strict order -/

section Walk

variable {σ α : Type} {behindAt : GrantCursor → α → Bool}
  {toGrant : α → OpenApeGrant} {entries : List α}

/-- Where a grant stands. -/
def positionOf (grant : OpenApeGrant) : GrantCursor :=
  ⟨grant.createdAt, some grant.id⟩

/-- The entries behind a cursor. -/
def selected (behindAt : GrantCursor → α → Bool) (entries : List α)
    (cursor : Option JsString) : Except JsError (List α) :=
  if truthy cursor then
    (parseGrantCursor (cursor.getD [])).map fun position =>
      entries.filter (behindAt position)
  else .ok entries

/-- Entries of which each lies behind those before it. -/
structure Ordered (behindAt : GrantCursor → α → Bool)
    (toGrant : α → OpenApeGrant) (entries : List α) : Prop where
  strict : entries.Pairwise fun a b =>
    behindAt (positionOf (toGrant a)) b = true
  asymm : ∀ a b, behindAt (positionOf (toGrant a)) b = true →
    behindAt (positionOf (toGrant b)) a = false
  pageable : ∀ a ∈ entries, Pageable (toGrant a)

/-- The cursor of an entry selects the entries after it. -/
theorem Ordered.selected_grantCursor (h : Ordered behindAt toGrant entries)
    {n : Nat} {last : α} (hLast : (entries.take n).getLast? = some last) :
    selected behindAt entries (some (grantCursor (toGrant last))) =
      .ok (entries.drop n) := by
  have hMem : last ∈ entries :=
    List.mem_of_mem_take (List.mem_of_getLast? hLast)
  have hTruthy : truthy (some (grantCursor (toGrant last))) = true := by
    rw [truthy_some, grantCursor]
    simp [(h.pageable last hMem).id.1]
  have hBehind := filter_behind_last h.asymm h.strict hLast
  rw [selected, if_pos hTruthy, Option.getD_some,
    parseGrantCursor_grantCursor (h.pageable last hMem), Except.map]
  exact congrArg Except.ok hBehind

/-- What a cursor stands for: the grants of the entries after some first
ones. -/
def Rests (behindAt : GrantCursor → α → Bool) (toGrant : α → OpenApeGrant)
    (entries : List α) (cursor : Option JsString)
    (remaining : List OpenApeGrant) : Prop :=
  ∃ k, selected behindAt entries cursor = .ok (entries.drop k) ∧
    remaining = (entries.drop k).map toGrant

/-- The last entry of a full page behind the first ones. -/
theorem exists_last_of_page {k limit : Nat} (hLimit : 0 < limit)
    (hMore : limit < (entries.drop k).length) :
    ∃ last, ((entries.drop k).take limit).getLast? = some last ∧
      (entries.take (k + limit)).getLast? = some last := by
  have hNonempty : (entries.drop k).take limit ≠ [] := by
    rw [Ne, ← List.length_eq_zero_iff, List.length_take]
    omega
  refine ⟨_, List.getLast?_eq_some_getLast hNonempty, ?_⟩
  rw [List.take_add, List.getLast?_append_of_ne_nil _ hNonempty,
    List.getLast?_eq_some_getLast hNonempty]

/-- A page of the entries behind a cursor. -/
theorem Ordered.pageOf (h : Ordered behindAt toGrant entries) {limit k : Nat}
    (hLimit : 0 < limit) :
    PageOf limit (Rests behindAt toGrant entries)
      ((entries.drop k).map toGrant)
      (toPage (MemoryStore.pageOf limit ((entries.drop k).map toGrant))) := by
  refine ⟨rfl, rfl, fun hMore => ⟨k + limit, ?_, ?_⟩⟩
  · rw [List.length_map] at hMore
    obtain ⟨last, hPage, hLast⟩ := exists_last_of_page hLimit hMore
    have hCursor : (MemoryStore.pageOf limit
        ((entries.drop k).map toGrant)).cursor =
        some (grantCursor (toGrant last)) := by
      rw [MemoryStore.pageOf, ← List.map_take, List.getLast?_map, hPage]
      rfl
    show selected behindAt entries (MemoryStore.pageOf limit _).cursor = _
    rw [hCursor]
    exact h.selected_grantCursor hLast
  · rw [← List.map_drop, List.drop_drop]

/-- Following the cursors collects the grants of all entries. -/
theorem Ordered.collects_iff (h : Ordered behindAt toGrant entries)
    {listing : Listing σ} {params : GrantListParams} {Alike : σ → Prop}
    {limit : Nat} (hLimit : 0 < limit)
    (hCalls : ∀ store cursor, Alike store →
      Alike (listing { params with cursor := cursor } store).2 ∧
        (listing { params with cursor := cursor } store).1 =
          (selected behindAt entries cursor).map fun rows =>
            MemoryStore.pageOf limit (rows.map toGrant))
    {store : σ} (hStore : Alike store) (collected : List OpenApeGrant) :
    Collects (answers listing params) store collected ↔
      collected = entries.map toGrant := by
  have hStart : Rests behindAt toGrant entries none (entries.map toGrant) :=
    ⟨0, rfl, rfl⟩
  refine OpenApe.Verified.Paging.collects_iff hLimit ?_ hStore hStart collected
  intro store cursor remaining hAlike hRests
  obtain ⟨k, hSelected, hRemaining⟩ := hRests
  obtain ⟨hLeft, hReply⟩ := hCalls store cursor hAlike
  rw [hSelected] at hReply
  rw [hRemaining]
  refine ⟨_, _, ?_, hLeft, h.pageOf hLimit⟩
  rw [answers, hReply]
  rfl

end Walk

/-! ## The three stores -/

/-- The number of each unit of a string. -/
def unitValues (s : JsString) : List Nat := s.map UInt16.toNat

/-- Strings are ordered by their units. -/
theorem unitValues_lt (a b : JsString) :
    unitValues a < unitValues b ↔ a < b := by
  unfold unitValues
  induction a generalizing b with
  | nil =>
      cases b with
      | nil => simp
      | cons v rest => simp
  | cons u front ih =>
      cases b with
      | nil => simp
      | cons v rest =>
          rw [List.map_cons, List.map_cons, List.cons_lt_cons_iff,
            List.cons_lt_cons_iff, ih, UInt16.toNat_inj,
            UInt16.lt_iff_toNat_lt]

theorem unitValues_le (a b : JsString) :
    unitValues a ≤ unitValues b ↔ a ≤ b := by
  rw [← not_lt, unitValues_lt]
  rfl

theorem unitValues_injective : Function.Injective unitValues :=
  List.map_injective_iff.mpr fun _ _ h => UInt16.toNat_inj.mp h

theorem memory_listedBefore_iff (a b : OpenApeGrant) :
    MemoryStore.listedBefore a b = true ↔
      b.createdAt < a.createdAt ∨
        a.createdAt = b.createdAt ∧ unitValues b.id ≤ unitValues a.id := by
  rw [unitValues_le, MemoryStore.listedBefore, Bool.or_eq_true,
    Bool.and_eq_true, decide_eq_true_iff, decide_eq_true_iff,
    decide_eq_true_iff]

theorem memory_behind_iff (grant : OpenApeGrant) (b : OpenApeGrant) :
    MemoryStore.behindCursor (positionOf grant) b = true ↔
      b.createdAt < grant.createdAt ∨ grant.createdAt = b.createdAt ∧
        unitValues b.id < unitValues grant.id := by
  rw [unitValues_lt, MemoryStore.behindCursor, positionOf]
  dsimp only
  rw [Bool.or_eq_true, Bool.and_eq_true, decide_eq_true_iff,
    decide_eq_true_iff, decide_eq_true_iff, eq_comm]

/-- Grants with distinct ids, as the in-memory and the file store sort
them. -/
def newestFirst (grants : List OpenApeGrant) : List OpenApeGrant :=
  grants.insertionSort fun a b => MemoryStore.listedBefore a b

/-- The positions of a strict order by times and names. -/
theorem ordered_of_strict {α ν : Type} [LinearOrder ν]
    {behindAt : GrantCursor → α → Bool} {toGrant : α → OpenApeGrant}
    {entries : List α} {name : α → ν}
    (hBehind : ∀ a b, behindAt (positionOf (toGrant a)) b = true ↔
      (toGrant b).createdAt < (toGrant a).createdAt ∨
        (toGrant a).createdAt = (toGrant b).createdAt ∧ name b < name a)
    (hStrict : entries.Pairwise fun a b =>
      (toGrant b).createdAt < (toGrant a).createdAt ∨
        (toGrant a).createdAt = (toGrant b).createdAt ∧ name b < name a)
    (hPageable : ∀ a ∈ entries, Pageable (toGrant a)) :
    Ordered behindAt toGrant entries := by
  refine ⟨hStrict.imp fun h => (hBehind _ _).mpr h, fun a b h => ?_, hPageable⟩
  rw [Bool.eq_false_iff, Ne, hBehind]
  rcases (hBehind a b).mp h with hLess | ⟨hEq, hLt⟩
  · rintro (hLess' | ⟨hEq', -⟩) <;> omega
  · rintro (hLess' | ⟨-, hLt'⟩)
    · omega
    · exact lt_asymm hLt hLt'

/-- Distinct ids have distinct names. -/
theorem nodup_names {α ν : Type} {key : α → JsString} {name : JsString → ν}
    (hName : Function.Injective name) {entries : List α}
    (hIds : (entries.map key).Nodup) :
    (entries.map fun a => name (key a)).Nodup := by
  have hNames := hIds.map hName
  rw [List.map_map] at hNames
  exact hNames

theorem newestFirst_strict {grants : List OpenApeGrant}
    (hIds : (grants.map OpenApeGrant.id).Nodup) :
    (newestFirst grants).Pairwise fun a b => b.createdAt < a.createdAt ∨
      a.createdAt = b.createdAt ∧ unitValues b.id < unitValues a.id :=
  sorted_strict memory_listedBefore_iff (nodup_names unitValues_injective hIds)

theorem ordered_newestFirst {grants : List OpenApeGrant}
    (hIds : (grants.map OpenApeGrant.id).Nodup)
    (hPageable : ∀ grant ∈ grants, Pageable grant) :
    Ordered MemoryStore.behindCursor id (newestFirst grants) :=
  ordered_of_strict memory_behind_iff (newestFirst_strict hIds)
    fun grant h => hPageable grant ((List.mem_insertionSort _).mp h)

theorem newestFirst_falling {grants : List OpenApeGrant}
    (hIds : (grants.map OpenApeGrant.id).Nodup) :
    (newestFirst grants).Pairwise fun a b => b.createdAt ≤ a.createdAt := by
  refine (newestFirst_strict hIds).imp fun h => ?_
  rcases h with hLess | ⟨hEq, -⟩
  · exact hLess.le
  · exact hEq.ge

theorem limit_pos (limit : Option Int) {cap : Int} (h : 0 < cap) :
    0 < (min (max (limit.getD 20) 1) cap).toNat := by
  omega

/-- Filtering keeps distinct ids. -/
theorem nodup_filter {ρ κ : Type} {key : ρ → κ} (table : Table key)
    (p : ρ → Bool) : ((table.rows.filter p).map key).Nodup :=
  table.nodup.sublist (List.filter_sublist.map key)

/-- What the in-memory store shows. -/
theorem memory_collects_iff {grants : GrantTable}
    (hGrants : ∀ grant ∈ grants.rows, Pageable grant)
    (params : GrantListParams) (collected : List OpenApeGrant) :
    Collects (answers memoryListing params) grants collected ↔
      collected =
        newestFirst (grants.rows.filter (MemoryStore.listed params)) := by
  have hOrdered := ordered_newestFirst
    (nodup_filter grants (MemoryStore.listed params))
    fun grant h => hGrants grant (List.mem_filter.mp h).1
  have hCalls : ∀ (store : GrantTable) (cursor : Option JsString),
      store = grants →
      (memoryListing { params with cursor := cursor } store).2 = grants ∧
        (memoryListing { params with cursor := cursor } store).1 =
          (selected MemoryStore.behindCursor (newestFirst
            (grants.rows.filter (MemoryStore.listed params))) cursor).map
              fun rows => MemoryStore.pageOf
                (min (max (params.limit.getD 20) 1) 100).toNat
                (rows.map id) := by
    intro store cursor hStore
    refine ⟨hStore, ?_⟩
    rw [hStore]
    show MemoryStore.listGrants grants { params with cursor := cursor } = _
    unfold MemoryStore.listGrants selected
    dsimp only
    simp only [List.map_id]
    split
    · cases parseGrantCursor (cursor.getD []) <;> rfl
    · rfl
  have hAll := hOrdered.collects_iff (limit_pos params.limit (by decide))
    hCalls rfl collected
  rw [List.map_id] at hAll
  exact hAll

theorem pageable_expireIfStale {now : Int} {grant : OpenApeGrant}
    (h : Pageable grant) : Pageable (FileStore.expireIfStale now grant) := by
  refine ⟨?_, ?_, ?_, ?_⟩
  · rw [FileStore.expireIfStale_createdAt]
    exact h.time
  all_goals rw [FileStore.expireIfStale_id]
  · exact h.id
  · exact h.line
  · exact h.plain

theorem pageable_getAllGrants {grants : GrantTable} (now : Int)
    (hGrants : ∀ grant ∈ grants.rows, Pageable grant) :
    ∀ grant ∈ (FileStore.getAllGrants now grants).rows, Pageable grant := by
  intro grant h
  obtain ⟨stored, hStored, rfl⟩ := List.mem_map.mp h
  exact pageable_expireIfStale (hGrants stored hStored)

/-- What the file store shows. -/
theorem file_collects_iff {grants : GrantTable} (now : Int)
    (hGrants : ∀ grant ∈ grants.rows, Pageable grant)
    (params : GrantListParams) (collected : List OpenApeGrant) :
    Collects (answers (fileListing now) params) grants collected ↔
      collected = newestFirst ((FileStore.getAllGrants now grants).rows.filter
        (FileStore.listed params)) := by
  have hAged := pageable_getAllGrants now hGrants
  have hOrdered := ordered_newestFirst
    (nodup_filter (FileStore.getAllGrants now grants) (FileStore.listed params))
    fun grant h => hAged grant (List.mem_filter.mp h).1
  have hCalls : ∀ (store : GrantTable) (cursor : Option JsString),
      FileStore.getAllGrants now store = FileStore.getAllGrants now grants →
      FileStore.getAllGrants now
          (fileListing now { params with cursor := cursor } store).2 =
          FileStore.getAllGrants now grants ∧
        (fileListing now { params with cursor := cursor } store).1 =
          (selected MemoryStore.behindCursor (newestFirst
            ((FileStore.getAllGrants now grants).rows.filter
              (FileStore.listed params))) cursor).map
              fun rows => MemoryStore.pageOf
                (min (max (params.limit.getD 20) 1) 100).toNat
                (rows.map id) := by
    intro store cursor hStore
    have hIdem := FileStore.getAllGrants_idem now grants
    unfold fileListing FileStore.listGrants selected
    dsimp only
    simp only [List.map_id]
    rw [hStore]
    split
    · cases parseGrantCursor (cursor.getD []) <;> exact ⟨hIdem, rfl⟩
    · exact ⟨hIdem, rfl⟩
  have hAll := hOrdered.collects_iff (limit_pos params.limit (by decide))
    hCalls rfl collected
  rw [List.map_id] at hAll
  exact hAll

/-! ## The Drizzle store -/

theorem codePoints_injective : Function.Injective codePoints :=
  fun a b h => by
    rw [← encodePoints_codePoints a, h, encodePoints_codePoints]

theorem drizzle_listedBefore_iff (a b : GrantRow) :
    DrizzleGrantStore.listedBefore a b = true ↔
      b.createdAt < a.createdAt ∨
        a.createdAt = b.createdAt ∧ codePoints b.id ≤ codePoints a.id := by
  rw [DrizzleGrantStore.listedBefore, textLe, Bool.or_eq_true,
    Bool.and_eq_true, decide_eq_true_iff, decide_eq_true_iff,
    decide_eq_true_iff]

theorem drizzle_behind_iff (a b : GrantRow) :
    DrizzleGrantStore.behindCursor (positionOf (rowToGrant a)) b = true ↔
      b.createdAt < a.createdAt ∨
        a.createdAt = b.createdAt ∧ codePoints b.id < codePoints a.id := by
  rw [DrizzleGrantStore.behindCursor, positionOf, rowToGrant]
  dsimp only
  rw [textLt, Bool.or_eq_true, Bool.and_eq_true, decide_eq_true_iff,
    decide_eq_true_iff, decide_eq_true_iff, eq_comm]

/-- Rows with distinct ids, in the order of the query. -/
def queryOrder (rows : List GrantRow) : List GrantRow :=
  rows.insertionSort fun a b => DrizzleGrantStore.listedBefore a b

theorem queryOrder_strict {rows : List GrantRow}
    (hIds : (rows.map GrantRow.id).Nodup) :
    (queryOrder rows).Pairwise fun a b => b.createdAt < a.createdAt ∨
      a.createdAt = b.createdAt ∧ codePoints b.id < codePoints a.id :=
  sorted_strict drizzle_listedBefore_iff (nodup_names codePoints_injective hIds)

theorem ordered_queryOrder {rows : List GrantRow}
    (hIds : (rows.map GrantRow.id).Nodup)
    (hPageable : ∀ row ∈ rows, Pageable (rowToGrant row)) :
    Ordered DrizzleGrantStore.behindCursor rowToGrant (queryOrder rows) :=
  ordered_of_strict drizzle_behind_iff (queryOrder_strict hIds)
    fun row h => hPageable row ((List.mem_insertionSort _).mp h)

theorem expireRow_idem (cutoff : Int) (row : GrantRow) :
    expireRow cutoff (expireRow cutoff row) = expireRow cutoff row := by
  by_cases hStale : row.status = .pending ∧ row.createdAt < cutoff
  · simp [expireRow, hStale]
  · simp only [expireRow, if_neg hStale]

theorem expireRequests_idem (now : Int) (rows : GrantRows) :
    expireRequests now (expireRequests now rows) = expireRequests now rows := by
  refine Table.ext_rows ?_
  show (rows.rows.map (expireRow _)).map (expireRow _) = _
  rw [List.map_map]
  exact List.map_congr_left fun row _ => expireRow_idem _ row

theorem pageable_expireRow {cutoff : Int} {row : GrantRow}
    (h : Pageable (rowToGrant row)) :
    Pageable (rowToGrant (expireRow cutoff row)) := by
  unfold expireRow
  split
  · exact ⟨h.time, h.id, h.line, h.plain⟩
  · exact h

/-- What the Drizzle store shows. -/
theorem drizzle_collects_iff {rows : GrantRows} (now : Int)
    (hRows : ∀ row ∈ rows.rows, Pageable (rowToGrant row))
    (params : GrantListParams) (collected : List OpenApeGrant) :
    Collects (answers (drizzleListing now) params) rows collected ↔
      collected = (queryOrder ((expireRequests now rows).rows.filter
        (DrizzleGrantStore.listed params))).map rowToGrant := by
  have hAged : ∀ row ∈ (expireRequests now rows).rows,
      Pageable (rowToGrant row) := by
    intro row h
    obtain ⟨stored, hStored, rfl⟩ := List.mem_map.mp h
    exact pageable_expireRow (hRows stored hStored)
  have hIds := nodup_filter (expireRequests now rows)
    (DrizzleGrantStore.listed params)
  have hOrdered := ordered_queryOrder hIds
    fun row h => hAged row (List.mem_filter.mp h).1
  have hCalls : ∀ (store : GrantRows) (cursor : Option JsString),
      expireRequests now store = expireRequests now rows →
      expireRequests now
          (drizzleListing now { params with cursor := cursor } store).2 =
          expireRequests now rows ∧
        (drizzleListing now { params with cursor := cursor } store).1 =
          (selected DrizzleGrantStore.behindCursor (queryOrder
            ((expireRequests now rows).rows.filter
              (DrizzleGrantStore.listed params))) cursor).map
              fun selectedRows => MemoryStore.pageOf
                (min (max (params.limit.getD 20) 1) 1000).toNat
                (selectedRows.map rowToGrant) := by
    intro store cursor hStore
    refine ⟨?_, ?_⟩
    · show expireRequests now (expireRequests now store) = _
      rw [hStore, expireRequests_idem]
    · show DrizzleGrantStore.listGrants (expireRequests now store)
        { params with cursor := cursor } = _
      rw [hStore]
      unfold DrizzleGrantStore.listGrants selected
      dsimp only
      split
      · cases parseGrantCursor (cursor.getD []) with
        | error error => rfl
        | ok position =>
            have hSorted := insertionSort_filter drizzle_listedBefore_iff
              (nodup_names codePoints_injective hIds)
              (DrizzleGrantStore.behindCursor position)
            rw [List.filter_filter] at hSorted
            dsimp only [Except.map]
            rw [queryOrder, ← hSorted]
            simp only [Bool.and_comm]
            rfl
      · rfl
  exact hOrdered.collects_iff (limit_pos params.limit (by decide)) hCalls rfl
    collected

/-! ## The stores side by side -/

theorem nodup_rowsOf (grants : GrantTable) :
    ((grants.rows.map grantToRow).map GrantRow.id).Nodup := by
  rw [List.map_map]
  exact grants.nodup

/-- The grants as the Drizzle store keeps them. -/
def rowsOf (grants : GrantTable) : GrantRows :=
  ⟨grants.rows.map grantToRow, nodup_rowsOf grants⟩

/-- The filters of the file store are those of the in-memory store. -/
theorem file_listed_eq (params : GrantListParams) :
    FileStore.listed params = MemoryStore.listed params := by
  funext grant
  have hKey : ∀ key, (grant.request.reference.isNone ||
      referenceKeyOf grant != some key) =
        (referenceKeyOf grant != some key) := by
    intro key
    rw [referenceKeyOf]
    cases grant.request.reference <;> simp
  unfold FileStore.listed MemoryStore.listed
  simp only [hKey]
  cases params.excludeStatus <;> cases params.status <;>
    cases params.referenceKey <;>
    simp only [Option.any_none, Option.any_some, Option.all_none,
      Option.all_some] <;> grind

/-- The filters of the Drizzle store are those of the file store, unless an
empty owner is named. -/
theorem drizzle_listed_grantToRow {params : GrantListParams}
    (hOwner : params.brokerOwner ≠ some (some [])) (grant : OpenApeGrant) :
    DrizzleGrantStore.listed params (grantToRow grant) =
      MemoryStore.listed params grant := by
  have hRequester : DrizzleGrantStore.requesterMatches params
      (grantToRow grant) = MemoryStore.requesterMatches params grant := by
    unfold DrizzleGrantStore.requesterMatches MemoryStore.requesterMatches
    have hNamed : ∀ owner, params.brokerOwner = some (some owner) →
        owner.isEmpty = false := by
      intro owner hEq
      rw [List.isEmpty_eq_false_iff]
      rintro rfl
      exact hOwner hEq
    rcases params.requester with _ | requester | requesters
    · rfl
    all_goals
      cases hBrokered : grant.brokered <;>
        cases hVisible : params.brokerOwner with
        | none => simp [grantToRow, hBrokered]
        | some owner =>
            cases owner with
            | none => simp [grantToRow, hBrokered]
            | some owner =>
                simp [grantToRow, hBrokered, hNamed owner hVisible]
  rw [DrizzleGrantStore.listed, MemoryStore.listed, hRequester]
  simp only [grantToRow]
  rw [Bool.and_comm (params.excludeStatus.all _)]
  rfl

theorem expireRow_grantToRow (now : Int) (grant : OpenApeGrant) :
    expireRow (now - pendingRequestTtlSeconds) (grantToRow grant) =
      grantToRow (FileStore.expireIfStale now grant) := by
  by_cases hStale : grant.status = .pending ∧
      grant.createdAt < now - FileStore.pendingRequestTtlS
  · have hRow : (grantToRow grant).status = .pending ∧
        (grantToRow grant).createdAt < now - pendingRequestTtlSeconds := hStale
    rw [expireRow, if_pos hRow, FileStore.expireIfStale, if_pos hStale]
    rfl
  · have hRow : ¬((grantToRow grant).status = .pending ∧
        (grantToRow grant).createdAt < now - pendingRequestTtlSeconds) := hStale
    rw [expireRow, if_neg hRow, FileStore.expireIfStale, if_neg hStale]

theorem expireRequests_rowsOf (now : Int) (grants : GrantTable) :
    expireRequests now (rowsOf grants) =
      rowsOf (FileStore.getAllGrants now grants) := by
  refine Table.ext_rows ?_
  show (grants.rows.map grantToRow).map (expireRow _) =
    (grants.rows.map (FileStore.expireIfStale now)).map grantToRow
  rw [List.map_map, List.map_map]
  exact List.map_congr_left fun grant _ => expireRow_grantToRow now grant

theorem codePoints_of_plain {s : JsString}
    (h : ∀ u ∈ s, isHighSurrogate u = false) : codePoints s = unitValues s := by
  induction s using codePoints.induct with
  | case1 => rfl
  | case2 u => rfl
  | case3 u v rest hPair _ =>
      rw [h u List.mem_cons_self, Bool.false_and] at hPair
      cases hPair
  | case4 u v rest hPair ih =>
      rw [codePoints, if_neg hPair,
        ih fun w hw => h w (List.mem_cons_of_mem u hw)]
      rfl

/-- The query sorts the rows of plain grants as the other stores sort the
grants. -/
theorem queryOrder_map {grants : List OpenApeGrant}
    (hIds : (grants.map OpenApeGrant.id).Nodup)
    (hPageable : ∀ grant ∈ grants, Pageable grant) :
    queryOrder (grants.map grantToRow) =
      (newestFirst grants).map grantToRow := by
  have hRows : ((grants.map grantToRow).map
      fun row => codePoints row.id).Nodup :=
    nodup_names codePoints_injective (by rw [List.map_map]; exact hIds)
  symm
  refine eq_sorted drizzle_listedBefore_iff hRows
    ((List.perm_insertionSort _ grants).map grantToRow) ?_
  rw [List.pairwise_map]
  refine (newestFirst_strict hIds).imp_of_mem fun {a b} ha hb h => ?_
  have hPlain : ∀ grant ∈ newestFirst grants,
      codePoints grant.id = unitValues grant.id := fun grant hMem =>
    codePoints_of_plain
      (hPageable grant ((List.mem_insertionSort _).mp hMem)).plain
  show b.createdAt < a.createdAt ∨ a.createdAt = b.createdAt ∧
    codePoints b.id < codePoints a.id
  rw [hPlain a ha, hPlain b hb]
  exact h

/-- What the walks through the three stores show for one content, which the
Drizzle store keeps in rows. -/
structure ShownAlike (grants : GrantTable) (now : Int)
    (params : GrantListParams) : Prop where
  memory : ShowsEach memoryListing params grants
    (grants.rows.filter (MemoryStore.listed params))
  file : ShowsEach (fileListing now) params grants
    ((grants.rows.map (FileStore.expireIfStale now)).filter
      (MemoryStore.listed params))
  drizzle : ShowsEach (drizzleListing now) params (rowsOf grants)
    ((((rowsOf grants).rows.map
      (expireRow (now - pendingRequestTtlSeconds))).filter
        (DrizzleGrantStore.listed params)).map rowToGrant)
  memory_file : ∀ shown,
    Collects (answers memoryListing params) (FileStore.getAllGrants now grants)
        shown ↔
      Collects (answers (fileListing now) params) grants shown
  file_drizzle : params.brokerOwner ≠ some (some []) → ∀ shown,
    Collects (answers (fileListing now) params) grants shown →
      Collects (answers (drizzleListing now) params) (rowsOf grants)
        (shown.map fun grant => rowToGrant (grantToRow grant))

/-- A pending request. -/
def grantAt (id : String) (createdAt : Int) : OpenApeGrant :=
  { id := js id
    request :=
      { requester := js "agent"
        targetHost := js "host"
        audience := js "ape" }
    status := .pending
    createdAt := createdAt }

theorem twoGrants_nodup :
    ([grantAt "a" 10, grantAt "b" 10].map OpenApeGrant.id).Nodup := by decide

def twoGrants : GrantTable :=
  ⟨[grantAt "a" 10, grantAt "b" 10], twoGrants_nodup⟩

theorem twoGrants_pageable : ∀ grant ∈ twoGrants.rows, Pageable grant := by
  intro grant h
  rcases List.mem_pair.mp h with rfl | rfl <;>
    exact ⟨by decide, by decide, List.all_iff_forall_prop.mp (by decide),
      List.all_iff_forall_prop.mp (by decide)⟩

end OpenApe.Ports.GrantListing
