import OpenApe.Ports.RefreshTokens
import OpenApe.Verified.Paging

/-!
# Listing refresh-token families
(`packages/auth/src/idp/stores.ts`,
`apps/openape-free-idp/server/utils/drizzle-refresh-token-store.ts`)

Two stores list the live families of a user, the newest first, page by page;
the cursor of a page is the id of its last family.  The in-memory store finds
the cursor in the sorted list and goes on behind it.  The Drizzle store looks
up the time at which the family of the cursor was created, and goes on with
the families that were created before that time.

Families may share the time of their creation, and the database is free in
the order in which it returns those, in every query anew.
-/

namespace OpenApe.Ports.FamilyListing

open Verified.JsText Verified.KeyedTable Verified.Paging
open GrantTypes (truthy)
open RefreshTokens

/-! ## The two stores -/

structure RefreshTokenListOptions where
  userId : Option JsString := none
  limit : Option Int := none
  cursor : Option JsString := none

/-- `Math.min(Math.max(opts.limit ?? 50, 1), 100)` -/
def pageLimit (limit : Option Int) : Nat :=
  (min (max (limit.getD 50) 1) 100).toNat

abbrev FamilyPage := Page RefreshTokenFamily JsString

/-- The page that both stores return of the rows that remain. -/
def pageOf (limit : Nat) (rows : List RefreshTokenFamily) : FamilyPage where
  data := rows.take limit
  cursor := (rows.take limit).getLast?.map RefreshTokenFamily.familyId
  hasMore := decide (limit < rows.length)

def ofUser (userId : Option JsString) (family : RefreshTokenFamily) : Bool :=
  !truthy userId || userId = some family.userId

namespace Memory

/-- Neither revoked nor expired, and of the user asked for. -/
def listed (now : Int) (userId : Option JsString)
    (family : RefreshTokenFamily) : Bool :=
  !(family.revoked || decide (family.expiresAt < now)) && ofUser userId family

/-- The families listed, the newest first. -/
def sorted (families : FamilyTable) (now : Int) (userId : Option JsString) :
    List RefreshTokenFamily :=
  (families.rows.filter (listed now userId)).insertionSort
    (fun a b => b.createdAt ≤ a.createdAt)

/-- `result.slice(idx + 1)`, where the cursor is found. -/
def behind (cursor : Option JsString) (result : List RefreshTokenFamily) :
    List RefreshTokenFamily :=
  if truthy cursor then
    match result.findIdx? (fun f => some f.familyId = cursor) with
    | some idx => result.drop (idx + 1)
    | none => result
  else result

def listFamilies (families : FamilyTable) (now : Int)
    (opts : RefreshTokenListOptions) : FamilyPage :=
  pageOf (pageLimit opts.limit)
    (behind opts.cursor (sorted families now opts.userId))

end Memory

namespace Drizzle

def listed (now : Int) (userId : Option JsString)
    (family : RefreshTokenFamily) : Bool :=
  !family.revoked && decide (now < family.expiresAt) && ofUser userId family

/-- The condition that the cursor adds to the query. -/
def beforeCursor (families : FamilyTable) (cursor : Option JsString)
    (family : RefreshTokenFamily) : Bool :=
  if truthy cursor then
    match cursor.bind families.find? with
    | some cursorFamily => decide (family.createdAt < cursorFamily.createdAt)
    | none => true
  else true

def selected (families : FamilyTable) (now : Int)
    (opts : RefreshTokenListOptions) : List RefreshTokenFamily :=
  families.rows.filter fun family =>
    listed now opts.userId family && beforeCursor families opts.cursor family

/-- A page that the database may answer: `ORDER BY created_at DESC` leaves
the order of equal times open. -/
def ListFamilies (families : FamilyTable) (now : Int)
    (opts : RefreshTokenListOptions) (page : FamilyPage) : Prop :=
  ∃ rows, Arranged RefreshTokenFamily.createdAt (selected families now opts)
      rows ∧
    page = pageOf (pageLimit opts.limit) (rows.take (pageLimit opts.limit + 1))

end Drizzle

/-- The cursors of a listing lead to the end, and whatever pages are answered
on the way, each entry is shown once. -/
def ShowsEach (listing : Option JsString → FamilyPage → Prop)
    (entries : List RefreshTokenFamily) : Prop :=
  (∃ collected, Follows listing none collected) ∧
    ∀ collected, Follows listing none collected → collected.Perm entries

/-- The pages of the in-memory store, for one set of options. -/
def memoryListing (families : FamilyTable) (now : Int)
    (opts : RefreshTokenListOptions) (cursor : Option JsString)
    (page : FamilyPage) : Prop :=
  page = Memory.listFamilies families now { opts with cursor := cursor }

/-- The pages of the Drizzle store, for one set of options. -/
def drizzleListing (families : FamilyTable) (now : Int)
    (opts : RefreshTokenListOptions) (cursor : Option JsString)
    (page : FamilyPage) : Prop :=
  Drizzle.ListFamilies families now { opts with cursor := cursor } page

/-! ## Pages -/

theorem pageLimit_pos (limit : Option Int) : 0 < pageLimit limit := by
  rw [pageLimit]
  omega

theorem pageOf_take (limit : Nat) (rows : List RefreshTokenFamily) :
    pageOf limit (rows.take (limit + 1)) = pageOf limit rows := by
  have hData : (rows.take (limit + 1)).take limit = rows.take limit := by
    rw [List.take_take, Nat.min_eq_left (Nat.le_succ limit)]
  have hMore : (limit < (rows.take (limit + 1)).length) ↔
      limit < rows.length := by
    rw [List.length_take]
    omega
  simp only [pageOf, hData, hMore]

/-- The last family of a full page, by its position. -/
theorem getLast?_take {rows : List RefreshTokenFamily} {limit : Nat}
    (hLimit : 0 < limit) (hMore : limit < rows.length) :
    (rows.take limit).getLast? = rows[limit - 1]? := by
  rw [List.getLast?_eq_getElem?, List.length_take, Nat.min_eq_left hMore.le,
    List.getElem?_take, if_pos (by omega)]

/-- Distinct ids locate a family. -/
theorem findIdx?_familyId {rows : List RefreshTokenFamily}
    (hNodup : (rows.map RefreshTokenFamily.familyId).Nodup) {i : Nat}
    {family : RefreshTokenFamily} (hAt : rows[i]? = some family) :
    rows.findIdx? (fun f => some f.familyId = some family.familyId) =
      some i := by
  obtain ⟨hBound, hFamily⟩ := List.getElem?_eq_some_iff.mp hAt
  rw [List.findIdx?_eq_some_iff_getElem]
  refine ⟨hBound, by simp [hFamily], fun j hj => ?_⟩
  rw [decide_eq_true_iff, Option.some.injEq]
  intro hSame
  have hFront : j < (rows.map RefreshTokenFamily.familyId).length := by
    rw [List.length_map]
    omega
  have hSameId : (rows.map RefreshTokenFamily.familyId)[j]? =
      (rows.map RefreshTokenFamily.familyId)[i]? := by
    rw [List.getElem?_map, List.getElem?_map,
      List.getElem?_eq_getElem (hj.trans hBound),
      List.getElem?_eq_getElem hBound, hFamily, Option.map_some,
      Option.map_some, hSame]
  have hEq := (List.getElem?_inj hFront hNodup).mp hSameId
  omega

/-! ## The in-memory store -/

theorem nodup_sorted (families : FamilyTable) (now : Int)
    (userId : Option JsString) :
    ((Memory.sorted families now userId).map
      RefreshTokenFamily.familyId).Nodup := by
  have hPerm := (List.perm_insertionSort
    (fun a b : RefreshTokenFamily => b.createdAt ≤ a.createdAt)
    (families.rows.filter (Memory.listed now userId))).map
      RefreshTokenFamily.familyId
  rw [Memory.sorted, hPerm.nodup_iff]
  exact families.nodup.sublist (List.filter_sublist.map _)

/-- What remains behind a cursor is the end of the sorted list. -/
def MemoryRemains (families : FamilyTable) (now : Int)
    (userId cursor : Option JsString) (remaining : List RefreshTokenFamily) :
    Prop :=
  ∃ i, remaining = (Memory.sorted families now userId).drop i ∧
    Memory.behind cursor (Memory.sorted families now userId) = remaining

/-- The pages of the in-memory store are the sorted list, cut. -/
theorem memory_page (families : FamilyTable) (now : Int)
    (opts : RefreshTokenListOptions)
    (hIds : ∀ family ∈ families.rows, family.familyId ≠ [])
    {cursor : Option JsString} {remaining : List RefreshTokenFamily}
    (hRemains : MemoryRemains families now opts.userId cursor remaining) :
    PageOf (pageLimit opts.limit) (MemoryRemains families now opts.userId)
      remaining
      (Memory.listFamilies families now { opts with cursor := cursor }) := by
  obtain ⟨i, hDrop, hBehind⟩ := hRemains
  have hPage : Memory.listFamilies families now
      { opts with cursor := cursor } =
        pageOf (pageLimit opts.limit) remaining := by
    rw [← hBehind]
    rfl
  have hLimit := pageLimit_pos opts.limit
  rw [hPage]
  generalize pageLimit opts.limit = limit at *
  refine ⟨rfl, rfl, fun hMore => ⟨i + limit, ?_, ?_⟩⟩
  · rw [hDrop, List.drop_drop]
  · obtain ⟨last, hLast⟩ : ∃ last, remaining[limit - 1]? = some last :=
      ⟨_, List.getElem?_eq_getElem (by omega)⟩
    have hAt : (Memory.sorted families now opts.userId)[i + (limit - 1)]? =
        some last := by
      rw [← List.getElem?_drop, ← hDrop]
      exact hLast
    have hStored : last ∈ families.rows := by
      have hMem := List.mem_of_getElem? hAt
      rw [Memory.sorted, List.mem_insertionSort] at hMem
      exact (List.mem_filter.mp hMem).1
    have hTruthy : truthy (some last.familyId) = true := by
      simp [truthy, hIds last hStored]
    have hCursor : (pageOf limit remaining).cursor = some last.familyId := by
      rw [pageOf, getLast?_take hLimit hMore, hLast]
      rfl
    rw [hCursor, Memory.behind, if_pos hTruthy,
      findIdx?_familyId (nodup_sorted families now opts.userId) hAt, hDrop,
      List.drop_drop, show i + limit = i + (limit - 1) + 1 by omega]

theorem memory_shows (families : FamilyTable) (now : Int)
    (opts : RefreshTokenListOptions)
    (hIds : ∀ family ∈ families.rows, family.familyId ≠ []) :
    ShowsEach (memoryListing families now opts)
      (families.rows.filter (Memory.listed now opts.userId)) := by
  have hStart : MemoryRemains families now opts.userId none
      (Memory.sorted families now opts.userId) := ⟨0, rfl, rfl⟩
  constructor
  · have hListing : ∀ cursor remaining,
        MemoryRemains families now opts.userId cursor remaining →
        ∃ page, memoryListing families now opts cursor page ∧
          PageOf (pageLimit opts.limit)
            (MemoryRemains families now opts.userId) remaining page :=
      fun cursor remaining hRemains =>
        ⟨_, rfl, memory_page families now opts hIds hRemains⟩
    exact ⟨_, exists_follows (pageLimit_pos opts.limit) hListing hStart⟩
  · intro collected hFollows
    have hPages : ∀ cursor remaining page,
        MemoryRemains families now opts.userId cursor remaining →
        memoryListing families now opts cursor page →
        PageOf (pageLimit opts.limit)
          (MemoryRemains families now opts.userId) remaining page := by
      intro cursor remaining page hRemains hPage
      rw [memoryListing] at hPage
      rw [hPage]
      exact memory_page families now opts hIds hRemains
    rw [hFollows.eq_of_pages hPages hStart]
    exact List.perm_insertionSort _ _

/-! ## The Drizzle store -/

/-- What remains behind a cursor is what the query selects; the cursor is the
id of a stored family. -/
def DrizzleRemains (families : FamilyTable) (now : Int)
    (opts : RefreshTokenListOptions) (cursor : Option JsString)
    (remaining : List RefreshTokenFamily) : Prop :=
  remaining = Drizzle.selected families now { opts with cursor := cursor } ∧
    ∀ id, cursor = some id → ∃ family ∈ families.rows, family.familyId = id

theorem beforeCursor_of_mem {families : FamilyTable}
    {cursorFamily : RefreshTokenFamily} (hMem : cursorFamily ∈ families.rows)
    (hId : cursorFamily.familyId ≠ []) (family : RefreshTokenFamily) :
    Drizzle.beforeCursor families (some cursorFamily.familyId) family =
      decide (family.createdAt < cursorFamily.createdAt) := by
  have hTruthy : truthy (some cursorFamily.familyId) = true := by
    simp [truthy, hId]
  rw [Drizzle.beforeCursor, if_pos hTruthy, Option.bind_some,
    Table.find?_of_mem hMem]

/-- Behind the last family of a page the query selects the families that
remain with an earlier time. -/
theorem selected_behind (families : FamilyTable) (now : Int)
    (opts : RefreshTokenListOptions)
    (hIds : ∀ family ∈ families.rows, family.familyId ≠ [])
    {cursor : Option JsString} {remaining : List RefreshTokenFamily}
    (hRemains : DrizzleRemains families now opts cursor remaining)
    {last : RefreshTokenFamily} (hLast : last ∈ remaining) :
    DrizzleRemains families now opts (some last.familyId)
      (remaining.filter (·.createdAt < last.createdAt)) := by
  obtain ⟨hSelected, hCursor⟩ := hRemains
  rw [hSelected, Drizzle.selected, List.mem_filter, Bool.and_eq_true] at hLast
  obtain ⟨hStored, -, hLastBefore⟩ := hLast
  refine ⟨?_, fun id hId => ⟨last, hStored, Option.some.inj hId⟩⟩
  rw [hSelected, Drizzle.selected, Drizzle.selected, List.filter_filter]
  refine List.filter_congr fun family _ => ?_
  dsimp only at hLastBefore ⊢
  rw [beforeCursor_of_mem hStored (hIds last hStored)]
  by_cases hEarlier : family.createdAt < last.createdAt
  · have hBefore : Drizzle.beforeCursor families cursor family = true := by
      cases cursor with
      | none => rfl
      | some id =>
          obtain ⟨cursorFamily, hMem, rfl⟩ := hCursor id rfl
          rw [beforeCursor_of_mem hMem (hIds _ hMem), decide_eq_true_iff]
            at hLastBefore ⊢
          omega
    rw [hBefore, decide_eq_true hEarlier, Bool.true_and, Bool.and_true]
  · rw [decide_eq_false hEarlier, Bool.false_and, Bool.and_false]

/-- The pages of the Drizzle store are pages by the time of creation. -/
theorem drizzle_page (families : FamilyTable) (now : Int)
    (opts : RefreshTokenListOptions)
    (hIds : ∀ family ∈ families.rows, family.familyId ≠ [])
    {cursor : Option JsString} {remaining rows : List RefreshTokenFamily}
    (hRemains : DrizzleRemains families now opts cursor remaining)
    (hRows : Arranged RefreshTokenFamily.createdAt remaining rows) :
    KeyPageOf RefreshTokenFamily.createdAt (pageLimit opts.limit)
      (DrizzleRemains families now opts) remaining
      (pageOf (pageLimit opts.limit) rows) := by
  refine ⟨rows, hRows, rfl, rfl, fun last hMore hLast => ?_⟩
  have hCursor : (pageOf (pageLimit opts.limit) rows).cursor =
      some last.familyId := by
    rw [pageOf, hLast]
    rfl
  rw [hCursor]
  exact selected_behind families now opts hIds hRemains
    (hRows.perm.subset (List.mem_of_mem_take (List.mem_of_getLast? hLast)))

theorem drizzle_shows_iff (families : FamilyTable) (now : Int)
    (opts : RefreshTokenListOptions)
    (hIds : ∀ family ∈ families.rows, family.familyId ≠ []) :
    ShowsEach (drizzleListing families now opts)
        (families.rows.filter (Drizzle.listed now opts.userId)) ↔
      ¬BorderInTie RefreshTokenFamily.createdAt (pageLimit opts.limit)
        (families.rows.filter (Drizzle.listed now opts.userId)) := by
  have hStart : DrizzleRemains families now opts none
      (families.rows.filter (Drizzle.listed now opts.userId)) := by
    refine ⟨?_, fun _ h => (by cases h)⟩
    rw [Drizzle.selected]
    exact List.filter_congr fun family _ => (Bool.and_true _).symm
  have hNodup : (families.rows.filter
      (Drizzle.listed now opts.userId)).Nodup :=
    (families.nodup.of_map _).filter _
  have hPages : ∀ cursor remaining page,
      DrizzleRemains families now opts cursor remaining →
      drizzleListing families now opts cursor page →
      KeyPageOf RefreshTokenFamily.createdAt (pageLimit opts.limit)
        (DrizzleRemains families now opts) remaining page := by
    rintro cursor remaining page hRemains ⟨rows, hRows, hPage⟩
    rw [hPage, pageOf_take]
    refine drizzle_page families now opts hIds hRemains ?_
    rw [hRemains.1]
    exact hRows
  have hListing : ∀ cursor remaining,
      DrizzleRemains families now opts cursor remaining →
      ∃ page, drizzleListing families now opts cursor page ∧
        KeyPageOf RefreshTokenFamily.createdAt (pageLimit opts.limit)
          (DrizzleRemains families now opts) remaining page := by
    intro cursor remaining hRemains
    obtain ⟨rows, hRows⟩ :=
      exists_arranged RefreshTokenFamily.createdAt remaining
    refine ⟨pageOf (pageLimit opts.limit) rows,
      ⟨rows, ?_, (pageOf_take _ _).symm⟩,
      drizzle_page families now opts hIds hRemains hRows⟩
    rw [hRemains.1] at hRows
    exact hRows
  obtain ⟨first, hFirst⟩ :=
    exists_follows_key (pageLimit_pos opts.limit) hListing hStart
  constructor
  · intro hShows
    exact (hFirst.perm_iff hPages (pageLimit_pos opts.limit) hStart
      hNodup).mp (hShows.2 first hFirst)
  · intro hBorder
    exact ⟨⟨first, hFirst⟩, fun collected hFollows =>
      (hFollows.perm_iff hPages (pageLimit_pos opts.limit) hStart
        hNodup).mpr hBorder⟩

/-- Following the cursors shows every live family once in both stores exactly
where no page border lies between two families of the same time. -/
theorem listFamilies_shows_iff (families : FamilyTable) (now : Int)
    (opts : RefreshTokenListOptions)
    (hIds : ∀ family ∈ families.rows, family.familyId ≠ []) :
    ShowsEach (memoryListing families now opts)
        (families.rows.filter (Memory.listed now opts.userId)) ∧
      ShowsEach (drizzleListing families now opts)
        (families.rows.filter (Drizzle.listed now opts.userId)) ↔
    ¬BorderInTie RefreshTokenFamily.createdAt (pageLimit opts.limit)
      (families.rows.filter (Drizzle.listed now opts.userId)) :=
  (and_iff_right (memory_shows families now opts hIds)).trans
    (drizzle_shows_iff families now opts hIds)

/-! ## Two families of one moment -/

def familyAt (id : String) (createdAt : Int) : RefreshTokenFamily :=
  ⟨js id, js "user", js "client", js "hash", createdAt, 100, false⟩

theorem twoFamilies_nodup :
    ([familyAt "a" 10, familyAt "b" 10].map
      RefreshTokenFamily.familyId).Nodup := by decide

/-- Two families that were created at once. -/
def twoFamilies : FamilyTable :=
  ⟨[familyAt "a" 10, familyAt "b" 10], twoFamilies_nodup⟩

theorem listFamilies_shows_iff_two :
    ShowsEach (memoryListing twoFamilies 50 ⟨none, some 2, none⟩)
        (twoFamilies.rows.filter (Memory.listed 50 none)) ∧
      ShowsEach (drizzleListing twoFamilies 50 ⟨none, some 2, none⟩)
        (twoFamilies.rows.filter (Drizzle.listed 50 none)) ↔
    ¬BorderInTie RefreshTokenFamily.createdAt 2
      (twoFamilies.rows.filter (Drizzle.listed 50 none)) :=
  listFamilies_shows_iff twoFamilies 50 ⟨none, some 2, none⟩ (by decide)

/-- Page by page, one each, only the first of the two is ever shown. -/
theorem drizzle_loses_second :
    Follows (drizzleListing twoFamilies 50 ⟨none, some 1, none⟩) none
        [familyAt "a" 10] ∧
      familyAt "b" 10 ∈ twoFamilies.rows.filter (Drizzle.listed 50 none) ∧
      ¬ShowsEach (drizzleListing twoFamilies 50 ⟨none, some 1, none⟩)
        (twoFamilies.rows.filter (Drizzle.listed 50 none)) := by
  have hFirst : drizzleListing twoFamilies 50 ⟨none, some 1, none⟩ none
      ⟨[familyAt "a" 10], some (js "a"), true⟩ :=
    ⟨[familyAt "a" 10, familyAt "b" 10],
      ⟨by decide, by decide⟩, rfl⟩
  have hSecond : drizzleListing twoFamilies 50 ⟨none, some 1, none⟩
      (some (js "a")) ⟨[], none, false⟩ := ⟨[], ⟨by decide, by decide⟩, rfl⟩
  have hAll : Follows (drizzleListing twoFamilies 50 ⟨none, some 1, none⟩) none
      [familyAt "a" 10] := .more hFirst rfl (.last hSecond rfl)
  refine ⟨hAll, by decide, fun hShows => ?_⟩
  exact absurd (hShows.2 _ hAll) (by decide)

end OpenApe.Ports.FamilyListing
