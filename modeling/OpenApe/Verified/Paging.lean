import Mathlib.Data.List.Sort
import Mathlib.Data.List.Nodup
import Mathlib.Data.List.Count

/-!
# Lists read page by page

A listing answers with a page of some entries, whether there are more, and a
cursor for the next page.  Following the cursors to the end collects the
pages one after the other.

Where each cursor stands for what remains of one list, the pages together are
that list.  A listing in the order of a key may instead continue behind the
key of the last entry; then entries with the same key on both sides of a page
border are left out, and nothing else is.
-/

namespace OpenApe.Verified.Paging

variable {α κ : Type}

/-- A page of entries, and the cursor behind it. -/
structure Page (α κ : Type) where
  data : List α
  cursor : Option κ
  hasMore : Bool

/-- What is collected from a cursor to the end.  A listing relates a cursor
to the pages it may answer. -/
inductive Follows (listing : Option κ → Page α κ → Prop) :
    Option κ → List α → Prop
  | last {cursor : Option κ} {page : Page α κ} (hPage : listing cursor page)
      (hEnd : page.hasMore = false) : Follows listing cursor page.data
  | more {cursor : Option κ} {page : Page α κ} {rest : List α}
      (hPage : listing cursor page) (hMore : page.hasMore = true)
      (hRest : Follows listing page.cursor rest) :
      Follows listing cursor (page.data ++ rest)

/-- A listing that answers one page at a cursor collects one thing. -/
theorem Follows.unique {listing : Option κ → Page α κ → Prop}
    (hUnique : ∀ cursor page page', listing cursor page →
      listing cursor page' → page = page')
    {cursor : Option κ} {first second : List α}
    (hFirst : Follows listing cursor first)
    (hSecond : Follows listing cursor second) : first = second := by
  induction hFirst generalizing second with
  | last hPage hEnd =>
      cases hSecond with
      | last hPage' => rw [hUnique _ _ _ hPage hPage']
      | more hPage' hMore' =>
          rw [hUnique _ _ _ hPage hPage', hMore'] at hEnd
          cases hEnd
  | more hPage hMore _ ih =>
      cases hSecond with
      | last hPage' hEnd' =>
          rw [hUnique _ _ _ hPage hPage', hEnd'] at hMore
          cases hMore
      | more hPage' _ hRest' =>
          have hSame := hUnique _ _ _ hPage hPage'
          rw [← hSame] at hRest' ⊢
          rw [ih hRest']

/-! ## Pages of what remains -/

/-- A page of the first entries that remain; its cursor stands for the
others. -/
structure PageOf (limit : Nat) (Remains : Option κ → List α → Prop)
    (remaining : List α) (page : Page α κ) : Prop where
  data : page.data = remaining.take limit
  hasMore : page.hasMore = decide (limit < remaining.length)
  cursor : limit < remaining.length →
    Remains page.cursor (remaining.drop limit)

variable {listing : Option κ → Page α κ → Prop} {limit : Nat}
  {Remains : Option κ → List α → Prop}

/-- Pages of what remains collect the whole list. -/
theorem Follows.eq_of_pages
    (hPages : ∀ cursor remaining page, Remains cursor remaining →
      listing cursor page → PageOf limit Remains remaining page)
    {cursor : Option κ} {collected remaining : List α}
    (h : Follows listing cursor collected) (hStart : Remains cursor remaining) :
    collected = remaining := by
  induction h generalizing remaining with
  | last hPage hEnd =>
      have hOf := hPages _ _ _ hStart hPage
      rw [hOf.hasMore, decide_eq_false_iff_not] at hEnd
      rw [hOf.data, List.take_of_length_le (by omega)]
  | more hPage hMore _ ih =>
      have hOf := hPages _ _ _ hStart hPage
      rw [hOf.hasMore, decide_eq_true_iff] at hMore
      rw [ih (hOf.cursor hMore), hOf.data, List.take_append_drop]

/-- The end is reached. -/
theorem exists_follows (hLimit : 0 < limit)
    (hListing : ∀ cursor remaining, Remains cursor remaining →
      ∃ page, listing cursor page ∧ PageOf limit Remains remaining page)
    {cursor : Option κ} {remaining : List α}
    (hStart : Remains cursor remaining) :
    Follows listing cursor remaining := by
  induction hLength : remaining.length using Nat.strong_induction_on
    generalizing cursor remaining with
  | _ n ih =>
      obtain ⟨page, hPage, hOf⟩ := hListing cursor remaining hStart
      by_cases hMore : limit < remaining.length
      · have hRest := ih (remaining.drop limit).length
          (by rw [List.length_drop]; omega) (hOf.cursor hMore) rfl
        rw [← List.take_append_drop limit remaining, ← hOf.data]
        exact .more hPage (by rw [hOf.hasMore, decide_eq_true_iff]; exact hMore)
          hRest
      · have hAll : page.data = remaining := by
          rw [hOf.data, List.take_of_length_le (by omega)]
        rw [← hAll]
        exact .last hPage
          (by rw [hOf.hasMore, decide_eq_false_iff_not]; exact hMore)

/-! ## Pages behind a position -/

/-- In a strict order, the entries behind the last of the first ones are the
others. -/
theorem filter_behind_last {behind : α → α → Bool}
    (hAsymm : ∀ a b, behind a b = true → behind b a = false)
    {entries : List α} (hOrder : entries.Pairwise fun a b => behind a b = true)
    {n : Nat} {last : α} (hLast : (entries.take n).getLast? = some last) :
    entries.filter (behind last) = entries.drop n := by
  have hIrrefl : behind last last = false := by
    by_contra hSelf
    rw [Bool.not_eq_false] at hSelf
    exact absurd hSelf (Bool.eq_false_iff.mp (hAsymm last last hSelf))
  obtain ⟨front, hFront⟩ := List.getLast?_eq_some_iff.mp hLast
  rw [← List.take_append_drop n entries, hFront, List.pairwise_append,
    List.pairwise_append] at hOrder
  obtain ⟨⟨-, -, hBefore⟩, -, hAfter⟩ := hOrder
  have hNone : (entries.take n).filter (behind last) = [] := by
    rw [hFront, List.filter_eq_nil_iff]
    intro a ha
    rw [Bool.not_eq_true]
    rcases List.mem_append.mp ha with hMem | hMem
    · exact hAsymm a last (hBefore a hMem last (List.mem_singleton_self last))
    · rw [List.mem_singleton.mp hMem]
      exact hIrrefl
  have hAll : (entries.drop n).filter (behind last) = entries.drop n := by
    rw [List.filter_eq_self]
    intro b hb
    exact hAfter last (List.mem_append_right front
      (List.mem_singleton_self last)) b hb
  calc entries.filter (behind last)
      = (entries.take n ++ entries.drop n).filter (behind last) := by
        rw [List.take_append_drop]
    _ = entries.drop n := by
        rw [List.filter_append, hNone, hAll, List.nil_append]

/-! ## The newest first -/

section Newest

variable {ν : Type} [LinearOrder ν] {time : α → Int} {name : α → ν}
  {before : α → α → Bool}

/-- Entries with distinct names, sorted by falling times and names, are in a
strict order. -/
theorem sorted_strict
    (hBefore : ∀ a b, before a b = true ↔
      time b < time a ∨ time a = time b ∧ name b ≤ name a)
    {entries : List α} (hNames : (entries.map name).Nodup) :
    (entries.insertionSort fun a b => before a b = true).Pairwise fun a b =>
      time b < time a ∨ time a = time b ∧ name b < name a := by
  have hTotal : Std.Total fun a b => before a b = true := by
    refine ⟨fun a b => ?_⟩
    rw [hBefore, hBefore]
    have hOrder := le_total (name a) (name b)
    rcases lt_trichotomy (time a) (time b) with h | h | h
    · exact .inr (.inl h)
    · rcases hOrder with hLe | hLe
      · exact .inr (.inr ⟨h.symm, hLe⟩)
      · exact .inl (.inr ⟨h, hLe⟩)
    · exact .inl (.inl h)
  have hTrans : IsTrans α fun a b => before a b = true := by
    refine ⟨fun a b c hab hbc => ?_⟩
    rw [hBefore] at hab hbc ⊢
    rcases hab with hLess | ⟨hEq, hLe⟩ <;> rcases hbc with hLess' | ⟨hEq', hLe'⟩
    · exact .inl (by omega)
    · exact .inl (by omega)
    · exact .inl (by omega)
    · exact .inr ⟨by omega, hLe'.trans hLe⟩
  have hSorted := List.pairwise_insertionSort
    (fun a b => before a b = true) entries
  have hDistinct : (entries.insertionSort fun a b =>
      before a b = true).Pairwise fun a b => name a ≠ name b := by
    rw [← List.pairwise_map]
    exact (((List.perm_insertionSort _ entries).map name).nodup_iff).mpr hNames
  refine (hSorted.and hDistinct).imp fun {a b} h => ?_
  rcases (hBefore a b).mp h.1 with hLess | ⟨hEq, hLe⟩
  · exact .inl hLess
  · exact .inr ⟨hEq, lt_of_le_of_ne hLe (Ne.symm h.2)⟩

/-- The strict order sorts in one way only. -/
theorem eq_sorted
    (hBefore : ∀ a b, before a b = true ↔
      time b < time a ∨ time a = time b ∧ name b ≤ name a)
    {entries rows : List α} (hNames : (entries.map name).Nodup)
    (hPerm : rows.Perm entries) (hRows : rows.Pairwise fun a b =>
      time b < time a ∨ time a = time b ∧ name b < name a) :
    rows = entries.insertionSort fun a b => before a b = true := by
  refine List.Perm.eq_of_pairwise (fun a b _ _ hab hba => ?_) hRows
    (sorted_strict hBefore hNames)
    (hPerm.trans (List.perm_insertionSort _ entries).symm)
  rcases hab with hLess | ⟨hEq, hLt⟩ <;> rcases hba with hLess' | ⟨hEq', hLt'⟩
  · exact absurd hLess (by omega)
  · exact absurd hLess (by omega)
  · exact absurd hLess' (by omega)
  · exact absurd hLt (lt_asymm hLt')

/-- Filtering before or after sorting makes no difference. -/
theorem insertionSort_filter
    (hBefore : ∀ a b, before a b = true ↔
      time b < time a ∨ time a = time b ∧ name b ≤ name a)
    {entries : List α} (hNames : (entries.map name).Nodup) (p : α → Bool) :
    (entries.filter p).insertionSort (fun a b => before a b = true) =
      (entries.insertionSort fun a b => before a b = true).filter p := by
  symm
  refine eq_sorted hBefore ?_ ((List.perm_insertionSort _ entries).filter p)
    ((sorted_strict hBefore hNames).sublist List.filter_sublist)
  exact hNames.sublist (List.filter_sublist.map name)

end Newest

/-! ## Calls on a store -/

section Calls

variable {σ ε : Type} {list : Option κ → σ → Except ε (Page α κ) × σ}

/-- One call at a store and a cursor; the next one is made at the store that
it leaves. -/
def Step (list : Option κ → σ → Except ε (Page α κ) × σ) :
    Option (σ × Option κ) → Page α (σ × Option κ) → Prop
  | none, _ => False
  | some (store, cursor), page => ∃ answer store',
      list cursor store = (.ok answer, store') ∧
        page = ⟨answer.data, some (store', answer.cursor), answer.hasMore⟩

/-- What the calls from the start to the end return. -/
def Collects (list : Option κ → σ → Except ε (Page α κ) × σ) (store : σ)
    (collected : List α) : Prop :=
  Follows (Step list) (some (store, none)) collected

theorem Step.unique {cursor : Option (σ × Option κ)}
    {first second : Page α (σ × Option κ)} (hFirst : Step list cursor first)
    (hSecond : Step list cursor second) : first = second := by
  cases cursor with
  | none => exact False.elim hFirst
  | some position =>
      obtain ⟨answer, store, hCall, hEq⟩ := hFirst
      obtain ⟨answer', store', hCall', hEq'⟩ := hSecond
      rw [hCall] at hCall'
      cases hCall'
      rw [hEq, hEq']

/-- The calls are functions, so they collect one thing at most. -/
theorem Collects.unique {store : σ} {first second : List α}
    (hFirst : Collects list store first)
    (hSecond : Collects list store second) : first = second := by
  have hUnique : ∀ cursor page page', Step list cursor page →
      Step list cursor page' → page = page' :=
    fun _ _ _ hPage hPage' => hPage.unique hPage'
  exact Follows.unique hUnique hFirst hSecond

/-- Calls that answer with pages of what remains collect the whole list, also
where they change the store among stores that answer alike. -/
theorem collects_iff {limit : Nat} {Alike : σ → Prop}
    {Rests : Option κ → List α → Prop} (hLimit : 0 < limit)
    (hCalls : ∀ store cursor remaining, Alike store → Rests cursor remaining →
      ∃ answer store', list cursor store = (.ok answer, store') ∧
        Alike store' ∧ PageOf limit Rests remaining answer)
    {store : σ} {entries : List α} (hStore : Alike store)
    (hStart : Rests none entries) (collected : List α) :
    Collects list store collected ↔ collected = entries := by
  let Remains : Option (σ × Option κ) → List α → Prop :=
    fun cursor remaining => ∃ store' cursor', cursor = some (store', cursor') ∧
      Alike store' ∧ Rests cursor' remaining
  have hPages : ∀ cursor remaining, Remains cursor remaining →
      ∃ page, Step list cursor page ∧ PageOf limit Remains remaining page := by
    intro cursor remaining hRemains
    obtain ⟨store, cursor, rfl, hAlike, hRests⟩ := hRemains
    obtain ⟨answer, store', hCall, hAlike', hPage⟩ :=
      hCalls store cursor remaining hAlike hRests
    exact ⟨_, ⟨answer, store', hCall, rfl⟩, hPage.data, hPage.hasMore,
      fun hMore => ⟨store', answer.cursor, rfl, hAlike', hPage.cursor hMore⟩⟩
  have hFirst : Remains (some (store, none)) entries :=
    ⟨store, none, rfl, hStore, hStart⟩
  have hAll : Collects list store entries :=
    exists_follows hLimit hPages hFirst
  constructor
  · intro h
    exact h.unique hAll
  · intro h
    rw [h]
    exact hAll

end Calls

/-! ## Pages by a key -/

variable {key : α → Int}

/-- Entries in the order of a falling key; the order of ties is open. -/
structure Arranged (key : α → Int) (entries rows : List α) : Prop where
  perm : rows.Perm entries
  falling : rows.Pairwise fun a b => key b ≤ key a

/-- Entries can be brought into the order of a falling key. -/
theorem exists_arranged (key : α → Int) (entries : List α) :
    ∃ rows, Arranged key entries rows := by
  refine ⟨entries.mergeSort (fun a b => decide (key b ≤ key a)),
    List.mergeSort_perm _ _, ?_⟩
  refine (List.pairwise_mergeSort ?_ ?_ entries).imp of_decide_eq_true
  · intro a b c hab hbc
    rw [decide_eq_true_iff] at hab hbc ⊢
    omega
  · intro a b
    rw [Bool.or_eq_true, decide_eq_true_iff, decide_eq_true_iff]
    omega

/-- A page border that lies inside a tie: fewer entries have a greater key
than the border counts, and more have a key at least as great. -/
def BorderInTie (key : α → Int) (limit : Nat) (entries : List α) : Prop :=
  ∃ (t : Int) (k : Nat), entries.countP (t < key ·) < k * limit ∧
    k * limit < entries.countP (t ≤ key ·)

theorem BorderInTie.of_perm {xs ys : List α} (h : xs.Perm ys) :
    BorderInTie key limit xs ↔ BorderInTie key limit ys := by
  simp only [BorderInTie, h.countP_eq]

/-- A page that holds everything has no border inside. -/
theorem not_borderInTie {entries : List α} (h : entries.length ≤ limit) :
    ¬BorderInTie key limit entries := by
  rintro ⟨t, k, hBelow, hAbove⟩
  have hCount : entries.countP (t ≤ key ·) ≤ entries.length :=
    List.countP_le_length
  have hk : k ≠ 0 := by
    rintro rfl
    omega
  have hMul : 1 * limit ≤ k * limit :=
    Nat.mul_le_mul_right limit (Nat.pos_of_ne_zero hk)
  omega

/-- A border between two keys can be taken off with the page before it. -/
theorem borderInTie_append {page rest : List α} (hLength : page.length = limit)
    (hApart : ∀ a ∈ page, ∀ b ∈ rest, key b < key a) :
    BorderInTie key limit (page ++ rest) ↔ BorderInTie key limit rest := by
  -- where some key of the rest reaches `t`, the whole page is above it
  have hAll : ∀ t, 0 < rest.countP (t ≤ key ·) →
      page.countP (t < key ·) = limit ∧ page.countP (t ≤ key ·) = limit := by
    intro t hSome
    obtain ⟨b, hb, hReach⟩ := List.countP_pos_iff.mp hSome
    have hReach := of_decide_eq_true hReach
    rw [← hLength, List.countP_eq_length, List.countP_eq_length]
    refine ⟨fun a ha => decide_eq_true ?_, fun a ha => decide_eq_true ?_⟩ <;>
      have hAbove := hApart a ha b hb <;> omega
  have hPage : ∀ t, page.countP (t ≤ key ·) ≤ limit := fun t =>
    hLength ▸ List.countP_le_length
  constructor
  · rintro ⟨t, k, hBelow, hAbove⟩
    rw [List.countP_append] at hBelow hAbove
    cases k with
    | zero => omega
    | succ k =>
        rw [Nat.succ_mul] at hBelow hAbove
        have hBound := hPage t
        obtain ⟨hGreater, hAtLeast⟩ := hAll t (by omega)
        exact ⟨t, k, by omega, by omega⟩
  · rintro ⟨t, k, hBelow, hAbove⟩
    obtain ⟨hGreater, hAtLeast⟩ := hAll t (by omega)
    refine ⟨t, k + 1, ?_, ?_⟩ <;>
      rw [List.countP_append, Nat.succ_mul] <;> omega

/-- A page of the entries with the greatest keys; its cursor stands for the
entries with smaller keys than its last one. -/
def KeyPageOf (key : α → Int) (limit : Nat)
    (Remains : Option κ → List α → Prop) (remaining : List α)
    (page : Page α κ) : Prop :=
  ∃ rows, Arranged key remaining rows ∧ page.data = rows.take limit ∧
    page.hasMore = decide (limit < rows.length) ∧
    ∀ last, limit < rows.length → (rows.take limit).getLast? = some last →
      Remains page.cursor (remaining.filter fun a => key a < key last)

/-- A full page has a last entry, and all its keys are at least as great. -/
theorem exists_last {entries rows : List α} (h : Arranged key entries rows)
    (hLimit : 0 < limit) (hMore : limit < rows.length) :
    ∃ last, (rows.take limit).getLast? = some last ∧
      last ∈ rows.take limit ∧ ∀ a ∈ rows.take limit, key last ≤ key a := by
  have hNonempty : rows.take limit ≠ [] := by
    rw [Ne, ← List.length_eq_zero_iff, List.length_take]
    omega
  refine ⟨(rows.take limit).getLast hNonempty,
    List.getLast?_eq_some_getLast hNonempty, List.getLast_mem hNonempty,
    fun a ha => ?_⟩
  have hFalling := h.falling.sublist (List.take_sublist limit rows)
  rw [← List.dropLast_append_getLast hNonempty, List.pairwise_append]
    at hFalling
  rw [← List.dropLast_append_getLast hNonempty, List.mem_append] at ha
  rcases ha with hFront | hLast
  · exact hFalling.2.2 a hFront _ (List.mem_singleton_self _)
  · rw [List.mem_singleton.mp hLast]

/-- Nothing is collected that does not remain. -/
theorem Follows.subset
    (hPages : ∀ cursor remaining page, Remains cursor remaining →
      listing cursor page → KeyPageOf key limit Remains remaining page)
    (hLimit : 0 < limit) {cursor : Option κ} {collected remaining : List α}
    (h : Follows listing cursor collected) (hStart : Remains cursor remaining) :
    collected ⊆ remaining := by
  induction h generalizing remaining with
  | last hPage hEnd =>
      obtain ⟨rows, hRows, hData, -⟩ := hPages _ _ _ hStart hPage
      rw [hData]
      exact fun a ha => hRows.perm.subset (List.mem_of_mem_take ha)
  | more hPage hMore _ ih =>
      obtain ⟨rows, hRows, hData, hHasMore, hCursor⟩ :=
        hPages _ _ _ hStart hPage
      rw [hHasMore, decide_eq_true_iff] at hMore
      obtain ⟨last, hLast, -⟩ := exists_last hRows hLimit hMore
      rw [hData]
      refine List.append_subset.mpr
        ⟨fun a ha => hRows.perm.subset (List.mem_of_mem_take ha), ?_⟩
      exact fun a ha =>
        (List.mem_filter.mp (ih (hCursor last hMore hLast) ha)).1

/-- Where the entry behind a border has the key of the last one before it, the
border lies inside a tie. -/
theorem borderInTie_of_eq {page rest : List α} {last next : α}
    (hLength : page.length = limit) (hLast : last ∈ page)
    (hPage : ∀ a ∈ page, key last ≤ key a)
    (hRest : ∀ b ∈ next :: rest, key b ≤ key last)
    (hTie : key next = key last) :
    BorderInTie key limit (page ++ next :: rest) := by
  refine ⟨key last, 1, ?_, ?_⟩ <;> rw [List.countP_append, Nat.one_mul]
  · have hNone : (next :: rest).countP (key last < key ·) = 0 := by
      rw [List.countP_eq_zero]
      intro b hb hAbove
      have hLe := hRest b hb
      have hLt := of_decide_eq_true hAbove
      omega
    have hLess : page.countP (key last < key ·) ≠ page.length := by
      rw [Ne, List.countP_eq_length]
      intro hAll
      have hSelf := of_decide_eq_true (hAll last hLast)
      omega
    have hLe : page.countP (key last < key ·) ≤ page.length :=
      List.countP_le_length
    omega
  · have hAll : page.countP (key last ≤ key ·) = page.length :=
      List.countP_eq_length.mpr fun a ha => decide_eq_true (hPage a ha)
    have hSome : 0 < (next :: rest).countP (key last ≤ key ·) :=
      List.countP_pos_iff.mpr
        ⟨next, List.mem_cons_self, decide_eq_true hTie.ge⟩
    omega

/-- Behind a border between two keys, exactly the rest has a smaller key. -/
theorem filter_behind {page rest : List α} {last : α}
    (hPage : ∀ a ∈ page, key last ≤ key a)
    (hRest : ∀ b ∈ rest, key b < key last) :
    (page ++ rest).filter (key · < key last) = rest := by
  rw [List.filter_append, List.filter_eq_nil_iff.mpr, List.filter_eq_self.mpr,
    List.nil_append]
  · exact fun b hb => decide_eq_true (hRest b hb)
  · intro a ha hLess
    have hLe := hPage a ha
    have hLt := of_decide_eq_true hLess
    omega

/-- A listing by keys collects every entry exactly where no page border lies
inside a tie. -/
theorem Follows.perm_iff
    (hPages : ∀ cursor remaining page, Remains cursor remaining →
      listing cursor page → KeyPageOf key limit Remains remaining page)
    (hLimit : 0 < limit) {cursor : Option κ} {collected remaining : List α}
    (h : Follows listing cursor collected) (hStart : Remains cursor remaining)
    (hNodup : remaining.Nodup) :
    collected.Perm remaining ↔ ¬BorderInTie key limit remaining := by
  induction h generalizing remaining with
  | last hPage hEnd =>
      obtain ⟨rows, hRows, hData, hHasMore, -⟩ := hPages _ _ _ hStart hPage
      rw [hHasMore, decide_eq_false_iff_not] at hEnd
      rw [hData, List.take_of_length_le (by omega)]
      refine iff_of_true hRows.perm (not_borderInTie ?_)
      rw [← hRows.perm.length_eq]
      omega
  | @more cursor page rest hPage hMore hRest ih =>
      obtain ⟨rows, hRows, hData, hHasMore, hCursor⟩ :=
        hPages _ _ _ hStart hPage
      rw [hHasMore, decide_eq_true_iff] at hMore
      obtain ⟨last, hLast, hLastMem, hAtLeast⟩ := exists_last hRows hLimit hMore
      have hNext := hCursor last hMore hLast
      have hLength : (rows.take limit).length = limit := by
        rw [List.length_take]
        omega
      have hFalling := hRows.falling
      rw [← List.take_append_drop limit rows, List.pairwise_append] at hFalling
      obtain ⟨-, hDropped, hAcross⟩ := hFalling
      have hRows' := hRows.perm
      rw [← List.take_append_drop limit rows] at hRows'
      rw [hData]
      generalize rows.take limit = front at *
      cases hDrop : rows.drop limit with
      | nil =>
          have hEmpty := congrArg List.length hDrop
          rw [List.length_drop, List.length_nil] at hEmpty
          omega
      | cons next others =>
          rw [hDrop] at hDropped hAcross hRows'
          have hBehind := hAcross last hLastMem
          by_cases hTie : key next = key last
          · -- the next entry is behind the border, and no cursor reaches it
            refine iff_of_false (fun hPerm => ?_) (not_not.mpr ?_)
            · have hUnique := hRows'.nodup_iff.mpr hNodup
              have hNextMem := hPerm.symm.subset (hRows'.subset
                (List.mem_append_right front List.mem_cons_self))
              rcases List.mem_append.mp hNextMem with hFront | hRestMem
              · exact (List.nodup_append.mp hUnique).2.2 next hFront next
                  List.mem_cons_self rfl
              · have hSmaller := of_decide_eq_true (List.mem_filter.mp
                  (hRest.subset hPages hLimit hNext hRestMem)).2
                omega
            · rw [← BorderInTie.of_perm hRows']
              exact borderInTie_of_eq hLength hLastMem hAtLeast hBehind hTie
          · have hNextLe := hBehind next List.mem_cons_self
            have hSmaller : ∀ b ∈ next :: others, key b < key last := by
              intro b hb
              rcases List.mem_cons.mp hb with hEq | hOther
              · rw [hEq]
                omega
              · have hBelow := (List.pairwise_cons.mp hDropped).1 b hOther
                omega
            have hRemaining : (remaining.filter (key · < key last)).Perm
                (next :: others) := by
              rw [← filter_behind hAtLeast hSmaller]
              exact (hRows'.filter _).symm
            have hApart : ∀ a ∈ front, ∀ b ∈ next :: others,
                key b < key a := by
              intro a ha b hb
              have hFirst := hAtLeast a ha
              have hSecond := hSmaller b hb
              omega
            rw [← BorderInTie.of_perm hRows', borderInTie_append hLength hApart,
              ← BorderInTie.of_perm hRemaining,
              ← ih hNext (hNodup.filter _)]
            constructor
            · intro hPerm
              have hTail := (List.perm_append_left_iff front).mp
                (hPerm.trans hRows'.symm)
              exact hTail.trans hRemaining.symm
            · intro hPerm
              exact ((List.perm_append_left_iff front).mpr
                (hPerm.trans hRemaining)).trans hRows'

/-- A listing by keys comes to an end. -/
theorem exists_follows_key (hLimit : 0 < limit)
    (hListing : ∀ cursor remaining, Remains cursor remaining →
      ∃ page, listing cursor page ∧
        KeyPageOf key limit Remains remaining page)
    {cursor : Option κ} {remaining : List α}
    (hStart : Remains cursor remaining) :
    ∃ collected, Follows listing cursor collected := by
  induction hLength : remaining.length using Nat.strong_induction_on
    generalizing cursor remaining with
  | _ n ih =>
      obtain ⟨page, hPage, rows, hRows, -, hHasMore, hCursor⟩ :=
        hListing cursor remaining hStart
      by_cases hMore : limit < rows.length
      · obtain ⟨last, hLast, hMem, -⟩ := exists_last hRows hLimit hMore
        have hRemains : last ∈ remaining :=
          hRows.perm.subset (List.mem_of_mem_take hMem)
        have hFewer : (remaining.filter (key · < key last)).length < n := by
          rw [← hLength]
          refine lt_of_le_of_ne (List.length_filter_le _ _) fun hEq => ?_
          have hAll := List.length_filter_eq_length_iff.mp hEq last hRemains
          exact lt_irrefl _ (of_decide_eq_true hAll)
        obtain ⟨rest, hRest⟩ := ih _ hFewer (hCursor last hMore hLast) rfl
        exact ⟨_, .more hPage (hHasMore.trans (decide_eq_true hMore)) hRest⟩
      · exact ⟨_, .last hPage (hHasMore.trans (decide_eq_false hMore))⟩

end OpenApe.Verified.Paging
