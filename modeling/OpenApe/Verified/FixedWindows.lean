import Mathlib.Data.List.Zip
import Mathlib.Data.Option.Basic

/-!
# Fixed windows

A limiter counts the requests of each key in windows of a fixed length and
now and then drops the windows that are over.  A key is counted as if it were
alone and nothing were dropped (`answersTo_eq`), so fewer than two windows'
worth of its requests pass in any stretch of one window's length
(`countP_counted_le`).
-/

namespace OpenApe.Verified.FixedWindows

/-- The requests counted so far, and when the window is over. -/
structure Window where
  count : Nat
  resetAt : Int
  deriving DecidableEq

variable (length interval : Int)

/-- The window after a request: a new one, if there is none or it is over. -/
def charged (found : Option Window) (now : Int) : Window :=
  match found with
  | none => ⟨1, now + length⟩
  | some w =>
      if w.resetAt ≤ now then ⟨1, now + length⟩ else ⟨w.count + 1, w.resetAt⟩

/-- The windows of a key alone, request by request. -/
def counted : Option Window → List Int → List Window
  | _, [] => []
  | w, t :: ts => charged length w t :: counted (some (charged length w t)) ts

/-- A window that is not over yet. -/
def live (now : Int) (found : Option Window) : Option Window :=
  found.filter fun w => !decide (w.resetAt ≤ now)

theorem charged_live (found : Option Window) (now : Int) :
    charged length (live now found) now = charged length found now := by
  cases found with
  | none => rfl
  | some w =>
      by_cases h : w.resetAt ≤ now
      · simp [live, charged, Option.filter_some, h]
      · simp [live, Option.filter_some, h]

theorem live_live {now later : Int} (h : now ≤ later)
    (found : Option Window) :
    live later (live now found) = live later found := by
  rw [live, live, live, Option.filter_filter]
  congr 1
  funext w
  simp
  omega

/-! ## Limiters -/

section Limiters

variable {κ : Type}

structure Limiter (κ : Type) where
  windows : κ → Option Window := fun _ => none
  lastCleanup : Int

/-- A request, and the two readings of the clock it takes. -/
structure Request (κ : Type) where
  key : κ
  cleanedAt : Int
  now : Int

def Limiter.cleanup (s : Limiter κ) (now : Int) : Limiter κ :=
  if now - s.lastCleanup < interval then s
  else { windows := fun key => live now (s.windows key), lastCleanup := now }

/-- What is dropped is over. -/
theorem live_cleanup (s : Limiter κ) (key : κ) (now : Int) :
    live now ((s.cleanup interval now).windows key) =
      live now (s.windows key) := by
  rw [Limiter.cleanup]
  split
  · rfl
  · exact live_live (Int.le_refl now) (s.windows key)

variable [DecidableEq κ]

def Limiter.charge (s : Limiter κ) (key : κ) (now : Int) :
    Window × Limiter κ :=
  let w := charged length (s.windows key) now
  (w, { s with windows := Function.update s.windows key (some w) })

/-- The windows that the requests of a key are charged to. -/
def answersTo (key : κ) : List (Request κ) → Limiter κ → List Window
  | [], _ => []
  | r :: rs, s =>
      let (w, s) := (s.cleanup interval r.cleanedAt).charge length r.key r.now
      if r.key = key then w :: answersTo key rs s else answersTo key rs s

/-- The clock is not set back. -/
def Ordered : Int → List (Request κ) → Prop
  | _, [] => True
  | t, r :: rs => t ≤ r.cleanedAt ∧ r.cleanedAt ≤ r.now ∧ Ordered r.now rs

/-- When the requests of a key were made. -/
def timesOf (key : κ) (requests : List (Request κ)) : List Int :=
  (requests.filter fun r => r.key = key).map Request.now

/-- **A key is counted alone.** -/
theorem answersTo_eq {key : κ} {requests : List (Request κ)} {s : Limiter κ}
    {w : Option Window} {t : Int} (hOrdered : Ordered t requests)
    (hSame : live t (s.windows key) = live t w) :
    answersTo length interval key requests s =
      counted length w (timesOf key requests) := by
  induction requests generalizing s w t with
  | nil => rfl
  | cons r rs ih =>
      obtain ⟨hClean, hNow, hRest⟩ := hOrdered
      have hFound : live r.now
          ((s.cleanup interval r.cleanedAt).windows key) = live r.now w := by
        rw [← live_live hNow, live_cleanup, ← live_live hClean, hSame,
          live_live hClean, live_live hNow]
      rw [answersTo, timesOf, List.filter_cons]
      by_cases hKey : r.key = key
      · subst hKey
        have hFirst : charged length
            ((s.cleanup interval r.cleanedAt).windows r.key) r.now =
              charged length w r.now := by
          rw [← charged_live, hFound, charged_live]
        simp only [decide_true, if_true, List.map_cons, counted,
          Limiter.charge, hFirst]
        exact congrArg _ (ih hRest (by simp))
      · simp only [hKey, decide_false, Bool.false_eq_true, if_false]
        apply ih hRest
        simpa [Limiter.charge, Ne.symm hKey] using hFound

theorem sorted_timesOf {requests : List (Request κ)} {t : Int}
    (h : Ordered t requests) (key : κ) :
    (timesOf key requests).Pairwise (· ≤ ·) := by
  have hChain : (t :: requests.map Request.now).IsChain (· ≤ ·) := by
    induction requests generalizing t with
    | nil => exact .singleton t
    | cons r rs ih => exact .cons_cons (Int.le_trans h.1 h.2.1) (ih h.2.2)
  have hSorted := List.pairwise_cons.mp (List.isChain_iff_pairwise.mp hChain)
  exact hSorted.2.sublist (List.filter_sublist.map Request.now)

end Limiters

/-! ## How many pass -/

/-- A request within the limit in the stretch of a window's length from
`a` on. -/
def passes (limit : Nat) (a : Int) (p : Int × Window) : Bool :=
  decide (p.2.count ≤ limit ∧ a ≤ p.1 ∧ p.1 < a + length)

/-- How many more may pass in the stretch, this window being there. -/
def room (limit : Nat) (a : Int) (w : Window) : Nat :=
  if a < w.resetAt then
    (limit - w.count) + if w.resetAt < a + length then limit else 0
  else 2 * limit - 1

private theorem countP_counted_le_room (limit : Nat) (a : Int)
    (hLength : 0 ≤ length) {ts : List Int} (hSorted : ts.Pairwise (· ≤ ·))
    (w : Window) :
    (ts.zip (counted length (some w) ts)).countP (passes length limit a) ≤
      room length limit a w := by
  induction ts generalizing w with
  | nil => exact Nat.zero_le _
  | cons t ts ih =>
      obtain ⟨hFirst, hRest⟩ := List.pairwise_cons.mp hSorted
      have hNext := ih hRest (charged length (some w) t)
      by_cases hLate : a + length ≤ t
      · -- Nothing from here on is in the stretch.
        have hNone : ∀ p ∈ (t :: ts).zip (counted length (some w) (t :: ts)),
            ¬passes length limit a p = true := by
          rintro ⟨u, v⟩ hp hPasses
          have hTime : t ≤ u :=
            List.forall_mem_cons.mpr ⟨Int.le_refl t, hFirst⟩ u (List.of_mem_zip hp).1
          simp [passes] at hPasses
          omega
        rw [List.countP_eq_zero.mpr hNone]
        exact Nat.zero_le _
      · rw [counted, List.zip_cons_cons, List.countP_cons]
        have hPasses : ∀ w', passes length limit a (t, w') = true ↔
            w'.count ≤ limit ∧ a ≤ t ∧ t < a + length := by
          simp [passes]
        simp only [hPasses, room] at hNext ⊢
        by_cases hOver : w.resetAt ≤ t
        · -- A window that begins in the stretch ends after it.
          have hNew : charged length (some w) t = ⟨1, t + length⟩ :=
            if_pos hOver
          simp only [hNew] at hNext ⊢
          split_ifs at hNext ⊢ <;> omega
        · have hSame : charged length (some w) t =
              ⟨w.count + 1, w.resetAt⟩ := if_neg hOver
          simp only [hSame] at hNext ⊢
          split_ifs at hNext ⊢ <;> omega

/-- Less than twice the limit pass in a stretch of a window's length: a
window starts with its first request. -/
theorem countP_counted_le {limit : Nat} {a : Int} (hLength : 0 ≤ length)
    {ts : List Int} (hSorted : ts.Pairwise (· ≤ ·)) :
    (ts.zip (counted length none ts)).countP (passes length limit a) ≤
      2 * limit - 1 := by
  cases ts with
  | nil => exact Nat.zero_le _
  | cons t ts =>
      -- No window is like one that is over.
      have hOver : counted length none (t :: ts) =
          counted length (some ⟨0, min a t⟩) (t :: ts) := by
        simp [counted, charged, Int.min_le_right]
      rw [hOver]
      have hRoom := countP_counted_le_room length limit a hLength hSorted
        ⟨0, min a t⟩
      have hPast : ¬a < min a t := by omega
      rwa [room, if_neg hPast] at hRoom

end OpenApe.Verified.FixedWindows
