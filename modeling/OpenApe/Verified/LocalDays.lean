import Mathlib.Order.Basic
import Mathlib.Algebra.Order.Ring.Int
import Mathlib.Data.Int.LeastGreatest

/-!
# Local days under a changing offset

Instants are counted in whole minutes.  A time zone adds an offset of at most
fourteen hours to an instant and changes it at most once in any seven days,
so that local time runs like the instants except at one place a week, where
it skips or repeats up to twenty-eight hours.

The slot of a local day is the first minute of that day at or past a target
minute.  A day may have no slot, but slots increase with their days, and of
any three days in a row one has a slot.
-/

namespace OpenApe.Verified.LocalDays

/-- An offset in minutes for every minute: bounded by fourteen hours, and
with at least seven days, 10080 minutes, between two changes. -/
structure TimeZone where
  offset : Int → Int
  bounded : ∀ m, -840 ≤ offset m ∧ offset m ≤ 840
  seldom : ∀ m n, m < n → offset (m - 1) ≠ offset m →
    offset (n - 1) ≠ offset n → m + 10080 ≤ n

namespace TimeZone

/-- A zone that never changes its offset. -/
def fixed (offset : Int) (h : -840 ≤ offset ∧ offset ≤ 840) : TimeZone where
  offset := fun _ => offset
  bounded := fun _ => h
  seldom := fun _ _ _ hChange => absurd rfl hChange

variable (zone : TimeZone)

/-- Local time in minutes. -/
def localTime (m : Int) : Int := m + zone.offset m

/-- The local day of a minute, counted from the epoch. -/
def day (m : Int) : Int := zone.localTime m / 1440

/-- The minute of the local day. -/
def minuteOfDay (m : Int) : Int := zone.localTime m % 1440

/-- Whether a minute of day `d` is at or past the target. -/
def reaches (target d m : Int) : Bool :=
  zone.day m == d && decide (target ≤ zone.minuteOfDay m)

/-- The slot of a day: its first minute at or past the target. -/
structure IsSlot (target d m : Int) : Prop where
  reaches : zone.reaches target d m = true
  least : ∀ n, zone.reaches target d n = true → m ≤ n

/-! ## One change a week -/

variable {zone}

theorem offset_eq_of_unchanged {lo hi : Int} (h : lo ≤ hi)
    (hSame : ∀ n, lo < n → n ≤ hi → zone.offset (n - 1) = zone.offset n) :
    zone.offset hi = zone.offset lo := by
  induction hi, h using Int.leInduction with
  | base => rfl
  | succ hi hle ih =>
      have hLast := hSame (hi + 1) (by omega) le_rfl
      rw [Int.add_sub_cancel] at hLast
      rw [← hLast]
      exact ih fun n hlo hn => hSame n hlo (by omega)

/-- Within seven days the offset is a step function. -/
theorem offset_step (zone : TimeZone) (lo : Int) :
    ∃ c a b, (-840 ≤ a ∧ a ≤ 840) ∧ (-840 ≤ b ∧ b ≤ 840) ∧
      ∀ m, lo ≤ m → m < lo + 10080 → zone.offset m = if m < c then a else b := by
  by_cases hChange : ∃ c, lo < c ∧ c < lo + 10080 ∧
      zone.offset (c - 1) ≠ zone.offset c
  · obtain ⟨c, hlo, hhi, hc⟩ := hChange
    refine ⟨c, zone.offset lo, zone.offset c, zone.bounded lo,
      zone.bounded c, fun m hm hw => ?_⟩
    have hOnly : ∀ n, lo < n → n < lo + 10080 → n ≠ c →
        zone.offset (n - 1) = zone.offset n := by
      intro n hn hnw hne
      by_contra hOther
      rcases lt_or_gt_of_ne hne with hlt | hgt
      · have hFar := zone.seldom n c hlt hOther hc
        omega
      · have hFar := zone.seldom c n hgt hc hOther
        omega
    split
    · exact offset_eq_of_unchanged hm fun n h1 h2 =>
        hOnly n h1 (by omega) (by omega)
    · exact offset_eq_of_unchanged (by omega) fun n h1 h2 =>
        hOnly n (by omega) (by omega) (by omega)
  · refine ⟨lo + 10080, zone.offset lo, zone.offset lo, zone.bounded lo,
      zone.bounded lo, fun m hm hw => ?_⟩
    rw [ite_self]
    apply offset_eq_of_unchanged hm
    intro n h1 h2
    by_contra hOther
    exact hChange ⟨n, h1, by omega, hOther⟩

/-! ## Slots -/

theorem reaches_iff {target d m : Int} :
    zone.reaches target d m = true ↔
      zone.day m = d ∧ target ≤ zone.minuteOfDay m := by
  rw [TimeZone.reaches, Bool.and_eq_true, beq_iff_eq, decide_eq_true_iff]

/-- In local time: from the target minute on, until the day ends. -/
theorem reaches_iff_local {target d m : Int} (hTarget : 0 ≤ target) :
    zone.reaches target d m = true ↔
      d * 1440 + target ≤ zone.localTime m ∧
        zone.localTime m < (d + 1) * 1440 := by
  rw [reaches_iff, day, minuteOfDay]
  omega

theorem day_eq_iff {d m : Int} :
    zone.day m = d ↔ d * 1440 ≤ zone.localTime m ∧
      zone.localTime m < (d + 1) * 1440 := by
  rw [day]
  omega

/-- The minutes of a local day lie within fourteen hours of the day in UTC. -/
theorem bounds_of_day {d m : Int} (h : zone.day m = d) :
    d * 1440 - 840 ≤ m ∧ m < (d + 1) * 1440 + 840 := by
  have hDay := day_eq_iff.mp h
  have hOffset := zone.bounded m
  rw [localTime] at hDay
  omega

/-- A slot lies before every minute of a later day. -/
theorem IsSlot.lt_of_day_lt {target d m n : Int}
    (hTarget : 0 ≤ target ∧ target < 1440) (hSlot : zone.IsSlot target d m)
    (hDay : d < zone.day n) : m < n := by
  by_contra hle
  have hReach := (reaches_iff_local hTarget.1).mp hSlot.reaches
  have hm := bounds_of_day (reaches_iff.mp hSlot.reaches).1
  have hn := bounds_of_day (rfl : zone.day n = zone.day n)
  have hnDay := day_eq_iff.mp (rfl : zone.day n = zone.day n)
  -- the clock went back between `n` and `m`: before that it read the target
  obtain ⟨c, a, b, ha, hb, hStep⟩ := offset_step zone (d * 1440 - 840)
  have hOffsetM := hStep m hm.1 (by omega)
  have hOffsetN := hStep n (by omega) (by omega)
  rw [localTime] at hReach hnDay
  have hnc : n < c := by
    by_contra hcn
    rw [if_neg hcn] at hOffsetN
    rw [if_neg (by omega)] at hOffsetM
    omega
  rw [if_pos hnc] at hOffsetN
  have hOffsetX := hStep (d * 1440 + target - a) (by omega) (by omega)
  rw [if_pos (by omega)] at hOffsetX
  have hEarlier := hSlot.least (d * 1440 + target - a)
    ((reaches_iff_local hTarget.1).mpr (by rw [localTime]; omega))
  omega

/-- A day on which the target is reached has a slot. -/
theorem exists_slot {target d m : Int} (h : zone.reaches target d m = true) :
    ∃ s, zone.IsSlot target d s ∧ s ≤ m := by
  obtain ⟨s, hs, hLeast⟩ := Int.exists_least_of_bdd
    (P := fun n => zone.reaches target d n = true)
    ⟨d * 1440 - 840, fun n hn => (bounds_of_day (reaches_iff.mp hn).1).1⟩
    ⟨m, h⟩
  exact ⟨s, ⟨hs, hLeast⟩, hLeast m h⟩

/-- One of the three days after that of a minute has a slot, and the slot
lies after the minute. -/
theorem exists_later_slot (zone : TimeZone) {target : Int}
    (hTarget : 0 ≤ target ∧ target < 1440) (m : Int) :
    ∃ d s, zone.day m < d ∧ d ≤ zone.day m + 3 ∧ zone.IsSlot target d s ∧
      m < s := by
  have hm := bounds_of_day (rfl : zone.day m = zone.day m)
  have hmDay := day_eq_iff.mp (rfl : zone.day m = zone.day m)
  obtain ⟨c, a, b, ha, hb, hStep⟩ := offset_step zone (zone.day m * 1440 - 840)
  generalize hd : zone.day m = d at *
  have hOffsetM := hStep m hm.1 (by omega)
  rw [localTime] at hmDay
  by_cases hc : c ≤ (d + 3) * 1440 + target - b
  · have hOffsetX := hStep ((d + 3) * 1440 + target - b) (by omega) (by omega)
    rw [if_neg (by omega)] at hOffsetX
    have hReached : zone.reaches target (d + 3)
        ((d + 3) * 1440 + target - b) = true :=
      (reaches_iff_local hTarget.1).mpr (by rw [localTime]; omega)
    obtain ⟨s, hSlot, -⟩ := exists_slot hReached
    refine ⟨d + 3, s, by omega, le_rfl, hSlot, ?_⟩
    have hs := (reaches_iff_local hTarget.1).mp hSlot.reaches
    have hOffsetS := zone.bounded s
    have hOffsetM' := zone.bounded m
    rw [localTime] at hs
    omega
  · have hOffsetX := hStep ((d + 1) * 1440 + target - a) (by omega) (by omega)
    rw [if_pos (by omega)] at hOffsetX
    have hReached : zone.reaches target (d + 1)
        ((d + 1) * 1440 + target - a) = true :=
      (reaches_iff_local hTarget.1).mpr (by rw [localTime]; omega)
    obtain ⟨s, hSlot, hle⟩ := exists_slot hReached
    refine ⟨d + 1, s, by omega, by omega, hSlot, ?_⟩
    have hs := (reaches_iff_local hTarget.1).mp hSlot.reaches
    have hsBound := bounds_of_day (reaches_iff.mp hSlot.reaches).1
    have hOffsetS := hStep s (by omega) (by omega)
    rw [if_pos (by omega)] at hOffsetS hOffsetM
    rw [localTime] at hs
    omega

/-! ## Searching from the day of an instant -/

theorem IsSlot.unique {target d s t : Int} (hs : zone.IsSlot target d s)
    (ht : zone.IsSlot target d t) : s = t :=
  le_antisymm (hs.least t ht.reaches) (ht.least s hs.reaches)

/-- The first day from that of `m` on whose slot lies after `m` has the least
slot after `m`. -/
theorem IsSlot.least_later {target d m s : Int}
    (hTarget : 0 ≤ target ∧ target < 1440) (hSlot : zone.IsSlot target d s)
    (hPassed : ∀ e t, zone.day m ≤ e → e < d → zone.IsSlot target e t →
      t ≤ m)
    {e t : Int} (ht : zone.IsSlot target e t) (hLater : m < t) : s ≤ t := by
  rcases lt_trichotomy e d with hlt | rfl | hgt
  · by_cases hDay : zone.day m ≤ e
    · have hle := hPassed e t hDay hlt ht
      omega
    · have hBefore := ht.lt_of_day_lt hTarget (n := m) (by omega)
      omega
  · exact (hSlot.unique ht).le
  · have htDay := (reaches_iff.mp ht.reaches).1
    exact (hSlot.lt_of_day_lt hTarget (n := t) (by omega)).le

end TimeZone

end OpenApe.Verified.LocalDays
