import OpenApe.Verified.Calendar
import OpenApe.Verified.LocalDays

/-!
# When a schedule is due

A desktop runs a script at intervals or once a day at a local time.
`nextDaily` finds the daily instant by search: for the local date of an
instant and the three dates after it, it reads the local clock at every
minute around that date in UTC and takes the first minute of the date at or
past the target.

The search compares dates as texts, of which a formatter writes one side and
`toISOString` the other.  They agree for the years 1000 to 9999, and there
the search finds the least slot after the instant; past the last of these
days the source reports that no slot was found.
-/

namespace OpenApe.Ports.Clock

open Verified Verified.JsText Verified.Calendar Verified.LocalDays

/-! ## Schedules -/

/-- `/^(?:[01]\d|2[0-3]):[0-5]\d$/` -/
def isDailyTime : JsString → Bool
  | [a, b, c, d, e] =>
      (((a == unit '0' || a == unit '1') && IpLiteral.isDigit b) ||
        (a == unit '2' && unit '0' ≤ b && b ≤ unit '3')) &&
      c == unit ':' && (unit '0' ≤ d && d ≤ unit '5') &&
      IpLiteral.isDigit e
  | _ => false

/-- The daily schedules that `parseSchedule` accepts. -/
structure DailySpec where
  time : JsString
  timezone : JsString
  timeForm : isDailyTime time = true

/-- The schedules that `parseSchedule` accepts. -/
inductive ScheduleSpec
  | interval (seconds : Nat) (h : 60 ≤ seconds ∧ seconds ≤ 2592000)
  | daily (spec : DailySpec)

/-! ## Wall time -/

/-- The parts of a formatted instant that the clock reads. -/
structure DateParts where
  date : JsString
  hour : JsString
  minute : JsString

/-- `format.formatToParts`, with the parts of the date joined by dashes. -/
def formatToParts (zone : TimeZone) (instant : Int) : DateParts :=
  let m := instant / 60000
  ⟨intlDate (zone.day m), padded 2 (zone.minuteOfDay m / 60).toNat,
    padded 2 (zone.minuteOfDay m % 60).toNat⟩

structure WallTime where
  day : JsString
  minute : Nat

def wallTime (zone : TimeZone) (instant : Int) : WallTime :=
  let parts := formatToParts zone instant
  ⟨parts.date, IpLiteral.decimal parts.hour * 60 +
    IpLiteral.decimal parts.minute⟩

/-- `new Date(instant).toISOString()` -/
def toISOString (instant : Int) : JsString :=
  let rest := (instant % 86400000).toNat
  isoDate (instant / 86400000) ++ js "T" ++ padded 2 (rest / 3600000) ++
    js ":" ++ padded 2 (rest / 60000 % 60) ++ js ":" ++
    padded 2 (rest / 1000 % 60) ++ js "." ++ padded 3 (rest % 1000) ++ js "Z"

/-- `spec.time` as minutes: the two numbers around the colon. -/
def targetMinute (time : JsString) : Nat :=
  match (time.splitOn (unit ':')).map IpLiteral.decimal with
  | hour :: minute :: _ => hour * 60 + minute
  | _ => 0

/-! ## The search -/

/-- What the runtime supplies: the zone of each name it knows, and how
`Date.parse` reads the texts that are not ISO dates of four-digit years. -/
structure ClockRuntime where
  zoneOf : JsString → TimeZone
  parseOther : JsString → Option Int

def invalidTime : JsString := js "Invalid time value"

def noSlot : JsString :=
  js "No daily slot found in the supported calendar range"

def invalidClock : JsString := js "Invalid scheduler clock"

def dateParse (runtime : ClockRuntime) (text : JsString) : Option Int :=
  (parseMidnight text).or (runtime.parseOther text)

/-- The instants of the inner loop: every minute from eighteen hours before a
day in UTC to forty-two hours after it. -/
def candidates (utcDay : Int) : List Int :=
  (List.range 3600).map fun (i : Nat) => utcDay - 18 * 3600000 + i * 60000

/-- The inner loop: the first minute of a date at or past the target. -/
def slotOn (zone : TimeZone) (target : Nat) (utcDay : Int) : Option Int :=
  let date := (toISOString utcDay).take 10
  (candidates utcDay).find? fun instant =>
    let wall := wallTime zone instant
    wall.day == date && decide (target ≤ wall.minute)

/-- The outer loop: the slot of one of four dates, if it is later. -/
def laterSlot (zone : TimeZone) (target : Nat) (midnight after : Int) :
    Option Int :=
  (List.range 4).findSome? fun (offset : Nat) =>
    (slotOn zone target (midnight + offset * 86400000)).filter (after < ·)

def nextDaily (runtime : ClockRuntime) (spec : DailySpec) (after : Int) :
    Except JsString Int :=
  let zone := runtime.zoneOf spec.timezone
  let day := (wallTime zone after).day
  match dateParse runtime (day ++ js "T00:00:00Z") with
  | none => .error invalidTime
  | some midnight =>
      match laterSlot zone (targetMinute spec.time) midnight after with
      | none => .error noSlot
      | some instant => .ok instant

/-- Times are exact here: a sum or a difference of two safe integers that
stays safe is exact in the source, and so is its floored quotient. -/
def nextDue (runtime : ClockRuntime) (spec : ScheduleSpec)
    (previous : Option Int) (now : Int) : Except JsString Int :=
  if ¬(now.natAbs ≤ 2 ^ 53 - 1) ∨ now < 0 then .error invalidClock
  else
    match spec with
    | .daily spec => nextDaily runtime spec now
    | .interval seconds _ =>
        let interval : Int := seconds * 1000
        match previous with
        | none => .ok (now + interval)
        | some previous =>
            if previous > now then .ok previous
            else .ok (previous + ((now - previous) / interval + 1) * interval)

/-! ## Reading the wall -/

theorem wallTime_day (zone : TimeZone) (instant : Int) :
    (wallTime zone instant).day = intlDate (zone.day (instant / 60000)) := rfl

theorem wallTime_minute (zone : TimeZone) (instant : Int) :
    ((wallTime zone instant).minute : Int) =
      zone.minuteOfDay (instant / 60000) := by
  have hMinute : ((wallTime zone instant).minute : Int) =
      ((IpLiteral.decimal (padded 2
          (zone.minuteOfDay (instant / 60000) / 60).toNat) * 60 +
        IpLiteral.decimal (padded 2
          (zone.minuteOfDay (instant / 60000) % 60).toNat) : Nat) : Int) := rfl
  rw [hMinute, number_padded, number_padded, TimeZone.minuteOfDay]
  omega

theorem isoDate_start {d : Int} (h : IsSupported d) :
    (toISOString (d * 86400000)).take 10 = isoDate d := by
  rw [toISOString, Int.mul_ediv_cancel d (by decide)]
  simp only [List.append_assoc]
  rw [← length_isoDate h, List.take_left]

/-- The text of a daily time is two pairs of digits around a colon. -/
theorem isDailyTime_form {time : JsString} (h : isDailyTime time = true) :
    ∃ a b d e : CodeUnit, time = [a, b] ++ unit ':' :: [d, e] ∧
      (48 ≤ a.toNat ∧ 48 ≤ b.toNat ∧ 48 ≤ d.toNat ∧ 48 ≤ e.toNat) ∧
      (10 * (a.toNat - 48) + (b.toNat - 48) < 24 ∧ a.toNat ≤ 50 ∧
        b.toNat ≤ 57) ∧ d.toNat ≤ 53 ∧ e.toNat ≤ 57 := by
  match time, h with
  | [a, b, c, d, e], h =>
      simp only [isDailyTime, Bool.and_eq_true, Bool.or_eq_true, beq_iff_eq,
        decide_eq_true_eq, IpLiteral.isDigit_iff, UInt16.le_iff_toNat_le] at h
      obtain ⟨⟨⟨hHour, hColon⟩, hd, hd'⟩, he, he'⟩ := h
      have hUnits : (unit '0').toNat = 48 ∧ (unit '1').toNat = 49 ∧
          (unit '2').toNat = 50 ∧ (unit '3').toNat = 51 ∧
          (unit '5').toNat = 53 := by decide
      refine ⟨a, b, d, e, by rw [hColon]; rfl, ?_⟩
      rcases hHour with ⟨ha | ha, hb, hb'⟩ | ⟨⟨ha, hb⟩, hb'⟩ <;>
        rw [ha] <;> omega

theorem targetMinute_lt {time : JsString} (h : isDailyTime time = true) :
    targetMinute time < 1440 := by
  obtain ⟨a, b, d, e, rfl, ⟨ha, hb, hd, he⟩, ⟨hHour, ha', hb'⟩, hd', he'⟩ :=
    isDailyTime_form h
  have hMinute : (unit ':').toNat = 58 := by decide
  have hHourFree : unit ':' ∉ [a, b] := by
    simp only [List.mem_cons, List.not_mem_nil, or_false, not_or]
    exact ⟨fun hc => by rw [← hc] at ha'; omega,
      fun hc => by rw [← hc] at hb'; omega⟩
  have hMinuteFree : unit ':' ∉ [d, e] := by
    simp only [List.mem_cons, List.not_mem_nil, or_false, not_or]
    exact ⟨fun hc => by rw [← hc] at hd'; omega,
      fun hc => by rw [← hc] at he'; omega⟩
  rw [targetMinute, List.splitOn_append_cons_self_of_not_mem hHourFree,
    List.splitOn_eq_singleton hMinuteFree]
  show (10 * (10 * 0 + IpLiteral.digitValue a) + IpLiteral.digitValue b) * 60 +
    (10 * (10 * 0 + IpLiteral.digitValue d) + IpLiteral.digitValue e) < 1440
  simp only [IpLiteral.digitValue]
  rw [if_pos (by omega), if_pos (by omega), if_pos (by omega),
    if_pos (by omega)]
  omega

/-! ## The inner loop -/

/-- The instants of a zone that are the slot of local day `d`. -/
def IsDailySlot (zone : TimeZone) (target : Nat) (d instant : Int) : Prop :=
  ∃ m, instant = m * 60000 ∧ zone.IsSlot target d m

/-- The test of the inner loop, at a minute around the day. -/
theorem wallTime_matches (zone : TimeZone) (target : Nat) {d m : Int}
    (hDay : IsSupported d) (hFrom : d * 1440 - 1080 ≤ m)
    (hTo : m < d * 1440 + 2520) :
    ((wallTime zone (m * 60000)).day == (toISOString (d * 86400000)).take 10 &&
      decide (target ≤ (wallTime zone (m * 60000)).minute)) =
      zone.reaches target d m := by
  have hMinute := wallTime_minute zone (m * 60000)
  rw [Int.mul_ediv_cancel m (by decide)] at hMinute
  have hLocal := TimeZone.bounds_of_day (rfl : zone.day m = zone.day m)
  have hPositive : 0 < yearFromDay (zone.day m) := by
    have hSupported := isSupported_iff.mp hDay
    exact yearFromDay_pos (by omega)
  rw [isoDate_start hDay, wallTime_day, Int.mul_ediv_cancel m (by decide),
    TimeZone.reaches, ← hMinute]
  have hText : (intlDate (zone.day m) == isoDate d) = (zone.day m == d) := by
    rw [Bool.eq_iff_iff, beq_iff_eq, beq_iff_eq]
    exact intlDate_eq_isoDate_iff hPositive hDay
  rw [hText]
  simp only [Nat.cast_le]

/-- The minutes of a day lie among its candidates. -/
theorem exists_candidate {zone : TimeZone} {d m : Int} (h : zone.day m = d) :
    ∃ i : Nat, i < 3600 ∧ m = d * 1440 - 1080 + i := by
  have hBounds := TimeZone.bounds_of_day h
  exact ⟨(m - (d * 1440 - 1080)).toNat, by omega, by omega⟩

/-- The inner loop finds the slot of its date. -/
theorem slotOn_eq_some_iff (zone : TimeZone) (target : Nat) {d : Int}
    (hDay : IsSupported d) (instant : Int) :
    slotOn zone target (d * 86400000) = some instant ↔
      IsDailySlot zone target d instant := by
  have hCandidate : ∀ i : Nat, d * 86400000 - 18 * 3600000 + i * 60000 =
      (d * 1440 - 1080 + i) * 60000 := by
    intro i
    omega
  rw [slotOn]
  simp only [candidates, List.find?_map, Option.map_eq_some_iff,
    List.find?_range_eq_some, Function.comp_apply, List.mem_range]
  constructor
  · rintro ⟨i, ⟨hMatch, hRange, hEarlier⟩, hInstant⟩
    rw [hCandidate] at hInstant
    rw [hCandidate, wallTime_matches zone target hDay (by omega)
      (by omega)] at hMatch
    refine ⟨d * 1440 - 1080 + i, hInstant.symm, hMatch, fun n hn => ?_⟩
    obtain ⟨j, hj, rfl⟩ := exists_candidate (TimeZone.reaches_iff.mp hn).1
    by_contra hlt
    have hMiss := hEarlier j (by omega)
    rw [hCandidate, wallTime_matches zone target hDay (by omega) (by omega),
      hn] at hMiss
    exact absurd hMiss (by decide)
  · rintro ⟨m, rfl, hSlot⟩
    obtain ⟨i, hi, rfl⟩ :=
      exists_candidate (TimeZone.reaches_iff.mp hSlot.reaches).1
    refine ⟨i, ⟨?_, hi, fun j hj => ?_⟩, hCandidate i⟩
    · rw [hCandidate, wallTime_matches zone target hDay (by omega) (by omega)]
      exact hSlot.reaches
    · rw [hCandidate, wallTime_matches zone target hDay (by omega) (by omega),
        Bool.not_eq_true']
      by_contra hReach
      have hle := hSlot.least _ (Bool.eq_true_of_not_eq_false hReach)
      omega

/-- Past the last supported day the texts never agree. -/
theorem slotOn_of_late (zone : TimeZone) (target : Nat) {d : Int}
    (hLate : 9999 < yearFromDay d) :
    slotOn zone target (d * 86400000) = none := by
  obtain ⟨rest, hText⟩ := isoDate_of_late hLate
  rw [slotOn, List.find?_eq_none]
  intro instant _ hMatch
  rw [Bool.and_eq_true, beq_iff_eq, wallTime_day, toISOString,
    Int.mul_ediv_cancel d (by decide), hText] at hMatch
  exact intlDate_ne_signed _ _ hMatch.1

/-! ## The outer loop -/

/-- The first value that a loop over `0, 1, …, n - 1` returns. -/
theorem findSome?_range {f : Nat → Option Int} {n k : Nat} {v : Int}
    (hk : k < n) (hBefore : ∀ j, j < k → f j = none) (hValue : f k = some v) :
    (List.range n).findSome? f = some v := by
  induction n generalizing k with
  | zero => exact absurd hk (Nat.not_lt_zero k)
  | succ n ih =>
      rw [List.range_succ, List.findSome?_append]
      by_cases hLast : k < n
      · rw [ih hLast hBefore hValue]
        rfl
      · have hEq : k = n := by omega
        subst hEq
        have hNone : (List.range k).findSome? f = none :=
          List.findSome?_eq_none_iff.mpr fun j hj =>
            hBefore j (List.mem_range.mp hj)
        rw [hNone, List.findSome?_cons, hValue]
        rfl

/-- The least slot after an instant, and its local day. -/
structure IsNextSlot (zone : TimeZone) (target : Nat) (after d instant : Int) :
    Prop where
  slot : IsDailySlot zone target d instant
  later : after < instant
  least : ∀ e other, IsDailySlot zone target e other → after < other →
    instant ≤ other

/-- The next slot belongs to the local day of the instant or to one of the
three days after it; the days before that have no later slot. -/
theorem exists_nextSlot (zone : TimeZone) {target : Nat} (hTarget : target < 1440)
    (after : Int) :
    ∃ (k : Nat) (instant : Int), k ≤ 3 ∧
      IsNextSlot zone target after (zone.day (after / 60000) + k) instant ∧
      ∀ j : Nat, j < k → ∀ other,
        IsDailySlot zone target (zone.day (after / 60000) + j) other →
        other ≤ after := by
  have hBounds : 0 ≤ (target : Int) ∧ (target : Int) < 1440 := by omega
  generalize hDay : zone.day (after / 60000) = day
  have hSome : ∃ k : Nat, ∃ m, k ≤ 3 ∧ zone.IsSlot target (day + k) m ∧
      after / 60000 < m := by
    obtain ⟨d, m, hFrom, hTo, hSlot, hLater⟩ :=
      TimeZone.exists_later_slot zone hBounds (after / 60000)
    refine ⟨(d - day).toNat, m, by omega, ?_, hLater⟩
    rw [Int.toNat_of_nonneg (by omega), show day + (d - day) = d by omega]
    exact hSlot
  classical
  obtain ⟨m, hk, hSlot, hLater⟩ := Nat.find_spec hSome
  have hPassed : ∀ j : Nat, j < Nat.find hSome → ∀ n,
      zone.IsSlot target (day + j) n → n ≤ after / 60000 := by
    intro j hj n hn
    by_contra hlt
    exact Nat.find_min hSome hj ⟨n, by omega, hn, by omega⟩
  refine ⟨Nat.find hSome, m * 60000, hk,
    ⟨⟨m, rfl, hSlot⟩, by omega, ?_⟩, ?_⟩
  · rintro e other ⟨n, rfl, hn⟩ hOther
    have hle := hSlot.least_later (m := after / 60000) hBounds
      (fun e t hFrom hTo ht => hPassed (e - day).toNat (by omega) t (by
        rw [Int.toNat_of_nonneg (by omega), show day + (e - day) = e by omega]
        exact ht)) hn (by omega)
    omega
  · rintro j hj other ⟨n, rfl, hn⟩
    have hle := hPassed j hj n hn
    omega

theorem dateParse_of_supported (runtime : ClockRuntime) (zone : TimeZone)
    {after : Int} (hDay : IsSupported (zone.day (after / 60000))) :
    dateParse runtime ((wallTime zone after).day ++ js "T00:00:00Z") =
      some (zone.day (after / 60000) * 86400000) := by
  rw [wallTime_day, intlDate_of_supported hDay, dateParse,
    parseMidnight_isoDate hDay, Option.some_or]

/-- Days at or before the first late one are supported or that day. -/
theorem supported_or_late {d : Int} (h : -354285 ≤ d) :
    IsSupported d ∨ 9999 < yearFromDay d := by
  by_cases hEnd : d ≤ 2932896
  · exact Or.inl (isSupported_iff.mpr ⟨h, hEnd⟩)
  · right
    have hBounds := (year_bounds d).2
    rw [dayFromYear] at hBounds
    omega

/-- A turn of the outer loop returns nothing where no slot is later. -/
theorem turn_eq_none (zone : TimeZone) (target : Nat) {day after : Int}
    (offset : Nat) (hFrom : -354285 ≤ day + offset)
    (hPassed : ∀ other, IsSupported (day + offset) →
      IsDailySlot zone target (day + offset) other → other ≤ after) :
    (slotOn zone target (day * 86400000 + offset * 86400000)).filter
      (after < ·) = none := by
  rw [← Int.add_mul, Option.filter_eq_none_iff]
  intro other hSlot
  rcases supported_or_late hFrom with hDay | hLate
  · have hle := hPassed other hDay
      ((slotOn_eq_some_iff zone target hDay other).mp hSlot)
    rw [decide_eq_true_iff]
    omega
  · rw [slotOn_of_late zone target hLate] at hSlot
    cases hSlot

/-- Within the calendar the search over four dates finds the next slot, and
it finds none where the next slot lies past the calendar. -/
theorem nextDaily_eq (runtime : ClockRuntime) (spec : DailySpec) (after : Int)
    (hDay : IsSupported ((runtime.zoneOf spec.timezone).day (after / 60000))) :
    ∃ d instant, IsNextSlot (runtime.zoneOf spec.timezone)
      (targetMinute spec.time) after d instant ∧
      nextDaily runtime spec after =
        if IsSupported d then .ok instant else .error noSlot := by
  obtain ⟨k, instant, hk, hNext, hPassed⟩ := exists_nextSlot
    (runtime.zoneOf spec.timezone) (targetMinute_lt spec.timeForm) after
  refine ⟨_, instant, hNext, ?_⟩
  have hFrom := (isSupported_iff.mp hDay).1
  unfold nextDaily
  dsimp only
  rw [dateParse_of_supported runtime _ hDay]
  dsimp only
  by_cases hEnd : IsSupported
      ((runtime.zoneOf spec.timezone).day (after / 60000) + k)
  · have hFound : laterSlot (runtime.zoneOf spec.timezone)
        (targetMinute spec.time)
        ((runtime.zoneOf spec.timezone).day (after / 60000) * 86400000)
        after = some instant := by
      rw [laterSlot]
      refine findSome?_range (Nat.lt_succ_of_le hk) (fun j hj => ?_) ?_
      · exact turn_eq_none _ _ j (by omega) fun other _ =>
          hPassed j hj other
      · rw [← Int.add_mul, (slotOn_eq_some_iff _ _ hEnd instant).mpr
          hNext.slot, Option.filter_some,
          if_pos (decide_eq_true hNext.later)]
    rw [if_pos hEnd, hFound]
  · have hNone : laterSlot (runtime.zoneOf spec.timezone)
        (targetMinute spec.time)
        ((runtime.zoneOf spec.timezone).day (after / 60000) * 86400000)
        after = none := by
      rw [laterSlot, List.findSome?_eq_none_iff]
      intro j _
      refine turn_eq_none _ _ j (by omega) fun other hSupported hSlot => ?_
      refine hPassed j ?_ other hSlot
      by_contra hle
      rw [isSupported_iff] at hEnd hSupported
      omega
    rw [if_neg hEnd, hNone]

/-- The search returns later instants only. -/
theorem lt_nextDaily {runtime : ClockRuntime} {spec : DailySpec}
    {after instant : Int} (h : nextDaily runtime spec after = .ok instant) :
    after < instant := by
  unfold nextDaily at h
  dsimp only at h
  split at h
  · cases h
  · split at h
    · cases h
    · rename_i hFound
      cases h
      rw [laterSlot] at hFound
      obtain ⟨offset, -, hTurn⟩ := List.exists_of_findSome?_eq_some hFound
      exact of_decide_eq_true (Option.filter_eq_some_iff.mp hTurn).2

/-! ## Schedules with an interval -/

/-- The clock readings that `nextDue` accepts. -/
def IsClock (now : Int) : Prop := now.natAbs ≤ 2 ^ 53 - 1 ∧ 0 ≤ now

instance (now : Int) : Decidable (IsClock now) :=
  inferInstanceAs (Decidable (_ ∧ _))

theorem nextDue_of_clock (runtime : ClockRuntime) (spec : ScheduleSpec)
    (previous : Option Int) {now : Int} (hNow : IsClock now) :
    nextDue runtime spec previous now =
      match spec, previous with
      | .daily spec, _ => nextDaily runtime spec now
      | .interval seconds _, none => .ok (now + seconds * 1000)
      | .interval seconds _, some previous =>
          if previous > now then .ok previous
          else .ok (previous + ((now - previous) / (seconds * 1000) + 1) *
            (seconds * 1000)) := by
  rw [nextDue.eq_def, if_neg (by rw [not_or, not_not, not_lt]; exact hNow)]
  cases spec with
  | daily spec => rfl
  | interval seconds h => cases previous <;> rfl

/-- An interval schedule keeps its phase: the least instant in step with the
previous one that is still ahead. -/
theorem nextDue_interval (runtime : ClockRuntime) {seconds : Nat}
    (h : 60 ≤ seconds ∧ seconds ≤ 2592000) {previous now : Int}
    (hNow : IsClock now) (hDue : previous ≤ now) :
    ∃ instant, nextDue runtime (.interval seconds h) (some previous) now =
        .ok instant ∧
      IsLeast {t | (∃ k : Nat, t = previous + k * (seconds * 1000 : Int)) ∧
        now < t} instant := by
  have hPositive : (0 : Int) < seconds * 1000 := by omega
  have hFloor := Int.emod_add_mul_ediv (now - previous) (seconds * 1000)
  have hRest := Int.emod_lt_of_pos (now - previous) hPositive
  have hRest' := Int.emod_nonneg (now - previous) hPositive.ne'
  refine ⟨_, by rw [nextDue_of_clock _ _ _ hNow]; exact if_neg (by omega), ?_⟩
  have hNonneg : 0 ≤ (now - previous) / (seconds * 1000 : Int) :=
    Int.ediv_nonneg (by omega) hPositive.le
  refine ⟨⟨⟨((now - previous) / (seconds * 1000 : Int) + 1).toNat, ?_⟩, ?_⟩,
    ?_⟩
  · rw [Int.toNat_of_nonneg (by omega)]
  · rw [Int.add_mul, Int.one_mul, Int.mul_comm _ (seconds * 1000 : Int)]
    omega
  · rintro t ⟨⟨k, rfl⟩, hAhead⟩
    have hk : (now - previous) / (seconds * 1000 : Int) + 1 ≤ k := by
      by_contra hlt
      have hMul : (k : Int) * (seconds * 1000) ≤
          (now - previous) / (seconds * 1000 : Int) * (seconds * 1000) :=
        Int.mul_le_mul_of_nonneg_right (by omega) hPositive.le
      rw [Int.mul_comm ((now - previous) / _)] at hMul
      omega
    have hMul := Int.mul_le_mul_of_nonneg_right hk hPositive.le
    omega

/-- Whatever is due next lies ahead. -/
theorem lt_nextDue {runtime : ClockRuntime} {spec : ScheduleSpec}
    {previous : Option Int} {now instant : Int}
    (h : nextDue runtime spec previous now = .ok instant) : now < instant := by
  by_cases hNow : IsClock now
  · cases spec with
    | daily spec =>
        rw [nextDue_of_clock _ _ _ hNow] at h
        exact lt_nextDaily h
    | interval seconds hSeconds =>
        cases previous with
        | none =>
            rw [nextDue_of_clock _ _ _ hNow] at h
            have hInstant := Except.ok.inj h
            omega
        | some previous =>
            by_cases hDue : previous ≤ now
            · obtain ⟨least, hOk, hLeast⟩ :=
                nextDue_interval runtime hSeconds hNow hDue
              rw [hOk] at h
              rw [← Except.ok.inj h]
              exact hLeast.1.2
            · rw [nextDue_of_clock _ _ _ hNow] at h
              dsimp only at h
              rw [if_pos (by omega)] at h
              have hInstant := Except.ok.inj h
              omega
  · rw [nextDue.eq_def, if_pos (by
      rw [IsClock, not_and_or, not_le, not_le] at hNow
      exact hNow.imp (not_le.mpr ·) id)] at h
    cases h

/-! ## Every slot, and the phase -/

/-- Within the calendar every instant has a next slot, which `nextDaily`
finds unless its own date lies past the calendar; whatever is due next lies
ahead; and an interval schedule is due at its previous time while that is
ahead, else at the least later instant in step with it. -/
theorem nextDue_in_order (runtime : ClockRuntime) :
    (∀ (spec : DailySpec) (after : Int),
      IsSupported ((runtime.zoneOf spec.timezone).day (after / 60000)) →
      ∃ d instant, IsNextSlot (runtime.zoneOf spec.timezone)
        (targetMinute spec.time) after d instant ∧
        nextDaily runtime spec after =
          if IsSupported d then .ok instant else .error noSlot) ∧
    (∀ spec previous now instant,
      nextDue runtime spec previous now = .ok instant → now < instant) ∧
    (∀ spec previous now, IsClock now →
      nextDue runtime (.daily spec) previous now =
        nextDaily runtime spec now) ∧
    ∀ seconds h now, IsClock now →
      nextDue runtime (.interval seconds h) none now =
        .ok (now + seconds * 1000) ∧
      ∀ previous,
        (now < previous →
          nextDue runtime (.interval seconds h) (some previous) now =
            .ok previous) ∧
        (previous ≤ now → ∃ instant,
          nextDue runtime (.interval seconds h) (some previous) now =
            .ok instant ∧
          IsLeast {t | (∃ k : Nat, t = previous + k * (seconds * 1000 : Int)) ∧
            now < t} instant) := by
  refine ⟨nextDaily_eq runtime, fun _ _ _ _ => lt_nextDue,
    fun spec previous now hNow => nextDue_of_clock _ _ _ hNow,
    fun seconds h now hNow => ⟨nextDue_of_clock _ _ _ hNow,
      fun previous => ⟨fun hAhead => ?_, nextDue_interval runtime h hNow⟩⟩⟩
  rw [nextDue_of_clock _ _ _ hNow]
  exact if_pos hAhead

/-! ## The end of the calendar -/

theorem utc_bounded : (-840 : Int) ≤ 0 ∧ (0 : Int) ≤ 840 := by decide

/-- A runtime that knows one zone. -/
def utcRuntime : ClockRuntime :=
  ⟨fun _ => TimeZone.fixed 0 utc_bounded, fun _ => none⟩

theorem midnight_form : isDailyTime (js "00:00") = true := by decide

/-- Every day at midnight. -/
def midnightSpec : DailySpec := ⟨js "00:00", js "UTC", midnight_form⟩

theorem midnight_target : targetMinute midnightSpec.time = 0 := by decide

/-- In a zone without an offset the day begins at its midnight. -/
theorem utc_slot (d : Int) :
    (TimeZone.fixed 0 utc_bounded).IsSlot 0 d (d * 1440) := by
  have hReach : ∀ m, (TimeZone.fixed 0 utc_bounded).reaches 0 d m = true ↔
      d * 1440 ≤ m ∧ m < (d + 1) * 1440 := by
    intro m
    rw [TimeZone.reaches_iff_local le_rfl]
    show d * 1440 + 0 ≤ m + 0 ∧ m + 0 < (d + 1) * 1440 ↔ _
    omega
  refine ⟨(hReach _).mpr (by omega), fun n hn => ((hReach n).mp hn).1⟩

theorem minute_bounded : 60 ≤ 60 ∧ 60 ≤ 2592000 := by decide

theorem nextDue_in_order_utc :
    (∃ d instant, IsNextSlot (utcRuntime.zoneOf midnightSpec.timezone)
      (targetMinute midnightSpec.time) 0 d instant ∧
      nextDaily utcRuntime midnightSpec 0 =
        if IsSupported d then .ok instant else .error noSlot) ∧
    (∃ instant, nextDue utcRuntime (.interval 60 minute_bounded)
        (some 61000) 601000 = .ok instant ∧
      IsLeast {t | (∃ k : Nat, t = 61000 + k * ((60 : Nat) * 1000 : Int)) ∧
        601000 < t} instant) ∧
    (1000 : Int) < 61000 :=
  ⟨(nextDue_in_order utcRuntime).1 midnightSpec 0
      (isSupported_iff.mpr (by decide)),
    ((nextDue_in_order utcRuntime).2.2.2 60 minute_bounded 601000
      (by decide)).2 61000 |>.2 (by decide),
    (nextDue_in_order utcRuntime).2.1 (.interval 60 minute_bounded)
      (some 61000) 1000 61000 (by decide)⟩

/-- The first midnight of the year 10000 is the next slot of the midnight
before, and is not found. -/
theorem nextDaily_past_calendar :
    IsNextSlot (utcRuntime.zoneOf midnightSpec.timezone)
      (targetMinute midnightSpec.time) (2932896 * 86400000) 2932897
      (2932897 * 86400000) ∧
    nextDaily utcRuntime midnightSpec (2932896 * 86400000) =
      .error noSlot := by
  have hDay : (utcRuntime.zoneOf midnightSpec.timezone).day
      (2932896 * 86400000 / 60000) = 2932896 := by decide
  have hSupported : IsSupported 2932896 := isSupported_iff.mpr (by decide)
  obtain ⟨d, instant, hNext, hSearch⟩ := nextDaily_eq utcRuntime midnightSpec
    (2932896 * 86400000) (by rw [hDay]; exact hSupported)
  obtain ⟨m, hInstant, hSlot⟩ := hNext.slot
  have hTarget : ((targetMinute midnightSpec.time : Nat) : Int) = 0 := by
    rw [midnight_target]
    rfl
  rw [hTarget] at hSlot
  have hm : m = d * 1440 := hSlot.unique (utc_slot d)
  have hLater := hNext.later
  have hLeast := hNext.least 2932897 (2932897 * 86400000)
    ⟨2932897 * 1440, by decide, by rw [hTarget]; exact utc_slot 2932897⟩
    (by decide)
  have hd : d = 2932897 := by omega
  have hEq : instant = 2932897 * 86400000 := by omega
  rw [hd, hEq] at hNext
  rw [hd, if_neg (by rw [isSupported_iff]; decide)] at hSearch
  exact ⟨hNext, hSearch⟩

end OpenApe.Ports.Clock
