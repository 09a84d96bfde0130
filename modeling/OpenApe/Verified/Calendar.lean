import OpenApe.Verified.IpLiteral
import OpenApe.Verified.Json

/-!
# Days and dates

The Gregorian calendar, extended over all days before and after: years,
months and dates are functions of the number of a day since 1970-01-01, as
the ECMAScript standard defines them.

A date has two texts here: the ISO text that `Date.prototype.toISOString`
writes and `Date.parse` reads back, and the parts that a date formatter of
the `en-CA` locale writes.  They agree in the years with four digits, and
there each determines its day.
-/

namespace OpenApe.Verified.Calendar

open JsText Json

/-! ## Years, months and dates -/

/-- The day on which a year begins. -/
def dayFromYear (y : Int) : Int :=
  365 * (y - 1970) + (y - 1969) / 4 - (y - 1901) / 100 + (y - 1601) / 400

/-- The last year that begins by a day, from an estimate off by one. -/
def yearFromDay (d : Int) : Int :=
  if dayFromYear (d * 400 / 146097 + 1971) ≤ d then d * 400 / 146097 + 1971
  else if dayFromYear (d * 400 / 146097 + 1970) ≤ d then
    d * 400 / 146097 + 1970
  else d * 400 / 146097 + 1969

/-- One in a leap year, else zero. -/
def inLeapYear (y : Int) : Nat :=
  (dayFromYear (y + 1) - dayFromYear y - 365).toNat

/-- The lengths of the months of a year. -/
def monthLengths (leap : Nat) : List Nat :=
  [31, 28 + leap, 31, 30, 31, 30, 31, 31, 30, 31, 30, 31]

/-- The months before a day of the year, and the days of its month before
it. -/
def monthAndRest : List Nat → Nat → Nat × Nat
  | [], n => (0, n)
  | length :: lengths, n =>
      if n < length then (0, n)
      else
        let parts := monthAndRest lengths (n - length)
        (parts.1 + 1, parts.2)

def dayWithinYear (d : Int) : Nat := (d - dayFromYear (yearFromDay d)).toNat

def monthParts (d : Int) : Nat × Nat :=
  monthAndRest (monthLengths (inLeapYear (yearFromDay d))) (dayWithinYear d)

/-- The month of a day, numbered from one. -/
def monthFromDay (d : Int) : Nat := (monthParts d).1 + 1

/-- The date within the month. -/
def dateFromDay (d : Int) : Nat := (monthParts d).2 + 1

/-- The day of a year, a month and a date. -/
def dayOf (y : Int) (month date : Nat) : Int :=
  dayFromYear y + ((monthLengths (inLeapYear y)).take (month - 1)).sum + date -
    1

/-- A day lies in its year. -/
theorem year_bounds (d : Int) :
    dayFromYear (yearFromDay d) ≤ d ∧ d < dayFromYear (yearFromDay d + 1) := by
  rw [yearFromDay]
  split_ifs with hNext hHere
  · refine ⟨hNext, ?_⟩
    rw [dayFromYear]
    omega
  · refine ⟨hHere, ?_⟩
    rw [show d * 400 / 146097 + 1970 + 1 = d * 400 / 146097 + 1971 by omega]
    omega
  · rw [show d * 400 / 146097 + 1969 + 1 = d * 400 / 146097 + 1970 by omega]
    refine ⟨?_, by omega⟩
    rw [dayFromYear] at hHere ⊢
    omega

theorem inLeapYear_le (y : Int) : inLeapYear y ≤ 1 ∧
    dayFromYear (y + 1) - dayFromYear y = 365 + inLeapYear y := by
  rw [inLeapYear, dayFromYear, dayFromYear]
  omega

theorem dayWithinYear_bounds (d : Int) :
    dayWithinYear d < 365 + inLeapYear (yearFromDay d) ∧
      d = dayFromYear (yearFromDay d) + dayWithinYear d := by
  have hBounds := year_bounds d
  have hLeap := inLeapYear_le (yearFromDay d)
  rw [dayWithinYear]
  omega

/-- A day lies in its month. -/
theorem monthAndRest_bounds {lengths : List Nat} {n : Nat}
    (h : n < lengths.sum) :
    (monthAndRest lengths n).1 < lengths.length ∧
      (∃ length ∈ lengths, (monthAndRest lengths n).2 < length) ∧
      (lengths.take (monthAndRest lengths n).1).sum +
        (monthAndRest lengths n).2 = n := by
  induction lengths generalizing n with
  | nil => exact absurd h (Nat.not_lt_zero n)
  | cons length lengths ih =>
      rw [List.sum_cons] at h
      by_cases hFirst : n < length
      · rw [monthAndRest, if_pos hFirst]
        exact ⟨Nat.zero_lt_succ _, ⟨length, List.mem_cons_self, hFirst⟩,
          Nat.zero_add n⟩
      · obtain ⟨hMonth, ⟨last, hLast, hRest⟩, hSum⟩ :=
          ih (n := n - length) (by omega)
        rw [monthAndRest, if_neg hFirst]
        refine ⟨Nat.succ_lt_succ hMonth,
          ⟨last, List.mem_cons_of_mem _ hLast, hRest⟩, ?_⟩
        dsimp only
        rw [List.take_succ_cons, List.sum_cons]
        omega

theorem monthParts_bounds (d : Int) :
    (monthParts d).1 < 12 ∧ (monthParts d).2 < 31 ∧
      ((monthLengths (inLeapYear (yearFromDay d))).take (monthParts d).1).sum +
        (monthParts d).2 = dayWithinYear d := by
  have hLeap := (inLeapYear_le (yearFromDay d)).1
  have hDay := (dayWithinYear_bounds d).1
  have hTotal : (monthLengths (inLeapYear (yearFromDay d))).sum =
      365 + inLeapYear (yearFromDay d) := by
    simp only [monthLengths, List.sum_cons, List.sum_nil]
    omega
  obtain ⟨hMonth, ⟨length, hMem, hDate⟩, hSum⟩ :=
    monthAndRest_bounds (n := dayWithinYear d) (hDay.trans_eq hTotal.symm)
  have hLength : length ≤ 31 := by
    simp only [monthLengths, List.mem_cons, List.not_mem_nil, or_false] at hMem
    omega
  exact ⟨hMonth, lt_of_lt_of_le hDate hLength, hSum⟩

/-- Year, month and date determine the day. -/
theorem dayOf_fields (d : Int) :
    dayOf (yearFromDay d) (monthFromDay d) (dateFromDay d) = d := by
  have h := (monthParts_bounds d).2.2
  have hDay := (dayWithinYear_bounds d).2
  rw [dayOf, dateFromDay, monthFromDay, Nat.add_sub_cancel]
  omega

/-! ## Numerals -/

/-- A numeral with zeros before it, up to a length. -/
def padded (width n : Nat) : JsString :=
  List.replicate (width - (decimal n).length) (unit '0') ++ decimal n

private theorem digit_reads {d : Nat} (h : d < 10) :
    IpLiteral.digitValue (48 + d).toUInt16 = d ∧
      (48 + d).toUInt16 ≠ unit '-' :=
  (by decide : ∀ d < 10, IpLiteral.digitValue (48 + d).toUInt16 = d ∧
    (48 + d).toUInt16 ≠ unit '-') d h

/-- `Number(String(n))` -/
theorem number_decimal (n : Nat) : IpLiteral.decimal (decimal n) = n := by
  induction n using decimal.induct with
  | case1 n h =>
      have hDigit := (digit_reads h).1
      rw [decimal, if_pos h, IpLiteral.decimal, List.foldl_cons,
        List.foldl_nil]
      omega
  | case2 n h ih =>
      have hDigit := (digit_reads (Nat.mod_lt n (by decide))).1
      rw [IpLiteral.decimal] at ih
      rw [decimal, if_neg h, IpLiteral.decimal, List.foldl_append, ih,
        List.foldl_cons, List.foldl_nil]
      omega

/-- Leading zeros do not change a number. -/
theorem number_padded (width n : Nat) :
    IpLiteral.decimal (padded width n) = n := by
  have hZeros : ∀ k, (List.replicate k (unit '0')).foldl
      (fun value u => 10 * value + IpLiteral.digitValue u) 0 = 0 := by
    intro k
    induction k with
    | zero => rfl
    | succ k ih =>
        rw [List.replicate_succ, List.foldl_cons]
        exact ih
  rw [padded, IpLiteral.decimal, List.foldl_append, hZeros]
  exact number_decimal n

/-- A number below `10 ^ k` has at most `k` digits, for a positive `k`. -/
theorem length_decimal_le {n k : Nat} (hk : 0 < k) (h : n < 10 ^ k) :
    (decimal n).length ≤ k := by
  induction k generalizing n with
  | zero => exact absurd hk (Nat.lt_irrefl 0)
  | succ k ih =>
      rw [decimal]
      split
      · exact Nat.succ_le_succ (Nat.zero_le k)
      · rename_i hTen
        rw [Nat.pow_succ] at h
        have hPositive : 0 < k := by
          by_contra hZero
          rw [Nat.eq_zero_of_not_pos hZero] at h
          omega
        rw [List.length_append]
        exact Nat.succ_le_succ (ih hPositive (by omega))

theorem lt_length_decimal {n k : Nat} (h : 10 ^ k ≤ n) :
    k < (decimal n).length := by
  induction k generalizing n with
  | zero => rw [decimal]; split <;> simp
  | succ k ih =>
      have hPow : 0 < 10 ^ k := Nat.pow_pos (by decide)
      rw [Nat.pow_succ] at h
      rw [decimal, if_neg (by omega), List.length_append]
      exact Nat.succ_lt_succ (ih (by omega))

theorem length_padded {width n : Nat} (hWidth : 0 < width)
    (h : n < 10 ^ width) : (padded width n).length = width := by
  have hLength := length_decimal_le hWidth h
  rw [padded, List.length_append, List.length_replicate]
  omega

theorem dash_not_mem_decimal (n : Nat) : unit '-' ∉ decimal n := by
  induction n using decimal.induct with
  | case1 n h =>
      rw [decimal, if_pos h, List.mem_singleton]
      exact (digit_reads h).2.symm
  | case2 n h ih =>
      rw [decimal, if_neg h, List.mem_append, List.mem_singleton, not_or]
      exact ⟨ih, (digit_reads (Nat.mod_lt n (by decide))).2.symm⟩

theorem dash_not_mem_padded (width n : Nat) : unit '-' ∉ padded width n := by
  rw [padded, List.mem_append, not_or]
  refine ⟨fun h => ?_, dash_not_mem_decimal n⟩
  exact absurd (List.eq_of_mem_replicate h) (by decide)

/-- Texts with a dash after them are cut at the first one. -/
theorem cut_at_dash {a b x y : JsString} (ha : unit '-' ∉ a)
    (hb : unit '-' ∉ b) (h : a ++ unit '-' :: x = b ++ unit '-' :: y) :
    a = b ∧ x = y := by
  induction a generalizing b with
  | nil =>
      cases b with
      | nil => exact ⟨rfl, (List.cons.inj h).2⟩
      | cons u b =>
          exact absurd ((List.cons.inj h).1 ▸ List.mem_cons_self) hb
  | cons u a ih =>
      cases b with
      | nil => exact absurd ((List.cons.inj h).1 ▸ List.mem_cons_self) ha
      | cons v b =>
          obtain ⟨hHead, hTail⟩ := List.cons.inj h
          obtain ⟨hEq, hRest⟩ := ih
            (fun hm => ha (List.mem_cons_of_mem _ hm))
            (fun hm => hb (List.mem_cons_of_mem _ hm)) hTail
          exact ⟨by rw [hHead, hEq], hRest⟩

/-! ## Dates as texts -/

/-- A date with its parts after the year in two digits each. -/
def dateText (year : JsString) (d : Int) : JsString :=
  year ++ unit '-' :: (padded 2 (monthFromDay d) ++
    unit '-' :: padded 2 (dateFromDay d))

/-- The year of an ISO date: four digits, or a sign and six. -/
def isoYear (y : Int) : JsString :=
  if 0 ≤ y ∧ y ≤ 9999 then padded 4 y.toNat
  else (if y < 0 then unit '-' else unit '+') :: padded 6 y.natAbs

/-- The date that `toISOString` begins with. -/
def isoDate (d : Int) : JsString := dateText (isoYear (yearFromDay d)) d

/-- The numeric year of a formatter: the year of its era. -/
def intlYear (y : Int) : JsString :=
  decimal (if 0 < y then y.toNat else (1 - y).toNat)

/-- The `year`, `month` and `day` parts of an `en-CA` formatter. -/
def intlDate (d : Int) : JsString := dateText (intlYear (yearFromDay d)) d

/-- Midnight of an ISO date with a year of four digits, in milliseconds. -/
def parseMidnight (text : JsString) : Option Int :=
  let d := dayOf (IpLiteral.decimal (text.take 4))
    (IpLiteral.decimal ((text.drop 5).take 2))
    (IpLiteral.decimal ((text.drop 8).take 2))
  if isoDate d ++ js "T00:00:00Z" = text then some (d * 86400000) else none

/-- The days whose dates have a year of four digits without leading zeros. -/
def IsSupported (d : Int) : Prop :=
  1000 ≤ yearFromDay d ∧ yearFromDay d ≤ 9999

instance (d : Int) : Decidable (IsSupported d) :=
  inferInstanceAs (Decidable (_ ∧ _))

/-- The days from 1000-01-01 to 9999-12-31. -/
theorem isSupported_iff {d : Int} :
    IsSupported d ↔ -354285 ≤ d ∧ d ≤ 2932896 := by
  have hBounds := year_bounds d
  rw [IsSupported]
  constructor
  · intro h
    rw [dayFromYear, dayFromYear] at hBounds
    omega
  · intro h
    rw [dayFromYear, dayFromYear] at hBounds
    omega

theorem isoYear_of_supported {d : Int} (h : IsSupported d) :
    isoYear (yearFromDay d) = intlYear (yearFromDay d) ∧
      (isoYear (yearFromDay d)).length = 4 := by
  obtain ⟨hFrom, hTo⟩ := h
  rw [isoYear, if_pos (by omega), intlYear, if_pos (by omega)]
  refine ⟨?_, length_padded (by decide) (by omega)⟩
  have hLength : 3 < (decimal (yearFromDay d).toNat).length :=
    lt_length_decimal (by omega)
  rw [padded, show 4 - (decimal (yearFromDay d).toNat).length = 0 by omega]
  rfl

theorem intlDate_of_supported {d : Int} (h : IsSupported d) :
    intlDate d = isoDate d := by
  rw [intlDate, isoDate, (isoYear_of_supported h).1]

theorem length_monthFromDay (d : Int) :
    (padded 2 (monthFromDay d)).length = 2 := by
  have h := (monthParts_bounds d).1
  exact length_padded (by decide) (by rw [monthFromDay]; omega)

theorem length_dateFromDay (d : Int) :
    (padded 2 (dateFromDay d)).length = 2 := by
  have h := (monthParts_bounds d).2.1
  exact length_padded (by decide) (by rw [dateFromDay]; omega)

theorem length_isoDate {d : Int} (h : IsSupported d) :
    (isoDate d).length = 10 := by
  rw [isoDate, dateText, List.length_append, (isoYear_of_supported h).2,
    List.length_cons, List.length_append, length_monthFromDay,
    List.length_cons, length_dateFromDay]

/-- An ISO date reads back. -/
theorem parseMidnight_isoDate {d : Int} (h : IsSupported d) :
    parseMidnight (isoDate d ++ js "T00:00:00Z") = some (d * 86400000) := by
  obtain ⟨hFrom, hTo⟩ := h
  have hYear := (isoYear_of_supported ⟨hFrom, hTo⟩).2
  have hText : isoDate d ++ js "T00:00:00Z" = isoYear (yearFromDay d) ++
      ([unit '-'] ++ (padded 2 (monthFromDay d) ++
        ([unit '-'] ++ (padded 2 (dateFromDay d) ++ js "T00:00:00Z")))) := by
    simp only [isoDate, dateText, List.append_assoc, List.cons_append,
      List.nil_append]
  have hNumber : IpLiteral.decimal (isoYear (yearFromDay d)) =
      (yearFromDay d).toNat := by
    rw [isoYear, if_pos (by omega), number_padded]
  have hTakeYear : (isoDate d ++ js "T00:00:00Z").take 4 =
      isoYear (yearFromDay d) := by
    rw [hText, ← hYear, List.take_left]
  have hTakeMonth : ((isoDate d ++ js "T00:00:00Z").drop 5).take 2 =
      padded 2 (monthFromDay d) := by
    rw [hText, ← List.append_assoc, List.drop_left' (by simp [hYear]),
      List.take_left' (length_monthFromDay d)]
  have hTakeDate : ((isoDate d ++ js "T00:00:00Z").drop 8).take 2 =
      padded 2 (dateFromDay d) := by
    rw [hText, ← List.append_assoc, ← List.append_assoc, ← List.append_assoc,
      List.drop_left' (by simp [hYear, length_monthFromDay]),
      List.take_left' (length_dateFromDay d)]
  have hDay : dayOf (IpLiteral.decimal ((isoDate d ++
      js "T00:00:00Z").take 4))
      (IpLiteral.decimal (((isoDate d ++ js "T00:00:00Z").drop 5).take 2))
      (IpLiteral.decimal (((isoDate d ++ js "T00:00:00Z").drop 8).take 2)) =
      d := by
    rw [hTakeYear, hTakeMonth, hTakeDate, hNumber, number_padded,
      number_padded, Int.toNat_of_nonneg (by omega), dayOf_fields]
  rw [parseMidnight, hDay]
  exact if_pos rfl

/-- Away from the ends of the calendar the two texts compare days. -/
theorem intlDate_eq_isoDate_iff {d e : Int} (hPositive : 0 < yearFromDay d)
    (he : IsSupported e) : intlDate d = isoDate e ↔ d = e := by
  constructor
  · intro h
    rw [← intlDate_of_supported he, intlDate, intlDate, dateText,
      dateText] at h
    obtain ⟨hYear, hRest⟩ := cut_at_dash (dash_not_mem_decimal _)
      (dash_not_mem_decimal _) h
    obtain ⟨hMonth, hDate⟩ := cut_at_dash (dash_not_mem_padded _ _)
      (dash_not_mem_padded _ _) hRest
    have hYears : yearFromDay d = yearFromDay e := by
      have hNumber := congrArg IpLiteral.decimal hYear
      have hFrom := he.1
      rw [number_decimal, number_decimal, if_pos hPositive,
        if_pos (by omega)] at hNumber
      omega
    have hMonths := congrArg IpLiteral.decimal hMonth
    have hDates := congrArg IpLiteral.decimal hDate
    rw [number_padded, number_padded] at hMonths hDates
    rw [← dayOf_fields d, ← dayOf_fields e, hYears, hMonths, hDates]
  · intro h
    rw [h]
    exact intlDate_of_supported he

/-- The ISO date of a year with more digits begins with a sign. -/
theorem isoDate_of_late {d : Int} (h : 9999 < yearFromDay d) :
    ∃ rest, isoDate d = unit '+' :: rest := by
  rw [isoDate, dateText, isoYear, if_neg (by omega), if_neg (by omega)]
  exact ⟨_, rfl⟩

/-- A formatter writes no sign. -/
theorem intlDate_ne_signed (d : Int) (rest : JsString) :
    intlDate d ≠ unit '+' :: rest := by
  rw [intlDate, dateText, intlYear]
  generalize (if 0 < yearFromDay d then (yearFromDay d).toNat
    else (1 - yearFromDay d).toNat) = year
  have hLeads := decimal_leads year
  have hSign : leadsNumber (unit '+') = false := by decide
  intro h
  cases hText : decimal year with
  | nil =>
      rw [hText] at hLeads
      exact absurd hLeads (by decide)
  | cons u digits =>
      rw [hText] at hLeads h
      have hHead : u = unit '+' := (List.cons.inj h).1
      rw [List.head?_cons, Option.any_some, hHead, hSign] at hLeads
      exact absurd hLeads (by decide)

theorem yearFromDay_pos {d : Int} (h : -719162 ≤ d) : 0 < yearFromDay d := by
  have hBounds := (year_bounds d).2
  by_contra hYear
  rw [dayFromYear] at hBounds
  omega

end OpenApe.Verified.Calendar
