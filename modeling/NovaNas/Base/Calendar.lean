import Mathlib.Tactic.IntervalCases

/-!
# The proleptic Gregorian calendar

Days are numbered from January 1 of year 1, which is day 0 and a Monday. A `Date`
carries the proofs that its month and day exist, so reading a day number as a date
and counting the days before a date are inverse to each other.
-/
namespace NovaNas.Calendar

def isLeap (year : Int) : Bool :=
  year % 4 == 0 && (year % 100 != 0 || year % 400 == 0)

theorem isLeap_iff (year : Int) :
    isLeap year = true ↔ year % 4 = 0 ∧ (year % 100 ≠ 0 ∨ year % 400 = 0) := by
  simp [isLeap]

def leapDay (year : Int) : Int := if isLeap year then 1 else 0

theorem leapDay_eq_one (year : Int) (leap : year % 4 = 0 ∧ (year % 100 ≠ 0 ∨ year % 400 = 0)) :
    leapDay year = 1 := by
  simp [leapDay, (isLeap_iff year).mpr leap]

theorem leapDay_cases (year : Int) : leapDay year = 0 ∨ leapDay year = 1 := by
  unfold leapDay
  split <;> simp

/-- Days before January 1 of `year`. -/
def daysBeforeYear (year : Int) : Int :=
  365 * (year - 1) + (year - 1) / 4 - (year - 1) / 100 + (year - 1) / 400

/-- Days of `year` before the first of `month`; month 13 stands for the whole year. -/
def daysBeforeMonth (month : Nat) (year : Int) : Int :=
  match month with
  | 0 | 1 => 0
  | 2 => 31
  | 3 => 59 + leapDay year
  | 4 => 90 + leapDay year
  | 5 => 120 + leapDay year
  | 6 => 151 + leapDay year
  | 7 => 181 + leapDay year
  | 8 => 212 + leapDay year
  | 9 => 243 + leapDay year
  | 10 => 273 + leapDay year
  | 11 => 304 + leapDay year
  | 12 => 334 + leapDay year
  | _ => 365 + leapDay year

def daysIn (month : Nat) (year : Int) : Int :=
  daysBeforeMonth (month + 1) year - daysBeforeMonth month year

theorem daysBeforeYear_succ (year : Int) :
    daysBeforeYear (year + 1) = daysBeforeYear year + 365 + leapDay year := by
  unfold daysBeforeYear leapDay
  split
  next leap =>
    rw [isLeap_iff] at leap
    omega
  next common =>
    rw [isLeap_iff] at common
    omega

theorem daysBeforeYear_mono {a b : Int} (le : a ≤ b) : daysBeforeYear a ≤ daysBeforeYear b := by
  unfold daysBeforeYear
  omega

theorem daysBeforeMonth_bounds (month : Nat) (year : Int) (le : month ≤ 12) :
    0 ≤ daysBeforeMonth month year ∧ daysBeforeMonth month year ≤ 334 + leapDay year := by
  have leap := leapDay_cases year
  interval_cases month <;> simp only [daysBeforeMonth] <;> omega

/-- Every month has 28 to 31 days. -/
theorem daysIn_bounds (month : Nat) (year : Int) (pos : 1 ≤ month) (le : month ≤ 12) :
    28 ≤ daysIn month year ∧ daysIn month year ≤ 31 := by
  have leap := leapDay_cases year
  interval_cases month <;> simp only [daysIn, daysBeforeMonth] <;> omega

theorem daysBeforeMonth_mono {a b : Nat} (year : Int) (pos : 1 ≤ a) (le : a ≤ b) (bound : b ≤ 13) :
    daysBeforeMonth a year ≤ daysBeforeMonth b year := by
  induction b, le using Nat.le_induction with
  | base => exact Int.le_refl _
  | succ b ab ih =>
    have grows := daysIn_bounds b year (by omega) (by omega)
    have below := ih (by omega)
    unfold daysIn at grows
    omega

/-- The year a day number falls in. The quotient is off by at most one year. -/
def yearOf (n : Int) : Int :=
  -- Four hundred years have 146097 days.
  let guess := n * 400 / 146097 + 1
  if n < daysBeforeYear guess then guess - 1
  else if daysBeforeYear (guess + 1) ≤ n then guess + 1
  else guess

theorem yearOf_spec (n : Int) :
    daysBeforeYear (yearOf n) ≤ n ∧ n < daysBeforeYear (yearOf n + 1) := by
  -- Each branch is linear arithmetic on the day counts of three neighbouring years.
  unfold yearOf
  dsimp only
  split
  next below =>
    unfold daysBeforeYear at *
    omega
  next reached =>
    split
    next beyond =>
      unfold daysBeforeYear at *
      omega
    next within => exact ⟨by omega, by omega⟩

theorem yearOf_unique {n year : Int} (lower : daysBeforeYear year ≤ n)
    (upper : n < daysBeforeYear (year + 1)) : yearOf n = year := by
  obtain ⟨below, above⟩ := yearOf_spec n
  -- Two years that both contain the day would have to overlap.
  rcases lt_trichotomy (yearOf n) year with less | same | more
  · have mono := daysBeforeYear_mono (show yearOf n + 1 ≤ year by omega)
    omega
  · exact same
  · have mono := daysBeforeYear_mono (show year + 1 ≤ yearOf n by omega)
    omega

theorem yearOf_mono {a b : Int} (le : a ≤ b) : yearOf a ≤ yearOf b := by
  by_contra less
  have mono := daysBeforeYear_mono (show yearOf b + 1 ≤ yearOf a by omega)
  have lower := (yearOf_spec a).1
  have upper := (yearOf_spec b).2
  omega

/-- Day of the year, counted from 0. -/
def yearDay (n : Int) : Int := n - daysBeforeYear (yearOf n)

theorem yearDay_bounds (n : Int) : 0 ≤ yearDay n ∧ yearDay n < 365 + leapDay (yearOf n) := by
  obtain ⟨lower, upper⟩ := yearOf_spec n
  rw [daysBeforeYear_succ] at upper
  unfold yearDay
  omega

/-- The first of the months `month`, …, `month + rest` that day `d` (from 0) of `year`
does not lie beyond. -/
def monthFrom (year d : Int) (month : Nat) : Nat → Nat
  | 0 => month
  | rest + 1 => if d < daysBeforeMonth (month + 1) year then month
      else monthFrom year d (month + 1) rest

def monthOfYearDay (year d : Int) : Nat := monthFrom year d 1 11

theorem monthFrom_spec (year d : Int) (month rest : Nat) (reached : daysBeforeMonth month year ≤ d)
    (bound : d < daysBeforeMonth (month + rest + 1) year) :
    month ≤ monthFrom year d month rest ∧ monthFrom year d month rest ≤ month + rest ∧
      daysBeforeMonth (monthFrom year d month rest) year ≤ d ∧
      d < daysBeforeMonth (monthFrom year d month rest + 1) year := by
  induction rest generalizing month with
  | zero => exact ⟨Nat.le_refl _, Nat.le_refl _, reached, bound⟩
  | succ rest ih =>
    simp only [monthFrom]
    split
    next inside => exact ⟨Nat.le_refl _, by omega, reached, inside⟩
    next beyond =>
      obtain ⟨lower, upper, spec⟩ := ih (month + 1) (by omega)
        (by rwa [Nat.add_right_comm month 1 rest])
      exact ⟨by omega, by omega, spec⟩

theorem monthOfYearDay_spec (year d : Int) (nonneg : 0 ≤ d) (bound : d < 365 + leapDay year) :
    1 ≤ monthOfYearDay year d ∧ monthOfYearDay year d ≤ 12 ∧
      daysBeforeMonth (monthOfYearDay year d) year ≤ d ∧
      d < daysBeforeMonth (monthOfYearDay year d + 1) year :=
  monthFrom_spec year d 1 11 nonneg bound

/-- A date that exists. -/
structure Date where
  year : Int
  month : Nat
  day : Int
  month_pos : 1 ≤ month
  month_le : month ≤ 12
  day_pos : 1 ≤ day
  day_le : day ≤ daysIn month year

@[ext] theorem Date.ext {a b : Date} (year : a.year = b.year) (month : a.month = b.month)
    (day : a.day = b.day) : a = b := by
  cases a
  cases b
  simp_all

/-- Days before a date. -/
def dayNumber (date : Date) : Int :=
  daysBeforeYear date.year + daysBeforeMonth date.month date.year + (date.day - 1)

/-- The date a day number stands for. -/
def dateOf (n : Int) : Date :=
  have spec := monthOfYearDay_spec (yearOf n) (yearDay n) (yearDay_bounds n).1 (yearDay_bounds n).2
  { year := yearOf n
    month := monthOfYearDay (yearOf n) (yearDay n)
    day := yearDay n - daysBeforeMonth (monthOfYearDay (yearOf n) (yearDay n)) (yearOf n) + 1
    month_pos := spec.1
    month_le := spec.2.1
    day_pos := by omega
    day_le := by
      unfold daysIn
      omega }

theorem dayNumber_dateOf (n : Int) : dayNumber (dateOf n) = n := by
  simp only [dayNumber, dateOf, yearDay]
  omega

theorem dayNumber_in_year (date : Date) :
    daysBeforeYear date.year ≤ dayNumber date ∧
      dayNumber date < daysBeforeYear (date.year + 1) := by
  have before := daysBeforeMonth_bounds date.month date.year date.month_le
  have upper := daysBeforeMonth_mono date.year (show 1 ≤ date.month + 1 by omega)
    (show date.month + 1 ≤ 13 from Nat.succ_le_succ date.month_le) le_rfl
  have whole : daysBeforeMonth 13 date.year = 365 + leapDay date.year := rfl
  have le := date.day_le
  have pos := date.day_pos
  rw [daysBeforeYear_succ]
  unfold dayNumber daysIn at *
  omega

theorem yearOf_dayNumber (date : Date) : yearOf (dayNumber date) = date.year :=
  yearOf_unique (dayNumber_in_year date).1 (dayNumber_in_year date).2

theorem month_unique {year d : Int} {a b : Nat} (apos : 1 ≤ a) (ale : a ≤ 12) (bpos : 1 ≤ b)
    (ble : b ≤ 12) (alower : daysBeforeMonth a year ≤ d) (aupper : d < daysBeforeMonth (a + 1) year)
    (blower : daysBeforeMonth b year ≤ d) (bupper : d < daysBeforeMonth (b + 1) year) : a = b := by
  rcases lt_trichotomy a b with less | same | more
  · have mono := daysBeforeMonth_mono year (show 1 ≤ a + 1 by omega) (show a + 1 ≤ b by omega)
      (by omega)
    omega
  · exact same
  · have mono := daysBeforeMonth_mono year (show 1 ≤ b + 1 by omega) (show b + 1 ≤ a by omega)
      (by omega)
    omega

theorem dateOf_dayNumber (date : Date) : dateOf (dayNumber date) = date := by
  have year : yearOf (dayNumber date) = date.year := yearOf_dayNumber date
  have offset : yearDay (dayNumber date) =
      daysBeforeMonth date.month date.year + (date.day - 1) := by
    unfold yearDay
    rw [year]
    unfold dayNumber
    omega
  have spec := monthOfYearDay_spec (yearOf (dayNumber date)) (yearDay (dayNumber date))
    (yearDay_bounds _).1 (yearDay_bounds _).2
  rw [year, offset] at spec
  have le := date.day_le
  have pos := date.day_pos
  -- Both the month of the date and the month found contain the day of the year.
  have month : monthOfYearDay date.year (daysBeforeMonth date.month date.year + (date.day - 1)) =
      date.month := by
    apply month_unique spec.1 spec.2.1 date.month_pos date.month_le spec.2.2.1 spec.2.2.2
    · omega
    · unfold daysIn at le
      omega
  apply Date.ext
  · exact year
  · simp only [dateOf, year, offset, month]
  · simp only [dateOf, year, offset, month]
    omega

theorem dayNumber_lt_of_year_lt {a b : Date} (less : a.year < b.year) :
    dayNumber a < dayNumber b := by
  have upper := (dayNumber_in_year a).2
  have lower := (dayNumber_in_year b).1
  have mono := daysBeforeYear_mono (show a.year + 1 ≤ b.year by omega)
  omega

/-- The first day of a month. -/
def firstOf (year : Int) (month : Nat) (pos : 1 ≤ month) (le : month ≤ 12) : Date where
  year := year
  month := month
  day := 1
  month_pos := pos
  month_le := le
  day_pos := Int.le_refl 1
  day_le := by
    have bounds := daysIn_bounds month year pos le
    omega

/-- The first day of the month after a date. -/
def nextMonth (date : Date) : Date :=
  if wraps : 12 < date.month + 1 then firstOf (date.year + 1) 1 (by omega) (by omega)
  else firstOf date.year (date.month + 1) (by omega) (by omega)

theorem dayNumber_nextMonth (date : Date) :
    dayNumber (nextMonth date) =
      daysBeforeYear date.year + daysBeforeMonth (date.month + 1) date.year := by
  unfold nextMonth
  split
  next wraps =>
    have december : date.month = 12 := by
      have le := date.month_le
      omega
    have whole : daysBeforeMonth 13 date.year = 365 + leapDay date.year := rfl
    have january : daysBeforeMonth 1 (date.year + 1) = 0 := rfl
    simp only [dayNumber, firstOf, december, daysBeforeYear_succ, whole, january]
    omega
  next inside =>
    simp only [dayNumber, firstOf]
    omega

/-- All days from `n` up to the first of the next month lie in the month of `n`. -/
theorem same_month {n k : Int} (le : n ≤ k) (before : k < dayNumber (nextMonth (dateOf n))) :
    (dateOf k).year = (dateOf n).year ∧ (dateOf k).month = (dateOf n).month := by
  rw [dayNumber_nextMonth] at before
  have number := dayNumber_dateOf n
  have pos := (dateOf n).day_pos
  unfold dayNumber at number
  -- Count on within the month; the date reached is the one `k` stands for.
  let moved : Date :=
    { year := (dateOf n).year
      month := (dateOf n).month
      day := (dateOf n).day + (k - n)
      month_pos := (dateOf n).month_pos
      month_le := (dateOf n).month_le
      day_pos := by omega
      day_le := by
        unfold daysIn
        omega }
  have same : dayNumber moved = k := by
    simp only [dayNumber, moved]
    omega
  rw [← same, dateOf_dayNumber]
  exact ⟨rfl, rfl⟩

theorem lt_nextMonth (n : Int) : n < dayNumber (nextMonth (dateOf n)) := by
  rw [dayNumber_nextMonth]
  have number := dayNumber_dateOf n
  have le := (dateOf n).day_le
  unfold dayNumber daysIn at *
  omega

/-- Of any eight years in a row at least one is a leap year, over a century
without a leap day too. -/
theorem leap_within_eight (year : Int) :
    ∃ y, year < y ∧ y ≤ year + 8 ∧ leapDay y = 1 := by
  -- The next multiple of four, or the one after it where a century skips its leap day.
  let next := year / 4 * 4 + 4
  have shape : next = year / 4 * 4 + 4 := rfl
  by_cases century : next % 100 = 0 ∧ next % 400 ≠ 0
  · exact ⟨next + 4, by omega, by omega, leapDay_eq_one _ (by omega)⟩
  · exact ⟨next, by omega, by omega, leapDay_eq_one _ (by omega)⟩

theorem daysIn_le_of_leap (month : Nat) (a b : Int) (leap : leapDay b = 1) (pos : 1 ≤ month)
    (le : month ≤ 12) : daysIn month a ≤ daysIn month b := by
  have cases := leapDay_cases a
  interval_cases month <;> simp only [daysIn, daysBeforeMonth] <;> omega

/-- Every day of the year that exists at all comes again within eight years. -/
theorem day_recurs (date : Date) (year : Int) :
    ∃ again : Date, year < again.year ∧ again.year ≤ year + 8 ∧
      again.month = date.month ∧ again.day = date.day := by
  obtain ⟨y, after, within, leap⟩ := leap_within_eight year
  have room := daysIn_le_of_leap date.month date.year y leap date.month_pos date.month_le
  exact ⟨⟨y, date.month, date.day, date.month_pos, date.month_le, date.day_pos,
    Int.le_trans date.day_le room⟩, after, within, rfl, rfl⟩

/-- Day of the week with Sunday as 0. -/
def weekday (n : Int) : Int := (n + 1) % 7

/-- Every month of every year has every day of the week. -/
theorem weekday_in_month (month : Nat) (year n : Int) (pos : 1 ≤ month) (le : month ≤ 12) :
    ∃ date : Date, date.year = year ∧ date.month = month ∧
      weekday (dayNumber date) = weekday n := by
  have room := daysIn_bounds month year pos le
  -- One of the first seven days of the month has the weekday wanted.
  let shift := (n - dayNumber (firstOf year month pos le)) % 7
  have range : 0 ≤ shift ∧ shift < 7 := by
    unfold shift
    omega
  refine ⟨⟨year, month, 1 + shift, pos, le, by omega, by omega⟩, rfl, rfl, ?_⟩
  simp only [shift, weekday, dayNumber, firstOf]
  omega

/-- Year and week of the ISO 8601 calendar: those of the Thursday of the week. -/
def isoWeek (n : Int) : Int × Int :=
  let d := 4 - weekday n
  -- Sunday closes the week, so its Thursday lies three days back.
  let d := if d = 4 then -3 else d
  (yearOf (n + d), yearDay (n + d) / 7 + 1)

theorem isoWeek_eq (n : Int) :
    isoWeek n = (yearOf (n / 7 * 7 + 3), yearDay (n / 7 * 7 + 3) / 7 + 1) := by
  have thursday : n + (if 4 - weekday n = 4 then -3 else 4 - weekday n) = n / 7 * 7 + 3 := by
    unfold weekday
    split <;> omega
  simp only [isoWeek, thursday]

theorem isoWeek_congr {a b : Int} (same : a / 7 = b / 7) : isoWeek a = isoWeek b := by
  rw [isoWeek_eq, isoWeek_eq, same]

/-- A year and week number name one week. -/
theorem isoWeek_injective {a b : Int} (same : isoWeek a = isoWeek b) : a / 7 = b / 7 := by
  -- Both Thursdays lie in one year, where the week number tells them apart.
  rw [isoWeek_eq, isoWeek_eq, Prod.mk.injEq] at same
  obtain ⟨year, week⟩ := same
  unfold yearDay at week
  rw [year] at week
  omega

end NovaNas.Calendar
