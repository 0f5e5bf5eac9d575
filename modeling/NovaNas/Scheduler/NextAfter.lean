import NovaNas.Scheduler.Cron

/-!
# The next fire in a zone with one offset

In UTC, and in every zone whose offset never changes, the search of `NextAfter` jumps over
no fire and its cap of eight years hides none: an expression that fires at all fires again
within eight years, February 29 and the century years without one included.
-/
namespace NovaNas.Scheduler

open Calendar Clock SkipSearch

/-- The instants the search looks at. -/
def OnMinute (t : Int) : Prop := t % minute = 0

/-- `v` is the first minute after the minute of `t` at which `c` fires. -/
def FiresNext (c : CronExpr) (loc : Location) (t v : Int) : Prop :=
  OnMinute v ∧ truncate t minute < v ∧ c.matchTime loc v = true ∧
    ∀ u, OnMinute u → truncate t minute < u → u < v → c.matchTime loc u = false

theorem FiresNext.unique {c : CronExpr} {loc : Location} {t v w : Int} (first : FiresNext c loc t v)
    (second : FiresNext c loc t w) : v = w := by
  obtain ⟨vgrid, vafter, vfires, vleast⟩ := first
  obtain ⟨wgrid, wafter, wfires, wleast⟩ := second
  rcases lt_trichotomy v w with less | same | more
  · simp [wleast v vgrid vafter less] at vfires
  · exact same
  · simp [vleast w wgrid wafter more] at wfires

/-! ### The match, field by field -/

theorem matchWall_iff (c : CronExpr) (wall : Int) :
    c.matchWall wall = true ↔ c.minute.matches (clockMinute wall) = true ∧
      c.hour.matches (clockHour wall) = true ∧ c.mon.matches (clockDate wall).month = true ∧
      c.dayMatches wall = true := by
  simp only [CronExpr.matchWall]
  repeat' split
  all_goals simp_all

theorem step_eq_none_iff (c : CronExpr) (loc : Location) (t : Int) :
    c.step loc t = none ↔ c.matchTime loc t = true := by
  simp only [CronExpr.matchTime, matchWall_iff, CronExpr.step]
  repeat' split
  all_goals simp_all

theorem withinCap_iff (loc : Location) (start t : Int) :
    withinCap loc start t = true ↔ clockYear (loc.wall t) ≤ clockYear (loc.wall start) + 8 :=
  decide_eq_true_iff

theorem clockOf_onMinute (date : Date) (h mi : Int) : OnMinute (clockOf date h mi) := by
  unfold OnMinute clockOf day hour minute
  omega

theorem searchStart_onMinute (t : Int) : OnMinute (searchStart t) := by
  unfold OnMinute searchStart truncate minute
  omega

/-- The wall clock under the cap ends with the eighth year. -/
theorem wall_lt_of_withinCap {loc : Location} {start t : Int}
    (inside : withinCap loc start t = true) :
    loc.wall t < daysBeforeYear (clockYear (loc.wall start) + 9) * day := by
  rw [withinCap_iff] at inside
  have upper := (yearOf_spec (loc.wall t / day)).2
  have mono := daysBeforeYear_mono (Int.add_le_add_right inside 1)
  change daysBeforeYear (yearOf (loc.wall t / day) + 1) ≤ _ at mono
  rw [show clockYear (loc.wall start) + 8 + 1 = clockYear (loc.wall start) + 9 by omega] at mono
  unfold day at *
  omega

/-- What one pass of the loop can do. -/
theorem step_cases {c : CronExpr} {loc : Location} {t u : Int} (moves : c.step loc t = some u) :
    (c.mon.matches (clockDate (loc.wall t)).month = false ∧ u = nextMonthStart loc t) ∨
    (c.dayMatches (loc.wall t) = false ∧ u = nextDayStart loc t) ∨
    (c.hour.matches (clockHour (loc.wall t)) = false ∧ u = nextHourStart loc t) ∨
    (c.minute.matches (clockMinute (loc.wall t)) = false ∧ u = t + minute) := by
  simp only [CronExpr.step] at moves
  split at moves
  next month => exact .inl ⟨by simpa using month, (Option.some.inj moves).symm⟩
  · split at moves
    next day => exact .inr (.inl ⟨by simpa using day, (Option.some.inj moves).symm⟩)
    · split at moves
      next hour => exact .inr (.inr (.inl ⟨by simpa using hour, (Option.some.inj moves).symm⟩))
      · split at moves
        next minute =>
          exact .inr (.inr (.inr ⟨by simpa using minute, (Option.some.inj moves).symm⟩))
        · cases moves

/-! ### Moves in a zone with one offset -/

section Fixed

variable (offset : Int)

theorem nextMonthStart_fixed (t : Int) : nextMonthStart (fixedZone offset) t =
    dayNumber (nextMonth (clockDate (t + offset * minute))) * day -
      offset * minute := by
  simp [nextMonthStart, clockOf]

theorem nextDayStart_fixed (t : Int) : nextDayStart (fixedZone offset) t =
    ((t + offset * minute) / day + 1) * day - offset * minute := by
  simp only [nextDayStart, wall_fixedZone, date_fixedZone, clockOf_midnight, day,
    minute]
  omega

theorem nextHourStart_fixed (t : Int) : nextHourStart (fixedZone offset) t =
    ((t + offset * minute) / hour + 1) * hour - offset * minute := by
  simp only [nextHourStart, wall_fixedZone, date_fixedZone, clockOf_hour, hour, minute]
  omega

/-- Until the 1st of the next month the month field stays as it is. -/
theorem month_constant (wall later : Int) (le : wall ≤ later)
    (before : later < dayNumber (nextMonth (clockDate wall)) * day) :
    (clockDate later).month = (clockDate wall).month := by
  apply (same_month (n := wall / day) (k := later / day) _ _).2
  · unfold day at *
    omega
  · unfold clockDate at before
    unfold day at *
    omega

theorem month_moves_up (wall : Int) :
    wall < dayNumber (nextMonth (clockDate wall)) * day := by
  have after := lt_nextMonth (wall / day)
  unfold clockDate day at *
  omega

theorem dayMatches_congr (c : CronExpr) {wall later : Int}
    (same : later / day = wall / day) : c.dayMatches later = c.dayMatches wall := by
  simp only [CronExpr.dayMatches, clockDate, clockWeekday, same]

/-- No move of the search jumps over a fire. -/
theorem step_skips_no_fire (c : CronExpr) :
    SkipsNoHit OnMinute (fun t => c.matchTime (fixedZone offset) t = true)
      (c.step (fixedZone offset)) := by
  intro t u grid moves
  simp only [OnMinute, CronExpr.matchTime, wall_fixedZone, matchWall_iff] at grid ⊢
  -- In each branch the field that did not match stays the same up to the instant moved to.
  rcases step_cases moves with ⟨field, rfl⟩ | ⟨field, rfl⟩ | ⟨field, rfl⟩ | ⟨field, rfl⟩ <;>
    simp only [wall_fixedZone] at field
  · rw [nextMonthStart_fixed]
    have up := month_moves_up (t + offset * minute)
    refine ⟨by unfold day minute at *; omega, by omega, ?_⟩
    rintro v - from_ before ⟨-, -, fires, -⟩
    rw [month_constant (t + offset * minute) _ (by omega) (by omega), field] at fires
    cases fires
  · rw [nextDayStart_fixed]
    refine ⟨by unfold day minute at *; omega, by unfold day; omega, ?_⟩
    rintro v - from_ before ⟨-, -, -, fires⟩
    have same : (v + offset * minute) / day =
        (t + offset * minute) / day := by
      unfold day at *
      omega
    rw [dayMatches_congr c same, field] at fires
    cases fires
  · rw [nextHourStart_fixed]
    refine ⟨by unfold hour minute at *; omega, by unfold hour; omega, ?_⟩
    rintro v - from_ before ⟨-, fires, -, -⟩
    rw [show clockHour (v + offset * minute) = clockHour (t + offset * minute) by
      unfold clockHour hour at *; omega, field] at fires
    cases fires
  · refine ⟨by unfold minute at *; omega, by unfold minute; omega, ?_⟩
    rintro v vgrid from_ before ⟨fires, -, -, -⟩
    rw [show v = t by unfold minute at *; omega, field] at fires
    cases fires

end Fixed

/-! ### The cap of eight years -/

theorem clockOf_day (date : Date) (wall : Int) :
    clockOf date (clockHour wall) (clockMinute wall) / day = dayNumber date := by
  unfold clockOf clockHour clockMinute day hour minute
  omega

theorem clockDate_clockOf (date : Date) (wall : Int) :
    clockDate (clockOf date (clockHour wall) (clockMinute wall)) = date := by
  rw [clockDate, clockOf_day, dateOf_dayNumber]

/-- A day is allowed by its day of the month or by its day of the week. -/
theorem dayMatches_of (c : CronExpr) (wall : Int) (fires : c.dayMatches wall = true) :
    (∀ later, (clockDate later).day = (clockDate wall).day → c.dayMatches later = true) ∨
    (∀ later, clockWeekday later = clockWeekday wall → c.dayMatches later = true) := by
  simp only [CronExpr.dayMatches] at fires ⊢
  -- Only with both day fields restricted is there a choice which one let the day pass.
  repeat' split at fires
  all_goals simp_all
  rcases fires with dom | dow
  · exact .inl fun later same => .inl (same ▸ dom)
  · exact .inr fun later same => .inr (same ▸ dow)

/-- The hour and minute fields of a fire, on another allowed day of the same month. -/
theorem matchWall_on_day (c : CronExpr) (wall : Int) (fires : c.matchWall wall = true) (date : Date)
    (month : date.month = (clockDate wall).month)
    (allowed : c.dayMatches (clockOf date (clockHour wall) (clockMinute wall)) = true) :
    c.matchWall (clockOf date (clockHour wall) (clockMinute wall)) = true := by
  obtain ⟨mi, hr, mon, -⟩ := (matchWall_iff c wall).mp fires
  have hours : clockHour (clockOf date (clockHour wall) (clockMinute wall)) = clockHour wall := by
    unfold clockHour clockMinute clockOf day hour minute
    omega
  have minutes :
      clockMinute (clockOf date (clockHour wall) (clockMinute wall)) = clockMinute wall := by
    unfold clockHour clockMinute clockOf day hour minute
    omega
  rw [matchWall_iff, hours, minutes, clockDate_clockOf, month]
  exact ⟨mi, hr, mon, allowed⟩

/-- What fires once fires again in one of the eight years after any year. -/
theorem fires_within_eight (c : CronExpr) (wall : Int) (fires : c.matchWall wall = true)
    (year : Int) :
    ∃ later, OnMinute later ∧ c.matchWall later = true ∧
      year < clockYear later ∧ clockYear later ≤ year + 8 := by
  have allowed := ((matchWall_iff c wall).mp fires).2.2.2
  have grid (date : Date) := clockOf_onMinute date (clockHour wall) (clockMinute wall)
  rcases dayMatches_of c wall allowed with byDom | byDow
  -- By its day of the month: the date comes again in a leap year at the latest.
  · obtain ⟨date, after, within, month, sameDay⟩ := day_recurs (clockDate wall) year
    refine ⟨clockOf date (clockHour wall) (clockMinute wall), grid date, ?_, ?_, ?_⟩
    · exact matchWall_on_day c wall fires date month (byDom _ (by rw [clockDate_clockOf, sameDay]))
    · rw [clockYear, clockDate_clockOf]
      exact after
    · rw [clockYear, clockDate_clockOf]
      exact within
  -- By its day of the week: the same month of the very next year has one.
  · obtain ⟨date, inYear, month, sameWeekday⟩ := weekday_in_month (clockDate wall).month (year + 1)
      (wall / day) (clockDate wall).month_pos (clockDate wall).month_le
    refine ⟨clockOf date (clockHour wall) (clockMinute wall), grid date, ?_, ?_, ?_⟩
    · refine matchWall_on_day c wall fires date month (byDow _ ?_)
      rw [clockWeekday, clockOf_day, sameWeekday, clockWeekday]
    · rw [clockYear, clockDate_clockOf, inYear]
      omega
    · rw [clockYear, clockDate_clockOf, inYear]
      omega

theorem lt_of_clockYear_lt {a b : Int} (less : clockYear a < clockYear b) : a < b := by
  have numbers := dayNumber_lt_of_year_lt less
  rw [clockDate, clockDate, dayNumber_dateOf, dayNumber_dateOf] at numbers
  unfold day at numbers
  omega

theorem clockYear_mono {a b : Int} (le : a ≤ b) : clockYear a ≤ clockYear b := by
  by_contra less
  exact absurd (lt_of_clockYear_lt (not_le.mp less)) (not_lt.mpr le)

/-! ### The search as a whole -/

/-- More passes than the search can make: the minutes of nine years. -/
def searchFuel : Nat := 9 * 366 * 1440 + 2

section Fixed

variable (offset : Int)

/-- The first instant beyond the cap. -/
def capEnd (start : Int) : Int :=
  daysBeforeYear (clockYear (start + offset * minute) + 9) * day - offset * minute

theorem lt_capEnd (start : Int) {t : Int} (inside : withinCap (fixedZone offset) start t = true) :
    t < capEnd offset start := by
  have below := wall_lt_of_withinCap inside
  rw [wall_fixedZone, wall_fixedZone] at below
  unfold capEnd
  omega

theorem capEnd_le (start : Int) : capEnd offset start ≤ start + 9 * 366 * day := by
  have lower : daysBeforeYear (clockYear (start + offset * minute)) ≤
      (start + offset * minute) / day := (yearOf_spec _).1
  have span (year : Int) : daysBeforeYear (year + 9) ≤ daysBeforeYear year + 9 * 366 := by
    unfold daysBeforeYear
    omega
  have whole := span (clockYear (start + offset * minute))
  unfold capEnd day minute at *
  omega

/-- In a zone with one offset every pass moves up by a minute at least, so the minutes left
under the cap bound the passes left. -/
theorem search_finishes_fixed (c : CronExpr) (t : Int) (fuel : Nat) (enough : searchFuel ≤ fuel) :
    search (withinCap (fixedZone offset) (searchStart t)) (c.step (fixedZone offset)) fuel
      (searchStart t) ≠ .outOfFuel := by
  have limit := capEnd_le offset (searchStart t)
  have below := fun u => @lt_capEnd offset (searchStart t) u
  generalize capEnd offset (searchStart t) = stop at limit below
  -- The measure is the number of minutes left under the cap.
  apply search_finishes OnMinute (fun u => ((stop - u + minute) / minute).toNat)
  · intro u v grid inside moves
    obtain ⟨onward, up, -⟩ := step_skips_no_fire offset c u v grid moves
    have bound := below u inside
    refine ⟨onward, ?_⟩
    unfold OnMinute minute at *
    omega
  · exact searchStart_onMinute t
  · unfold searchFuel at enough
    unfold day minute at *
    omega

/-- The search in a zone with one offset returns the next fire, or the zero time when there
is none. -/
theorem nextAfter_fixed (c : CronExpr) (t : Int) :
    ∃ r, (∀ fuel, searchFuel ≤ fuel → c.nextAfter (fixedZone offset) fuel t = some r) ∧
      (FiresNext c (fixedZone offset) t r ∨
        (r = 0 ∧ ∀ v, truncate t minute < v → c.matchTime (fixedZone offset) v = false)) := by
  have onMinute := searchStart_onMinute t
  have after (u : Int) (grid : OnMinute u) : searchStart t ≤ u ↔ truncate t minute < u := by
    unfold OnMinute searchStart truncate minute at *
    omega
  -- The loop has ended by then, so more fuel changes nothing.
  have stable (fuel : Nat) (enough : searchFuel ≤ fuel) :=
    search_fuel_mono enough (search_finishes_fixed offset c t searchFuel le_rfl)
  cases result : search (withinCap (fixedZone offset) (searchStart t)) (c.step (fixedZone offset))
      searchFuel (searchStart t) with
  | found r =>
    refine ⟨r, fun fuel enough => ?_, .inl ?_⟩
    · rw [CronExpr.nextAfter, stable fuel enough, result]
    · obtain ⟨grid, fires, le, -, least⟩ := search_found
        (fun u _ stops => (step_eq_none_iff c _ u).mp stops) (step_skips_no_fire offset c)
        searchFuel (searchStart t) r onMinute result
      exact ⟨grid, (after r grid).mp le, fires, fun u ugrid later before =>
        Bool.eq_false_iff.mpr (least u ugrid ((after u ugrid).mpr later) before)⟩
  | exhausted =>
    refine ⟨0, fun fuel enough => ?_, .inr ⟨rfl, fun v later => ?_⟩⟩
    · rw [CronExpr.nextAfter, stable fuel enough, result]
    · -- A fire beyond the cap would come again below it.
      by_contra fires
      have hit : c.matchWall (v + offset * minute) = true := by
        simpa [CronExpr.matchTime] using fires
      obtain ⟨again, grid, fires, above, within⟩ := fires_within_eight c _ hit
        (clockYear (searchStart t + offset * minute))
      refine search_exhausted (step_skips_no_fire offset c) ?_ searchFuel (searchStart t) onMinute
        result (again - offset * minute) ?_ ?_ ?_ ?_
      · intro a b le inside
        have mono := clockYear_mono
          (show a + offset * minute ≤ b + offset * minute by omega)
        simp only [withinCap_iff, wall_fixedZone] at inside ⊢
        omega
      · unfold OnMinute minute at *
        omega
      · have up := lt_of_clockYear_lt above
        omega
      · simpa [withinCap_iff] using within
      · simpa [CronExpr.matchTime] using fires
  | outOfFuel => exact absurd result (search_finishes_fixed offset c t searchFuel le_rfl)

end Fixed

/-- In UTC `NextAfter` returns the next fire, and the zero time exactly when nothing fires any
more or the next fire is the zero time itself. -/
theorem nextAfter_utc (c : CronExpr) (t : Int) :
    ∃ r, (∀ fuel, searchFuel ≤ fuel → c.nextAfter utc fuel t = some r) ∧
      (∀ v, FiresNext c utc t v → r = v) ∧
      ((∃ v, FiresNext c utc t v) ↔ ∃ v, truncate t minute < v ∧ c.matchTime utc v = true) ∧
      (r = 0 ↔ (∀ v, truncate t minute < v → c.matchTime utc v = false) ∨
        FiresNext c utc t 0) := by
  obtain ⟨r, returns, spec⟩ := nextAfter_fixed 0 c t
  change FiresNext c utc t r ∨ (r = 0 ∧ ∀ v, _ → c.matchTime utc v = false) at spec
  refine ⟨r, returns, fun v next => ?_, ⟨?_, ?_⟩, ?_⟩
  · rcases spec with first | ⟨-, never⟩
    · exact first.unique next
    · exact absurd next.2.2.1 (by simp [never v next.2.1])
  · rintro ⟨v, next⟩
    exact ⟨v, next.2.1, next.2.2.1⟩
  · rintro ⟨v, later, fires⟩
    rcases spec with first | ⟨-, never⟩
    · exact ⟨r, first⟩
    · exact absurd fires (by simp [never v later])
  · constructor
    · rintro rfl
      rcases spec with first | ⟨-, never⟩
      · exact .inr first
      · exact .inl never
    · rintro (never | first)
      · rcases spec with next | ⟨zero, -⟩
        · exact absurd next.2.2.1 (by simp [never r next.2.1])
        · exact zero
      · rcases spec with next | ⟨zero, -⟩
        · exact next.unique first
        · exact zero

def everyMinute : CronExpr :=
  ⟨⟨true, []⟩, ⟨true, []⟩, ⟨true, []⟩, ⟨true, []⟩, ⟨true, []⟩, "* * * * *"⟩

/-- One minute before the zero time the next fire of "* * * * *" is the zero time. -/
theorem nextAfter_zero_is_a_fire :
    parseCron "* * * * *" = .ok everyMinute ∧
      ¬ (everyMinute.nextAfter utc searchFuel (-minute) = some 0 ↔
        ∀ v, truncate (-minute) minute < v → everyMinute.matchTime utc v = false) := by
  refine ⟨by decide, fun exactly => ?_⟩
  have returned : everyMinute.nextAfter utc searchFuel (-minute) = some 0 := by decide
  have never := exactly.mp returned 0 (by decide)
  revert never
  decide

end NovaNas.Scheduler
