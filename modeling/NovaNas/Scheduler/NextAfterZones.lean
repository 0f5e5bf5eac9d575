import NovaNas.Scheduler.NextAfter

/-!
# The search in zones with transitions

Adding 24 hours and snapping back to midnight, or an hour and snapping back to the full
hour, goes forward only where no local day lasts longer than 24 hours and no local hour
longer than one. On the day a zone sets its clock back the search stands still: from
midnight of a 25-hour day it comes back to that midnight, and from the first of two equal
full hours it comes back to that hour whenever the wall clock resolves to the first.
-/
namespace NovaNas.Scheduler

open Calendar Clock SkipSearch

/-- Every pass of the loop moves to a strictly later instant. -/
def CronExpr.Advances (c : CronExpr) (loc : Location) (t : Int) : Prop :=
  ∀ u v, Visited (withinCap loc (searchStart t)) (c.step loc) (searchStart t) u →
    withinCap loc (searchStart t) u = true → c.step loc u = some v → u < v

def CronExpr.Terminates (c : CronExpr) (loc : Location) (t : Int) : Prop :=
  ∃ fuel r, c.nextAfter loc fuel t = some r

/-- The offset a wall clock is resolved with. -/
def resolvedOffset (loc : Location) (wall : Int) : Int := loc.offsetAt (wall - loc.offsetAt wall)

theorem date_resolved (loc : Location) (wall : Int) :
    loc.date wall = wall - resolvedOffset loc wall := loc.date_eq wall

def hourStart (wall : Int) : Int := wall / hour * hour
def dayStart (wall : Int) : Int := wall / day * day
def monthEnd (wall : Int) : Int := dayNumber (nextMonth (clockDate wall)) * day

/-- From `s` on the clock is nowhere set back by as much as is left of the local hour, day
or month: the offset that the start of the hour and of the day resolve to, and the start of
the next month, exceeds the offset in force by less than that. -/
structure KeepsPace (loc : Location) (s : Int) : Prop where
  hours : ∀ x, OnMinute x → s + hour ≤ x →
    resolvedOffset loc (hourStart (loc.wall x)) - loc.offsetAt x <
      hourStart (loc.wall x) + hour - loc.wall x
  days : ∀ x, OnMinute x → s + day ≤ x →
    resolvedOffset loc (dayStart (loc.wall x)) - loc.offsetAt x <
      dayStart (loc.wall x) + day - loc.wall x
  months : ∀ x, OnMinute x → s ≤ x →
    resolvedOffset loc (monthEnd (loc.wall x)) - loc.offsetAt x < monthEnd (loc.wall x) - loc.wall x

/-! ### One move -/

theorem nextHourStart_eq (loc : Location) (t : Int) : nextHourStart loc t =
    hourStart (loc.wall (t + hour)) -
      resolvedOffset loc (hourStart (loc.wall (t + hour))) := by
  simp only [nextHourStart, clockOf_hour, date_resolved, hourStart]

theorem nextDayStart_eq (loc : Location) (t : Int) : nextDayStart loc t =
    dayStart (loc.wall (t + day)) -
      resolvedOffset loc (dayStart (loc.wall (t + day))) := by
  simp only [nextDayStart, clockOf_midnight, date_resolved, dayStart]

theorem nextMonthStart_eq (loc : Location) (t : Int) : nextMonthStart loc t =
    monthEnd (loc.wall t) - resolvedOffset loc (monthEnd (loc.wall t)) := by
  simp only [nextMonthStart, date_resolved, monthEnd, clockOf]
  simp

theorem nextHourStart_advances_iff (loc : Location) (t : Int) : t < nextHourStart loc t ↔
    resolvedOffset loc (hourStart (loc.wall (t + hour))) - loc.offsetAt (t + hour) <
      hourStart (loc.wall (t + hour)) + hour - loc.wall (t + hour) := by
  rw [nextHourStart_eq]
  generalize hourStart (loc.wall (t + hour)) = start
  unfold Location.wall
  omega

theorem nextDayStart_advances_iff (loc : Location) (t : Int) : t < nextDayStart loc t ↔
    resolvedOffset loc (dayStart (loc.wall (t + day))) - loc.offsetAt (t + day) <
      dayStart (loc.wall (t + day)) + day - loc.wall (t + day) := by
  rw [nextDayStart_eq]
  generalize dayStart (loc.wall (t + day)) = start
  unfold Location.wall
  omega

theorem nextMonthStart_advances_iff (loc : Location) (t : Int) : t < nextMonthStart loc t ↔
    resolvedOffset loc (monthEnd (loc.wall t)) - loc.offsetAt t <
      monthEnd (loc.wall t) - loc.wall t := by
  rw [nextMonthStart_eq]
  generalize monthEnd (loc.wall t) = stop
  unfold Location.wall
  omega

theorem date_onMinute (loc : Location) {wall : Int} (grid : OnMinute wall) :
    OnMinute (loc.date wall) := by
  rw [loc.date_eq]
  unfold OnMinute Location.offsetAt minute at *
  omega

variable {c : CronExpr} {loc : Location}

theorem step_onMinute {t u : Int} (grid : OnMinute t) (moves : c.step loc t = some u) :
    OnMinute u := by
  rcases step_cases moves with ⟨-, rfl⟩ | ⟨-, rfl⟩ | ⟨-, rfl⟩ | ⟨-, rfl⟩
  · exact date_onMinute loc (clockOf_onMinute _ _ _)
  · exact date_onMinute loc (clockOf_onMinute _ _ _)
  · exact date_onMinute loc (clockOf_onMinute _ _ _)
  · unfold OnMinute minute at *
    omega

theorem step_advances {s : Int} (pace : KeepsPace loc s) {t u : Int} (grid : OnMinute t)
    (from_ : s ≤ t) (moves : c.step loc t = some u) : t < u := by
  rcases step_cases moves with ⟨-, rfl⟩ | ⟨-, rfl⟩ | ⟨-, rfl⟩ | ⟨-, rfl⟩
  · exact (nextMonthStart_advances_iff loc t).mpr (pace.months t grid from_)
  · refine (nextDayStart_advances_iff loc t).mpr (pace.days _ ?_ (by omega))
    unfold OnMinute day minute at *
    omega
  · refine (nextHourStart_advances_iff loc t).mpr (pace.hours _ ?_ (by omega))
    unfold OnMinute hour minute at *
    omega
  · unfold minute
    omega

/-! ### The whole loop -/

theorem visited_onMinute {start u : Int} {inRange : Int → Bool} (grid : OnMinute start)
    (visited : Visited inRange (c.step loc) start u) : OnMinute u := by
  induction visited with
  | start => exact grid
  | move _ _ moves ih => exact step_onMinute ih moves

theorem visited_from {s start u : Int} {inRange : Int → Bool} (pace : KeepsPace loc s)
    (grid : OnMinute start) (from_ : s ≤ start) (visited : Visited inRange (c.step loc) start u) :
    s ≤ u := by
  induction visited with
  | start => exact from_
  | move before _ moves ih =>
    exact ih.trans (step_advances pace (visited_onMinute grid before) ih moves).le

/-- The cap bounds the instants the loop looks at, since a zone's offsets are bounded. -/
theorem withinCap_bounded (loc : Location) (start : Int) :
    ∃ stop, ∀ t, withinCap loc start t = true → t < stop := by
  -- The wall clock is bounded by the year, and the instant is off it by an offset only.
  obtain ⟨bound, bounded⟩ := loc.offset_bounded
  refine ⟨daysBeforeYear (clockYear (loc.wall start) + 9) * day + bound, fun t inside => ?_⟩
  have below := wall_lt_of_withinCap inside
  have offset := bounded t
  unfold Location.wall at *
  omega

/-- A loop that advances on every pass ends: there are finitely many minutes under the cap. -/
theorem terminates_of_advances (c : CronExpr) (loc : Location) (t : Int)
    (advances : c.Advances loc t) : c.Terminates loc t := by
  obtain ⟨stop, below⟩ := withinCap_bounded loc (searchStart t)
  -- At most one pass for each minute between the start and the bound.
  let passes := ((stop - searchStart t + minute) / minute).toNat + 1
  have finished : search (withinCap loc (searchStart t)) (c.step loc) passes (searchStart t) ≠
      .outOfFuel := by
    apply search_finishes
      (Visited (withinCap loc (searchStart t)) (c.step loc) (searchStart t))
      (fun u => ((stop - u + minute) / minute).toNat)
    · intro u v visited inside moves
      have up := advances u v visited inside moves
      have bound := below u inside
      have here := visited_onMinute (searchStart_onMinute t) visited
      have there := step_onMinute here moves
      refine ⟨visited.move inside moves, ?_⟩
      unfold OnMinute minute at *
      omega
    · exact .start
    · exact Nat.lt_succ_self _
  unfold CronExpr.Terminates CronExpr.nextAfter
  refine ⟨passes, ?_⟩
  cases result : search (withinCap loc (searchStart t)) (c.step loc) passes (searchStart t) with
  | found r => exact ⟨r, rfl⟩
  | exhausted => exact ⟨0, rfl⟩
  | outOfFuel => exact absurd result finished

/-! ### Expressions that take a given branch -/

theorem dayMatches_dom (mi hr mon : CronField) (raw : String) (d wall : Int)
    (other : (clockDate wall).day ≠ d) :
    CronExpr.dayMatches ⟨mi, hr, ⟨false, [d]⟩, mon, ⟨true, []⟩, raw⟩ wall = false := by
  have ne : d ≠ (clockDate wall).day := fun same => other same.symm
  simp [CronExpr.dayMatches, CronField.matches, scan, ne]

theorem matches_single (d v : Int) (other : v ≠ d) : CronField.matches ⟨false, [d]⟩ v = false := by
  have ne : d ≠ v := fun same => other same.symm
  simp [CronField.matches, scan, ne]

/-- Some expression takes the day branch at a given wall clock. -/
theorem exists_day_branch (loc : Location) (t : Int) :
    ∃ expr c, parseCron expr = .ok c ∧ c.step loc t = some (nextDayStart loc t) := by
  -- A day of the month that is not today's: the 2nd on the 1st, the 1st otherwise.
  by_cases first : (clockDate (loc.wall t)).day = 1
  · refine ⟨"* * 2 * *", ⟨⟨true, []⟩, ⟨true, []⟩, ⟨false, [2]⟩, ⟨true, []⟩, ⟨true, []⟩,
      "* * 2 * *"⟩, by decide, ?_⟩
    have miss := dayMatches_dom ⟨true, []⟩ ⟨true, []⟩ ⟨true, []⟩ "* * 2 * *" 2 (loc.wall t)
      (by omega)
    simp [CronExpr.step, CronField.matches, miss]
  · refine ⟨"* * 1 * *", ⟨⟨true, []⟩, ⟨true, []⟩, ⟨false, [1]⟩, ⟨true, []⟩, ⟨true, []⟩,
      "* * 1 * *"⟩, by decide, ?_⟩
    have miss := dayMatches_dom ⟨true, []⟩ ⟨true, []⟩ ⟨true, []⟩ "* * 1 * *" 1 (loc.wall t) first
    simp [CronExpr.step, CronField.matches, miss]

/-- Some expression takes the hour branch at a given wall clock. -/
theorem exists_hour_branch (loc : Location) (t : Int) :
    ∃ expr c, parseCron expr = .ok c ∧ c.step loc t = some (nextHourStart loc t) := by
  by_cases first : clockHour (loc.wall t) = 0
  · refine ⟨"* 1 * * *", ⟨⟨true, []⟩, ⟨false, [1]⟩, ⟨true, []⟩, ⟨true, []⟩, ⟨true, []⟩,
      "* 1 * * *"⟩, by decide, ?_⟩
    have miss := matches_single 1 (clockHour (loc.wall t)) (by omega)
    simp [CronExpr.step, CronExpr.dayMatches, CronField.matches] at miss ⊢
    simp [miss]
  · refine ⟨"* 0 * * *", ⟨⟨true, []⟩, ⟨false, [0]⟩, ⟨true, []⟩, ⟨true, []⟩, ⟨true, []⟩,
      "* 0 * * *"⟩, by decide, ?_⟩
    have miss := matches_single 0 (clockHour (loc.wall t)) first
    simp [CronExpr.step, CronExpr.dayMatches, CronField.matches] at miss ⊢
    simp [miss]

/-- Some expression takes the month branch at a given wall clock. -/
theorem exists_month_branch (loc : Location) (t : Int) :
    ∃ expr c, parseCron expr = .ok c ∧ c.step loc t = some (nextMonthStart loc t) := by
  by_cases first : (clockDate (loc.wall t)).month = 1
  · refine ⟨"* * * 2 *", ⟨⟨true, []⟩, ⟨true, []⟩, ⟨true, []⟩, ⟨false, [2]⟩, ⟨true, []⟩,
      "* * * 2 *"⟩, by decide, ?_⟩
    have miss := matches_single 2 (clockDate (loc.wall t)).month (by omega)
    simp [CronExpr.step, miss]
  · refine ⟨"* * * 1 *", ⟨⟨true, []⟩, ⟨true, []⟩, ⟨true, []⟩, ⟨false, [1]⟩, ⟨true, []⟩,
      "* * * 1 *"⟩, by decide, ?_⟩
    have miss := matches_single 1 (clockDate (loc.wall t)).month (by omega)
    simp [CronExpr.step, miss]

theorem first_pass_advances {s : Int}
    (all : ∀ expr c, parseCron expr = .ok c → ∀ t, s ≤ searchStart t → c.Advances loc t) {u v : Int}
    (grid : OnMinute u) (from_ : s ≤ u)
    (branch : ∃ expr c, parseCron expr = .ok c ∧ c.step loc u = some v) : u < v := by
  obtain ⟨expr, c, parsed, moves⟩ := branch
  -- A search from the minute before looks at `u` first.
  have start : searchStart (u - minute) = u := by
    unfold searchStart truncate OnMinute minute at *
    omega
  refine all expr c parsed (u - minute) (by rwa [start]) u v ?_ ?_ moves
  · rw [start]
    exact .start
  · rw [start, withinCap_iff]
    omega

/-- For all starts from `s` on `NextAfter` ends, each pass moving to a later instant, exactly
in the zones that keep pace from `s` on. -/
theorem nextAfter_terminates_iff (loc : Location) (s : Int) :
    (∀ expr c, parseCron expr = .ok c → ∀ t, s ≤ searchStart t →
      c.Terminates loc t ∧ c.Advances loc t) ↔ KeepsPace loc s := by
  constructor
  · intro all
    have advances : ∀ expr c, parseCron expr = .ok c → ∀ t, s ≤ searchStart t → c.Advances loc t :=
      fun expr c parsed t from_ => (all expr c parsed t from_).2
    -- The instant a move reads is an hour or a day after the one it starts from.
    refine ⟨fun x grid from_ => ?_, fun x grid from_ => ?_, fun x grid from_ => ?_⟩
    · have onward := first_pass_advances advances (u := x - hour)
        (by unfold OnMinute hour minute at *; omega) (by omega)
        (exists_hour_branch loc _)
      rwa [nextHourStart_advances_iff, Int.sub_add_cancel] at onward
    · have onward := first_pass_advances advances (u := x - day)
        (by unfold OnMinute day minute at *; omega) (by omega) (exists_day_branch loc _)
      rwa [nextDayStart_advances_iff, Int.sub_add_cancel] at onward
    · have onward := first_pass_advances advances grid from_ (exists_month_branch loc x)
      rwa [nextMonthStart_advances_iff] at onward
  · intro pace expr c _ t from_
    -- All instants visited lie on a minute and not before `s`, so the pace holds there.
    have advances : c.Advances loc t := fun u v visited _ moves =>
      step_advances pace (visited_onMinute (searchStart_onMinute t) visited)
        (visited_from pace (searchStart_onMinute t) from_ visited) moves
    exact ⟨terminates_of_advances c loc t advances, advances⟩

/-- A zone four hours behind UTC that sets its clock back by an hour at 02:00 on
November 1, 2026. -/
def newYork2026 : Location := ⟨-240, [⟨739920 * day + 6 * hour, -300⟩], by decide⟩

def dailyAtThree : CronExpr :=
  ⟨⟨false, [0]⟩, ⟨false, [3]⟩, ⟨true, []⟩, ⟨true, []⟩, ⟨true, []⟩, "0 3 * * *"⟩

/-- At 01:00, an hour before the clock goes back, "0 3 * * *" waits for the next full hour,
which resolves to the same 01:00. -/
theorem nextAfter_stands_still :
    parseCron "0 3 * * *" = .ok dailyAtThree ∧
      ¬ dailyAtThree.Terminates newYork2026 (739920 * day + 5 * hour - minute) ∧
      ¬ dailyAtThree.Advances newYork2026 (739920 * day + 5 * hour - minute) := by
  have start : searchStart (739920 * day + 5 * hour - minute) =
      739920 * day + 5 * hour := by decide
  -- 01:00 plus an hour is the second 01:00, which resolves to the first.
  have stays : dailyAtThree.step newYork2026 (739920 * day + 5 * hour) =
      some (739920 * day + 5 * hour) := by decide
  have inside : withinCap newYork2026 (739920 * day + 5 * hour)
      (739920 * day + 5 * hour) = true := by
    rw [withinCap_iff]
    omega
  refine ⟨by decide, ?_, fun advances => ?_⟩
  · rintro ⟨fuel, r, returned⟩
    have diverges : search (withinCap newYork2026 (739920 * day + 5 * hour))
        (dailyAtThree.step newYork2026) fuel (739920 * day + 5 * hour) = .outOfFuel :=
      search_diverges (fun u => u = 739920 * day + 5 * hour)
        (fun u here => by subst here; exact ⟨inside, _, stays, rfl⟩) fuel _ rfl
    rw [CronExpr.nextAfter, start, diverges] at returned
    cases returned
  · unfold CronExpr.Advances at advances
    rw [start] at advances
    exact absurd (advances _ _ .start inside stays) (lt_irrefl _)

end NovaNas.Scheduler
