import NovaNas.Base.Calendar

/-!
# Instants, wall clocks and time zones

An instant is the number of nanoseconds since January 1 of year 1, 00:00:00 UTC, so the
zero time is 0. A zone is a finite list of UTC-offset transitions. The wall clock of an
instant is the instant moved by the offset in force; the way back, `Location.date`,
guesses the offset from the wall clock read as UTC and corrects it by one further
lookup. On a wall clock the zone shows twice, or never, that picks one of the two
offsets around the transition.
-/
namespace NovaNas.Clock

open Calendar

def second : Int := 1000000000
def minute : Int := 60000000000
def hour : Int := 3600000000000
def day : Int := 86400000000000

/-- `t` rounded down to a multiple of `d` since the zero time. -/
def truncate (t : Int) (d : Int) : Int := t - t % d

/-! ### Reading a wall clock

A wall clock is kept as the instant at which UTC shows it. -/

def clockDate (wall : Int) : Date := dateOf (wall / day)
def clockYear (wall : Int) : Int := (clockDate wall).year
def clockHour (wall : Int) : Int := wall / hour % 24
def clockMinute (wall : Int) : Int := wall / minute % 60
def clockWeekday (wall : Int) : Int := weekday (wall / day)

/-- The wall clock that shows `date` at `h`:`mi`. -/
def clockOf (date : Date) (h mi : Int) : Int := dayNumber date * day + h * hour + mi * minute

theorem clockOf_midnight (wall : Int) : clockOf (clockDate wall) 0 0 = wall / day * day := by
  simp [clockOf, clockDate, dayNumber_dateOf]

theorem clockOf_hour (wall : Int) :
    clockOf (clockDate wall) (clockHour wall) 0 = wall / hour * hour := by
  simp only [clockOf, clockDate, dayNumber_dateOf, clockHour, hour, day, minute]
  omega

/-! ### Zones -/

structure Transition where
  start : Int
  /-- Minutes east of UTC from `start` on. -/
  offset : Int
  deriving DecidableEq, Repr

structure Location where
  /-- Minutes east of UTC before the first transition. -/
  first : Int
  transitions : List Transition
  sorted : transitions.Pairwise (fun a b => a.start < b.start)

/-- An offset with the stretch of time it is in force; `none` is unbounded. -/
structure Span where
  offset : Int
  start : Option Int
  stop : Option Int
  deriving DecidableEq, Repr

def Span.contains (span : Span) (t : Int) : Bool :=
  span.start.all (· ≤ t) && span.stop.all (t < ·)

def lookupFrom (offset : Int) (start : Option Int) : List Transition → Int → Span
  | [], _ => ⟨offset, start, none⟩
  | next :: rest, t =>
    if t < next.start then ⟨offset, start, some next.start⟩
    else lookupFrom next.offset (some next.start) rest t

def Location.lookup (loc : Location) (t : Int) : Span :=
  lookupFrom loc.first none loc.transitions t

/-- The offset in force at `t`, as a length of time. -/
def Location.offsetAt (loc : Location) (t : Int) : Int := (loc.lookup t).offset * minute

/-- The wall clock `loc` shows at `t`. -/
def Location.wall (loc : Location) (t : Int) : Int := t + loc.offsetAt t

/-- The instant at which `loc` shows `wall`. -/
def Location.date (loc : Location) (wall : Int) : Int :=
  let span := loc.lookup wall
  if span.offset = 0 then wall
  else
    let utc := wall - span.offset * minute
    -- Outside the stretch the guess came from, the offset in force there is the right one.
    if span.contains utc then utc else wall - (loc.lookup utc).offset * minute

def fixedZone (offset : Int) : Location := ⟨offset, [], .nil⟩

def utc : Location := fixedZone 0

private theorem lookupFrom_start_le (offset : Int) (start : Option Int)
    (transitions : List Transition) (t bound : Int)
    (lower : ∀ tr ∈ transitions, bound ≤ tr.start) (from_ : ∀ s ∈ start, bound ≤ s)
    (some_ : start.isSome) :
    ∃ s, (lookupFrom offset start transitions t).start = some s ∧ bound ≤ s := by
  induction transitions generalizing offset start with
  | nil =>
    obtain ⟨s, rfl⟩ := Option.isSome_iff_exists.mp some_
    exact ⟨s, rfl, from_ s rfl⟩
  | cons next rest ih =>
    simp only [lookupFrom]
    split
    · obtain ⟨s, rfl⟩ := Option.isSome_iff_exists.mp some_
      exact ⟨s, rfl, from_ s rfl⟩
    · exact ih next.offset (some next.start) (fun tr h => lower tr (by simp [h]))
        (fun s h => by cases h; exact lower next (by simp)) rfl

private theorem lookupFrom_eq_of_contains (offset : Int) (start : Option Int)
    (transitions : List Transition) (sorted : transitions.Pairwise (fun a b => a.start < b.start))
    (t u : Int) (inside : (lookupFrom offset start transitions t).contains u) :
    lookupFrom offset start transitions u = lookupFrom offset start transitions t := by
  induction transitions generalizing offset start with
  | nil => rfl
  | cons next rest ih =>
    obtain ⟨later, sorted⟩ := List.pairwise_cons.mp sorted
    -- `u` lies in the stretch of `t`, so both are on the same side of the next transition.
    by_cases before : t < next.start
    · simp only [lookupFrom, if_pos before] at inside ⊢
      have bound : u < next.start := by
        simp only [Span.contains, Option.all_some, Bool.and_eq_true, decide_eq_true_eq] at inside
        exact inside.2
      rw [if_pos bound]
    · simp only [lookupFrom, if_neg before] at inside ⊢
      -- The stretch found starts at this transition or later, and `u` lies in it.
      obtain ⟨s, eq, le⟩ := lookupFrom_start_le next.offset (some next.start) rest t next.start
        (fun tr h => (later tr h).le) (fun s h => by cases h; exact le_rfl) rfl
      have reached : ¬ u < next.start := by
        simp only [Span.contains, eq, Option.all_some, Bool.and_eq_true,
          decide_eq_true_eq] at inside
        omega
      rw [if_neg reached]
      exact ih next.offset (some next.start) sorted inside

/-- The resolution of a wall clock in terms of offsets alone. -/
theorem Location.date_eq (loc : Location) (wall : Int) :
    loc.date wall = wall - loc.offsetAt (wall - loc.offsetAt wall) := by
  simp only [Location.date, Location.offsetAt]
  split
  next zero => simp [zero]
  next shifted =>
    split
    next inside =>
      rw [show loc.lookup (wall - (loc.lookup wall).offset * minute) = loc.lookup wall from
        lookupFrom_eq_of_contains _ _ _ loc.sorted _ _ inside]
    next outside => rfl

@[simp] theorem wall_fixedZone (offset : Int) (t : Int) :
    (fixedZone offset).wall t = t + offset * minute := rfl

@[simp] theorem date_fixedZone (offset : Int) (wall : Int) :
    (fixedZone offset).date wall = wall - offset * minute := by
  rw [Location.date_eq]
  rfl

/-- A zone has finitely many offsets, so they are bounded. -/
theorem Location.offset_bounded (loc : Location) :
    ∃ bound : Int, ∀ t, -bound ≤ loc.offsetAt t ∧ loc.offsetAt t ≤ bound := by
  -- Induction on the transitions; the bound does not depend on where the search starts.
  have general : ∀ (transitions : List Transition) (offset : Int) (start : Option Int),
      ∃ bound : Int, ∀ t, |(lookupFrom offset start transitions t).offset| ≤ bound := by
    intro transitions
    induction transitions with
    | nil => exact fun offset start => ⟨|offset|, fun t => le_rfl⟩
    | cons next rest ih =>
      intro offset start
      obtain ⟨bound, bounded⟩ := ih next.offset (some next.start)
      refine ⟨max |offset| bound, fun t => ?_⟩
      simp only [lookupFrom]
      split
      · exact le_max_left _ _
      · exact (bounded t).trans (le_max_right _ _)
  obtain ⟨bound, bounded⟩ := general loc.transitions loc.first none
  refine ⟨bound * minute, fun t => ?_⟩
  have le := abs_le.mp (bounded t)
  unfold Location.offsetAt Location.lookup minute
  omega

end NovaNas.Clock
