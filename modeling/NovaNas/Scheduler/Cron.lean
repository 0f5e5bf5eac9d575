import Mathlib.Data.List.Sort
import NovaNas.Base.Clock
import NovaNas.Base.SkipSearch
import NovaNas.Base.Text

/-!
# Cron expressions

The five-field cron parser, the minute-resolution match and the skip-ahead search for the
next fire. A nil location is UTC, so every function takes its location as a value.
-/
namespace NovaNas.Scheduler

open Calendar Clock Text

/-- A parsed field: everything, or a sorted list of the allowed values. -/
structure CronField where
  wildcard : Bool
  values : List Int
  deriving DecidableEq, Repr

structure CronExpr where
  minute : CronField
  hour : CronField
  dom : CronField
  mon : CronField
  dow : CronField
  raw : String
  deriving DecidableEq, Repr

structure FieldRange where
  min : Int
  max : Int
  deriving DecidableEq, Repr

def rngMinute : FieldRange := ⟨0, 59⟩
def rngHour : FieldRange := ⟨0, 23⟩
def rngDom : FieldRange := ⟨1, 31⟩
def rngMon : FieldRange := ⟨1, 12⟩
def rngDow : FieldRange := ⟨0, 6⟩

inductive FieldError where
  | emptyField
  | emptyItem (field : List Char)
  | badStep (step : List Char)
  | badRangeStart (start : List Char)
  | badRangeEnd (stop : List Char)
  | reversed (start stop : Int)
  | badValue (value : List Char)
  | outOfRange (range : FieldRange) (part : List Char)
  deriving DecidableEq, Repr

inductive CronError where
  | fieldCount (got : Nat) (expr : String)
  | field (name : String) (error : FieldError)
  deriving DecidableEq, Repr

/-- `for v := lo; v <= hi; v += step`, whose addition wraps around at 64 bits: a step close
to the largest integer makes the loop count down. -/
def stepValues (hi step : Int) : Nat → Int → List Int
  | 0, _ => []
  | fuel + 1, v => if v ≤ hi then v :: stepValues hi step fuel ((v + step).bmod (2 ^ 64)) else []

theorem bmod_of_fits {x : Int} (lower : -maxInt - 1 ≤ x) (upper : x ≤ maxInt) :
    x.bmod (2 ^ 64) = x := by
  unfold maxInt at *
  rw [Int.bmod_def]
  split <;> omega

theorem bmod_of_wraps {x : Int} (lower : maxInt < x) (upper : x ≤ 2 * maxInt + 1) :
    x.bmod (2 ^ 64) = x - 2 ^ 64 := by
  unfold maxInt at *
  rw [Int.bmod_def]
  split <;> omega

/-- The bounds one list item stands for. -/
def parseBody (r : FieldRange) (body : List Char) : Except FieldError (Int × Int) :=
  if body = ['*'] then .ok (r.min, r.max)
  else
    match cut '-' body with
    | some (start, stop) =>
      match atoi start with
      | none => .error (.badRangeStart start)
      | some a =>
        match atoi stop with
        | none => .error (.badRangeEnd stop)
        | some b => if a > b then .error (.reversed a b) else .ok (a, b)
    | none =>
      match atoi body with
      | none => .error (.badValue body)
      | some n => .ok (n, n)

/-- A list item without its step suffix, and the step. -/
def parseStep (part : List Char) : Except FieldError (List Char × Int) :=
  match cut '/' part with
  | none => .ok (part, 1)
  | some (body, step) =>
    match atoi step with
    | none => .error (.badStep step)
    | some n => if n ≤ 0 then .error (.badStep step) else .ok (body, n)

/-- The values of one list item. -/
def parsePart (s : List Char) (r : FieldRange) (part : List Char) :
    Except FieldError (List Int) := do
  if part = [] then throw (.emptyItem s)
  let (body, step) ← parseStep part
  let (lo, hi) ← parseBody r body
  -- The bounds are checked after the item is read as a whole, whatever its form.
  if lo < r.min || hi > r.max then throw (.outOfRange r part)
  return stepValues hi step 64 lo

def parseField (s : List Char) (r : FieldRange) : Except FieldError CronField := do
  if s = [] then throw .emptyField
  if s = ['*'] then return ⟨true, []⟩
  let parts ← (split ',' s).mapM (parsePart s r)
  -- A list that names every value is not a wildcard.
  return ⟨false, parts.flatten.dedup.insertionSort (· ≤ ·)⟩

def parseCron (expr : String) : Except CronError CronExpr :=
  match fields (trimSpace expr.toList) with
  | [mi, hr, dom, mon, dow] => do
    let mi ← (parseField mi rngMinute).mapError (.field "minute")
    let hr ← (parseField hr rngHour).mapError (.field "hour")
    let dom ← (parseField dom rngDom).mapError (.field "dom")
    let mon ← (parseField mon rngMon).mapError (.field "month")
    let dow ← (parseField dow rngDow).mapError (.field "dow")
    return ⟨mi, hr, dom, mon, dow, expr⟩
  | parts => .error (.fieldCount parts.length expr)

/-- Linear scan of a sorted list. -/
def scan (v : Int) : List Int → Bool
  | [] => false
  | x :: rest => if x = v then true else if x > v then false else scan v rest

def CronField.matches (f : CronField) (v : Int) : Bool := f.wildcard || scan v f.values

/-- Whether the day of a wall clock is allowed: with both day fields restricted either one
suffices, otherwise only the restricted one counts. -/
def CronExpr.dayMatches (c : CronExpr) (wall : Int) : Bool :=
  let dom := c.dom.matches (clockDate wall).day
  let dow := c.dow.matches (clockWeekday wall)
  if c.dom.wildcard && c.dow.wildcard then true
  else if c.dom.wildcard then dow
  else if c.dow.wildcard then dom
  else dom || dow

def CronExpr.matchWall (c : CronExpr) (wall : Int) : Bool :=
  if !c.minute.matches (clockMinute wall) then false
  else if !c.hour.matches (clockHour wall) then false
  else if !c.mon.matches (clockDate wall).month then false
  else c.dayMatches wall

def CronExpr.matchTime (c : CronExpr) (loc : Location) (t : Int) : Bool := c.matchWall (loc.wall t)

/-- The 1st of the next calendar month at 00:00. -/
def nextMonthStart (loc : Location) (t : Int) : Int :=
  loc.date (clockOf (nextMonth (clockDate (loc.wall t))) 0 0)

/-- 24 hours on, snapped back to midnight. -/
def nextDayStart (loc : Location) (t : Int) : Int :=
  loc.date (clockOf (clockDate (loc.wall (t + Clock.day))) 0 0)

/-- One hour on, snapped back to the full hour. -/
def nextHourStart (loc : Location) (t : Int) : Int :=
  let wall := loc.wall (t + Clock.hour)
  loc.date (clockOf (clockDate wall) (clockHour wall) 0)

/-- One pass of the search loop: the next instant to look at, or `none` to return. -/
def CronExpr.step (c : CronExpr) (loc : Location) (t : Int) : Option Int :=
  let wall := loc.wall t
  if !c.mon.matches (clockDate wall).month then some (nextMonthStart loc t)
  else if !c.dayMatches wall then some (nextDayStart loc t)
  else if !c.hour.matches (clockHour wall) then some (nextHourStart loc t)
  else if !c.minute.matches (clockMinute wall) then some (t + Clock.minute)
  else none

/-- The minute after `t`, where the search starts. -/
def searchStart (t : Int) : Int := truncate t Clock.minute + Clock.minute

/-- The search looks at this year and the eight after it. -/
def withinCap (loc : Location) (start t : Int) : Bool :=
  decide (clockYear (loc.wall t) ≤ clockYear (loc.wall start) + 8)

/-- `NextAfter` with at most `fuel` passes of its loop; `none` when they do not suffice.
An exhausted search returns the zero time. -/
def CronExpr.nextAfter (c : CronExpr) (loc : Location) (fuel : Nat) (t : Int) : Option Int :=
  match SkipSearch.search (withinCap loc (searchStart t)) (c.step loc) fuel (searchStart t) with
  | .found r => some r
  | .exhausted => some 0
  | .outOfFuel => none

/-- `ShouldFireBetween`; `prev = 0` is the zero time, which stands for "never fired". -/
def CronExpr.shouldFireBetween (c : CronExpr) (loc : Location) (fuel : Nat) (prev now : Int) :
    Option Bool :=
  let now := truncate now Clock.minute
  if prev = 0 then some (c.matchTime loc now)
  else
    let prev := truncate prev Clock.minute
    -- A clock that has not moved to a later minute fires nothing.
    if ¬ now > prev then some false
    else
      (c.nextAfter loc fuel prev).map fun next => if next = 0 then false else decide (¬ next > now)

end NovaNas.Scheduler
