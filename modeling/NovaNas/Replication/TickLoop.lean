import NovaNas.Replication.Calls
import NovaNas.Scheduler.MissedFires

/-!
# The tick loop of replication jobs

A tick lists the enabled jobs, looks for a cron minute since a job's `updated_at`, dispatches a
run and marks the job fired. Edits, the end of a run and the mark itself all move `updated_at`,
so a cron minute that passes before one of them and is seen by no tick is lost. One job is
followed, with its row, its place in the queue and the requests that edit it.
-/
namespace NovaNas.Replication.TickLoop

open Clock Interleaving Scheduler

/-- What the queue holds under the job's unique key. -/
inductive Task where
  | absent
  | queued
  /-- The run works on the job as it read it. -/
  | running (copy : Job)
  | ending
  /-- A failed run stays in the queue and keeps its key. -/
  | archived
  deriving DecidableEq, Repr

/-- How a tick ended for the job. -/
inductive Outcome where
  | failed
  | idle
  | dispatched
  /-- The key is taken by a run that is queued or running. -/
  | busy
  /-- The key is taken by a run that has failed. -/
  | blocked
  deriving DecidableEq, Repr

/-- Where the loop is in its tick. -/
inductive Pass where
  | between
  | due (now : Int)
  | marking (now : Int)
  deriving DecidableEq, Repr

structure State where
  job : Job
  updatedAt : Int
  lastFiredAt : Option Int
  task : Task
  /-- PATCH requests that have read the job and not written it back yet. -/
  edits : Nat → Option Job
  pass : Pass
  clock : Int
  /-- All writes of the row so far with schedule and switch, the latest first. -/
  writes : List (Int × String × Bool)
  /-- All ticks so far, the latest first. -/
  ticks : List (Int × Outcome)

inductive Action where
  /-- A tick at `now` reads the row at `at_`. -/
  | list (now at_ : Int) (failed : Bool)
  | dispatch (failed : Bool)
  | markFired (at_ : Int) (failed : Bool)
  /-- An operator asks for a run. -/
  | request
  /-- The worker starts the run, which reads the job. -/
  | take
  /-- A run that succeeded writes the job back. -/
  | writeBack (at_ : Int) (snapshot : String)
  | finish (failed : Bool)
  | edit (call : Nat)
  | patch (call : Nat) (req : JobRequest) (at_ : Int)
  deriving DecidableEq, Repr

/-! ### Steps -/

/-- `UPDATE replication_jobs SET … updated_at = now()` -/
def State.write (st : State) (job : Job) (at_ : Int) : State :=
  { st with
    job
    updatedAt := at_
    clock := at_
    writes := (at_, job.schedule, job.enabled) :: st.writes }

/-- Whether a tick at `now` finds the job due. -/
def State.due (st : State) (now : Int) : Bool :=
  if st.job.enabled ∧ st.job.schedule ≠ "" then
    match parseCron st.job.schedule with
    | .error _ => false
    -- In UTC the search always comes to an end.
    | .ok expr => (expr.shouldFireBetween utc searchFuel st.updatedAt now).getD false
  else false

/-- Ticks come one after the other, and a tick reads the clock before it reads the row. -/
def State.inOrder (st : State) (now at_ : Int) : Prop :=
  st.clock ≤ at_ ∧ now ≤ at_ ∧ ∀ tick ∈ st.ticks, tick.1 ≤ now

instance (st : State) (now at_ : Int) : Decidable (st.inOrder now at_) :=
  inferInstanceAs (Decidable (_ ∧ _ ∧ _))

variable (registered : BackendKind → Bool)

/-- The row an action writes, if it writes it. -/
def State.written (st : State) : Action → Option Job
  | .markFired _ failed => if failed then none else some st.job
  | .writeBack _ snapshot =>
    match st.task with
    | .running copy => writtenBack copy (some snapshot)
    | _ => none
  | .patch call req _ => (st.edits call).bind (accepted registered (some req))
  | _ => none

def step (st : State) : Action → Option State
  | .list now at_ failed =>
    if st.pass = .between ∧ st.inOrder now at_ then
      if failed then some { st with clock := at_, ticks := (now, .failed) :: st.ticks }
      else if st.due now then some { st with clock := at_, pass := .due now }
      else some { st with clock := at_, ticks := (now, .idle) :: st.ticks }
    else none
  | .dispatch failed =>
    match st.pass with
    | .due now =>
      let ended (outcome : Outcome) : State :=
        { st with pass := .between, ticks := (now, outcome) :: st.ticks }
      if failed then some (ended .failed)
      else match st.task with
        | .absent => some { ended .dispatched with pass := .marking now, task := .queued }
        -- A duplicate is passed over in silence, and the job is not marked.
        | .archived => some (ended .blocked)
        | _ => some (ended .busy)
    | _ => none
  | .markFired at_ failed =>
    match st.pass with
    | .marking now =>
      if st.clock ≤ at_ then
        if failed then some { st with pass := .between, clock := at_ }
        else some { st.write st.job at_ with pass := .between, lastFiredAt := some now }
      else none
    | _ => none
  | .request =>
    match st.task with
    | .absent => some { st with task := .queued }
    | _ => some st
  | .take =>
    match st.task with
    | .queued => some { st with task := .running st.job }
    | _ => none
  | .writeBack at_ snapshot =>
    match st.task with
    | .running copy =>
      if st.clock ≤ at_ then
        match writtenBack copy (some snapshot) with
        | some job => some { st.write job at_ with task := .ending }
        | none => some { st with task := .ending, clock := at_ }
      else none
    | _ => none
  | .finish failed =>
    match st.task with
    | .running _ | .ending => some { st with task := if failed then .archived else .absent }
    | _ => none
  | .edit call => some { st with edits := Function.update st.edits call (some st.job) }
  | .patch call req at_ =>
    match st.edits call with
    | some existing =>
      if st.clock ≤ at_ then
        match accepted registered (some req) existing with
        | some job => some { st.write job at_ with edits := Function.update st.edits call none }
        | none => some { st with edits := Function.update st.edits call none, clock := at_ }
      else none
    | none => none

/-- The job as `CreateReplicationJob` leaves it. -/
def created (job : Job) (at_ : Int) : State where
  job
  updatedAt := at_
  lastFiredAt := none
  task := .absent
  edits _ := none
  pass := .between
  clock := at_
  writes := [(at_, job.schedule, job.enabled)]
  ticks := []

/-! ### Cron minutes and the ticks that see them -/

/-- Schedule and switch as they stood at `m`. -/
def State.inForce (st : State) (m : Int) : Option (String × Bool) :=
  (st.writes.find? (·.1 < m)).map (·.2)

/-- A cron minute of the schedule that was in force, with the job enabled. -/
def State.CronMinute (st : State) (m : Int) : Prop :=
  ∃ schedule c, st.inForce m = some (schedule, true) ∧ parseCron schedule = .ok c ∧
    Scheduler.CronMinute c utc m

/-- The first tick at or after each cron minute dispatches the job or meets a run of it. -/
def NothingLost (st : State) : Prop :=
  ∀ later now outcome earlier, st.ticks = later ++ (now, outcome) :: earlier →
    ∀ m, st.CronMinute m → (∀ tick ∈ earlier, tick.1 < m) → m ≤ now →
      outcome = .dispatched ∨ outcome = .busy

/-- A cron minute that no tick has seen yet. -/
def State.Waiting (st : State) (m : Int) : Prop :=
  st.CronMinute m ∧ (∀ tick ∈ st.ticks, tick.1 < m) ∧ ∀ now, st.pass = .due now → now < m

/-- The steps that lose nothing: the row is written only while no cron minute waits for its
tick, and a tick can read the row and dispatch. -/
def Timely (st : State) (a : Action) : Prop :=
  match a with
  | .list _ _ failed => failed = false
  | .dispatch failed => failed = false ∧ st.task ≠ .archived
  | .markFired at_ _ | .writeBack at_ _ | .patch _ _ at_ =>
    st.written registered a ≠ none → ∀ m, st.Waiting m → at_ < m
  | _ => True

/-! ### What a step does -/

/-- Row, ticks and what is due are as before. -/
structure Quiet (st st' : State) : Prop where
  job : st'.job = st.job
  updatedAt : st'.updatedAt = st.updatedAt
  writes : st'.writes = st.writes
  ticks : st'.ticks = st.ticks
  clock : st.clock ≤ st'.clock
  due : ∀ now, st'.pass = .due now ↔ st.pass = .due now

/-- A tick that has reached the job's end. -/
def State.ticked (st : State) (now : Int) (outcome : Outcome) : State :=
  { st with pass := .between, ticks := (now, outcome) :: st.ticks }

/-- What a step does to the row and to the ticks. -/
inductive Took (st : State) (a : Action) (st' : State) : Prop where
  | quiet (same : Quiet st st')
  | wrote (job : Job) (at_ : Int) (timely : Timely registered st a → ∀ m, st.Waiting m → at_ < m)
      (later : st.clock ≤ at_) (same : Quiet (st.write job at_) st')
  | failed (late : ¬ Timely registered st a)
  | passed (now at_ : Int) (idle : st.due now = false) (between : st.pass = .between)
      (later : st.clock ≤ at_) (reached : now ≤ at_)
      (same : Quiet (State.ticked { st with clock := at_ } now .idle) st')
  | found (now at_ : Int) (between : st.pass = .between) (later : st.clock ≤ at_) (reached : now ≤ at_)
      (same : Quiet { st with clock := at_, pass := .due now } st')
  | dispatched {now : Int} {outcome : Outcome} (at_ : st.pass = .due now)
      (runs : Timely registered st a → outcome = .dispatched ∨ outcome = .busy)
      (same : Quiet (st.ticked now outcome) st')

variable {registered} {st st' : State} {a : Action}

theorem quiet_of_clock {edits : Nat → Option Job} {task : Task} {clock : Int}
    (later : st.clock ≤ clock) : Quiet st { st with edits, task, clock } :=
  ⟨rfl, rfl, rfl, rfl, later, fun _ => Iff.rfl⟩

theorem took_of_step (stepped : step registered st a = some st') : Took registered st a st' := by
  cases a with
  | list now at_ failed =>
    simp only [step, Option.ite_none_right_eq_some] at stepped
    obtain ⟨⟨between, later, reached, -⟩, stepped⟩ := stepped
    split at stepped
    next broken => exact .failed (by simp [Timely, broken])
    split at stepped <;> cases stepped
    · exact .found now at_ between later reached (quiet_of_clock le_rfl)
    next idle =>
      exact .passed now at_ (by simpa using idle) between later reached
        ⟨rfl, rfl, rfl, rfl, le_rfl, by simp [State.ticked, between]⟩
  | dispatch failed =>
    simp only [step] at stepped
    split at stepped
    next now due =>
      split at stepped
      next broken =>
        cases stepped
        exact .dispatched due (fun timely => by simp [Timely, broken] at timely)
          (quiet_of_clock le_rfl)
      split at stepped <;> cases stepped
      · exact .dispatched due (fun _ => .inl rfl)
          ⟨rfl, rfl, rfl, rfl, le_rfl, fun _ => by simp [State.ticked]⟩
      next archived =>
        exact .dispatched due (fun timely => absurd archived timely.2) (quiet_of_clock le_rfl)
      · exact .dispatched due (fun _ => .inr rfl) (quiet_of_clock le_rfl)
    next => cases stepped
  | markFired at_ failed =>
    simp only [step] at stepped
    split at stepped
    next now marking =>
      obtain ⟨later, stepped⟩ := Option.ite_none_right_eq_some.mp stepped
      split at stepped <;> cases stepped
      · exact .quiet ⟨rfl, rfl, rfl, rfl, later, by simp [marking]⟩
      next written =>
        exact .wrote st.job at_ (fun timely => timely (by simp [State.written, written]))
          later ⟨rfl, rfl, rfl, rfl, le_rfl, by simp [State.write, marking]⟩
    next => cases stepped
  | request | take | finish =>
    simp only [step] at stepped
    split at stepped <;> cases stepped <;> exact .quiet (quiet_of_clock le_rfl)
  | writeBack at_ snapshot =>
    simp only [step] at stepped
    split at stepped
    next copy running =>
      obtain ⟨later, stepped⟩ := Option.ite_none_right_eq_some.mp stepped
      split at stepped <;> cases stepped
      next job back =>
        exact .wrote job at_ (fun timely => timely (by simp [State.written, running, back]))
          later (quiet_of_clock le_rfl)
      · exact .quiet (quiet_of_clock later)
    next => cases stepped
  | edit call =>
    cases stepped
    exact .quiet (quiet_of_clock le_rfl)
  | patch call req at_ =>
    simp only [step] at stepped
    split at stepped
    next existing editing =>
      obtain ⟨later, stepped⟩ := Option.ite_none_right_eq_some.mp stepped
      split at stepped <;> cases stepped
      next job passes =>
        exact .wrote job at_ (fun timely => timely (by simp [State.written, editing, passes]))
          later (quiet_of_clock le_rfl)
      · exact .quiet (quiet_of_clock later)
    next => cases stepped

/-! ### The invariant -/

/-- The row is its last write, nothing lies in the future, and whatever waits for a tick is
newer than the last write. -/
structure Sound (st : State) : Prop where
  latest : ∃ older, st.writes = (st.updatedAt, st.job.schedule, st.job.enabled) :: older
  positive : 0 < st.updatedAt
  past : st.updatedAt ≤ st.clock
  seen : ∀ tick ∈ st.ticks, tick.1 ≤ st.clock
  begun : ∀ now, st.pass = .due now → now ≤ st.clock
  fresh : ∀ m, st.Waiting m → st.updatedAt < m
  complete : NothingLost st

theorem inForce_write (st : State) (job : Job) {at_ m : Int} (le : m ≤ at_) :
    (st.write job at_).inForce m = st.inForce m := by
  simp [State.inForce, State.write, not_lt.mpr le]

theorem Quiet.cronMinute_iff (same : Quiet st st') (m : Int) :
    st'.CronMinute m ↔ st.CronMinute m := by
  simp only [State.CronMinute, State.inForce, same.writes]

theorem Quiet.waiting_iff (same : Quiet st st') (m : Int) : st'.Waiting m ↔ st.Waiting m := by
  simp only [State.Waiting, same.cronMinute_iff, same.ticks, same.due]

section

variable (sound : Sound st)
include sound

theorem Sound.of_quiet (same : Quiet st st') : Sound st' where
  latest := by simpa only [same.writes, same.updatedAt, same.job] using sound.latest
  positive := same.updatedAt ▸ sound.positive
  past := same.updatedAt ▸ sound.past.trans same.clock
  seen tick member := (sound.seen tick (same.ticks ▸ member)).trans same.clock
  begun now due := (sound.begun now ((same.due now).mp due)).trans same.clock
  fresh m waiting := same.updatedAt ▸ sound.fresh m ((same.waiting_iff m).mp waiting)
  complete later now outcome earlier split m cron :=
    sound.complete later now outcome earlier (same.ticks ▸ split) m ((same.cronMinute_iff m).mp cron)

theorem Sound.advance {at_ : Int} (later : st.clock ≤ at_) :
    Sound { st with clock := at_ } :=
  sound.of_quiet ⟨rfl, rfl, rfl, rfl, later, fun _ => Iff.rfl⟩

/-- A write in time: what was in force up to it stays so, and nothing waited for it. -/
theorem Sound.write {job : Job} {at_ : Int} (later : st.clock ≤ at_)
    (timely : ∀ m, st.Waiting m → at_ < m) : Sound (st.write job at_) where
  latest := ⟨st.writes, rfl⟩
  positive := sound.positive.trans_le (sound.past.trans later)
  past := le_rfl
  seen tick member := (sound.seen tick member).trans later
  begun now due := (sound.begun now due).trans later
  fresh m waiting := by
    by_contra early
    have le : m ≤ at_ := not_lt.mp early
    rw [State.Waiting, State.CronMinute, inForce_write st job le] at waiting
    exact early (timely m waiting)
  complete after now outcome earlier split m cron first upto := by
    -- The tick lies before the write, and so does the minute it saw.
    have listed : (now, outcome) ∈ (st.write job at_).ticks := by simp [split]
    have reached := sound.seen (now, outcome) listed
    rw [State.CronMinute, inForce_write st job (upto.trans (reached.trans later))] at cron
    exact sound.complete after now outcome earlier split m cron first upto

/-- A tick that is over, where its outcome is right for all that waited. -/
theorem Sound.ticked {now : Int} {outcome : Outcome} (reached : now ≤ st.clock)
    (right : ∀ m, st.CronMinute m → (∀ tick ∈ st.ticks, tick.1 < m) → m ≤ now →
      outcome = .dispatched ∨ outcome = .busy)
    (pass : ∀ now', st.pass = .due now' → now' = now) : Sound (st.ticked now outcome) where
  latest := sound.latest
  positive := sound.positive
  past := sound.past
  seen := by
    rintro tick (_ | ⟨_, member⟩)
    · exact reached
    · exact sound.seen tick member
  begun _ due := by cases due
  fresh m waiting := by
    obtain ⟨cron, first, -⟩ := waiting
    obtain ⟨here, first⟩ := List.forall_mem_cons.mp first
    exact sound.fresh m ⟨cron, first, fun now' due => pass now' due ▸ here⟩
  complete later now' outcome' earlier split m cron first upto := by
    cases later with
    | nil =>
      obtain ⟨⟨rfl, rfl⟩, rfl⟩ : (now = now' ∧ outcome = outcome') ∧ st.ticks = earlier := by
        simpa [State.ticked] using split
      exact right m cron first upto
    | cons _ later =>
      have rest : st.ticks = later ++ (now', outcome') :: earlier := by
        simpa [State.ticked] using (List.cons.inj split).2
      exact sound.complete later now' outcome' earlier rest m cron first upto

/-- A tick finds the job due whenever a cron minute waits for it. -/
theorem Sound.due_of_waiting {m now : Int} (waiting : st.Waiting m) (upto : m ≤ now) :
    st.due now = true := by
  have newer := sound.fresh m waiting
  obtain ⟨⟨schedule, c, force, parsed, cron⟩, -⟩ := waiting
  obtain ⟨older, writes⟩ := sound.latest
  -- The last write is older than the minute, so it is what was in force.
  obtain ⟨rfl, enabled⟩ : st.job.schedule = schedule ∧ st.job.enabled = true := by
    simpa [State.inForce, writes, newer] using force
  have named : st.job.schedule ≠ "" := by
    intro blank
    obtain ⟨err, fails⟩ : ∃ err, parseCron "" = .error err := ⟨_, rfl⟩
    rw [blank, fails] at parsed
    cases parsed
  obtain ⟨due, answer, spec⟩ := shouldFireBetween_fixed 0 c sound.positive now le_rfl
  rw [State.due, if_pos ⟨enabled, named⟩, parsed]
  simp only [utc, answer]
  refine spec.mpr ⟨m, ?_, ?_, cron⟩
  · exact (truncate_lt_iff cron.1).mpr newer
  · exact (le_truncate_iff cron.1).mpr upto

theorem Sound.step (took : Took registered st a st') (timely : Timely registered st a) :
    Sound st' := by
  cases took with
  | quiet same => exact sound.of_quiet same
  | wrote job at_ inTime later same => exact (sound.write later (inTime timely)).of_quiet same
  | failed late => exact absurd timely late
  | passed now at_ idle between later reached same =>
    refine (Sound.ticked (sound.advance later) reached (fun m cron first upto => ?_) ?_).of_quiet same
    · -- Had a minute waited for this tick, the job would have been due.
      have waiting : st.Waiting m := ⟨cron, first, by simp [between]⟩
      simp [sound.due_of_waiting waiting upto] at idle
    · simp [between]
  | found now at_ between later reached same =>
    have moved := sound.advance later
    have found : Sound { st with clock := at_, pass := .due now } := by
      refine ⟨moved.latest, moved.positive, moved.past, moved.seen, ?_, fun m waiting => ?_,
        moved.complete⟩
      · rintro now' ⟨⟩
        exact reached
      · exact sound.fresh m ⟨waiting.1, waiting.2.1, by simp [between]⟩
    exact found.of_quiet same
  | dispatched at_ runs same =>
    refine (sound.ticked (sound.begun _ at_) (fun _ _ _ _ => runs timely) ?_).of_quiet same
    intro now' due
    exact Pass.due.inj (due.symm.trans at_)

end

theorem sound_created (job : Job) {at_ : Int} (positive : 0 < at_) : Sound (created job at_) where
  latest := ⟨[], rfl⟩
  positive := positive
  past := le_rfl
  seen := by simp [created]
  begun := by simp [created]
  fresh m waiting := by
    -- A job is not in force before it is created.
    obtain ⟨⟨schedule, c, force, -⟩, -⟩ := waiting
    have born : at_ < m ∧ job.schedule = schedule ∧ job.enabled = true := by
      simpa [State.inForce, created] using force
    exact born.1
  complete := by simp [NothingLost, created]

/-- As long as the row is written only while no cron minute waits for its tick, and ticks can
read and dispatch, no scheduled run is lost. -/
theorem timely_runs_lose_nothing (job : Job) (at_ : Int) (positive : 0 < at_)
    (actions : List Action) (st : State)
    (ran : run (step registered) (created job at_) actions = some st)
    (timely : Guarded (step registered) (Timely registered) (created job at_) actions) :
    NothingLost st := by
  refine (run_induction Sound ?_ (sound_created job positive) timely ran).complete
  intro s a s' sound guarded stepped
  exact sound.step (took_of_step stepped) guarded

/-! ### Writes right after a tick -/

/-- A stricter rule that can be checked: the row is written within the minute of a tick. -/
def Prompt (st : State) : Action → Prop
  | .list _ _ failed => failed = false
  | .dispatch failed => failed = false ∧ st.task ≠ .archived
  | .markFired at_ _ | .writeBack at_ _ | .patch _ _ at_ =>
    ∃ tick ∈ st.ticks, truncate at_ Clock.minute ≤ tick.1
  | _ => True

instance (st : State) : (a : Action) → Decidable (Prompt st a)
  | .list _ _ _ => inferInstanceAs (Decidable (_ = _))
  | .dispatch _ => inferInstanceAs (Decidable (_ ∧ _))
  | .markFired _ _ | .writeBack _ _ | .patch _ _ _ =>
    inferInstanceAs (Decidable (∃ tick ∈ st.ticks, _))
  | .request | .take | .finish _ | .edit _ => inferInstanceAs (Decidable True)

/-- A cron minute that waits lies after the minute of the last tick. -/
theorem timely_of_prompt (st : State) (a : Action) (prompt : Prompt st a) :
    Timely registered st a := by
  have inTime {at_ : Int} (soon : ∃ tick ∈ st.ticks, truncate at_ Clock.minute ≤ tick.1) :
      ∀ m, st.Waiting m → at_ < m := by
    obtain ⟨tick, member, soon⟩ := soon
    rintro m ⟨⟨_, _, -, -, cron⟩, first, -⟩
    exact (truncate_lt_iff cron.1).mp (soon.trans_lt (first tick member))
  cases a with
  | list | dispatch => exact prompt
  | markFired | writeBack | patch => exact fun _ => inTime prompt
  | _ => trivial

def noonJob : Job where
  id := 1
  name := "noon"
  backend := .zfs
  direction := .push
  source := { dataset := "tank/data" }
  destination := { dataset := "backup/data", host := "peer" }
  schedule := "0 12 * * *"
  retention := {}
  enabled := true
  secretRef := ""
  lastSnapshot := ""

/-- So many seconds after noon. -/
def afterNoon (seconds : Int) : Int := noon + seconds * Clock.second

def noonSteps : List Action :=
  [.list (afterNoon 20) (afterNoon 21) false, .dispatch false, .markFired (afterNoon 22) false,
    .take, .writeBack (afterNoon 40) "tank/data@repl-1", .finish false, .edit 1,
    .patch 1 { name := "daily" } (afterNoon 50), .list (afterNoon 80) (afterNoon 81) false]

/-- A run at noon, over before the minute is, and an edit right after it. -/
theorem timely_runs_lose_nothing_at_noon :
    ∃ st, run (step fun _ => true) (created noonJob (afterNoon (-3600))) noonSteps = some st ∧
      NothingLost st ∧ st.ticks = [(afterNoon 80, .idle), (afterNoon 20, .dispatched)] := by
  have ends : (run (step fun _ => true) (created noonJob (afterNoon (-3600))) noonSteps).map
      (·.ticks) = some [(afterNoon 80, .idle), (afterNoon 20, .dispatched)] := by decide +kernel
  have prompt : Guarded (step fun _ => true) Prompt (created noonJob (afterNoon (-3600)))
      noonSteps := by decide +kernel
  obtain ⟨st, ran, ticks⟩ := Option.map_eq_some_iff.mp ends
  exact ⟨st, ran, timely_runs_lose_nothing noonJob _ (by decide) noonSteps st ran
    (prompt.mono timely_of_prompt), ticks⟩

/-- The schedule is in force at noon, and the ticks around noon are two of which the second does not
dispatch. -/
theorem lost_at_noon {st : State} {actions : List Action} {at_ earlier : Int}
    {outcome other : Outcome}
    (ends : (run (step fun _ => true) st actions).map (fun st => (st.inForce noon, st.ticks)) =
      some (some ("0 12 * * *", true), [(at_, outcome), (earlier, other)]))
    (before : earlier < noon) (after : noon ≤ at_)
    (silent : outcome ≠ .dispatched ∧ outcome ≠ .busy) :
    ∃ st', run (step fun _ => true) st actions = some st' ∧ st'.CronMinute noon ∧
      st'.ticks = [(at_, outcome), (earlier, other)] ∧ ¬ NothingLost st' := by
  obtain ⟨st', ran, shown⟩ := Option.map_eq_some_iff.mp ends
  obtain ⟨force, ticks⟩ := Prod.mk.inj shown
  have cron : st'.CronMinute noon := ⟨_, noonDaily, force, by decide, by decide⟩
  refine ⟨st', ran, cron, ticks, fun nothing => ?_⟩
  obtain dispatched | busy := nothing [] at_ outcome _ ticks noon cron (by simpa) after
  · exact silent.1 dispatched
  · exact silent.2 busy

/-- An edit ten seconds after noon, between two ticks half a minute from noon: no tick of the day
finds the job due. And a run that failed the day before: its key blocks the next one. -/
theorem scheduled_run_lost :
    (∃ st, run (step fun _ => true) (created noonJob (afterNoon (-3600)))
        [.list (afterNoon (-30)) (afterNoon (-30)) false, .edit 1,
          .patch 1 { name := "daily" } (afterNoon 10), .list (afterNoon 30) (afterNoon 30) false] =
          some st ∧
      st.CronMinute noon ∧ st.ticks = [(afterNoon 30, .idle), (afterNoon (-30), .idle)] ∧
      ¬ NothingLost st) ∧
    (∃ st, run (step fun _ => true) (created noonJob (afterNoon (-90000)))
        [.list (afterNoon (-86370)) (afterNoon (-86370)) false, .dispatch false,
          .markFired (afterNoon (-86370)) false, .take, .finish true,
          .list (afterNoon 30) (afterNoon 30) false, .dispatch false] = some st ∧
      st.CronMinute noon ∧ st.ticks = [(afterNoon 30, .blocked), (afterNoon (-86370), .dispatched)] ∧
      ¬ NothingLost st) :=
  ⟨lost_at_noon (by decide +kernel) (by decide) (by decide) (by decide),
    lost_at_noon (by decide +kernel) (by decide) (by decide) (by decide)⟩

end NovaNas.Replication.TickLoop
