import NovaNas.Jobs.Observers
import NovaNas.Jobs.UniqueKeys

/-!
# Verdicts on jobs

What an observer is told once and for all: a state from the row at the time, or a state that
the worker has published. A row that is succeeded, failed or cancelled stays so. An interrupted
row does not if its task is still in the queue, and the worker publishes how the handler ended
whether or not the row took it.
-/
namespace NovaNas.Jobs

open Interleaving (run)

variable {ρ : Type} {lib : Library ρ} {jobs jobs' : State ρ} {a : Action ρ} {job id : Nat}
  {state : JobState}

/-- The committed row of the job is in the state. -/
def State.shows (st : State ρ) (job : Nat) (state : JobState) : Prop :=
  ∃ row, st.rows job = some row ∧ row.state = state

/-! ### Rows -/

theorem shows_terminal (took : Took lib jobs id a jobs') (sound : Sound jobs)
    (shows : jobs.shows job state) (terminal : state.terminal = true) : jobs'.shows job state := by
  obtain ⟨row, visible, rfl⟩ := shows
  exact ⟨row, took.terminal sound visible terminal, rfl⟩

/-- A restart leaves rows in an end state alone. -/
theorem shows_restart (redelivered : Nat → Bool) (err : Option RunError)
    (shows : jobs.shows job state) (terminal : isTerminalJobState state = true) :
    (jobs.restart redelivered err).shows job state := by
  obtain ⟨row, visible, rfl⟩ := shows
  have same : row.interrupt = row := by
    rw [Row.interrupt, if_neg]
    rintro (queued | running)
    · simp [queued, isTerminalJobState] at terminal
    · simp [running, isTerminalJobState] at terminal
  refine ⟨row, ?_, rfl⟩
  simp [State.restart, visible, same]

/-! ### Tasks -/

/-- The conditions on the steps of the worker: no task is taken before its job is committed, nor
again once the job is interrupted or finished; the updates of a handler reach the database. -/
def State.orderly (st : State ρ) : Action ρ → Bool
  | .take id => (st.rows id).any fun row => Fits .unmarked row.state
  | .work id answers => (st.tasks id).aside || answers.table.isNone
  | _ => true

/-- A task in flight carries the id of its job, and a handler has taken its row along. -/
structure Faithful (jobs : State ρ) : Prop where
  sound : Sound jobs
  ids : ∀ id task, (jobs.tasks id).inFlight = some task → task.body.jobID = id
  works : ∀ id task rest, jobs.tasks id = .active task rest → ∃ progress row,
    rest.Follows (protocol id) (fun _ => True) progress ∧ jobs.rows id = some row ∧
      Fits progress row.state

theorem faithful_start : Faithful (start : State ρ) where
  sound := sound_start
  ids _ _ here := by simp [start, TaskState.inFlight] at here
  works _ _ _ here := by simp [start] at here

/-- The step takes the row of its own job along. -/
theorem Faithful.own_step (faithful : Faithful jobs) (took : Took lib jobs id a jobs')
    (orderly : jobs.orderly a = true) {task : Task ρ} {rest : Outside ρ (Option RunError)}
    (here : jobs'.tasks id = .active task rest) : ∃ progress row,
      rest.Follows (protocol id) (fun _ => True) progress ∧ jobs'.rows id = some row ∧
        Fits progress row.state := by
  cases took with
  | inserts | fails => exact faithful.works id task rest here
  | enqueues => simp at here
  | commits at_ =>
    obtain ⟨progress, row, -, visible, -⟩ := faithful.works id task rest here
    -- A row is committed once.
    simp [faithful.sound.committed id (by simp [visible])] at at_
  | @takes task' at_ =>
    obtain ⟨rfl, rfl⟩ : task' = task ∧ _ = rest := by simpa using here
    obtain ⟨row, visible, fits⟩ : ∃ row, jobs.rows id = some row ∧ Fits .unmarked row.state := by
      simpa [State.orderly, Option.any_eq_true] using orderly
    refine ⟨.unmarked, row, ?_, visible, fits⟩
    rw [← faithful.sound.pending_own at_]
    exact (newServeMux_follows lib task'.kind task'.body).mono fun _ _ => trivial
  | @calls answers task' q next at_ =>
    obtain ⟨rfl, rfl⟩ : task' = task ∧ _ = rest := by simpa using here
    obtain ⟨progress, row, ⟨after, allowed, later⟩, visible, fits⟩ := faithful.works id task' _ at_
    obtain ⟨row', visible', fits'⟩ := fits.perform answers visible allowed
      (by simpa [State.orderly, at_, TaskState.aside] using orderly)
    exact ⟨after, row', later _, visible', fits'⟩
  | returns => simp at here
  | @cancels err =>
    obtain ⟨progress, row, follows, visible, fits⟩ :=
      faithful.works id task rest (by simpa using here)
    cases err with
    | none =>
      exact ⟨progress, row.cancel, follows, by simp [State.updateRow_rows, visible], fits.cancel⟩
    | some err => exact ⟨progress, row, follows, visible, fits⟩

theorem Faithful.step (faithful : Faithful jobs) (took : Took lib jobs id a jobs')
    (orderly : jobs.orderly a = true) : Faithful jobs' := by
  refine ⟨faithful.sound.step took, ?_, ?_⟩
  · intro job task here
    by_cases own : job = id
    · subst own
      cases took with
      | inserts | fails | commits | cancels => exact faithful.ids job task (by simpa using here)
      | enqueues =>
        obtain rfl : newTask job _ = task := by simpa [TaskState.inFlight] using here
        rfl
      | @takes task' at_ =>
        obtain rfl : task' = task := by simpa [TaskState.inFlight] using here
        exact faithful.ids job task' (by rw [at_]; rfl)
      | @calls answers task' q next at_ =>
        obtain rfl : task' = task := by simpa [TaskState.inFlight] using here
        exact faithful.ids job task' (by rw [at_]; rfl)
      | returns => simp [TaskState.inFlight] at here
    · rw [(took.other faithful.sound own).2.1] at here
      exact faithful.ids job task here
  · intro job task rest here
    by_cases own : job = id
    · subst own
      exact faithful.own_step took orderly here
    · obtain ⟨-, tasks, rows⟩ := took.other faithful.sound own
      rw [tasks] at here
      rw [rows]
      exact faithful.works job task rest here

/-- What a row shows in the end it goes on showing: no handler is at work on an interrupted row. -/
theorem Faithful.shows_step (faithful : Faithful jobs) (took : Took lib jobs id a jobs')
    (shows : jobs.shows job state) (terminal : isTerminalJobState state = true) :
    jobs'.shows job state := by
  cases state with
  | succeeded | failed | cancelled => exact shows_terminal took faithful.sound shows rfl
  | queued | running => cases terminal
  | interrupted =>
    obtain ⟨row, visible, interrupted⟩ := shows
    by_cases own : job = id
    · subst own
      cases took with
      | commits at_ => simp [faithful.sound.committed job (by simp [visible])] at at_
      | calls at_ =>
        obtain ⟨progress, row', -, visible', fits⟩ := faithful.works job _ _ at_
        cases visible.symm.trans visible'
        rw [interrupted] at fits
        cases progress with
        | unmarked | marked => simp [Fits] at fits
        | finished told =>
          obtain ⟨final, rfl | same⟩ := fits
          · cases final
          · cases same
      | returns => exact ⟨row, by simpa using visible, interrupted⟩
      | cancels =>
        have same : row.cancel = row := by simp [Row.cancel, interrupted]
        exact ⟨row, State.updateRow_fixed same visible, interrupted⟩
      | inserts | fails | enqueues | takes => exact ⟨row, visible, interrupted⟩
    · exact ⟨row, (took.other faithful.sound own).2.2.trans visible, interrupted⟩

theorem Faithful.restart (faithful : Faithful jobs) (redelivered : Nat → Bool)
    (err : Option RunError) : Faithful (jobs.restart redelivered err) := by
  have flight : ∀ id task, ((jobs.restart redelivered err).tasks id).inFlight = some task →
      (jobs.tasks id).inFlight = some task := by
    intro id task here
    simp only [State.restart, TaskState.redeliver] at here
    split at here
    next at_ =>
      split at here
      · rw [at_]
        exact here
      · cases here
    next => exact here
  have inactive : ∀ id task rest, (jobs.restart redelivered err).tasks id ≠ .active task rest := by
    intro id task rest here
    simp only [State.restart, TaskState.redeliver] at here
    split at here
    next => split at here <;> cases here
    next inactive => exact inactive _ _ here
  refine ⟨⟨?_, ?_⟩, ?_, ?_⟩
  · intro id
    cases at_ : (jobs.restart redelivered err).tasks id with
    | pending task => exact faithful.ids id task (flight id task (by rw [at_]; rfl))
    | active task rest => exact absurd at_ (inactive id task rest)
    | absent | returned => trivial
  · intro id visible
    have before : (jobs.rows id).isSome = true := by
      simp only [State.restart] at visible
      split at visible <;> simpa using visible
    simp [State.restart, faithful.sound.committed id before, Dispatching.abort]
  · intro id task here
    exact faithful.ids id task (flight id task here)
  · intro id task rest here
    exact absurd here (inactive id task rest)

/-! ### What observers have been told -/

/-- The states a stream has in its channel, each with its job. -/
def Stream.heard : Stream → List (Nat × JobState)
  | .subscribed job channel | .tailing job channel => channel.map fun state => (job, state)
  | .closed => []

/-- The conditions on the steps: those on the worker, and no stream listens when the handler of a
cancelled job publishes how it ended. -/
def lasting (st : Observed ρ) : Move ρ → Bool
  | .jobs action => st.jobs.orderly action &&
    match st.jobs.publishes action with
    | some (job, _) => !st.streams.any (·.listens job) ||
      (st.jobs.rows job).all (·.state ≠ .cancelled)
    | none => true
  | _ => true

/-- Whatever was told is what the row shows, and so is what is on its way to a stream. -/
structure Settled (st : Observed ρ) : Prop where
  faithful : Faithful st.jobs
  told : ∀ v ∈ st.verdicts, isTerminalJobState v.2 = true ∧ st.jobs.shows v.1 v.2
  heard : ∀ stream ∈ st.streams, ∀ v ∈ stream.heard, v.2.terminal = true ∧ st.jobs.shows v.1 v.2

theorem settled_unobserved : Settled (unobserved : Observed ρ) where
  faithful := faithful_start
  told v member := by simp [unobserved] at member
  heard stream member := by simp [unobserved] at member

section Moves

variable {st st' : Observed ρ}

theorem Settled.tell (settled : Settled st) (shows : st.jobs.shows job state) :
    Settled (st.tell job state) := by
  rw [Observed.tell]
  split
  next terminal =>
    refine ⟨settled.faithful, ?_, settled.heard⟩
    intro v member
    cases member with
    | head => exact ⟨terminal, shows⟩
    | tail _ earlier => exact settled.told v earlier
  next => exact settled

/-- A stream goes on with no more in its channel than before. -/
theorem Settled.setStream (settled : Settled st) {stream : Nat} {next : Stream}
    (fewer : ∀ v ∈ next.heard, v.2.terminal = true ∧ st.jobs.shows v.1 v.2) :
    Settled (st.setStream stream next) := by
  refine ⟨settled.faithful, settled.told, ?_⟩
  intro other member v said
  rcases List.mem_or_eq_of_mem_set member with before | rfl
  · exact settled.heard other before v said
  · exact fewer v said

theorem Settled.channel (settled : Settled st) {index : Nat} {stream : Stream}
    (here : st.streams[index]? = some stream) :
    ∀ v ∈ stream.heard, v.2.terminal = true ∧ st.jobs.shows v.1 v.2 :=
  settled.heard stream (List.mem_of_getElem? here)

theorem Settled.of_jobs (settled : Settled st) (took : Took lib st.jobs id a jobs')
    (orderly : st.jobs.orderly a = true) : Settled { st with jobs := jobs' } := by
  refine ⟨settled.faithful.step took orderly, ?_, ?_⟩
  · intro v member
    obtain ⟨terminal, shows⟩ := settled.told v member
    exact ⟨terminal, settled.faithful.shows_step took shows terminal⟩
  · intro stream member v said
    obtain ⟨terminal, shows⟩ := settled.heard stream member v said
    exact ⟨terminal, shows_terminal took settled.faithful.sound shows terminal⟩

theorem mem_hear {stream : Stream} {v : Nat × JobState}
    (said : v ∈ (stream.hear job state).heard) :
    v ∈ stream.heard ∨ v = (job, state) ∧ stream.listens job = true := by
  cases stream with
  | closed => exact .inl said
  | subscribed own channel | tailing own channel =>
    by_cases same : own = job
    · subst same
      simpa [Stream.hear, Stream.heard, Stream.listens, or_comm, eq_comm] using said
    · exact .inl (by simpa [Stream.hear, Stream.heard, same] using said)

theorem Settled.publish (settled : Settled st) {told : Option (Nat × JobState)}
    (final : ∀ v ∈ told, v.2.terminal = true)
    (row : ∀ v ∈ told, st.streams.any (·.listens v.1) = true → st.jobs.shows v.1 v.2) :
    Settled (st.publish told) := by
  cases told with
  | none => exact settled
  | some v =>
    obtain ⟨job, state⟩ := v
    refine ⟨settled.faithful, settled.told, ?_⟩
    intro stream member v said
    obtain ⟨before, known, rfl⟩ := List.mem_map.mp member
    rcases mem_hear said with earlier | ⟨rfl, listens⟩
    · exact settled.heard before known v earlier
    · exact ⟨final _ rfl, row _ rfl (List.any_eq_true.mpr ⟨before, known, listens⟩)⟩

/-- What a step of the jobs publishes is its handler's next call. -/
theorem publishes_eq {told : Nat × JobState} (published : jobs.publishes a = some told) :
    ∃ id answers task next, a = .work id answers ∧ answers.redis = none ∧
      jobs.tasks id = .active task (.ask (.publish told.1 told.2) next) := by
  cases a with
  | work id answers =>
    simp only [State.publishes] at published
    split at published
    next task job state next at_ =>
      split at published
      next redis =>
        cases published
        exact ⟨id, answers, task, next, rfl, redis, at_⟩
      next => cases published
    next => cases published
  | _ => cases published

/-- What is published is how the row was finished, unless the job was cancelled. -/
theorem Faithful.published (faithful : Faithful jobs) {told : Nat × JobState}
    (published : jobs.publishes a = some told) : told.2.terminal = true ∧
      ∃ row, jobs.rows told.1 = some row ∧ (row.state = told.2 ∨ row.state = .cancelled) := by
  obtain ⟨id, answers, task, next, -, -, at_⟩ := publishes_eq published
  obtain ⟨progress, row, ⟨after, allowed, -⟩, visible, fits⟩ := faithful.works id task _ at_
  obtain ⟨-, same, -⟩ | ⟨-, _, _, _, _, _, -, same, -⟩ | ⟨-, -, told_⟩ := protocol_eq allowed
  · cases same
  · cases same
  · obtain ⟨rfl, rfl⟩ := told_ told rfl
    exact ⟨fits.1, row, visible, fits.2⟩

theorem publish_jobs (st : Observed ρ) (told : Option (Nat × JobState)) :
    (st.publish told).jobs = st.jobs := by
  cases told <;> rfl

theorem Settled.jobs_step (settled : Settled st) (took : step lib st.jobs a = some jobs')
    (last : lasting st (.jobs a) = true) :
    Settled { st.publish (st.jobs.publishes a) with jobs := jobs' } := by
  obtain ⟨orderly, heeded⟩ := Bool.and_eq_true_iff.mp last
  have heard : Settled (st.publish (st.jobs.publishes a)) := by
    apply settled.publish
    · intro told published
      exact (settled.faithful.published published).1
    · intro told published listened
      obtain ⟨-, row, visible, same | cancelled⟩ := settled.faithful.published published
      · exact ⟨row, visible, same⟩
      · rw [published] at heeded
        simp [listened, visible, cancelled] at heeded
  have same := publish_jobs st (st.jobs.publishes a)
  rw [← same] at orderly
  exact heard.of_jobs (same ▸ took_of_step took) orderly

/-- Every move that meets the conditions keeps what observers were told. -/
theorem Settled.step (settled : Settled st) {move : Move ρ} (moved : observe lib st move = some st')
    (last : lasting st move = true) : Settled st' := by
  cases move with
  | jobs action =>
    obtain ⟨jobs', took, rfl⟩ := Option.map_eq_some_iff.mp moved
    exact settled.jobs_step took last
  | restart redelivered err =>
    cases moved
    refine ⟨settled.faithful.restart redelivered err, ?_, ?_⟩
    · intro v member
      obtain ⟨terminal, shows⟩ := settled.told v member
      exact ⟨terminal, shows_restart redelivered err shows terminal⟩
    · intro stream member v said
      obtain ⟨-, -, rfl⟩ := List.mem_map.mp member
      cases said
  | poll job =>
    simp only [observe] at moved
    split at moved
    next row visible =>
      cases moved
      exact settled.tell ⟨row, visible, rfl⟩
    next =>
      cases moved
      exact settled
  | subscribe job =>
    cases moved
    refine ⟨settled.faithful, settled.told, ?_⟩
    intro stream member v said
    rcases List.mem_append.mp member with before | new
    · exact settled.heard stream before v said
    · obtain rfl := List.mem_singleton.mp new
      cases said
  | snapshot index =>
    simp only [observe] at moved
    split at moved
    next job channel here =>
      split at moved
      next =>
        cases moved
        exact settled.setStream (by simp [Stream.heard])
      next row visible =>
        split at moved
        next terminal =>
          cases moved
          exact (settled.tell ⟨row, visible, rfl⟩).setStream (by simp [Stream.heard])
        next =>
          cases moved
          apply settled.setStream
          intro v later
          exact settled.channel here v later
    next => cases moved
  | receive index =>
    simp only [observe] at moved
    split at moved
    next job state channel here =>
      have said := settled.channel here
      split at moved
      next terminal =>
        cases moved
        have shows : st.jobs.shows job state := (said (job, state) (.head _)).2
        exact (settled.tell shows).setStream (by simp [Stream.heard])
      next =>
        cases moved
        apply settled.setStream
        intro v later
        exact said v (.tail _ later)
    next => cases moved
  | disconnect index =>
    cases moved
    exact settled.setStream (by simp [Stream.heard])

end Moves

/-- In any interleaving of dispatches, the worker, cancellations, restarts and observers whose
steps meet the conditions: whatever terminal state a wait or a stream has ended with is the
state of the job's row, from that moment on. -/
theorem verdicts_are_final (lib : Library ρ) (moves : List (Move ρ)) (st : Observed ρ)
    (ran : run (observe lib) unobserved moves = some st)
    (last : Interleaving.Guarded (observe lib) (fun st move => lasting st move = true) unobserved
      moves) :
    ∀ v ∈ st.verdicts, st.jobs.shows v.1 v.2 := by
  have settled : Settled st := Interleaving.run_induction _
    (fun _ _ _ settled last moved => settled.step moved last) settled_unobserved last ran
  intro v told
  exact (settled.told v told).2

/-- A stream and a wait on a job that succeeds. -/
theorem verdicts_are_final_destroy :
    ∃ st, run (observe decodingLibrary) unobserved
        ([.jobs (.insert 1 destroyTank none), .jobs (.enqueue 1 none), .jobs (.commit 1 none),
          .subscribe 1, .snapshot 0] ++ (processed 1 5).map .jobs ++ [.receive 0, .poll 1]) =
        some st ∧
      st.verdicts = [(1, .succeeded), (1, .succeeded)] ∧
      ∀ v ∈ st.verdicts, st.jobs.shows v.1 v.2 :=
  ⟨_, rfl, rfl, verdicts_are_final decodingLibrary
    ([.jobs (.insert 1 destroyTank none), .jobs (.enqueue 1 none), .jobs (.commit 1 none),
      .subscribe 1, .snapshot 0] ++ (processed 1 5).map .jobs ++ [.receive 0, .poll 1]) _ rfl
    (by decide)⟩

/-- A client is told that its job was interrupted, and the task that was still in the queue
brings the job to success. A stream ends with success although the job was cancelled before. -/
theorem verdict_changes :
    (∃ st, run (observe decodingLibrary) unobserved
        ([.jobs (.insert 1 destroyTank none), .jobs (.enqueue 1 none), .jobs (.commit 1 none),
          .restart (fun _ => true) none, .poll 1] ++ (processed 1 5).map .jobs) = some st ∧
      st.verdicts = [(1, .interrupted)] ∧ (st.jobs.rows 1).map (·.state) = some .succeeded) ∧
    ∃ st, run (observe decodingLibrary) unobserved
        ([.jobs (.insert 1 destroyTank none), .jobs (.enqueue 1 none), .jobs (.commit 1 none),
          .subscribe 1, .snapshot 0, .jobs (.cancel 1 none)] ++ (processed 1 5).map .jobs ++
          [.receive 0]) = some st ∧
      st.verdicts = [(1, .succeeded)] ∧ (st.jobs.rows 1).map (·.state) = some .cancelled :=
  ⟨⟨_, rfl, rfl, rfl⟩, _, rfl, rfl, rfl⟩

end NovaNas.Jobs
