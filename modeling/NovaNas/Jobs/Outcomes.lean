import NovaNas.Jobs.Queue

/-!
# What becomes of a job

A job whose row is committed before its handler marks it ends in a terminal state, and stays
there. A job cancelled while queued is still performed whenever its task has a host operation
ahead, since handlers do not look at what `markRunning` answers.
-/
namespace NovaNas.Jobs

open Interleaving (run run_invariant)

variable {ρ : Type} {lib : Library ρ} {st st' : State ρ} {a : Action ρ} {job id : Nat}

/-! ### Terminal rows stay -/

theorem State.updateRow_fixed {change : Row → Row} {err : Option RunError} {row : Row}
    (fixed : change row = row) (visible : st.rows id = some row) :
    (st.updateRow job change err).rows id = some row := by
  rw [updateRow_rows, visible]
  split <;> simp [fixed]

theorem Took.terminal (took : Took lib st job a st') (sound : Sound st) {row : Row}
    (visible : st.rows id = some row) (terminal : row.state.terminal = true) :
    st'.rows id = some row := by
  have marked : row.markRunning = row := by
    rw [Row.markRunning, if_neg (by rintro (h | h) <;> simp [h, JobState.terminal] at terminal)]
  have cancelled : row.cancel = row := by
    rw [Row.cancel, if_neg (by rintro (h | h) <;> simp [h, JobState.terminal] at terminal)]
  have finished : ∀ state stdout stderr exitCode error,
      row.markFinished state stdout stderr exitCode error = row := by
    intros
    rw [Row.markFinished, if_neg (by intro h; simp [h, JobState.terminal] at terminal)]
  cases took with
  | commits at_ =>
    -- A row is committed once.
    have other : id ≠ job := by
      rintro rfl
      simp [sound.committed id (by simp [visible])] at at_
    simpa [other] using visible
  | @calls answers task q =>
    cases q with
    | markJobRunning => exact State.updateRow_fixed marked visible
    | markJobFinished => exact State.updateRow_fixed (finished ..) visible
    | _ => exact visible
  | returns => simpa using visible
  | cancels => exact State.updateRow_fixed cancelled visible
  | _ => exact visible

/-! ### Jobs that end -/

def Closes (lib : Library ρ) (kind : Kind) (payload : ρ) : Prop :=
  kind ≠ .replicationRun ∧ decodes lib kind payload = true

instance (kind : Kind) (payload : ρ) : Decidable (Closes lib kind payload) :=
  inferInstanceAs (Decidable (_ ∧ _))

/-- The handler has not got to `markRunning`. -/
def TaskState.unmarked : TaskState ρ → Bool
  | .pending _ => true
  | .active _ (.ask (.markJobRunning _) _) => true
  | _ => false

/-- The handler's next call does not update the jobs table. -/
def TaskState.aside : TaskState ρ → Bool
  | .active _ (.ask q _) => q.row.isNone
  | _ => true

/-- The conditions on the steps of a job: it is of a kind that marks its row and its payload
decodes; it is committed before the handler marks it; the updates of the handler reach the
database. -/
def Closing (lib : Library ρ) (id : Nat) (st : State ρ) : Action ρ → Prop
  | .insert job input none => job = id → Closes lib input.kind input.payload
  | .commit job none => job = id → (st.tasks id).unmarked = true
  | .work job answers => job = id → (st.tasks id).aside = true ∨ answers.table = none
  | _ => True

instance (a : Action ρ) : Decidable (Closing lib id st a) := by
  unfold Closing
  split <;> infer_instance

/-- The task of job `id` is this far. -/
def Follower (lib : Library ρ) (id : Nat) (progress : Progress) : TaskState ρ → Prop
  | .absent => False
  | .pending task =>
    progress = .unmarked ∧ task.body.jobID = id ∧ Closes lib task.kind task.body.payload
  | .active _ rest => rest.Follows (protocol id) (·.ended = true) progress
  | .returned _ => progress.ended = true

/-- The state of a row whose handler is this far, cancelled or not. -/
def Fits : Progress → JobState → Prop
  -- Marked running before, if the task is delivered again.
  | .unmarked, state => state = .queued ∨ state = .running ∨ state = .cancelled
  | .marked, state => state = .running ∨ state = .cancelled
  | .finished told, state => told.terminal = true ∧ (state = told ∨ state = .cancelled)

instance decidableFits (progress : Progress) (state : JobState) :
    Decidable (Fits progress state) := by
  unfold Fits
  split <;> infer_instance

variable {progress : Progress}

theorem Fits.terminal {state : JobState} (fits : Fits progress state)
    (ended : progress.ended = true) : state.terminal = true := by
  cases progress with
  | unmarked | marked => cases ended
  | finished told =>
    obtain ⟨terminal, rfl | rfl⟩ := fits
    · exact terminal
    · rfl

inductive Tracked (lib : Library ρ) (id : Nat) (st : State ρ) : Prop where
  | idle (at_ : st.dispatches id = .idle)
  | inserted {input} (at_ : st.dispatches id = .inserted input)
      (closes : Closes lib input.kind input.payload)
  | enqueued {input progress} (at_ : st.dispatches id = .enqueued input)
      (task : Follower lib id progress (st.tasks id))
  | failed {err} (at_ : st.dispatches id = .returned (some err))
  | committed {row progress} (at_ : st.dispatches id = .returned none)
      (visible : st.rows id = some row) (task : Follower lib id progress (st.tasks id))
      (fits : Fits progress row.state)

/-- A call of a handler that keeps to the protocol takes a fitting row along. -/
theorem Fits.perform {row : Row} {after : Progress} {q : Call ρ} (answers : Answers)
    (fits : Fits progress row.state) (visible : st.rows id = some row)
    (allowed : protocol id progress q = some after)
    (reached : q.row = none ∨ answers.table = none) :
    ∃ row', (st.perform id answers q).rows id = some row' ∧ Fits after row'.state := by
  obtain ⟨rfl, rfl, rfl⟩ | ⟨rfl, state, _, _, _, _, terminal, rfl, rfl⟩ | ⟨aside, rfl, -⟩ :=
    protocol_eq allowed
  · have table := reached.resolve_left (by simp [Call.row])
    refine ⟨row.markRunning, by simp [State.perform, State.updateRow_rows, table, visible], ?_⟩
    rcases fits with state | state | state <;> simp [Row.markRunning, state, Fits]
  · have table := reached.resolve_left (by simp [Call.row])
    refine ⟨_, by simp [State.perform, State.updateRow_rows, table, visible]; rfl, terminal, ?_⟩
    -- Cancelled in the meantime, the row keeps that state.
    rcases fits with running | cancelled
    · simp [Row.markFinished, running]
    · simp [Row.markFinished, cancelled]
  · exact ⟨row, by rw [State.perform_rows_other _ _ _ (by simp [aside]), visible], fits⟩

theorem Fits.cancel {row : Row} (fits : Fits progress row.state) :
    Fits progress row.cancel.state := by
  unfold Row.cancel
  split
  next unfinished =>
    cases progress with
    | unmarked => exact .inr (.inr rfl)
    | marked => exact .inr rfl
    | finished told => exact ⟨fits.1, .inr rfl⟩
  next => exact fits

theorem Follower.unmarked_eq {task : TaskState ρ} (follower : Follower lib id progress task)
    (unmarked : task.unmarked = true) :
    progress = .unmarked := by
  unfold TaskState.unmarked at unmarked
  split at unmarked
  · exact follower.1
  · obtain ⟨after, allowed, -⟩ := follower
    -- The next call is `markRunning`, which the protocol allows at its beginning only.
    obtain ⟨rfl, -⟩ | ⟨-, _, _, _, _, _, -, equal, -⟩ | ⟨aside, -⟩ := protocol_eq allowed
    · rfl
    · cases equal
    · cases aside
  · cases unmarked

section

variable (tracked : Tracked lib id st)
include tracked

/-- The dispatch stands still while the task goes on and takes the row along. -/
theorem Tracked.moves (same : st'.dispatches id = st.dispatches id)
    (moves : ∀ progress, Follower lib id progress (st.tasks id) →
      ∃ after, Follower lib id after (st'.tasks id) ∧
        ∀ row, st.rows id = some row → Fits progress row.state →
          ∃ row', st'.rows id = some row' ∧ Fits after row'.state) : Tracked lib id st' := by
  cases tracked with
  | idle at_ => exact .idle (same.trans at_)
  | inserted at_ closes => exact .inserted (same.trans at_) closes
  | enqueued at_ task =>
    obtain ⟨after, follower, -⟩ := moves _ task
    exact .enqueued (same.trans at_) follower
  | failed at_ => exact .failed (same.trans at_)
  | committed at_ visible task fits =>
    obtain ⟨after, follower, rows⟩ := moves _ task
    obtain ⟨row', visible', fits'⟩ := rows _ visible fits
    exact .committed (same.trans at_) visible' follower fits'

theorem Tracked.closes_of_inserted {input : DispatchInput ρ}
    (at_ : st.dispatches id = .inserted input) : Closes lib input.kind input.payload := by
  cases tracked with
  | inserted known closes =>
    cases at_.symm.trans known
    exact closes
  | idle known | enqueued known | failed known | committed known => cases at_.symm.trans known

theorem Tracked.follower_of_enqueued {input : DispatchInput ρ}
    (at_ : st.dispatches id = .enqueued input) :
    ∃ progress, Follower lib id progress (st.tasks id) := by
  cases tracked with
  | enqueued known task => exact ⟨_, task⟩
  | idle known | inserted known | failed known | committed known => cases at_.symm.trans known

theorem Tracked.dispatch_step (took : Took lib st id a st') (closing : Closing lib id st a) :
    Tracked lib id st' := by
  cases took with
  | inserts => exact .inserted (Function.update_self ..) (closing rfl)
  | fails => exact .failed (Function.update_self ..)
  | @enqueues input _ at_ =>
    have task : Follower lib id .unmarked (.pending (newTask id input)) :=
      ⟨rfl, rfl, tracked.closes_of_inserted at_⟩
    exact .enqueued (Function.update_self ..) (by simpa using task)
  | commits at_ =>
    obtain ⟨progress, task⟩ := tracked.follower_of_enqueued at_
    -- This is where the commit has to come before `markRunning`.
    obtain rfl := task.unmarked_eq (closing rfl)
    exact .committed (Function.update_self ..) (Function.update_self ..) task (.inl rfl)
  | takes at_ =>
    refine tracked.moves rfl fun progress task => ⟨progress, ?_, fun row visible fits =>
      ⟨row, visible, fits⟩⟩
    rw [at_] at task
    obtain ⟨rfl, rfl, other, decoded⟩ := task
    simp only [State.setTask, Function.update_self]
    exact (newServeMux_follows lib _ _).mono fun _ ends => ends other decoded
  | calls at_ =>
    refine tracked.moves (by simp) fun progress task => ?_
    rw [at_] at task
    obtain ⟨after, allowed, follows⟩ := task
    refine ⟨after, ?_, fun row visible fits => ?_⟩
    · simp only [State.setTask, Function.update_self]
      exact follows _
    · exact fits.perform _ visible allowed (by simpa [at_, TaskState.aside] using closing rfl)
  | returns at_ =>
    refine tracked.moves (by simp) fun progress task => ⟨progress, ?_, fun row visible fits =>
      ⟨row, by simpa using visible, fits⟩⟩
    rw [at_] at task
    simp only [State.setTask, Function.update_self]
    exact task
  | @cancels err =>
    refine tracked.moves (by simp) fun progress task => ⟨progress, by simpa using task, ?_⟩
    intro row visible fits
    cases err with
    | none => exact ⟨row.cancel, by simp [State.updateRow_rows, visible], fits.cancel⟩
    | some err => exact ⟨row, visible, fits⟩

/-- Where the steps of the job meet the conditions, every step keeps it on its way. -/
theorem Tracked.step (sound : Sound st) (took : Took lib st job a st')
    (closing : Closing lib id st a) : Tracked lib id st' := by
  by_cases own : id = job
  · subst own
    exact tracked.dispatch_step took closing
  · obtain ⟨dispatch, task, row⟩ := took.other sound own
    refine tracked.moves dispatch fun progress follower => ⟨progress, task ▸ follower, ?_⟩
    exact fun found visible fits => ⟨found, row.trans visible, fits⟩

theorem Tracked.terminal {err : Option RunError} (committed : st.dispatches id = .returned none)
    (returned : st.tasks id = .returned err) :
    ∃ row, st.rows id = some row ∧ row.state.terminal = true := by
  cases tracked with
  | idle known | inserted known | enqueued known | failed known =>
    cases committed.symm.trans known
  | committed known visible task fits =>
    rw [returned] at task
    exact ⟨_, visible, fits.terminal task⟩

end

theorem sound_of_run {actions : List (Action ρ)}
    (ran : run (step lib) start actions = some st) : Sound st :=
  run_invariant _ (fun _ _ _ sound took => sound.step (took_of_step took))
    sound_start ran

/-- In any interleaving of dispatches, the worker and cancellations, whatever the host and the
database answer: a job whose steps meet the conditions has a terminal row once its dispatch
has committed and its handler has returned, and no terminal row is ever written again. -/
theorem dispatched_rows_end_terminal (lib : Library ρ) (actions : List (Action ρ)) (st : State ρ)
    (ran : run (step lib) start actions = some st) (id : Nat) :
    (Interleaving.Guarded (step lib) (Closing lib id) start actions →
      st.dispatches id = .returned none → ∀ err, st.tasks id = .returned err →
        ∃ row, st.rows id = some row ∧ row.state.terminal = true) ∧
    ∀ row, st.rows id = some row → row.state.terminal = true →
      ∀ later st', run (step lib) st later = some st' → st'.rows id = some row := by
  refine ⟨fun closing committed err returned => ?_, fun row visible terminal later st' ran' => ?_⟩
  · have inv := Interleaving.run_induction (fun st => Sound st ∧ Tracked lib id st)
      (fun _ _ _ inv closing took =>
        ⟨inv.1.step (took_of_step took), inv.2.step inv.1 (took_of_step took) closing⟩)
      ⟨sound_start, .idle rfl⟩ closing ran
    exact inv.2.terminal committed returned
  · have inv := run_invariant (fun st => Sound st ∧ st.rows id = some row)
      (fun _ _ _ inv took =>
        ⟨inv.1.step (took_of_step took), (took_of_step took).terminal inv.1 inv.2 terminal⟩)
      ⟨sound_of_run ran, visible⟩ ran'
    exact inv.2

/-- Every payload decodes. -/
def decodingLibrary : Library Unit where
  poolTrim _ := .ok { name := "tank", action := "pause", disk := "" }
  nvmeofSaveConfig _ := .ok { path := "" }
  schedSnapshotFire _ := .ok { scheduleID := 1 }
  schedReplicationFire _ := .ok { scheduleID := 1 }
  protocolShareDelete _ := .ok { name := "media", pool := "", datasetName := "" }
  replicationRun _ := .ok { jobID := 7 }
  other _ := .ok
  quote text := "\"" ++ text ++ "\""
  zone := Clock.utc
  wired := true

def destroyTank : DispatchInput Unit where
  kind := .poolDestroy
  target := "tank"
  payload := ()
  command := "zpool destroy tank"
  requestID := "req-1"
  uniqueKey := "pool:tank:destroy"

def runReplication : DispatchInput Unit where
  kind := .replicationRun
  target := "7"
  payload := ()
  command := "replication.run 7"
  requestID := "req-2"
  uniqueKey := "replication:job:7"

/-- The handler takes the task and makes its next calls, all of which succeed. -/
def processed (id calls : Nat) : List (Action Unit) :=
  .take id :: List.replicate calls (.work id {})

/-- Dispatched, processed, and only then cancelled. -/
theorem dispatched_rows_end_terminal_destroy :
    ∃ st, run (step decodingLibrary) start
        ([.insert 1 destroyTank none, .enqueue 1 none, .commit 1 none] ++ processed 1 5 ++
          [.cancel 1 none]) = some st ∧
      (st.rows 1).map (·.state) = some .succeeded ∧
      ∃ row, st.rows 1 = some row ∧ row.state.terminal = true :=
  ⟨_, rfl, rfl, (dispatched_rows_end_terminal decodingLibrary
    ([.insert 1 destroyTank none, .enqueue 1 none, .commit 1 none] ++ processed 1 5 ++
      [.cancel 1 none]) _ rfl 1).1 (by decide) rfl none rfl⟩

/-- A worker that is done before the commit leaves the row queued; so does a replication run,
whenever it is taken. -/
theorem rows_left_queued :
    (∃ st, run (step decodingLibrary) start
        ([.insert 1 destroyTank none, .enqueue 1 none] ++ processed 1 5 ++ [.commit 1 none]) =
          some st ∧
      st.dispatches 1 = .returned none ∧ st.tasks 1 = .returned none ∧
      (st.rows 1).map (·.state) = some .queued) ∧
    ∃ st, run (step decodingLibrary) start
        ([.insert 2 runReplication none, .enqueue 2 none, .commit 2 none] ++ processed 2 2) =
          some st ∧
      st.dispatches 2 = .returned none ∧ st.tasks 2 = .returned none ∧
      (st.rows 2).map (·.state) = some .queued :=
  ⟨⟨_, rfl, rfl, rfl, rfl⟩, _, rfl, rfl, rfl, rfl⟩

/-! ### Cancelled jobs -/

/-- The host operations performed for a job, newest first. -/
def State.performed (st : State ρ) (id : Nat) : List (HostOp ρ) :=
  st.operations.filterMap fun (job, op) => if job = id then some op else none

/-- Some answers make the rest of the task perform a host operation. -/
def TaskState.operates (lib : Library ρ) : TaskState ρ → Prop
  | .pending task => Jobs.operates lib task.kind task.body.payload = true
  | .active _ rest => rest.Ever (·.isHost)
  | _ => False

theorem State.perform_operations (st : State ρ) (job : Nat) (answers : Answers) {q : Call ρ}
    (aside : q.isHost = false) : (st.perform job answers q).operations = st.operations := by
  cases q with
  | host op => cases aside
  | _ => simp [perform]

theorem Took.performed_other (took : Took lib st job a st') (other : id ≠ job) :
    st'.performed id = st.performed id := by
  unfold State.performed
  cases took with
  | @calls answers task q =>
    cases q with
    | host op => simp [State.perform, other.symm]
    | _ => simp [State.perform]
  | _ => simp

/-- The dispatch is over and the task has no host operation ahead. -/
structure Spent (lib : Library ρ) (id : Nat) (ops : List (HostOp ρ)) (st : State ρ) : Prop where
  sound : Sound st
  dispatched : st.dispatches id = .returned none
  idle : ¬ (st.tasks id).operates lib
  performed : st.performed id = ops

theorem Spent.own_step {ops : List (HostOp ρ)} (spent : Spent lib id ops st)
    (took : Took lib st id a st') : st'.dispatches id = .returned none ∧
      ¬ (st'.tasks id).operates lib ∧ st'.performed id = ops := by
  obtain ⟨-, dispatched, idle, performed⟩ := spent
  cases took with
  | inserts at_ | enqueues at_ | commits at_ => cases at_.symm.trans dispatched
  | fails at_ => exact absurd dispatched (at_ none)
  | takes at_ =>
    rw [at_] at idle
    exact ⟨dispatched, by simpa [TaskState.operates, newServeMux_ever] using idle, performed⟩
  | @calls answers task q next at_ =>
    rw [at_, TaskState.operates, Program.Ever, not_or, not_exists] at idle
    have operations := st.perform_operations id answers (Bool.eq_false_iff.mpr idle.1)
    refine ⟨by simpa using dispatched, by simpa [TaskState.operates] using idle.2 _, ?_⟩
    simpa [State.performed, operations] using performed
  | returns =>
    exact ⟨by simpa using dispatched, by simp [TaskState.operates],
      by simpa [State.performed] using performed⟩
  | cancels =>
    exact ⟨by simpa using dispatched, by simpa using idle,
      by simpa [State.performed] using performed⟩

theorem Spent.step {ops : List (HostOp ρ)} (spent : Spent lib id ops st)
    (took : Took lib st job a st') : Spent lib id ops st' := by
  have sound := spent.sound.step took
  by_cases own : id = job
  · subst own
    obtain ⟨dispatched, idle, performed⟩ := spent.own_step took
    exact ⟨sound, dispatched, idle, performed⟩
  · obtain ⟨dispatch, task, -⟩ := took.other spent.sound own
    exact ⟨sound, dispatch.trans spent.dispatched, task ▸ spent.idle,
      (took.performed_other own).trans spent.performed⟩

theorem Answers.exists_to (q : Call ρ) (answer : q.Answer) :
    ∃ answers : Answers, answers.to q = answer := by
  cases q with
  | markJobRunning | markJobFinished => exact ⟨{ table := answer }, rfl⟩
  | publish => exact ⟨{ redis := answer }, rfl⟩
  | getSnapshotSchedule => exact ⟨{ snapshotSchedule := answer }, rfl⟩
  | getReplicationSchedule => exact ⟨{ replicationSchedule := answer }, rfl⟩
  | now => exact ⟨{ now := answer }, rfl⟩
  | host => exact ⟨{ host := answer }, rfl⟩

/-- With the right answers, a handler that can come to a host operation does. -/
theorem exists_run_performs {task : Task ρ} {rest : Outside ρ (Option RunError)}
    (ever : rest.Ever (·.isHost)) (at_ : st.tasks id = .active task rest) :
    ∃ later st', run (step lib) st later = some st' ∧
      (st.performed id).length < (st'.performed id).length := by
  -- On the calls the handler has left to make.
  induction rest generalizing st with
  | ret err => cases ever
  | ask q next ih =>
    cases isHost : q.isHost with
    | true =>
      cases q with
      | host op =>
        refine ⟨[.work id {}], _, by simp [run, step, at_]; rfl, ?_⟩
        simp [State.performed, State.perform]
      | _ => cases isHost
    | false =>
      obtain ⟨answer, ever⟩ := ever.resolve_left (by simp [isHost])
      -- Answer so that the operation stays reachable.
      obtain ⟨answers, rfl⟩ := Answers.exists_to q answer
      have moved : ((st.perform id answers q).setTask id
          (.active task (next (answers.to q)))).tasks id = .active task (next (answers.to q)) := by
        simp
      obtain ⟨later, st', ran, longer⟩ := ih (answers.to q) ever moved
      refine ⟨.work id answers :: later, st', by simpa [run, step, at_] using ran, ?_⟩
      simpa [State.performed, st.perform_operations id answers isHost] using longer

theorem exists_run_of_operates (operates : (st.tasks id).operates lib) :
    ∃ later st', run (step lib) st later = some st' ∧
      (st.performed id).length < (st'.performed id).length := by
  cases at_ : st.tasks id with
  | absent | returned =>
    rw [at_] at operates
    cases operates
  | active task rest =>
    rw [at_] at operates
    exact exists_run_performs operates at_
  | pending task =>
    rw [at_] at operates
    have taken : (st.setTask id (.active task (newServeMux lib task.kind task.body))).tasks id =
        .active task (newServeMux lib task.kind task.body) := by simp
    obtain ⟨later, st', ran, longer⟩ :=
      exists_run_performs ((newServeMux_ever lib task.kind task.body).mpr operates) taken
    exact ⟨.take id :: later, st', by simpa [run, step, at_] using ran, longer⟩

/-- A cancellation, whatever the row's state when it comes, keeps the worker from the host
operation in every continuation exactly when the task has none ahead: it has returned, or is
past it, or its kind and payload lead to none. -/
theorem cancelled_never_performed_iff (lib : Library ρ) (before : List (Action ρ)) (st : State ρ)
    (ran : run (step lib) start before = some st) (id : Nat) (row : Row)
    (visible : st.rows id = some row) :
    (∀ later st', run (step lib) st (.cancel id none :: later) = some st' →
      st'.performed id = st.performed id) ↔ ¬ (st.tasks id).operates lib := by
  constructor
  · intro never operates
    -- The cancellation does not touch the task.
    have ahead : ((st.updateRow id Row.cancel none).tasks id).operates lib := operates
    obtain ⟨later, st', ran', longer⟩ := exists_run_of_operates ahead
    have same := never later st' (by simpa [run, step] using ran')
    rw [same] at longer
    exact absurd longer (Nat.lt_irrefl _)
  · intro idle later st' ran'
    have sound := sound_of_run ran
    have spent : Spent lib id (st.performed id) st :=
      ⟨sound, sound.committed id (by simp [visible]), idle, rfl⟩
    exact (run_invariant _ (fun _ _ _ spent took => spent.step (took_of_step took))
      spent ran').performed

/-- The handler of a trim with an unknown action finishes the row without touching the pool. -/
theorem cancelled_never_performed_trim :
    ∃ st, run (step decodingLibrary) start
        [.insert 1 { destroyTank with kind := .poolTrim } none, .enqueue 1 none,
          .commit 1 none] = some st ∧
      (st.rows 1).map (·.state) = some .queued ∧
      ∀ later st', run (step decodingLibrary) st (.cancel 1 none :: later) = some st' →
        st'.performed 1 = [] :=
  ⟨_, rfl, rfl, (cancelled_never_performed_iff decodingLibrary
    [.insert 1 { destroyTank with kind := .poolTrim } none, .enqueue 1 none, .commit 1 none] _ rfl
    1 _ rfl).mpr (by simp [TaskState.operates]; decide)⟩

/-- The pool is destroyed although the job was cancelled while queued. -/
theorem cancelled_pool_destroyed :
    ∃ st, run (step decodingLibrary) start
        [.insert 1 destroyTank none, .enqueue 1 none, .commit 1 none] = some st ∧
      (st.rows 1).map (·.state) = some .queued ∧
      ∃ st', run (step decodingLibrary) st (.cancel 1 none :: processed 1 5) =
          some st' ∧
        (st'.rows 1).map (·.state) = some .cancelled ∧
        st.performed 1 = [] ∧ st'.performed 1 = [.call .poolDestroy ()] :=
  ⟨_, rfl, rfl, _, rfl, rfl, rfl, rfl⟩

end NovaNas.Jobs
