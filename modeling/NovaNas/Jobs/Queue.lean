import NovaNas.Base.Interleaving
import NovaNas.Jobs.Handlers

/-!
# Dispatch, queue and worker

A dispatch inserts the job's row in a transaction, enqueues the task and commits; the worker
may take the task as soon as it is enqueued. Both, and cancellations, interleave step by step.
An update sees the row only once the dispatch has committed it.
-/
namespace NovaNas.Jobs

structure Row where
  kind : Kind
  target : String
  command : String
  requestID : String
  state : JobState
  stdout : String := ""
  stderr : String := ""
  exitCode : Option Int := none
  error : Option String := none
  deriving DecidableEq, Repr

/-! ### Statements on the jobs table -/

def Row.markRunning (row : Row) : Row :=
  if row.state = .queued ∨ row.state = .interrupted then { row with state := .running } else row

def Row.markFinished (state : JobState) (stdout stderr : String) (exitCode : Option Int)
    (error : Option String) (row : Row) : Row :=
  if row.state = .running then { row with state, stdout, stderr, exitCode, error } else row

def Row.cancel (row : Row) : Row :=
  if row.state = .queued ∨ row.state = .running then { row with state := .cancelled } else row

/-! ### Steps -/

structure DispatchInput (ρ : Type) where
  kind : Kind
  target : String
  payload : ρ
  command : String
  requestID : String
  uniqueKey : String
  deriving DecidableEq, Repr

inductive DispatchError where
  | duplicate (kind : Kind)
  | other (err : RunError)
  deriving DecidableEq, Repr

/-- How far a call of `Dispatch` is; it returns `none` after the commit. -/
inductive Dispatching (ρ : Type) where
  | idle
  | inserted (input : DispatchInput ρ)
  | enqueued (input : DispatchInput ρ)
  | returned (err : Option DispatchError)
  deriving DecidableEq, Repr

structure Task (ρ : Type) where
  kind : Kind
  body : TaskBody ρ
  taskID : String
  deriving DecidableEq, Repr

inductive TaskState (ρ : Type) where
  | absent
  | pending (task : Task ρ)
  | active (task : Task ρ) (rest : Outside ρ (Option RunError))
  | returned (err : Option RunError)

/-- Jobs are told apart by the id that `Dispatch` draws for them. -/
structure State (ρ : Type) where
  dispatches : Nat → Dispatching ρ
  /-- The committed rows. -/
  rows : Nat → Option Row
  tasks : Nat → TaskState ρ
  /-- The caller-chosen task ids that the queue has not released. -/
  taskIDs : List String
  /-- The host operations performed, newest first, each with its job. -/
  operations : List (Nat × HostOp ρ)

/-- What the outside answers to the next call of a handler. -/
structure Answers where
  table : Option RunError := none
  redis : Option RunError := none
  snapshotSchedule : Except RunError Scheduler.SnapshotSchedule := .error ⟨"no rows", none⟩
  replicationSchedule : Except RunError Scheduler.ReplicationSchedule := .error ⟨"no rows", none⟩
  now : Int := 0
  host : Option RunError := none

inductive Action (ρ : Type) where
  /-- Dispatch: encode the payload, begin the transaction, insert the row. -/
  | insert (id : Nat) (input : DispatchInput ρ) (err : Option RunError)
  | enqueue (id : Nat) (err : Option RunError)
  | commit (id : Nat) (err : Option RunError)
  /-- The worker hands the task to the handler of its kind. -/
  | take (id : Nat)
  /-- The handler makes its next call, or returns. -/
  | work (id : Nat) (answers : Answers)
  | cancel (id : Nat) (err : Option RunError)

variable {ρ : Type}

def Answers.to (answers : Answers) : (q : Call ρ) → q.Answer
  | .markJobRunning _ => answers.table
  | .markJobFinished .. => answers.table
  | .publish .. => answers.redis
  | .getSnapshotSchedule _ => answers.snapshotSchedule
  | .getReplicationSchedule _ => answers.replicationSchedule
  | .now => answers.now
  | .host _ => answers.host

def Action.job : Action ρ → Nat
  | .insert id _ _ | .enqueue id _ | .commit id _ | .take id | .work id _ | .cancel id _ => id

def newRow (input : DispatchInput ρ) : Row where
  kind := input.kind
  target := input.target
  command := input.command
  requestID := input.requestID
  state := .queued

def newTask (id : Nat) (input : DispatchInput ρ) : Task ρ where
  kind := input.kind
  body := { jobID := id, payload := input.payload }
  taskID := input.uniqueKey

namespace State

@[simp] def setDispatch (st : State ρ) (id : Nat) (phase : Dispatching ρ) : State ρ :=
  { st with dispatches := Function.update st.dispatches id phase }

@[simp] def setTask (st : State ρ) (id : Nat) (task : TaskState ρ) : State ρ :=
  { st with tasks := Function.update st.tasks id task }

/-- An UPDATE; it changes nothing if it fails or no row with the id is committed. -/
def updateRow (st : State ρ) (id : Nat) (change : Row → Row) : Option RunError → State ρ
  | none => { st with rows := Function.update st.rows id ((st.rows id).map change) }
  | some _ => st

/-- What a call of the handler of job `id` does. -/
def perform (st : State ρ) (id : Nat) (answers : Answers) : Call ρ → State ρ
  | .markJobRunning row => st.updateRow row Row.markRunning answers.table
  | .markJobFinished row state stdout stderr exitCode error =>
    st.updateRow row (Row.markFinished state stdout stderr exitCode error) answers.table
  | .host op => { st with operations := (id, op) :: st.operations }
  | _ => st

/-- A task that fails is archived and keeps its id, one that succeeds is removed. -/
def release (st : State ρ) (task : Task ρ) : Option RunError → State ρ
  | none => { st with taskIDs := st.taskIDs.erase task.taskID }
  | some _ => st

end State

variable {st : State ρ}

section Steps

variable (lib : Library ρ)

def step (st : State ρ) : Action ρ → Option (State ρ)
  | .insert id input err =>
    match st.dispatches id, err with
    | .idle, none => some (st.setDispatch id (.inserted input))
    | .idle, some err => some (st.setDispatch id (.returned (some (.other err))))
    | _, _ => none
  | .enqueue id err =>
    match st.dispatches id, err with
    | .inserted input, none =>
      -- A conflict of task ids rolls the transaction back.
      if input.uniqueKey ≠ "" ∧ input.uniqueKey ∈ st.taskIDs then
        some (st.setDispatch id (.returned (some (.duplicate input.kind))))
      else
        some { (st.setTask id (.pending (newTask id input))).setDispatch id (.enqueued input) with
          taskIDs := if input.uniqueKey = "" then st.taskIDs else input.uniqueKey :: st.taskIDs }
    | .inserted _, some err => some (st.setDispatch id (.returned (some (.other err))))
    | _, _ => none
  | .commit id err =>
    match st.dispatches id, err with
    -- The task is in the queue already, whether or not the commit succeeds.
    | .enqueued input, none =>
      some { st.setDispatch id (.returned none) with
        rows := Function.update st.rows id (some (newRow input)) }
    | .enqueued _, some err => some (st.setDispatch id (.returned (some (.other err))))
    | _, _ => none
  | .take id =>
    match st.tasks id with
    | .pending task => some (st.setTask id (.active task (newServeMux lib task.kind task.body)))
    | _ => none
  | .work id answers =>
    match st.tasks id with
    | .active task (.ask q next) =>
      some ((st.perform id answers q).setTask id (.active task (next (answers.to q))))
    | .active task (.ret err) => some ((st.release task err).setTask id (.returned err))
    | _ => none
  -- Only the row is changed: the task stays in the queue.
  | .cancel id err => some (st.updateRow id Row.cancel err)

/-- What the steps of job `id` do. -/
inductive Took (st : State ρ) (id : Nat) : Action ρ → State ρ → Prop where
  | inserts {input} (at_ : st.dispatches id = .idle) :
      Took st id (.insert id input none) (st.setDispatch id (.inserted input))
  | fails {a} {err : DispatchError} (at_ : ∀ err, st.dispatches id ≠ .returned err) :
      Took st id a (st.setDispatch id (.returned (some err)))
  | enqueues {input taskIDs} (at_ : st.dispatches id = .inserted input) :
      Took st id (.enqueue id none)
        { (st.setTask id (.pending (newTask id input))).setDispatch id (.enqueued input) with
          taskIDs }
  | commits {input} (at_ : st.dispatches id = .enqueued input) :
      Took st id (.commit id none)
        { st.setDispatch id (.returned none) with
          rows := Function.update st.rows id (some (newRow input)) }
  | takes {task} (at_ : st.tasks id = .pending task) :
      Took st id (.take id) (st.setTask id (.active task (newServeMux lib task.kind task.body)))
  | calls {answers task q next} (at_ : st.tasks id = .active task (.ask q next)) :
      Took st id (.work id answers)
        ((st.perform id answers q).setTask id (.active task (next (answers.to q))))
  | returns {answers task err} (at_ : st.tasks id = .active task (.ret err)) :
      Took st id (.work id answers) ((st.release task err).setTask id (.returned err))
  | cancels {err} : Took st id (.cancel id err) (st.updateRow id Row.cancel err)

variable {lib}

theorem took_of_step {st' : State ρ} {a : Action ρ} (stepped : step lib st a = some st') :
    Took lib st a.job a st' := by
  cases a with
  | insert id input err =>
    simp only [step] at stepped
    split at stepped <;> cases stepped
    next at_ => exact .inserts at_
    next at_ => exact .fails (by simp [Action.job, at_])
  | enqueue id err =>
    simp only [step] at stepped
    split at stepped
    next at_ =>
      split at stepped <;> cases stepped
      · exact .fails (by simp [Action.job, at_])
      · exact .enqueues at_
    next at_ =>
      cases stepped
      exact .fails (by simp [Action.job, at_])
    next => cases stepped
  | commit id err =>
    simp only [step] at stepped
    split at stepped <;> cases stepped
    next at_ => exact .commits at_
    next at_ => exact .fails (by simp [Action.job, at_])
  | take id =>
    simp only [step] at stepped
    split at stepped <;> cases stepped
    next at_ => exact .takes at_
  | work id answers =>
    simp only [step] at stepped
    split at stepped <;> cases stepped
    next at_ => exact .calls at_
    next at_ => exact .returns at_
  | cancel id err =>
    cases stepped
    exact .cancels

end Steps

def start : State ρ where
  dispatches _ := .idle
  rows _ := none
  tasks _ := .absent
  taskIDs := []
  operations := []

/-! ### What steps leave alone -/

namespace State

variable (st : State ρ) (id : Nat) (answers : Answers) (q : Call ρ) (change : Row → Row)
  (err : Option RunError)

@[simp] theorem updateRow_fields :
    (st.updateRow id change err).dispatches = st.dispatches ∧
      (st.updateRow id change err).tasks = st.tasks ∧
      (st.updateRow id change err).operations = st.operations := by
  cases err <;> exact ⟨rfl, rfl, rfl⟩

@[simp] theorem release_fields (task : Task ρ) :
    (st.release task err).dispatches = st.dispatches ∧ (st.release task err).tasks = st.tasks ∧
      (st.release task err).rows = st.rows ∧
      (st.release task err).operations = st.operations := by
  cases err <;> exact ⟨rfl, rfl, rfl, rfl⟩

@[simp] theorem perform_fields :
    (st.perform id answers q).dispatches = st.dispatches ∧
      (st.perform id answers q).tasks = st.tasks := by
  cases q <;> simp [perform]

/-- An update shows in a row exactly if the row is committed. -/
theorem updateRow_rows (job : Nat) : (st.updateRow id change err).rows job =
      if job = id ∧ err = none then (st.rows job).map change else st.rows job := by
  cases err with
  | some err => simp [updateRow]
  | none =>
    by_cases same : job = id
    · subst same
      simp [updateRow]
    · simp [updateRow, same]

@[simp] theorem updateRow_isSome (job : Nat) :
    ((st.updateRow id change err).rows job).isSome = (st.rows job).isSome := by
  rw [updateRow_rows]
  split <;> simp

@[simp] theorem perform_isSome (job : Nat) :
    ((st.perform id answers q).rows job).isSome = (st.rows job).isSome := by
  cases q <;> simp [perform]

theorem perform_rows_other {q : Call ρ} {job : Nat} (aside : job ∉ q.row) :
    (st.perform id answers q).rows job = st.rows job := by
  cases q with
  | markJobRunning row | markJobFinished row =>
    have other : job ≠ row := fun same => aside (same ▸ rfl)
    simp [perform, updateRow_rows, other]
  | _ => rfl

end State

/-- A task belongs to its job: the handler updates no other row. -/
def Own (id : Nat) : TaskState ρ → Prop
  | .pending task => task.body.jobID = id
  | .active _ rest => rest.Always fun q => ∀ row ∈ q.row, row = id
  | _ => True

structure Sound (st : State ρ) : Prop where
  own : ∀ id, Own id (st.tasks id)
  committed : ∀ id, (st.rows id).isSome = true → st.dispatches id = .returned none

theorem sound_start : Sound (start : State ρ) where
  own _ := trivial
  committed _ visible := by cases visible

variable {id : Nat}

theorem Sound.pending_own (sound : Sound st) {task : Task ρ} (at_ : st.tasks id = .pending task) :
    task.body.jobID = id := by
  have mine := sound.own id
  rwa [at_] at mine

theorem Sound.active_own (sound : Sound st) {task : Task ρ} {rest : Outside ρ (Option RunError)}
    (at_ : st.tasks id = .active task rest) :
    rest.Always fun q => ∀ row ∈ q.row, row = id := by
  have mine := sound.own id
  rwa [at_] at mine

theorem Sound.own_update (sound : Sound st) {task : TaskState ρ} (own : Own id task) (job : Nat) :
    Own job (Function.update st.tasks id task job) := by
  by_cases same : job = id
  · subst same
    simpa using own
  · simpa [same] using sound.own job

/-- Only a dispatch under way moves, and its row is not committed. -/
theorem Sound.committed_update (sound : Sound st) {phase : Dispatching ρ}
    (under : ∀ err, st.dispatches id ≠ .returned err) {job : Nat}
    (visible : (st.rows job).isSome = true) :
    Function.update st.dispatches id phase job = .returned none := by
  have returned := sound.committed job visible
  have other : job ≠ id := fun same => under none (same ▸ returned)
  simpa [other] using returned

section Runs

variable {lib : Library ρ} {st st' : State ρ} {a : Action ρ} {job : Nat}

theorem Sound.step (sound : Sound st) (took : Took lib st job a st') : Sound st' where
  own id := by
    cases took with
    | inserts | fails | commits => exact sound.own id
    | enqueues =>
      refine sound.own_update ?_ id
      rfl
    | takes at_ =>
      refine sound.own_update ?_ id
      exact sound.pending_own at_ ▸ newServeMux_own lib _ _
    | calls at_ =>
      simp only [State.setTask, State.perform_fields]
      refine sound.own_update ?_ id
      exact (sound.active_own at_).2 _
    | returns =>
      simp only [State.setTask, State.release_fields]
      refine sound.own_update ?_ id
      trivial
    | cancels => simpa using sound.own id
  committed id visible := by
    cases took with
    | inserts at_ | enqueues at_ => exact sound.committed_update (by simp [at_]) visible
    | fails at_ => exact sound.committed_update at_ visible
    | commits =>
      by_cases same : id = job
      · subst same
        simp
      · simp only [Function.update_of_ne same] at visible
        simpa [same] using sound.committed id visible
    | takes => exact sound.committed id visible
    | calls | returns | cancels =>
      exact by simpa using sound.committed id (by simpa using visible)

/-- A step of one job leaves the others alone. -/
theorem Took.other (took : Took lib st job a st') (sound : Sound st) (other : id ≠ job) :
    st'.dispatches id = st.dispatches id ∧ st'.tasks id = st.tasks id ∧
      st'.rows id = st.rows id := by
  cases took with
  | calls at_ =>
    -- The handler updates its own row only.
    have aside := fun answers => st.perform_rows_other job answers
      fun member => other ((sound.active_own at_).1 id member)
    simp [other, aside]
  | cancels => simp [State.updateRow_rows, other]
  | _ => simp [other]

end Runs

end NovaNas.Jobs
