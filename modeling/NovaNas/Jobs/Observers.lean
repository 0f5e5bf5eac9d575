import NovaNas.Jobs.Outcomes

/-!
# Restarts and observers

The jobs of the process together with those who watch them: clients that poll a job's row until
it is terminal, and event streams that read the row once and then follow what the worker
publishes. A restart ends all calls, handlers and streams, marks unfinished rows interrupted and
leaves the queue as it is.
-/
namespace NovaNas.Jobs

/-- The states that end a stream or a wait; `Job.IsTerminal` of the client is the same list. -/
def isTerminalJobState : JobState → Bool
  | .succeeded | .failed | .cancelled | .interrupted => true
  | _ => false

/-- An event stream of a job, with the published states it has not read yet. -/
inductive Stream where
  | subscribed (job : Nat) (channel : List JobState)
  /-- The row has been read and was not terminal. -/
  | tailing (job : Nat) (channel : List JobState)
  | closed
  deriving DecidableEq, Repr

structure Observed (ρ : Type) where
  jobs : State ρ
  streams : List Stream
  /-- The terminal states that observers were given, newest first, each with its job. -/
  verdicts : List (Nat × JobState)

inductive Move (ρ : Type) where
  | jobs (action : Action ρ)
  /-- The process ends and starts again. Tasks that were being processed are delivered again or
  not; the update of the rows may fail. -/
  | restart (redelivered : Nat → Bool) (err : Option RunError)
  /-- `WaitJob` asks for the job. -/
  | poll (job : Nat)
  /-- `Stream` subscribes to the job's updates. -/
  | subscribe (job : Nat)
  /-- `Stream` reads the row. -/
  | snapshot (stream : Nat)
  | receive (stream : Nat)
  | disconnect (stream : Nat)

variable {ρ : Type}

/-! ### Restarts -/

def Row.interrupt (row : Row) : Row :=
  if row.state = .queued ∨ row.state = .running then
    { row with state := .interrupted, error := some "process restarted" }
  else row

/-- Calls of `Dispatch` that have not committed are rolled back. -/
def Dispatching.abort : Dispatching ρ → Dispatching ρ
  | .inserted _ | .enqueued _ => .returned (some (.other ⟨"process restarted", none⟩))
  | phase => phase

def TaskState.redeliver (again : Bool) : TaskState ρ → TaskState ρ
  | .active task _ => if again then .pending task else .absent
  | task => task

/-- `MarkRunningInterrupted` at startup, after all that was running is gone. -/
def State.restart (st : State ρ) (redelivered : Nat → Bool) (err : Option RunError) : State ρ where
  dispatches id := (st.dispatches id).abort
  rows id := if err = none then (st.rows id).map Row.interrupt else st.rows id
  tasks id := (st.tasks id).redeliver (redelivered id)
  taskIDs := st.taskIDs
  operations := st.operations

/-! ### Streams -/

def Stream.hear (job : Nat) (state : JobState) : Stream → Stream
  | .subscribed id channel => .subscribed id (if id = job then channel ++ [state] else channel)
  | .tailing id channel => .tailing id (if id = job then channel ++ [state] else channel)
  | .closed => .closed

/-- The stream is open and listens to the job. -/
def Stream.listens (job : Nat) : Stream → Bool
  | .subscribed id _ | .tailing id _ => id = job
  | .closed => false

/-- What the next call of a handler publishes. -/
def State.publishes (st : State ρ) : Action ρ → Option (Nat × JobState)
  | .work id answers =>
    match st.tasks id with
    | .active _ (.ask (.publish job state) _) =>
      if answers.redis = none then some (job, state) else none
    | _ => none
  | _ => none

namespace Observed

def setStream (st : Observed ρ) (stream : Nat) (next : Stream) : Observed ρ :=
  { st with streams := st.streams.set stream next }

def publish (st : Observed ρ) : Option (Nat × JobState) → Observed ρ
  | some (job, state) => { st with streams := st.streams.map (Stream.hear job state) }
  | none => st

/-- An observer is told the state and stops if it is terminal. -/
def tell (st : Observed ρ) (job : Nat) (state : JobState) : Observed ρ :=
  if isTerminalJobState state then { st with verdicts := (job, state) :: st.verdicts } else st

end Observed

def observe (lib : Library ρ) (st : Observed ρ) : Move ρ → Option (Observed ρ)
  | .jobs action =>
    (step lib st.jobs action).map fun jobs =>
      { st.publish (st.jobs.publishes action) with jobs }
  | .restart redelivered err =>
    some { st with
      jobs := st.jobs.restart redelivered err
      streams := st.streams.map fun _ => .closed }
  | .poll job =>
    match st.jobs.rows job with
    | some row => some (st.tell job row.state)
    | none => some st
  | .subscribe job => some { st with streams := st.streams ++ [.subscribed job []] }
  | .snapshot stream =>
    match st.streams[stream]? with
    | some (.subscribed job channel) =>
      match st.jobs.rows job with
      | none => some (st.setStream stream .closed)
      | some row =>
        if isTerminalJobState row.state then
          some ((st.tell job row.state).setStream stream .closed)
        else some (st.setStream stream (.tailing job channel))
    | _ => none
  | .receive stream =>
    match st.streams[stream]? with
    | some (.tailing job (state :: channel)) =>
      if isTerminalJobState state then some ((st.tell job state).setStream stream .closed)
      else some (st.setStream stream (.tailing job channel))
    | _ => none
  | .disconnect stream => some (st.setStream stream .closed)

def unobserved : Observed ρ := ⟨start, [], []⟩

end NovaNas.Jobs
