import NovaNas.Jobs.Outcomes

/-!
# Unique keys

A dispatch with a unique key makes the key the id of its task. The queue frees the id when the
task is removed, which is when its handler returns without an error; a task that failed is
archived under its id. As long as no keyed task fails, the ids in use are the keys of the tasks
in flight.
-/
namespace NovaNas.Jobs

open Interleaving (run)

variable {ρ : Type} {lib : Library ρ} {st st' : State ρ} {a : Action ρ} {id : Nat}

/-- The task while it is queued or being processed. -/
def TaskState.inFlight : TaskState ρ → Option (Task ρ)
  | .pending task | .active task _ => some task
  | .absent | .returned _ => none

/-- Some task in flight has the key. -/
def State.inUse (st : State ρ) (key : String) : Prop :=
  ∃ job task, (st.tasks job).inFlight = some task ∧ task.taskID = key

/-- A handler that returns, returns without an error or has a task without a key. -/
def frees (st : State ρ) : Action ρ → Bool
  | .work id _ =>
    match st.tasks id with
    | .active task (.ret (some _)) => task.taskID = ""
    | _ => true
  | _ => true

/-- The ids the queue holds are the keys of the tasks in flight, each of one task. -/
structure Keyed (st : State ρ) : Prop where
  nodup : st.taskIDs.Nodup
  held : ∀ key, key ∈ st.taskIDs ↔ key ≠ "" ∧ st.inUse key
  once : ∀ job job' task task', (st.tasks job).inFlight = some task →
    (st.tasks job').inFlight = some task' → task.taskID = task'.taskID → task.taskID ≠ "" →
      job = job'
  unstarted : ∀ id, st.dispatches id = .idle ∨ (∃ input, st.dispatches id = .inserted input) →
    st.tasks id = .absent

theorem keyed_start : Keyed (start : State ρ) where
  nodup := List.nodup_nil
  held key := by simp [start, State.inUse, TaskState.inFlight]
  once job job' task task' here := by simp [start, TaskState.inFlight] at here
  unstarted _ _ := rfl

/-- What an enqueue does to the dispatch and the queue. -/
theorem enqueue_cases {err : Option RunError} (took : step lib st (.enqueue id err) = some st') :
    (∃ failure, st' = st.setDispatch id (.returned (some failure))) ∨
    ∃ input, st.dispatches id = .inserted input ∧
      (input.uniqueKey ≠ "" → input.uniqueKey ∉ st.taskIDs) ∧
      st' = { (st.setTask id (.pending (newTask id input))).setDispatch id (.enqueued input) with
        taskIDs := if input.uniqueKey = "" then st.taskIDs else input.uniqueKey :: st.taskIDs } := by
  simp only [step] at took
  split at took
  next input at_ =>
    split at took
    next => exact .inl ⟨_, (Option.some.inj took).symm⟩
    next free =>
      refine .inr ⟨input, at_, ?_, (Option.some.inj took).symm⟩
      intro keyed taken
      exact free ⟨keyed, taken⟩
  next => exact .inl ⟨_, (Option.some.inj took).symm⟩
  next => cases took

/-- A step that leaves the queue's ids alone and takes no task out of flight. -/
theorem Keyed.of_same (keyed : Keyed st) (ids : st'.taskIDs = st.taskIDs)
    (flight : ∀ job, (st'.tasks job).inFlight = (st.tasks job).inFlight)
    (unstarted : ∀ id, st'.dispatches id = .idle ∨ (∃ input, st'.dispatches id = .inserted input) →
      st'.tasks id = .absent) : Keyed st' where
  nodup := ids ▸ keyed.nodup
  held key := by
    rw [ids, keyed.held key]
    simp only [State.inUse, flight]
  once job job' task task' here there := by
    rw [flight] at here there
    exact keyed.once job job' task task' here there
  unstarted := unstarted

/-- A dispatch moves on, away from its beginning. -/
theorem Keyed.of_dispatch (keyed : Keyed st) {phase : Dispatching ρ}
    (beginning : phase = .idle ∨ (∃ input, phase = .inserted input) →
      st.dispatches id = .idle ∨ ∃ input, st.dispatches id = .inserted input) :
    Keyed (st.setDispatch id phase) := by
  apply keyed.of_same
  · rfl
  · exact fun _ => rfl
  intro job early
  by_cases own : job = id
  · subst own
    exact keyed.unstarted job (beginning (by simpa using early))
  · exact keyed.unstarted job (by simpa [own] using early)

/-- The task of a job is replaced by one that is in flight as the old one was. -/
theorem Keyed.of_task (keyed : Keyed st) {task : TaskState ρ}
    (same : task.inFlight = (st.tasks id).inFlight) (some : (st.tasks id).inFlight.isSome = true) :
    Keyed (st.setTask id task) := by
  apply keyed.of_same
  · rfl
  · intro job
    by_cases own : job = id
    · subst own
      simpa using same
    · simp [own]
  · intro job early
    by_cases own : job = id
    · subst own
      rw [keyed.unstarted job early] at some
      cases some
    · simpa [own] using keyed.unstarted job early

theorem Keyed.enqueue_step (keyed : Keyed st) {err : Option RunError}
    (took : step lib st (.enqueue id err) = some st') : Keyed st' := by
  obtain ⟨failure, rfl⟩ | ⟨input, at_, free, rfl⟩ := enqueue_cases took
  · apply keyed.of_dispatch
    rintro (idle | ⟨input, inserted⟩)
    · cases idle
    · cases inserted
  · have absent : st.tasks id = .absent := keyed.unstarted id (.inr ⟨input, at_⟩)
    have elsewhere : ∀ job task, (st.tasks job).inFlight = some task → job ≠ id := by
      intro job task here same
      rw [same, absent] at here
      cases here
    -- The new task is the only one with its key: the queue has refused the others.
    have alone : ∀ job task, (st.tasks job).inFlight = some task →
        task.taskID = input.uniqueKey → input.uniqueKey = "" := by
      intro job task here same
      by_contra keyed'
      exact free keyed' ((keyed.held _).mpr ⟨keyed', job, task, here, same⟩)
    refine ⟨?_, ?_, ?_, ?_⟩
    · by_cases blank : input.uniqueKey = ""
      · simpa [blank] using keyed.nodup
      · simpa [blank] using ⟨free blank, keyed.nodup⟩
    · intro key
      have used : (({ (st.setTask id (.pending (newTask id input))).setDispatch id
          (.enqueued input) with taskIDs := if input.uniqueKey = "" then st.taskIDs
            else input.uniqueKey :: st.taskIDs } : State ρ).inUse key) ↔
          key = input.uniqueKey ∨ st.inUse key := by
        constructor
        · rintro ⟨job, task, here, rfl⟩
          by_cases own : job = id
          · subst own
            obtain rfl : newTask job input = task := by simpa [TaskState.inFlight] using here
            exact .inl rfl
          · exact .inr ⟨job, task, by simpa [own] using here, rfl⟩
        · rintro (rfl | ⟨job, task, here, rfl⟩)
          · exact ⟨id, newTask id input, by simp [TaskState.inFlight], rfl⟩
          · exact ⟨job, task, by simpa [elsewhere job task here] using here, rfl⟩
      rw [used]
      by_cases blank : input.uniqueKey = ""
      · simp only [blank, if_true, keyed.held]
        grind
      · simp only [blank, if_false, List.mem_cons, keyed.held]
        grind
    · intro job job' task task' here there same nonempty
      by_cases own : job = id <;> by_cases own' : job' = id
      · exact own.trans own'.symm
      · subst own
        obtain rfl : newTask job input = task := by simpa [TaskState.inFlight] using here
        have there : (st.tasks job').inFlight = some task' := by simpa [own'] using there
        exact absurd (alone job' task' there same.symm) nonempty
      · subst own'
        obtain rfl : newTask job' input = task' := by simpa [TaskState.inFlight] using there
        have here : (st.tasks job).inFlight = some task := by simpa [own] using here
        exact absurd (same.trans (alone job task here same)) nonempty
      · exact keyed.once job job' task task' (by simpa [own] using here)
          (by simpa [own'] using there) same nonempty
    · intro job early
      by_cases own : job = id
      · subst own
        simp at early
      · simpa [own] using keyed.unstarted job (by simpa [own] using early)

/-- A handler returns and its task leaves the queue, with its id unless that is blank. -/
theorem Keyed.return_step (keyed : Keyed st) {task : Task ρ} {err : Option RunError}
    (at_ : st.tasks id = .active task (.ret err)) (freed : err = none ∨ task.taskID = "") :
    Keyed ((st.release task err).setTask id (.returned err)) := by
  have here : (st.tasks id).inFlight = some task := by rw [at_]; rfl
  have flight : ∀ job, ((Function.update st.tasks id (.returned err)) job).inFlight =
      if job = id then none else (st.tasks job).inFlight := by
    intro job
    by_cases own : job = id
    · subst own
      simp [TaskState.inFlight]
    · simp [own]
  have ids : (st.release task err).taskIDs = st.taskIDs.erase task.taskID := by
    obtain rfl | blank := freed
    · rfl
    · have unheld : "" ∉ st.taskIDs := fun member => ((keyed.held "").mp member).1 rfl
      cases err with
      | none => rfl
      | some err => rw [blank, List.erase_of_not_mem unheld]; rfl
  refine ⟨?_, ?_, ?_, ?_⟩
  · simp only [State.setTask, ids]
    exact keyed.nodup.erase _
  · intro key
    simp only [State.setTask, State.release_fields, ids, State.inUse, flight,
      keyed.nodup.mem_erase_iff, keyed.held]
    constructor
    · rintro ⟨other, nonempty, job, task', there, rfl⟩
      refine ⟨nonempty, job, task', ?_, rfl⟩
      rw [if_neg, there]
      intro own
      subst own
      exact other (congrArg Task.taskID (Option.some.inj (here.symm.trans there))).symm
    · rintro ⟨nonempty, job, task', there, rfl⟩
      split at there
      · cases there
      next other =>
        refine ⟨?_, nonempty, job, task', there, rfl⟩
        intro same
        exact other (keyed.once job id task' task there here same nonempty)
  · intro job job' task task' there there' same nonempty
    simp only [State.setTask, State.release_fields, flight] at there there'
    split at there
    · cases there
    split at there'
    · cases there'
    exact keyed.once job job' task task' there there' same nonempty
  · intro job early
    simp only [State.setTask, State.release_fields] at early ⊢
    have absent := keyed.unstarted job early
    by_cases own : job = id
    · subst own
      rw [absent] at at_
      cases at_
    · simpa [own] using absent

theorem perform_taskIDs (st : State ρ) (id : Nat) (answers : Answers) (q : Call ρ) :
    (st.perform id answers q).taskIDs = st.taskIDs := by
  have update : ∀ row change (err : Option RunError),
      (st.updateRow row change err).taskIDs = st.taskIDs := by
    intro row change err
    cases err <;> rfl
  cases q <;> first | rfl | exact update _ _ _

/-- What other steps do to rows and operations does not concern the keys. -/
theorem Keyed.of_fields (keyed : Keyed st) (ids : st'.taskIDs = st.taskIDs)
    (tasks : st'.tasks = st.tasks) (dispatches : st'.dispatches = st.dispatches) : Keyed st' := by
  apply keyed.of_same ids
  · intro job
    rw [tasks]
  · rw [tasks, dispatches]
    exact keyed.unstarted

theorem Keyed.step (keyed : Keyed st) (stepped : step lib st a = some st')
    (freed : frees st a = true) : Keyed st' := by
  cases a with
  | enqueue job err => exact keyed.enqueue_step stepped
  | insert job input err =>
    cases took_of_step stepped with
    | inserts at_ => exact keyed.of_dispatch fun _ => .inl at_
    | fails => exact keyed.of_dispatch (by simp)
  | commit job err =>
    cases took_of_step stepped with
    | commits at_ =>
      have moved : Keyed (st.setDispatch job (.returned none)) := keyed.of_dispatch (by simp)
      exact moved.of_fields rfl rfl rfl
    | fails => exact keyed.of_dispatch (by simp)
  | take job =>
    cases took_of_step stepped with
    | takes at_ =>
      apply keyed.of_task
      · rw [at_]
        rfl
      · rw [at_]
        rfl
    | fails => exact keyed.of_dispatch (by simp)
  | work job answers =>
    cases took_of_step stepped with
    | @calls _ task q next at_ =>
      have performed : Keyed (st.perform job answers q) :=
        keyed.of_fields (perform_taskIDs st job answers q) (by simp) (by simp)
      have here : ((st.perform job answers q).tasks job).inFlight = some task := by
        rw [(st.perform_fields job answers q).2, show st.tasks job = _ from at_]
        rfl
      apply performed.of_task
      · exact here.symm
      · exact Option.isSome_iff_exists.mpr ⟨task, here⟩
    | @returns _ task err at_ =>
      apply keyed.return_step at_
      simp only [Action.job] at at_
      cases err with
      | none => exact .inl rfl
      | some err => simpa [frees, at_] using freed
    | fails => exact keyed.of_dispatch (by simp)
  | cancel job err =>
    cases took_of_step stepped with
    | cancels =>
      apply keyed.of_fields
      · cases err <;> rfl
      · simp
      · simp
    | fails => exact keyed.of_dispatch (by simp)

/-- In any interleaving of dispatches, the worker and cancellations in which no keyed task ends
with an error: an enqueue is refused as a duplicate exactly when a task with its key is queued
or being processed, and is accepted otherwise. -/
theorem duplicate_iff_in_flight (lib : Library ρ) (actions : List (Action ρ)) (st : State ρ)
    (ran : run (step lib) start actions = some st)
    (freed : Interleaving.Guarded (step lib) (fun st a => frees st a = true) start actions)
    (id : Nat) (input : DispatchInput ρ) (inserted : st.dispatches id = .inserted input) :
    ∃ st', step lib st (.enqueue id none) = some st' ∧
      (st'.dispatches id = .returned (some (.duplicate input.kind)) ↔
        input.uniqueKey ≠ "" ∧ st.inUse input.uniqueKey) ∧
      (¬ (input.uniqueKey ≠ "" ∧ st.inUse input.uniqueKey) →
        st'.dispatches id = .enqueued input ∧ st'.tasks id = .pending (newTask id input)) := by
  have keyed : Keyed st := Interleaving.run_induction _
    (fun _ _ _ keyed freed stepped => keyed.step stepped freed) keyed_start freed ran
  have taken : input.uniqueKey ≠ "" ∧ input.uniqueKey ∈ st.taskIDs ↔
      input.uniqueKey ≠ "" ∧ st.inUse input.uniqueKey := by
    rw [keyed.held]
    tauto
  simp only [step, inserted]
  split
  next used =>
    refine ⟨_, rfl, ?_, ?_⟩
    · simpa using taken.mp used
    · intro unused
      exact absurd (taken.mp used) unused
  next free =>
    refine ⟨_, rfl, ?_, ?_⟩
    · simpa using fun nonempty used => free (taken.mpr ⟨nonempty, used⟩)
    · intro _
      simp

/-- While the pool is being destroyed a second request is refused; afterwards it is accepted. -/
theorem duplicate_iff_in_flight_destroy :
    (∃ st st', run (step decodingLibrary) start
        [.insert 1 destroyTank none, .enqueue 1 none, .take 1, .insert 2 destroyTank none] =
          some st ∧
      step decodingLibrary st (.enqueue 2 none) = some st' ∧
      st'.dispatches 2 = .returned (some (.duplicate .poolDestroy))) ∧
    ∃ st st', run (step decodingLibrary) start
        ([.insert 1 destroyTank none, .enqueue 1 none, .commit 1 none] ++ processed 1 5 ++
          [.insert 2 destroyTank none]) = some st ∧
      step decodingLibrary st (.enqueue 2 none) = some st' ∧
      st'.dispatches 2 = .enqueued destroyTank := by
  constructor
  · obtain ⟨st', stepped, duplicate, -⟩ := duplicate_iff_in_flight decodingLibrary
      [.insert 1 destroyTank none, .enqueue 1 none, .take 1, .insert 2 destroyTank none] _ rfl
      (by decide) 2 destroyTank rfl
    exact ⟨_, st', rfl, stepped, duplicate.mpr ⟨by decide, 1, newTask 1 destroyTank, rfl, rfl⟩⟩
  · exact ⟨_, _, rfl, rfl, rfl⟩

/-- The pool could not be destroyed and the handler has returned the error: the key stays taken
and the next request is refused although no task is in flight. -/
theorem key_kept_after_failure :
    ∃ st st', run (step decodingLibrary) start
        [.insert 1 destroyTank none, .enqueue 1 none, .commit 1 none, .take 1, .work 1 {},
          .work 1 { host := some ⟨"pool is busy", none⟩ }, .work 1 {}, .work 1 {}, .work 1 {},
          .insert 2 destroyTank none] = some st ∧
      st.tasks 1 = .returned (some ⟨"pool is busy", none⟩) ∧
      ¬ st.inUse destroyTank.uniqueKey ∧
      step decodingLibrary st (.enqueue 2 none) = some st' ∧
      st'.dispatches 2 = .returned (some (.duplicate .poolDestroy)) := by
  refine ⟨_, _, rfl, rfl, ?_, rfl, rfl⟩
  rintro ⟨_ | _ | _ | job, task, here, -⟩
  · cases here
  · cases here
  · cases here
  · cases here

/-! ### Keys in flight -/

/-- The queue holds the key of every task in flight, and the key tells the job. -/
def Owned (owner : String → Nat) (st : State ρ) : Prop :=
  ∀ job task, (st.tasks job).inFlight = some task → task.taskID ≠ "" →
    task.taskID ∈ st.taskIDs ∧ owner task.taskID = job

theorem Owned.step {owner : String → Nat} (owned : Owned owner st)
    (stepped : step lib st a = some st') : ∃ owner, Owned owner st' := by
  have took := took_of_step stepped
  generalize a.job = id at took
  cases took with
  | enqueues =>
    obtain ⟨_, same⟩ | ⟨input, -, free, same⟩ := enqueue_cases stepped
    · simpa using congrArg (·.dispatches id) same
    -- A key that the queue accepts is the key of no other task.
    refine same ▸ ⟨Function.update owner input.uniqueKey id, fun job task here keyed => ?_⟩
    by_cases own : job = id
    · obtain rfl : newTask id input = task := by simpa [own, TaskState.inFlight] using here
      simp_all [newTask]
    · obtain ⟨held, mine⟩ := owned job task (by simpa [own] using here) keyed
      have other : task.taskID ≠ input.uniqueKey := fun same => free (same ▸ keyed) (same ▸ held)
      exact ⟨by split <;> simp [held], by simpa [other] using mine⟩
  | takes at_ | calls at_ =>
    refine ⟨owner, fun job task here => ?_⟩
    by_cases own : job = id
    · have before := owned id task
      simp_all [TaskState.inFlight, perform_taskIDs]
    · simpa [own, perform_taskIDs] using owned job task (by simpa [own] using here)
  | @returns _ task err at_ =>
    refine ⟨owner, fun job other here keyed => ?_⟩
    have own : job ≠ id := by
      rintro rfl
      simp [TaskState.inFlight] at here
    obtain ⟨held, mine⟩ := owned job other (by simpa [own] using here) keyed
    have apart : other.taskID ≠ task.taskID := fun same =>
      own (mine.symm.trans (same ▸ (owned id task (by rw [at_]; rfl) (same ▸ keyed)).2))
    cases err with
    | none => exact ⟨(List.mem_erase_of_ne apart).mpr held, mine⟩
    | some => exact ⟨held, mine⟩
  | @cancels err => exact ⟨owner, by cases err <;> exact owned⟩
  | _ => exact ⟨owner, owned⟩

/-- In any interleaving of dispatches, the worker and cancellations, whatever fails: two tasks that
are queued or being processed at once have different unique keys. -/
theorem keys_in_flight_differ (lib : Library ρ) (actions : List (Action ρ)) (st : State ρ)
    (ran : run (step lib) start actions = some st) (job job' : Nat) (task task' : Task ρ)
    (here : (st.tasks job).inFlight = some task) (there : (st.tasks job').inFlight = some task')
    (other : job ≠ job') (keyed : task.taskID ≠ "") : task.taskID ≠ task'.taskID := by
  obtain ⟨owner, owned⟩ := Interleaving.run_invariant (fun st => ∃ owner, Owned owner st)
    (fun _ _ _ ⟨_, owned⟩ => owned.step) ⟨fun _ => 0, fun _ _ none => by cases none⟩ ran
  intro same
  refine other ?_
  rw [← (owned job task here keyed).2, same, (owned job' task' there (same ▸ keyed)).2]

/-- A pool and a replication are at work. -/
theorem keys_in_flight_differ_destroy : destroyTank.uniqueKey ≠ runReplication.uniqueKey :=
  keys_in_flight_differ decodingLibrary [.insert 1 destroyTank none, .enqueue 1 none,
    .insert 2 runReplication none, .enqueue 2 none, .take 2] _ rfl 1 2 _ _ rfl rfl (by decide)
    (by decide)

end NovaNas.Jobs
