import Mathlib.Order.Nat
import NovaNas.Base.Interleaving
import NovaNas.Replication.Job

/-!
# Concurrent calls on one job

`Manager.Run` and the PATCH handler on one job, cut where they touch what they share: the
stored row and the per-job lock. Any number of calls is in flight; an action is one such
step of one call, together with what the backend or the store answers. The state also counts
the writes of the row and keeps, with every copy of the job, the count at which it was read.
-/
namespace NovaNas.Replication

/-- Where a call stands. `seen` is the number of writes before its copy was read. -/
inductive Phase where
  | idle
  /-- `Run` holds a copy of the job. -/
  | read (job : Job) (seen : Nat)
  | locked (job : Job) (seen : Nat)
  | executing (job : Job) (seen : Nat)
  /-- The backend is done; a success carries the snapshot of the result. -/
  | executed (job : Job) (seen : Nat) (result : Option String)
  /-- The job is written back, the lock still held. -/
  | written
  /-- A PATCH holds a copy of the job. -/
  | editing (job : Job) (seen : Nat)
  | done
  deriving DecidableEq, Repr

inductive Event where
  /-- A send was started from a base. -/
  | sent (base : String)
  /-- A run succeeded with a snapshot. -/
  | succeeded (snapshot : String)
  /-- A PATCH was accepted and stored. -/
  | patched (req : JobRequest)
  deriving DecidableEq, Repr

structure State where
  job : Job
  /-- The call that holds the lock; `MemLocker` neither fails nor lets a lock expire. -/
  held : Option Nat
  calls : Nat → Phase
  writes : Nat
  /-- Newest event first. -/
  log : List Event

/-- The steps of the call with number `call`. -/
inductive Action where
  /-- `Run`: read the job and find its backend. -/
  | getJob (call : Nat)
  | tryLock (call : Nat)
  /-- Record the run and start the backend, unless the record cannot be stored. -/
  | execute (call : Nat) (stored : Bool)
  /-- The backend ends: with the short name of its snapshot, or with an error. -/
  | executed (call : Nat) (short : Option String)
  /-- Write the job back; `stored` is whether the store accepts it. -/
  | writeBack (call : Nat) (stored : Bool)
  /-- Update the run record and release the lock. -/
  | release (call : Nat)
  /-- PATCH: read the job. -/
  | get (call : Nat)
  /-- PATCH: decode, merge, validate and store; an undecodable body is `none`. -/
  | update (call : Nat) (req : Option JobRequest) (stored : Bool)
  deriving DecidableEq, Repr

/-- The call a step belongs to. -/
def Action.call : Action → Nat
  | .getJob call | .tryLock call | .execute call _ | .executed call _ | .writeBack call _
  | .release call | .get call | .update call _ _ => call

/-- The steps of `Manager.Run`. -/
def Action.ofRun : Action → Bool
  | .get _ | .update .. => false
  | _ => true

/-- The snapshot a successful run of a backend reports. -/
def runSnapshot (job : Job) (short : String) : String :=
  match job.backend with
  | .zfs => job.source.dataset ++ "@" ++ short
  | _ => ""

def State.move (st : State) (call : Nat) (phase : Phase) : State :=
  { st with calls := fun c => if c = call then phase else st.calls c }

def State.emit (st : State) (event : Event) : State := { st with log := event :: st.log }

/-- `UpdateReplicationJob` sets every column. -/
def State.updateJob (st : State) (job : Job) : State := { st with job, writes := st.writes + 1 }

/-- The row a successful run leaves: only a ZFS snapshot is recorded. -/
def writtenBack (job : Job) : Option String → Option Job
  | some snapshot => if job.backend = .zfs ∧ snapshot ≠ "" then
      some { job with lastSnapshot := snapshot } else none
  | none => none

section Steps

-- The backends the manager was built with.
variable (registered : BackendKind → Bool)

/-- The row an update stores, if it passes all checks. -/
def accepted (req : Option JobRequest) (existing : Job) : Option Job :=
  req.bind fun req =>
    let job := requestToJob req existing
    if job.validate.isNone && registered job.backend && (backendValidate job).isNone then some job
    else none

def step (st : State) : Action → Option State
  | .getJob call =>
    match st.calls call with
    | .idle =>
      if registered st.job.backend then some (st.move call (.read st.job st.writes))
      else some (st.move call .done)
    | _ => none
  | .tryLock call =>
    match st.calls call with
    | .read job seen =>
      match st.held with
      -- `ErrLocked`: the run ends without a record.
      | some _ => some (st.move call .done)
      | none => some { st.move call (.locked job seen) with held := some call }
    | _ => none
  | .execute call stored =>
    match st.calls call with
    | .locked job seen =>
      if stored then some ((st.move call (.executing job seen)).emit (.sent job.lastSnapshot))
      else some { st.move call .done with held := none }
    | _ => none
  | .executed call short =>
    match st.calls call with
    | .executing job seen =>
      match short with
      | some short =>
        let snapshot := runSnapshot job short
        some ((st.move call (.executed job seen (some snapshot))).emit (.succeeded snapshot))
      | none => some (st.move call (.executed job seen none))
    | _ => none
  | .writeBack call stored =>
    match st.calls call with
    | .executed job _ result =>
      -- A failed write back is logged only; the run still counts as a success.
      match writtenBack job result with
      | some job => if stored then some ((st.updateJob job).move call .written)
          else some (st.move call .written)
      | none => some (st.move call .written)
    | _ => none
  | .release call =>
    match st.calls call with
    | .written => some { st.move call .done with held := none }
    | _ => none
  | .get call =>
    match st.calls call with
    | .idle => some (st.move call (.editing st.job st.writes))
    | _ => none
  | .update call req stored =>
    match st.calls call with
    | .editing job _ =>
      -- No lock is taken: the handler writes whenever it gets here.
      match req, accepted registered req job with
      | some req, some job =>
        if stored then some (((st.updateJob job).move call .done).emit (.patched req))
        else some (st.move call .done)
      | _, _ => some (st.move call .done)
    | _ => none

end Steps

/-- No call has begun. -/
def start (job : Job) : State := ⟨job, none, fun _ => .idle, 0, []⟩

/-! ### What a step can do -/

/-- The effects of the steps, one case for each way a step can go. -/
inductive Took (registered : BackendKind → Bool) (st : State) : Action → State → Prop
  | reads {call : Nat} (idle : st.calls call = .idle) :
      Took registered st (.getJob call) (st.move call (.read st.job st.writes))
  | unregistered {call : Nat} (idle : st.calls call = .idle) :
      Took registered st (.getJob call) (st.move call .done)
  | busy {call : Nat} {job : Job} {seen : Nat} (at_ : st.calls call = .read job seen) :
      Took registered st (.tryLock call) (st.move call .done)
  | locks {call : Nat} {job : Job} {seen : Nat} (at_ : st.calls call = .read job seen)
      (free : st.held = none) :
      Took registered st (.tryLock call) { st.move call (.locked job seen) with held := some call }
  | starts {call : Nat} {job : Job} {seen : Nat} (at_ : st.calls call = .locked job seen) :
      Took registered st (.execute call true)
        ((st.move call (.executing job seen)).emit (.sent job.lastSnapshot))
  | unrecorded {call : Nat} {job : Job} {seen : Nat} (at_ : st.calls call = .locked job seen) :
      Took registered st (.execute call false) { st.move call .done with held := none }
  | succeeds {call : Nat} {job : Job} {seen : Nat} {short : String}
      (at_ : st.calls call = .executing job seen) :
      Took registered st (.executed call (some short))
        ((st.move call (.executed job seen (some (runSnapshot job short)))).emit
          (.succeeded (runSnapshot job short)))
  | fails {call : Nat} {job : Job} {seen : Nat} (at_ : st.calls call = .executing job seen) :
      Took registered st (.executed call none) (st.move call (.executed job seen none))
  | stores {call : Nat} {job job' : Job} {seen : Nat} {result : Option String}
      (at_ : st.calls call = .executed job seen result)
      (back : writtenBack job result = some job') :
      Took registered st (.writeBack call true) ((st.updateJob job').move call .written)
  | unstored {call : Nat} {job : Job} {seen : Nat} {result : Option String} {stored : Bool}
      (at_ : st.calls call = .executed job seen result)
      (nothing : stored = true → writtenBack job result = none) :
      Took registered st (.writeBack call stored) (st.move call .written)
  | releases {call : Nat} (at_ : st.calls call = .written) :
      Took registered st (.release call) { st.move call .done with held := none }
  | edits {call : Nat} (idle : st.calls call = .idle) :
      Took registered st (.get call) (st.move call (.editing st.job st.writes))
  | patches {call : Nat} {job job' : Job} {seen : Nat} {req : JobRequest}
      (at_ : st.calls call = .editing job seen)
      (passes : accepted registered (some req) job = some job') :
      Took registered st (.update call (some req) true)
        (((st.updateJob job').move call .done).emit (.patched req))
  | rejected {call : Nat} {job : Job} {seen : Nat} {req : Option JobRequest} {stored : Bool}
      (at_ : st.calls call = .editing job seen) :
      Took registered st (.update call req stored) (st.move call .done)

variable {registered : BackendKind → Bool} {st st' : State} {a : Action}

theorem took_of_step (took : step registered st a = some st') : Took registered st a st' := by
  cases a with
  | getJob call =>
    simp only [step] at took
    split at took
    next idle =>
      split at took <;> cases took
      · exact .reads idle
      · exact .unregistered idle
    next => cases took
  | tryLock call =>
    simp only [step] at took
    split at took
    next at_ =>
      split at took <;> cases took
      · exact .busy at_
      next free => exact .locks at_ free
    next => cases took
  | execute call stored =>
    simp only [step] at took
    split at took
    next at_ =>
      cases stored <;> cases took
      · exact .unrecorded at_
      · exact .starts at_
    next => cases took
  | executed call short =>
    simp only [step] at took
    split at took
    next at_ =>
      cases short <;> cases took
      · exact .fails at_
      · exact .succeeds at_
    next => cases took
  | writeBack call stored =>
    simp only [step] at took
    split at took
    next at_ =>
      split at took
      next back =>
        cases stored <;> cases took
        · exact .unstored at_ (by simp)
        · exact .stores at_ back
      next nothing => cases took; exact .unstored at_ fun _ => nothing
    next => cases took
  | release call =>
    simp only [step] at took
    split at took <;> cases took
    next at_ => exact .releases at_
  | get call =>
    simp only [step] at took
    split at took <;> cases took
    next idle => exact .edits idle
  | update call req stored =>
    simp only [step] at took
    split at took
    next at_ =>
      split at took
      next passes =>
        cases stored <;> cases took
        · exact .rejected at_
        · exact .patches at_ passes
      next => cases took; exact .rejected at_
    next => cases took

/-! ### Copies and the lock -/

/-- The copy of the job a call holds, with the writes before it was read. -/
def Phase.copy : Phase → Option (Job × Nat)
  | .read job seen | .locked job seen | .executing job seen | .executed job seen _
  | .editing job seen => some (job, seen)
  | _ => none

/-- The call is between taking and releasing the lock. -/
def Phase.critical : Phase → Bool
  | .locked .. | .executing .. | .executed .. | .written => true
  | _ => false

/-- The call inside the lock is its holder, and a copy since whose read nothing was written is
the stored row. -/
structure Sound (st : State) : Prop where
  holder : ∀ call, (st.calls call).critical = true ↔ st.held = some call
  fresh : ∀ call job seen, (st.calls call).copy = some (job, seen) →
    seen ≤ st.writes ∧ (seen = st.writes → job = st.job)

@[simp] theorem move_self (st : State) (call : Nat) (phase : Phase) :
    (st.move call phase).calls call = phase := by
  simp [State.move]

@[simp] theorem move_fields (st : State) (call : Nat) (phase : Phase) :
    (st.move call phase).job = st.job ∧ (st.move call phase).held = st.held ∧
      (st.move call phase).writes = st.writes ∧ (st.move call phase).log = st.log :=
  ⟨rfl, rfl, rfl, rfl⟩

@[simp] theorem emit_fields (st : State) (event : Event) :
    (st.emit event).job = st.job ∧ (st.emit event).held = st.held ∧
      (st.emit event).calls = st.calls ∧ (st.emit event).writes = st.writes ∧
      (st.emit event).log = event :: st.log :=
  ⟨rfl, rfl, rfl, rfl, rfl⟩

@[simp] theorem updateJob_fields (st : State) (job : Job) :
    (st.updateJob job).job = job ∧ (st.updateJob job).held = st.held ∧
      (st.updateJob job).calls = st.calls ∧ (st.updateJob job).writes = st.writes + 1 ∧
      (st.updateJob job).log = st.log :=
  ⟨rfl, rfl, rfl, rfl, rfl⟩

theorem move_other (st : State) {call other : Nat} (phase : Phase) (ne : other ≠ call) :
    (st.move call phase).calls other = st.calls other := by
  simp [State.move, ne]

/-- A step changes the phase of its own call only. -/
theorem Took.other (took : Took registered st a st') {call : Nat} (ne : call ≠ a.call) :
    st'.calls call = st.calls call := by
  cases took <;> exact move_other st _ ne

theorem Took.writes_le (took : Took registered st a st') : st.writes ≤ st'.writes := by
  cases took with
  | stores | patches => exact Nat.le_succ _
  | _ => exact le_rfl

theorem sound_start (job : Job) : Sound (start job) :=
  ⟨fun _ => by simp [start, Phase.critical],
    fun _ _ _ copied => by simp [start, Phase.copy] at copied⟩

/-- One call moves on, and others keep the lock and the row they know. -/
theorem Sound.of_move {call : Nat} {phase : Phase} (sound : Sound st)
    (moved : st'.calls = (st.move call phase).calls)
    (lock : ∀ other, other ≠ call → (st'.held = some other ↔ st.held = some other))
    (own : phase.critical = true ↔ st'.held = some call)
    (grows : st.writes ≤ st'.writes) (row : st'.writes = st.writes → st'.job = st.job)
    (copy : ∀ job seen, phase.copy = some (job, seen) →
      seen ≤ st'.writes ∧ (seen = st'.writes → job = st'.job)) : Sound st' where
  holder c := by
    rw [moved]
    by_cases same : c = call
    · subst same
      rw [move_self, own]
    · rw [move_other st phase same, sound.holder c, lock c same]
  fresh c job seen copied := by
    rw [moved] at copied
    by_cases same : c = call
    · subst same
      exact copy job seen (by simpa using copied)
    · rw [move_other st phase same] at copied
      obtain ⟨le, known⟩ := sound.fresh c job seen copied
      refine ⟨le.trans grows, fun last => ?_⟩
      have unwritten : st'.writes = st.writes := by omega
      rw [row unwritten]
      exact known (last.trans unwritten)

/-- A step that leaves lock and row alone and takes no new copy. -/
theorem Sound.of_quiet {call : Nat} {phase : Phase} (sound : Sound st)
    (moved : st'.calls = (st.move call phase).calls) (held : st'.held = st.held)
    (writes : st'.writes = st.writes) (row : st'.job = st.job)
    (own : phase.critical = (st.calls call).critical)
    (copy : phase.copy = none ∨ phase.copy = (st.calls call).copy) : Sound st' := by
  refine sound.of_move moved (fun other _ => by rw [held]) ?_ writes.ge (fun _ => row) ?_
  · rw [held, own, sound.holder call]
  · intro job seen copied
    rcases copy with none | kept
    · rw [none] at copied
      cases copied
    · rw [writes, row]
      exact sound.fresh call job seen (kept ▸ copied)

theorem Sound.held_eq {call : Nat} (sound : Sound st)
    (inside : (st.calls call).critical = true) : st.held = some call :=
  (sound.holder call).mp inside

theorem Sound.held_ne {call : Nat} (sound : Sound st)
    (outside : (st.calls call).critical = false) : st.held ≠ some call := fun held => by
  rw [(sound.holder call).mpr held] at outside
  cases outside

theorem Sound.step (sound : Sound st) (took : Took registered st a st') : Sound st' := by
  -- A copy taken by this very step.
  have current : ∀ job seen, some (st.job, st.writes) = some (job, seen) →
      seen ≤ st.writes ∧ (seen = st.writes → job = st.job) := by
    rintro _ _ ⟨⟩
    exact ⟨le_rfl, fun _ => rfl⟩
  cases took with
  | reads idle | edits idle =>
    refine sound.of_move rfl (fun _ _ => .rfl) ?_ le_rfl (fun _ => rfl) current
    simpa [Phase.critical] using sound.held_ne (by rw [idle]; rfl)
  | unregistered at_ | busy at_ | rejected at_ =>
    exact sound.of_quiet rfl rfl rfl rfl (by rw [at_]; rfl) (.inl rfl)
  | locks at_ free =>
    refine sound.of_move rfl (fun other ne => ?_) (by simp [Phase.critical]) le_rfl
      (fun _ => rfl) ?_
    · simp [free, ne.symm]
    · intro job seen copied
      exact sound.fresh _ job seen (by rw [at_]; exact copied)
  | starts at_ | succeeds at_ | fails at_ =>
    exact sound.of_quiet rfl rfl rfl rfl (by rw [at_]; rfl) (.inr (by rw [at_]; rfl))
  | unstored at_ _ => exact sound.of_quiet rfl rfl rfl rfl (by rw [at_]; rfl) (.inl rfl)
  | unrecorded at_ | releases at_ =>
    refine sound.of_move rfl (fun other ne => ?_) (by simp [Phase.critical]) le_rfl (fun _ => rfl)
      (by simp [Phase.copy])
    simp [sound.held_eq (by rw [at_]; rfl), ne.symm]
  | stores at_ _ =>
    -- Every other copy is behind the row from here on.
    refine sound.of_move rfl (fun _ _ => .rfl) ?_ (Nat.le_succ _) (fun same => ?_)
      (by simp [Phase.copy])
    · simpa [Phase.critical] using sound.held_eq (by rw [at_]; rfl)
    · exact absurd same (Nat.succ_ne_self _)
  | patches at_ _ =>
    refine sound.of_move rfl (fun _ _ => .rfl) ?_ (Nat.le_succ _) (fun same => ?_)
      (by simp [Phase.copy])
    · simpa [Phase.critical] using sound.held_ne (by rw [at_]; rfl)
    · exact absurd same (Nat.succ_ne_self _)

end NovaNas.Replication
