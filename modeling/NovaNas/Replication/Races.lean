import NovaNas.Replication.Calls

/-!
# Stale bases and lost updates

Both `Run` and PATCH read the whole row, work on their copy and write the whole row back, and
`Run` reads before it takes the lock. A run that was overtaken sends from a stale base, and
whoever writes from an old copy takes back what was stored in between. When no write lands
between a read and what is done with the copy, the row is what replaying the accepted requests
and the successful runs, in order, gives.
-/
namespace NovaNas.Replication

open Interleaving (run)

/-! ### What the row should be -/

/-- The events of a log, newest first, replayed on a job. -/
def replay (first : Job) : List Event → Job
  | [] => first
  | .patched req :: older => requestToJob req (replay first older)
  | .succeeded snapshot :: older => { replay first older with lastSnapshot := snapshot }
  | .sent _ :: older => replay first older

def Event.sets (f : Field) : Event → Option f.type
  | .patched req => f.sets req
  | _ => none

/-- The snapshot a run reports, or a request sets explicitly. -/
def Event.setsSnapshot : Event → Option String
  | .patched req => req.lastSnapshot
  | .succeeded snapshot => some snapshot
  | .sent _ => none

theorem replay_id (first : Job) (log : List Event) : (replay first log).id = first.id := by
  induction log with
  | nil => rfl
  | cons e older ih => cases e <;> exact ih

theorem config_lastSnapshot (job : Job) (snapshot : String) :
    ∀ f ∈ configFields, f.get { job with lastSnapshot := snapshot } = f.get job := by
  simp [configFields]

/-- A configuration field ends with the value of the last request that set it. -/
theorem replay_get {first : Job} (stored : first.id ≠ 0) (log : List Event) :
    ∀ f ∈ configFields,
      f.get (replay first log) = (log.findSome? (Event.sets f)).getD (f.get first) := by
  intro f known
  induction log with
  | nil => rfl
  | cons e older ih =>
    cases e with
    | patched req =>
      rw [replay, requestToJob_get (replay_id first older ▸ stored) f known, ih,
        List.findSome?_cons, Event.sets]
      cases f.sets req <;> rfl
    | succeeded snapshot =>
      rw [replay, config_lastSnapshot _ snapshot f known, ih]
      rfl
    | sent base => exact ih

theorem replay_lastSnapshot (first : Job) (log : List Event) :
    (replay first log).lastSnapshot =
      (log.findSome? Event.setsSnapshot).getD first.lastSnapshot := by
  induction log with
  | nil => rfl
  | cons e older ih =>
    cases e with
    | patched req =>
      rw [replay, requestToJob, ih, List.findSome?_cons, Event.setsSnapshot]
      cases req.lastSnapshot <;> rfl
    | succeeded snapshot => rfl
    | sent base => exact ih

/-! ### What is still to be written -/

/-- The snapshot of a successful run that is to be written back. -/
def Phase.pending : Phase → Option String
  | .executed job _ result => (writtenBack job result).map Job.lastSnapshot
  | _ => none

def State.pending (st : State) : Option String :=
  st.held.bind fun call => (st.calls call).pending

/-- The row once the pending snapshot is written. -/
def State.intended (st : State) : Job :=
  { st.job with lastSnapshot := st.pending.getD st.job.lastSnapshot }

section Kept

variable {registered : BackendKind → Bool} {first : Job} {st st' : State} {a : Action}

theorem intended_of_none (nothing : st.pending = none) : st.intended = st.job := by
  rw [State.intended, nothing]
  rfl

theorem pending_of_held {call : Nat} {phase : Phase} (held : st.held = some call)
    (at_ : st.calls call = phase) : st.pending = phase.pending := by
  simp [State.pending, held, at_]

theorem exists_of_pending {snapshot : String} (pending : st.pending = some snapshot) :
    ∃ call job seen result, st.held = some call ∧ st.calls call = .executed job seen result ∧
      writtenBack job result ≠ none := by
  obtain ⟨call, held, waits⟩ := Option.bind_eq_some_iff.mp pending
  unfold Phase.pending at waits
  split at waits
  next job seen result at_ =>
    exact ⟨call, job, seen, result, held, at_, fun nothing => by simp [nothing] at waits⟩
  next => cases waits

/-- A call outside the lock moves on. -/
theorem pending_of_outside {call : Nat} {phase : Phase} (outside : st.held ≠ some call)
    (moved : st'.calls = (st.move call phase).calls) (held : st'.held = st.held) :
    st'.pending = st.pending := by
  unfold State.pending
  rw [held]
  cases lock : st.held with
  | none => rfl
  | some other =>
    have ne : other ≠ call := fun same => outside (same ▸ lock)
    simp [moved, move_other st phase ne]

theorem writtenBack_eq {job job' : Job} {result : Option String}
    (back : writtenBack job result = some job') :
    ∃ snapshot, result = some snapshot ∧ job' = { job with lastSnapshot := snapshot } := by
  unfold writtenBack at back
  split at back
  next snapshot =>
    split at back
    next => exact ⟨snapshot, rfl, (Option.some.inj back).symm⟩
    next => cases back
  next => cases back

theorem accepted_eq {req : JobRequest} {job job' : Job}
    (passes : accepted registered (some req) job = some job') : job' = requestToJob req job := by
  simp only [accepted, Option.bind_some] at passes
  split at passes
  next => exact (Option.some.inj passes).symm
  next => cases passes

theorem writtenBack_runSnapshot {job : Job} (zfs : job.backend = .zfs) (short : String) :
    writtenBack job (some (runSnapshot job short)) =
      some { job with lastSnapshot := runSnapshot job short } := by
  have named : runSnapshot job short ≠ "" := by
    intro empty
    have chars := congrArg String.toList empty
    simp [runSnapshot, zfs] at chars
  simp [writtenBack, zfs, named]

/-- Other backends report no snapshot. -/
theorem runSnapshot_other {job : Job} (other : job.backend ≠ .zfs) (short : String) :
    runSnapshot job short = "" := by
  unfold runSnapshot
  split
  next zfs => exact absurd zfs other
  next => rfl

/-! ### Writes from fresh copies -/

/-- A step is fresh when what it stores was read after the last write, and its store accepts
it. A success of another backend than ZFS, which reports no snapshot, comes while none is stored. -/
def freshWrite (registered : BackendKind → Bool) (st : State) : Action → Bool
  | .executed call (some _) =>
    match st.calls call with
    | .executing job _ => job.backend = .zfs || st.job.lastSnapshot = ""
    | _ => true
  | .writeBack call stored =>
    match st.calls call with
    | .executed job seen result => (writtenBack job result).isNone || stored && seen == st.writes
    | _ => true
  | .update call req stored =>
    match st.calls call with
    | .editing job seen => (accepted registered req job).isNone || !stored || seen == st.writes
    | _ => true
  | _ => true

/-- A run has succeeded but its copy is older than the row: it cannot write freshly any more. -/
def Doomed (st : State) : Prop :=
  ∃ call job seen result, st.calls call = .executed job seen result ∧
    writtenBack job result ≠ none ∧ seen < st.writes

/-- The row is as intended, unless a run can only end with a stale write. -/
structure Kept (first : Job) (st : State) : Prop where
  sound : Sound st
  row : replay first st.log = st.intended ∨ Doomed st

theorem kept_start (job : Job) : Kept job (start job) :=
  ⟨sound_start job, .inl rfl⟩

theorem doomed_step (took : Took registered st a st')
    (fresh : freshWrite registered st a = true) (doomed : Doomed st) : Doomed st' := by
  obtain ⟨call, job, seen, result, at_, back, old⟩ := doomed
  have later := took.writes_le
  by_cases own : call = a.call
  · -- Its own next step is the stale write the guard excludes.
    subst own
    cases took with
    | stores before | unstored before =>
      simp only [Action.call] at at_
      simp only [freshWrite, at_, Bool.or_eq_true, Option.isNone_iff_eq_none, Bool.and_eq_true,
        beq_iff_eq] at fresh
      rcases fresh with nothing | ⟨-, last⟩
      · exact absurd nothing back
      · omega
    | _ =>
      simp only [Action.call] at at_
      simp_all
  · exact ⟨call, job, seen, result, (took.other own).trans at_, back, by omega⟩

/-- A step that neither stores nor settles anything. -/
theorem replay_of_same (row : replay first st.log = st.intended)
    (log : replay first st'.log = replay first st.log) (pending : st'.pending = st.pending)
    (same : st'.job = st.job) : replay first st'.log = st'.intended := by
  rw [log, row, State.intended, State.intended, pending, same]

/-- Fresh writes keep the row as intended, or leave a run behind that cannot end freshly. -/
theorem intended_step (kept : Kept first st) (took : Took registered st a st')
    (fresh : freshWrite registered st a = true) (row : replay first st.log = st.intended) :
    replay first st'.log = st'.intended ∨ Doomed st' := by
  have sound := kept.sound
  cases took with
  | reads at_ | edits at_ | unregistered at_ | busy at_ | rejected at_ =>
    refine .inl (replay_of_same row rfl ?_ rfl)
    exact pending_of_outside (sound.held_ne (by rw [at_]; rfl)) rfl rfl
  | locks at_ free =>
    refine .inl (replay_of_same row rfl ?_ rfl)
    simp [State.pending, free, Phase.pending]
  | starts at_ | fails at_ | unrecorded at_ | releases at_ =>
    have held := sound.held_eq (by rw [at_]; rfl)
    refine .inl (replay_of_same row rfl ?_ rfl)
    simp [State.pending, held, at_, Phase.pending, writtenBack]
  | @succeeds call job seen short at_ =>
    have held := sound.held_eq (by rw [at_]; rfl)
    have nothing : st.pending = none := pending_of_held held at_
    rw [intended_of_none nothing] at row
    refine .inl ?_
    by_cases zfs : job.backend = .zfs
    · -- The row is still the old one, and the new snapshot is pending.
      simp [replay, row, State.intended, State.pending, held, Phase.pending,
        writtenBack_runSnapshot zfs]
    · simp only [freshWrite, at_, zfs, decide_false, Bool.false_or, decide_eq_true_eq] at fresh
      simp [replay, row, State.intended, State.pending, held, Phase.pending, writtenBack, zfs,
        runSnapshot_other zfs, ← fresh]
  | stores at_ back =>
    obtain ⟨snapshot, rfl, rfl⟩ := writtenBack_eq back
    have held := sound.held_eq (by rw [at_]; rfl)
    simp only [freshWrite, at_, back, Option.isNone_some, Bool.false_or, Bool.true_and,
      beq_iff_eq] at fresh
    -- Nothing was written since the copy was read, so the copy is the row.
    have current := (sound.fresh _ _ _ (by rw [at_]; rfl)).2 fresh
    rw [current] at back
    refine .inl ?_
    simp [row, State.intended, State.pending, held, at_, Phase.pending, current, back]
  | unstored at_ nothing =>
    have held := sound.held_eq (by rw [at_]; rfl)
    simp only [freshWrite, at_, Bool.or_eq_true, Option.isNone_iff_eq_none, Bool.and_eq_true,
      beq_iff_eq] at fresh
    -- A fresh step stores what there is to store, so there was nothing.
    have unwritten := fresh.elim id fun ⟨stored, _⟩ => nothing stored
    refine .inl (replay_of_same row rfl ?_ rfl)
    simp [State.pending, held, at_, Phase.pending, unwritten]
  | @patches call _ _ _ _ at_ passes =>
    have outside := sound.held_ne (by rw [at_]; rfl)
    simp only [freshWrite, at_, passes, Option.isNone_some, Bool.false_or, Bool.not_true,
      beq_iff_eq] at fresh
    have current := (sound.fresh _ _ _ (by rw [at_]; rfl)).2 fresh
    obtain rfl := accepted_eq passes
    cases pending : st.pending with
    | none =>
      rw [intended_of_none pending] at row
      refine .inl (Eq.trans ?_ (intended_of_none ?_).symm)
      · simp [replay, row, current]
      · exact (pending_of_outside outside rfl rfl).trans pending
    | some snapshot =>
      -- A run waits with a snapshot, and its copy is now older than the row.
      obtain ⟨other, job, seen, result, held, waits, back⟩ := exists_of_pending pending
      have ne : other ≠ call := fun same => outside (same ▸ held)
      refine .inr ⟨other, job, seen, result, (move_other _ _ ne).trans waits, back,
        Nat.lt_succ_of_le ?_⟩
      exact (sound.fresh other job seen (by rw [waits]; rfl)).1

theorem Kept.step (kept : Kept first st) (took : Took registered st a st')
    (fresh : freshWrite registered st a = true) : Kept first st' where
  sound := kept.sound.step took
  row := kept.row.elim (intended_step kept took fresh) fun doomed =>
    .inr (doomed_step took fresh doomed)

end Kept

/-- All calls have ended. -/
def State.quiet (st : State) : Prop := ∀ call, st.calls call = .idle ∨ st.calls call = .done

theorem quiet_intended {st : State} (quiet : st.quiet) : st.intended = st.job ∧ ¬ Doomed st := by
  constructor
  · refine intended_of_none ?_
    unfold State.pending
    cases st.held with
    | none => rfl
    | some call => rcases quiet call with at_ | at_ <;> simp [at_, Phase.pending]
  · rintro ⟨call, job, seen, result, at_, -⟩
    rcases quiet call with ended | ended <;> simp [ended] at at_

/-- Runs and PATCH requests on one job in any interleaving, all their writes fresh: when all
have ended, every configuration field has the value of the last request that set it, and
`last_snapshot` that of the last successful run or later request. -/
theorem fresh_writes_lose_nothing (registered : BackendKind → Bool) (job : Job)
    (stored : job.id ≠ 0) (actions : List Action) (st : State)
    (ran : run (step registered) (start job) actions = some st)
    (fresh : Interleaving.Guarded (step registered) (fun st a => freshWrite registered st a = true)
      (start job) actions)
    (quiet : st.quiet) :
    (∀ f ∈ configFields, f.get st.job = (st.log.findSome? (Event.sets f)).getD (f.get job)) ∧
      st.job.lastSnapshot = (st.log.findSome? Event.setsSnapshot).getD job.lastSnapshot := by
  have kept : Kept job st := Interleaving.run_induction _
    (fun _ _ _ kept fresh took => kept.step (took_of_step took) fresh) (kept_start job) fresh ran
  obtain ⟨settled, ends⟩ := quiet_intended quiet
  have row : replay job st.log = st.job := (kept.row.resolve_right ends).trans settled
  rw [← row]
  exact ⟨replay_get stored st.log, replay_lastSnapshot job st.log⟩

/-! ### A nightly job -/

def nightly : Job where
  id := 1
  name := "nightly"
  backend := .zfs
  direction := .push
  source := { dataset := "tank/data" }
  destination := { dataset := "backup/data", host := "peer" }
  schedule := ""
  retention := {}
  enabled := true
  secretRef := ""
  lastSnapshot := ""

/-- A run from reading the job to releasing the lock, with a success. -/
def runSteps (call : Nat) (short : String) : List Action :=
  [.tryLock call, .execute call true, .executed call (some short), .writeBack call true,
    .release call]

/-- A request that sets one field. -/
def disable : JobRequest := { enabled := some false }

/-- A run, then a request: nothing is lost. -/
theorem fresh_writes_lose_nothing_nightly :
    ∃ st, run (step fun _ => true) (start nightly)
        (.getJob 1 :: runSteps 1 "repl-1" ++ [.get 2, .update 2 (some disable) true]) = some st ∧
      (∀ f ∈ configFields, f.get st.job = (st.log.findSome? (Event.sets f)).getD (f.get nightly)) ∧
      st.job.lastSnapshot = (st.log.findSome? Event.setsSnapshot).getD nightly.lastSnapshot := by
  refine ⟨_, rfl, fresh_writes_lose_nothing (fun _ => true) nightly (by decide)
    (.getJob 1 :: runSteps 1 "repl-1" ++ [.get 2, .update 2 (some disable) true]) _ rfl
    (by decide) ?_⟩
  rintro (_ | _ | _ | call)
  · exact .inl rfl
  · exact .inr rfl
  · exact .inr rfl
  · exact .inl rfl

/-- A request that was stored while a run had its copy, and a run that ended while a request
had its copy: the first loses the request's change, the second the run's snapshot. -/
theorem update_lost :
    (∃ st, run (step fun _ => true) (start nightly)
        (.getJob 1 :: [.get 2, .update 2 (some disable) true] ++ runSteps 1 "repl-1") = some st ∧
      st.quiet ∧ st.log = [.succeeded "tank/data@repl-1", .sent "", .patched disable] ∧
      st.job.enabled = true) ∧
    (∃ st, run (step fun _ => true) (start nightly)
        (.get 2 :: .getJob 1 :: runSteps 1 "repl-1" ++ [.update 2 (some disable) true]) = some st ∧
      st.quiet ∧ st.log = [.patched disable, .succeeded "tank/data@repl-1", .sent ""] ∧
      st.job.lastSnapshot = "") := by
  refine ⟨⟨_, rfl, ?_, rfl, rfl⟩, ⟨_, rfl, ?_, rfl, rfl⟩⟩ <;>
  · rintro (_ | _ | _ | call)
    · exact .inl rfl
    · exact .inr rfl
    · exact .inr rfl
    · exact .inl rfl

/-! ### The lock -/

/-- Runs and PATCH requests on one job in any interleaving, whatever fails: no two runs are
between taking and releasing the lock, and the lock is free when all calls have ended. -/
theorem runs_exclude_each_other (registered : BackendKind → Bool) (job : Job)
    (actions : List Action) (st : State)
    (ran : run (step registered) (start job) actions = some st) :
    (∀ i j, (st.calls i).critical = true → (st.calls j).critical = true → i = j) ∧
      (st.quiet → st.held = none) := by
  have sound : Sound st := Interleaving.run_invariant _
    (fun _ _ _ sound took => sound.step (took_of_step took)) (sound_start job) ran
  refine ⟨fun i j first second => ?_, fun quiet => Option.eq_none_iff_forall_ne_some.mpr ?_⟩
  · exact Option.some.inj ((sound.held_eq first).symm.trans (sound.held_eq second))
  · intro i
    refine sound.held_ne ?_
    rcases quiet i with at_ | at_ <;> rw [at_] <;> rfl

/-- One of two runs has the lock. -/
theorem runs_exclude_each_other_nightly :
    ∃ st, run (step fun _ => true) (start nightly)
        [.getJob 1, .getJob 2, .tryLock 1] = some st ∧
      ∀ i, (st.calls i).critical = true → i = 1 :=
  ⟨_, rfl, fun i inside => (runs_exclude_each_other (fun _ => true) nightly
    [.getJob 1, .getJob 2, .tryLock 1] _ rfl).1 i 1 inside rfl⟩

/-! ### Bases of sends -/

def Event.snapshot : Event → Option String
  | .succeeded snapshot => some snapshot
  | _ => none

/-- The snapshot of the most recently succeeded run, or what was there before. -/
def latest (first : String) (log : List Event) : String := (log.findSome? Event.snapshot).getD first

/-- Every send started from the most recent snapshot at its time. -/
def SendsFromLatest (first : String) (log : List Event) : Prop :=
  ∀ newer base older, log = newer ++ .sent base :: older → base = latest first older

theorem SendsFromLatest.cons {first : String} {log : List Event} {e : Event}
    (sends : SendsFromLatest first log) (next : ∀ base, e = .sent base → base = latest first log) :
    SendsFromLatest first (e :: log) := by
  intro newer base older shape
  cases newer with
  | nil =>
    obtain ⟨rfl, rfl⟩ := List.cons.inj shape
    exact next base rfl
  | cons _ newer => exact sends newer base older (List.cons.inj shape).2

/-- A lock is taken freshly when the row was not written since the call read it; the store
accepts what runs write back. -/
def freshLock (st : State) : Action → Bool
  | .tryLock call =>
    match st.calls call with
    | .read _ seen => st.held.isSome || seen == st.writes
    | _ => true
  | .writeBack _ stored => stored
  | _ => true

/-- Runs only, each with the lock taken freshly: inside the lock the copy is the row. -/
structure Serial (first : Job) (st : State) : Prop where
  kept : Kept first st
  current : ∀ call job seen, (st.calls call).critical = true →
    (st.calls call).copy = some (job, seen) → seen = st.writes
  zfs : st.job.backend = .zfs
  unpatched : ∀ req, .patched req ∉ st.log
  sends : SendsFromLatest first.lastSnapshot st.log

section Serial

variable {registered : BackendKind → Bool} {first : Job} {st st' : State} {a : Action}

theorem Serial.copy_eq {call : Nat} {job : Job} {seen : Nat}
    (serial : Serial first st) (inside : (st.calls call).critical = true)
    (copied : (st.calls call).copy = some (job, seen)) : job = st.job :=
  (serial.kept.sound.fresh call job seen copied).2 (serial.current call job seen inside copied)

/-- Without requests the last snapshot is that of the last successful run. -/
theorem setsSnapshot_eq {log : List Event} (unpatched : ∀ req, .patched req ∉ log) :
    log.findSome? Event.setsSnapshot = log.findSome? Event.snapshot := by
  induction log with
  | nil => rfl
  | cons e older ih =>
    have rest := ih fun req member => unpatched req (.tail e member)
    cases e with
    | patched req => exact absurd List.mem_cons_self (unpatched req)
    | succeeded snapshot => rfl
    | sent base => exact rest

section

variable (serial : Serial first st)
include serial

/-- While no snapshot is pending the row holds the latest one. -/
theorem Serial.lastSnapshot_eq (nothing : st.pending = none) :
    st.job.lastSnapshot = latest first.lastSnapshot st.log := by
  -- Inside the lock copies are current, so no run is bound to a stale write.
  have notDoomed : ¬ Doomed st := by
    rintro ⟨call, job, seen, result, at_, -, old⟩
    have last := serial.current call job seen (by rw [at_]; rfl) (by rw [at_]; rfl)
    omega
  have row := serial.kept.row.resolve_right notDoomed
  rw [intended_of_none nothing] at row
  rw [← row, replay_lastSnapshot, setsSnapshot_eq serial.unpatched, latest]

theorem Serial.freshWrite (ofRun : a.ofRun = true) (fresh : freshLock st a = true) :
    Replication.freshWrite registered st a = true := by
  cases a with
  | executed call short =>
    cases short with
    | none => rfl
    | some short =>
      simp only [Replication.freshWrite]
      split
      next at_ => simp [serial.copy_eq (by rw [at_]; rfl) (by rw [at_]; rfl), serial.zfs]
      next => rfl
  | writeBack call stored =>
    simp only [Replication.freshWrite]
    split
    next job seen result at_ =>
      have last := serial.current call job seen (by rw [at_]; rfl) (by rw [at_]; rfl)
      have accepted : stored = true := fresh
      simp [accepted, last]
    next => rfl
  | update => cases ofRun
  | _ => rfl

/-- While a run is inside the lock nobody else writes. -/
theorem Serial.writes_eq (took : Took registered st a st') (ofRun : a.ofRun = true) {call : Nat}
    (inside : (st.calls call).critical = true) (other : call ≠ a.call) :
    st'.writes = st.writes := by
  cases took with
  | stores at_ =>
    have mine := serial.kept.sound.held_eq inside
    have theirs := serial.kept.sound.held_eq (by rw [at_]; rfl)
    exact absurd (Option.some.inj (mine.symm.trans theirs)) other
  | patches => cases ofRun
  | _ => rfl

theorem Serial.current_step (took : Took registered st a st') (ofRun : a.ofRun = true)
    (fresh : freshLock st a = true) (call : Nat) (job : Job) (seen : Nat)
    (inside : (st'.calls call).critical = true) (copied : (st'.calls call).copy = some (job, seen)) :
    seen = st'.writes := by
  by_cases own : call = a.call
  · subst own
    cases took with
    -- The guard is what makes the copy current at the moment of locking.
    | locks at_ free =>
      simp only [freshLock, at_, free, Option.isSome_none, Bool.false_or, beq_iff_eq] at fresh
      simp only [Action.call, move_self, Phase.copy, Option.some.injEq, Prod.mk.injEq] at copied
      exact copied.2.symm.trans fresh
    | starts at_ | succeeds at_ | fails at_ =>
      simp only [Action.call, emit_fields, move_self, Phase.copy] at copied
      exact serial.current _ job seen (by rw [at_]; rfl) (by rw [at_]; exact copied)
    | _ => simp [Action.call, Phase.critical, Phase.copy] at inside copied
  · rw [took.other own] at inside copied
    rw [serial.writes_eq took ofRun inside own]
    exact serial.current call job seen inside copied

theorem Serial.step (took : Took registered st a st') (ofRun : a.ofRun = true)
    (fresh : freshLock st a = true) : Serial first st' where
  kept := serial.kept.step took (serial.freshWrite ofRun fresh)
  current := serial.current_step took ofRun fresh
  zfs := by
    cases took with
    | stores at_ back =>
      obtain ⟨snapshot, -, rfl⟩ := writtenBack_eq back
      have same := serial.copy_eq (by rw [at_]; rfl) (by rw [at_]; rfl)
      simpa [same] using serial.zfs
    | patches => cases ofRun
    | _ => exact serial.zfs
  unpatched := by
    cases took with
    | starts | succeeds => simpa using serial.unpatched
    | patches => cases ofRun
    | _ => exact serial.unpatched
  sends := by
    cases took with
    | starts at_ =>
      refine serial.sends.cons fun base equal => ?_
      obtain rfl := Event.sent.inj equal
      -- The sender holds the lock and its copy is the row, which has the latest snapshot.
      have held := serial.kept.sound.held_eq (by rw [at_]; rfl)
      have same := serial.copy_eq (by rw [at_]; rfl) (by rw [at_]; rfl)
      rw [same]
      exact serial.lastSnapshot_eq (pending_of_held held at_)
    | succeeds => exact serial.sends.cons (by simp)
    | patches => cases ofRun
    | _ => exact serial.sends

end

theorem serial_start {job : Job} (zfs : job.backend = .zfs) : Serial job (start job) where
  kept := kept_start job
  current _ _ _ inside := by simp [start, Phase.critical] at inside
  zfs := zfs
  unpatched _ := by simp [start]
  sends := by
    intro newer base older shape
    simp [start] at shape

end Serial

/-- Runs of one ZFS job in any interleaving, with backends that succeed or fail as they like:
when no write lands between the read of a run and its taking the lock, every send starts from
the snapshot of the most recently succeeded run. -/
theorem fresh_locks_send_from_latest (registered : BackendKind → Bool) (job : Job)
    (zfs : job.backend = .zfs) (actions : List Action) (st : State)
    (ran : run (step registered) (start job) actions = some st)
    (fresh : Interleaving.Guarded (step registered)
      (fun st a => a.ofRun = true ∧ freshLock st a = true) (start job) actions) :
    SendsFromLatest job.lastSnapshot st.log :=
  (Interleaving.run_induction _ (fun _ _ _ serial guard took =>
    serial.step (took_of_step took) guard.1 guard.2) (serial_start zfs) fresh ran).sends

/-- Two runs one after the other: the second sends from the first one's snapshot. -/
theorem fresh_locks_send_from_latest_nightly :
    ∃ st, run (step fun _ => true) (start nightly)
        (.getJob 1 :: runSteps 1 "repl-1" ++ .getJob 2 :: runSteps 2 "repl-2") = some st ∧
      st.log = [.succeeded "tank/data@repl-2", .sent "tank/data@repl-1",
        .succeeded "tank/data@repl-1", .sent ""] ∧
      SendsFromLatest "" st.log :=
  ⟨_, rfl, rfl, fresh_locks_send_from_latest (fun _ => true) nightly rfl
    (.getJob 1 :: runSteps 1 "repl-1" ++ .getJob 2 :: runSteps 2 "repl-2") _ rfl (by decide)⟩

/-- The second run reads the job before the first one is done and takes the lock after it: it
sends from the empty base although a run has succeeded. -/
theorem stale_base_sent :
    ∃ st, run (step fun _ => true) (start nightly)
        (.getJob 1 :: .getJob 2 :: runSteps 1 "repl-1" ++ [.tryLock 2, .execute 2 true]) = some st ∧
      st.log = [.sent "", .succeeded "tank/data@repl-1", .sent ""] ∧
      latest nightly.lastSnapshot [.succeeded "tank/data@repl-1", .sent ""] = "tank/data@repl-1" ∧
      ¬ SendsFromLatest nightly.lastSnapshot st.log := by
  refine ⟨_, rfl, rfl, rfl, fun sends => ?_⟩
  have base := sends [] "" [.succeeded "tank/data@repl-1", .sent ""] rfl
  revert base
  decide

end NovaNas.Replication
