import NovaNas.Scheduler.Prune

/-!
# Watching the attempts of a schedule

The tables keep only the last result of a replication schedule. To speak about all its
attempts, the environment is given a memory: it answers as before and notes what each attempt
listed and sent. A run with the memory is the run without it, so what holds of the notes holds
of the scheduler.
-/
namespace NovaNas.Scheduler

open Clock Text

variable {σ τ : Type}

/-! ### Environments with a memory -/

/-- What `fine` does, seen through `view`, is what `coarse` does. -/
structure Projects (fine : Environment τ) (coarse : Environment σ) (view : τ → σ) : Prop where
  query : ∀ q w, coarse.query q (view w) = Prod.map id view (fine.query q w)
  order : ∀ (w : τ) {α : Type} (rows : List α), coarse.order (view w) rows = fine.order w rows
  create : ∀ dataset short recursive w, coarse.create dataset short recursive (view w) =
    Prod.map id view (fine.create dataset short recursive w)
  destroy : ∀ name w, coarse.destroy name (view w) = Prod.map id view (fine.destroy name w)
  list : ∀ root w, coarse.list root (view w) = Prod.map id view (fine.list root w)
  transport : coarse.transport = fine.transport
  transfer : ∀ target dst full opts w, coarse.transfer target dst full opts (view w) =
    Prod.map id view (fine.transfer target dst full opts w)
  quote : coarse.quote = fine.quote

def State.seen (view : τ → σ) (st : State τ) : State σ := ⟨view st.world, st.store, st.log⟩

@[simp] theorem State.seen_store (view : τ → σ) (st : State τ) :
    (st.seen view).store = st.store := rfl

/-- A pass or a turn seen through `view`, whether it ends or hangs. -/
def seenPass {α : Type} (view : τ → σ) :
    Except (State τ) (α × State τ) → Except (State σ) (α × State σ)
  | .ok (a, st) => .ok (a, st.seen view)
  | .error st => .error (st.seen view)

def seenTurn (view : τ → σ) : Except (State τ) (State τ) → Except (State σ) (State σ)
  | .ok st => .ok (st.seen view)
  | .error st => .error (st.seen view)

section Projection

variable {fine : Environment τ} {coarse : Environment σ} {view : τ → σ}

theorem whenDue_seen (loc : Location) (fuel : Nat) (now : Int) (cron : String) (last : Option Int)
    {turn : Bool → State τ} {turn' : Bool → State σ}
    (each : ∀ due, turn' due = (turn due).seen view) (st : State τ) :
    whenDue loc fuel now cron last turn' (st.seen view) =
      seenTurn view (whenDue loc fuel now cron last turn st) := by
  unfold whenDue
  cases parseCron cron with
  | error err => rfl
  | ok expr =>
    simp only
    cases expr.shouldFireBetween loc fuel (last.getD 0) now with
    | none => rfl
    | some due => exact congrArg Except.ok (each due)

theorem turnEach_seen {ρ : Type} {turn : ρ → State τ → Except (State τ) (State τ)}
    {turn' : ρ → State σ → Except (State σ) (State σ)}
    (each : ∀ s st, turn' s (st.seen view) = seenTurn view (turn s st)) (listed : List ρ)
    (st : State τ) : turnEach turn' listed (st.seen view) =
      seenTurn view (turnEach turn listed st) := by
  induction listed generalizing st with
  | nil => rfl
  | cons s rest ih =>
    simp only [turnEach]
    rw [each]
    cases turn s st with
    | error hung => rfl
    | ok mid => exact ih mid

variable (same : Projects fine coarse view) (loc : Location) (fuel : Nat) (now : Int)
include same

theorem ask_seen (q : Query) (st : State τ) :
    (st.seen view).ask coarse q = Prod.map id (State.seen view) (st.ask fine q) := by
  simp only [State.ask, State.seen, same.query, Prod.map, id]

theorem mark_seen (q : Query) (write : Store → Store)
    (st : State τ) : mark coarse q write (st.seen view) =
      Prod.map (fun result => result) (State.seen view) (mark fine q write st) := by
  unfold mark
  rw [ask_seen same]
  rcases st.ask fine q with ⟨_ | err, after⟩ <;> rfl

/-! ### Passes -/

theorem runListed_seen {ρ : Type} (q : Query) (kind : String)
    (rows : Store → List ρ) {turn : ρ → State τ → Except (State τ) (State τ)}
    {turn' : ρ → State σ → Except (State σ) (State σ)}
    (each : ∀ s st, turn' s (st.seen view) = seenTurn view (turn s st)) (st : State τ) :
    runListed coarse q kind rows turn' (st.seen view) =
      seenPass view (runListed fine q kind rows turn st) := by
  unfold runListed
  rw [ask_seen same]
  rcases st.ask fine q with ⟨_ | err, mid⟩
  · simp only [Prod.map, id]
    have listed : coarse.order (mid.seen view).world (rows (mid.seen view).store) =
        fine.order mid.world (rows mid.store) := same.order mid.world _
    rw [listed, turnEach_seen each]
    cases turnEach turn (fine.order mid.world (rows mid.store)) mid <;> rfl
  · rfl

/-! ### The snapshot pass -/

theorem destroyAll_seen (id : Nat) (listing : List Snapshot)
    (names : List String) (st : State τ) :
    destroyAll coarse id listing names (st.seen view) =
      (destroyAll fine id listing names st).seen view := by
  induction names generalizing st with
  | nil => rfl
  | cons name rest ih =>
    simp only [destroyAll]
    rw [← ih]
    congr 1
    simp only [State.seen, State.emit, same.destroy, Prod.map]

theorem pruneSnapshots_seen (s : SnapshotSchedule) (st : State τ) :
    (pruneSnapshots coarse loc s (st.seen view)).2 =
      (pruneSnapshots fine loc s st).2.seen view := by
  have listed : coarse.list s.dataset (st.seen view).world =
      Prod.map id view (fine.list s.dataset st.world) := same.list s.dataset st.world
  unfold pruneSnapshots
  rw [listed]
  rcases fine.list s.dataset st.world with ⟨err | all, world⟩
  · rfl
  · exact destroyAll_seen same s.id all (s.drops loc all) { st with world }

theorem fireSnapshot_seen (s : SnapshotSchedule) (st : State τ) :
    (fireSnapshot coarse loc s now (st.seen view)).2 =
      (fireSnapshot fine loc s now st).2.seen view := by
  simp only [fireSnapshot, State.seen, State.emit, same.create, Prod.map]

theorem fireWhen_seen (s : SnapshotSchedule) (st : State τ) (due : Bool) :
    fireWhen coarse loc s now (st.seen view) due =
      (fireWhen fine loc s now st due).seen view := by
  cases due with
  | false => rfl
  | true =>
    simp only [fireWhen, if_true, fireSnapshot_seen same, markSnapshotScheduleFired, mark_seen same]
    rfl

theorem snapshotTurn_seen (s : SnapshotSchedule) (st : State τ) :
    snapshotTurn coarse loc fuel now s (st.seen view) =
      seenTurn view (snapshotTurn fine loc fuel now s st) :=
  whenDue_seen loc fuel now s.cron s.lastFiredAt
    (fun due => by rw [fireWhen_seen same, pruneSnapshots_seen same]) st

/-! ### The replication pass -/

theorem snapshotExists_seen (name : String) (w : τ) :
    snapshotExists coarse name (view w) = Prod.map id view (snapshotExists fine name w) := by
  unfold snapshotExists
  cases cut '@' name.toList with
  | none => simp only [same.quote, Prod.map, id]
  | some parts =>
    simp only [same.list]
    rcases fine.list (String.ofList parts.1) w with ⟨err | all, after⟩ <;> rfl

theorem incrementalBase_seen (s : ReplicationSchedule) (w : τ) :
    incrementalBase coarse s (view w) = Prod.map id view (incrementalBase fine s w) := by
  unfold incrementalBase
  simp only
  split
  · rfl
  · rfl
  · rename_i last _ _
    simp only [snapshotExists_seen same]
    rcases snapshotExists fine last w with ⟨err | found, after⟩
    · rfl
    · cases found <;> rfl

theorem fireReplication_seen (s : ReplicationSchedule) (st : State τ) :
    fireReplication coarse loc s now (st.seen view) =
      Prod.map id (State.seen view) (fireReplication fine loc s now st) := by
  simp only [fireReplication]
  have fired : (st.seen view).emit (.fireReplication s.id) =
      (st.emit (.fireReplication s.id)).seen view := rfl
  rw [fired, ask_seen same]
  rcases (st.emit (.fireReplication s.id)).ask fine (.getReplicationTarget s.targetId) with
    ⟨_ | err, mid⟩
  · simp only [Prod.map, id, State.seen_store]
    cases mid.store.targets.find? (·.id == s.targetId) with
    | none => rfl
    | some target =>
      simp only [State.seen, same.create]
      rcases fine.create s.srcDataset (formatSnapTime loc s.snapshotPrefix now) false mid.world with
        ⟨_ | err, taken⟩
      · simp only [Prod.map, id, incrementalBase_seen same]
        rcases incrementalBase fine s taken with ⟨err | opts, checked⟩
        · rfl
        · simp only [same.transport]
          split
          · simp only [same.transfer]
            rcases fine.transfer target (remoteDataset target.datasetPrefix s.srcDataset)
              (s.srcDataset ++ "@" ++ formatSnapTime loc s.snapshotPrefix now) opts checked with
              ⟨⟨_ | recvErr, _ | sendErr⟩, sent⟩
            · -- Only a finished transfer gets as far as the result row.
              have marked (write : Store → Store) :=
                mark_seen same (.markReplicationScheduleResult s.id) write
                  { mid with world := sent }
              simp only [State.seen] at marked
              simp only [Prod.map, id, markReplicationScheduleResult, marked]
              rcases mark fine _ _ { mid with world := sent } with ⟨_ | failure, after⟩ <;> rfl
            all_goals rfl
          · rfl
      · rfl
  · rfl

theorem attemptReplication_seen (s : ReplicationSchedule) (st : State τ) :
    attemptReplication coarse loc s now (st.seen view) =
      (attemptReplication fine loc s now st).seen view := by
  unfold attemptReplication
  rw [fireReplication_seen same]
  rcases fireReplication fine loc s now st with ⟨_ | msg, after⟩
  · rfl
  · simp only [Prod.map, id, markReplicationScheduleResult, mark_seen same]

theorem replicationTurn_seen (s : ReplicationSchedule) (st : State τ) :
    replicationTurn coarse loc fuel now s (st.seen view) =
      seenTurn view (replicationTurn fine loc fuel now s st) := by
  refine whenDue_seen loc fuel now s.cron s.lastFiredAt (fun due => ?_) st
  cases due with
  | false => rfl
  | true =>
    simp only [if_true, attemptReplication_seen same, markReplicationScheduleFired, mark_seen same]
    rfl

/-! ### Ticks -/

theorem tick_seen (st : State τ) : tick coarse loc fuel now (st.seen view) =
      seenTurn view (tick fine loc fuel now st) := by
  have snapshots (st : State τ) : runSnapshotSchedules coarse loc fuel now (st.seen view) =
      seenPass view (runSnapshotSchedules fine loc fuel now st) :=
    runListed_seen same _ _ _ (snapshotTurn_seen same loc fuel now) st
  have replications (st : State τ) : runReplicationSchedules coarse loc fuel now (st.seen view) =
      seenPass view (runReplicationSchedules fine loc fuel now st) :=
    runListed_seen same _ _ _ (replicationTurn_seen same loc fuel now) st
  unfold tick
  rw [snapshots]
  cases runSnapshotSchedules fine loc fuel now st with
  | error hung => rfl
  | ok passed =>
    simp only [seenPass, bind, Except.bind]
    rw [replications]
    cases runReplicationSchedules fine loc fuel now passed.2 <;> rfl

/-- A memory the environment keeps for itself makes no difference to a run of ticks. -/
theorem ticks_seen (nows : List Int) (st : State τ) : ticks coarse loc fuel nows (st.seen view) =
      seenPass view (ticks fine loc fuel nows st) := by
  induction nows generalizing st with
  | nil => rfl
  | cons now later ih =>
    have start : { st.seen view with log := [] } = State.seen view { st with log := [] } := rfl
    simp only [ticks, start]
    rw [tick_seen same]
    cases tick fine loc fuel now { st with log := [] } with
    | error hung => rfl
    | ok mid =>
      simp only [seenTurn, bind, Except.bind]
      rw [ih mid]
      cases ticks fine loc fuel later mid <;> rfl

end Projection

/-! ### The watch -/

/-- A transfer as it was asked for, with the errors of the receiver and of the sender. -/
structure Sent where
  target : ReplicationTarget
  dst : String
  full : String
  opts : SendOpts
  outcome : Option String × Option String
  deriving DecidableEq

/-- What an attempt saw and did: the listing its base was looked up in, and its transfer. -/
structure Attempt where
  listed : Option (List Snapshot) := none
  sent : Option Sent := none
  deriving DecidableEq

/-- The snapshot an attempt brought to the target: both ends of the pipe succeeded. -/
def Attempt.synced (a : Attempt) : Option String :=
  a.sent.bind fun sent => if sent.outcome = (none, none) then some sent.full else none

/-- A host with the attempt under way and the finished ones by schedule, the latest first. -/
structure Watched (σ : Type) where
  host : σ
  current : Attempt
  history : List (Nat × Attempt)

/-- An attempt starts with the lookup of its target and ends with the mark of its fire. -/
def Watched.note (w : Watched σ) : Query → Watched σ
  | .getReplicationTarget _ => { w with current := {} }
  | .markReplicationScheduleFired id =>
    { w with current := {}, history := (id, w.current) :: w.history }
  | _ => w

def Environment.watched (env : Environment σ) : Environment (Watched σ) where
  query q w := ((env.query q w.host).1, { w.note q with host := (env.query q w.host).2 })
  order w := env.order w.host
  order_perm w := env.order_perm w.host
  create dataset short recursive w :=
    ((env.create dataset short recursive w.host).1,
      { w with host := (env.create dataset short recursive w.host).2 })
  destroy name w := ((env.destroy name w.host).1, { w with host := (env.destroy name w.host).2 })
  list root w :=
    ((env.list root w.host).1,
      { w with
        host := (env.list root w.host).2
        current := { w.current with listed := (env.list root w.host).1.toOption } })
  transport := env.transport
  transfer target dst full opts w :=
    ((env.transfer target dst full opts w.host).1,
      { w with
        host := (env.transfer target dst full opts w.host).2
        current := { w.current with
          sent := some ⟨target, dst, full, opts, (env.transfer target dst full opts w.host).1⟩ } })
  quote := env.quote

section Answers

variable (env : Environment σ) (w : Watched σ)

@[simp] theorem watched_query (q : Query) : env.watched.query q w =
    ((env.query q w.host).1, { w.note q with host := (env.query q w.host).2 }) := rfl

@[simp] theorem watched_create (dataset short : String) (recursive : Bool) :
    env.watched.create dataset short recursive w =
      ((env.create dataset short recursive w.host).1,
        { w with host := (env.create dataset short recursive w.host).2 }) := rfl

@[simp] theorem watched_list (root : String) : env.watched.list root w =
    ((env.list root w.host).1,
      { w with
        host := (env.list root w.host).2
        current := { w.current with listed := (env.list root w.host).1.toOption } }) := rfl

@[simp] theorem watched_transfer (target : ReplicationTarget) (dst full : String)
    (opts : SendOpts) : env.watched.transfer target dst full opts w =
      ((env.transfer target dst full opts w.host).1,
        { w with
          host := (env.transfer target dst full opts w.host).2
          current := { w.current with
            sent := some
              ⟨target, dst, full, opts, (env.transfer target dst full opts w.host).1⟩ } }) := rfl

end Answers

theorem watched_projects (env : Environment σ) : Projects env.watched env Watched.host where
  query q w := by cases q <;> rfl
  order _ _ _ := rfl
  create _ _ _ _ := rfl
  destroy _ _ := rfl
  list _ _ := rfl
  transport := rfl
  transfer _ _ _ _ _ := rfl
  quote := rfl

/-- A state whose watch has seen nothing yet. -/
def State.watch (st : State σ) : State (Watched σ) := ⟨⟨st.world, {}, []⟩, st.store, st.log⟩

abbrev runReached : Except (State σ) (List (List Event) × State σ) → State σ := reachedAt Prod.snd

def watchedRun (env : Environment σ) (loc : Location) (fuel : Nat) (nows : List Int)
    (st : State σ) : State (Watched σ) :=
  runReached (ticks env.watched loc fuel nows st.watch)

/-- Under the watch the scheduler does what it does without. -/
theorem watchedRun_seen (env : Environment σ) (loc : Location) (fuel : Nat) (nows : List Int)
    (st : State σ) : (watchedRun env loc fuel nows st).seen Watched.host =
      runReached (ticks env loc fuel nows st) := by
  have same : ticks env loc fuel nows st =
      seenPass Watched.host (ticks env.watched loc fuel nows st.watch) :=
    ticks_seen (watched_projects env) loc fuel nows st.watch
  rw [same, watchedRun]
  cases ticks env.watched loc fuel nows st.watch <;> rfl

end NovaNas.Scheduler
