import NovaNas.Scheduler.Cron
import NovaNas.Scheduler.Retention

/-!
# The scheduler's tick

One tick reads the enabled schedules, fires those that are due, marks them fired and prunes
snapshots by each schedule's retention, then does the same for the replication schedules.
The host and the success of the database calls are an environment with a state of its own:
whatever they answer, and however they change between two calls, is left open.
-/
namespace NovaNas.Scheduler

open Clock Text

/-! ### Rows and host objects -/

structure SnapshotSchedule where
  id : Nat
  dataset : String
  name : String
  cron : String
  recursive : Bool
  snapshotPrefix : String
  retentionHourly : Int
  retentionDaily : Int
  retentionWeekly : Int
  retentionMonthly : Int
  retentionYearly : Int
  enabled : Bool
  /-- NULL until the first fire. -/
  lastFiredAt : Option Int
  deriving DecidableEq, Repr, Inhabited

structure ReplicationTarget where
  id : Nat
  datasetPrefix : String
  deriving DecidableEq, Repr

structure ReplicationSchedule where
  id : Nat
  srcDataset : String
  targetId : Nat
  cron : String
  snapshotPrefix : String
  enabled : Bool
  lastFiredAt : Option Int
  lastSyncSnapshot : Option String
  lastError : Option String
  deriving DecidableEq, Repr

/-- A snapshot "dataset@short" on the host; a dataset has no '@' in its name. -/
@[ext] structure Snapshot where
  dataset : String
  shortName : String
  plain : '@' ∉ dataset.toList
  deriving DecidableEq

def Snapshot.name (sn : Snapshot) : String := sn.dataset ++ "@" ++ sn.shortName

structure SendOpts where
  recursive : Bool := false
  incrementalFrom : String := ""
  raw : Bool := false
  compressed : Bool := false
  largeBlock : Bool := false
  embeddedData : Bool := false
  deriving DecidableEq, Repr

/-- The tables the scheduler works on, with their keys. -/
structure Store where
  snapshotSchedules : List SnapshotSchedule
  replicationSchedules : List ReplicationSchedule
  targets : List ReplicationTarget
  snapshotKey : (snapshotSchedules.map (·.id)).Nodup
  snapshotUnique : (snapshotSchedules.map fun s => (s.dataset, s.name)).Nodup
  replicationKey : (replicationSchedules.map (·.id)).Nodup

inductive Query where
  | listEnabledSnapshotSchedules
  | listEnabledReplicationSchedules
  | getReplicationTarget (id : Nat)
  | markSnapshotScheduleFired (id : Nat)
  | markReplicationScheduleFired (id : Nat)
  | markReplicationScheduleResult (id : Nat)
  deriving DecidableEq, Repr

/-- Host and database as the scheduler sees them. -/
structure Environment (σ : Type) where
  /-- The error a query ends with, if any. -/
  query : Query → σ → Option String × σ
  /-- The order in which a query without ORDER BY returns its rows. -/
  order : {α : Type} → σ → List α → List α
  order_perm : ∀ {α : Type} (w : σ) (rows : List α), (order w rows).Perm rows
  create : (dataset short : String) → (recursive : Bool) → σ → Option String × σ
  destroy : (name : String) → σ → Option String × σ
  list : (root : String) → σ → Except String (List Snapshot) × σ
  /-- Whether a replication transport is configured. -/
  transport : Bool
  /-- A send piped into a receive: the errors of the receiver and of the sender. -/
  transfer : (target : ReplicationTarget) → (dst full : String) → SendOpts → σ →
    (Option String × Option String) × σ
  quote : String → String

/-- The calls of interest a tick makes. -/
inductive Event where
  | fireSnapshot (id : Nat)
  | fireReplication (id : Nat)
  /-- A destroy issued while pruning for a schedule, with the listing it was decided on. -/
  | destroy (id : Nat) (listing : List Snapshot) (name : String)
  deriving DecidableEq

structure State (σ : Type) where
  world : σ
  store : Store
  log : List Event

variable {σ : Type}

def State.emit (st : State σ) (event : Event) : State σ := { st with log := st.log ++ [event] }

def State.ask (env : Environment σ) (q : Query) (st : State σ) : Option String × State σ :=
  let (err, world) := env.query q st.world
  (err, { st with world })

/-! ### Updates by key -/

def Store.updateSnapshot (store : Store) (id : Nat) (last : Int) : Store where
  snapshotSchedules := store.snapshotSchedules.map fun s =>
    if s.id = id then { s with lastFiredAt := some last } else s
  replicationSchedules := store.replicationSchedules
  targets := store.targets
  snapshotKey := by
    rw [List.map_map]
    convert store.snapshotKey using 2
    funext s
    simp only [Function.comp]
    split <;> rfl
  snapshotUnique := by
    rw [List.map_map]
    convert store.snapshotUnique using 2
    funext s
    simp only [Function.comp]
    split <;> rfl
  replicationKey := store.replicationKey

/-- An update of replication rows that keeps their ids. -/
def Store.updateReplication (store : Store) (id : Nat)
    (f : ReplicationSchedule → ReplicationSchedule) (keeps : ∀ s, (f s).id = s.id) : Store where
  snapshotSchedules := store.snapshotSchedules
  replicationSchedules := store.replicationSchedules.map fun s => if s.id = id then f s else s
  targets := store.targets
  snapshotKey := store.snapshotKey
  snapshotUnique := store.snapshotUnique
  replicationKey := by
    rw [List.map_map]
    convert store.replicationKey using 2
    funext s
    simp only [Function.comp]
    split
    · exact keeps s
    · rfl

def ReplicationSchedule.fired (s : ReplicationSchedule) (last : Int) : ReplicationSchedule :=
  { s with lastFiredAt := some last }

def ReplicationSchedule.result (s : ReplicationSchedule) (lastSync err : Option String) :
    ReplicationSchedule :=
  { s with lastSyncSnapshot := lastSync, lastError := err }

variable (env : Environment σ) (loc : Location)

def mark (q : Query) (write : Store → Store) (st : State σ) : Option String × State σ :=
  match st.ask env q with
  | (some err, st) => (some err, st)
  | (none, st) => (none, { st with store := write st.store })

def markSnapshotScheduleFired (id : Nat) (last : Int) : State σ → Option String × State σ :=
  mark env (.markSnapshotScheduleFired id) (·.updateSnapshot id last)

def markReplicationScheduleFired (id : Nat) (last : Int) : State σ → Option String × State σ :=
  mark env (.markReplicationScheduleFired id)
    (·.updateReplication id (·.fired last) fun _ => rfl)

def markReplicationScheduleResult (id : Nat) (lastSync err : Option String) :
    State σ → Option String × State σ :=
  mark env (.markReplicationScheduleResult id)
    (·.updateReplication id (·.result lastSync err) fun _ => rfl)

/-! ### The snapshot pass -/

/-- Creates the snapshot of one schedule. -/
def fireSnapshot (s : SnapshotSchedule) (now : Int) (st : State σ) : Option String × State σ :=
  let short := formatSnapTime loc s.snapshotPrefix now
  let (err, world) := env.create s.dataset short s.recursive st.world
  (err, { st.emit (.fireSnapshot s.id) with world })

def SnapshotSchedule.policy (s : SnapshotSchedule) : RetentionPolicy :=
  ⟨s.retentionHourly, s.retentionDaily, s.retentionWeekly, s.retentionMonthly, s.retentionYearly⟩

/-- An all-zero policy stands for "no retention configured". -/
def RetentionPolicy.unset (p : RetentionPolicy) : Bool :=
  p.hourly == 0 && p.daily == 0 && p.weekly == 0 && p.monthly == 0 && p.yearly == 0

/-- Whether a snapshot is one of the schedule's: on its very dataset, with its prefix and a
time stamp. -/
def SnapshotSchedule.manages (s : SnapshotSchedule) (sn : Snapshot) : Option Int :=
  if sn.dataset ≠ s.dataset then none else parsedSnapTime loc sn.shortName s.snapshotPrefix

def SnapshotSchedule.managed (s : SnapshotSchedule) (all : List Snapshot) : List SnapInfo :=
  all.filterMap fun sn => (s.manages loc sn).map fun t => ⟨sn.name, t⟩

/-- The names pruning destroys of a listing. -/
def SnapshotSchedule.drops (s : SnapshotSchedule) (all : List Snapshot) : List String :=
  if s.policy.unset then []
  else (partitionRetention (s.managed loc all) s.policy).2.map (·.name)

/-- Destroys one snapshot after the other; a failure does not stop the rest. -/
def destroyAll (id : Nat) (listing : List Snapshot) : List String → State σ → State σ
  | [], st => st
  | name :: rest, st =>
    let (_, world) := env.destroy name st.world
    destroyAll id listing rest { st.emit (.destroy id listing name) with world }

def pruneSnapshots (s : SnapshotSchedule) (st : State σ) : Option String × State σ :=
  match env.list s.dataset st.world with
  -- The listing is taken afresh for every schedule, after its own fire.
  | (.error err, world) => (some err, { st with world })
  | (.ok all, world) => (none, destroyAll env s.id all (s.drops loc all) { st with world })

/-- One schedule's turn, which goes by whether the schedule is due. `.error st` stands for a turn
that never ends, because `NextAfter` does not return within `fuel` passes; `st` is what was done
before. -/
def whenDue (fuel : Nat) (now : Int) (cron : String) (last : Option Int) (turn : Bool → State σ)
    (st : State σ) : Except (State σ) (State σ) :=
  match parseCron cron with
  -- A cron text that does not parse skips the schedule.
  | .error _ => .ok st
  | .ok expr =>
    match expr.shouldFireBetween loc fuel (last.getD 0) now with
    | none => .error st
    | some due => .ok (turn due)

/-- A failed create is marked as fired all the same. -/
def fireWhen (s : SnapshotSchedule) (now : Int) (st : State σ) (due : Bool) : State σ :=
  if due then (markSnapshotScheduleFired env s.id now (fireSnapshot env loc s now st).2).2 else st

def snapshotTurn (fuel : Nat) (now : Int) (s : SnapshotSchedule) (st : State σ) :
    Except (State σ) (State σ) :=
  whenDue loc fuel now s.cron s.lastFiredAt
    (fun due => (pruneSnapshots env loc s (fireWhen env loc s now st due)).2) st

/-- The turns of the rows, one after the other. -/
def turnEach {ρ : Type} (turn : ρ → State σ → Except (State σ) (State σ)) :
    List ρ → State σ → Except (State σ) (State σ)
  | [], st => .ok st
  | s :: rest, st => do
    let st ← turn s st
    turnEach turn rest st

/-- A pass over the rows that a query lists. -/
def runListed {ρ : Type} (q : Query) (kind : String) (rows : Store → List ρ)
    (turn : ρ → State σ → Except (State σ) (State σ)) (st : State σ) :
    Except (State σ) (Option String × State σ) :=
  match st.ask env q with
  | (some err, st) => .ok (some ("list " ++ kind ++ " schedules: " ++ err), st)
  | (none, st) => do
    let st ← turnEach turn (env.order st.world (rows st.store)) st
    pure (none, st)

/-- `SELECT * FROM snapshot_schedules WHERE enabled = true` -/
def Store.enabledSnapshots (store : Store) : List SnapshotSchedule :=
  store.snapshotSchedules.filter (·.enabled)

def runSnapshotSchedules (fuel : Nat) (now : Int) (st : State σ) :
    Except (State σ) (Option String × State σ) :=
  runListed env .listEnabledSnapshotSchedules "snapshot" Store.enabledSnapshots
    (snapshotTurn env loc fuel now) st

/-! ### The replication pass -/

/-- Whether a snapshot is on the host. -/
def snapshotExists (name : String) (world : σ) : Except String Bool × σ :=
  match cut '@' name.toList with
  | none => (.error ("not a snapshot name: " ++ env.quote name), world)
  | some (ds, _) =>
    match env.list (String.ofList ds) world with
    | (.error err, world) => (.error err, world)
    | (.ok all, world) => (.ok (all.any (·.name == name)), world)

/-- The target's dataset prefix joined with the last component of the source. -/
def remoteDataset (target src : String) : String :=
  let base := (src.toList.reverse.takeWhile (· != '/')).reverse
  String.ofList ((target.toList.reverse.dropWhile (· == '/')).reverse ++ '/' :: base)

/-- What to send from: the last synced snapshot where it is still on the host. -/
def incrementalBase (s : ReplicationSchedule) (world : σ) : Except String SendOpts × σ :=
  let opts : SendOpts := { compressed := true, largeBlock := true }
  match s.lastSyncSnapshot with
  -- An empty column reads as a full send.
  | none | some "" => (.ok opts, world)
  | some last =>
    match snapshotExists env last world with
    | (.error err, world) => (.error ("verify last sync snapshot: " ++ err), world)
    | (.ok true, world) => (.ok { opts with incrementalFrom := last }, world)
    -- Pruned in the meantime: fall back to a full send.
    | (.ok false, world) => (.ok opts, world)

/-- Takes a snapshot, sends it to the schedule's target and records the result. -/
def fireReplication (s : ReplicationSchedule) (now : Int) (st : State σ) : Option String × State σ :=
  let st := st.emit (.fireReplication s.id)
  match st.ask env (.getReplicationTarget s.targetId) with
  | (some err, st) => (some ("get target: " ++ err), st)
  | (none, st) =>
    match st.store.targets.find? (·.id == s.targetId) with
    | none => (some "get target: no rows in result set", st)
    | some target =>
      let short := formatSnapTime loc s.snapshotPrefix now
      let full := s.srcDataset ++ "@" ++ short
      match env.create s.srcDataset short false st.world with
      | (some err, world) => (some ("create snapshot " ++ full ++ ": " ++ err), { st with world })
      | (none, world) =>
        match incrementalBase env s world with
        | (.error err, world) => (some err, { st with world })
        | (.ok opts, world) =>
          -- Without a transport the snapshot has been taken already.
          if env.transport then
            match env.transfer target (remoteDataset target.datasetPrefix s.srcDataset) full opts
              world with
            -- The receiver's error is reported first.
            | ((some recvErr, _), world) => (some recvErr, { st with world })
            | ((none, some sendErr), world) => (some sendErr, { st with world })
            | ((none, none), world) =>
              match markReplicationScheduleResult env s.id (some full) none { st with world } with
              | (some err, st) => (some ("mark result: " ++ err), st)
              | (none, st) => (none, st)
          else (some "scheduler: no replication transport configured", { st with world })

/-- Fires a schedule and records the error it may end with. -/
def attemptReplication (s : ReplicationSchedule) (now : Int) (st : State σ) : State σ :=
  match fireReplication env loc s now st with
  -- The base of the next send stays what the row had when the pass read it.
  | (some msg, st) => (markReplicationScheduleResult env s.id s.lastSyncSnapshot (some msg) st).2
  | (none, st) => st

def replicationTurn (fuel : Nat) (now : Int) (s : ReplicationSchedule) (st : State σ) :
    Except (State σ) (State σ) :=
  whenDue loc fuel now s.cron s.lastFiredAt (fun due =>
    if due then
      -- A failed transfer is marked as fired as well.
      (markReplicationScheduleFired env s.id now (attemptReplication env loc s now st)).2
    else st) st

/-- `SELECT * FROM replication_schedules WHERE enabled = true` -/
def Store.enabledReplications (store : Store) : List ReplicationSchedule :=
  store.replicationSchedules.filter (·.enabled)

def runReplicationSchedules (fuel : Nat) (now : Int) (st : State σ) :
    Except (State σ) (Option String × State σ) :=
  runListed env .listEnabledReplicationSchedules "replication" Store.enabledReplications
    (replicationTurn env loc fuel now) st

/-! ### Ticks -/

/-- One tick. The errors of the two passes are only logged. -/
def tick (fuel : Nat) (now : Int) (st : State σ) : Except (State σ) (State σ) := do
  let (_, st) ← runSnapshotSchedules env loc fuel now st
  let (_, st) ← runReplicationSchedules env loc fuel now st
  pure st

/-- Ticks at the given times: what each of them did, and the state they end in. -/
def ticks (fuel : Nat) : List Int → State σ → Except (State σ) (List (List Event) × State σ)
  | [], st => .ok ([], st)
  | now :: later, st => do
    let st ← tick env loc fuel now { st with log := [] }
    let (logs, final) ← ticks fuel later st
    pure (st.log :: logs, final)

end NovaNas.Scheduler
