import NovaNas.Scheduler.Watch

/-!
# What a replication sends from, and where to

Along a run each row's `last_sync_snapshot` is the snapshot its last successful attempt sent.
A pass reads all rows at its start, but a turn changes no row other than its own, so a row is
still as it was read when its turn comes. An attempt then sends from that snapshot where the
listing shows it, and in full otherwise.
-/
namespace NovaNas.Scheduler

open Clock Text

variable {σ : Type}

/-- The queries that write to a table. -/
def Query.writes : Query → Bool
  | .markSnapshotScheduleFired _ | .markReplicationScheduleFired _
  | .markReplicationScheduleResult _ => true
  | _ => false

/-- Database writes succeed; reads need not. -/
def WritesSucceed (env : Environment σ) : Prop :=
  ∀ q w, q.writes = true → (env.query q w).1 = none

/-- The snapshot sent by the latest attempt of a schedule that succeeded on both ends. -/
def lastSynced (history : List (Nat × Attempt)) (id : Nat) : Option String :=
  history.findSome? fun entry => if entry.1 = id then entry.2.synced else none

theorem lastSynced_own (id : Nat) (a : Attempt) (before : List (Nat × Attempt)) :
    lastSynced ((id, a) :: before) id = a.synced.or (lastSynced before id) := by
  cases synced : a.synced <;> simp [lastSynced, synced]

theorem lastSynced_other {id other : Nat} (a : Attempt) (before : List (Nat × Attempt))
    (apart : other ≠ id) : lastSynced ((other, a) :: before) id = lastSynced before id := by
  simp [lastSynced, apart]

/-- What a send may start from, given the last synced snapshot and the listing it was looked up
in. -/
structure Base (last : Option String) (listed : Option (List Snapshot)) (base : String) :
    Prop where
  incremental : base ≠ "" →
    last = some base ∧ ∃ all, listed = some all ∧ ∃ sn ∈ all, sn.name = base
  first : last = none → base = ""
  checked : last ≠ none → listed ≠ none
  gone : ∀ b all, last = some b → listed = some all → (∀ sn ∈ all, sn.name ≠ b) → base = ""

/-- Every attempt that sent chose its base by the attempts before it. -/
def Based (history : List (Nat × Attempt)) : Prop :=
  ∀ later id a before, history = later ++ (id, a) :: before → ∀ sent, a.sent = some sent →
    Base (lastSynced before id) a.listed sent.opts.incrementalFrom

theorem Based.cons {id : Nat} {a : Attempt} {before : List (Nat × Attempt)} (based : Based before)
    (own : ∀ sent, a.sent = some sent →
      Base (lastSynced before id) a.listed sent.opts.incrementalFrom) :
    Based ((id, a) :: before) := by
  intro later id' a' before' split
  cases later with
  | nil =>
    obtain ⟨⟨rfl, rfl⟩, rfl⟩ : (id = id' ∧ a = a') ∧ before = before' := by simpa using split
    exact own
  | cons first later =>
    obtain ⟨-, rest⟩ : (id, a) = first ∧ before = later ++ (id', a') :: before' := by
      simpa using split
    exact based later id' a' before' rest

/-! ### One attempt -/

/-- What an attempt of schedule `s` may have done. -/
structure Attempt.Of (s : ReplicationSchedule) (store : Store) (a : Attempt) : Prop where
  base : s.lastSyncSnapshot ≠ some "" → ∀ sent, a.sent = some sent →
    Base s.lastSyncSnapshot a.listed sent.opts.incrementalFrom
  aim : ∀ sent, a.sent = some sent →
    store.targets.find? (·.id == s.targetId) = some sent.target ∧
      sent.dst = remoteDataset sent.target.datasetPrefix s.srcDataset
  named : ∀ sent, a.sent = some sent → sent.full ≠ ""

/-- An attempt that ended before its transfer. -/
theorem Attempt.Of.unsent {s : ReplicationSchedule} {store : Store} {a : Attempt}
    (unsent : a.sent = none) : a.Of s store := by
  constructor <;> simp [unsent]

theorem Attempt.synced_none {a : Attempt} (unsent : a.sent = none) : a.synced = none := by
  simp [Attempt.synced, unsent]

/-- Between two states of the tables at most the result and the fire of one replication schedule
were written. -/
structure Store.Touched (id : Nat) (store store' : Store) : Prop where
  targets : store'.targets = store.targets
  others : ∀ s ∈ store.replicationSchedules, s.id ≠ id → s ∈ store'.replicationSchedules
  columns : ∀ s' ∈ store'.replicationSchedules, ∃ s ∈ store.replicationSchedules,
    s.id = s'.id ∧ s.srcDataset = s'.srcDataset ∧ s.targetId = s'.targetId

theorem Store.Touched.refl (id : Nat) (store : Store) : Store.Touched id store store :=
  ⟨rfl, fun _ member _ => member, fun s member => ⟨s, member, rfl, rfl, rfl⟩⟩

theorem Store.Touched.trans {id : Nat} {a b c : Store} (one : Store.Touched id a b)
    (two : Store.Touched id b c) : Store.Touched id a c := by
  refine ⟨two.targets.trans one.targets, fun s member apart => ?_, fun s'' member => ?_⟩
  · exact two.others s (one.others s member apart) apart
  · obtain ⟨s', member', ids', sources', targets'⟩ := two.columns s'' member
    obtain ⟨s, found, ids, sources, targets⟩ := one.columns s' member'
    exact ⟨s, found, ids.trans ids', sources.trans sources', targets.trans targets'⟩

theorem Store.touched_update (store : Store) (id : Nat)
    (f : ReplicationSchedule → ReplicationSchedule) (keeps : ∀ s, (f s).id = s.id)
    (columns : ∀ s, (f s).srcDataset = s.srcDataset ∧ (f s).targetId = s.targetId) :
    Store.Touched id store (store.updateReplication id f keeps) := by
  refine ⟨rfl, fun s member apart => ?_, fun s' member => ?_⟩
  · exact List.mem_map.mpr ⟨s, member, by simp [apart]⟩
  · obtain ⟨s, found, rfl⟩ := List.mem_map.mp member
    refine ⟨s, found, ?_⟩
    by_cases own : s.id = id <;> simp [own, keeps, columns]

theorem markReplicationScheduleResult_watched (env : Environment σ) (id : Nat)
    (lastSync err : Option String) (st : State (Watched σ)) :
    ∃ failure final, markReplicationScheduleResult env.watched id lastSync err st = (failure, final) ∧
      final.world.history = st.world.history ∧ final.world.current = st.world.current ∧
      Store.Touched id st.store final.store ∧
      (WritesSucceed env → failure = none ∧
        final.store = st.store.updateReplication id (·.result lastSync err) fun _ => rfl) := by
  simp only [markReplicationScheduleResult, mark, State.ask, watched_query, Watched.note]
  cases answered : (env.query (.markReplicationScheduleResult id) st.world.host).1 with
  | none =>
    refine ⟨_, _, rfl, rfl, rfl, ?_, fun _ => ⟨rfl, rfl⟩⟩
    exact Store.touched_update _ id (·.result lastSync err) (fun _ => rfl) fun _ => ⟨rfl, rfl⟩
  | some failure =>
    refine ⟨_, _, rfl, rfl, rfl, .refl id _, fun writes => ?_⟩
    rw [writes _ _ rfl] at answered
    cases answered

/-- Looking up the base notes the listing it was decided on. -/
theorem incrementalBase_watched (env : Environment σ) (s : ReplicationSchedule) (w : Watched σ) :
    let found := incrementalBase env.watched s w
    found.2.history = w.history ∧ found.2.current.sent = w.current.sent ∧
      ∀ opts, found.1 = .ok opts → s.lastSyncSnapshot ≠ some "" →
        Base s.lastSyncSnapshot found.2.current.listed opts.incrementalFrom := by
  simp only [incrementalBase]
  cases synced : s.lastSyncSnapshot with
  | none =>
    refine ⟨rfl, rfl, fun opts chosen _ => ?_⟩
    obtain rfl := Except.ok.inj chosen
    constructor <;> simp
  | some last =>
    by_cases blank : last = ""
    · subst blank
      exact ⟨rfl, rfl, fun _ _ named => absurd rfl named⟩
    · simp only [snapshotExists]
      cases cut '@' last.toList with
      | none => exact ⟨rfl, rfl, fun opts chosen => by cases chosen⟩
      | some parts =>
        simp only [watched_list]
        cases listed : (env.list (String.ofList parts.1) w.host).1 with
        | error err => exact ⟨rfl, rfl, fun opts chosen => by cases chosen⟩
        | ok all =>
          cases present : all.any (·.name == last) with
          | true =>
            simp only [present, true_and]
            intro opts chosen _
            obtain rfl := Except.ok.inj chosen
            have found : ∃ sn ∈ all, sn.name = last := by simpa using present
            constructor
            · exact fun _ => ⟨rfl, all, rfl, found⟩
            · simp
            · simp [Except.toOption]
            · rintro b all' ⟨⟩ ⟨⟩ absent
              obtain ⟨sn, member, same⟩ := found
              exact absurd same (absent sn member)
          | false =>
            simp only [present, true_and]
            intro opts chosen _
            obtain rfl := Except.ok.inj chosen
            constructor <;> simp [Except.toOption]

/-- A fire either brings its snapshot to the target and records it, or fails and leaves the
tables alone. -/
theorem fireReplication_watched (env : Environment σ) (loc : Location) (s : ReplicationSchedule)
    (now : Int) (st : State (Watched σ)) :
    ∃ err final, fireReplication env.watched loc s now st = (err, final) ∧
      final.world.history = st.world.history ∧ final.world.current.Of s st.store ∧
      Store.Touched s.id st.store final.store ∧
      (WritesSucceed env →
        (err = none ∧ final.world.current.synced ≠ none ∧
          final.store = st.store.updateReplication s.id
            (·.result final.world.current.synced none) fun _ => rfl) ∨
        (err ≠ none ∧ final.world.current.synced = none ∧ final.store = st.store)) := by
  -- The lookup of the target starts a new attempt, which has sent nothing so far.
  have unsent {w : Watched σ} (current : w.current.sent = none) {msg : String} :
      w.current.Of s st.store ∧ Store.Touched s.id st.store st.store ∧ (WritesSucceed env →
        (some msg = none ∧ w.current.synced ≠ none ∧
          st.store = st.store.updateReplication s.id (·.result w.current.synced none) fun _ => rfl) ∨
        (some msg ≠ none ∧ w.current.synced = none ∧ st.store = st.store)) :=
    ⟨.unsent current, .refl _ _, fun _ => .inr ⟨by simp, Attempt.synced_none current, rfl⟩⟩
  simp only [fireReplication, State.ask, State.emit, watched_query, Watched.note]
  cases (env.query (.getReplicationTarget s.targetId) st.world.host).1 with
  | some err => exact ⟨_, _, rfl, rfl, unsent rfl⟩
  | none =>
    simp only
    cases known : st.store.targets.find? (·.id == s.targetId) with
    | none => exact ⟨_, _, rfl, rfl, unsent rfl⟩
    | some target =>
      simp only [watched_create]
      cases (env.create s.srcDataset (formatSnapTime loc s.snapshotPrefix now) false _).1 with
      | some err => exact ⟨_, _, rfl, rfl, unsent rfl⟩
      | none =>
        simp only
        generalize start : (Watched.mk _ _ _ : Watched σ) = w
        have fresh : w.history = st.world.history ∧ w.current.sent = none := by
          rw [← start]
          exact ⟨rfl, rfl⟩
        obtain ⟨history, current, base⟩ := incrementalBase_watched env s w
        rcases chosen : incrementalBase env.watched s w with ⟨err | opts, checked⟩
        · rw [chosen] at history current
          exact ⟨_, _, rfl, history.trans fresh.1, unsent (current.trans fresh.2)⟩
        · rw [chosen] at history current base
          simp only
          split
          · simp only [watched_transfer]
            rcases env.transfer target (remoteDataset target.datasetPrefix s.srcDataset)
              (s.srcDataset ++ "@" ++ formatSnapTime loc s.snapshotPrefix now) opts checked.host with
              ⟨errors, after⟩
            simp only
            generalize noted : Attempt.mk checked.current.listed _ = a
            have own : a.Of s st.store := by
              rw [← noted]
              constructor
              · rintro named sent ⟨⟩
                exact base opts rfl named
              · rintro sent ⟨⟩
                exact ⟨known, rfl⟩
              · rintro sent ⟨⟩
                simp
            have synced : a.synced = if errors = (none, none) then
                some (s.srcDataset ++ "@" ++ formatSnapTime loc s.snapshotPrefix now) else none := by
              rw [← noted]
              rfl
            rcases errors with ⟨_ | recvErr, _ | sendErr⟩
            · obtain ⟨failure, final, marked, kept, same, touched, recorded⟩ :=
                markReplicationScheduleResult_watched env s.id
                  (some (s.srcDataset ++ "@" ++ formatSnapTime loc s.snapshotPrefix now)) none
                  ⟨⟨after, a, checked.history⟩, st.store, st.log ++ [.fireReplication s.id]⟩
              simp only [marked]
              simp only at kept same
              cases failure with
              | none =>
                refine ⟨_, _, rfl, kept.trans (history.trans fresh.1), same ▸ own, touched,
                  fun writes => .inl ⟨rfl, ?_, ?_⟩⟩
                · simp [same, synced]
                · simpa [same, synced] using (recorded writes).2
              | some failure =>
                refine ⟨_, _, rfl, kept.trans (history.trans fresh.1), same ▸ own, touched,
                  fun writes => ?_⟩
                cases (recorded writes).1
            all_goals
              refine ⟨_, _, rfl, history.trans fresh.1, own, .refl _ _,
                fun _ => .inr ⟨?_, ?_, rfl⟩⟩ <;> simp [synced]
          · exact ⟨_, _, rfl, history.trans fresh.1, unsent (current.trans fresh.2)⟩

theorem ReplicationSchedule.result_id (lastSync err : Option String) (s : ReplicationSchedule) :
    (s.result lastSync err).id = s.id := rfl

theorem ReplicationSchedule.fired_id (now : Int) (s : ReplicationSchedule) :
    (s.fired now).id = s.id := rfl

/-- The row of a schedule once an attempt of it is over. -/
def Store.attempted (store : Store) (id : Nat) (lastSync err : Option String) (now : Int) : Store :=
  (store.updateReplication id (·.result lastSync err)
      (ReplicationSchedule.result_id lastSync err)).updateReplication id (·.fired now)
    (ReplicationSchedule.fired_id now)

/-- A failed attempt writes back the base it had read. -/
theorem attemptReplication_watched (env : Environment σ) (loc : Location) (s : ReplicationSchedule)
    (now : Int) (st : State (Watched σ)) :
    let final := attemptReplication env.watched loc s now st
    final.world.history = st.world.history ∧ final.world.current.Of s st.store ∧
      Store.Touched s.id st.store final.store ∧
      (WritesSucceed env → ∃ err, final.store = st.store.updateReplication s.id
        (·.result (final.world.current.synced.or s.lastSyncSnapshot) err) fun _ => rfl) := by
  obtain ⟨err, fired, found, history, own, touched, outcome⟩ :=
    fireReplication_watched env loc s now st
  simp only [attemptReplication, found]
  cases err with
  | none =>
    refine ⟨history, own, touched, fun writes => ⟨none, ?_⟩⟩
    obtain ⟨-, synced, store⟩ | ⟨failed, -⟩ := outcome writes
    · obtain ⟨full, sent⟩ := Option.ne_none_iff_exists'.mp synced
      simpa [sent] using store
    · exact absurd rfl failed
  | some msg =>
    obtain ⟨failure, final, marked, kept, same, touched', recorded⟩ :=
      markReplicationScheduleResult_watched env s.id s.lastSyncSnapshot (some msg) fired
    simp only [marked]
    refine ⟨kept.trans history, same ▸ own, touched.trans touched', fun writes => ⟨some msg, ?_⟩⟩
    obtain ⟨failed, -⟩ | ⟨-, synced, store⟩ := outcome writes
    · cases failed
    · simpa [same, synced, store] using (recorded writes).2

/-! ### Whole runs -/

/-- A property of the tables and of the past attempts that every turn keeps. What an attempt
leaves in its row is known where writes succeed. -/
structure Preserved (writes : Prop) (inv : Store → List (Nat × Attempt) → Prop) : Prop where
  snapshot : ∀ {store history} id last, inv store history →
    inv (store.updateSnapshot id last) history
  attempt : ∀ {store store' history} s a, s ∈ store.replicationSchedules → a.Of s store →
    Store.Touched s.id store store' →
    (writes → ∃ err now,
      store' = store.attempted s.id (a.synced.or s.lastSyncSnapshot) err now) →
    inv store history → inv store' ((s.id, a) :: history)

def Holds (inv : Store → List (Nat × Attempt) → Prop) (st : State (Watched σ)) : Prop :=
  inv st.store st.world.history

section Runs

variable {inv : Store → List (Nat × Attempt) → Prop} (env : Environment σ) (loc : Location)
  (fuel : Nat) (now : Int)

theorem destroyAll_history (id : Nat) (listing : List Snapshot) (names : List String)
    (st : State (Watched σ)) :
    (destroyAll env.watched id listing names st).world.history = st.world.history := by
  induction names generalizing st with
  | nil => rfl
  | cons name rest ih => exact (ih _).trans rfl

theorem pruneSnapshots_history (s : SnapshotSchedule) (st : State (Watched σ)) :
    (pruneSnapshots env.watched loc s st).2.world.history = st.world.history := by
  simp only [pruneSnapshots, watched_list]
  cases (env.list s.dataset st.world.host).1 with
  | error err => rfl
  | ok all => exact destroyAll_history env ..

theorem snapshotTurn_keeps (kept : Preserved (WritesSucceed env) inv)
    (s : SnapshotSchedule) (st : State (Watched σ)) (holds : Holds inv st) :
    Holds inv (reached (snapshotTurn env.watched loc fuel now s st)) := by
  -- Pruning reads and destroys snapshots, and nothing else.
  have pruned (mid : State (Watched σ)) :
      (pruneSnapshots env.watched loc s mid).2.store = mid.store ∧
        (pruneSnapshots env.watched loc s mid).2.world.history = mid.world.history :=
    ⟨(pruneSnapshots_spec _ loc s mid).1, pruneSnapshots_history env loc s mid⟩
  rcases whenDue_reached loc fuel now s.cron s.lastFiredAt _ st with idle | ⟨-, due, turned⟩
  · exact (congrArg (Holds inv) idle).mpr holds
  refine (congrArg (Holds inv) turned).mpr ?_
  rw [Holds, (pruned _).1, (pruned _).2]
  cases due with
  | false => exact holds
  | true =>
    simp only [fireWhen, if_true, markSnapshotScheduleFired, mark, fireSnapshot, State.ask,
      State.emit, watched_query, watched_create, Watched.note]
    cases (env.query (.markSnapshotScheduleFired s.id) _).1 with
    | none => exact kept.snapshot s.id now holds
    | some err => exact holds

/-- A turn leaves the tables alone or is an attempt of its schedule. -/
theorem replicationTurn_watched (s : ReplicationSchedule) (st : State (Watched σ)) :
    let final := reached (replicationTurn env.watched loc fuel now s st)
    (final.store = st.store ∧ final.world.history = st.world.history) ∨
      ∃ a, a.Of s st.store ∧ Store.Touched s.id st.store final.store ∧
        (WritesSucceed env → ∃ err now,
          final.store = st.store.attempted s.id (a.synced.or s.lastSyncSnapshot) err now) ∧
        final.world.history = (s.id, a) :: st.world.history := by
  rcases whenDue_reached loc fuel now s.cron s.lastFiredAt _ st with idle | ⟨-, due, turned⟩
  · rw [replicationTurn, idle]
    exact .inl ⟨rfl, rfl⟩
  rw [replicationTurn, turned]
  cases due with
  | false => exact .inl ⟨rfl, rfl⟩
  | true =>
    obtain ⟨history, own, touched, recorded⟩ := attemptReplication_watched env loc s now st
    simp only [if_true, markReplicationScheduleFired, mark, State.ask, watched_query, Watched.note]
    cases answered : (env.query (.markReplicationScheduleFired s.id) _).1 with
    | none =>
      refine .inr ⟨_, own, ?_, fun writes => ?_, by rw [history]⟩
      · exact touched.trans
          (Store.touched_update _ s.id (·.fired now) (fun _ => rfl) fun _ => ⟨rfl, rfl⟩)
      · obtain ⟨err, store⟩ := recorded writes
        simp only [store]
        exact ⟨err, now, rfl⟩
    | some err =>
      refine .inr ⟨_, own, touched, fun writes => ?_, by rw [history]⟩
      rw [writes _ _ rfl] at answered
      cases answered

/-- The rows still to come are as they were read. -/
theorem replicationTurns_keeps (kept : Preserved (WritesSucceed env) inv)
    (listed : List ReplicationSchedule) (st : State (Watched σ))
    (rows : ∀ s ∈ listed, s ∈ st.store.replicationSchedules) (once : (listed.map (·.id)).Nodup)
    (holds : Holds inv st) :
    Holds inv (reached (turnEach (replicationTurn env.watched loc fuel now) listed st)) := by
  refine turnEach_reached (fun rest st => (∀ s ∈ rest, s ∈ st.store.replicationSchedules) ∧
    (rest.map (·.id)).Nodup ∧ Holds inv st) (·.2.2) ?_ ⟨rows, once, holds⟩
  rintro s rest st ⟨rows, once, holds⟩
  obtain ⟨own, rows⟩ := List.forall_mem_cons.mp rows
  obtain ⟨fresh, once⟩ := List.nodup_cons.mp once
  obtain ⟨store, history⟩ | ⟨a, fits, touched, recorded, history⟩ :=
    replicationTurn_watched env loc fuel now s st
  · rw [Holds, store, history]
    exact ⟨rows, once, holds⟩
  · rw [Holds, history]
    refine ⟨fun r member => touched.others r (rows r member) fun same => ?_, once,
      kept.attempt s a own fits touched recorded holds⟩
    exact fresh (List.mem_map.mpr ⟨r, member, same⟩)

theorem tick_keeps (kept : Preserved (WritesSucceed env) inv) (st : State (Watched σ))
    (holds : Holds inv st) :
    Holds inv (reached (tick env.watched loc fuel now st)) := by
  have first : Holds inv (passReached (runSnapshotSchedules env.watched loc fuel now st)) := by
    refine runListed_reached (Holds inv) holds ?_
    rintro _ rfl
    exact turnEach_reached (fun _ => Holds inv) id
      (snapshotTurn_keeps env loc fuel now kept _ _) holds
  have second (mid : State (Watched σ)) (holds : Holds inv mid) :
      Holds inv (passReached (runReplicationSchedules env.watched loc fuel now mid)) := by
    refine runListed_reached (Holds inv) holds ?_
    rintro _ rfl
    have perm := env.watched.order_perm
      (mid.ask env.watched .listEnabledReplicationSchedules).2.world mid.store.enabledReplications
    refine replicationTurns_keeps env loc fuel now kept _ _ (fun s member => ?_) ?_ holds
    · exact (List.mem_filter.mp (perm.mem_iff.mp member)).1
    · exact (perm.map (·.id)).nodup_iff.mpr
        (mid.store.replicationKey.sublist (List.filter_sublist.map _))
  exact reachedAt_bind _ first fun result holds =>
    reachedAt_bind _ (second result.2 holds) fun _ holds => holds

/-- What every turn keeps holds along every run, also one that hangs. -/
theorem watchedRun_keeps (kept : Preserved (WritesSucceed env) inv) (nows : List Int)
    (st : State σ) (initial : inv st.store []) : Holds inv (watchedRun env loc fuel nows st) := by
  suffices general : ∀ st : State (Watched σ), Holds inv st →
      Holds inv (runReached (ticks env.watched loc fuel nows st)) from general st.watch initial
  intro st holds
  induction nows generalizing st with
  | nil => exact holds
  | cons now later ih =>
    have first := tick_keeps env loc fuel now kept { st with log := [] } holds
    exact reachedAt_bind _ first fun mid holds =>
      reachedAt_bind _ (ih mid holds) fun _ holds => holds

end Runs

/-! ### Bases -/

/-- A row after an attempt is the row before, up to its result and its fire. -/
theorem Store.of_mem_attempted {store : Store} {id : Nat} {lastSync err : Option String}
    {now : Int} {r : ReplicationSchedule}
    (member : r ∈ (store.attempted id lastSync err now).replicationSchedules) :
    ∃ s ∈ store.replicationSchedules,
      r = if s.id = id then (s.result lastSync err).fired now else s := by
  simp only [Store.attempted, Store.updateReplication, List.map_map, List.mem_map] at member
  obtain ⟨s, old, rfl⟩ := member
  refine ⟨s, old, ?_⟩
  by_cases own : s.id = id <;> simp [own, ReplicationSchedule.result]

/-- Rows hold what their last successful attempt sent, and all attempts sent from there. -/
structure Tracked (store : Store) (history : List (Nat × Attempt)) : Prop where
  rows : ∀ s ∈ store.replicationSchedules, s.lastSyncSnapshot = lastSynced history s.id
  based : Based history
  named : ∀ id, lastSynced history id ≠ some ""

theorem tracked_preserved {writes : Prop} (succeed : writes) : Preserved writes Tracked where
  snapshot _ _ tracked := ⟨tracked.rows, tracked.based, tracked.named⟩
  attempt {store store' history} s a member fits _ recorded tracked := by
    obtain ⟨err, now, rfl⟩ := recorded succeed
    have own := tracked.rows s member
    refine ⟨fun r later => ?_, ?_, fun id => ?_⟩
    · obtain ⟨row, old, rfl⟩ := Store.of_mem_attempted later
      by_cases same : row.id = s.id
      · simp [same, ReplicationSchedule.fired, ReplicationSchedule.result, lastSynced_own, own]
      · simp [same, lastSynced_other a history (Ne.symm same), tracked.rows row old]
    · refine tracked.based.cons fun sent found => ?_
      rw [← own]
      exact fits.base (own ▸ tracked.named s.id) sent found
    · by_cases same : s.id = id
      · subst same
        rw [lastSynced_own]
        cases found : a.sent with
        | none => simpa [Attempt.synced, found] using tracked.named s.id
        | some sent =>
          -- A snapshot that was sent has a name.
          have full := fits.named sent found
          by_cases clean : sent.outcome = (none, none)
          · simpa [Attempt.synced, found, clean] using full
          · simpa [Attempt.synced, found, clean] using tracked.named s.id
      · rw [lastSynced_other a history same]
        exact tracked.named id

/-- Along every run of ticks, whatever the host answers: an incremental send starts from the
snapshot of the schedule's last successful attempt, seen on the host in that very attempt; all
other sends are full; and a row's `last_sync_snapshot` moves with successful attempts only. -/
theorem bases_valid {env : Environment σ} (writes : WritesSucceed env) (loc : Location)
    (fuel : Nat) (nows : List Int) (st : State σ)
    (unsynced : ∀ s ∈ st.store.replicationSchedules, s.lastSyncSnapshot = none) :
    let final := watchedRun env loc fuel nows st
    final.seen Watched.host = runReached (ticks env loc fuel nows st) ∧
      Based final.world.history ∧
      ∀ s ∈ final.store.replicationSchedules,
        s.lastSyncSnapshot = lastSynced final.world.history s.id := by
  have start : Tracked st.store [] := by
    constructor
    · simpa [lastSynced] using unsynced
    · intro later id a before split
      simp at split
    · simp [lastSynced]
  have tracked := watchedRun_keeps env loc fuel (tracked_preserved writes) nows st start
  exact ⟨watchedRun_seen env loc fuel nows st, tracked.based, tracked.rows⟩

/-- A host that keeps the snapshots it takes; the receiver of its transfers answers in turn what
the second part says. -/
def mirrorHost : Environment (List Snapshot × List (Option String)) where
  query _ w := (none, w)
  order _ rows := rows
  order_perm _ rows := .refl rows
  create dataset short _ w :=
    if plain : '@' ∉ dataset.toList then (none, (⟨dataset, short, plain⟩ :: w.1, w.2))
    else (some "invalid dataset name", w)
  destroy _ w := (none, w)
  list root w := (.ok (w.1.filter (·.dataset == root)), w)
  transport := true
  transfer _ _ _ _ w := ((w.2.headD none, none), (w.1, w.2.tail))
  quote name := name

def minutely (id : Nat) (source : String) : ReplicationSchedule :=
  ⟨id, source, 7, "* * * * *", "repl", true, none, none, none⟩

def offsite : ReplicationTarget := ⟨7, "backup/from-tank"⟩

def mirrored : State (List Snapshot × List (Option String)) :=
  ⟨([], [none, some "connection refused"]),
    ⟨[], [minutely 1 "tank/data"], [offsite], by decide, by decide, by decide⟩, []⟩

/-- Three attempts, the second of which fails: the third sends from where the first ended. -/
theorem bases_valid_mirrored :
    let final := watchedRun mirrorHost utc 10
      [halfPastOne, halfPastOne + Clock.minute, halfPastOne + 2 * Clock.minute] mirrored
    Based final.world.history ∧
      final.world.history.map (fun entry => entry.2.sent.map (·.opts.incrementalFrom)) =
        [some "tank/data@repl-2026-01-05-0130", some "tank/data@repl-2026-01-05-0130",
          some ""] := by
  have writes : WritesSucceed mirrorHost := fun _ _ _ => rfl
  refine ⟨(bases_valid writes utc 10 _ mirrored ?_).2.1, ?_⟩ <;> decide +kernel

/-! ### Where a replication goes -/

/-- The last component of a dataset's name. -/
def baseName (dataset : String) : List Char :=
  (dataset.toList.reverse.takeWhile (· != '/')).reverse

theorem remoteDataset_inj (target a b : String) :
    remoteDataset target a = remoteDataset target b ↔ baseName a = baseName b := by
  simp [remoteDataset, baseName, String.ofList_inj]

/-- All attempts so far sent to the place their schedule names. -/
structure Aimed (initial store : Store) (history : List (Nat × Attempt)) : Prop where
  targets : store.targets = initial.targets
  columns : ∀ s' ∈ store.replicationSchedules, ∃ s ∈ initial.replicationSchedules,
    s.id = s'.id ∧ s.srcDataset = s'.srcDataset ∧ s.targetId = s'.targetId
  sends : ∀ id a sent, (id, a) ∈ history → a.sent = some sent →
    ∃ s ∈ initial.replicationSchedules, s.id = id ∧
      initial.targets.find? (·.id == s.targetId) = some sent.target ∧
      sent.dst = remoteDataset sent.target.datasetPrefix s.srcDataset

theorem aimed_preserved (writes : Prop) (initial : Store) : Preserved writes (Aimed initial) where
  snapshot _ _ aimed := ⟨aimed.targets, aimed.columns, aimed.sends⟩
  attempt {store store' history} s a member fits touched _ aimed := by
    refine ⟨touched.targets.trans aimed.targets, fun s'' member => ?_, ?_⟩
    · obtain ⟨s', member', ids', sources', targets'⟩ := touched.columns s'' member
      obtain ⟨r, found, ids, sources, targets⟩ := aimed.columns s' member'
      exact ⟨r, found, ids.trans ids', sources.trans sources', targets.trans targets'⟩
    · intro id a' sent entry found
      rcases List.mem_cons.mp entry with new | old
      · obtain ⟨rfl, rfl⟩ := Prod.mk.inj new
        obtain ⟨r, row, ids, sources, targets⟩ := aimed.columns s member
        obtain ⟨target, dst⟩ := fits.aim sent found
        rw [aimed.targets, ← targets] at target
        rw [← sources] at dst
        exact ⟨r, row, ids, target, dst⟩
      · exact aimed.sends id a' sent old found

/-- Two schedules with one target send into the same remote dataset exactly when the last
components of their sources are the same. -/
theorem replicas_collide_iff (env : Environment σ) (loc : Location) (fuel : Nat) (nows : List Int)
    (st : State σ) (a b : ReplicationSchedule) (rowA : a ∈ st.store.replicationSchedules)
    (rowB : b ∈ st.store.replicationSchedules) (target : a.targetId = b.targetId) (x y : Attempt)
    (attemptA : (a.id, x) ∈ (watchedRun env loc fuel nows st).world.history)
    (attemptB : (b.id, y) ∈ (watchedRun env loc fuel nows st).world.history) (p q : Sent)
    (sentA : x.sent = some p) (sentB : y.sent = some q) :
    p.target = q.target ∧ (p.dst = q.dst ↔ baseName a.srcDataset = baseName b.srcDataset) := by
  have start : Aimed st.store st.store [] :=
    ⟨rfl, fun s member => ⟨s, member, rfl, rfl, rfl⟩, by simp⟩
  have aimed := watchedRun_keeps env loc fuel (aimed_preserved _ st.store) nows st start
  -- A row is known by its id.
  have key {r s : ReplicationSchedule} (hr : r ∈ st.store.replicationSchedules)
      (hs : s ∈ st.store.replicationSchedules) (same : r.id = s.id) : r = s :=
    List.inj_on_of_nodup_map st.store.replicationKey hr hs same
  obtain ⟨r, row, ids, targetA, dstA⟩ := aimed.sends a.id x p attemptA sentA
  obtain rfl := key row rowA ids
  obtain ⟨s, row', ids', targetB, dstB⟩ := aimed.sends b.id y q attemptB sentB
  obtain rfl := key row' rowB ids'
  have same : p.target = q.target := by
    rw [target, targetB] at targetA
    exact (Option.some.inj targetA).symm
  exact ⟨same, by rw [dstA, dstB, same, remoteDataset_inj]⟩

def homes : State (List Snapshot × List (Option String)) :=
  ⟨([], []),
    ⟨[], [minutely 1 "tank/a/data", minutely 2 "tank/b/data"], [offsite], by decide, by decide,
      by decide⟩, []⟩

/-- The send of a schedule of `homes` at half past one. -/
def homeSent (source : String) : Sent :=
  ⟨offsite, "backup/from-tank/data", source ++ "@repl-2026-01-05-0130",
    { compressed := true, largeBlock := true }, (none, none)⟩

theorem replicas_collide_iff_homes :
    (homeSent "tank/a/data").target = (homeSent "tank/b/data").target ∧
      ((homeSent "tank/a/data").dst = (homeSent "tank/b/data").dst ↔
        baseName "tank/a/data" = baseName "tank/b/data") := by
  refine replicas_collide_iff mirrorHost utc 10 [halfPastOne] homes (minutely 1 "tank/a/data")
    (minutely 2 "tank/b/data") ?_ ?_ rfl ⟨none, some (homeSent "tank/a/data")⟩
    ⟨none, some (homeSent "tank/b/data")⟩ ?_ ?_ _ _ rfl rfl <;> decide +kernel

/-- Two datasets named "data" are sent into one remote dataset. -/
theorem replicas_collide :
    homes.store.replicationSchedules.map (fun s => (s.id, s.srcDataset, s.targetId)) =
        [(1, "tank/a/data", 7), (2, "tank/b/data", 7)] ∧
      (watchedRun mirrorHost utc 10 [halfPastOne] homes).world.history.map
          (fun entry => (entry.1, entry.2.sent.map fun sent => (sent.target.id, sent.full, sent.dst))) =
        [(2, some (7, "tank/b/data@repl-2026-01-05-0130", "backup/from-tank/data")),
          (1, some (7, "tank/a/data@repl-2026-01-05-0130", "backup/from-tank/data"))] := by
  constructor <;> decide +kernel

end NovaNas.Scheduler
