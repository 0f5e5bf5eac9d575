import NovaNas.Base.CatchUp
import NovaNas.Scheduler.Manager
import NovaNas.Scheduler.NextAfter

/-!
# When a schedule fires

Over a run of ticks every schedule behaves as if it were alone: what decides about its fires
is its cron text and `last_fired_at`, and these change only when it fires. Its timer then is
the one of `CatchUp`, with the cron minutes as hits.
-/
namespace NovaNas.Scheduler

open Calendar Clock

/-! ### Timers -/

/-- The columns that decide when a schedule fires. -/
structure Timer where
  id : Nat
  cron : String
  enabled : Bool
  lastFiredAt : Option Int
  deriving DecidableEq, Repr

def SnapshotSchedule.timer (s : SnapshotSchedule) : Timer :=
  ⟨s.id, s.cron, s.enabled, s.lastFiredAt⟩

def ReplicationSchedule.timer (s : ReplicationSchedule) : Timer :=
  ⟨s.id, s.cron, s.enabled, s.lastFiredAt⟩

@[simp] theorem SnapshotSchedule.timer_id (s : SnapshotSchedule) : s.timer.id = s.id := rfl

@[simp] theorem ReplicationSchedule.timer_id (s : ReplicationSchedule) : s.timer.id = s.id := rfl

def Store.snapshotTimers (store : Store) : List Timer := store.snapshotSchedules.map (·.timer)

def Store.replicationTimers (store : Store) : List Timer := store.replicationSchedules.map (·.timer)

/-- Every due check comes to an end within `fuel` passes. -/
def Answers (loc : Location) (fuel : Nat) : Prop :=
  ∀ (c : CronExpr) prev now, c.shouldFireBetween loc fuel prev now ≠ none

def Timer.due (loc : Location) (fuel : Nat) (now : Int) (t : Timer) : Bool :=
  match parseCron t.cron with
  | .error _ => false
  | .ok expr => (expr.shouldFireBetween loc fuel (t.lastFiredAt.getD 0) now).getD false

def Timer.mark (now : Int) (t : Timer) : Timer := { t with lastFiredAt := some now }

def Timer.fires (loc : Location) (fuel : Nat) (now : Int) (t : Timer) : Bool :=
  t.enabled && t.due loc fuel now

/-- What a tick does to a timer. -/
def Timer.advance (loc : Location) (fuel : Nat) (now : Int) (t : Timer) : Timer :=
  if t.fires loc fuel now then t.mark now else t

theorem Timer.advance_id (loc : Location) (fuel : Nat) (now : Int) (t : Timer) :
    (t.advance loc fuel now).id = t.id := by
  unfold Timer.advance
  split <;> rfl

def markTimers (id : Nat) (now : Int) (timers : List Timer) : List Timer :=
  timers.map fun t => if t.id = id then t.mark now else t

/-- A pass over `listed`, one timer after the other. -/
def passTimers (due : Timer → Bool) (now : Int) (listed timers : List Timer) : List Timer :=
  listed.foldl (fun ts t => if due t then markTimers t.id now ts else ts) timers

/-- A timer is changed by its own turn only, so the order of a pass does not matter. -/
theorem passTimers_eq (due : Timer → Bool) (now : Int) {listed timers : List Timer}
    (key : (timers.map (·.id)).Nodup) (sub : ∀ t ∈ listed, t ∈ timers) (once : listed.Nodup) :
    passTimers due now listed timers =
      timers.map fun t => if t ∈ listed ∧ due t then t.mark now else t := by
  -- Timers already passed differ from the listed ones in their mark, so the claim is carried
  -- over any change that keeps the ids.
  suffices general : ∀ touched : Timer → Timer, (∀ t, (touched t).id = t.id) →
      passTimers due now listed (timers.map touched) =
        timers.map fun t => if t ∈ listed ∧ due t then (touched t).mark now else touched t by
    simpa using general id (fun _ => rfl)
  induction listed with
  | nil => simp [passTimers]
  | cons s rest ih =>
    intro touched keeps
    obtain ⟨fresh, once⟩ := List.nodup_cons.mp once
    have later := ih (fun t member => sub t (.tail s member)) once
    have own : ∀ t ∈ timers, t.id = s.id ↔ t = s := fun t member =>
      ⟨fun same => List.inj_on_of_nodup_map key member (sub s List.mem_cons_self) same,
        fun same => by rw [same]⟩
    -- Marking by id is marking this one timer, since ids are distinct.
    have step : passTimers due now (s :: rest) (timers.map touched) =
        passTimers due now rest
          (timers.map fun t => if t = s ∧ due s then (touched t).mark now else touched t) := by
      simp only [passTimers, List.foldl_cons]
      congr 1
      split
      next fires =>
        rw [markTimers, List.map_map]
        refine List.map_congr_left fun t member => ?_
        simp [Function.comp, keeps, own t member, fires]
      next idle =>
        refine List.map_congr_left fun t member => ?_
        simp [idle]
    rw [step, later _ (fun t => by split <;> simp [Timer.mark, keeps])]
    refine List.map_congr_left fun t member => ?_
    by_cases same : t = s
    · subst same
      simp [fresh]
    · simp [same]

/-! ### What a pass does -/

variable {σ : Type}

/-- One of the two tables, with its fires and those of the other table. -/
structure Side where
  timers : Store → List Timer
  others : Store → List Timer
  fire : Nat → Event
  otherFire : Nat → Event

def snapshotSide : Side :=
  ⟨Store.snapshotTimers, Store.replicationTimers, Event.fireSnapshot, Event.fireReplication⟩

def replicationSide : Side :=
  ⟨Store.replicationTimers, Store.snapshotTimers, Event.fireReplication, Event.fireSnapshot⟩

/-- The turns of `listed` lead from `st` to `st'`: due timers are marked and fired once each,
and the other table is left alone. -/
structure Turns (side : Side) (due : Timer → Bool) (now : Int) (listed : List Timer)
    (st st' : State σ) : Prop where
  timers : side.timers st'.store = passTimers due now listed (side.timers st.store)
  others : side.others st'.store = side.others st.store
  fires : ∀ i, st'.log.count (side.fire i) =
    st.log.count (side.fire i) + listed.countP fun t => due t && t.id == i
  quiet : ∀ i, st'.log.count (side.otherFire i) = st.log.count (side.otherFire i)

section Turns

variable {side : Side} {due : Timer → Bool} {now : Int}

theorem Turns.refl (st : State σ) : Turns side due now [] st st :=
  ⟨rfl, rfl, fun _ => rfl, fun _ => rfl⟩

theorem Turns.idle {t : Timer} (idle : due t = false) (st : State σ) :
    Turns side due now [t] st st :=
  ⟨by simp [passTimers, idle], rfl, fun i => by simp [idle], fun _ => rfl⟩

theorem Turns.trans {first second : List Timer} {a b c : State σ}
    (one : Turns side due now first a b) (two : Turns side due now second b c) :
    Turns side due now (first ++ second) a c where
  timers := by
    rw [two.timers, one.timers, passTimers, passTimers, passTimers, List.foldl_append]
  others := two.others.trans one.others
  fires i := by
    rw [two.fires, one.fires, List.countP_append, Nat.add_assoc]
  quiet i := (two.quiet i).trans (one.quiet i)

/-- Work that touches neither timers nor fires may be added to a turn. -/
theorem Turns.frame {listed : List Timer} {a b c : State σ} (turns : Turns side due now listed a b)
    (timers : side.timers c.store = side.timers b.store)
    (others : side.others c.store = side.others b.store)
    (fires : ∀ i, c.log.count (side.fire i) = b.log.count (side.fire i))
    (quiet : ∀ i, c.log.count (side.otherFire i) = b.log.count (side.otherFire i)) :
    Turns side due now listed a c :=
  ⟨timers.trans turns.timers, others.trans turns.others, fun i => (fires i).trans (turns.fires i),
    fun i => (quiet i).trans (turns.quiet i)⟩

end Turns

/-- All database calls succeed. -/
def Reliable (env : Environment σ) : Prop := ∀ q w, (env.query q w).1 = none

variable {env : Environment σ}

theorem ask_of_reliable (reliable : Reliable env) (q : Query) (st : State σ) :
    st.ask env q = (none, { st with world := (env.query q st.world).2 }) := by
  simp only [State.ask, reliable q st.world]

theorem snapshotTimers_updateSnapshot (store : Store) (id : Nat) (last : Int) :
    (store.updateSnapshot id last).snapshotTimers = markTimers id last store.snapshotTimers := by
  simp only [Store.snapshotTimers, Store.updateSnapshot, markTimers, List.map_map]
  refine List.map_congr_left fun s _ => ?_
  by_cases same : s.id = id <;> simp [SnapshotSchedule.timer, Timer.mark, same]

theorem replicationTimers_update (store : Store) (id : Nat)
    (f : ReplicationSchedule → ReplicationSchedule) (keeps : ∀ s, (f s).id = s.id)
    (g : Timer → Timer) (timer : ∀ s, (f s).timer = g s.timer) :
    (store.updateReplication id f keeps).replicationTimers =
      store.replicationTimers.map fun t => if t.id = id then g t else t := by
  simp only [Store.replicationTimers, Store.updateReplication, List.map_map]
  refine List.map_congr_left fun s _ => ?_
  by_cases same : s.id = id <;> simp [timer, same]

/-! ### A turn of the snapshot pass -/

theorem destroyAll_spec (env : Environment σ) (id : Nat) (listing : List Snapshot)
    (names : List String) (st : State σ) :
    (destroyAll env id listing names st).store = st.store ∧
      (destroyAll env id listing names st).log = st.log ++ names.map (.destroy id listing) := by
  induction names generalizing st with
  | nil => simp [destroyAll]
  | cons name rest ih => simp [destroyAll, ih, State.emit]

/-- The destroys a listing leads to. -/
def SnapshotSchedule.destroys (loc : Location) (s : SnapshotSchedule) :
    Except String (List Snapshot) → List Event
  | .ok all => (s.drops loc all).map (.destroy s.id all)
  | .error _ => []

theorem pruneSnapshots_spec (env : Environment σ) (loc : Location) (s : SnapshotSchedule)
    (st : State σ) : (pruneSnapshots env loc s st).2.store = st.store ∧
      (pruneSnapshots env loc s st).2.log =
        st.log ++ s.destroys loc (env.list s.dataset st.world).1 := by
  unfold pruneSnapshots
  split
  next failed => simp [failed, SnapshotSchedule.destroys]
  next all world listed =>
    rw [listed]
    exact destroyAll_spec env s.id all (s.drops loc all) { st with world }

variable {loc : Location} {fuel : Nat} {side : Side}

theorem whenDue_turns (answers : Answers loc fuel) (now : Int) {t : Timer} {turn : Bool → State σ}
    {st : State σ} (effect : ∀ due, t.due loc fuel now = due →
      Turns side (Timer.due loc fuel now) now [t] st (turn due)) :
    ∃ st', whenDue loc fuel now t.cron t.lastFiredAt turn st = .ok st' ∧
      Turns side (Timer.due loc fuel now) now [t] st st' := by
  unfold whenDue
  cases parsed : parseCron t.cron with
  | error err => exact ⟨st, rfl, .idle (by simp [Timer.due, parsed]) st⟩
  | ok expr =>
    cases asked : expr.shouldFireBetween loc fuel (t.lastFiredAt.getD 0) now with
    | none => exact absurd asked (answers expr _ now)
    | some due =>
      simp only [asked]
      exact ⟨_, rfl, effect due (by simp [Timer.due, parsed, asked])⟩

theorem snapshotTurn_turns (reliable : Reliable env) (answers : Answers loc fuel) (now : Int)
    (s : SnapshotSchedule) (st : State σ) : ∃ st', snapshotTurn env loc fuel now s st = .ok st' ∧
      Turns snapshotSide (Timer.due loc fuel now) now [s.timer] st st' := by
  -- Pruning adds only destroys to the log and leaves the tables alone.
  have quiet (st : State σ) : Turns snapshotSide (Timer.due loc fuel now) now [] st
      (pruneSnapshots env loc s st).2 := by
    obtain ⟨store, log⟩ := pruneSnapshots_spec env loc s st
    have count (e : Event) (other : ∀ all name, e ≠ .destroy s.id all name) :
        (pruneSnapshots env loc s st).2.log.count e = st.log.count e := by
      rw [log, List.count_append, Nat.add_eq_left, List.count_eq_zero]
      unfold SnapshotSchedule.destroys
      split
      · simpa using fun name _ same => other _ name same.symm
      · simp
    exact (Turns.refl st).frame (by rw [store]) (by rw [store])
      (fun i => count _ (by simp [snapshotSide])) (fun i => count _ (by simp [snapshotSide]))
  refine whenDue_turns (t := s.timer) answers now fun due own =>
    (?_ : Turns _ _ now [s.timer] st _).trans (quiet _)
  cases due with
  | false => exact .idle own st
  | true =>
    simp only [fireWhen, if_true, markSnapshotScheduleFired, mark, fireSnapshot,
      ask_of_reliable reliable]
    refine ⟨?_, rfl, fun i => ?_, fun i => ?_⟩
    · simp only [passTimers, List.foldl_cons, List.foldl_nil, own, if_true]
      exact snapshotTimers_updateSnapshot _ _ _
    · simp [snapshotSide, State.emit, own, List.count_singleton]
    · simp [snapshotSide, State.emit]

/-! ### A turn of the replication pass -/

/-- A step that leaves the timers of both tables and the fires alone. -/
structure Aside (st st' : State σ) : Prop where
  snapshots : st'.store.snapshotTimers = st.store.snapshotTimers
  replications : st'.store.replicationTimers = st.store.replicationTimers
  log : st'.log = st.log

theorem Aside.trans {a b c : State σ} (one : Aside a b) (two : Aside b c) : Aside a c :=
  ⟨two.snapshots.trans one.snapshots, two.replications.trans one.replications,
    two.log.trans one.log⟩

theorem Aside.world (st : State σ) (world : σ) : Aside st { st with world } := ⟨rfl, rfl, rfl⟩

theorem ask_aside {q : Query} {st st' : State σ} {err : Option String}
    (asked : st.ask env q = (err, st')) : Aside st st' := by
  obtain ⟨-, rfl⟩ := Prod.mk.inj asked
  exact .world st _

theorem markResult_aside {s : Nat} {lastSync err result : Option String} {st st' : State σ}
    (marked : markReplicationScheduleResult env s lastSync err st = (result, st')) :
    Aside st st' := by
  unfold markReplicationScheduleResult mark at marked
  split at marked
  next asked =>
    obtain ⟨-, rfl⟩ := Prod.mk.inj marked
    exact ask_aside asked
  next asked =>
    obtain ⟨-, rfl⟩ := Prod.mk.inj marked
    -- Recording a result touches neither `last_fired_at` nor the cron text.
    refine (ask_aside asked).trans ⟨rfl, ?_, rfl⟩
    refine (replicationTimers_update _ s (·.result lastSync err) (fun _ => rfl) (fun t => t)
      fun _ => rfl).trans ?_
    simp

/-- Whatever becomes of a replication, it only adds its fire to the log. -/
theorem fireReplication_aside (env : Environment σ) (loc : Location) (s : ReplicationSchedule)
    (now : Int) (st : State σ) :
    Aside (st.emit (.fireReplication s.id)) (fireReplication env loc s now st).2 := by
  simp only [fireReplication]
  split
  next asked => exact ask_aside asked
  next asked =>
    -- Past the target lookup only the world changes, until the result is recorded.
    have start := ask_aside asked
    repeat' split
    all_goals first
      | exact start
      | exact start.trans (.world _ _)
      | next marked => exact (start.trans (.world _ _)).trans (markResult_aside marked)

theorem attemptReplication_aside (env : Environment σ) (loc : Location) (s : ReplicationSchedule)
    (now : Int) (st : State σ) :
    Aside (st.emit (.fireReplication s.id)) (attemptReplication env loc s now st) := by
  have fired := fireReplication_aside env loc s now st
  unfold attemptReplication
  split
  next found =>
    rw [found] at fired
    exact fired.trans (markResult_aside rfl)
  next found =>
    rw [found] at fired
    exact fired

theorem replicationTurn_turns (reliable : Reliable env) (answers : Answers loc fuel) (now : Int)
    (s : ReplicationSchedule) (st : State σ) :
    ∃ st', replicationTurn env loc fuel now s st = .ok st' ∧
      Turns replicationSide (Timer.due loc fuel now) now [s.timer] st st' := by
  refine whenDue_turns (t := s.timer) answers now fun due own => ?_
  cases due with
  | false => exact .idle own st
  | true =>
    -- The attempt adds its fire, whatever becomes of it; the mark comes after.
    have before := attemptReplication_aside env loc s now st
    simp only [if_true, markReplicationScheduleFired, mark, ask_of_reliable reliable]
    refine ⟨?_, before.snapshots, fun i => ?_, fun i => ?_⟩
    · simp only [passTimers, List.foldl_cons, List.foldl_nil, own, if_true, markTimers]
      refine (replicationTimers_update _ s.id (·.fired now) (fun _ => rfl) (Timer.mark now)
        fun _ => rfl).trans ?_
      rw [before.replications]
      rfl
    · simp [replicationSide, before.log, State.emit, own, List.count_singleton]
    · simp [replicationSide, before.log, State.emit]

/-! ### A whole tick -/

theorem turnEach_turns {ρ : Type} {turn : ρ → State σ → Except (State σ) (State σ)}
    {timer : ρ → Timer} {due : Timer → Bool} {now : Int}
    (each : ∀ s st, ∃ st', turn s st = .ok st' ∧ Turns side due now [timer s] st st')
    (listed : List ρ) (st : State σ) : ∃ st', turnEach turn listed st = .ok st' ∧
      Turns side due now (listed.map timer) st st' := by
  induction listed generalizing st with
  | nil => exact ⟨st, rfl, .refl st⟩
  | cons s rest ih =>
    obtain ⟨mid, first, turn⟩ := each s st
    obtain ⟨st', later, turns⟩ := ih mid
    refine ⟨st', ?_, turn.trans turns⟩
    rw [turnEach, first]
    exact later

/-- A pass over the enabled timers of one table: every timer advances on its own and the due
ones are fired once. -/
structure Passed (side : Side) (loc : Location) (fuel : Nat) (now : Int) (st st' : State σ) :
    Prop where
  timers : side.timers st'.store = (side.timers st.store).map (Timer.advance loc fuel now)
  others : side.others st'.store = side.others st.store
  fires : ∀ t ∈ side.timers st.store, st'.log.count (side.fire t.id) =
    st.log.count (side.fire t.id) + (t.fires loc fuel now).toNat
  quiet : ∀ i, st'.log.count (side.otherFire i) = st.log.count (side.otherFire i)

/-- The order of the rows makes no difference to a pass. -/
theorem Turns.passed {now : Int} {listed : List Timer} {st st' : State σ}
    (turns : Turns side (Timer.due loc fuel now) now listed st st')
    (key : ((side.timers st.store).map (·.id)).Nodup)
    (all : listed.Perm ((side.timers st.store).filter (·.enabled))) :
    Passed side loc fuel now st st' := by
  have member (t : Timer) : t ∈ listed ↔ t ∈ side.timers st.store ∧ t.enabled = true := by
    rw [all.mem_iff, List.mem_filter]
  -- Rows have distinct ids, so none is listed twice.
  have once : listed.Nodup := all.nodup_iff.mpr (key.of_map.filter _)
  refine ⟨?_, turns.others, fun t ht => ?_, turns.quiet⟩
  · rw [turns.timers, passTimers_eq _ now key (fun t ht => ((member t).mp ht).1) once]
    refine List.map_congr_left fun t ht => ?_
    simp [Timer.advance, Timer.fires, member, ht]
  · -- The ids are distinct, so only the timer itself counts.
    have own : listed.countP (fun r => r.due loc fuel now && r.id == t.id) =
        if t.due loc fuel now then listed.count t else 0 := by
      have same (r : Timer) (hr : r ∈ listed) : r.id = t.id ↔ r = t :=
        ⟨fun ids => List.inj_on_of_nodup_map key ((member r).mp hr).1 ht ids, fun rs => by rw [rs]⟩
      split
      next fires =>
        refine List.countP_congr fun r hr => ?_
        by_cases equal : r = t <;> simp [same r hr, equal, fires]
      next idle =>
        refine List.countP_eq_zero.mpr fun r hr => ?_
        by_cases equal : r = t <;> simp [same r hr, equal, idle]
    rw [turns.fires, own, List.Nodup.count once]
    simp only [member, ht, true_and]
    by_cases due : t.due loc fuel now = true <;> by_cases enabled : t.enabled = true <;>
      simp [Timer.fires, due, enabled]

theorem runListed_passed {ρ : Type} (reliable : Reliable env)
    {turn : ρ → State σ → Except (State σ) (State σ)} {timer : ρ → Timer} {now : Int}
    (each : ∀ s st, ∃ st', turn s st = .ok st' ∧
      Turns side (Timer.due loc fuel now) now [timer s] st st') (q : Query) (kind : String)
    {rows : Store → List ρ} {st : State σ} (key : ((side.timers st.store).map (·.id)).Nodup)
    (all : (rows st.store).map timer = (side.timers st.store).filter (·.enabled)) :
    ∃ st', runListed env q kind rows turn st = .ok (none, st') ∧
      Passed side loc fuel now st st' := by
  let asked : State σ := { st with world := (env.query q st.world).2 }
  obtain ⟨st', done, turns⟩ := turnEach_turns each (env.order asked.world (rows asked.store)) asked
  have passed := turns.passed key (((env.order_perm asked.world _).map timer).trans (.of_eq all))
  refine ⟨st', ?_, passed.timers, passed.others, passed.fires, passed.quiet⟩
  rw [runListed, ask_of_reliable reliable]
  simp only [asked] at done
  simp only [done]
  rfl

variable (reliable : Reliable env) (answers : Answers loc fuel)
include reliable answers

theorem runSnapshotSchedules_passed (now : Int) (st : State σ) :
    ∃ st', runSnapshotSchedules env loc fuel now st = .ok (none, st') ∧
      Passed snapshotSide loc fuel now st st' := by
  refine runListed_passed reliable (snapshotTurn_turns reliable answers now) _ _ ?_ ?_
  · simpa [snapshotSide, Store.snapshotTimers, Function.comp_def] using st.store.snapshotKey
  · simp [snapshotSide, Store.snapshotTimers, Store.enabledSnapshots, List.filter_map,
      Function.comp_def, SnapshotSchedule.timer]

theorem runReplicationSchedules_passed (now : Int) (st : State σ) :
    ∃ st', runReplicationSchedules env loc fuel now st = .ok (none, st') ∧
      Passed replicationSide loc fuel now st st' := by
  refine runListed_passed reliable (replicationTurn_turns reliable answers now) _ _ ?_ ?_
  · simpa [replicationSide, Store.replicationTimers, Function.comp_def]
      using st.store.replicationKey
  · simp [replicationSide, Store.replicationTimers, Store.enabledReplications, List.filter_map,
      Function.comp_def, ReplicationSchedule.timer]

/-- A tick with a database that works ends; in both tables all timers advance and each due
schedule is fired once. -/
theorem tick_spec (now : Int) (st : State σ) :
    ∃ st', tick env loc fuel now st = .ok st' ∧ ∀ side ∈ [snapshotSide, replicationSide],
      side.timers st'.store = (side.timers st.store).map (Timer.advance loc fuel now) ∧
      ∀ t ∈ side.timers st.store, st'.log.count (side.fire t.id) =
        st.log.count (side.fire t.id) + (t.fires loc fuel now).toNat := by
  obtain ⟨mid, first, snapshots⟩ := runSnapshotSchedules_passed reliable answers now st
  obtain ⟨st', second, replications⟩ := runReplicationSchedules_passed reliable answers now mid
  have untouched : replicationSide.timers mid.store = replicationSide.timers st.store :=
    snapshots.others
  refine ⟨st', ?_, ?_⟩
  · simp only [tick, first, second, bind, Except.bind, pure, Except.pure]
  · simp only [List.forall_mem_cons, List.not_mem_nil, false_implies, implies_true, and_true]
    refine ⟨⟨replications.others.trans snapshots.timers, fun t ht => ?_⟩, ?_, fun t ht => ?_⟩
    -- A snapshot fire comes from the first pass, a replication fire from the second.
    · rw [← snapshots.fires t ht]
      exact replications.quiet t.id
    · rw [replications.timers, untouched]
    · rw [← untouched] at ht
      exact (replications.fires t ht).trans (congrArg (· + _) (snapshots.quiet t.id))

/-! ### Runs of ticks -/

/-- A timer after the ticks before number `k`. -/
def Timer.after (loc : Location) (fuel : Nat) (nows : List Int) (k : Nat) (t : Timer) : Timer :=
  (nows.take k).foldl (fun t now => t.advance loc fuel now) t

/-- Over a run of ticks each schedule follows its own timer. -/
theorem ticks_spec (nows : List Int) (st : State σ) :
    ∃ logs final, ticks env loc fuel nows st = .ok (logs, final) ∧
      ∀ side ∈ [snapshotSide, replicationSide], ∀ t ∈ side.timers st.store, ∀ k now,
        nows[k]? = some now → ∃ log, logs[k]? = some log ∧ log.count (side.fire t.id) =
          ((t.after loc fuel nows k).fires loc fuel now).toNat := by
  induction nows generalizing st with
  | nil => exact ⟨[], st, rfl, by simp⟩
  | cons first later ih =>
    obtain ⟨mid, done, effect⟩ := tick_spec reliable answers first { st with log := [] }
    obtain ⟨logs, final, rest, follow⟩ := ih mid
    refine ⟨mid.log :: logs, final, ?_, fun side known t member k now found => ?_⟩
    · simp only [ticks, done, rest, bind, Except.bind, pure, Except.pure]
    -- The timers of the later ticks are those of the first advanced by one.
    · obtain ⟨timers, fires⟩ := effect side known
      cases k with
      | zero =>
        obtain rfl : first = now := by simpa using found
        refine ⟨mid.log, rfl, ?_⟩
        simpa [Timer.after] using fires t member
      | succ k =>
        obtain ⟨log, here, count⟩ := follow side known (t.advance loc fuel first)
          (by rw [timers]; exact List.mem_map_of_mem member) k now (by simpa using found)
        refine ⟨log, by simpa using here, ?_⟩
        rw [Timer.advance_id] at count
        simpa [Timer.after] using count

end NovaNas.Scheduler
