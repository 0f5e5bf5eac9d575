import NovaNas.Scheduler.Ticks

/-!
# Late ticks and missed fires

In a zone with one offset a schedule's timer is that of `CatchUp`. Once a schedule has fired,
late or skipped ticks lose no cron minute: the next tick makes up for it. Before its first
fire only a tick that runs within a cron minute counts.
-/
namespace NovaNas.Scheduler

open Calendar Clock

/-- A minute in which `c` fires. -/
def CronMinute (c : CronExpr) (loc : Location) (m : Int) : Prop :=
  OnMinute m ∧ c.matchTime loc m = true

instance (t : Int) : Decidable (OnMinute t) := inferInstanceAs (Decidable (_ = _))

instance (c : CronExpr) (loc : Location) (m : Int) : Decidable (CronMinute c loc m) :=
  inferInstanceAs (Decidable (_ ∧ _))

theorem onMinute_truncate (t : Int) : OnMinute (truncate t minute) := by
  unfold OnMinute truncate minute
  omega

theorem truncate_truncate (t : Int) :
    truncate (truncate t minute) minute = truncate t minute := by
  unfold truncate minute
  omega

theorem truncate_mono {a b : Int} (le : a ≤ b) :
    truncate a minute ≤ truncate b minute := by
  unfold truncate minute
  omega

theorem truncate_lt_iff {m t : Int} (grid : OnMinute m) : truncate t minute < m ↔ t < m := by
  unfold OnMinute truncate minute at *
  omega

theorem le_truncate_iff {m t : Int} (grid : OnMinute m) : m ≤ truncate t minute ↔ m ≤ t := by
  rw [← not_lt, truncate_lt_iff grid, not_lt]

/-! ### The due check in a zone with one offset -/

/-- After a fire the check looks for a cron minute since then. -/
theorem shouldFireBetween_fixed (offset : Int) (c : CronExpr) {prev : Int} (pos : 0 < prev)
    (now : Int) {fuel : Nat} (enough : searchFuel ≤ fuel) :
    ∃ due, c.shouldFireBetween (fixedZone offset) fuel prev now = some due ∧
      (due = true ↔ CatchUp.Due (CronMinute c (fixedZone offset))
        (some (truncate prev minute)) (truncate now minute)) := by
  simp only [CronExpr.shouldFireBetween, CatchUp.Due, CronMinute, if_neg pos.ne']
  split
  -- A `now` that is not after `prev`: nothing lies between them.
  next early =>
    refine ⟨false, rfl, by simp, ?_⟩
    rintro ⟨m, after, upto, -⟩
    omega
  next =>
    obtain ⟨r, returns, spec⟩ := nextAfter_fixed offset c (truncate prev minute)
    rw [returns fuel enough]
    refine ⟨_, rfl, ?_⟩
    simp only [FiresNext, truncate_truncate] at spec
    rcases spec with ⟨grid, after, fires, least⟩ | ⟨rfl, never⟩
    · -- The next fire lies after `prev`, so it is not the zero time.
      have positive : r ≠ 0 := by
        unfold truncate minute at after
        omega
      simp only [positive, if_false, not_lt, decide_eq_true_eq]
      constructor
      · intro upto
        exact ⟨r, after, upto, grid, fires⟩
      · rintro ⟨m, later, upto, mgrid, mfires⟩
        by_contra beyond
        simp [least m mgrid later (by omega)] at mfires
    -- The zero time stands for "no fire within the cap".
    · simp only [if_true, Bool.false_eq_true, false_iff]
      rintro ⟨m, later, -, -, mfires⟩
      simp [never m later] at mfires

theorem answers_fixed (offset : Int) {fuel : Nat} (enough : searchFuel ≤ fuel) :
    Answers (fixedZone offset) fuel := by
  intro c prev now
  obtain ⟨r, returns, -⟩ := nextAfter_fixed offset c (truncate prev minute)
  simp only [CronExpr.shouldFireBetween, returns fuel enough]
  repeat' split
  all_goals simp

/-! ### Timers as catch-up timers -/

/-- The timer of an enabled schedule, with the minute of its last fire. The zero time reads as
"never fired", so a set `last_fired_at` is after it. -/
structure Tracks (c : CronExpr) (t : Timer) (last : Option Int) : Prop where
  enabled : t.enabled = true
  parsed : parseCron t.cron = .ok c
  fired : (t.lastFiredAt = none ∧ last = none) ∨
    ∃ at_, 0 < at_ ∧ t.lastFiredAt = some at_ ∧ last = some (truncate at_ minute)

section Fixed

variable {offset : Int} {fuel : Nat} {c : CronExpr} {t : Timer} {last : Option Int}

variable (tracks : Tracks c t last) (enough : searchFuel ≤ fuel)
include tracks enough

theorem Tracks.fires_iff (now : Int) :
    t.fires (fixedZone offset) fuel now = true ↔
      CatchUp.Due (CronMinute c (fixedZone offset)) last (truncate now minute) := by
  simp only [Timer.fires, Timer.due, tracks.enabled, tracks.parsed, Bool.true_and]
  rcases tracks.fired with ⟨never, rfl⟩ | ⟨at_, pos, fired, rfl⟩
  · simp [never, CronExpr.shouldFireBetween, CatchUp.Due, CronMinute, onMinute_truncate]
  · obtain ⟨due, answer, spec⟩ := shouldFireBetween_fixed offset c pos now enough
    rw [fired, Option.getD_some, answer, Option.getD_some, spec]

theorem Tracks.advance {now : Int} (pos : last = none → 0 < now) :
    Tracks c (t.advance (fixedZone offset) fuel now)
      (CatchUp.advance (CronMinute c (fixedZone offset)) last (truncate now minute)) := by
  have due : t.fires (fixedZone offset) fuel now = true ↔ _ := tracks.fires_iff enough now
  unfold Timer.advance CatchUp.advance
  split
  next fires =>
    rw [if_pos (due.mp fires)]
    refine ⟨tracks.enabled, tracks.parsed, .inr ⟨now, ?_, rfl, rfl⟩⟩
    rcases tracks.fired with ⟨-, never⟩ | ⟨at_, later, -, rfl⟩
    · exact pos never
    -- Fires only move forward, so the new `last_fired_at` is after the zero time as well.
    · obtain ⟨m, after, upto, -⟩ := due.mp fires
      unfold truncate minute at *
      omega
  next idle =>
    rw [if_neg fun now => idle (due.mpr now)]
    exact tracks

theorem Tracks.after {nows : List Int} (pos : last = none → ∀ now ∈ nows, 0 < now) (k : Nat) :
    Tracks c (t.after (fixedZone offset) fuel nows k)
      (((nows.map (truncate · minute)).take k).foldl
        (CatchUp.advance (CronMinute c (fixedZone offset))) last) := by
  induction nows generalizing t last k with
  | nil => simpa [Timer.after] using tracks
  | cons first later ih =>
    cases k with
    | zero => simpa [Timer.after] using tracks
    | succ k =>
      refine ih (tracks.advance enough fun never => pos never first List.mem_cons_self) ?_ k
      intro never now member
      -- A timer that has still never fired had not fired before this tick.
      refine pos ?_ now (.tail first member)
      unfold CatchUp.advance at never
      split at never
      · cases never
      · exact never

/-- Tick `k` fires the timer exactly when the catch-up timer fires. -/
theorem Tracks.fires_after_iff {nows : List Int} (pos : last = none → ∀ now ∈ nows, 0 < now)
    {k : Nat} {now : Int} (found : nows[k]? = some now) :
    (t.after (fixedZone offset) fuel nows k).fires (fixedZone offset) fuel now = true ↔
      CatchUp.FiresAt (CronMinute c (fixedZone offset)) last
        (nows.map (truncate · minute)) k := by
  rw [(tracks.after enough pos k).fires_iff enough, CatchUp.FiresAt]
  simp [found]

end Fixed

/-- A run of ticks in a zone with one offset fires a schedule as its catch-up timer says, at
most once a tick. -/
theorem ticks_fixed {σ : Type} {env : Environment σ} (offset : Int) {fuel : Nat}
    (reliable : Reliable env) (enough : searchFuel ≤ fuel) (nows : List Int) (st : State σ) :
    ∃ logs final, ticks env (fixedZone offset) fuel nows st = .ok (logs, final) ∧
      ∀ side ∈ [snapshotSide, replicationSide], ∀ t ∈ side.timers st.store, ∀ c last,
        Tracks c t last → (last = none → ∀ now ∈ nows, 0 < now) → ∀ k now, nows[k]? = some now →
          ∃ log, logs[k]? = some log ∧ log.count (side.fire t.id) ≤ 1 ∧
            (side.fire t.id ∈ log ↔ CatchUp.FiresAt (CronMinute c (fixedZone offset)) last
              (nows.map (truncate · minute)) k) := by
  obtain ⟨logs, final, done, follow⟩ := ticks_spec reliable (answers_fixed offset enough) nows st
  refine ⟨logs, final, done, fun side known t member c last tracks pos k now found => ?_⟩
  obtain ⟨log, here, count⟩ := follow side known t member k now found
  refine ⟨log, here, count ▸ Bool.toNat_le _, ?_⟩
  rw [← tracks.fires_after_iff enough pos found, ← List.count_pos_iff, count]
  cases (t.after (fixedZone offset) fuel nows k).fires (fixedZone offset) fuel now <;> simp

/-! ### Schedules that have fired -/

/-- The tick before number `k`; the first one is preceded by the last fire. -/
def tickBefore (last : Int) (nows : List Int) : Nat → Int
  | 0 => last
  | k + 1 => nows.getD k last

/-- Minute `m` lies between tick `k` and the later of the tick before and the last fire. -/
def Covers (last : Int) (nows : List Int) (k : Nat) (m : Int) : Prop :=
  ∃ now, nows[k]? = some now ∧
    truncate (max last (tickBefore last nows k)) minute < m ∧ m ≤ truncate now minute

theorem since_truncate {last now : Int} {nows : List Int} {k : Nat} (sorted : nows.Pairwise (· ≤ ·))
    (found : nows[k]? = some now) :
    CatchUp.since (truncate last minute) (nows.map (truncate · minute)) k =
      truncate (max last (tickBefore last nows k)) minute := by
  cases k with
  | zero => simp [CatchUp.since_zero, tickBefore]
  | succ k =>
    have inside := (List.getElem?_eq_some_iff.mp found).1
    have previous : nows[k]? = some (nows.getD k last) := by
      rw [List.getD_eq_getElem?_getD, List.getElem?_eq_getElem (by omega)]
      rfl
    rw [CatchUp.since_eq (List.pairwise_map.mpr (sorted.imp truncate_mono)) (by
      rw [List.getElem?_map, previous, Option.map_some]), tickBefore]
    exact (Monotone.map_max fun _ _ => truncate_mono).symm

/-- A snapshot schedule with a `last_fired_at` after the zero time, ticks in UTC: each tick
fires it exactly when a cron minute lies after the last fire and the tick before, and every
cron minute since the last fire is covered by one tick, the first one at or after it, which
fires. -/
theorem snapshot_fires_catch_up {σ : Type} (env : Environment σ) (reliable : Reliable env)
    (fuel : Nat) (enough : searchFuel ≤ fuel) (st : State σ) (s : SnapshotSchedule)
    (row : s ∈ st.store.snapshotSchedules) (enabled : s.enabled = true) (c : CronExpr)
    (parsed : parseCron s.cron = .ok c) (last : Int) (fired : s.lastFiredAt = some last)
    (pos : 0 < last) (nows : List Int) (sorted : nows.Pairwise (· ≤ ·)) :
    ∃ logs final, ticks env utc fuel nows st = .ok (logs, final) ∧
      (∀ k now, nows[k]? = some now → ∃ log, logs[k]? = some log ∧
        log.count (.fireSnapshot s.id) ≤ 1 ∧
        (.fireSnapshot s.id ∈ log ↔ ∃ m, CronMinute c utc m ∧ Covers last nows k m)) ∧
      (∀ m n now, CronMinute c utc m → truncate last minute < m → nows[n]? = some now →
        m ≤ now → ∃ k at_ log, k ≤ n ∧ nows[k]? = some at_ ∧ m ≤ at_ ∧
          (∀ i earlier, i < k → nows[i]? = some earlier → earlier < m) ∧
          (∀ j, Covers last nows j m ↔ j = k) ∧
          logs[k]? = some log ∧ .fireSnapshot s.id ∈ log) := by
  obtain ⟨logs, final, done, follow⟩ := ticks_fixed 0 reliable enough nows st
  have tracks : Tracks c s.timer (some (truncate last minute)) :=
    ⟨enabled, parsed, .inr ⟨last, pos, fired, rfl⟩⟩
  have fires :=
    follow snapshotSide (by simp) s.timer (List.mem_map_of_mem row) c _ tracks (by simp)
  -- The library counts in minutes, the ticks are instants: the two forms of covering agree.
  have covers (k : Nat) (m : Int) : Covers last nows k m ↔ ∃ now, nows[k]? = some now ∧
      CatchUp.since (truncate last minute) (nows.map (truncate · minute)) k < m ∧
        m ≤ truncate now minute := by
    refine exists_congr fun now => and_congr_right fun found => ?_
    rw [since_truncate sorted found]
  have firesAt (k : Nat) : CatchUp.FiresAt (CronMinute c utc) (some (truncate last minute))
      (nows.map (truncate · minute)) k ↔ ∃ m, CronMinute c utc m ∧ Covers last nows k m := by
    simp only [CatchUp.firesAt_iff, covers, List.getElem?_map, Option.map_eq_some_iff]
    constructor
    · rintro ⟨_, m, ⟨now, found, rfl⟩, after, upto, cron⟩
      exact ⟨m, cron, now, found, after, upto⟩
    · rintro ⟨m, cron, now, found, after, upto⟩
      exact ⟨_, m, ⟨now, found, rfl⟩, after, upto, cron⟩
  refine ⟨logs, final, done, fun k now found => ?_, fun m n now cron after found upto => ?_⟩
  · obtain ⟨log, here, once, fired⟩ := fires k now found
    exact ⟨log, here, once, fired.trans (firesAt k)⟩
  -- The first tick at or after `m` is the one that covers it.
  · obtain ⟨k, _, le, tick, beyond, earlier, due⟩ := CatchUp.hit_fires cron after
      (by rw [List.getElem?_map, found, Option.map_some]) ((le_truncate_iff cron.1).mpr upto)
    have only := CatchUp.covered_iff after tick beyond earlier
    obtain ⟨at_, here, rfl⟩ := Option.map_eq_some_iff.mp ((List.getElem?_map ..).symm.trans tick)
    obtain ⟨log, logged, -, fired⟩ := fires k at_ here
    refine ⟨k, at_, log, le, here, (le_truncate_iff cron.1).mp beyond, fun i e less found => ?_,
      fun j => ?_, logged, fired.mpr due⟩
    · refine (truncate_lt_iff cron.1).mp (earlier i _ less ?_)
      rw [List.getElem?_map, found, Option.map_some]
    · rw [covers, ← only j]
      simp

/-! ### A schedule at noon -/

def noonDaily : CronExpr :=
  ⟨⟨false, [0]⟩, ⟨false, [12]⟩, ⟨true, []⟩, ⟨true, []⟩, ⟨true, []⟩, "0 12 * * *"⟩

/-- A noon. -/
def noon : Int := 739570 * day + 12 * Clock.hour

/-- A host without snapshots on which everything succeeds. -/
def emptyHost : Environment Unit where
  query _ w := (none, w)
  order _ rows := rows
  order_perm _ rows := .refl rows
  create _ _ _ w := (none, w)
  destroy _ w := (none, w)
  list _ w := (.ok [], w)
  transport := true
  transfer _ _ _ _ w := ((none, none), w)
  quote name := name

def noonSnapshots (last : Option Int) : SnapshotSchedule :=
  ⟨1, "tank", "noon", "0 12 * * *", false, "auto", 0, 0, 0, 0, 0, true, last⟩

def noonReplication (last : Option Int) : ReplicationSchedule :=
  ⟨2, "tank", 3, "0 12 * * *", "repl", true, last, none, none⟩

def noonState (last : Option Int) : State Unit :=
  ⟨(), ⟨[noonSnapshots last], [noonReplication last], [⟨3, "backup"⟩],
    by simp, by simp, by simp⟩, []⟩

/-- A first tick three minutes after noon makes up for the minute at noon. -/
theorem snapshot_fires_catch_up_noon :
    ∃ logs final log, ticks emptyHost utc searchFuel [noon + 3 * minute]
        (noonState (some (noon - day))) = .ok (logs, final) ∧
      logs[0]? = some log ∧ .fireSnapshot 1 ∈ log := by
  obtain ⟨logs, final, done, fires, -⟩ := snapshot_fires_catch_up emptyHost (fun _ _ => rfl)
    searchFuel le_rfl (noonState (some (noon - day)))
    (noonSnapshots (some (noon - day)))
    (List.mem_singleton.mpr rfl) rfl noonDaily (by decide) (noon - day) rfl (by decide)
    [noon + 3 * minute] (List.pairwise_singleton _ _)
  obtain ⟨log, here, -, exactly⟩ := fires 0 _ rfl
  exact ⟨logs, final, log, done, here, exactly.mpr ⟨noon, by decide, _, rfl, by decide, by decide⟩⟩

/-- Two ways to miss a fire between two ticks: a `last_fired_at` that is the zero time reads as
"never fired", and one that lies ahead of the ticks holds them back. -/
theorem snapshot_fire_missed :
    parseCron "0 12 * * *" = .ok noonDaily ∧ CronMinute noonDaily utc noon ∧
    -- Last fire at the zero time, one tick a minute after noon.
    (truncate 0 minute < noon ∧ noon ≤ truncate (noon + minute) minute ∧
      (ticks emptyHost utc searchFuel [noon + minute] (noonState (some 0))).toOption.map
        (·.1) = some [[]]) ∧
    -- Last fire ten minutes after noon, ticks around noon.
    (truncate (noon - minute) minute < noon ∧
      noon ≤ truncate (noon + minute) minute ∧
      (ticks emptyHost utc searchFuel [noon - minute, noon + minute]
        (noonState (some (noon + 10 * minute)))).toOption.map (·.1) = some [[], []]) := by
  refine ⟨by decide, by decide, ⟨by decide, by decide, ?_⟩, by decide, by decide, ?_⟩ <;>
    decide +kernel

/-! ### Schedules that have never fired -/

/-- A schedule of either table that has never fired, in a zone with one offset: no cron minute
after the first tick is lost exactly when every tick by which one has passed ran within a cron
minute, or an earlier one did. -/
theorem first_fire_kept_iff {σ : Type} (env : Environment σ) (reliable : Reliable env)
    (offset : Int) (fuel : Nat) (enough : searchFuel ≤ fuel) (st : State σ) (side : Side)
    (table : side ∈ [snapshotSide, replicationSide]) (t : Timer) (row : t ∈ side.timers st.store)
    (enabled : t.enabled = true) (c : CronExpr) (parsed : parseCron t.cron = .ok c)
    (never : t.lastFiredAt = none) (first : Int) (later : List Int) (pos : 0 < first)
    (sorted : (first :: later).Pairwise (· ≤ ·)) :
    ∃ logs final, ticks env (fixedZone offset) fuel (first :: later) st = .ok (logs, final) ∧
      ((∀ (k : Nat) now m, (first :: later)[k]? = some now → CronMinute c (fixedZone offset) m →
          truncate first minute < m → m ≤ truncate now minute →
          ∃ j at_ log, j ≤ k ∧ (first :: later)[j]? = some at_ ∧ m ≤ at_ ∧ logs[j]? = some log ∧
            side.fire t.id ∈ log) ↔
        (∀ (k : Nat) now m, (first :: later)[k]? = some now → CronMinute c (fixedZone offset) m →
          truncate first minute < m → m ≤ truncate now minute →
          ∃ j at_, j ≤ k ∧ (first :: later)[j]? = some at_ ∧
            CronMinute c (fixedZone offset) (truncate at_ minute))) := by
  obtain ⟨logs, final, done, follow⟩ :=
    ticks_fixed offset reliable enough (first :: later) st
  have positive : ∀ now ∈ first :: later, 0 < now := by
    refine List.forall_mem_cons.mpr ⟨pos, fun now member => ?_⟩
    exact lt_of_lt_of_le pos (List.rel_of_pairwise_cons sorted member)
  have fires :=
    follow side table t row c none ⟨enabled, parsed, .inl ⟨never, rfl⟩⟩ fun _ => positive
  -- From here on nothing depends on which tick came first.
  generalize first :: later = nows at *
  have lost := CatchUp.nothing_lost_iff (CronMinute c (fixedZone offset))
    (truncate first minute) (nows.map (truncate · minute))
  simp only [List.getElem?_map, Option.map_eq_some_iff] at lost
  refine ⟨logs, final, done, ?_, ?_⟩
  · intro kept k now m found cron after upto
    obtain ⟨j, _, le, ⟨at_, here, rfl⟩, hit⟩ := lost.mp (by
      rintro k _ m ⟨now, found, rfl⟩ after upto cron
      obtain ⟨j, at_, log, le, here, beyond, logged, fired⟩ := kept k now m found cron after upto
      obtain ⟨_, logged', -, exactly⟩ := fires j at_ here
      obtain rfl := Option.some.inj (logged.symm.trans logged')
      exact ⟨j, _, le, ⟨at_, here, rfl⟩, (le_truncate_iff cron.1).mpr beyond, exactly.mp fired⟩)
      k _ m ⟨now, found, rfl⟩ after upto cron
    exact ⟨j, at_, le, here, hit⟩
  · intro ticked k now m found cron after upto
    obtain ⟨j, _, le, ⟨at_, here, rfl⟩, beyond, due⟩ := lost.mpr (by
      rintro k _ m ⟨now, found, rfl⟩ after upto cron
      obtain ⟨j, at_, le, here, hit⟩ := ticked k now m found cron after upto
      exact ⟨j, _, le, ⟨at_, here, rfl⟩, hit⟩)
      k _ m ⟨now, found, rfl⟩ after upto cron
    obtain ⟨log, logged, -, exactly⟩ := fires j at_ here
    exact ⟨j, at_, log, le, here, (le_truncate_iff cron.1).mp beyond, logged, exactly.mpr due⟩

/-- A tick within the minute of noon fires a schedule that has never fired. -/
theorem first_fire_kept_noon :
    ∃ logs final, ticks emptyHost (fixedZone 0) searchFuel [noon - minute, noon]
        (noonState none) = .ok (logs, final) ∧
      ∃ (j : Nat) (at_ : Int) (log : List Event), j ≤ 1 ∧
        [noon - minute, noon][j]? = some at_ ∧ noon ≤ at_ ∧
        logs[j]? = some log ∧ .fireReplication 2 ∈ log := by
  obtain ⟨logs, final, done, kept⟩ := first_fire_kept_iff emptyHost (fun _ _ => rfl) 0 searchFuel
    le_rfl (noonState none) replicationSide (by simp) (noonReplication none).timer
    (List.mem_singleton.mpr rfl) rfl noonDaily (by decide) rfl (noon - minute) [noon]
    (by decide) (by decide)
  refine ⟨logs, final, done, kept.mpr ?_ 1 noon noon rfl (by decide) (by decide) (by decide)⟩
  intro k now m found cron after upto
  rcases k with _ | k
  · obtain rfl : noon - minute = now := by simpa using found
    omega
  · exact ⟨1, noon, by omega, rfl, by decide⟩

/-- No tick ran within the minute of noon, and neither a snapshot nor a replication schedule
is fired for it. -/
theorem first_fire_lost :
    parseCron "0 12 * * *" = .ok noonDaily ∧ CronMinute noonDaily utc noon ∧
      truncate (noon - minute) minute < noon ∧
      noon ≤ truncate (noon + minute) minute ∧
      (ticks emptyHost utc searchFuel [noon - minute, noon + minute]
        (noonState none)).toOption.map (·.1) = some [[], []] := by
  refine ⟨by decide, by decide, by decide, by decide, ?_⟩
  decide +kernel

end NovaNas.Scheduler
