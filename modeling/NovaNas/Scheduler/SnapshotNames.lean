import NovaNas.Scheduler.NextAfterZones
import NovaNas.Scheduler.MissedFires

/-!
# The names of scheduled snapshots

A snapshot is named after the wall clock at its fire, to the minute. Where the zone sets its clock
back, the wall clock shows the same minutes a second time, and a schedule that fires in both of them
asks for the same snapshot twice.
-/
namespace NovaNas.Scheduler

open Calendar Clock Text

/-- The zone shows no minute of its wall clock in two minutes of time. -/
def ShowsOnce (loc : Location) : Prop :=
  ∀ t u, loc.wall t / minute = loc.wall u / minute →
    t / minute = u / minute

/-- In no run of ticks do two fires of a schedule at different minutes ask for one name. -/
def NamesApart (loc : Location) : Prop :=
  ∀ (σ : Type) (env : Environment σ) (fuel : Nat) (nows : List Int) (st : State σ)
    (logs : List (List Event)) (final : State σ), ticks env loc fuel nows st = .ok (logs, final) →
    ∀ s ∈ st.store.snapshotSchedules, ∀ (j k : Nat) (t u : Int) (first second : List Event),
      nows[j]? = some t → logs[j]? = some first → .fireSnapshot s.id ∈ first →
      nows[k]? = some u → logs[k]? = some second → .fireSnapshot s.id ∈ second →
      t / minute ≠ u / minute →
      formatSnapTime loc s.snapshotPrefix t ≠ formatSnapTime loc s.snapshotPrefix u

/-- A time stamp tells the minute of the wall clock. -/
theorem stamp_eq_iff (x y : Int) :
    formatDate (clockDate x) ++ '-' :: padded 2 (clockHour x).toNat ++
        padded 2 (clockMinute x).toNat =
      formatDate (clockDate y) ++ '-' :: padded 2 (clockHour y).toNat ++
        padded 2 (clockMinute y).toNat ↔
      x / minute = y / minute := by
  have hour_lt (x : Int) : (clockHour x).toNat < 10 ^ 2 := by
    unfold clockHour
    omega
  have minute_lt (x : Int) : (clockMinute x).toNat < 10 ^ 2 := by
    unfold clockMinute
    omega
  constructor
  · intro same
    obtain ⟨front, minutes⟩ := append_padded_inj [] (by decide) (minute_lt x) (minute_lt y) same
    obtain ⟨dates, hours⟩ := append_padded_inj ['-'] (by decide) (hour_lt x) (hour_lt y) front
    have days := clockDate_injective (formatDate_injective dates)
    unfold clockHour clockMinute day hour minute at *
    omega
  · intro same
    -- A minute lies within one hour and one day.
    have sameDay : x / day = y / day := by
      unfold minute day at *
      omega
    have sameHour : x / hour = y / hour := by
      unfold minute hour at *
      omega
    simp only [clockDate, clockHour, clockMinute, sameDay, sameHour, same]

theorem formatSnapTime_eq_iff (loc : Location) (start : String) (t u : Int) :
    formatSnapTime loc start t = formatSnapTime loc start u ↔
      loc.wall t / minute = loc.wall u / minute := by
  rw [← stamp_eq_iff, formatSnapTime, formatSnapTime]
  constructor
  · intro same
    have lists := congrArg String.toList same
    simp only [String.toList_append, String.toList_ofList] at lists
    exact List.append_cancel_left lists
  · intro same
    exact congrArg (fun stamp => start ++ "-" ++ String.ofList stamp) same

/-! ### A schedule for every minute -/

/-- A host whose database does not remember fires. -/
def forgetful : Environment Unit :=
  { emptyHost with
    query := fun q w =>
      match q with
      | .markSnapshotScheduleFired _ => (some "connection reset", w)
      | _ => (none, w) }

def eachMinute : SnapshotSchedule :=
  ⟨1, "tank", "all", "* * * * *", false, "auto", 0, 0, 0, 0, 0, true, none⟩

theorem eachMinute_key : ([eachMinute].map (·.id)).Nodup := List.nodup_singleton _

theorem eachMinute_unique : ([eachMinute].map fun s => (s.dataset, s.name)).Nodup :=
  List.nodup_singleton _

theorem no_replication_key : (([] : List ReplicationSchedule).map (·.id)).Nodup := List.nodup_nil

def minutelyState (log : List Event) : State Unit :=
  ⟨(), ⟨[eachMinute], [], [], eachMinute_key, eachMinute_unique, no_replication_key⟩, log⟩

theorem ticks_minutely (loc : Location) (fuel : Nat) (t u : Int) :
    ticks forgetful loc fuel [t, u] (minutelyState []) =
      .ok ([[.fireSnapshot 1], [.fireSnapshot 1]], minutelyState [.fireSnapshot 1]) := by
  rfl

/-- Scheduled snapshots never collide with themselves just in the zones that show no minute of
their wall clock twice. -/
theorem names_apart_iff (loc : Location) : NamesApart loc ↔ ShowsOnce loc := by
  constructor
  · intro apart t u same
    by_contra different
    refine apart Unit forgetful 0 [t, u] (minutelyState []) _ _ (ticks_minutely loc 0 t u) eachMinute
      List.mem_cons_self 0 1 t u _ _ rfl rfl List.mem_cons_self rfl rfl List.mem_cons_self
      different ?_
    exact (formatSnapTime_eq_iff loc _ t u).mpr same
  · intro once σ env fuel nows st logs final _ s _ j k t u first second _ _ _ _ _ _ different same
    exact different (once t u ((formatSnapTime_eq_iff loc _ t u).mp same))

/-- A pool that refuses a snapshot whose name is taken. -/
def strictPool : Environment (List (String × String)) where
  query _ w := (none, w)
  order _ rows := rows
  order_perm _ rows := .refl rows
  create dataset short _ w :=
    if w.contains (dataset, short) then (some "dataset already exists", w)
    else (none, (dataset, short) :: w)
  destroy _ w := (none, w)
  list _ w := (.ok [], w)
  transport := true
  transfer _ _ _ _ w := ((none, none), w)
  quote name := name

/-- Half past one comes twice in the night the clock is set back: the schedule fires both times, and
there is one snapshot. -/
theorem snapshot_lost_in_repeated_hour :
    ∃ final, ticks strictPool newYork2026 1
        [739920 * day + 5 * hour + 30 * minute,
          739920 * day + 6 * hour + 30 * minute]
        ⟨[], (minutelyState []).store, []⟩ =
          .ok ([[.fireSnapshot 1], [.fireSnapshot 1]], final) ∧
      final.world = [("tank", "auto-2026-11-01-0130")] := by
  refine ⟨_, rfl, ?_⟩
  decide

end NovaNas.Scheduler
