import NovaNas.Scheduler.Prune
import NovaNas.Scheduler.RetentionRule

/-!
# Retention counts of stored schedules

The handlers store the five counts of a request as they come, negative ones included. Pruning
takes five zeros for "no retention configured" and leaves everything alone, while the selection
keeps nothing for any count that is not positive.
-/
namespace NovaNas.Scheduler

open Clock

/-! ### The handlers -/

structure SnapshotScheduleRequest where
  dataset : String
  name : String
  cron : String
  recursive : Bool
  snapshotPrefix : String
  retentionHourly : Int32
  retentionDaily : Int32
  retentionWeekly : Int32
  retentionMonthly : Int32
  retentionYearly : Int32
  enabled : Bool
  deriving DecidableEq, Repr

/-- Code and message of a refused request. -/
structure Refusal where
  code : String
  message : String
  deriving DecidableEq, Repr

/-- The row that POST inserts, under the id the database gives it. -/
def createSnapshotSchedule (id : Nat) (req : SnapshotScheduleRequest) :
    Except Refusal SnapshotSchedule :=
  if req.dataset = "" || req.name = "" || req.cron = "" || req.snapshotPrefix = "" then
    .error ⟨"bad_input", "dataset, name, cron, snapshotPrefix are required"⟩
  else
    .ok { id
          dataset := req.dataset
          name := req.name
          cron := req.cron
          recursive := req.recursive
          snapshotPrefix := req.snapshotPrefix
          retentionHourly := req.retentionHourly.toInt
          retentionDaily := req.retentionDaily.toInt
          retentionWeekly := req.retentionWeekly.toInt
          retentionMonthly := req.retentionMonthly.toInt
          retentionYearly := req.retentionYearly.toInt
          enabled := req.enabled
          lastFiredAt := none }

/-! ### What the counts keep -/

theorem RetentionClass.mem_classes (cls : RetentionClass) (p : RetentionPolicy) :
    (cls.key, (cls.count p).toNat) ∈ p.classes := by
  cases cls <;> simp [RetentionPolicy.classes, key, count]

theorem RetentionPolicy.unset_iff (p : RetentionPolicy) :
    p.unset = true ↔ ∀ cls : RetentionClass, cls.count p = 0 := by
  simp only [unset, Bool.and_eq_true, beq_iff_eq]
  constructor
  · rintro ⟨⟨⟨⟨hourly, daily⟩, weekly⟩, monthly⟩, yearly⟩ cls
    cases cls <;> assumption
  · intro zero
    exact ⟨⟨⟨⟨zero .hourly, zero .daily⟩, zero .weekly⟩, zero .monthly⟩, zero .yearly⟩

/-- A positive count keeps a snapshot of every list that has one: the first of the latest bucket. -/
theorem exists_kept {snaps : List SnapInfo} (some : snaps ≠ []) {p : RetentionPolicy}
    {cls : RetentionClass} (pos : 0 < cls.count p) :
    ∃ s ∈ snaps, s.name ∈ classifyKeep snaps p := by
  let b := bucketEarliest (sortByTime snaps) cls.key
  have sub : ∀ s ∈ b, s ∈ snaps := fun s member =>
    (sortByTime_perm snaps).mem_iff.mp ((bucketEarliestFrom_sublist _ _ _).subset member)
  have filled : b ≠ [] := by
    -- The oldest snapshot opens a bucket.
    cases sorted : sortByTime snaps with
    | nil => exact absurd ((sorted ▸ sortByTime_perm snaps).nil_eq).symm some
    | cons oldest rest => simp [b, sorted, bucketEarliest, bucketEarliestFrom]
  refine ⟨b.getLast filled, sub _ (List.getLast_mem filled), ?_⟩
  rw [mem_classifyKeep]
  refine ⟨_, cls.mem_classes p, b.getLast filled, ?_, rfl⟩
  have length := List.length_pos_iff.mpr filled
  rw [← List.getLast_drop (i := b.length - (cls.count p).toNat)
    (by simp only [ne_eq, List.drop_eq_nil_iff]; omega)]
  exact List.getLast_mem _

theorem classifyKeep_of_nonpos (snaps : List SnapInfo) {p : RetentionPolicy}
    (nonpos : ∀ cls : RetentionClass, cls.count p ≤ 0) : classifyKeep snaps p = [] := by
  apply List.eq_nil_iff_forall_not_mem.mpr
  intro name kept
  rw [mem_classifyKeep, RetentionClass.exists_classes p fun k n =>
    ∃ s ∈ (bucketEarliest (sortByTime snaps) k).drop
      ((bucketEarliest (sortByTime snaps) k).length - n), s.name = name] at kept
  obtain ⟨cls, s, member, -⟩ := kept
  rw [Int.toNat_eq_zero.mpr (nonpos cls)] at member
  simp at member

/-! ### What a prune spares -/

variable {σ : Type}

/-- No class asks for anything, or one asks for something to be kept. -/
def RetentionPolicy.Sparing (p : RetentionPolicy) : Prop :=
  (∀ cls : RetentionClass, cls.count p = 0) ∨ ∃ cls : RetentionClass, 0 < cls.count p

/-- A managed snapshot of the listing that no destroy of the log names. -/
def Survives (loc : Location) (s : SnapshotSchedule) (listing : List Snapshot) (log : List Event)
    (sn : Snapshot) : Prop :=
  sn ∈ listing ∧ (s.manages loc sn).isSome ∧ .destroy s.id listing sn.name ∉ log

theorem mem_managed {loc : Location} {s : SnapshotSchedule} {listing : List Snapshot}
    {info : SnapInfo} : info ∈ s.managed loc listing ↔
      ∃ sn ∈ listing, s.manages loc sn = some info.time ∧ sn.name = info.name := by
  simp only [SnapshotSchedule.managed, List.mem_filterMap, Option.map_eq_some_iff]
  refine exists_congr fun sn => and_congr_right fun _ => ?_
  constructor
  · rintro ⟨t, manages, rfl⟩
    exact ⟨manages, rfl⟩
  · rintro ⟨manages, name⟩
    exact ⟨info.time, manages, by rw [name]⟩

theorem mem_drops_iff {loc : Location} {s : SnapshotSchedule} {listing : List Snapshot}
    (set : s.policy.unset = false) (name : String) :
    name ∈ s.drops loc listing ↔
      (∃ info ∈ s.managed loc listing, info.name = name) ∧
        name ∉ classifyKeep (s.managed loc listing) s.policy := by
  simp only [SnapshotSchedule.drops, set, Bool.false_eq_true, if_false, partitionRetention,
    List.mem_map, List.mem_filter, decide_eq_true_eq]
  constructor
  · rintro ⟨info, ⟨member, out⟩, rfl⟩
    exact ⟨⟨info, member, rfl⟩, out⟩
  · rintro ⟨⟨info, member, rfl⟩, out⟩
    exact ⟨info, ⟨member, out⟩, rfl⟩

/-- Of a listing that holds managed snapshots, a prune destroys nothing or spares one of them
exactly when the counts are all zero or one of them is positive. -/
theorem prune_spares_iff (env : Environment σ) (loc : Location) (s : SnapshotSchedule) (world : σ)
    (store : Store) {listing : List Snapshot}
    (shown : (env.list s.dataset world).1 = .ok listing)
    (managed : ∃ sn ∈ listing, (s.manages loc sn).isSome) :
    let log := (pruneSnapshots env loc s ⟨world, store, []⟩).2.log
    ((∀ cls : RetentionClass, cls.count s.policy = 0) ∧ log = [] ∨
      ∃ sn, Survives loc s listing log sn) ↔ s.policy.Sparing := by
  intro log
  have destroyed : log = (s.drops loc listing).map (.destroy s.id listing) := by
    simp only [log, (pruneSnapshots_spec env loc s _).2, shown, SnapshotSchedule.destroys,
      List.nil_append]
  have named (sn : Snapshot) :
      Event.destroy s.id listing sn.name ∈ log ↔ sn.name ∈ s.drops loc listing := by
    simp [destroyed]
  obtain ⟨sn, listed, manages⟩ := managed
  obtain ⟨t, manages⟩ := Option.isSome_iff_exists.mp manages
  have inside : (⟨sn.name, t⟩ : SnapInfo) ∈ s.managed loc listing :=
    mem_managed.mpr ⟨sn, listed, manages, rfl⟩
  constructor
  · -- Without a positive count, and with one that is not zero, every managed name is dropped.
    intro spared
    by_contra none
    simp only [RetentionPolicy.Sparing, not_or, not_exists, not_lt] at none
    have set : s.policy.unset = false := by
      rw [Bool.eq_false_iff, ne_eq, s.policy.unset_iff]
      exact none.1
    obtain ⟨zero, -⟩ | ⟨left, here, owned, alive⟩ := spared
    · exact none.1 zero
    · obtain ⟨u, owned⟩ := Option.isSome_iff_exists.mp owned
      rw [named, mem_drops_iff set, classifyKeep_of_nonpos _ none.2] at alive
      exact alive ⟨⟨⟨left.name, u⟩, mem_managed.mpr ⟨left, here, owned, rfl⟩, rfl⟩, by simp⟩
  · rintro (zero | ⟨cls, pos⟩)
    · have unset := s.policy.unset_iff.mpr zero
      exact .inl ⟨zero, by simp [destroyed, SnapshotSchedule.drops, unset]⟩
    · right
      have set : s.policy.unset = false := by
        rw [Bool.eq_false_iff, ne_eq, s.policy.unset_iff]
        exact fun zero => absurd (zero cls) (by omega)
      obtain ⟨info, member, kept⟩ := exists_kept (List.ne_nil_of_mem inside) pos
      obtain ⟨left, here, owned, name⟩ := mem_managed.mp member
      refine ⟨left, here, by simp [owned], ?_⟩
      rw [named, mem_drops_iff set, name]
      exact fun dropped => dropped.2 kept

/-- A daily schedule spares the snapshot of midnight. -/
theorem keepDaily_spares :
    (∃ sn ∈ [atMidnight, atOne], (keepDaily.manages utc sn).isSome) ∧
      ((∀ cls : RetentionClass, cls.count keepDaily.policy = 0) ∧
          (pruneSnapshots (frozenHost 0 [atMidnight, atOne]) utc keepDaily
            ⟨(), sharedPrefix, []⟩).2.log = [] ∨
        ∃ sn, Survives utc keepDaily [atMidnight, atOne]
          (pruneSnapshots (frozenHost 0 [atMidnight, atOne]) utc keepDaily
            ⟨(), sharedPrefix, []⟩).2.log sn) := by
  have managed : ∃ sn ∈ [atMidnight, atOne], (keepDaily.manages utc sn).isSome :=
    ⟨atMidnight, by simp, by decide +kernel⟩
  refine ⟨managed, ?_⟩
  exact (prune_spares_iff (frozenHost 0 [atMidnight, atOne]) utc keepDaily () sharedPrefix rfl
    managed).mpr (.inr ⟨.daily, by decide⟩)

def negativeHourly : SnapshotScheduleRequest :=
  ⟨"tank", "hourly", "0 * * * *", false, "auto", -1, 0, 0, 0, 0, true⟩

/-- A request with a count of minus one is stored, and the prune destroys every snapshot of the
schedule. -/
theorem negative_count_destroys_all :
    ∃ row, createSnapshotSchedule 1 negativeHourly = .ok row ∧
      ∀ sn ∈ [atMidnight, atOne], (row.manages utc sn).isSome ∧
        .destroy 1 [atMidnight, atOne] sn.name ∈
          (pruneSnapshots (frozenHost 0 [atMidnight, atOne]) utc row
            ⟨(), sharedPrefix, []⟩).2.log := by
  refine ⟨_, rfl, ?_⟩
  decide +kernel

end NovaNas.Scheduler
