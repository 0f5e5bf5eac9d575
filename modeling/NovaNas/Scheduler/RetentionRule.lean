import NovaNas.Scheduler.Retention

/-!
# What retention keeps

The rule behind the five passes, in terms of the calendar: hours, days, weeks, months and
years are numbered in the order of time, and a class keeps the earliest snapshot of each of
the latest buckets that have one.
-/
namespace NovaNas.Scheduler

open Calendar Clock

inductive RetentionClass where
  | hourly
  | daily
  | weekly
  | monthly
  | yearly
  deriving DecidableEq, Repr

namespace RetentionClass

/-- The number of the hour, day, week, month or year, in UTC, that an instant lies in. ISO weeks
run from Monday to Sunday. -/
def bucket : RetentionClass → Int → Int
  | hourly, t => t / Clock.hour
  | daily, t => t / Clock.day
  | weekly, t => t / Clock.day / 7
  | monthly, t => clockMonth t
  | yearly, t => clockYear t

def key : RetentionClass → Int → String
  | hourly => hourKey
  | daily => dayKey
  | weekly => weekKey
  | monthly => monthKey
  | yearly => yearKey

def count (p : RetentionPolicy) : RetentionClass → Int
  | hourly => p.hourly
  | daily => p.daily
  | weekly => p.weekly
  | monthly => p.monthly
  | yearly => p.yearly

/-- The snapshot is the earliest of its bucket. -/
def Earliest (cls : RetentionClass) (snaps : List SnapInfo) (s : SnapInfo) : Prop :=
  ∀ r ∈ snaps, cls.bucket r.time = cls.bucket s.time → s.time ≤ r.time

/-- How many buckets that occur in the list are later than that of `s`. -/
def later (cls : RetentionClass) (snaps : List SnapInfo) (s : SnapInfo) : Nat :=
  (((snapTimes snaps).image cls.bucket).filter (cls.bucket s.time < ·)).card

theorem key_numbers (cls : RetentionClass) : Buckets.Numbers cls.key cls.bucket := by
  cases cls with
  | hourly => exact hourKey_numbers
  | daily => exact dayKey_numbers
  | weekly => exact weekKey_numbers
  | monthly => exact monthKey_numbers
  | yearly => exact yearKey_numbers

theorem exists_classes (p : RetentionPolicy) (holds : (Int → String) → Nat → Prop) :
    (∃ cls ∈ p.classes, holds cls.1 cls.2) ↔
      ∃ cls : RetentionClass, holds cls.key (cls.count p).toNat := by
  simp only [RetentionPolicy.classes, List.exists_mem_cons_iff]
  constructor
  · rintro (holds | holds | holds | holds | holds | ⟨_, member, -⟩)
    · exact ⟨hourly, holds⟩
    · exact ⟨daily, holds⟩
    · exact ⟨weekly, holds⟩
    · exact ⟨monthly, holds⟩
    · exact ⟨yearly, holds⟩
    · simp at member
  · rintro ⟨cls, holds⟩
    cases cls <;> simp_all [key, count]

theorem mem_newest_firsts {snaps : List SnapInfo} {s : SnapInfo} (member : s ∈ snaps)
    (cls : RetentionClass) (n : Int) :
    s.time ∈ Buckets.newest n.toNat (Buckets.firsts cls.key (snapTimes snaps)) ↔
      0 < n ∧ cls.Earliest snaps s ∧ (cls.later snaps s : Int) < n := by
  have time : s.time ∈ snapTimes snaps := mem_snapTimes.mpr ⟨s, member, rfl⟩
  have first : s.time ∈ Buckets.firsts cls.key (snapTimes snaps) ↔ cls.Earliest snaps s := by
    simp [Buckets.mem_firsts, time, mem_snapTimes, Earliest, cls.key_numbers.same]
  rw [Buckets.mem_newest, first]
  constructor
  · rintro ⟨earliest, few⟩
    rw [cls.key_numbers.card_above (first.mpr earliest)] at few
    unfold later
    exact ⟨by omega, earliest, by omega⟩
  · rintro ⟨-, earliest, few⟩
    refine ⟨earliest, ?_⟩
    rw [cls.key_numbers.card_above (first.mpr earliest)]
    unfold later at few
    omega

end RetentionClass

theorem kept_append_dropped (snaps : List SnapInfo) (p : RetentionPolicy) :
    ((partitionRetention snaps p).1 ++ (partitionRetention snaps p).2).Perm snaps := by
  simpa [partitionRetention] using
    List.filter_append_perm (fun s : SnapInfo => decide (s.name ∈ classifyKeep snaps p)) snaps

theorem mem_dropped {snaps : List SnapInfo} {p : RetentionPolicy} {s : SnapInfo} :
    s ∈ (partitionRetention snaps p).2 ↔ s ∈ snaps ∧ s ∉ (partitionRetention snaps p).1 := by
  simp only [partitionRetention, List.mem_filter, decide_eq_true_eq, not_and]
  exact and_congr_right fun member => ⟨fun out _ => out, fun out => out member⟩

theorem dropped_perm {a b : List SnapInfo} (p : RetentionPolicy) (da : Distinct a) (db : Distinct b)
    (same : ∀ s, s ∈ (partitionRetention a p).2 ↔ s ∈ (partitionRetention b p).2) :
    (partitionRetention a p).2.Perm (partitionRetention b p).2 :=
  (List.perm_ext_iff_of_nodup (da.nodup.filter _) (db.nodup.filter _)).mpr same

/-- A snapshot is kept exactly when it is, for a class with a positive count, the earliest of its
bucket and fewer than that many later buckets occur. What is kept and what is dropped together
are the input, and the order of the input makes no difference to either. -/
theorem partitionRetention_rule {snaps : List SnapInfo} (distinct : Distinct snaps)
    (p : RetentionPolicy) :
    (∀ s ∈ snaps, s ∈ (partitionRetention snaps p).1 ↔
      ∃ cls : RetentionClass, 0 < cls.count p ∧ cls.Earliest snaps s ∧
        (cls.later snaps s : Int) < cls.count p) ∧
    ((partitionRetention snaps p).1 ++ (partitionRetention snaps p).2).Perm snaps ∧
    (∀ s ∈ (partitionRetention snaps p).1, s ∉ (partitionRetention snaps p).2) ∧
    ∀ other, Distinct other → (∀ s, s ∈ other ↔ s ∈ snaps) →
      (partitionRetention other p).1.Perm (partitionRetention snaps p).1 ∧
      (partitionRetention other p).2.Perm (partitionRetention snaps p).2 := by
  refine ⟨fun s member => ?_, kept_append_dropped snaps p, fun s kept dropped => ?_,
    fun other apart same => ?_⟩
  · rw [mem_kept distinct, and_iff_right member, Buckets.mem_keep,
      RetentionClass.exists_classes p fun k n =>
        s.time ∈ Buckets.newest n (Buckets.firsts k (snapTimes snaps))]
    exact exists_congr fun cls => cls.mem_newest_firsts member _
  · exact (mem_dropped.mp dropped).2 kept
  · -- Lists without repetition and with the same members are rearrangements of each other.
    have perm : other.Perm snaps :=
      (List.perm_ext_iff_of_nodup apart.nodup distinct.nodup).mpr same
    have kept := mem_kept_perm distinct perm p
    refine ⟨kept_perm p apart distinct kept, dropped_perm p apart distinct fun s => ?_⟩
    rw [mem_dropped, mem_dropped, same, kept]

/-- Monday, December 30, 2024 belongs to the first ISO week of 2025, and so does New Year's Day:
of the two and the Sunday before, one weekly and one yearly snapshot leave the Monday and the
first of January. -/
theorem new_year_week :
    let sunday : SnapInfo := ⟨"tank@auto-1", 739248 * Clock.day⟩
    let monday : SnapInfo := ⟨"tank@auto-2", 739249 * Clock.day⟩
    let newYear : SnapInfo := ⟨"tank@auto-3", 739251 * Clock.day⟩
    let p : RetentionPolicy := ⟨0, 0, 1, 0, 1⟩
    partitionRetention [newYear, sunday, monday] p = ([newYear, monday], [sunday]) ∧
      ∃ cls : RetentionClass, 0 < cls.count p ∧ cls.Earliest [newYear, sunday, monday] monday ∧
        (cls.later [newYear, sunday, monday] monday : Int) < cls.count p := by
  intro sunday monday newYear p
  have parts : partitionRetention [newYear, sunday, monday] p = ([newYear, monday], [sunday]) := by
    decide +kernel
  have distinct : Distinct [newYear, sunday, monday] := ⟨by decide, by decide⟩
  refine ⟨parts, ((partitionRetention_rule distinct p).1 monday (by simp)).mp ?_⟩
  simp [parts]

end NovaNas.Scheduler
