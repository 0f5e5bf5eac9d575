import Mathlib.Data.List.Sort
import NovaNas.Base.Buckets
import NovaNas.Base.Clock
import NovaNas.Base.Text

/-!
# Snapshot retention

Snapshots are sorted by time, the earliest of every hour, day, ISO week, month and year is
picked, and of each class the most recent ones are kept. The bucket keys are texts; two
instants share a key exactly when they share the stretch of time it names, so the code
computes the selection of `Buckets.keep` over the snapshot times.
-/
namespace NovaNas.Scheduler

open Calendar Clock Text

/-- Keep counts, one for each class; a count that is not positive keeps nothing. -/
structure RetentionPolicy where
  hourly : Int
  daily : Int
  weekly : Int
  monthly : Int
  yearly : Int
  deriving DecidableEq, Repr

structure SnapInfo where
  name : String
  time : Int
  deriving DecidableEq, Repr

/-! ### Snapshot names -/

/-- "2006-01-02" -/
def formatDate (date : Date) : List Char :=
  formatInt 4 date.year ++ '-' :: padded 2 date.month ++ '-' :: padded 2 date.day.toNat

/-- "<start>-2006-01-02-1504", on the wall clock of `loc`. -/
def formatSnapTime (loc : Location) (start : String) (t : Int) : String :=
  let wall := loc.wall t
  start ++ "-" ++ String.ofList (formatDate (clockDate wall) ++
    '-' :: padded 2 (clockHour wall).toNat ++ padded 2 (clockMinute wall).toNat)

/-- `time.ParseInLocation` for the layout "2006-01-02-1504": every number has its full width. -/
def parseStamp (loc : Location) (stamp : List Char) : Option Int :=
  if stamp.length = 15 ∧ stamp[4]? = some '-' ∧ stamp[7]? = some '-' ∧ stamp[10]? = some '-' then do
    let year ← decimal (stamp.take 4)
    let month ← decimal ((stamp.drop 5).take 2)
    let day ← decimal ((stamp.drop 8).take 2)
    let hour ← decimal ((stamp.drop 11).take 2)
    let minute ← decimal (stamp.drop 13)
    if valid : 1 ≤ month ∧ month ≤ 12 ∧ 1 ≤ (day : Int) ∧ (day : Int) ≤ daysIn month year then
      if hour < 24 ∧ minute < 60 then
        some (loc.date (clockOf ⟨year, month, day, valid.1, valid.2.1, valid.2.2.1, valid.2.2.2⟩
          hour minute))
      else none
    else none
  else none

/-- The time in the name of a snapshot "<start>-<stamp>". -/
def parsedSnapTime (loc : Location) (short start : String) : Option Int :=
  let want := start.toList ++ ['-']
  if want.isPrefixOf short.toList then parseStamp loc (short.toList.drop want.length) else none

/-! ### Bucket keys -/

def hourKey (t : Int) : String :=
  String.ofList (formatDate (clockDate t) ++ '-' :: padded 2 (clockHour t).toNat)

def dayKey (t : Int) : String := String.ofList (formatDate (clockDate t))

def monthKey (t : Int) : String :=
  String.ofList (formatInt 4 (clockYear t) ++ '-' :: padded 2 (clockDate t).month)

def yearKey (t : Int) : String := String.ofList (formatInt 4 (clockYear t))

def formatWeek (y w : Int) : String :=
  String.ofList (formatInt 0 y ++ '-' :: 'W' :: padded 2 w.toNat)

def weekKey (t : Int) : String :=
  let (y, w) := isoWeek (t / day)
  formatWeek y w

/-! ### Selection -/

/-- The snapshots whose key is not in `seen` and has not occurred before them. -/
def bucketEarliestFrom (k : Int → String) (seen : List String) : List SnapInfo → List SnapInfo
  | [] => []
  | s :: rest =>
    if k s.time ∈ seen then bucketEarliestFrom k seen rest
    else s :: bucketEarliestFrom k (k s.time :: seen) rest

def bucketEarliest (sortedAsc : List SnapInfo) (k : Int → String) : List SnapInfo :=
  bucketEarliestFrom k [] sortedAsc

/-- The names of the last `n` entries, added to `keep`. -/
def keepN (b : List SnapInfo) (n : Int) (keep : List String) : List String :=
  if n ≤ 0 || b.length == 0 then keep
  else keep ++ (b.drop ((b.length : Int) - n).toNat).map (·.name)

/-- Oldest first; equal times keep their order. -/
def sortByTime (snaps : List SnapInfo) : List SnapInfo :=
  snaps.insertionSort (fun a b => a.time ≤ b.time)

def classifyKeep (snaps : List SnapInfo) (p : RetentionPolicy) : List String :=
  let sorted := sortByTime snaps
  let keep := keepN (bucketEarliest sorted hourKey) p.hourly []
  let keep := keepN (bucketEarliest sorted dayKey) p.daily keep
  let keep := keepN (bucketEarliest sorted weekKey) p.weekly keep
  let keep := keepN (bucketEarliest sorted monthKey) p.monthly keep
  keepN (bucketEarliest sorted yearKey) p.yearly keep

/-- The snapshots to keep and those to drop. -/
def partitionRetention (snaps : List SnapInfo) (p : RetentionPolicy) :
    List SnapInfo × List SnapInfo :=
  let keepSet := classifyKeep snaps p
  (snaps.filter (·.name ∈ keepSet), snaps.filter (·.name ∉ keepSet))

/-! ### A name belongs to one prefix -/

theorem length_of_parseStamp {loc : Location} {stamp : List Char} {t : Int}
    (parsed : parseStamp loc stamp = some t) : stamp.length = 15 := by
  unfold parseStamp at parsed
  split at parsed
  next shape => exact shape.1
  next => cases parsed

theorem parsedSnapTime_shape {loc : Location} {short start : String} {t : Int}
    (parsed : parsedSnapTime loc short start = some t) :
    ∃ stamp, stamp.length = 15 ∧ short.toList = start.toList ++ '-' :: stamp := by
  simp only [parsedSnapTime] at parsed
  split at parsed
  next starts =>
    obtain ⟨stamp, shape⟩ := List.isPrefixOf_iff_prefix.mp starts
    rw [← shape, List.drop_left] at parsed
    exact ⟨stamp, length_of_parseStamp parsed, by simp [← shape]⟩
  next => cases parsed

/-- The stamp has a fixed length, so the name determines what stands before it. -/
theorem parsedSnapTime_start_unique {loc : Location} {short a b : String} {s t : Int}
    (first : parsedSnapTime loc short a = some s) (second : parsedSnapTime loc short b = some t) :
    a = b := by
  obtain ⟨x, xlen, xshape⟩ := parsedSnapTime_shape first
  obtain ⟨y, ylen, yshape⟩ := parsedSnapTime_shape second
  have same := List.append_inj' (xshape.symm.trans yshape) (by simp [xlen, ylen])
  exact String.toList_injective same.1

/-! ### Keys name stretches of time -/

theorem formatDate_injective {a b : Date} (same : formatDate a = formatDate b) : a = b := by
  have day_lt (d : Date) : d.day.toNat < 10 ^ 2 := by
    have bound := (daysIn_bounds d.month d.year d.month_pos d.month_le).2
    have le := d.day_le
    omega
  have month_lt (d : Date) : d.month < 10 ^ 2 := by
    have le := d.month_le
    omega
  obtain ⟨front, days⟩ := append_padded_inj ['-'] (by decide) (day_lt a) (day_lt b) same
  obtain ⟨years, months⟩ := append_padded_inj ['-'] (by decide) (month_lt a) (month_lt b) front
  apply Date.ext
  · exact formatInt_injective years
  · exact months
  · have apos := a.day_pos
    have bpos := b.day_pos
    omega

theorem clockDate_injective {a b : Int} (same : clockDate a = clockDate b) :
    a / day = b / day := by
  rw [← dayNumber_dateOf (a / day), ← dayNumber_dateOf (b / day)]
  exact congrArg dayNumber same

theorem dayKey_numbers : Buckets.Numbers dayKey (· / day) where
  mono x y le := by
    simp only [day]
    omega
  same x y := by
    refine ⟨fun same => ?_, fun same => by simp only [dayKey, clockDate, same]⟩
    exact clockDate_injective (formatDate_injective (String.ofList_injective same))

theorem hourKey_numbers : Buckets.Numbers hourKey (· / hour) where
  mono x y le := by
    simp only [hour]
    omega
  same x y := by
    have hour_lt (t : Int) : (clockHour t).toNat < 10 ^ 2 := by
      unfold clockHour
      omega
    constructor
    · intro same
      obtain ⟨dates, hours⟩ := append_padded_inj ['-'] (by decide) (hour_lt x) (hour_lt y)
        (String.ofList_injective same)
      have days := clockDate_injective (formatDate_injective dates)
      unfold clockHour hour day at *
      omega
    · intro same
      -- An hour lies within one day.
      have sameDay : x / day = y / day := by
        unfold hour day at *
        omega
      simp only [hourKey, clockDate, clockHour, sameDay, same]

theorem yearKey_numbers : Buckets.Numbers yearKey clockYear where
  mono x y le := yearOf_mono (show x / day ≤ y / day by unfold day; omega)
  same x y := by
    refine ⟨fun same => formatInt_injective (String.ofList_injective same), fun same => ?_⟩
    simp only [yearKey, same]

/-- Months counted through the years. -/
def clockMonth (t : Int) : Int := 12 * clockYear t + (clockDate t).month

theorem clockMonth_inj {x y : Int} (same : clockMonth x = clockMonth y) :
    clockYear x = clockYear y ∧ (clockDate x).month = (clockDate y).month := by
  have xpos := (clockDate x).month_pos
  have xle := (clockDate x).month_le
  have ypos := (clockDate y).month_pos
  have yle := (clockDate y).month_le
  unfold clockMonth at same
  omega

theorem clockMonth_mono (x y : Int) (le : x ≤ y) : clockMonth x ≤ clockMonth y := by
  have days : x / day ≤ y / day := by
    unfold day
    omega
  have years : clockYear x ≤ clockYear y := yearOf_mono days
  by_contra less
  -- An earlier month of the same year ends before the later one begins.
  have xle := (clockDate x).month_le
  have ypos := (clockDate y).month_pos
  have year : (clockDate y).year = (clockDate x).year := by
    have yle := (clockDate y).month_le
    unfold clockMonth clockYear at *
    omega
  have month : (clockDate y).month + 1 ≤ (clockDate x).month := by
    unfold clockMonth clockYear at *
    omega
  have upper : y / day < dayNumber (nextMonth (clockDate y)) := lt_nextMonth _
  have lower : dayNumber (clockDate x) = x / day := dayNumber_dateOf _
  have order := daysBeforeMonth_mono (clockDate x).year (by omega) month (by omega)
  have pos := (clockDate x).day_pos
  rw [dayNumber_nextMonth, year] at upper
  unfold dayNumber at lower
  omega

theorem monthKey_numbers : Buckets.Numbers monthKey clockMonth where
  mono x y := clockMonth_mono x y
  same x y := by
    have month_lt (t : Int) : (clockDate t).month < 10 ^ 2 := by
      have le := (clockDate t).month_le
      omega
    constructor
    · intro same
      obtain ⟨years, month⟩ := append_padded_inj ['-'] (by decide) (month_lt x) (month_lt y)
        (String.ofList_injective same)
      simp only [clockMonth, formatInt_injective years, month]
    · intro same
      simp only [monthKey, (clockMonth_inj same).1, (clockMonth_inj same).2]

/-- Weeks begin on Monday, as day 0 is one. -/
theorem weekKey_numbers : Buckets.Numbers weekKey (· / day / 7) where
  mono x y le := by
    simp only [day]
    omega
  same x y := by
    -- A week number has two digits, as the layout expects.
    have bounds (n : Int) : 0 ≤ (isoWeek n).2 ∧ (isoWeek n).2 < 100 := by
      have range := yearDay_bounds (n / 7 * 7 + 3)
      have leap := leapDay_cases (yearOf (n / 7 * 7 + 3))
      rw [isoWeek_eq]
      omega
    have week_lt (n : Int) : (isoWeek n).2.toNat < 10 ^ 2 := by
      have range := bounds n
      omega
    refine ⟨fun same => ?_, fun same => by simp only [weekKey, isoWeek_congr same]⟩
    simp only [weekKey, formatWeek] at same
    obtain ⟨years, week⟩ := append_padded_inj ['-', 'W'] (by decide) (week_lt _) (week_lt _)
      (String.ofList_injective same)
    have xb := bounds (x / day)
    have yb := bounds (y / day)
    exact isoWeek_injective (Prod.ext (formatInt_injective years)
      (show (isoWeek (x / day)).2 = (isoWeek (y / day)).2 by omega))

/-! ### The selection is that of the abstract buckets -/

/-- The five classes of a policy. -/
def RetentionPolicy.classes (p : RetentionPolicy) : List ((Int → String) × Nat) :=
  [(hourKey, p.hourly.toNat), (dayKey, p.daily.toNat), (weekKey, p.weekly.toNat),
    (monthKey, p.monthly.toNat), (yearKey, p.yearly.toNat)]

theorem RetentionPolicy.classes_stretch (p : RetentionPolicy) :
    ∀ cls ∈ p.classes, Buckets.Stretches cls.1 := by
  simp only [classes, List.forall_mem_cons]
  exact ⟨hourKey_numbers.stretches, dayKey_numbers.stretches, weekKey_numbers.stretches,
    monthKey_numbers.stretches, yearKey_numbers.stretches, by simp⟩

/-- No two snapshots share a name, no two share a time. -/
structure Distinct (snaps : List SnapInfo) : Prop where
  names : (snaps.map (·.name)).Nodup
  times : (snaps.map (·.time)).Nodup

def snapTimes (snaps : List SnapInfo) : Finset Int := (snaps.map (·.time)).toFinset

variable {snaps : List SnapInfo}

theorem mem_snapTimes {t : Int} :
    t ∈ snapTimes snaps ↔ ∃ s ∈ snaps, s.time = t := by
  simp [snapTimes]

theorem bucketEarliestFrom_sublist (k : Int → String) (seen : List String) (l : List SnapInfo) :
    (bucketEarliestFrom k seen l).Sublist l := by
  induction l generalizing seen with
  | nil => exact .slnil
  | cons s rest ih =>
    unfold bucketEarliestFrom
    split
    · exact (ih seen).cons s
    · exact (ih _).cons_cons s

theorem mem_bucketEarliestFrom {k : Int → String} {seen : List String} {l : List SnapInfo}
    (increasing : l.Pairwise (·.time < ·.time)) (s : SnapInfo) :
    s ∈ bucketEarliestFrom k seen l ↔
      s ∈ l ∧ k s.time ∉ seen ∧ ∀ r ∈ l, k r.time = k s.time → s.time ≤ r.time := by
  induction l generalizing seen with
  | nil => simp [bucketEarliestFrom]
  | cons a rest ih =>
    obtain ⟨above, tail⟩ := List.pairwise_cons.mp increasing
    unfold bucketEarliestFrom
    split
    · next known =>
      -- The head is skipped, and any later snapshot of its key would be skipped too.
      rw [ih tail]
      constructor
      · rintro ⟨member, fresh, least⟩
        refine ⟨.tail a member, fresh, List.forall_mem_cons.mpr ⟨fun same => ?_, least⟩⟩
        exact absurd (same ▸ known) fresh
      · rintro ⟨member, fresh, least⟩
        rcases List.mem_cons.mp member with rfl | member
        · exact absurd known fresh
        · exact ⟨member, fresh, (List.forall_mem_cons.mp least).2⟩
    · next unseen =>
      rw [List.mem_cons, ih tail, List.mem_cons (a := s), List.mem_cons, not_or,
        List.forall_mem_cons]
      constructor
      · rintro (rfl | ⟨member, ⟨other, fresh⟩, least⟩)
        · exact ⟨.inl rfl, unseen, fun _ => le_rfl, fun r hr _ => (above r hr).le⟩
        · exact ⟨.inr member, fresh, fun same => absurd same.symm other, least⟩
      · rintro ⟨rfl | member, fresh, first, least⟩
        · exact .inl rfl
        · refine .inr ⟨member, ⟨fun same => ?_, fresh⟩, least⟩
          exact absurd (first same.symm) (above s member).not_ge

theorem snapTimes_bucketEarliest (k : Int → String) {l : List SnapInfo}
    (increasing : l.Pairwise (·.time < ·.time)) :
    snapTimes (bucketEarliest l k) = Buckets.firsts k (snapTimes l) := by
  ext t
  simp only [mem_snapTimes, bucketEarliest, mem_bucketEarliestFrom increasing, Buckets.mem_firsts]
  constructor
  · rintro ⟨s, ⟨member, -, least⟩, rfl⟩
    refine ⟨⟨s, member, rfl⟩, ?_⟩
    rintro y ⟨r, hr, rfl⟩ same
    exact least r hr same
  · rintro ⟨⟨s, member, rfl⟩, least⟩
    exact ⟨s, ⟨member, by simp, fun r hr => least r.time ⟨r, hr, rfl⟩⟩, rfl⟩

theorem mem_keepN (b : List SnapInfo) (n : Int) (keep : List String) (name : String) :
    name ∈ keepN b n keep ↔
      name ∈ keep ∨ ∃ s ∈ b.drop (b.length - n.toNat), s.name = name := by
  unfold keepN
  split
  · next nothing =>
    have all : b.drop (b.length - n.toNat) = [] := by
      simp only [Bool.or_eq_true, decide_eq_true_eq, beq_iff_eq] at nothing
      rw [List.drop_eq_nil_iff]
      omega
    simp [all]
  · next some =>
    simp only [Bool.or_eq_true, decide_eq_true_eq, beq_iff_eq, not_or] at some
    rw [show ((b.length : Int) - n).toNat = b.length - n.toNat by omega]
    simp [-List.map_drop]

theorem mem_classifyKeep (snaps : List SnapInfo) (p : RetentionPolicy) (name : String) :
    name ∈ classifyKeep snaps p ↔ ∃ cls ∈ p.classes,
      let b := bucketEarliest (sortByTime snaps) cls.1
      ∃ s ∈ b.drop (b.length - cls.2), s.name = name := by
  -- The five calls of `keepN` collect what the five classes keep.
  simp only [classifyKeep, mem_keepN, RetentionPolicy.classes, List.exists_mem_cons_iff]
  simp [or_assoc]

theorem sortByTime_perm (snaps : List SnapInfo) : (sortByTime snaps).Perm snaps :=
  List.perm_insertionSort _ snaps

section

variable (distinct : Distinct snaps)
include distinct

theorem sortByTime_increasing :
    (sortByTime snaps).Pairwise (·.time < ·.time) := by
  have sorted : (sortByTime snaps).Pairwise (fun a b => a.time ≤ b.time) :=
    List.pairwise_insertionSort _ snaps
  have apart := (((sortByTime_perm snaps).map (·.time)).nodup_iff.mpr distinct.times)
  refine (sorted.and (List.pairwise_map.mp apart)).imp ?_
  rintro a b ⟨le, ne⟩
  exact lt_of_le_of_ne le ne

theorem Distinct.name_injective {r s : SnapInfo} (hr : r ∈ snaps) (hs : s ∈ snaps)
    (same : r.name = s.name) : r = s :=
  List.inj_on_of_nodup_map distinct.names hr hs same

theorem Distinct.time_injective {r s : SnapInfo} (hr : r ∈ snaps) (hs : s ∈ snaps)
    (same : r.time = s.time) : r = s :=
  List.inj_on_of_nodup_map distinct.times hr hs same

theorem Distinct.sublist {rest : List SnapInfo} (sub : rest.Sublist snaps) : Distinct rest :=
  ⟨(sub.map _).nodup distinct.names, (sub.map _).nodup distinct.times⟩

theorem Distinct.perm {other : List SnapInfo} (same : other.Perm snaps) : Distinct other :=
  ⟨(same.map _).nodup_iff.mpr distinct.names, (same.map _).nodup_iff.mpr distinct.times⟩

end

theorem snapTimes_perm {other : List SnapInfo} (same : other.Perm snaps) :
    snapTimes other = snapTimes snaps :=
  List.toFinset_eq_of_perm _ _ (same.map _)

/-- A snapshot's name is put in the keep set by the classes whose newest firsts it is among. -/
theorem name_mem_classifyKeep (distinct : Distinct snaps) (p : RetentionPolicy) {s : SnapInfo}
    (member : s ∈ snaps) :
    s.name ∈ classifyKeep snaps p ↔ s.time ∈ Buckets.keep p.classes (snapTimes snaps) := by
  -- Class by class: the firsts of the sorted list are those of the times, and the last of them
  -- are the newest; distinct names and times make the two ways of naming a snapshot agree.
  have increasing := sortByTime_increasing distinct
  rw [mem_classifyKeep, Buckets.mem_keep]
  refine exists_congr fun cls => and_congr_right fun _ => ?_
  have sub : (bucketEarliest (sortByTime snaps) cls.1).Sublist (sortByTime snaps) :=
    bucketEarliestFrom_sublist cls.1 [] (sortByTime snaps)
  have ascending : ((bucketEarliest (sortByTime snaps) cls.1).map (·.time)).Pairwise (· < ·) :=
    List.pairwise_map.mpr (increasing.sublist sub)
  have inside : ∀ r ∈ (bucketEarliest (sortByTime snaps) cls.1).drop
      ((bucketEarliest (sortByTime snaps) cls.1).length - cls.2), r ∈ snaps := fun r hr =>
    (sortByTime_perm snaps).mem_iff.mp (sub.subset (List.mem_of_mem_drop hr))
  rw [← snapTimes_perm (sortByTime_perm snaps), ← snapTimes_bucketEarliest cls.1 increasing,
    snapTimes, ← Buckets.mem_drop_iff_newest cls.2 ascending,
    List.length_map, ← List.map_drop, List.mem_map]
  constructor
  · rintro ⟨r, hr, same⟩
    exact ⟨r, hr, congrArg _ (distinct.name_injective (inside r hr) member same)⟩
  · rintro ⟨r, hr, same⟩
    exact ⟨r, hr, congrArg _ (distinct.time_injective (inside r hr) member same)⟩

theorem mem_kept (distinct : Distinct snaps) (p : RetentionPolicy) (s : SnapInfo) :
    s ∈ (partitionRetention snaps p).1 ↔
      s ∈ snaps ∧ s.time ∈ Buckets.keep p.classes (snapTimes snaps) := by
  simp only [partitionRetention, List.mem_filter, decide_eq_true_eq]
  exact and_congr_right fun member => name_mem_classifyKeep distinct p member

theorem snapTimes_kept (distinct : Distinct snaps) (p : RetentionPolicy) :
    snapTimes (partitionRetention snaps p).1 = Buckets.keep p.classes (snapTimes snaps) := by
  ext t
  rw [mem_snapTimes]
  constructor
  · rintro ⟨s, member, rfl⟩
    exact ((mem_kept distinct p s).mp member).2
  · intro selected
    obtain ⟨s, member, rfl⟩ := mem_snapTimes.mp (Finset.mem_of_mem_filter t selected)
    exact ⟨s, (mem_kept distinct p s).mpr ⟨member, selected⟩, rfl⟩

theorem kept_sublist (snaps : List SnapInfo) (p : RetentionPolicy) :
    (partitionRetention snaps p).1.Sublist snaps :=
  List.filter_sublist

theorem mem_kept_perm {other : List SnapInfo} (distinct : Distinct snaps) (same : other.Perm snaps)
    (p : RetentionPolicy) (s : SnapInfo) :
    s ∈ (partitionRetention other p).1 ↔ s ∈ (partitionRetention snaps p).1 := by
  rw [mem_kept (distinct.perm same), mem_kept distinct, snapTimes_perm same, same.mem_iff]

/-- Pruning a kept list once more drops nothing. -/
theorem mem_kept_kept (distinct : Distinct snaps) (p : RetentionPolicy) (s : SnapInfo) :
    s ∈ (partitionRetention (partitionRetention snaps p).1 p).1 ↔
      s ∈ (partitionRetention snaps p).1 := by
  rw [mem_kept (distinct.sublist (kept_sublist snaps p)), snapTimes_kept distinct,
    Buckets.keep_keep p.classes_stretch, ← snapTimes_kept distinct, mem_snapTimes]
  exact and_iff_left_of_imp fun member => ⟨s, member, rfl⟩

/-! ### Pruning along a history -/

/-- Pruning while snapshots arrive: after every arrival, and any number of times in between.
The host lists the snapshots in any order. -/
inductive PrunedRun (p : RetentionPolicy) : List SnapInfo → List SnapInfo → Prop
  | start : PrunedRun p [] []
  | arrive {arrived kept listing : List SnapInfo} (s : SnapInfo) (run : PrunedRun p arrived kept)
      (listed : listing.Perm (kept ++ [s])) :
      PrunedRun p (arrived ++ [s]) (partitionRetention listing p).1
  | again {arrived kept listing : List SnapInfo} (run : PrunedRun p arrived kept)
      (listed : listing.Perm kept) : PrunedRun p arrived (partitionRetention listing p).1

/-- Names are distinct and every snapshot is later than those before it. -/
structure History (arrived : List SnapInfo) : Prop where
  names : (arrived.map (·.name)).Nodup
  increasing : arrived.Pairwise (·.time < ·.time)

variable {arrived : List SnapInfo}

theorem History.distinct (history : History arrived) : Distinct arrived :=
  ⟨history.names, List.pairwise_map.mpr (history.increasing.imp fun lt => ne_of_lt lt)⟩

theorem History.front {s : SnapInfo} (history : History (arrived ++ [s])) :
    History arrived ∧ ∀ r ∈ arrived, r.time < s.time := by
  have sub : arrived.Sublist (arrived ++ [s]) := List.sublist_append_left _ _
  refine ⟨⟨(sub.map _).nodup history.names, history.increasing.sublist sub⟩, fun r hr => ?_⟩
  exact (List.pairwise_append.mp history.increasing).2.2 r hr s (List.mem_singleton.mpr rfl)

/-- A snapshot later than all others: it does not matter whether the others were pruned before. -/
theorem mem_kept_arrive {s : SnapInfo} (p : RetentionPolicy) (history : History (arrived ++ [s]))
    (r : SnapInfo) :
    r ∈ (partitionRetention ((partitionRetention arrived p).1 ++ [s]) p).1 ↔
      r ∈ (partitionRetention (arrived ++ [s]) p).1 := by
  obtain ⟨front, above⟩ := history.front
  have sub := (kept_sublist arrived p).append_right [s]
  have insert_last (l : List SnapInfo) : snapTimes (l ++ [s]) = insert s.time (snapTimes l) := by
    ext t
    simp [snapTimes]
  -- On the times this is the rule for a new greatest element.
  have same : Buckets.keep p.classes (snapTimes ((partitionRetention arrived p).1 ++ [s])) =
      Buckets.keep p.classes (snapTimes (arrived ++ [s])) := by
    rw [insert_last, insert_last, snapTimes_kept front.distinct]
    refine Buckets.keep_insert_keep p.classes_stretch fun t ht => ?_
    obtain ⟨r, member, rfl⟩ := mem_snapTimes.mp ht
    exact above r member
  rw [mem_kept (history.distinct.sublist sub), mem_kept history.distinct, same]
  refine ⟨fun ⟨member, selected⟩ => ⟨sub.subset member, selected⟩,
    fun ⟨member, selected⟩ => ⟨?_, selected⟩⟩
  -- What the full history keeps was not dropped by the earlier prune either.
  rw [← same] at selected
  obtain ⟨q, hq, time⟩ := mem_snapTimes.mp (Finset.mem_of_mem_filter _ selected)
  rwa [← history.distinct.time_injective (sub.subset hq) member time]

theorem Distinct.nodup (distinct : Distinct snaps) : snaps.Nodup :=
  distinct.names.of_map

theorem kept_perm {a b : List SnapInfo} (p : RetentionPolicy) (da : Distinct a) (db : Distinct b)
    (same : ∀ s, s ∈ (partitionRetention a p).1 ↔ s ∈ (partitionRetention b p).1) :
    (partitionRetention a p).1.Perm (partitionRetention b p).1 :=
  (List.perm_ext_iff_of_nodup (da.sublist (kept_sublist a p)).nodup
    (db.sublist (kept_sublist b p)).nodup).mpr same

theorem PrunedRun.kept_perm {p : RetentionPolicy} {kept : List SnapInfo}
    (run : PrunedRun p arrived kept) (history : History arrived) :
    kept.Perm (partitionRetention arrived p).1 := by
  induction run with
  | start => exact .refl _
  -- The listing is, up to its order, what one prune left and the new snapshot.
  | arrive s run listed ih =>
    have earlier := listed.trans ((ih history.front.1).append_right [s])
    have apart := history.distinct.sublist ((kept_sublist _ p).append_right [s])
    refine Scheduler.kept_perm p (apart.perm earlier) history.distinct fun r => ?_
    rw [mem_kept_perm apart earlier, mem_kept_arrive p history]
  | again run listed ih =>
    have earlier := listed.trans (ih history)
    have apart := history.distinct.sublist (kept_sublist _ p)
    refine Scheduler.kept_perm p (apart.perm earlier) history.distinct fun r => ?_
    rw [mem_kept_perm apart earlier, mem_kept_kept history.distinct]

/-- Retention does not depend on when pruning ran: every run of prunes along a history keeps
what one prune of the whole history keeps, and a prune of what was kept drops nothing. -/
theorem retention_path_independent (p : RetentionPolicy) :
    (∀ arrived kept complete, History arrived → PrunedRun p arrived kept → complete.Perm arrived →
      ∀ s, s ∈ kept ↔ s ∈ (partitionRetention complete p).1) ∧
    (∀ snaps, Distinct snaps →
      ∀ s, s ∈ (partitionRetention (partitionRetention snaps p).1 p).1 ↔
        s ∈ (partitionRetention snaps p).1) := by
  refine ⟨fun arrived kept complete history run full s => ?_, fun snaps distinct s => ?_⟩
  · rw [mem_kept_perm history.distinct full]
    exact (run.kept_perm history).mem_iff
  · exact mem_kept_kept distinct p s

/-- Two snapshots of one day and one of the next, kept daily for one day. -/
theorem retention_path_independent_daily :
    let p : RetentionPolicy := ⟨0, 1, 0, 0, 0⟩
    let a : SnapInfo := ⟨"tank@auto-1", 0⟩
    let b : SnapInfo := ⟨"tank@auto-2", hour⟩
    let c : SnapInfo := ⟨"tank@auto-3", day⟩
    (∀ s, s ∈ (partitionRetention [a, c] p).1 ↔ s ∈ (partitionRetention [b, c, a] p).1) ∧
      ∀ s, s ∈ (partitionRetention (partitionRetention [a, b] p).1 p).1 ↔
        s ∈ (partitionRetention [a, b] p).1 := by
  intro p a b c
  have history : History [a, b, c] := ⟨by decide, by decide⟩
  have first : (partitionRetention [a] p).1 = [a] := by decide +kernel
  have second : (partitionRetention [a, b] p).1 = [a] := by decide +kernel
  have runA : PrunedRun p [a] [a] := by
    have run : PrunedRun p [a] (partitionRetention [a] p).1 := .arrive a .start (.refl _)
    rwa [first] at run
  have runB : PrunedRun p [a, b] [a] := by
    have run : PrunedRun p [a, b] (partitionRetention [a, b] p).1 := .arrive b runA (.refl _)
    rwa [second] at run
  have runC : PrunedRun p [a, b, c] (partitionRetention [a, c] p).1 :=
    PrunedRun.arrive c runB (.refl _)
  refine ⟨(retention_path_independent p).1 _ _ _ history runC (by decide), ?_⟩
  exact (retention_path_independent p).2 _ ⟨by decide, by decide⟩

end NovaNas.Scheduler
