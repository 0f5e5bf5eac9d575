import Mathlib.Data.Nat.Find
import Mathlib.Order.MinMax

/-!
# Firing on what was hit since the last fire

A schedule remembers the position of its last fire. At a tick it fires when a hit lies after
that position and not beyond the tick; while it has never fired it fires only when the tick
itself is a hit. Positions come from any linear order.
-/
namespace NovaNas.CatchUp

variable {α : Type*} [LinearOrder α] (hit : α → Prop)

def Due : Option α → α → Prop
  | none, now => hit now
  | some last, now => ∃ m, last < m ∧ m ≤ now ∧ hit m

open Classical in
/-- The last fire after a tick. -/
noncomputable def advance (last : Option α) (now : α) : Option α :=
  if Due hit last now then some now else last

/-- Tick number `k` fires. -/
def FiresAt (last : Option α) (ticks : List α) (k : Nat) : Prop :=
  ∃ now, ticks[k]? = some now ∧ Due hit ((ticks.take k).foldl (advance hit) last) now

/-- The latest position known before tick `k`. -/
def since (start : α) (ticks : List α) (k : Nat) : α := (ticks.take k).foldl max start

variable {hit}

@[simp] theorem firesAt_zero {last : Option α} {now : α} {later : List α} :
    FiresAt hit last (now :: later) 0 ↔ Due hit last now := by
  simp [FiresAt]

variable {k : Nat}

@[simp] theorem firesAt_succ {last : Option α} {now : α} {later : List α} :
    FiresAt hit last (now :: later) (k + 1) ↔ FiresAt hit (advance hit last now) later k := by
  simp [FiresAt]

theorem since_zero (start : α) (ticks : List α) : since start ticks 0 = start := by
  simp [since]

theorem since_succ (start now : α) (later : List α) (k : Nat) :
    since start (now :: later) (k + 1) = since (max start now) later k := by
  simp [since]

theorem since_lt_iff {start m : α} {ticks : List α} :
    since start ticks k < m ↔ start < m ∧ ∀ i now, i < k → ticks[i]? = some now → now < m := by
  induction ticks generalizing start k with
  | nil => simp [since]
  | cons a rest ih =>
    cases k with
    | zero => simp [since_zero]
    | succ k =>
      rw [since_succ, ih, max_lt_iff]
      constructor
      · rintro ⟨⟨first, head⟩, tail⟩
        refine ⟨first, fun i now less found => ?_⟩
        cases i with
        | zero =>
          obtain rfl : a = now := by simpa using found
          exact head
        | succ i => exact tail i now (by omega) (by simpa using found)
      · rintro ⟨first, all⟩
        exact ⟨⟨first, all 0 a (by omega) (by simp)⟩, fun i now less found =>
          all (i + 1) now (by omega) (by simpa using found)⟩

/-- In increasing ticks the latest position is that of the tick before. -/
theorem since_eq {start now : α} {ticks : List α} (sorted : ticks.Pairwise (· ≤ ·))
    (previous : ticks[k]? = some now) : since start ticks (k + 1) = max start now := by
  -- Compare what lies above both sides; of sorted ticks the one before is the latest.
  refine eq_of_forall_gt_iff fun m => ?_
  rw [since_lt_iff, max_lt_iff]
  refine and_congr_right fun _ =>
    ⟨fun all => all k now (by omega) previous, fun below i other less found => ?_⟩
  obtain ⟨inside, rfl⟩ := List.getElem?_eq_some_iff.mp previous
  obtain ⟨inside', rfl⟩ := List.getElem?_eq_some_iff.mp found
  rcases Nat.lt_or_ge i k with before | after
  · exact (List.pairwise_iff_getElem.mp sorted i k inside' inside before).trans_lt below
  · obtain rfl : i = k := by omega
    exact below

/-! ### After a first fire nothing is missed -/

/-- No hit lies between the last fire and what is known, so looking back to the last fire or
only to the latest tick comes to the same. -/
private theorem firesAt_from {last known : α} {ticks : List α} (le : last ≤ known)
    (clear : ∀ m, last < m → m ≤ known → ¬ hit m) (k : Nat) :
    FiresAt hit (some last) ticks k ↔
      ∃ now m, ticks[k]? = some now ∧ since known ticks k < m ∧ m ≤ now ∧ hit m := by
  induction ticks generalizing last known k with
  | nil => simp [FiresAt]
  | cons a rest ih =>
    cases k with
    | zero =>
      simp only [firesAt_zero, since_zero, Due, List.getElem?_cons_zero, Option.some.injEq]
      constructor
      · rintro ⟨m, after, upto, fires⟩
        exact ⟨a, m, rfl, not_le.mp fun inside => clear m after inside fires, upto, fires⟩
      · rintro ⟨_, m, rfl, after, upto, fires⟩
        exact ⟨m, le.trans_lt after, upto, fires⟩
    | succ k =>
      rw [firesAt_succ, since_succ, List.getElem?_cons_succ, advance]
      -- The invariant moves on with both: after a fire nothing lies between, after an idle tick
      -- the tick itself shows that nothing was hit.
      split
      next due =>
        refine ih (le_max_right known a) (fun m after upto fires => ?_) k
        -- A tick below what is known saw no hit, so it would not have fired.
        obtain ⟨d, dafter, dupto, dfires⟩ := due
        rcases le_max_iff.mp upto with inside | inside
        · exact clear d dafter (dupto.trans (after.le.trans inside)) dfires
        · exact after.not_ge inside
      next idle =>
        refine ih (le.trans (le_max_left known a)) (fun m after upto fires => ?_) k
        rcases le_max_iff.mp upto with inside | inside
        · exact clear m after inside fires
        · exact idle ⟨m, after, inside, fires⟩

/-- Once there was a fire, a tick fires exactly when a hit lies after every earlier tick. -/
theorem firesAt_iff (last : α) (ticks : List α) (k : Nat) :
    FiresAt hit (some last) ticks k ↔
      ∃ now m, ticks[k]? = some now ∧ since last ticks k < m ∧ m ≤ now ∧ hit m :=
  firesAt_from le_rfl (fun _ after upto _ => after.not_ge upto) k

/-- Every hit after the last fire is followed by a fire, no later than any tick beyond it. -/
theorem hit_fires {last m now : α} {ticks : List α} (fires : hit m) (after : last < m)
    (found : ticks[k]? = some now) (upto : m ≤ now) :
    ∃ j at_, j ≤ k ∧ ticks[j]? = some at_ ∧ m ≤ at_ ∧
      (∀ i earlier, i < j → ticks[i]? = some earlier → earlier < m) ∧
      FiresAt hit (some last) ticks j := by
  classical
  -- The first tick at or after the hit.
  have reached : ∃ j, ∃ at_, ticks[j]? = some at_ ∧ m ≤ at_ := ⟨k, now, found, upto⟩
  obtain ⟨at_, here, beyond⟩ := Nat.find_spec reached
  have earlier : ∀ i e, i < Nat.find reached → ticks[i]? = some e → e < m := fun i e less tick =>
    not_le.mp fun le => Nat.find_min reached less ⟨e, tick, le⟩
  refine ⟨Nat.find reached, at_, Nat.find_min' reached ⟨now, found, upto⟩, here, beyond, earlier,
    (firesAt_iff last ticks _).mpr ⟨at_, m, here, ?_, beyond, fires⟩⟩
  exact since_lt_iff.mpr ⟨after, earlier⟩

/-- The first tick at or after `m` is the only one between which and its predecessors `m` lies. -/
theorem covered_iff {start m at_ : α} {ticks : List α} {j : Nat} (after : start < m)
    (here : ticks[j]? = some at_) (beyond : m ≤ at_)
    (earlier : ∀ i e, i < j → ticks[i]? = some e → e < m) (i : Nat) :
    (∃ now, ticks[i]? = some now ∧ since start ticks i < m ∧ m ≤ now) ↔ i = j := by
  constructor
  · rintro ⟨now, found, known, upto⟩
    rcases Nat.lt_trichotomy i j with less | same | more
    · exact absurd upto (earlier i now less found).not_ge
    · exact same
    · exact absurd beyond ((since_lt_iff.mp known).2 j at_ more here).not_ge
  · rintro rfl
    exact ⟨at_, here, since_lt_iff.mpr ⟨after, earlier⟩, beyond⟩

/-! ### Before the first fire -/

/-- The first fire is at a tick that is itself a hit. -/
theorem firesAt_none {ticks : List α} (fires : FiresAt hit none ticks k) :
    ∃ j now, j ≤ k ∧ ticks[j]? = some now ∧ hit now := by
  induction ticks generalizing k with
  | nil => simp [FiresAt] at fires
  | cons a rest ih =>
    by_cases first : hit a
    · exact ⟨0, a, by omega, by simp, first⟩
    · cases k with
      | zero => exact absurd (firesAt_zero.mp fires) first
      | succ k =>
        rw [firesAt_succ, advance, if_neg (show ¬ Due hit none a from first)] at fires
        obtain ⟨j, now, le, found, here⟩ := ih fires
        exact ⟨j + 1, now, by omega, by simpa using found, here⟩

/-- From a tick that is itself a hit on, no hit is missed, those before it included. -/
theorem hit_fires_none {m now at_ : α} {ticks : List α} {i : Nat} (fires : hit m)
    (start : ticks[i]? = some at_) (first : hit at_) (le : i ≤ k) (found : ticks[k]? = some now)
    (upto : m ≤ now) :
    ∃ j tick, j ≤ k ∧ ticks[j]? = some tick ∧ m ≤ tick ∧ FiresAt hit none ticks j := by
  induction ticks generalizing i k with
  | nil => simp at start
  | cons a rest ih =>
    -- The first tick that is a hit fires; from there on the schedule remembers its last fire.
    by_cases head : hit a
    · rcases le_or_gt m a with before | after
      · exact ⟨0, a, by omega, by simp, before, firesAt_zero.mpr head⟩
      · cases k with
        | zero =>
          obtain rfl : a = now := by simpa using found
          exact absurd upto after.not_ge
        | succ k =>
          obtain ⟨j, tick, jk, here, beyond, -, due⟩ :=
            hit_fires fires after (by simpa using found) upto
          refine ⟨j + 1, tick, by omega, by simpa using here, beyond, ?_⟩
          rwa [firesAt_succ, advance, if_pos (show Due hit none a from head)]
    · cases i with
      | zero =>
        obtain rfl : a = at_ := by simpa using start
        exact absurd first head
      | succ i =>
        obtain ⟨k, rfl⟩ : ∃ n, k = n + 1 := ⟨k - 1, by omega⟩
        obtain ⟨j, tick, jk, here, beyond, due⟩ :=
          ih (by simpa using start) (show i ≤ k by omega) (by simpa using found)
        refine ⟨j + 1, tick, by omega, by simpa using here, beyond, ?_⟩
        rwa [firesAt_succ, advance, if_neg (show ¬ Due hit none a from head)]

/-- While a schedule has never fired, no hit after `start` is lost exactly when every tick by
which one has passed is preceded by, or is, a tick that is itself a hit. -/
theorem nothing_lost_iff (hit : α → Prop) (start : α) (ticks : List α) :
    (∀ (k : Nat) now m, ticks[k]? = some now → start < m → m ≤ now → hit m →
      ∃ j tick, j ≤ k ∧ ticks[j]? = some tick ∧ m ≤ tick ∧ FiresAt hit none ticks j) ↔
    (∀ (k : Nat) now m, ticks[k]? = some now → start < m → m ≤ now → hit m →
      ∃ j tick, j ≤ k ∧ ticks[j]? = some tick ∧ hit tick) := by
  constructor
  · intro kept k now m found after upto fires
    obtain ⟨j, tick, le, -, -, due⟩ := kept k now m found after upto fires
    obtain ⟨i, at_, less, here, first⟩ := firesAt_none due
    exact ⟨i, at_, by omega, here, first⟩
  · intro ticked k now m found after upto fires
    obtain ⟨i, at_, le, here, first⟩ := ticked k now m found after upto fires
    exact hit_fires_none fires here first le found upto

end NovaNas.CatchUp
