import Mathlib.Order.Lattice

/-!
# Skip-ahead search

A loop that walks through an ordered type: while the current element is in range it
either stops there or moves to another element. When every move goes up and jumps over
no hit, the loop stops at the least hit.
-/
namespace NovaNas.SkipSearch

variable {α : Type*}

inductive Outcome (α : Type*) where
  | found (a : α)
  | exhausted
  | outOfFuel
  deriving DecidableEq, Repr

/-- `step a = none` stops the loop at `a`. -/
def search (inRange : α → Bool) (step : α → Option α) : Nat → α → Outcome α
  | 0, _ => .outOfFuel
  | fuel + 1, a =>
    if inRange a then
      match step a with
      | none => .found a
      | some b => search inRange step fuel b
    else .exhausted

/-- The elements the loop reaches from `start`. -/
inductive Visited (inRange : α → Bool) (step : α → Option α) (start : α) : α → Prop
  | start : Visited inRange step start start
  | move {a b : α} : Visited inRange step start a → inRange a = true → step a = some b →
      Visited inRange step start b

variable {inRange : α → Bool} {step : α → Option α}

theorem search_succ (fuel : Nat) (a : α) : search inRange step (fuel + 1) a =
    if inRange a then
      match step a with
      | none => .found a
      | some b => search inRange step fuel b
    else .exhausted :=
  rfl

theorem search_move {a b : α} (inside : inRange a = true) (moves : step a = some b) (fuel : Nat) :
    search inRange step (fuel + 1) a = search inRange step fuel b := by
  simp [search_succ, inside, moves]

/-- A finished loop needs no further fuel. -/
theorem search_fuel_mono {fuel more : Nat} {a : α} (le : fuel ≤ more)
    (finished : search inRange step fuel a ≠ .outOfFuel) :
    search inRange step more a = search inRange step fuel a := by
  induction fuel generalizing a more with
  | zero => exact absurd rfl finished
  | succ fuel ih =>
    obtain ⟨more, rfl⟩ := Nat.exists_eq_succ_of_ne_zero (show more ≠ 0 by omega)
    simp only [search_succ] at finished ⊢
    split
    next inside =>
      rw [if_pos inside] at finished
      cases moves : step a with
      | none => rfl
      | some b =>
        rw [moves] at finished
        exact ih (by omega) finished
    next outside => rfl

/-- A measure that every move decreases is fuel enough. -/
theorem search_finishes (P : α → Prop) (measure : α → Nat)
    (decreases : ∀ a b, P a → inRange a = true → step a = some b → P b ∧ measure b < measure a)
    (fuel : Nat) (a : α) (holds : P a) (enough : measure a < fuel) :
    search inRange step fuel a ≠ .outOfFuel := by
  induction fuel generalizing a with
  | zero => omega
  | succ fuel ih =>
    simp only [search_succ]
    split
    next inside =>
      cases moves : step a with
      | none => simp
      | some b =>
        obtain ⟨kept, less⟩ := decreases a b holds inside moves
        exact ih b kept (by omega)
    next outside => simp

/-- A loop that can only move inside a closed set never ends. -/
theorem search_diverges (P : α → Prop)
    (closed : ∀ a, P a → inRange a = true ∧ ∃ b, step a = some b ∧ P b)
    (fuel : Nat) (a : α) (holds : P a) : search inRange step fuel a = .outOfFuel := by
  induction fuel generalizing a with
  | zero => rfl
  | succ fuel ih =>
    obtain ⟨inside, b, moves, kept⟩ := closed a holds
    rw [search_move inside moves]
    exact ih b kept

section Least

variable [LinearOrder α] (grid hit : α → Prop)

/-- Moves go up along the grid and jump over no hit. -/
def SkipsNoHit (step : α → Option α) : Prop :=
  ∀ a b, grid a → step a = some b →
    grid b ∧ a < b ∧ ∀ c, grid c → a ≤ c → c < b → ¬ hit c

variable {grid hit}

theorem search_found (stops : ∀ a, grid a → step a = none → hit a)
    (skips : SkipsNoHit grid hit step) (fuel : Nat) (a r : α) (onGrid : grid a)
    (returned : search inRange step fuel a = .found r) :
    grid r ∧ hit r ∧ a ≤ r ∧ inRange r = true ∧ ∀ c, grid c → a ≤ c → c < r → ¬ hit c := by
  induction fuel generalizing a with
  | zero => cases returned
  | succ fuel ih =>
    simp only [search_succ] at returned
    split at returned
    next inside =>
      cases moves : step a with
      | none =>
        rw [moves] at returned
        cases returned
        exact ⟨onGrid, stops r onGrid moves, le_rfl, inside,
          fun c _ le less => absurd less le.not_gt⟩
      | some b =>
        rw [moves] at returned
        obtain ⟨next, less, skipped⟩ := skips a b onGrid moves
        obtain ⟨rgrid, rhit, le, rinside, least⟩ := ih b next returned
        refine ⟨rgrid, rhit, less.le.trans le, rinside, fun c cgrid from_ below => ?_⟩
        -- What lies below the result was jumped over by this move, or lies beyond it.
        rcases lt_or_ge c b with before | after
        · exact skipped c cgrid from_ before
        · exact least c cgrid after below
    next outside => cases returned

theorem search_exhausted (skips : SkipsNoHit grid hit step)
    (down : ∀ a b, a ≤ b → inRange b = true → inRange a = true) (fuel : Nat) (a : α)
    (onGrid : grid a) (returned : search inRange step fuel a = .exhausted) :
    ∀ c, grid c → a ≤ c → inRange c = true → ¬ hit c := by
  induction fuel generalizing a with
  | zero => cases returned
  | succ fuel ih =>
    intro c cgrid from_ cinside
    simp only [search_succ] at returned
    -- A candidate in range keeps everything below it in range, so the loop does not stop here.
    rw [if_pos (down a c from_ cinside)] at returned
    cases moves : step a with
    | none =>
      rw [moves] at returned
      cases returned
    | some b =>
      rw [moves] at returned
      obtain ⟨next, less, skipped⟩ := skips a b onGrid moves
      rcases lt_or_ge c b with before | after
      · exact skipped c cgrid from_ before
      · exact ih b next returned c cgrid after cinside

end Least

end NovaNas.SkipSearch
