import Mathlib.Data.List.Basic

/-!
# Runs of interleaved steps

A system is a partial step function: an action is taken in a state or it is not enabled
there. A run is a sequence of actions, so quantifying over all sequences quantifies over all
interleavings of the parties that take them. A guard says which steps a run takes.
-/
namespace NovaNas.Interleaving

variable {σ α : Type*} (step : σ → α → Option σ)

def run : σ → List α → Option σ
  | s, [] => some s
  | s, a :: rest => (step s a).bind fun s' => run s' rest

/-- Every step of the run meets the guard in the state it is taken in. -/
def Guarded (guard : σ → α → Prop) : σ → List α → Prop
  | _, [] => True
  -- A step that is not enabled leaves nothing further to ask.
  | s, a :: rest => guard s a ∧ ∀ s', step s a = some s' → Guarded guard s' rest

variable {step}

variable {s : σ}

theorem run_cons {t : σ} {a : α} {rest : List α} (ran : run step s (a :: rest) = some t) :
    ∃ s', step s a = some s' ∧ run step s' rest = some t :=
  Option.bind_eq_some_iff.mp ran

theorem run_append {t : σ} {first rest : List α} (ran : run step s (first ++ rest) = some t) :
    ∃ m, run step s first = some m ∧ run step m rest = some t := by
  induction first generalizing s with
  | nil => exact ⟨s, rfl, ran⟩
  | cons a first ih =>
    obtain ⟨s', took, later⟩ := run_cons ran
    obtain ⟨m, reached, finish⟩ := ih later
    exact ⟨m, by rw [run, took, Option.bind_some, reached], finish⟩

variable {guard : σ → α → Prop} {actions : List α}

/-- What every guarded step preserves holds at the end of every guarded run. -/
theorem run_induction (inv : σ → Prop)
    (preserved : ∀ s a s', inv s → guard s a → step s a = some s' → inv s') {t : σ}
    (initial : inv s) (guarded : Guarded step guard s actions) (ran : run step s actions = some t) :
    inv t := by
  induction actions generalizing s with
  | nil => exact Option.some.inj ran ▸ initial
  | cons a rest ih =>
    obtain ⟨s', took, later⟩ := run_cons ran
    exact ih (preserved s a s' initial guarded.1 took) (guarded.2 s' took) later

theorem guarded_true (s : σ) (actions : List α) : Guarded step (fun _ _ => True) s actions := by
  induction actions generalizing s with
  | nil => trivial
  | cons a rest ih => exact ⟨trivial, fun s' _ => ih s'⟩

/-- Without a guard: what every step preserves holds at the end of every run. -/
theorem run_invariant (inv : σ → Prop) (preserved : ∀ s a s', inv s → step s a = some s' → inv s')
    {t : σ} (initial : inv s) (ran : run step s actions = some t) : inv t :=
  run_induction inv (fun s a s' holds _ => preserved s a s' holds) initial
    (guarded_true s actions) ran

theorem Guarded.cons {s' : σ} {a : α} {rest : List α} (holds : guard s a)
    (took : step s a = some s') (later : Guarded step guard s' rest) :
    Guarded step guard s (a :: rest) :=
  ⟨holds, fun _ took' => Option.some.inj (took.symm.trans took') ▸ later⟩

theorem Guarded.after {t : σ} {first rest : List α} (guarded : Guarded step guard s (first ++ rest))
    (ran : run step s first = some t) :
    Guarded step guard t rest := by
  induction first generalizing s with
  | nil => exact Option.some.inj ran ▸ guarded
  | cons a first ih =>
    obtain ⟨s', took, later⟩ := run_cons ran
    exact ih (guarded.2 s' took) later

theorem Guarded.before {first rest : List α} (guarded : Guarded step guard s (first ++ rest)) :
    Guarded step guard s first := by
  induction first generalizing s with
  | nil => trivial
  | cons a first ih => exact ⟨guarded.1, fun s' took => ih (guarded.2 s' took)⟩

theorem Guarded.mono {guard' : σ → α → Prop} (weaker : ∀ s a, guard s a → guard' s a)
    (guarded : Guarded step guard s actions) :
    Guarded step guard' s actions := by
  induction actions generalizing s with
  | nil => trivial
  | cons a rest ih => exact ⟨weaker s a guarded.1, fun s' took => ih (guarded.2 s' took)⟩

/-- A run of actions of a kind that meets a guard meets both. -/
theorem Guarded.within {kind : α → Prop} (guarded : Guarded step guard s actions)
    (all : ∀ a ∈ actions, kind a) :
    Guarded step (fun s a => guard s a ∧ kind a) s actions := by
  induction actions generalizing s with
  | nil => trivial
  | cons a rest ih =>
    obtain ⟨first, later⟩ := List.forall_mem_cons.mp all
    exact ⟨⟨guarded.1, first⟩, fun s' took => ih (guarded.2 s' took) later⟩

/-- A run that avoids some actions and meets a guard meets both. -/
theorem Guarded.avoiding {avoided : α} (guarded : Guarded step guard s actions)
    (absent : avoided ∉ actions) :
    Guarded step (fun s a => guard s a ∧ a ≠ avoided) s actions :=
  guarded.within fun _ member same => absent (same ▸ member)

instance decidableGuarded {guard : σ → α → Prop} [∀ s a, Decidable (guard s a)] :
    (s : σ) → (actions : List α) → Decidable (Guarded step guard s actions)
  | _, [] => isTrue trivial
  | s, a :: rest =>
    match took : step s a with
    | none => decidable_of_iff (guard s a) (by simp [Guarded, took])
    | some s' =>
      have : Decidable (Guarded step guard s' rest) := decidableGuarded s' rest
      decidable_of_iff (guard s a ∧ Guarded step guard s' rest) (by simp [Guarded, took])

/-! ### Steps given as a relation -/

/-- A run of a system that may take a step in several ways. -/
inductive Trace (step : σ → α → σ → Prop) : σ → List α → σ → Prop
  | nil (s : σ) : Trace step s [] s
  | cons {s m t : σ} {a : α} {rest : List α} (first : step s a m) (later : Trace step m rest t) :
      Trace step s (a :: rest) t

theorem Trace.invariant {step : σ → α → σ → Prop} (inv : σ → Prop)
    (preserved : ∀ s a t, inv s → step s a t → inv t) {t : σ} (trace : Trace step s actions t)
    (initial : inv s) : inv t := by
  induction trace with
  | nil => exact initial
  | cons first _ ih => exact ih (preserved _ _ _ initial first)

theorem Trace.last {step : σ → α → σ → Prop} {t : σ} {a : α}
    (trace : Trace step s (actions ++ [a]) t) : ∃ m, Trace step s actions m ∧ step m a t := by
  induction actions generalizing s with
  | nil =>
    obtain - | ⟨first, later⟩ := trace
    cases later
    exact ⟨s, .nil s, first⟩
  | cons b actions ih =>
    obtain - | ⟨first, later⟩ := trace
    obtain ⟨m, before, final⟩ := ih later
    exact ⟨m, .cons first before, final⟩

end NovaNas.Interleaving
