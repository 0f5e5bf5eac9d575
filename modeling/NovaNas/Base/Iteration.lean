/-!
# Loops that may not end

A loop whose body says whether to go on, run for as many rounds as the fuel allows.
-/
namespace NovaNas.Iteration

variable {σ : Type} {body : σ → Bool × σ}

/-- The state in which the loop ends, if it does so within the fuel. -/
def iterate (body : σ → Bool × σ) : Nat → σ → Option σ
  | 0, _ => none
  | fuel + 1, s =>
    match body s with
    | (true, s') => iterate body fuel s'
    | (false, s') => some s'

/-- The loop ends in this state. -/
def Ends (body : σ → Bool × σ) (s s' : σ) : Prop := ∃ fuel, iterate body fuel s = some s'

theorem Ends.now {s : σ} (stop : (body s).1 = false) : Ends body s (body s).2 := by
  refine ⟨1, ?_⟩
  rw [iterate]
  split
  next goes => rw [goes] at stop; cases stop
  next ends => rw [ends]

theorem Ends.later {s s' : σ} (goes : (body s).1 = true) (ends : Ends body (body s).2 s') :
    Ends body s s' := by
  obtain ⟨fuel, ends⟩ := ends
  refine ⟨fuel + 1, ?_⟩
  rw [iterate]
  split
  next _ next => rwa [next] at ends
  next stops => rw [stops] at goes; cases goes

/-- A loop ends if an invariant of its rounds comes with something that gets smaller; what holds of
the state then is what its last round leaves. -/
theorem exists_ends (inv post : σ → Prop) (measure : σ → Nat)
    (stop : ∀ s, inv s → (body s).1 = false → post (body s).2)
    (go : ∀ s, inv s → (body s).1 = true → inv (body s).2 ∧ measure (body s).2 < measure s)
    {s : σ} (start : inv s) : ∃ s', Ends body s s' ∧ post s' := by
  induction size : measure s using Nat.strongRecOn generalizing s with
  | ind n ih =>
    cases goes : (body s).1 with
    | false => exact ⟨_, .now goes, stop s start goes⟩
    | true =>
      obtain ⟨kept, smaller⟩ := go s start goes
      obtain ⟨s', ends, holds⟩ := ih _ (size ▸ smaller) kept rfl
      exact ⟨s', .later goes ends, holds⟩

theorem ends_of_measure (inv : σ → Prop) (measure : σ → Nat)
    (go : ∀ s, inv s → (body s).1 = true → inv (body s).2 ∧ measure (body s).2 < measure s)
    {s : σ} (start : inv s) : ∃ s', Ends body s s' := by
  obtain ⟨s', ends, -⟩ :=
    exists_ends inv (fun _ => True) measure (fun _ _ _ => trivial) go start
  exact ⟨s', ends⟩

/-- A loop whose rounds all go on does not end. -/
theorem not_ends (inv : σ → Prop) (go : ∀ s, inv s → (body s).1 = true ∧ inv (body s).2) {s s' : σ}
    (start : inv s) : ¬Ends body s s' := by
  rintro ⟨fuel, ends⟩
  induction fuel generalizing s with
  | zero => cases ends
  | succ fuel ih =>
    obtain ⟨goes, kept⟩ := go s start
    rw [iterate] at ends
    split at ends
    next _ next =>
      rw [next] at kept
      exact ih kept ends
    next stops =>
      rw [stops] at goes
      cases goes

end NovaNas.Iteration
