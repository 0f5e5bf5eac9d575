import NovaNas.Scrub.Policy

/-!
# Occurrences that come to nothing

A policy that is due is marked as fired if one of its scrubs was accepted, or if no dispatch failed.
A pool whose state cannot be told counts for neither: where all that happens is that such pools are
passed over, the policy is marked although nothing was scrubbed.
-/
namespace NovaNas.Scrub

open Clock Scheduler Text

variable {σ : Type} (env : Environment σ)

/-! ### The pools of a policy -/

structure Visit (σ : Type) where
  pool : String
  /-- What the check is made in. -/
  world : σ
  outcome : Outcome

def visits (p : ScrubPolicy) : List String → σ → List (Visit σ)
  | [], _ => []
  | name :: rest, world =>
    ⟨name, world, (visit env p name world).1⟩ :: visits p rest (visit env p name world).2

def outcomes (p : ScrubPolicy) (pools : List String) (world : σ) : List Outcome :=
  (visits env p pools world).map (·.outcome)

theorem outcomes_cons (p : ScrubPolicy) (name : String) (rest : List String) (world : σ) :
    outcomes env p (name :: rest) world =
      (visit env p name world).1 :: outcomes env p rest (visit env p name world).2 := rfl

/-- The flags after the loop: one outcome was an acceptance, and the first failure. -/
theorem firePools_flags (p : ScrubPolicy) (pools : List String) (firedAny : Bool)
    (firstErr : Option String) (st : State σ) :
    (firePools env p pools firedAny firstErr st).1 =
      (firedAny || decide (.accepted ∈ outcomes env p pools st.world),
        firstErr.or ((outcomes env p pools st.world).findSome? Outcome.error)) := by
  induction pools generalizing firedAny firstErr st with
  | nil => simp [firePools, outcomes, visits]
  | cons name rest ih =>
    rw [firePools, ih, outcomes_cons]
    cases (visit env p name st.world).1 <;>
      simp [List.findSome?_cons, Outcome.error]

/-! ### Firing -/

/-- The occurrence was used, or was not needed. -/
def Excused (outs : List Outcome) : Prop :=
  outs = [] ∨ .accepted ∈ outs ∨ ∀ o ∈ outs, o = .scrubbing ∨ o = .duplicate

/-- Some pool's state was unknown, and nothing was accepted or failed. -/
def Stalled (outs : List Outcome) : Prop :=
  .unknown ∈ outs ∧ .accepted ∉ outs ∧ ∀ o ∈ outs, o.error = none

/-- The row of the policy has the fire. -/
def Recorded (p : ScrubPolicy) (now : Int) (st : State σ) : Prop :=
  ∃ row, st.policies.find p.id = some row ∧ row.lastFiredAt = some now

/-- The outcomes that make the policy marked as fired. -/
def Marks (outs : List Outcome) : Prop := .accepted ∈ outs ∨ ∀ o ∈ outs, o.error = none

variable {env} {loc : Location} {fuel : Nat} {now : Int} {p : ScrubPolicy} {st st' : State σ}
  {r : Option FireError} {pools : List String} {world : σ}

theorem Comes.unique {pools' : List String} {world' : σ}
    (one : Comes env loc fuel now p st pools world)
    (other : Comes env loc fuel now p st pools' world') : pools' = pools ∧ world' = world := by
  have same := other.expands.symm.trans one.expands
  simpa using same

/-- Without coming to the pools firing writes nothing; else it marks the policy or writes nothing. -/
theorem firePolicy_marks (marks : MarksSucceed env)
    (fired : firePolicy env loc fuel now p st = .ok (r, st')) :
    ((∀ pools world, ¬Comes env loc fuel now p st pools world) ∧ st'.policies = st.policies) ∨
    ∃ pools world, Comes env loc fuel now p st pools world ∧
      (Marks (outcomes env p pools world) ∧ (∃ err, st'.policies = st.policies.mark p.id now err) ∨
        ¬Marks (outcomes env p pools world) ∧ st'.policies = st.policies) := by
  rcases firePolicy_cases fired with ⟨nowhere, world, rfl, -⟩ | ⟨pools, world, comes, after⟩
  · exact .inl ⟨nowhere, rfl⟩
  refine .inr ⟨pools, world, comes, ?_⟩
  obtain ⟨kept, -⟩ := firePools_spec env p pools false none { st with world }
  have flags := firePools_flags env p pools false none { st with world }
  generalize firePools env p pools false none { st with world } = loop at *
  obtain ⟨⟨firedAny, firstErr⟩, after'⟩ := loop
  obtain ⟨rfl, rfl⟩ := Prod.mk.inj flags
  have decision : (((false || decide (.accepted ∈ outcomes env p pools world)) = true ∨
      Option.or none ((outcomes env p pools world).findSome? Outcome.error) = none) ↔
      Marks (outcomes env p pools world)) := by
    simp [Marks, List.findSome?_eq_none_iff]
  subst after
  split
  next marked =>
    have row := (markFired_spec marks p.id now (Option.or none
      ((outcomes env p pools world).findSome? Outcome.error)) after').1
    exact .inl ⟨decision.mp marked, _, row.trans (by rw [kept])⟩
  next unmarked => exact .inr ⟨mt decision.mpr unmarked, kept⟩

theorem recorded_of_mark (found : st.policies.find p.id = some p) {err : Option String}
    (marked : st'.policies = st.policies.mark p.id now err) : Recorded p now st' := by
  refine ⟨{ p with lastFiredAt := some now, lastError := err }, ?_, rfl⟩
  rw [marked, Policies.find_mark, found]
  simp

theorem not_recorded_of_same (found : st.policies.find p.id = some p)
    (fresh : p.lastFiredAt ≠ some now) (same : st'.policies = st.policies) :
    ¬Recorded p now st' := by
  rintro ⟨row, here, last⟩
  rw [same, found] at here
  cases here
  exact fresh last

/-- What marks a policy is an excuse unless it is stalled. -/
theorem excused_iff {outs : List Outcome} (marks : Marks outs) : Excused outs ↔ ¬Stalled outs := by
  constructor
  · rintro (rfl | accepted | idle) ⟨unknown, none, -⟩
    · cases unknown
    · exact none accepted
    · simpa using idle _ unknown
  · intro moving
    by_cases accepted : .accepted ∈ outs
    · exact .inr (.inl accepted)
    · have quiet : ∀ o ∈ outs, o.error = none := marks.resolve_left accepted
      refine .inr (.inr fun o member => ?_)
      cases o with
      | unknown => exact absurd ⟨member, accepted, quiet⟩ moving
      | scrubbing => exact .inl rfl
      | duplicate => exact .inr rfl
      | failed err => cases quiet _ member
      | accepted => exact absurd member accepted

/-- Firing records only occurrences that are used or not needed exactly if it does not stall. -/
theorem recorded_excused_iff (marks : MarksSucceed env) (found : st.policies.find p.id = some p)
    (fresh : p.lastFiredAt ≠ some now)
    (fired : firePolicy env loc fuel now p st = .ok (r, st')) :
    (Recorded p now st' → ∃ pools world, Comes env loc fuel now p st pools world ∧
        Excused (outcomes env p pools world)) ↔
      ∀ pools world, Comes env loc fuel now p st pools world →
        ¬Stalled (outcomes env p pools world) := by
  rcases firePolicy_marks marks fired with ⟨nowhere, same⟩ | ⟨pools, world, comes, effect⟩
  · have unrecorded := not_recorded_of_same found fresh same
    exact ⟨fun _ pools world comes => absurd comes (nowhere pools world),
      fun _ recorded => absurd recorded unrecorded⟩
  · rcases effect with ⟨marked, err, row⟩ | ⟨unmarked, same⟩
    · have recorded := recorded_of_mark found row
      constructor
      · intro excuse pools' world' again
        obtain ⟨pools₁, world₁, comes₁, excused⟩ := excuse recorded
        obtain ⟨rfl, rfl⟩ := comes.unique again
        obtain ⟨rfl, rfl⟩ := comes.unique comes₁
        exact (excused_iff marked).mp excused
      · intro moving _
        exact ⟨pools, world, comes, (excused_iff marked).mpr (moving pools world comes)⟩
    · have unrecorded := not_recorded_of_same found fresh same
      refine ⟨fun _ pools' world' again stalled => ?_, fun _ recorded => absurd recorded unrecorded⟩
      obtain ⟨rfl, rfl⟩ := comes.unique again
      exact unmarked (.inr stalled.2.2)

/-! ### A pool whose state is unknown -/

/-- What the tick of the first Sunday shows: the dispatches and the policy's last fire. -/
def firstSunday (env : Environment Unit) : Option (List (Nat × String) × Option Int) :=
  (firePolicy env utc searchFuel (sunday 0) (defaultPolicy 1) newHost).toOption.map fun result =>
    (result.2.dispatched, (result.2.policies.find 1).bind (·.lastFiredAt))

theorem fired_of_firstSunday {env : Environment Unit} {dispatched : List (Nat × String)}
    (shows : firstSunday env = some (dispatched, some (sunday 0))) : ∃ r st',
      firePolicy env utc searchFuel (sunday 0) (defaultPolicy 1) newHost = .ok (r, st') ∧
      Recorded (defaultPolicy 1) (sunday 0) st' ∧ st'.dispatched = dispatched := by
  obtain ⟨⟨r, st'⟩, ended, same⟩ := Option.map_eq_some_iff.mp shows
  obtain ⟨sent, fired⟩ := Prod.mk.inj same
  obtain ⟨row, found, last⟩ := Option.bind_eq_some_iff.mp fired
  refine ⟨r, st', ?_, ⟨row, found, last⟩, sent⟩
  cases result : firePolicy env utc searchFuel (sunday 0) (defaultPolicy 1) newHost with
  | error hung =>
    rw [result] at ended
    cases ended
  | ok result' =>
    rw [result] at ended
    cases ended
    rfl

theorem sunday_used : ∃ r st',
    firePolicy onePool utc searchFuel (sunday 0) (defaultPolicy 1) newHost = .ok (r, st') ∧
      Recorded (defaultPolicy 1) (sunday 0) st' ∧
      ∃ pools world, Comes onePool utc searchFuel (sunday 0) (defaultPolicy 1) newHost pools world ∧
        Excused (outcomes onePool (defaultPolicy 1) pools world) := by
  have shows : firstSunday onePool = some ([(1, "tank")], some (sunday 0)) := by decide +kernel
  obtain ⟨r, st', fired, recorded, -⟩ := fired_of_firstSunday shows
  refine ⟨r, st', fired, recorded, ?_⟩
  refine (recorded_excused_iff (fun _ _ => rfl) rfl (by decide) fired).mpr ?_ recorded
  rintro pools world comes ⟨unknown, -⟩
  cases comes.expands
  revert unknown
  decide

/-- The one pool's state cannot be told. -/
def silentPool : Environment Unit := { onePool with isScrubInProgress _ w := (.error "timeout", w) }

/-- The tick of the Sunday scrubs nothing and marks the policy as fired. -/
theorem occurrence_lost : ∃ r st',
    firePolicy silentPool utc searchFuel (sunday 0) (defaultPolicy 1) newHost = .ok (r, st') ∧
      Recorded (defaultPolicy 1) (sunday 0) st' ∧ st'.dispatched = [] ∧
      ∀ pools world, expandPools silentPool (defaultPolicy 1).pools newHost.world =
        (.ok pools, world) → ¬Excused (outcomes silentPool (defaultPolicy 1) pools world) := by
  have shows : firstSunday silentPool = some ([], some (sunday 0)) := by decide +kernel
  obtain ⟨r, st', fired, recorded, dispatched⟩ := fired_of_firstSunday shows
  refine ⟨r, st', fired, recorded, dispatched, fun pools world expands => ?_⟩
  cases expands
  unfold Excused
  decide

end NovaNas.Scrub
