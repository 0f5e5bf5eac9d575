import NovaNas.Base.Runs

/-!
# Services that may fail

A service answers each call with a reply or an error and changes its state. At its best it does
what it is asked for; at its worst it fails at any time, with or without having done its work.
-/
namespace NovaNas.Program

variable {call : Type} {reply : call → Type} {σ ε ε' α : Type}

abbrev Service (σ ε : Type) (reply : call → Type) := σ → (q : call) → Except ε (reply q) × σ

namespace Service

variable (serve : Service σ ε reply)

def Healthy : Responses σ fun q => Except ε (reply q) := fun s q a s' => (a, s') = serve s q

/-- A call does its work, or it fails with or without having done it. -/
def Faulty : Responses σ fun q => Except ε (reply q) := fun s q a s' =>
  (a, s') = serve s q ∨ ((∃ err, a = .error err) ∧ (s' = s ∨ s' = (serve s q).2))

variable {serve}

theorem Faulty.after {s s' : σ} {q : call} {a : Except ε (reply q)}
    (answered : serve.Faulty s q a s') : s' = s ∨ s' = (serve s q).2 := by
  rcases answered with same | ⟨-, after⟩
  · exact .inr (congrArg Prod.snd same)
  · exact after

theorem healthy_faulty (s : σ) (q : call) (a : Except ε (reply q)) (s' : σ)
    (answered : serve.Healthy s q a s') : serve.Faulty s q a s' := .inl answered

/-- The run in which every call does its work. -/
theorem faulty_exec (program : Program call (fun q => Except ε (reply q)) α) (s : σ) :
    program.Run serve.Faulty s (program.exec serve s).1 (program.exec serve s).2 :=
  run_exec (fun _ _ => .inl rfl) program s

theorem healthy_of_exec {program : Program call (fun q => Except ε (reply q)) α} {s s' : σ} {r : α}
    (executed : program.exec serve s = (r, s')) : program.Run serve.Healthy s r s' := by
  have ran : program.Run serve.Healthy s (program.exec serve s).1 (program.exec serve s).2 :=
    run_exec (fun _ _ => rfl) program s
  rwa [executed] at ran

end Service

/-- What every call preserves, a program that makes such calls preserves. -/
theorem Ends.faulty_invariant {serve : Service σ ε reply} {p : call → Prop}
    {c : Attempt call (fun q => Except ε (reply q)) ε' α} {r : Except ε' α} {s s' : σ}
    (ends : Ends serve.Faulty c s r s') (inv : σ → Prop)
    (preserved : ∀ s q, p q → inv s → inv (serve s q).2) (calls : Calls p c) (initial : inv s) :
    inv s' := by
  refine ends.invariant inv ?_ calls initial
  intro s q a s' asked holds answered
  rcases answered.after with rfl | rfl
  · exact holds
  · exact preserved s q asked holds

/-- One call whose error ends the operation. -/
def consult (q : call) (wrap : ε → ε') :
    Attempt call (fun q => Except ε (reply q)) ε' (reply q) := do
  let result : Except ε (reply q) ← request q
  liftExcept (result.mapError wrap)

section Consult

variable {serve : Service σ ε reply} {responds : Responses σ fun q => Except ε (reply q)} {q : call}
  {wrap : ε → ε'} {s s' : σ}

theorem ends_consult {r : Except ε' (reply q)} :
    Ends responds (consult q wrap) s r s' ↔ ∃ a, r = a.mapError wrap ∧ responds s q a s' := by
  rw [consult, ends_request_bind]
  constructor
  · rintro ⟨a, m, answered, rest⟩
    obtain ⟨same, rfl⟩ := ends_liftExcept.mp rest
    exact ⟨a, same, answered⟩
  · rintro ⟨a, same, answered⟩
    exact ⟨a, s', answered, ends_liftExcept.mpr ⟨same, rfl⟩⟩

theorem consult_ok {answer : reply q} (ends : Ends serve.Faulty (consult q wrap) s (.ok answer) s') :
    serve s q = (.ok answer, s') := by
  obtain ⟨a, same, answered⟩ := ends_consult.mp ends
  cases a with
  | error err => cases same
  | ok given =>
    cases same
    rcases answered with served | ⟨⟨err, failed⟩, -⟩
    · exact served.symm
    · cases failed

theorem consult_after {r : Except ε' (reply q)}
    (ends : Ends serve.Faulty (consult q wrap) s r s') : s' = s ∨ s' = (serve s q).2 := by
  obtain ⟨a, -, answered⟩ := ends_consult.mp ends
  exact answered.after

/-- A call can do its work. -/
theorem consult_serves {a : Except ε (reply q)} (served : serve s q = (a, s')) :
    Ends serve.Healthy (consult q wrap) s (a.mapError wrap) s' :=
  ends_consult.mpr ⟨a, rfl, served.symm⟩

theorem calls_consult {p : call → Prop} (holds : p q) :
    Calls p (consult q wrap : Attempt call (fun q => Except ε (reply q)) ε' (reply q)) := by
  apply calls_bind (calls_request.mpr holds)
  intro a
  cases a with
  | ok answer => exact calls_pure
  | error err => exact calls_throw

end Consult

end NovaNas.Program
