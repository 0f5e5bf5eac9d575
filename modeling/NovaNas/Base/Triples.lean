import NovaNas.Base.Runs

/-!
# Pre- and postconditions of programs

`Ensures` says what holds after every run of a program, with one rule for each way to build a
program.
-/
namespace NovaNas.Program

variable {call : Type} {answer : call → Type} {σ ε ε' α β : Type} {responds : Responses σ answer}

/-! ### Every run -/

/-- Every run that starts where `pre` holds ends as `post` says. -/
def Ensures (responds : Responses σ answer) (pre : σ → Prop) (c : Attempt call answer ε α)
    (post : Except ε α → σ → Prop) : Prop :=
  ∀ s r s', pre s → Ends responds c s r s' → post r s'

section Ensures

variable {pre pre' : σ → Prop} {c : Attempt call answer ε α} {next : α → Attempt call answer ε β}
  {post post' : Except ε α → σ → Prop}

theorem ensures_pure {a : α} (holds : ∀ s, pre s → post (.ok a) s) :
    Ensures responds pre (pure a) post := by
  rintro s r s' start ⟨rfl, rfl⟩
  exact holds _ start

theorem ensures_throw {e : ε} (holds : ∀ s, pre s → post (.error e) s) :
    Ensures responds pre (throw e : Attempt call answer ε α) post := by
  rintro s r s' start ⟨rfl, rfl⟩
  exact holds _ start

theorem ensures_request {q : call} {post : Except ε (answer q) → σ → Prop}
    (holds : ∀ s a s', pre s → responds s q a s' → post (.ok a) s') :
    Ensures responds pre (request q) post := by
  intro s r s' start ends
  obtain ⟨a, rfl, answered⟩ := ends_request.mp ends
  exact holds s a s' start answered

theorem Ensures.bind {mid : Except ε α → σ → Prop} {post : Except ε β → σ → Prop}
    (first : Ensures responds pre c mid)
    (rest : ∀ a, Ensures responds (mid (.ok a)) (next a) post)
    (failed : ∀ e s, mid (.error e) s → post (.error e) s) :
    Ensures responds pre (c >>= next) post := by
  intro s r s' start ends
  rcases ends_bind.mp ends with ⟨a, m, earlier, later⟩ | ⟨e, rfl, earlier⟩
  · exact rest a m r s' (first s (.ok a) m start earlier) later
  · exact failed e s' (first s (.error e) s' start earlier)

end Ensures

/-! ### Invariants -/

/-- The program preserves the invariant. -/
abbrev Keeps (responds : Responses σ answer) (inv : σ → Prop) (c : Attempt call answer ε α) :
    Prop :=
  Ensures responds inv c fun _ s => inv s

section Keeps

variable {inv : σ → Prop} {c : Attempt call answer ε α} {next : α → Attempt call answer ε β}
  {p : call → Prop}

theorem keeps_pure {a : α} : Keeps responds inv (pure a : Attempt call answer ε α) :=
  ensures_pure fun _ holds => holds

theorem Keeps.bind (first : Keeps responds inv c) (rest : ∀ a, Keeps responds inv (next a)) :
    Keeps responds inv (c >>= next) :=
  Ensures.bind first rest fun _ _ holds => holds

end Keeps

end NovaNas.Program
