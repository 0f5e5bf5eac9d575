import NovaNas.Base.Fallible
import NovaNas.Base.Program

/-!
# Runs of programs

What a program can do in a world that answers its calls. A response relation says which answers a
call may get in a state and what the state is afterwards, so that failures and the doings of other
parties are answers and changes like any others.
-/
namespace NovaNas.Program

variable {call : Type} {answer : call → Type} {σ τ ε α β : Type}

abbrev Responses (σ : Type) (answer : call → Type) := σ → (q : call) → answer q → σ → Prop

/-- The program, started in `s`, can return `r` in `s'`. -/
def Run (responds : Responses σ answer) : Program call answer α → σ → α → σ → Prop
  | .ret result, s, r, s' => r = result ∧ s' = s
  | .ask q next, s, r, s' => ∃ a m, responds s q a m ∧ (next a).Run responds m r s'

section Simulation

variable {responds : Responses σ answer} {responds' : Responses τ answer} {p : call → Prop}
  {program : Program call answer α} {r : α} {s s' : σ}

/-- What one world answers, another one related to it can answer too. -/
theorem Run.simulate (related : σ → τ → Prop)
    (step : ∀ s t q a s', p q → related s t → responds s q a s' →
      ∃ t', responds' t q a t' ∧ related s' t')
    (calls : program.Always p) {t : τ} (start : related s t) (run : program.Run responds s r s') :
    ∃ t', program.Run responds' t r t' ∧ related s' t' := by
  induction program generalizing s t with
  | ret result =>
    obtain ⟨rfl, rfl⟩ := run
    exact ⟨t, ⟨rfl, rfl⟩, start⟩
  | ask q next ih =>
    obtain ⟨a, m, answered, rest⟩ := run
    obtain ⟨m', answered', between⟩ := step s t q a m calls.1 start answered
    obtain ⟨t', run', finish⟩ := ih a (calls.2 a) between rest
    exact ⟨t', ⟨a, m', answered', run'⟩, finish⟩

/-- What every call of the program preserves, its runs preserve. -/
theorem Run.invariant (inv : σ → Prop)
    (preserved : ∀ s q a s', p q → inv s → responds s q a s' → inv s')
    (calls : program.Always p) (initial : inv s) (run : program.Run responds s r s') : inv s' := by
  induction program generalizing s with
  | ret result => exact run.2 ▸ initial
  | ask q next ih =>
    obtain ⟨a, m, answered, rest⟩ := run
    exact ih a (calls.2 a) (preserved s q a m calls.1 initial answered) rest

theorem always_true (program : Program call answer α) : program.Always fun _ => True := by
  induction program with
  | ret result => trivial
  | ask q next ih => exact ⟨trivial, ih⟩

theorem Run.mono {responds' : Responses σ answer}
    (weaker : ∀ s q a s', responds s q a s' → responds' s q a s')
    (run : program.Run responds s r s') : program.Run responds' s r s' := by
  have step : ∀ s t q a s', True → s = t → responds s q a s' →
      ∃ t', responds' t q a t' ∧ s' = t' := by
    rintro s _ q a s' - rfl answered
    exact ⟨s', weaker s q a s' answered, rfl⟩
  obtain ⟨t', run', rfl⟩ := run.simulate Eq step (always_true program) rfl
  exact run'

end Simulation

variable {responds : Responses σ answer}

theorem run_bind {first : Program call answer α} {rest : α → Program call answer β} {s s' : σ}
    {r : β} :
    (first >>= rest).Run responds s r s' ↔
      ∃ a m, first.Run responds s a m ∧ (rest a).Run responds m r s' := by
  induction first generalizing s with
  | ret result =>
    constructor
    · intro run
      exact ⟨result, s, ⟨rfl, rfl⟩, run⟩
    · rintro ⟨a, m, ⟨rfl, rfl⟩, run⟩
      exact run
  | ask q next ih =>
    constructor
    · rintro ⟨a, m, answered, run⟩
      obtain ⟨b, m', earlier, later⟩ := ih a |>.mp run
      exact ⟨b, m', ⟨a, m, answered, earlier⟩, later⟩
    · rintro ⟨b, m', ⟨a, m, answered, earlier⟩, later⟩
      exact ⟨a, m, answered, (ih a).mpr ⟨b, m', earlier, later⟩⟩

/-! ### Execution -/

/-- The run in which a handler answers. -/
def exec (handler : σ → (q : call) → answer q × σ) : Program call answer α → σ → α × σ
  | .ret result, s => (result, s)
  | .ask q next, s => (next (handler s q).1).exec handler (handler s q).2

theorem run_exec_of {handler : σ → (q : call) → answer q × σ} (inv : σ → Prop)
    (sound : ∀ s q, inv s → responds s q (handler s q).1 (handler s q).2 ∧ inv (handler s q).2)
    (program : Program call answer α) {s : σ} (holds : inv s) :
    program.Run responds s (program.exec handler s).1 (program.exec handler s).2 := by
  induction program generalizing s with
  | ret result => exact ⟨rfl, rfl⟩
  | ask q next ih => exact ⟨_, _, (sound s q holds).1, ih _ (sound s q holds).2⟩

theorem run_exec {handler : σ → (q : call) → answer q × σ}
    (sound : ∀ s q, responds s q (handler s q).1 (handler s q).2)
    (program : Program call answer α) (s : σ) :
    program.Run responds s (program.exec handler s).1 (program.exec handler s).2 :=
  run_exec_of (fun _ => True) (fun s q _ => ⟨sound s q, trivial⟩) program trivial

/-! ### Programs that may fail -/

/-- A program that returns a result or an error. -/
abbrev Attempt (call : Type) (answer : call → Type) (ε : Type) := ExceptT ε (Program call answer)

/-- One call on its own. -/
def request (q : call) : Attempt call answer ε (answer q) := ExceptT.lift (perform q)

/-- Goes on by the outcome of a program instead of failing with it. -/
def outcome (c : Attempt call answer ε α) : Attempt call answer ε (Except ε α) :=
  ExceptT.lift c.run

variable {ε' : Type}

def mapError (f : ε → ε') (c : Attempt call answer ε α) : Attempt call answer ε' α :=
  ExceptT.mk (c.run >>= fun r => .ret (r.mapError f))

def Ends (responds : Responses σ answer) (c : Attempt call answer ε α) (s : σ) (r : Except ε α)
    (s' : σ) : Prop :=
  c.run.Run responds s r s'

/-- Every call the program makes, whatever is answered, meets the predicate. -/
def Calls (p : call → Prop) (c : Attempt call answer ε α) : Prop := c.run.Always p

section Attempt

variable {responds : Responses σ answer} {c : Attempt call answer ε α}
  {next : α → Attempt call answer ε β} {s s' : σ} {p : call → Prop}

theorem run_bind_eq : (c >>= next).run = c.run >>= fun
    | .ok a => (next a).run
    | .error e => .ret (.error e) := by
  rw [ExceptT.run_bind]
  congr 1

variable {r : Except ε α}

@[simp] theorem ends_pure {a : α} :
    Ends responds (pure a) s r s' ↔ r = .ok a ∧ s' = s := Iff.rfl

@[simp] theorem ends_throw {e : ε} :
    Ends responds (throw e) s r s' ↔ r = .error e ∧ s' = s := Iff.rfl

@[simp] theorem ends_liftExcept {result : Except ε α} :
    Ends responds (liftExcept result) s r s' ↔ r = result ∧ s' = s := by
  cases result with
  | ok a => exact ends_pure
  | error e => exact ends_throw

theorem liftExcept_ok_bind (a : α) (next : α → Attempt call answer ε β) :
    liftExcept (.ok a : Except ε α) >>= next = next a := rfl

theorem liftExcept_error_bind (e : ε) (next : α → Attempt call answer ε β) :
    liftExcept (.error e : Except ε α) >>= next = throw e := rfl

theorem ends_bind {r : Except ε β} : Ends responds (c >>= next) s r s' ↔
    (∃ a m, Ends responds c s (.ok a) m ∧ Ends responds (next a) m r s') ∨
      ∃ e, r = .error e ∧ Ends responds c s (.error e) s' := by
  rw [Ends, run_bind_eq, run_bind]
  constructor
  · rintro ⟨a, m, earlier, later⟩
    cases a with
    | ok a => exact .inl ⟨a, m, earlier, later⟩
    | error e =>
      obtain ⟨rfl, rfl⟩ := later
      exact .inr ⟨e, rfl, earlier⟩
  · rintro (⟨a, m, earlier, later⟩ | ⟨e, rfl, earlier⟩)
    · exact ⟨.ok a, m, earlier, later⟩
    · exact ⟨.error e, s', earlier, rfl, rfl⟩

/-- What succeeds has got past a check. -/
theorem ends_parsed_bind {result : Except ε' α} {f : ε' → ε} {b : β}
    (ends : Ends responds (liftExcept (result.mapError f) >>= next) s (.ok b) s') :
    ∃ a, result = .ok a ∧ Ends responds (next a) s (.ok b) s' := by
  cases result with
  | error err => cases ends.1
  | ok a => exact ⟨a, rfl, ends⟩

theorem ends_bind_ok {b : β} : Ends responds (c >>= next) s (.ok b) s' ↔
    ∃ a m, Ends responds c s (.ok a) m ∧ Ends responds (next a) m (.ok b) s' := by
  rw [ends_bind]
  simp

/-- A program that only adds a value to the result of another ends where that one does. -/
theorem Ends.of_bind_pure {f : α → β} {r : Except ε β}
    (ends : Ends responds (c >>= fun a => pure (f a)) s r s') : ∃ o, Ends responds c s o s' := by
  rcases ends_bind.mp ends with ⟨a, m, ran, -, rfl⟩ | ⟨e, -, ran⟩
  · exact ⟨.ok a, ran⟩
  · exact ⟨.error e, ran⟩

@[simp] theorem ends_request {q : call} {r : Except ε (answer q)} :
    Ends responds (request q) s r s' ↔ ∃ a, r = .ok a ∧ responds s q a s' := by
  constructor
  · rintro ⟨a, m, answered, rfl, rfl⟩
    exact ⟨a, rfl, answered⟩
  · rintro ⟨a, rfl, answered⟩
    exact ⟨a, s', answered, rfl, rfl⟩

/-- A part that always succeeds hands its value on. -/
theorem ends_bind_of_ok {ran : α → σ → Prop}
    (always : ∀ {r m}, Ends responds c s r m ↔ ∃ a, r = .ok a ∧ ran a m) {r : Except ε β} :
    Ends responds (c >>= next) s r s' ↔ ∃ a m, ran a m ∧ Ends responds (next a) m r s' := by
  rw [ends_bind]
  simp [always]

theorem ends_request_bind {q : call} {next : answer q → Attempt call answer ε β} {r : Except ε β} :
    Ends responds (request q >>= next) s r s' ↔
      ∃ a m, responds s q a m ∧ Ends responds (next a) m r s' :=
  ends_bind_of_ok ends_request

variable {program : Program call answer α}

theorem run_bind_ret {f : α → β} {b : β} :
    (program >>= fun a => .ret (f a)).Run responds s b s' ↔
      ∃ a, b = f a ∧ program.Run responds s a s' := by
  rw [run_bind]
  constructor
  · rintro ⟨a, m, run, rfl, rfl⟩
    exact ⟨a, rfl, run⟩
  · rintro ⟨a, rfl, run⟩
    exact ⟨a, s', run, rfl, rfl⟩

@[simp] theorem ends_lift :
    Ends responds (ExceptT.lift program) s r s' ↔ ∃ a, r = .ok a ∧ program.Run responds s a s' :=
  run_bind_ret

theorem ends_lift_bind {r : Except ε β} :
    Ends responds (ExceptT.lift program >>= next) s r s' ↔
      ∃ a m, program.Run responds s a m ∧ Ends responds (next a) m r s' :=
  ends_bind_of_ok ends_lift

theorem ends_outcome_bind {next : Except ε α → Attempt call answer ε β} {r : Except ε β} :
    Ends responds (outcome c >>= next) s r s' ↔
      ∃ o m, Ends responds c s o m ∧ Ends responds (next o) m r s' :=
  ends_lift_bind

@[simp] theorem ends_mapError {f : ε → ε'} {r : Except ε' α} :
    Ends responds (mapError f c) s r s' ↔ ∃ o, r = o.mapError f ∧ Ends responds c s o s' :=
  run_bind_ret

theorem ends_mapError_ok {f : ε → ε'} {a : α} :
    Ends responds (mapError f c) s (.ok a) s' ↔ Ends responds c s (.ok a) s' := by
  rw [ends_mapError]
  constructor
  · rintro ⟨o, same, ends⟩
    rwa [Fallible.mapError_ok same.symm] at ends
  · intro ends
    exact ⟨.ok a, rfl, ends⟩

@[simp] theorem calls_pure {a : α} : Calls p (pure a : Attempt call answer ε α) := trivial

@[simp] theorem calls_throw {e : ε} : Calls p (throw e : Attempt call answer ε α) := trivial

@[simp] theorem calls_request {q : call} :
    Calls p (request q : Attempt call answer ε (answer q)) ↔ p q :=
  ⟨fun calls => calls.1, fun holds => ⟨holds, fun _ => trivial⟩⟩

theorem calls_bind (first : Calls p c) (rest : ∀ a, Calls p (next a)) : Calls p (c >>= next) := by
  rw [Calls, run_bind_eq]
  apply Always.bind first
  intro r
  cases r with
  | ok a => exact rest a
  | error e => trivial

theorem calls_outcome (calls : Calls p c) : Calls p (outcome c) :=
  Always.bind calls fun _ => trivial

theorem Calls.mono {p' : call → Prop} (calls : Calls p c) (weaker : ∀ q, p q → p' q) :
    Calls p' c :=
  Always.mono calls weaker

theorem Ends.invariant (ends : Ends responds c s r s') (inv : σ → Prop)
    (preserved : ∀ s q a s', p q → inv s → responds s q a s' → inv s') (calls : Calls p c)
    (initial : inv s) : inv s' :=
  Run.invariant inv preserved calls initial ends

theorem Ends.mono {responds' : Responses σ answer} (ends : Ends responds c s r s')
    (weaker : ∀ s q a s', responds s q a s' → responds' s q a s') : Ends responds' c s r s' :=
  Run.mono weaker ends

end Attempt

/-! ### Records -/

/-- The state also keeps every call with its answer. -/
def Recorded (responds : Responses σ answer) : Responses (σ × List (Σ q, answer q)) answer :=
  fun s q a s' => responds s.1 q a s'.1 ∧ s'.2 = s.2 ++ [⟨q, a⟩]

section Recorded

variable {responds : Responses σ answer} {c : Attempt call answer ε α} {r : Except ε α}
  {s s' : σ × List (Σ q, answer q)}

theorem Ends.of_recorded (ends : Ends (Recorded responds) c s r s') :
    Ends responds c s.1 r s'.1 := by
  obtain ⟨_, run, rfl⟩ := Run.simulate (fun s t => s.1 = t)
    (fun s _ _ _ s' _ same answered => ⟨s'.1, same ▸ answered.1, rfl⟩) (always_true c.run) rfl ends
  exact run

theorem Ends.record_prefix (ends : Ends (Recorded responds) c s r s') : s.2 <+: s'.2 :=
  ends.invariant (s.2 <+: ·.2)
    (fun _ _ _ _ _ earlier answered => answered.2 ▸ earlier.trans (List.prefix_append _ _))
    (always_true c.run) (List.prefix_refl _)

end Recorded

end NovaNas.Program
