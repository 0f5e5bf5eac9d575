/-!
# Results that may be errors

What is known of the parts when a computation with errors has returned a result.
-/
namespace NovaNas.Fallible

variable {ε ε' α β : Type}

theorem ok_bind (a : α) (next : α → Except ε β) : (Except.ok a >>= next) = next a := rfl

theorem error_bind (err : ε) (next : α → Except ε β) :
    (Except.error err >>= next) = Except.error err := rfl

theorem bind_ok {first : Except ε α} {next : α → Except ε β} {b : β}
    (returned : first >>= next = .ok b) : ∃ a, first = .ok a ∧ next a = .ok b := by
  cases first with
  | error err => cases returned
  | ok a => exact ⟨a, rfl, returned⟩

theorem bind_ok_iff {first : Except ε α} {next : α → Except ε β} {b : β} :
    first >>= next = .ok b ↔ ∃ a, first = .ok a ∧ next a = .ok b := by
  constructor
  · exact bind_ok
  · rintro ⟨a, rfl, rest⟩
    exact rest

theorem mapError_ok {result : Except ε α} {wrap : ε → ε'} {a : α}
    (returned : result.mapError wrap = .ok a) : result = .ok a := by
  cases result with
  | error err => cases returned
  | ok b =>
    cases returned
    rfl

theorem mapError_ok_iff {result : Except ε α} {wrap : ε → ε'} {a : α} :
    result.mapError wrap = .ok a ↔ result = .ok a := by
  constructor
  · exact mapError_ok
  · rintro rfl
    rfl

theorem mapError_mapError {ε'' : Type} (result : Except ε α) (f : ε → ε') (g : ε' → ε'') :
    (result.mapError f).mapError g = result.mapError (g ∘ f) := by
  cases result <;> rfl

theorem mapError_bind (first : Except ε α) (next : α → Except ε β) (wrap : ε → ε') :
    (first >>= next).mapError wrap = first.mapError wrap >>= fun a => (next a).mapError wrap := by
  cases first <;> rfl

theorem forall_mapError {result : Except ε α} {wrap : ε → ε'} {p : Prop} :
    (∀ err, result.mapError wrap = .error err → p) ↔ ∀ err, result = .error err → p := by
  cases result with
  | ok a =>
    constructor
    · intro _ _ failed
      cases failed
    · intro _ _ failed
      cases failed
  | error err =>
    constructor
    · intro holds _ _
      exact holds (wrap err) rfl
    · intro holds _ _
      exact holds err rfl

section Traversals

variable {f : α → Except ε β}

theorem mapM_cons_ok {x : α} {xs : List α} {ys : List β} :
    (x :: xs).mapM f = .ok ys ↔ ∃ y rest, f x = .ok y ∧ xs.mapM f = .ok rest ∧ ys = y :: rest := by
  rw [List.mapM_cons]
  constructor
  · intro returned
    obtain ⟨y, first, returned⟩ := bind_ok returned
    obtain ⟨rest, others, returned⟩ := bind_ok returned
    exact ⟨y, rest, first, others, (Except.ok.inj returned).symm⟩
  · rintro ⟨y, rest, first, others, rfl⟩
    simp [first, others, bind, Except.bind, pure, Except.pure]

theorem exists_mapM_ok {xs : List α} :
    (∃ ys, xs.mapM f = .ok ys) ↔ ∀ x ∈ xs, ∃ y, f x = .ok y := by
  induction xs with
  | nil => simp [pure, Except.pure]
  | cons x xs ih =>
    simp only [mapM_cons_ok, List.forall_mem_cons, ← ih]
    constructor
    · rintro ⟨_, y, rest, first, others, -⟩
      exact ⟨⟨y, first⟩, rest, others⟩
    · rintro ⟨⟨y, first⟩, rest, others⟩
      exact ⟨_, y, rest, first, others, rfl⟩

theorem mem_of_mapM_ok {xs : List α} {ys : List β} (returned : xs.mapM f = .ok ys) (y : β) :
    y ∈ ys ↔ ∃ x ∈ xs, f x = .ok y := by
  induction xs generalizing ys with
  | nil =>
    cases returned
    simp
  | cons x xs ih =>
    obtain ⟨first, rest, head, others, rfl⟩ := mapM_cons_ok.mp returned
    simp [ih others, head, eq_comm]

end Traversals

/-- Returns the error if the condition holds, as an early return does. -/
def failIf (condition : Prop) [Decidable condition] (err : ε) : Except ε Unit :=
  if condition then .error err else .ok ()

theorem failIf_ok {condition : Prop} [Decidable condition] {err : ε}
    (returned : failIf condition err = .ok ()) : ¬condition := by
  intro holds
  rw [failIf, if_pos holds] at returned
  cases returned

theorem failIf_ok_iff {condition : Prop} [Decidable condition] {err : ε} {u : Unit} :
    failIf condition err = .ok u ↔ ¬condition := by
  constructor
  · exact failIf_ok
  · exact fun fails => if_neg fails

/-- Checks the elements in turn. -/
def each {α : Type} (check : α → Except ε Unit) : List α → Except ε Unit
  | [] => .ok ()
  | a :: rest => do
    check a
    each check rest

theorem each_ok {α : Type} {check : α → Except ε Unit} {l : List α}
    (returned : each check l = .ok ()) : ∀ a ∈ l, check a = .ok () := by
  induction l with
  | nil => simp
  | cons a rest ih =>
    obtain ⟨_, first, later⟩ := bind_ok returned
    exact List.forall_mem_cons.mpr ⟨first, ih later⟩

theorem each_ok_iff {α : Type} {check : α → Except ε Unit} {l : List α} {u : Unit} :
    each check l = .ok u ↔ ∀ a ∈ l, check a = .ok () := by
  constructor
  · exact each_ok
  · intro passes
    induction l with
    | nil => rfl
    | cons a rest ih =>
      obtain ⟨first, later⟩ := List.forall_mem_cons.mp passes
      exact bind_ok_iff.mpr ⟨(), first, ih later⟩

end NovaNas.Fallible
