import Mathlib.Data.List.Basic
import NovaNas.Base.Fallible

/-!
# Slices with bounds

A slice expression whose bounds do not lie inside of the slice stops the program. A function that
slices ends with a result, with an error, or in a panic.
-/
namespace NovaNas.Slices

/-- How a function ends that gives no result. -/
inductive Stop (ε : Type) where
  | error (err : ε)
  /-- An index out of range. -/
  | panic
  deriving DecidableEq, Repr

variable {α β ε ε' : Type}

/-- Another error in the place of the one there is. A panic stays. -/
def Stop.as (err : ε') : Stop ε → Stop ε'
  | .error _ => .error err
  | .panic => .panic

/-- `s[low:high]` -/
def slice (s : List α) (low high : Nat) : Except (Stop ε) (List α) :=
  if low ≤ high ∧ high ≤ s.length then .ok ((s.take high).drop low) else .error .panic

theorem slice_ok {s : List α} {low high : Nat} (ordered : low ≤ high) (inside : high ≤ s.length) :
    (slice s low high : Except (Stop ε) (List α)) = .ok ((s.take high).drop low) :=
  if_pos ⟨ordered, inside⟩

/-- What stands between two parts of a text. -/
theorem slice_middle (before middle after : List α) {low high : Nat} (start : before.length = low)
    (stop : low + middle.length = high) :
    (slice (before ++ (middle ++ after)) low high : Except (Stop ε) (List α)) = .ok middle := by
  subst start stop
  rw [slice_ok (Nat.le_add_right ..) (by simp), ← List.append_assoc, ← List.length_append,
    List.take_left, List.drop_left]

/-! ### Functions that do not panic -/

def Safe (result : Except (Stop ε) α) : Prop := result ≠ .error .panic

theorem safe_ok (a : α) : Safe (.ok a : Except (Stop ε) α) := by
  rintro ⟨⟩

theorem safe_error (err : ε) : Safe (.error (.error err) : Except (Stop ε) α) := by
  rintro ⟨⟩

theorem safe_bind {first : Except (Stop ε) α} {next : α → Except (Stop ε) β} (now : Safe first)
    (later : ∀ a, first = .ok a → Safe (next a)) : Safe (first >>= next) := by
  cases first with
  | ok a => exact later a rfl
  | error stop =>
    intro panics
    exact now (congrArg Except.error (Except.error.inj panics))

theorem safe_failIf {condition : Prop} [Decidable condition] (err : ε) :
    Safe (Fallible.failIf condition (.error err)) := by
  rw [Fallible.failIf]
  split
  · exact safe_error err
  · exact safe_ok ()

theorem safe_each {check : α → Except (Stop ε) Unit} {l : List α} (safe : ∀ a, Safe (check a)) :
    Safe (Fallible.each check l) := by
  induction l with
  | nil => exact safe_ok ()
  | cons a rest ih => exact safe_bind (safe a) fun _ _ => ih

theorem safe_as {result : Except (Stop ε) α} (safe : Safe result) (err : ε') :
    Safe (result.mapError (Stop.as err)) := by
  cases result with
  | ok a => exact safe_ok a
  | error stop =>
    cases stop with
    | error _ => exact safe_error err
    | panic => exact absurd rfl safe

end NovaNas.Slices
