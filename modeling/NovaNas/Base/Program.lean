import Mathlib.Logic.Basic

/-!
# Programs that call outside

A program is the tree of the calls it makes: at each node it waits for the answer to one call
and goes on by it. Other parties take their steps between two calls, so the tree is what an
interleaving needs to know of sequential code.
-/
namespace NovaNas

inductive Program (call : Type) (answer : call → Type) (α : Type) where
  | ret (result : α)
  | ask (q : call) (next : answer q → Program call answer α)

namespace Program

variable {call : Type} {answer : call → Type} {α β s : Type}

def bind : Program call answer α → (α → Program call answer β) → Program call answer β
  | .ret result, rest => rest result
  | .ask q next, rest => .ask q fun a => (next a).bind rest

instance : Monad (Program call answer) where
  pure := .ret
  bind := bind

/-- One call on its own. -/
def perform (q : call) : Program call answer (answer q) := .ask q .ret

@[simp] theorem pure_eq (result : α) : (pure result : Program call answer α) = .ret result := rfl

@[simp] theorem ret_bind (result : α) (rest : α → Program call answer β) :
    (.ret result : Program call answer α) >>= rest = rest result := rfl

@[simp] theorem ask_bind (q : call) (next : answer q → Program call answer α)
    (rest : α → Program call answer β) :
    (.ask q next >>= rest) = .ask q fun a => next a >>= rest := rfl

@[simp] theorem perform_bind (q : call) (rest : answer q → Program call answer β) :
    (perform q >>= rest) = .ask q rest := rfl

/-- Whatever is answered, every call meets the predicate. -/
@[simp] def Always (p : call → Prop) : Program call answer α → Prop
  | .ret _ => True
  | .ask q next => p q ∧ ∀ a, (next a).Always p

/-- Some answers lead to a call that meets the predicate. -/
@[simp] def Ever (p : call → Prop) : Program call answer α → Prop
  | .ret _ => False
  | .ask q next => p q ∨ ∃ a, (next a).Ever p

/-- Whatever is answered, the calls follow the protocol and the program returns only where the
protocol allows it. -/
@[simp] def Follows (protocol : s → call → Option s) (accept : s → Prop) :
    s → Program call answer α → Prop
  | at_, .ret _ => accept at_
  | at_, .ask q next => ∃ after, protocol at_ q = some after ∧
      ∀ a, (next a).Follows protocol accept after

theorem Always.mono {p p' : call → Prop} {program : Program call answer α}
    (always : program.Always p) (weaker : ∀ q, p q → p' q) : program.Always p' := by
  induction program with
  | ret result => trivial
  | ask q next ih => exact ⟨weaker q always.1, fun a => ih a (always.2 a)⟩

theorem Follows.mono {protocol : s → call → Option s} {accept accept' : s → Prop} {at_ : s}
    {program : Program call answer α} (follows : program.Follows protocol accept at_)
    (weaker : ∀ at_, accept at_ → accept' at_) : program.Follows protocol accept' at_ := by
  induction program generalizing at_ with
  | ret result => exact weaker at_ follows
  | ask q next ih =>
    obtain ⟨after, allowed, later⟩ := follows
    exact ⟨after, allowed, fun a => ih a (later a)⟩

section Bind

variable {p : call → Prop} {first : Program call answer α} {rest : α → Program call answer β}

theorem Always.bind (always : first.Always p) (after : ∀ result, (rest result).Always p) :
    (first >>= rest).Always p := by
  induction first with
  | ret result => exact after result
  | ask q next ih => exact ⟨always.1, fun a => ih a (always.2 a)⟩

theorem ever_bind (never : ∀ result, ¬ (rest result).Ever p) :
    (first >>= rest).Ever p ↔ first.Ever p := by
  induction first with
  | ret result => simpa using never result
  | ask q next ih => simp [ih]

/-- Calls that leave the protocol where it is may come before the rest. -/
theorem Follows.bind {protocol : s → call → Option s} {accept : s → Prop} {at_ : s}
    (steady : ∀ q, p q → protocol at_ q = some at_) (always : first.Always p)
    (after : ∀ result, (rest result).Follows protocol accept at_) :
    (first >>= rest).Follows protocol accept at_ := by
  induction first with
  | ret result => exact after result
  | ask q next ih => exact ⟨at_, steady q always.1, fun a => ih a (always.2 a)⟩

end Bind

end Program

end NovaNas
