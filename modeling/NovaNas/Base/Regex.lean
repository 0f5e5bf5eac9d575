import Mathlib.Data.List.Basic

/-!
# Regular expressions, leftmost first

Expressions over single symbols and their matching in the order in which a backtracking matcher
tries: the first alternative before the second, the longest repetition before the shorter ones.
The rest of an expression is a continuation, so that a choice is given up only when what follows
it fails.
-/
namespace NovaNas

inductive Regex (α : Type) where
  | one (accepts : α → Bool)
  | seq (first second : Regex α)
  | alt (preferred other : Regex α)
  | opt (inner : Regex α)
  /-- As many symbols as possible. -/
  | star (accepts : α → Bool)
  | empty

namespace Regex

variable {α β : Type}

def starFrom (accepts : α → Bool) (next : List α → Option β) : List α → Option β
  | [] => next []
  | c :: s => if accepts c then (starFrom accepts next s).or (next (c :: s)) else next (c :: s)

/-- Matches at the start of the text and goes on with what is left of it. -/
def run : Regex α → (List α → Option β) → List α → Option β
  | one _, _, [] => none
  | one accepts, next, c :: s => if accepts c then next s else none
  | seq first second, next, s => first.run (second.run next) s
  | alt preferred other, next, s => (preferred.run next s).or (other.run next s)
  | opt inner, next, s => (inner.run next s).or (next s)
  | star accepts, next, s => starFrom accepts next s
  | empty, next, s => next s

/-- One symbol or more. -/
def plus (accepts : α → Bool) : Regex α := seq (one accepts) (star accepts)

def all : List (Regex α) → Regex α
  | [] => empty
  | first :: rest => seq first (all rest)

end Regex

end NovaNas
