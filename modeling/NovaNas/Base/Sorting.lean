import Mathlib.Data.Char
import Mathlib.Data.List.Lex
import Mathlib.Data.List.Sort

/-!
# Lists in order

A list sorted by a key that tells its elements apart depends on which elements it has, and on
nothing else.
-/
namespace NovaNas.Sorting

variable {α β κ : Type} [LinearOrder κ]

def sortBy (key : α → κ) (l : List α) : List α := l.insertionSort fun a b => key a ≤ key b

/-- `sort.Strings` -/
def sortNames (names : List (List Char)) : List (List Char) := sortBy id names

variable {key : α → κ} {l l' : List α}

@[simp] theorem mem_sortBy {a : α} : a ∈ sortBy key l ↔ a ∈ l := List.mem_insertionSort _

theorem sortBy_perm (key : α → κ) (l : List α) : (sortBy key l).Perm l :=
  List.perm_insertionSort _ _

@[simp] theorem nodup_sortBy : (sortBy key l).Nodup ↔ l.Nodup := (sortBy_perm key l).nodup_iff

theorem pairwise_sortBy (key : α → κ) (l : List α) :
    (sortBy key l).Pairwise fun a b => key a ≤ key b := by
  have total : Std.Total fun a b : α => key a ≤ key b := ⟨fun a b => le_total (key a) (key b)⟩
  have trans : IsTrans α fun a b : α => key a ≤ key b := ⟨fun _ _ _ => le_trans⟩
  exact List.pairwise_insertionSort _ l

/-- It is enough that the key tells the elements of the lists apart. -/
theorem sortBy_eq_of_nodup (distinct : (l.map key).Nodup) (perm : l.Perm l') :
    sortBy key l = sortBy key l' := by
  refine ((sortBy_perm key l).trans (perm.trans (sortBy_perm key l').symm)).eq_of_pairwise ?_
    (pairwise_sortBy key l) (pairwise_sortBy key l')
  intro a b left right le ge
  have left := mem_sortBy.mp left
  have right := perm.mem_iff.mpr (mem_sortBy.mp right)
  exact List.inj_on_of_nodup_map distinct left right (le_antisymm le ge)

/-- In ascending order, without repetitions. -/
def Ascending (l : List κ) : Prop := l.Pairwise (· < ·)

theorem ascending_sortBy {l : List κ} (distinct : l.Nodup) : Ascending (sortBy id l) := by
  have sorted := (pairwise_sortBy id l).and (nodup_sortBy.mpr distinct)
  exact sorted.imp fun ⟨le, ne⟩ => lt_of_le_of_ne le ne

theorem mem_sortNames {names : List (List Char)} {n : List Char} :
    n ∈ sortNames names ↔ n ∈ names := mem_sortBy

theorem nodup_sortNames {names : List (List Char)} : (sortNames names).Nodup ↔ names.Nodup :=
  nodup_sortBy

end NovaNas.Sorting
