import Mathlib.Data.List.DropRight
import NovaNas.Base.Decimal

/-!
# What trimming leaves
-/
namespace NovaNas.Text

theorem trimSpace_eq (s : List Char) :
    trimSpace s = (s.dropWhile isSpace).rdropWhile isSpace := rfl

theorem trimSpace_sublist (s : List Char) : (trimSpace s).Sublist s :=
  (List.rdropWhile_prefix _ _).sublist.trans (List.dropWhile_suffix _).sublist

variable {s : List Char}

/-- A text that neither starts nor ends with white space is left alone. -/
theorem trimSpace_of_ends (first : ∀ c ∈ s.head?, isSpace c = false)
    (last : ∀ c ∈ s.getLast?, isSpace c = false) : trimSpace s = s := by
  have front : s.dropWhile isSpace = s := by
    cases s with
    | nil => rfl
    | cons c s => simp [first c rfl]
  rw [trimSpace_eq, front, List.rdropWhile_eq_self_iff]
  intro nonempty
  rw [last _ (List.getLast?_eq_some_getLast nonempty)]
  exact Bool.false_ne_true

/-- No white space at either end. -/
structure Trimmed (s : List Char) : Prop where
  first : ∀ c ∈ s.head?, isSpace c = false
  last : ∀ c ∈ s.getLast?, isSpace c = false

theorem Trimmed.trimSpace_eq (trimmed : Trimmed s) : trimSpace s = s :=
  trimSpace_of_ends trimmed.first trimmed.last

theorem Trimmed.of_solid (solid : ∀ c ∈ s, isSpace c = false) : Trimmed s :=
  ⟨fun c member => solid c (List.mem_of_mem_head? member),
    fun c member => solid c (List.mem_of_mem_getLast? member)⟩

theorem trimSpace_eq_self (solid : ∀ c ∈ s, isSpace c = false) :
    trimSpace s = s :=
  (Trimmed.of_solid solid).trimSpace_eq

/-- A text up to a character that is no space is not cut from the end. -/
theorem rdropWhile_append_solid {c : Char} (solid : isSpace c = false) (front s : List Char) :
    (front ++ c :: s).rdropWhile isSpace = front ++ c :: s.rdropWhile isSpace := by
  induction s using List.reverseRecOn with
  | nil =>
    rw [List.rdropWhile_concat_neg _ _ _ (solid ▸ Bool.false_ne_true), List.rdropWhile_nil]
  | append_singleton s d ih =>
    rw [← List.cons_append, ← List.append_assoc, List.rdropWhile_concat, List.rdropWhile_concat]
    split
    · exact ih
    · rw [List.append_assoc, List.cons_append]

/-- White space at the end does not count. -/
theorem trimSpace_append {back : List Char} (space : ∀ c ∈ back, isSpace c = true)
    (s : List Char) : trimSpace (s ++ back) = trimSpace s := by
  induction s with
  | nil =>
    have none : back.dropWhile isSpace = [] := by simpa using space
    simp [trimSpace, none]
  | cons c s ih =>
    cases solid : isSpace c with
    | true => simpa [trimSpace, solid] using ih
    | false =>
      have spaces : ∀ d ∈ back.reverse, isSpace d = true := by simpa using space
      simp [trimSpace, solid, List.dropWhile_append_of_pos spaces]

theorem trimSpace_front {front : List Char} (space : ∀ c ∈ front, isSpace c = true)
    (s : List Char) : trimSpace (front ++ s) = trimSpace s := by
  rw [trimSpace_eq, List.dropWhile_append_of_pos space, trimSpace_eq]

theorem trimmed_trimSpace (s : List Char) : Trimmed (trimSpace s) := by
  rw [trimSpace_eq]
  constructor
  · cases cut : s.dropWhile isSpace with
    | nil => simp
    | cons c rest =>
      have solid : isSpace c = false := by
        have head := List.head_dropWhile_not isSpace (cut ▸ List.cons_ne_nil c rest)
        simpa only [cut, List.head_cons] using head
      have kept := rdropWhile_append_solid solid [] rest
      rw [List.nil_append] at kept
      simpa [kept] using solid
  · intro c last
    obtain ⟨nonempty, rfl⟩ := List.mem_getLast?_eq_getLast last
    simpa using List.rdropWhile_last_not _ _ nonempty

theorem mem_itoa {n : Int64} {c : Char} (member : c ∈ itoa n) : c = '-' ∨ c.isDigit = true := by
  rw [itoa, formatInt] at member
  split at member
  · exact (List.mem_cons.mp member).imp_right isDigit_of_mem_padded
  · exact .inr (isDigit_of_mem_padded member)

theorem toNat_of_mem_itoa {n : Int64} {c : Char} (member : c ∈ itoa n) : c.toNat < ':'.toNat := by
  rcases mem_itoa member with rfl | digit
  · decide
  · have bounds : '0' ≤ c ∧ c ≤ '9' := by simpa [Char.isDigit, Char.le_def] using digit
    exact Nat.lt_succ_of_le bounds.2

theorem itoa_ne_nil (n : Int64) : itoa n ≠ [] := by
  intro none_
  have read := atoi64_itoa n
  rw [none_] at read
  cases read

theorem isSpace_of_mem_itoa {n : Int64} {c : Char} (member : c ∈ itoa n) : isSpace c = false := by
  rcases mem_itoa member with rfl | digit
  · decide
  · exact isSpace_of_isDigit digit

end NovaNas.Text
