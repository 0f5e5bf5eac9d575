import Mathlib.Data.List.Infix
import NovaNas.Base.Text

/-!
# Words mentioned in texts

A word is looked for in two kinds of text. In a list it stands between separators. In a text made of
quoted strings it stands behind a quote, up to a quote or another mark; inside a string a quote is
escaped, and so may be other characters, but some always stand for themselves. A word of such
characters is found exactly where a string begins with it, or the part of a string behind a quote.
-/
namespace NovaNas.Mentions

/-! ### Lists -/

section Lists

variable {sep : Char → Bool}

/-- `strings.FieldsFunc`, with the word read so far. -/
def fieldsFuncFrom (sep : Char → Bool) (word : List Char) : List Char → List (List Char)
  | [] => if word = [] then [] else [word]
  | c :: rest =>
    if sep c then
      if word = [] then fieldsFuncFrom sep [] rest else word :: fieldsFuncFrom sep [] rest
    else fieldsFuncFrom sep (word ++ [c]) rest

def fieldsFunc (sep : Char → Bool) (s : List Char) : List (List Char) := fieldsFuncFrom sep [] s

/-- The text is at its end or goes on with a separator. -/
def Ends (sep : Char → Bool) (s : List Char) : Prop := ∀ c ∈ s.head?, sep c = true

/-- The word stands in front, and then the text ends or a separator follows. -/
def Leads (sep : Char → Bool) (word s : List Char) : Prop :=
  (∀ c ∈ word, sep c = false) ∧ ∃ rest, s = word ++ rest ∧ Ends sep rest

/-- The word stands in front or behind a separator. -/
def Stands (sep : Char → Bool) (word s : List Char) : Prop :=
  Leads sep word s ∨ ∃ front c back, s = front ++ c :: back ∧ sep c = true ∧ Leads sep word back

theorem not_leads_of_sep {c : Char} {w s : List Char} (cuts : sep c = true) (some : w ≠ []) :
    ¬Leads sep w (c :: s) := by
  rintro ⟨free, rest, same, -⟩
  cases w with
  | nil => exact some rfl
  | cons a w => simp [← (List.cons.inj same).1, cuts] at free

theorem stands_cons_of_sep {c : Char} {w s : List Char} (cuts : sep c = true) (some : w ≠ []) :
    Stands sep w (c :: s) ↔ Stands sep w s := by
  constructor
  · rintro (leads | ⟨front, d, back, same, d_cuts, leads⟩)
    · exact absurd leads (not_leads_of_sep cuts some)
    · cases front with
      | nil => exact .inl ((List.cons.inj same).2 ▸ leads)
      | cons a front => exact .inr ⟨front, d, back, (List.cons.inj same).2, d_cuts, leads⟩
  · rintro (leads | ⟨front, d, back, rfl, d_cuts, leads⟩)
    · exact .inr ⟨[], c, s, rfl, cuts, leads⟩
    · exact .inr ⟨c :: front, d, back, rfl, d_cuts, leads⟩

/-- What is found from the middle of a word on: that word when it is done, or a later one. -/
theorem mem_fieldsFuncFrom {w : List Char} (some : w ≠ []) (word s : List Char) :
    w ∈ fieldsFuncFrom sep word s ↔ (∃ more, w = word ++ more ∧ Leads sep more s) ∨
      ∃ front c back, s = front ++ c :: back ∧ sep c = true ∧ Leads sep w back := by
  induction s generalizing word with
  | nil =>
    have none : (∃ more, w = word ++ more ∧ Leads sep more []) ↔ w = word := by
      constructor
      · rintro ⟨more, rfl, -, rest, same, -⟩
        simp [(List.append_eq_nil_iff.mp same.symm).1]
      · rintro rfl
        exact ⟨[], by simp, by simp, [], rfl, by simp [Ends]⟩
    rw [none]
    by_cases empty : word = [] <;> simp [fieldsFuncFrom, empty, some]
  | cons c s ih =>
    by_cases cuts : sep c = true
    · -- The word under way ends here; the next one starts behind the separator.
      have ended : (∃ more, w = word ++ more ∧ Leads sep more (c :: s)) ↔ w = word := by
        constructor
        · rintro ⟨more, rfl, free, rest, same, -⟩
          cases more with
          | nil => simp
          | cons a more => simp [← (List.cons.inj same).1, cuts] at free
        · rintro rfl
          exact ⟨[], by simp, by simp, c :: s, rfl, by simp [Ends, cuts]⟩
      have later := stands_cons_of_sep (s := s) cuts some
      have next : w ∈ fieldsFuncFrom sep [] s ↔ Stands sep w s := by simp [ih, Stands]
      have here : Stands sep w (c :: s) ↔
          ∃ front d back, c :: s = front ++ d :: back ∧ sep d = true ∧ Leads sep w back :=
        or_iff_right (not_leads_of_sep cuts some)
      rw [ended, ← here, later, ← next]
      by_cases empty : word = [] <;> simp [fieldsFuncFrom, cuts, empty, some]
    · rw [fieldsFuncFrom, if_neg cuts, ih]
      refine or_congr ⟨?_, ?_⟩ ⟨?_, ?_⟩
      · rintro ⟨more, rfl, free, rest, rfl, ends⟩
        refine ⟨c :: more, by simp, ?_, rest, rfl, ends⟩
        simpa [cuts] using free
      · rintro ⟨more, rfl, free, rest, same, ends⟩
        cases more with
        | nil =>
          obtain rfl : rest = c :: s := same.symm
          simp [Ends, cuts] at ends
        | cons a more =>
          obtain ⟨rfl, rfl⟩ := List.cons.inj same
          exact ⟨more, by simp, fun d member => free d (.tail _ member), rest, rfl, ends⟩
      · rintro ⟨front, d, back, rfl, found⟩
        exact ⟨c :: front, d, back, rfl, found⟩
      · rintro ⟨front, d, back, same, d_cuts, leads⟩
        cases front with
        | nil => exact absurd ((List.cons.inj same).1 ▸ d_cuts) cuts
        | cons a front => exact ⟨front, d, back, (List.cons.inj same).2, d_cuts, leads⟩

theorem mem_fieldsFunc {w : List Char} (some : w ≠ []) (s : List Char) :
    w ∈ fieldsFunc sep s ↔ Stands sep w s := by
  simp [fieldsFunc, mem_fieldsFuncFrom some, Stands]

end Lists

/-! ### Quoted strings -/

/-- How the characters of a string are written, where the plain ones are written as they are. -/
structure Escaping (plain : Char → Bool) where
  escape : Char → List Char
  quote : escape '"' = ['\\', '"']
  same : ∀ c, plain c = true → escape c = [c]
  other : ∀ c, c ≠ '"' → plain c = false →
    '"' ∉ escape c ∧ ∃ first rest, escape c = first :: rest ∧ plain first = false
  quote_not_plain : plain '"' = false
  backslash_not_plain : plain '\\' = false

/-- The word stands in front, followed by a quote or the mark. -/
def Starts (mark : Char) (word s : List Char) : Prop := word ++ ['"'] <+: s ∨ word ++ [mark] <+: s

/-- Somewhere the word stands behind a quote, followed by a quote or the mark. -/
def Found (mark : Char) (word s : List Char) : Prop :=
  '"' :: (word ++ ['"']) <:+: s ∨ '"' :: (word ++ [mark]) <:+: s

/-- The string is the word, or begins with it and the mark. -/
def Begins (mark : Char) (word v : List Char) : Prop := v = word ∨ word ++ [mark] <+: v

/-- The string begins with the word, or the part of it behind a quote does. -/
def Shows (mark : Char) (word v : List Char) : Prop :=
  Begins mark word v ∨ ∃ part, '"' :: part <:+ v ∧ Begins mark word part

theorem contains_iff {s part : List Char} : Text.contains s part = true ↔ part <:+: s := by
  rw [Text.contains, List.any_eq_true, List.infix_iff_prefix_suffix]
  simp only [List.mem_tails, List.isPrefixOf_iff_prefix, and_comm]

section Search

variable {mark first c : Char} {word s w : List Char}

theorem found_cons :
    Found mark word (c :: s) ↔ (c = '"' ∧ Starts mark word s) ∨ Found mark word s := by
  simp only [Found, Starts, List.infix_cons_iff, List.cons_prefix_cons, eq_comm (b := c)]
  tauto

theorem found_append (bare : '"' ∉ w) : Found mark word (w ++ s) ↔ Found mark word s := by
  induction w with
  | nil => rfl
  | cons c w ih =>
    rw [List.mem_cons, not_or] at bare
    rw [List.cons_append, found_cons, ih bare.2]
    simp [Ne.symm bare.1]

theorem not_starts (differs : ∀ c ∈ s.head?, c ≠ first) : ¬Starts mark (first :: word) s := by
  cases s with
  | nil => simp [Starts]
  | cons c s =>
    have ne : first ≠ c := (differs c rfl).symm
    simp [Starts, List.cons_prefix_cons, ne]

end Search

namespace Escaping

variable {plain : Char → Bool} (e : Escaping plain) {mark : Char} {word w v s rest : List Char}

def text (v : List Char) : List Char := v.flatMap e.escape

theorem text_cons (c : Char) (v : List Char) : e.text (c :: v) = e.escape c ++ e.text v :=
  List.flatMap_cons

/-- What stands for a character that is not plain begins with one that is not plain either. -/
theorem escape_of_not_plain {c : Char} (hard : plain c = false) :
    ∃ first rest, e.escape c = first :: rest ∧ plain first = false := by
  by_cases quote : c = '"'
  · exact ⟨_, _, quote ▸ e.quote, e.backslash_not_plain⟩
  · exact (e.other c quote hard).2

theorem quote_not_mem {c : Char} (ne : c ≠ '"') : '"' ∉ e.escape c := by
  cases known : plain c with
  | true => simpa [e.same c known] using ne.symm
  | false => exact (e.other c ne known).1

/-- No string begins with a quote. -/
theorem not_quote_prefix (c : Char) : ¬['"'] <+: e.text (c :: v) ++ s := by
  rw [text_cons]
  cases known : plain c with
  | true =>
    have ne : '"' ≠ c := fun same => by simp [← same, e.quote_not_plain] at known
    simp [e.same c known, List.cons_prefix_cons, ne]
  | false =>
    by_cases quote : c = '"'
    · simp [quote, e.quote, List.cons_prefix_cons]
    · obtain ⟨bare, first, rest, written, -⟩ := e.other c quote known
      have ne : '"' ≠ first := fun same => bare (by rw [written, same]; exact .head _)
      simp [written, List.cons_prefix_cons, ne]

theorem cons_prefix_text {a c : Char} (easy : plain a = true) :
    a :: w <+: e.text (c :: v) ++ s ↔ a = c ∧ w <+: e.text v ++ s := by
  rw [text_cons, List.append_assoc]
  cases known : plain c with
  | true => rw [e.same c known, List.singleton_append, List.cons_prefix_cons]
  | false =>
    obtain ⟨first, rest, written, hard⟩ := e.escape_of_not_plain known
    have ne : a ≠ c := fun same => by simp [← same, easy] at known
    have ne' : a ≠ first := fun same => by simp [← same, easy] at hard
    simp [written, List.cons_prefix_cons, ne, ne']

include e in
theorem not_prefix_quote {a : Char} (easy : plain a = true) : ¬a :: w <+: '"' :: rest := by
  intro starts
  simp [(List.cons_prefix_cons.mp starts).1, e.quote_not_plain] at easy

/-- Plain characters are found in a string where they are. -/
theorem prefix_text (easy : ∀ c ∈ w, plain c = true) :
    w <+: e.text v ++ '"' :: rest ↔ w <+: v := by
  induction w generalizing v with
  | nil => simp
  | cons a w ih =>
    obtain ⟨first, later⟩ := List.forall_mem_cons.mp easy
    cases v with
    | nil => simpa [text] using e.not_prefix_quote first
    | cons c v => rw [e.cons_prefix_text first, List.cons_prefix_cons, ih later]

/-- Plain characters up to a quote are found where they are the whole string. -/
theorem quote_prefix_text (easy : ∀ c ∈ w, plain c = true) :
    w ++ ['"'] <+: e.text v ++ '"' :: rest ↔ v = w := by
  induction w generalizing v with
  | nil =>
    cases v with
    | nil => simp [text, List.cons_prefix_cons]
    | cons c v => simpa using e.not_quote_prefix c
  | cons a w ih =>
    obtain ⟨first, later⟩ := List.forall_mem_cons.mp easy
    cases v with
    | nil => simpa [text] using e.not_prefix_quote first
    | cons c v =>
      rw [List.cons_append, e.cons_prefix_text first, ih later, List.cons_eq_cons, eq_comm]

theorem starts_text (easy : ∀ c ∈ word, plain c = true) (marked : plain mark = true) :
    Starts mark word (e.text v ++ '"' :: rest) ↔ Begins mark word v := by
  have marks : ∀ c ∈ word ++ [mark], plain c = true := by
    simpa [or_imp, forall_and] using ⟨easy, marked⟩
  rw [Starts, e.prefix_text marks, e.quote_prefix_text easy, Begins]

theorem found_text (easy : ∀ c ∈ word, plain c = true) (marked : plain mark = true) :
    Found mark word (e.text v ++ '"' :: rest) ↔
      (∃ part, '"' :: part <:+ v ∧ Begins mark word part) ∨ Found mark word ('"' :: rest) := by
  induction v with
  | nil => simp [text]
  | cons c v ih =>
    rw [text_cons, List.append_assoc]
    by_cases quote : c = '"'
    · -- Behind an escaped quote the rest of the string is looked at as if it were one.
      subst quote
      have part : (∃ part, '"' :: part <:+ '"' :: v ∧ Begins mark word part) ↔
          Begins mark word v ∨ ∃ part, '"' :: part <:+ v ∧ Begins mark word part := by
        simp [List.suffix_cons_iff, or_and_right, exists_or]
      rw [e.quote, part, List.cons_append, List.singleton_append, found_cons, found_cons, ih,
        e.starts_text easy marked]
      simp [or_assoc]
    · have part (part : List Char) : '"' :: part <:+ c :: v ↔ '"' :: part <:+ v := by
        simp [List.suffix_cons_iff, Ne.symm quote]
      simp only [found_append (e.quote_not_mem quote), ih, part]

/-- Strings in quotes, each with what stands between it and the next. -/
def strings : List (List Char × List Char) → List Char
  | [] => []
  | (v, gap) :: rest => '"' :: (e.text v ++ '"' :: (gap ++ strings rest))

/-- In a text of strings a word is found exactly where one of them shows it. -/
theorem found_strings {first : Char} {more : List Char}
    (easy : ∀ c ∈ first :: more, plain c = true) (marked : plain mark = true)
    {parts : List (List Char × List Char)}
    (gaps : ∀ p ∈ parts, '"' ∉ p.2 ∧ ∀ c ∈ p.2.head?, c ≠ first) :
    Found mark (first :: more) (e.strings parts) ↔
      ∃ p ∈ parts, Shows mark (first :: more) p.1 := by
  induction parts with
  | nil => simp [strings, Found]
  | cons p parts ih =>
    obtain ⟨v, gap⟩ := p
    obtain ⟨⟨bare, differs⟩, later⟩ := List.forall_mem_cons.mp gaps
    have behind : ¬Starts mark (first :: more) (gap ++ e.strings parts) := by
      refine not_starts fun c head => ?_
      cases gap with
      | cons d gap => exact differs c head
      | nil =>
        -- With nothing between, the next string's quote follows.
        cases parts with
        | nil => cases head
        | cons p parts =>
          obtain rfl : '"' = c := Option.some.inj head
          intro same
          simpa [← same, e.quote_not_plain] using easy first (.head _)
    rw [strings, found_cons, e.starts_text easy marked, e.found_text easy marked, found_cons,
      found_append bare, ih later]
    simp [behind, Shows, or_assoc]

end Escaping

end NovaNas.Mentions
