import NovaNas.Base.Trimming

/-!
# Lines and words

Texts that are read line by line, and lines that are read word by word.
-/
namespace NovaNas.Text

/-- No white space. -/
def Solid (s : List Char) : Prop := ∀ c ∈ s, isSpace c = false

instance (s : List Char) : Decidable (Solid s) := List.decidableBAll _ s

def blanks (n : Nat) : List Char := List.replicate n ' '

def byteLength (s : List Char) : Nat := (s.map Char.utf8Size).sum

/-- The lines that a `bufio.Scanner` with the given limit gives, if none is too long for it. -/
def scanLines (limit : Nat) (data : List Char) : Option (List (List Char)) :=
  if (split '\n' data).all fun line => byteLength line < limit then some (split '\n' data) else none

/-- The lines before one that is too long for the scanner, and whether there is such a line. -/
def scanned (limit : Nat) (data : List Char) : List (List Char) × Bool :=
  ((split '\n' data).takeWhile (byteLength · < limit), (scanLines limit data).isNone)

/-- A text of written lines. -/
def unlines (lines : List (List Char)) : List Char := lines.flatMap (· ++ ['\n'])

theorem split_unlines {lines : List (List Char)} (single : ∀ line ∈ lines, '\n' ∉ line) :
    split '\n' (unlines lines) = lines ++ [[]] := by
  induction lines with
  | nil => rfl
  | cons line lines ih =>
    obtain ⟨first, later⟩ := List.forall_mem_cons.mp single
    rw [unlines, List.flatMap_cons, List.append_assoc, List.singleton_append, split_append first,
      ← unlines, ih later]
    rfl

/-- Written lines are read, with an empty one at the end, if none is too long. -/
theorem scanLines_unlines {limit : Nat} (pos : 0 < limit) {lines : List (List Char)}
    (single : ∀ line ∈ lines, '\n' ∉ line) : scanLines limit (unlines lines) =
      if ∀ line ∈ lines, byteLength line < limit then some (lines ++ [[]]) else none := by
  have last : byteLength [] < limit := pos
  simp [scanLines, split_unlines single, last]

theorem scanned_unlines {limit : Nat} (pos : 0 < limit) {lines : List (List Char)}
    (single : ∀ line ∈ lines, '\n' ∉ line) (short : ∀ line ∈ lines, byteLength line < limit) :
    scanned limit (unlines lines) = (lines ++ [[]], false) := by
  have all : ∀ line ∈ lines ++ [[]], decide (byteLength line < limit) = true := by
    have last : byteLength [] < limit := pos
    simpa [or_imp, forall_and, last] using short
  rw [scanned, scanLines_unlines pos single, if_pos short, split_unlines single,
    List.takeWhile_eq_self_iff.mpr all]
  rfl

theorem Solid.append {s t : List Char} (first : Solid s) (second : Solid t) : Solid (s ++ t) :=
  List.forall_mem_append.mpr ⟨first, second⟩

theorem Solid.not_mem {s : List Char} (solid : Solid s) {c : Char} (space : isSpace c = true) :
    c ∉ s := by
  intro member
  rw [solid c member] at space
  cases space

theorem Solid.no_newline {s : List Char} (solid : Solid s) : '\n' ∉ s := solid.not_mem (by decide)

/-! ### Words -/

theorem fieldsFrom_append {word s : List Char} (solid : Solid s) (rest : List Char) :
    fieldsFrom word (s ++ rest) = fieldsFrom (s.reverse ++ word) rest := by
  induction s generalizing word with
  | nil => rfl
  | cons c s ih =>
    obtain ⟨first, later⟩ := List.forall_mem_cons.mp solid
    rw [List.cons_append, fieldsFrom, if_neg (by simp [first]), ih later]
    simp

theorem fields_space {c : Char} (space : isSpace c = true) (s : List Char) :
    fields (c :: s) = fields s := by
  simp [fields, fieldsFrom, space]

theorem fields_spaces {front : List Char} (space : ∀ c ∈ front, isSpace c = true) (s : List Char) :
    fields (front ++ s) = fields s := by
  induction front with
  | nil => rfl
  | cons c front ih =>
    obtain ⟨first, later⟩ := List.forall_mem_cons.mp space
    rw [List.cons_append, fields_space first, ih later]

theorem fields_blanks (n : Nat) (s : List Char) : fields (blanks n ++ s) = fields s :=
  fields_spaces (fun c member => by rw [List.eq_of_mem_replicate member]; decide) s

/-- A word ends at a space or at the end of the text. -/
theorem fields_word {word rest : List Char} (solid : Solid word) (nonempty : word ≠ [])
    (ends : ∀ c ∈ rest.head?, isSpace c = true) : fields (word ++ rest) = word :: fields rest := by
  have begun : (word.reverse ++ []).isEmpty = false := by simpa using nonempty
  rw [fields, fieldsFrom_append solid]
  cases rest with
  | nil => simp [fieldsFrom, fields, nonempty]
  | cons c rest =>
    have space := ends c rfl
    rw [fields_space space, fieldsFrom, if_pos space, begun]
    simp [fields]

theorem fieldsFrom_spaces {back : List Char} (space : ∀ c ∈ back, isSpace c = true)
    (word s : List Char) : fieldsFrom word (s ++ back) = fieldsFrom word s := by
  induction s generalizing word with
  | nil =>
    have nothing := fields_spaces space []
    rw [List.append_nil] at nothing
    cases back with
    | nil => rfl
    | cons c back =>
      rw [fields_space (space c List.mem_cons_self)] at nothing
      simp only [List.nil_append, fieldsFrom, space c List.mem_cons_self, if_true]
      rw [← fields, nothing]
      rfl
  | cons c s ih =>
    rw [List.cons_append, fieldsFrom, fieldsFrom]
    simp only [ih]

theorem fields_trimSpace (s : List Char) : fields (trimSpace s) = fields s := by
  have front : fields (s.dropWhile isSpace) = fields s := by
    conv_rhs => rw [← List.takeWhile_append_dropWhile (p := isSpace) (l := s)]
    exact (fields_spaces (fun c member => List.mem_takeWhile_imp member) _).symm
  rw [← front, trimSpace_eq]
  generalize s.dropWhile isSpace = t
  conv_rhs => rw [← List.rdropWhile_append_rtakeWhile (p := isSpace) (l := t)]
  exact (fieldsFrom_spaces (fun c member => List.mem_rtakeWhile_imp member) [] _).symm

/-- Whether a text starts with a word is told by its first word. -/
theorem isPrefixOf_word {start word rest : List Char} (solid : Solid start)
    (ends : ∀ c ∈ rest.head?, isSpace c = true) :
    start.isPrefixOf (word ++ rest) = start.isPrefixOf word := by
  induction start generalizing word with
  | nil => simp
  | cons c start ih =>
    obtain ⟨first, later⟩ := List.forall_mem_cons.mp solid
    cases word with
    | cons d word => simp only [List.cons_append, List.isPrefixOf_cons_cons, ih later]
    | nil =>
      cases rest with
      | nil => rfl
      | cons d rest =>
        have other : c ≠ d := by
          rintro rfl
          rw [ends c rfl] at first
          cases first
        simp [List.isPrefixOf_cons_cons, other]

/-- The text starts with the word once the space before it is trimmed. -/
theorem trimSpace_word {front word : List Char} (space : ∀ c ∈ front, isSpace c = true)
    (solid : Solid word) (nonempty : word ≠ []) (rest : List Char) :
    trimSpace (front ++ (word ++ rest)) = word ++ rest.rdropWhile isSpace := by
  have start : (word ++ rest).dropWhile isSpace = word ++ rest := by
    cases word with
    | nil => exact absurd rfl nonempty
    | cons c word => simp [solid c List.mem_cons_self]
  have last : word = word.dropLast ++ [word.getLast nonempty] :=
    (List.dropLast_append_getLast nonempty).symm
  have shape : word ++ rest = word.dropLast ++ word.getLast nonempty :: rest := by
    conv_lhs => rw [last]
    simp
  rw [trimSpace_eq, List.dropWhile_append_of_pos space, start, shape,
    rdropWhile_append_solid (solid _ (List.getLast_mem nonempty))]
  conv_rhs => rw [last]
  simp

end NovaNas.Text
