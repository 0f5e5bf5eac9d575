import NovaNas.Base.Fallible
import NovaNas.Base.Lines

/-!
# Lines of the Kerberos files

Both files are read line by line: white space at the ends and comments are taken away, and what is
left is a section, or a key and a value around the first `=`.
-/
namespace NovaNas.Krb5.Conf

open Text (Solid Trimmed trimSpace alphanumeric isSpace trimSpace_sublist)

abbrev Name := List Char

def isComment (c : Char) : Bool := c == '#' || c == ';'

def stripComment (s : Name) : Name :=
  if s.any isComment then trimSpace (s.takeWhile fun c => !isComment c) else s

def splitKV (s : Name) : Option (Name × Name) :=
  (Text.cut '=' s).bind fun parts =>
    if trimSpace parts.1 = [] then none
    else some (trimSpace parts.1, trimSpace parts.2)

/-- What is left of a line. -/
def cleaned (raw : Name) : Name := stripComment (trimSpace raw)

/-- The section of a line in brackets. -/
def sectionName (line : Name) : Option Name :=
  if line.head? = some '[' ∧ line.getLast? = some ']' then some (trimSpace line.tail.dropLast)
  else none

/-! ### Host names -/

def isDNSLabel (label : Name) : Bool :=
  label.head?.any alphanumeric && label.getLast?.any alphanumeric &&
    label.all fun c => alphanumeric c || c == '-'

def isDNSName (s : Name) : Bool :=
  s ≠ [] && Text.byteLength s ≤ 253 && (Text.split '.' s).all isDNSLabel

/-- A character that neither ends a value nor starts a comment. -/
def plain (c : Char) : Bool := !isSpace c && !isComment c

theorem plain_of_alphanumeric {c : Char} (ok : alphanumeric c = true) : plain c = true := by
  have bounds := Text.toNat_of_alphanumeric ok
  have differs (d : Char) (other : d.toNat < 48 ∨ d.toNat = 59) : c ≠ d := by
    rintro rfl
    omega
  have solid : isSpace c = false := Text.isSpace_of_graphic (by omega) (by omega)
  simp [plain, solid, isComment, differs '#' (by decide), differs ';' (by decide)]

theorem plain_of_mem_itoa {n : Int64} {c : Char} (member : c ∈ Text.itoa n) : plain c = true := by
  rcases Text.mem_itoa member with rfl | digit
  · decide
  · refine plain_of_alphanumeric ?_
    simp only [Char.isDigit, Bool.and_eq_true, decide_eq_true_eq, ge_iff_le] at digit
    simp only [alphanumeric, Bool.or_eq_true, Bool.and_eq_true, decide_eq_true_eq]
    exact .inr digit

/-- The characters of DNS names and of realms. -/
def nameChar (c : Char) : Bool := alphanumeric c || c == '.' || c == '_' || c == '-'

theorem plain_of_nameChar {c : Char} (ok : nameChar c = true) : plain c = true := by
  simp only [nameChar, Bool.or_eq_true, beq_iff_eq] at ok
  rcases ok with ((word | rfl) | rfl) | rfl
  · exact plain_of_alphanumeric word
  all_goals decide

theorem nameChar_of_isDNSName {s : Name} (ok : isDNSName s = true) :
    ∀ c ∈ s, nameChar c = true := by
  simp only [isDNSName, Bool.and_eq_true, List.all_eq_true] at ok
  intro c member
  rw [← Text.join_split '.' s] at member
  rcases Text.mem_join member with rfl | ⟨label, listed, within⟩
  · decide
  · have label := ok.2 label listed
    simp only [isDNSLabel, Bool.and_eq_true, List.all_eq_true, Bool.or_eq_true, beq_iff_eq] at label
    rcases label.2 c within with word | rfl
    · simp [nameChar, word]
    · decide

/-! ### Lines of a key and a value -/

/-- A value that is read as it is written. -/
structure Fine (v : Name) : Prop where
  trimmed : Trimmed v
  uncommented : ∀ c ∈ v, isComment c = false
  single : '\n' ∉ v

theorem solid_of_plain {v : Name} (all : ∀ c ∈ v, plain c = true) : Solid v := fun c member => by
  simpa [plain] using (Bool.and_eq_true_iff.mp (all c member)).1

theorem uncommented_of_plain {v : Name} (all : ∀ c ∈ v, plain c = true) :
    ∀ c ∈ v, isComment c = false := fun c member => by
  simpa [plain] using (Bool.and_eq_true_iff.mp (all c member)).2

theorem Fine.of_plain {v : Name} (all : ∀ c ∈ v, plain c = true) : Fine v :=
  ⟨.of_solid (solid_of_plain all), uncommented_of_plain all, (solid_of_plain all).no_newline⟩

/-- A key that is read as it is written. -/
structure KeyWord (key : Name) : Prop where
  all : ∀ c ∈ key, plain c = true
  noEq : '=' ∉ key
  given : key ≠ []
  front : key.head? ≠ some '['

def isKeyWord (key : Name) : Bool :=
  key.all plain && !key.contains '=' && key ≠ [] && key.head? ≠ some '['

theorem keyWord_of {key : Name} (check : isKeyWord key = true) : KeyWord key := by
  simp only [isKeyWord, Bool.and_eq_true, decide_eq_true_eq, List.all_eq_true] at check
  obtain ⟨⟨⟨all, noEq⟩, given⟩, front⟩ := check
  exact ⟨all, by simpa using noEq, given, front⟩

theorem KeyWord.of_name {key : Name} (all : ∀ c ∈ key, nameChar c = true) (given : key ≠ []) :
    KeyWord key where
  all c member := plain_of_nameChar (all c member)
  noEq member := absurd (all _ member) (by decide)
  given := given
  front first := absurd (all _ (List.mem_of_mem_head? first)) (by decide)

theorem Fine.of_name {v : Name} (all : ∀ c ∈ v, nameChar c = true) : Fine v :=
  .of_plain fun c member => plain_of_nameChar (all c member)

/-- The text of a setting. -/
def setting (key value : Name) : Name := key ++ " = ".toList ++ value

theorem stripComment_of_uncommented {s : Name} (uncommented : ∀ c ∈ s, isComment c = false) :
    stripComment s = s := by
  have none_ : s.any isComment = false := by simpa using uncommented
  rw [stripComment, none_]
  rfl

theorem sectionName_setting {key : Name} (word : KeyWord key) (value : Name) :
    sectionName (setting key value) = none := by
  refine if_neg fun brackets => word.front ?_
  cases shape : key with
  | nil => exact absurd shape word.given
  | cons c rest => simpa [setting, shape] using brackets.1

section Setting

variable {key value : Name} (word : KeyWord key) (fine : Fine value)
include word fine

theorem cleaned_setting (given : value ≠ []) (indent : Nat) :
    cleaned (Text.blanks indent ++ setting key value) = setting key value := by
  have spaces : ∀ c ∈ Text.blanks indent, isSpace c = true := by
    intro c member
    rw [List.eq_of_mem_replicate member]
    decide
  have trimmed : Trimmed (setting key value) := by
    constructor
    · intro c first
      refine solid_of_plain word.all c (List.mem_of_mem_head? ?_)
      cases shape : key with
      | nil => exact absurd shape word.given
      | cons d rest => simpa [setting, shape] using first
    · rw [setting, List.getLast?_append_of_ne_nil _ given]
      exact fine.trimmed.last
  have uncommented : ∀ c ∈ setting key value, isComment c = false := by
    simp only [setting, List.forall_mem_append]
    exact ⟨⟨uncommented_of_plain word.all, by simp [isComment]⟩, fine.uncommented⟩
  rw [cleaned, Text.trimSpace_front spaces, trimmed.trimSpace_eq,
    stripComment_of_uncommented uncommented]

theorem splitKV_setting : splitKV (setting key value) = some (key, value) := by
  have front : '=' ∉ key ++ [' '] := by simp [word.noEq]
  have whole : setting key value = (key ++ [' ']) ++ '=' :: ' ' :: value := by simp [setting]
  have keyText : trimSpace (key ++ [' ']) = key := by
    rw [Text.trimSpace_append (by simp [isSpace]), Text.trimSpace_eq_self (solid_of_plain word.all)]
  have valueText : trimSpace (' ' :: value) = value := by
    have skipped : trimSpace ([' '] ++ value) = trimSpace value :=
      Text.trimSpace_front (by simp [isSpace]) value
    rw [List.singleton_append] at skipped
    rw [skipped, fine.trimmed.trimSpace_eq]
  rw [splitKV, whole, Text.cut_append front]
  simp [keyText, valueText, word.given]

theorem setting_single : '\n' ∉ setting key value := by
  simp [setting, (solid_of_plain word.all).no_newline, fine.single]

end Setting

theorem mem_cleaned {raw : Name} {c : Char} (member : c ∈ cleaned raw) :
    c ∈ raw ∧ isComment c = false := by
  rw [cleaned, stripComment] at member
  split at member
  · have kept := (trimSpace_sublist _).subset member
    have plain := List.mem_takeWhile_imp kept
    exact ⟨(trimSpace_sublist raw).subset (List.takeWhile_subset _ kept), by simpa using plain⟩
  next none_ =>
    refine ⟨(trimSpace_sublist raw).subset member, ?_⟩
    simp only [List.any_eq_true, not_exists, not_and, Bool.not_eq_true] at none_
    exact none_ c member

/-- What is read as a value could be written. -/
theorem Fine.of_splitKV {raw k v : Name} (single : '\n' ∉ raw)
    (read : splitKV (cleaned raw) = some (k, v)) : Fine v := by
  obtain ⟨⟨key, value⟩, cut, read⟩ := Option.bind_eq_some_iff.mp read
  split at read
  · cases read
  · cases read
    have within {c : Char} (member : c ∈ trimSpace value) : c ∈ cleaned raw := by
      rw [(Text.cut_eq_some_iff.mp cut).1]
      exact List.mem_append_right _ (.tail _ ((trimSpace_sublist _).subset member))
    exact ⟨Text.trimmed_trimSpace _, fun c member => (mem_cleaned (within member)).2,
      fun member => single (mem_cleaned (within member)).1⟩

end NovaNas.Krb5.Conf
