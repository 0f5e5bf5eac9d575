import Mathlib.Algebra.Ring.Nat
import Mathlib.Data.List.Basic

/-!
# Text helpers

The string functions of the Go standard library that the program reads its inputs with,
over lists of characters.
-/
namespace NovaNas.Text

/-- Bytes are written as numerals. -/
instance byteNumerals : NeZero 256 := ⟨Nat.succ_ne_zero 255⟩

/-- Unicode white space. -/
def isSpace (c : Char) : Bool :=
  c == ' ' || ('\t' ≤ c && c ≤ '\r') || c.val == 0x85 || c.val == 0xA0 || c.val == 0x1680 ||
    (0x2000 ≤ c.val && c.val ≤ 0x200A) || c.val == 0x2028 || c.val == 0x2029 ||
    c.val == 0x202F || c.val == 0x205F || c.val == 0x3000

/-- `strings.Fields`; `word` holds the current field, last character first. -/
def fieldsFrom (word : List Char) : List Char → List (List Char)
  | [] => if word.isEmpty then [] else [word.reverse]
  | c :: rest =>
    if isSpace c then
      if word.isEmpty then fieldsFrom [] rest else word.reverse :: fieldsFrom [] rest
    else fieldsFrom (c :: word) rest

def fields (s : List Char) : List (List Char) := fieldsFrom [] s

def trimSpace (s : List Char) : List Char :=
  ((s.dropWhile isSpace).reverse.dropWhile isSpace).reverse

variable {c : Char}

/-- Between the space and the control characters above ASCII there is no white space. -/
theorem isSpace_of_graphic (low : 32 < c.toNat) (high : c.toNat < 0x85) :
    isSpace c = false := by
  have differs (n : UInt32) (other : n.toNat ≤ 32 ∨ 0x85 ≤ n.toNat) : c.val ≠ n := by
    intro same
    have value : c.toNat = n.toNat := congrArg UInt32.toNat same
    omega
  have blank : c ≠ ' ' := fun same => differs 32 (by decide) (congrArg Char.val same)
  simp [isSpace, blank, differs, Char.le_def, UInt32.le_iff_toNat_le]
  omega

theorem isSpace_of_isDigit (digit : c.isDigit = true) : isSpace c = false := by
  have bounds : 48 ≤ c.toNat ∧ c.toNat ≤ 57 := by
    simpa [Char.isDigit, UInt32.le_iff_toNat_le] using digit
  exact isSpace_of_graphic (by omega) (by omega)

/-- A letter or digit of ASCII. -/
def alphanumeric (c : Char) : Bool :=
  ('a' ≤ c && c ≤ 'z') || ('A' ≤ c && c ≤ 'Z') || ('0' ≤ c && c ≤ '9')

theorem toNat_of_alphanumeric (ok : alphanumeric c = true) :
    (97 ≤ c.toNat ∧ c.toNat ≤ 122) ∨ (65 ≤ c.toNat ∧ c.toNat ≤ 90) ∨
      (48 ≤ c.toNat ∧ c.toNat ≤ 57) := by
  simp only [alphanumeric, Bool.or_eq_true, Bool.and_eq_true, decide_eq_true_eq] at ok
  rcases ok with (small | capital) | digit
  · exact .inl small
  · exact .inr (.inl capital)
  · exact .inr (.inr digit)

/-- `strings.Split` at a one-character separator. -/
def split (sep : Char) : List Char → List (List Char)
  | [] => [[]]
  | c :: rest =>
    if c = sep then [] :: split sep rest
    else
      match split sep rest with
      | [] => [[c]]
      | word :: words => (c :: word) :: words

/-- `strings.Join` with a one-character separator. -/
def join (sep : Char) : List (List Char) → List Char
  | [] => []
  | [word] => word
  | word :: next :: words => word ++ sep :: join sep (next :: words)

theorem split_nil (sep : Char) : split sep [] = [[]] := rfl

theorem split_cons (sep c : Char) (rest : List Char) : split sep (c :: rest) =
    if c = sep then [] :: split sep rest
    else
      match split sep rest with
      | [] => [[c]]
      | word :: words => (c :: word) :: words :=
  rfl

theorem split_ne_nil (sep : Char) (s : List Char) : split sep s ≠ [] := by
  induction s with
  | nil => simp [split_nil]
  | cons c rest ih =>
    rw [split_cons]
    split
    · simp
    · split <;> simp

variable {sep : Char} {s : List Char}

theorem mem_of_mem_split {word : List Char} (member : word ∈ split sep s) :
    ∀ c ∈ word, c ∈ s := by
  induction s generalizing word with
  | nil => simp [split] at member; simp [member]
  | cons c rest ih =>
    rw [split] at member
    split at member
    · rcases List.mem_cons.mp member with rfl | later
      · simp
      · exact fun d within => List.mem_cons_of_mem c (ih later d within)
    · split at member
      next none => exact absurd none (split_ne_nil sep rest)
      next first more words =>
        rcases List.mem_cons.mp member with rfl | later
        · intro d within
          rcases List.mem_cons.mp within with rfl | within
          · exact List.mem_cons_self
          · exact List.mem_cons_of_mem c (ih (words ▸ List.mem_cons_self) d within)
        · exact fun d within =>
            List.mem_cons_of_mem c (ih (words ▸ List.mem_cons_of_mem first later) d within)

theorem not_mem_of_mem_split {word : List Char} (member : word ∈ split sep s) :
    sep ∉ word := by
  induction s generalizing word with
  | nil => simp_all [split]
  | cons c rest ih =>
    rw [split] at member
    split at member
    · rcases List.mem_cons.mp member with rfl | later
      · simp
      · exact ih later
    next other =>
      cases words : split sep rest with
      | nil => exact absurd words (split_ne_nil sep rest)
      | cons first more =>
        rw [words] at member ih
        rcases List.mem_cons.mp member with rfl | later
        · simpa [Ne.symm other] using ih List.mem_cons_self
        · exact ih (List.mem_cons_of_mem _ later)

theorem join_split (sep : Char) (s : List Char) : join sep (split sep s) = s := by
  induction s with
  | nil => rfl
  | cons c rest ih =>
    rw [split_cons]
    cases words : split sep rest with
    | nil => exact absurd words (split_ne_nil sep rest)
    | cons word more =>
      rw [words] at ih
      split
      next same => rw [join, ih, same, List.nil_append]
      next =>
        cases more with
        | nil => rw [join] at ih ⊢; rw [ih]
        | cons next more => rw [join] at ih ⊢; rw [List.cons_append, ih]

theorem split_append {word : List Char} (absent : sep ∉ word) (rest : List Char) :
    split sep (word ++ sep :: rest) = word :: split sep rest := by
  induction word with
  | nil => simp [split_cons]
  | cons c word ih =>
    obtain ⟨other, absent⟩ := not_or.mp (mt List.mem_cons.mpr absent)
    simp [split_cons, ih absent, Ne.symm other]

theorem split_append_sep (sep : Char) (front rest : List Char) :
    split sep (front ++ sep :: rest) = split sep front ++ split sep rest := by
  induction front with
  | nil => simp [split_cons, split_nil]
  | cons c front ih =>
    rw [List.cons_append, split_cons, split_cons, ih]
    cases words : split sep front with
    | nil => exact absurd words (split_ne_nil sep front)
    | cons word more => split <;> rfl

theorem split_of_absent {word : List Char} (absent : sep ∉ word) :
    split sep word = [word] := by
  induction word with
  | nil => rfl
  | cons c word ih =>
    obtain ⟨other, absent⟩ := not_or.mp (mt List.mem_cons.mpr absent)
    simp [split_cons, ih absent, Ne.symm other]

/-- A text without the separator is added to the last word. -/
theorem split_append_absent (front : List Char) {back : List Char} (absent : sep ∉ back) :
    ∃ last, split sep (front ++ back) = (split sep front).dropLast ++ [last ++ back] := by
  induction front with
  | nil => exact ⟨[], split_of_absent absent⟩
  | cons c front ih =>
    obtain ⟨last, ih⟩ := ih
    rw [List.cons_append, split_cons, split_cons, ih]
    cases words : split sep front with
    | nil => exact absurd words (split_ne_nil sep front)
    | cons word more =>
      split
      · exact ⟨last, by simp⟩
      · cases more with
        | nil => exact ⟨c :: last, by simp⟩
        | cons next more => exact ⟨last, by simp⟩

theorem split_join {words : List (List Char)} (nonempty : words ≠ [])
    (absent : ∀ word ∈ words, sep ∉ word) : split sep (join sep words) = words := by
  induction words with
  | nil => contradiction
  | cons word words ih =>
    obtain ⟨first, later⟩ := List.forall_mem_cons.mp absent
    cases words with
    | nil => exact split_of_absent first
    | cons next words => rw [join, split_append first, ih (by simp) later]

theorem mem_join {words : List (List Char)} (member : c ∈ join sep words) :
    c = sep ∨ ∃ word ∈ words, c ∈ word := by
  induction words with
  | nil => simp [join] at member
  | cons word words ih =>
    cases words with
    | nil => exact .inr ⟨word, by simp, member⟩
    | cons next words =>
      simp only [join, List.mem_append, List.mem_cons] at member
      rcases member with within | same | later
      · exact .inr ⟨word, by simp, within⟩
      · exact .inl same
      · rcases ih later with same | ⟨other, listed, within⟩
        · exact .inl same
        · exact .inr ⟨other, List.mem_cons_of_mem _ listed, within⟩

/-- `strings.Contains`. -/
def contains (s part : List Char) : Bool := s.tails.any part.isPrefixOf

/-- Replaces the word behind the characters that a replacement already covers. -/
def replaceFrom (old new : List Char) : Nat → List Char → List Char
  | _, [] => []
  | covered + 1, _ :: rest => replaceFrom old new covered rest
  | 0, c :: rest =>
    if old.isPrefixOf (c :: rest) then new ++ replaceFrom old new (old.length - 1) rest
    else c :: replaceFrom old new 0 rest

/-- `strings.ReplaceAll` of a word that is not empty. -/
def replaceAll (s old new : List Char) : List Char := replaceFrom old new 0 s

/-- The text before and after the first `sep`. -/
def cut (sep : Char) : List Char → Option (List Char × List Char)
  | [] => none
  | c :: rest =>
    if c = sep then some ([], rest)
    else (cut sep rest).map fun (before, after) => (c :: before, after)

theorem cut_append {before : List Char} (absent : sep ∉ before) (after : List Char) :
    cut sep (before ++ sep :: after) = some (before, after) := by
  induction before with
  | nil => simp [cut]
  | cons c rest ih =>
    obtain ⟨other, absent⟩ := not_or.mp (mt List.mem_cons.mpr absent)
    simp [cut, ih absent, Ne.symm other]

theorem cut_eq_none_iff : cut sep s = none ↔ sep ∉ s := by
  induction s with
  | nil => simp [cut]
  | cons c rest ih =>
    rw [cut]
    split
    next same => simp [same]
    next other => simp [ih, Ne.symm other]

theorem cut_eq_some_iff {before after : List Char} :
    cut sep s = some (before, after) ↔ s = before ++ sep :: after ∧ sep ∉ before := by
  constructor
  · intro found
    induction s generalizing before with
    | nil => cases found
    | cons c rest ih =>
      rw [cut] at found
      split at found
      next same =>
        obtain ⟨rfl, rfl⟩ := Prod.mk.inj (Option.some.inj found)
        simp [same]
      next other =>
        obtain ⟨⟨_, _⟩, inner, same⟩ := Option.map_eq_some_iff.mp found
        obtain ⟨rfl, rfl⟩ := Prod.mk.inj same
        simp [← (ih inner).1, (ih inner).2, Ne.symm other]
  · rintro ⟨rfl, absent⟩
    exact cut_append absent after

/-- The text before and after the first occurrence of a word. -/
def cutWord (word : List Char) : List Char → Option (List Char × List Char)
  | [] => if word = [] then some ([], []) else none
  | c :: s =>
    if word.isPrefixOf (c :: s) then some ([], (c :: s).drop word.length)
    else (cutWord word s).map fun parts => (c :: parts.1, parts.2)

theorem cutWord_append {w : Char} {front : List Char} (absent : w ∉ front) (word rest : List Char) :
    cutWord (w :: word) (front ++ (w :: word ++ rest)) = some (front, rest) := by
  induction front with
  | nil =>
    have starts : (w :: word).isPrefixOf (w :: (word ++ rest)) = true := by
      simp [List.isPrefixOf, List.isPrefixOf_iff_prefix]
    simp [cutWord, starts]
  | cons c front ih =>
    obtain ⟨other, absent⟩ := not_or.mp (mt List.mem_cons.mpr absent)
    simp only [List.cons_append] at ih ⊢
    simp [cutWord, List.isPrefixOf, other, ih absent]

/-- The text before and after the last `sep`. -/
def cutLast (sep : Char) (s : List Char) : Option (List Char × List Char) :=
  (cut sep s.reverse).map fun parts => (parts.2.reverse, parts.1.reverse)

theorem cutLast_append {after : List Char} (absent : sep ∉ after) (before : List Char) :
    cutLast sep (before ++ sep :: after) = some (before, after) := by
  have back : (before ++ sep :: after).reverse = after.reverse ++ sep :: before.reverse := by simp
  rw [cutLast, back, cut_append (by simpa using absent)]
  simp

theorem eq_of_cutLast {before after : List Char} (found : cutLast sep s = some (before, after)) :
    s = before ++ sep :: after := by
  obtain ⟨⟨back, front⟩, cut, same⟩ := Option.map_eq_some_iff.mp found
  obtain ⟨rfl, rfl⟩ := Prod.mk.inj same
  have whole := congrArg List.reverse (cut_eq_some_iff.mp cut).1
  simpa using whole

/-- The character is the small letter, or another case of it under Unicode's simple folding. -/
def foldsTo (c letter : Char) : Bool :=
  c = letter || c = letter.toUpper || (letter = 's' && c = 'ſ') || (letter = 'k' && c = 'K')

/-- `strings.EqualFold` with a word of small letters. -/
def equalFold (s word : List Char) : Bool :=
  s.length = word.length && (s.zip word).all fun (c, letter) => foldsTo c letter

/-- `strings.ToLower`, as far as it gives small letters of ASCII. -/
def toLower (s : List Char) : List Char :=
  s.map fun c => if c = 'K' then 'k' else if c = 'İ' then 'i' else c.toLower

def digit (c : Char) : Option Nat :=
  if '0' ≤ c ∧ c ≤ '9' then some (c.toNat - '0'.toNat) else none

/-- Value of a run of decimal digits after the digits of `n`. -/
def decimalFrom (n : Nat) : List Char → Option Nat
  | [] => some n
  | c :: rest => (digit c).bind fun d => decimalFrom (10 * n + d) rest

def decimal : List Char → Option Nat
  | [] => none
  | cs => decimalFrom 0 cs

def maxInt : Int := 9223372036854775807

/-- `strconv.Atoi` on a 64-bit platform. -/
def atoi (s : List Char) : Option Int :=
  let parsed : Option Int :=
    match s with
    | '-' :: rest => (decimal rest).map fun n => -(n : Int)
    | '+' :: rest => (decimal rest).map fun n => (n : Int)
    | rest => (decimal rest).map fun n => (n : Int)
  -- Out of range is an error as well.
  parsed.filter fun n => -maxInt - 1 ≤ n && n ≤ maxInt

theorem digit_of_decimalFrom {n value : Nat} (read : decimalFrom n s = some value) :
    ∀ c ∈ s, (digit c).isSome := by
  induction s generalizing n with
  | nil => simp
  | cons c rest ih =>
    obtain ⟨d, first, later⟩ := Option.bind_eq_some_iff.mp read
    exact List.forall_mem_cons.mpr ⟨by simp [first], ih later⟩

theorem digit_of_decimal {value : Nat} (read : decimal s = some value) :
    ∀ c ∈ s, (digit c).isSome := by
  cases s with
  | nil => simp
  | cons c rest => exact digit_of_decimalFrom read

/-- A number that `strconv.Atoi` reads is made of digits, but for a sign in front. -/
theorem digit_of_atoi {n : Int} (read : atoi s = some n) :
    ∃ c rest, s = c :: rest ∧ (c = '-' ∨ c = '+' ∨ (digit c).isSome) ∧
      ∀ d ∈ rest, (digit d).isSome := by
  have parsed := (Option.filter_eq_some_iff.mp read).1
  split at parsed
  next rest =>
    obtain ⟨_, lifted, -⟩ := Option.map_eq_some_iff.mp parsed
    obtain ⟨value, digits, -⟩ := Option.bind_eq_some_iff.mp lifted
    exact ⟨'-', rest, rfl, .inl rfl, digit_of_decimal digits⟩
  next rest =>
    obtain ⟨_, lifted, -⟩ := Option.map_eq_some_iff.mp parsed
    obtain ⟨value, digits, -⟩ := Option.bind_eq_some_iff.mp lifted
    exact ⟨'+', rest, rfl, .inr (.inl rfl), digit_of_decimal digits⟩
  next =>
    obtain ⟨_, lifted, -⟩ := Option.map_eq_some_iff.mp parsed
    obtain ⟨value, digits, -⟩ := Option.bind_eq_some_iff.mp lifted
    cases s with
    | nil => cases digits
    | cons c rest =>
      obtain ⟨first, later⟩ := List.forall_mem_cons.mp (digit_of_decimal digits)
      exact ⟨c, rest, rfl, .inr (.inr first), later⟩

theorem atoi_le {n : Int} (read : atoi s = some n) : n ≤ maxInt := by
  have fits := (Option.filter_eq_some_iff.mp read).2
  simp only [Bool.and_eq_true, decide_eq_true_eq] at fits
  exact fits.2

theorem not_mem_of_atoi {n : Int} (read : atoi s = some n) (other : (digit c).isSome = false)
    (unsigned : c ≠ '+') (front : s.head? ≠ some c ∨ c ≠ '-') :
    c ∉ s := by
  obtain ⟨d, rest, rfl, first, digits⟩ := digit_of_atoi read
  intro member
  rcases List.mem_cons.mp member with rfl | later
  · rcases first with rfl | rfl | isDigit
    · simp at front
    · exact unsigned rfl
    · simp [other] at isDigit
  · exact absurd (digits c later) (by simp [other])

/-- Decimal digits, with leading zeros up to `width`. -/
def padded (width n : Nat) : List Char :=
  List.replicate (width - (Nat.toDigits 10 n).length) '0' ++ Nat.toDigits 10 n

/-- A decimal integer whose digits are padded to `width`. -/
def formatInt (width : Nat) (n : Int) : List Char :=
  if n < 0 then '-' :: padded width n.natAbs else padded width n.toNat

theorem padded_injective {width a b : Nat} (same : padded width a = padded width b) : a = b := by
  -- Reading the digits back gives the number; the zeros in front do not count.
  have value (n : Nat) : Nat.ofDigitChars 10 (padded width n) 0 = n := by
    rw [padded, Nat.ofDigitChars_append, Nat.ofDigitChars_replicate_zero, Nat.mul_zero,
      Nat.ofDigitChars_toDigits (by decide) (by decide)]
  rw [← value a, same, value b]

theorem length_padded {width n : Nat} (pos : 0 < width) (fits : n < 10 ^ width) :
    (padded width n).length = width := by
  have le := (Nat.length_toDigits_le_iff (by decide) pos).mpr fits
  simp only [padded, List.length_append, List.length_replicate]
  omega

/-- A number of fixed width at the end can be told from what stands before it. -/
theorem append_padded_inj (sep : List Char) {width m n : Nat} {front front' : List Char}
    (pos : 0 < width) (mfits : m < 10 ^ width) (nfits : n < 10 ^ width)
    (same : front ++ (sep ++ padded width m) = front' ++ (sep ++ padded width n)) :
    front = front' ∧ m = n := by
  obtain ⟨fronts, backs⟩ := List.append_inj' same
    (by simp [length_padded pos mfits, length_padded pos nfits])
  exact ⟨fronts, padded_injective (List.append_cancel_left backs)⟩

theorem isDigit_of_mem_padded {width n : Nat} (member : c ∈ padded width n) :
    c.isDigit = true := by
  rcases List.mem_append.mp member with zero | digit
  · rw [List.eq_of_mem_replicate zero]
    decide
  · exact Nat.isDigit_of_mem_toDigits (by decide) (by decide) digit

theorem formatInt_injective {width : Nat} {a b : Int}
    (same : formatInt width a = formatInt width b) : a = b := by
  -- A sign is not a digit, so a negative number never looks like one without a sign.
  have sign (m n : Nat) : '-' :: padded width m ≠ padded width n := by
    intro equal
    have member : '-' ∈ padded width n := by
      rw [← equal]
      exact List.mem_cons_self
    have digit := isDigit_of_mem_padded member
    revert digit
    decide
  simp only [formatInt] at same
  split at same
  · split at same
    · have equal := padded_injective (List.cons_injective same)
      omega
    · exact absurd same (sign _ _)
  · split at same
    · exact absurd same.symm (sign _ _)
    · have equal := padded_injective same
      omega

end NovaNas.Text
