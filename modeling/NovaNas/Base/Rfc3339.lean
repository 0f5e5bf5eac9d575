import Mathlib.Data.List.TakeWhile
import NovaNas.Base.Clock
import NovaNas.Base.Decimal

/-!
# The text of an instant

RFC 3339 with as many digits of the second as it takes, in UTC. A year has four digits: the text
of an instant outside the years 0 to 9999 is not read back.
-/
namespace NovaNas.Rfc3339

open Text (padded formatInt decimal isDigit_of_mem_padded)
open Calendar Clock

/-! ### Writing -/

def clockSecond (t : Int) : Int := t / second % 60

/-- The digits of the nanoseconds without the zeros at the end. -/
def fractionText (nanos : Nat) : List Char :=
  if nanos = 0 then []
  else '.' :: ((padded 9 nanos).reverse.dropWhile (· = '0')).reverse

def dateText (t : Int) : List Char :=
  formatInt 4 (clockDate t).year ++ '-' ::
    (padded 2 (clockDate t).month ++ '-' :: padded 2 (clockDate t).day.toNat)

def clockText (t : Int) : List Char :=
  padded 2 (clockHour t).toNat ++ ':' :: (padded 2 (clockMinute t).toNat ++ ':' ::
    (padded 2 (clockSecond t).toNat ++ fractionText (t % second).toNat))

/-- `t.UTC().Format(time.RFC3339Nano)` -/
def format (t : Int) : List Char := dateText t ++ 'T' :: (clockText t ++ ['Z'])

/-! ### Reading -/

/-- A number of `width` digits within bounds, and what follows it. -/
def field (width low high : Nat) (s : List Char) : Option (Nat × List Char) :=
  if s.length < width then none
  else
    (decimal (s.take width)).bind fun n =>
      if low ≤ n ∧ n ≤ high then some (n, s.drop width) else none

def mark (c : Char) : List Char → Option (List Char)
  | d :: rest => if d = c then some rest else none
  | [] => none

/-- Digits after the ninth are not looked at. -/
def nanosOf (digits : List Char) : Nat :=
  Nat.ofDigitChars 10 (digits.take 9) 0 * 10 ^ (9 - digits.length)

def fraction (s : List Char) : Nat × List Char :=
  match s with
  | '.' :: rest =>
    let digits := rest.takeWhile Char.isDigit
    if digits = [] then (0, s) else (nanosOf digits, rest.dropWhile Char.isDigit)
  | _ => (0, s)

/-- The offset from UTC. -/
def zone : List Char → Option Int
  | ['Z'] => some 0
  | sign :: s => do
    let (hours, s) ← field 2 0 23 s
    let s ← mark ':' s
    let (minutes, s) ← field 2 0 59 s
    let offset := hours * hour + minutes * minute
    if s ≠ [] then none
    else if sign = '+' then some offset
    else if sign = '-' then some (-offset)
    else none
  | [] => none

/-- The number of the day, and what follows it. -/
def readDate (s : List Char) : Option (Int × List Char) := do
  let (year, s) ← field 4 0 9999 s
  let s ← mark '-' s
  let (month, s) ← field 2 1 12 s
  let s ← mark '-' s
  let (dayOfMonth, s) ← field 2 1 (daysIn month year).toNat s
  some (daysBeforeYear year + daysBeforeMonth month year + (dayOfMonth - 1), s)

/-- The time since midnight, and what follows it. -/
def readClock (s : List Char) : Option (Int × List Char) := do
  let (hours, s) ← field 2 0 23 s
  let s ← mark ':' s
  let (minutes, s) ← field 2 0 59 s
  let s ← mark ':' s
  let (seconds, s) ← field 2 0 59 s
  let (nanos, s) := fraction s
  some (hours * hour + minutes * minute + seconds * second + nanos, s)

/-- `time.Parse(time.RFC3339Nano, s)`, which also reads a comma before the fraction, an hour of one
digit and an offset with 24 hours or 60 minutes. -/
def parse (s : List Char) : Option Int := do
  let (days, s) ← readDate s
  let s ← mark 'T' s
  let (time, s) ← readClock s
  let offset ← zone s
  some (days * day + time - offset)

/-! ### The way back -/

theorem ofDigitChars_padded (width n : Nat) : Nat.ofDigitChars 10 (padded width n) 0 = n := by
  rw [padded, Nat.ofDigitChars_append, Nat.ofDigitChars_replicate_zero, Nat.mul_zero,
    Nat.ofDigitChars_toDigits (by decide) (by decide)]

theorem decimal_padded (width n : Nat) : decimal (padded width n) = some n := by
  have all : ∀ c ∈ padded width n, c.isDigit = true := fun c => isDigit_of_mem_padded
  have value := Text.decimalFrom_eq all 0
  rw [ofDigitChars_padded] at value
  rw [← value]
  cases digits : padded width n with
  | nil => exact absurd (List.append_eq_nil_iff.mp digits).2 Nat.toDigits_ne_nil
  | cons c rest => rfl

theorem field_padded (width low high : Nat) {n : Nat} (pos : 0 < width) (fits : n < 10 ^ width)
    (lower : low ≤ n) (upper : n ≤ high) (rest : List Char) :
    field width low high (padded width n ++ rest) = some (n, rest) := by
  have length := Text.length_padded pos fits
  have long : ¬(padded width n ++ rest).length < width := by
    rw [List.length_append]
    omega
  rw [field, if_neg long, List.take_left' length, List.drop_left' length, decimal_padded,
    Option.bind_some, if_pos ⟨lower, upper⟩]

theorem mark_cons (c : Char) (rest : List Char) : mark c (c :: rest) = some rest := by
  simp [mark]

/-- The digits of a fraction, and the zeros that are left out after them. -/
theorem trimmed_zeros (digits : List Char) : ∃ zeros,
    digits = (digits.reverse.dropWhile (· = '0')).reverse ++ List.replicate zeros '0' := by
  refine ⟨(digits.reverse.takeWhile (· = '0')).length, ?_⟩
  have all : digits.reverse.takeWhile (· = '0') =
      List.replicate (digits.reverse.takeWhile (· = '0')).length '0' := by
    refine List.eq_replicate_iff.mpr ⟨rfl, fun c member => ?_⟩
    simpa using List.mem_takeWhile_imp member
  have parts := congrArg List.reverse
    (List.takeWhile_append_dropWhile (p := (· = '0')) (l := digits.reverse))
  rw [List.reverse_append, List.reverse_reverse, all, List.reverse_replicate] at parts
  exact parts.symm

theorem fraction_text {nanos : Nat} (fits : nanos < 10 ^ 9) :
    fraction (fractionText nanos ++ ['Z']) = (nanos, ['Z']) := by
  by_cases whole : nanos = 0
  · subst whole
    rfl
  obtain ⟨zeros, split⟩ := trimmed_zeros (padded 9 nanos)
  rw [fractionText, if_neg whole]
  generalize ((padded 9 nanos).reverse.dropWhile (· = '0')).reverse = digits at split
  have length : digits.length + zeros = 9 := by
    rw [← Text.length_padded (by decide) fits, split, List.length_append, List.length_replicate]
  have all : ∀ c ∈ digits, c.isDigit = true := fun c member =>
    isDigit_of_mem_padded (split ▸ List.mem_append_left _ member)
  have value : Nat.ofDigitChars 10 digits 0 * 10 ^ zeros = nanos := by
    have value := ofDigitChars_padded 9 nanos
    rw [split, Nat.ofDigitChars_append, Nat.ofDigitChars_replicate_zero] at value
    rw [← value, Nat.mul_comm]
  have solid : digits ≠ [] := by
    rintro rfl
    simp [Nat.ofDigitChars] at value
    omega
  have front : (digits ++ ['Z']).takeWhile Char.isDigit = digits := by
    rw [List.takeWhile_append_of_pos all]
    simp
  have back : (digits ++ ['Z']).dropWhile Char.isDigit = ['Z'] := by
    rw [List.dropWhile_append_of_pos all]
    simp
  have shift : 9 - digits.length = zeros := by omega
  rw [List.cons_append, fraction]
  simp only [front, back, if_neg solid, nanosOf, List.take_of_length_le (show digits.length ≤ 9 by omega),
    shift, value]

/-- The years whose text is read back. -/
def Readable (t : Int) : Prop := 0 ≤ clockYear t ∧ clockYear t ≤ 9999

instance (t : Int) : Decidable (Readable t) :=
  inferInstanceAs (Decidable (0 ≤ clockYear t ∧ clockYear t ≤ 9999))

theorem date_bounds (date : Date) : 1 ≤ date.day ∧ date.day ≤ 31 :=
  ⟨date.day_pos, date.day_le.trans (daysIn_bounds _ _ date.month_pos date.month_le).2⟩

theorem readDate_text {t : Int} (readable : Readable t) (rest : List Char) :
    readDate (dateText t ++ rest) = some (t / day, rest) := by
  have low : 0 ≤ (clockDate t).year := readable.1
  have high : (clockDate t).year ≤ 9999 := readable.2
  have year : ((clockDate t).year.toNat : Int) = (clockDate t).year := Int.toNat_of_nonneg low
  have days := date_bounds (clockDate t)
  have dayValue : ((clockDate t).day.toNat : Int) = (clockDate t).day := by omega
  have dayBound := (clockDate t).day_le
  have months := (clockDate t).month_le
  have text : formatInt 4 (clockDate t).year = padded 4 (clockDate t).year.toNat := by
    rw [formatInt, if_neg (by omega)]
  have number : daysBeforeYear (clockDate t).year +
      daysBeforeMonth (clockDate t).month (clockDate t).year + ((clockDate t).day - 1) = t / day :=
    dayNumber_dateOf (t / day)
  rw [dateText, text, List.append_assoc, List.cons_append, List.append_assoc, List.cons_append,
    readDate, field_padded 4 0 9999 (by decide) (by omega) (Nat.zero_le _) (by omega)]
  simp only [Option.bind_eq_bind, Option.bind_some, mark_cons]
  rw [field_padded 2 1 12 (by decide) (by omega) (clockDate t).month_pos months]
  simp only [Option.bind_some, mark_cons, year]
  rw [field_padded 2 1 _ (by decide) (by omega) (by omega) (by omega)]
  simp only [Option.bind_some, dayValue, number]

theorem readClock_text (t : Int) :
    readClock (clockText t ++ ['Z']) = some (t % day, ['Z']) := by
  have hours : 0 ≤ clockHour t ∧ clockHour t < 24 := by
    unfold clockHour
    omega
  have minutes : 0 ≤ clockMinute t ∧ clockMinute t < 60 := by
    unfold clockMinute
    omega
  have seconds : 0 ≤ clockSecond t ∧ clockSecond t < 60 := by
    unfold clockSecond
    omega
  have nanos : 0 ≤ t % second ∧ t % second < 1000000000 := by
    unfold second
    omega
  rw [clockText, List.append_assoc, List.cons_append, List.append_assoc, List.cons_append,
    List.append_assoc, readClock, field_padded 2 0 23 (by decide) (by omega) (Nat.zero_le _) (by omega)]
  simp only [Option.bind_eq_bind, Option.bind_some, mark_cons]
  rw [field_padded 2 0 59 (by decide) (by omega) (Nat.zero_le _) (by omega)]
  simp only [Option.bind_some, mark_cons]
  rw [field_padded 2 0 59 (by decide) (by omega) (Nat.zero_le _) (by omega)]
  simp only [Option.bind_some, fraction_text (show (t % second).toNat < 10 ^ 9 by omega)]
  rw [Int.toNat_of_nonneg hours.1, Int.toNat_of_nonneg minutes.1, Int.toNat_of_nonneg seconds.1,
    Int.toNat_of_nonneg nanos.1]
  unfold clockHour clockMinute clockSecond second minute hour day
  congr 2
  omega

theorem parse_format {t : Int} (readable : Readable t) : parse (format t) = some t := by
  rw [parse, format, readDate_text readable]
  simp only [Option.bind_eq_bind, Option.bind_some, mark_cons, readClock_text, zone, sub_zero]
  rw [mul_comm, Int.mul_ediv_add_emod]

theorem field_sign (rest : List Char) : field 4 0 9999 ('-' :: rest) = none := by
  have unread : decimal (('-' :: rest).take 4) = none := by
    simp [decimal, Text.decimalFrom, Text.digit]
  rw [field, unread]
  simp

/-- After four digits of a longer number there is no dash. -/
theorem mark_long {digits rest : List Char} {found : Nat × List Char} (long : 4 < digits.length)
    (all : ∀ c ∈ digits, c.isDigit = true)
    (read : field 4 0 9999 (digits ++ rest) = some found) : mark '-' found.2 = none := by
  have left : found.2 = (digits ++ rest).drop 4 := by
    unfold field at read
    split at read
    next => cases read
    next =>
      obtain ⟨n, -, within⟩ := Option.bind_eq_some_iff.mp read
      split at within
      next => rw [← Option.some.inj within]
      next => cases within
  obtain ⟨c, more, split⟩ : ∃ c more, digits.drop 4 = c :: more :=
    List.exists_cons_of_ne_nil (by simpa using long)
  have isDigit := all c (List.mem_of_mem_drop (split ▸ List.mem_cons_self))
  have noDash : c ≠ '-' := by
    rintro rfl
    cases isDigit
  rw [left, List.drop_append_of_le_length long.le, split, List.cons_append, mark, if_neg noDash]

/-- A year before the first has a sign, and one of five digits has no dash after the fourth. -/
theorem parse_format_unreadable {t : Int} (unreadable : ¬Readable t) : parse (format t) = none := by
  suffices unread : readDate (dateText t ++ 'T' :: (clockText t ++ ['Z'])) = none by
    rw [parse, format, unread]
    rfl
  rw [dateText, List.append_assoc, readDate, formatInt]
  by_cases negative : (clockDate t).year < 0
  · rw [if_pos negative, List.cons_append, field_sign]
    rfl
  · have late : 9999 < (clockDate t).year.toNat := by
      have : ¬(0 ≤ (clockDate t).year ∧ (clockDate t).year ≤ 9999) := unreadable
      omega
    have long : 4 < (padded 4 (clockDate t).year.toNat).length := by
      have digits : ¬(Nat.toDigits 10 (clockDate t).year.toNat).length ≤ 4 := by
        rw [Nat.length_toDigits_le_iff (by decide) (by decide)]
        omega
      rw [padded, List.length_append]
      omega
    rw [if_neg negative]
    refine Option.bind_eq_none_iff.mpr fun found read => ?_
    have stuck := mark_long long (fun c => isDigit_of_mem_padded) read
    simp only [stuck, Option.bind_eq_bind, Option.bind_none]

/-- The characters of the text. -/
def marks : List Char := ['-', 'T', ':', '.', 'Z']

theorem format_chars (t : Int) : ∀ c ∈ format t, c.isDigit = true ∨ c ∈ marks := by
  have digits (width n : Nat) : ∀ c ∈ padded width n, c.isDigit = true ∨ c ∈ marks :=
    fun c member => .inl (isDigit_of_mem_padded member)
  have year : ∀ c ∈ formatInt 4 (clockDate t).year, c.isDigit = true ∨ c ∈ marks := by
    unfold formatInt
    split
    · exact List.forall_mem_cons.mpr ⟨.inr (by decide), digits _ _⟩
    · exact digits _ _
  have fraction : ∀ c ∈ fractionText (t % second).toNat, c.isDigit = true ∨ c ∈ marks := by
    unfold fractionText
    split
    · simp
    · refine List.forall_mem_cons.mpr ⟨.inr (by decide), fun c member =>
        digits 9 (t % second).toNat c ?_⟩
      exact List.mem_reverse.mp ((List.dropWhile_sublist _).subset (List.mem_reverse.mp member))
  have mark {c : Char} (one : c ∈ marks) : c.isDigit = true ∨ c ∈ marks := .inr one
  simp only [format, dateText, clockText, List.forall_mem_append, List.forall_mem_cons]
  exact ⟨⟨year, mark (by decide), digits _ _, mark (by decide), digits _ _⟩, mark (by decide),
    ⟨digits _ _, mark (by decide), digits _ _, mark (by decide), digits _ _, fraction⟩,
    mark (by decide), by simp⟩

theorem format_ascii (t : Int) : ∀ c ∈ format t, c.toNat < 128 := by
  intro c member
  rcases format_chars t c member with digit | mark
  · have bounds : '0' ≤ c ∧ c ≤ '9' := by simpa [Char.isDigit, Char.le_def] using digit
    have upper : c.toNat ≤ '9'.toNat := bounds.2
    exact upper.trans_lt (by decide)
  · have all : marks.all (·.toNat < 128) = true := by decide
    simpa using List.all_eq_true.mp all c mark

theorem not_mem_format {c : Char} (noDigit : c.isDigit = false) (other : c ∉ marks) (t : Int) :
    c ∉ format t := by
  intro member
  rcases format_chars t c member with digit | mark
  · rw [noDigit] at digit
    cases digit
  · exact other mark

theorem format_ne_nil (t : Int) : format t ≠ [] := by
  simp [format]

end NovaNas.Rfc3339
