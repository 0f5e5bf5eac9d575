import NovaNas.Base.Text

/-!
# Decimal text of machine integers
-/
namespace NovaNas.Text

/-- `strconv.Itoa` -/
def itoa (n : Int64) : List Char := formatInt 0 n.toInt

/-- `strconv.Atoi` -/
def atoi64 (s : List Char) : Option Int64 := (atoi s).map Int64.ofInt

theorem digit_eq {c : Char} (isDigit : c.isDigit = true) : digit c = some (c.toNat - '0'.toNat) := by
  have bounds : '0' ≤ c ∧ c ≤ '9' := by
    simpa [Char.isDigit, Char.le_def] using isDigit
  rw [digit, if_pos bounds]

theorem decimalFrom_eq {digits : List Char} (all : ∀ c ∈ digits, c.isDigit = true) (n : Nat) :
    decimalFrom n digits = some (Nat.ofDigitChars 10 digits n) := by
  induction digits generalizing n with
  | nil => rfl
  | cons c rest ih =>
    obtain ⟨first, later⟩ := List.forall_mem_cons.mp all
    rw [decimalFrom, digit_eq first, Option.bind_some, ih later, Nat.ofDigitChars_cons]

theorem decimal_toDigits (n : Nat) : decimal (Nat.toDigits 10 n) = some n := by
  have all : ∀ c ∈ Nat.toDigits 10 n, c.isDigit = true := fun c member =>
    Nat.isDigit_of_mem_toDigits (by decide) (by decide) member
  have value := decimalFrom_eq all 0
  rw [Nat.ofDigitChars_toDigits (by decide) (by decide)] at value
  rw [← value]
  cases digits : Nat.toDigits 10 n with
  | nil => exact absurd digits Nat.toDigits_ne_nil
  | cons c rest => rfl

theorem toDigits_head_isDigit {n : Nat} {c : Char} {rest : List Char}
    (digits : Nat.toDigits 10 n = c :: rest) : c.isDigit = true := by
  have member : c ∈ Nat.toDigits 10 n := digits ▸ List.mem_cons_self
  exact Nat.isDigit_of_mem_toDigits (by decide) (by decide) member

theorem atoi_formatInt {n : Int} (low : -maxInt - 1 ≤ n) (high : n ≤ maxInt) :
    atoi (formatInt 0 n) = some n := by
  have ranged : (-maxInt - 1 ≤ n && n ≤ maxInt) = true := by simp [low, high]
  have plain (m : Nat) : padded 0 m = Nat.toDigits 10 m := by simp [padded]
  rw [formatInt]
  split
  next negative =>
    have value : -(n.natAbs : Int) = n := by omega
    have parsed : atoi ('-' :: Nat.toDigits 10 n.natAbs) =
        (some (-(n.natAbs : Int))).filter fun n => -maxInt - 1 ≤ n && n ≤ maxInt := by
      simp only [atoi, decimal_toDigits]
      rfl
    rw [plain, parsed, value, Option.filter_some, if_pos ranged]
  next =>
    have value : (n.toNat : Int) = n := by omega
    have read := decimal_toDigits n.toNat
    rw [plain]
    cases digits : Nat.toDigits 10 n.toNat with
    | nil => exact absurd digits Nat.toDigits_ne_nil
    | cons c rest =>
      have isDigit := toDigits_head_isDigit digits
      have noMinus : c ≠ '-' := by
        rintro rfl
        cases isDigit
      have noPlus : c ≠ '+' := by
        rintro rfl
        cases isDigit
      rw [digits] at read
      have parsed : atoi (c :: rest) =
          (some (n.toNat : Int)).filter fun n => -maxInt - 1 ≤ n && n ≤ maxInt := by
        unfold atoi
        split
        next same => exact absurd (List.cons.inj same).1 noMinus
        next same => exact absurd (List.cons.inj same).1 noPlus
        next =>
          rw [read]
          rfl
      rw [parsed, value, Option.filter_some, if_pos ranged]

@[simp] theorem atoi64_itoa (n : Int64) : atoi64 (itoa n) = some n := by
  have low : -maxInt - 1 ≤ n.toInt := Int64.le_toInt n
  have high : n.toInt ≤ maxInt := by
    have bound := n.toInt_lt
    unfold maxInt
    omega
  rw [atoi64, itoa, atoi_formatInt low high, Option.map_some, Int64.ofInt_toInt]

end NovaNas.Text
