import Mathlib.Data.Nat.Log
import NovaNas.Base.Base64

/-!
# Numbers in big-endian bytes
-/
namespace NovaNas.BigEndian

open Base64 (Byte byte)

/-- `big.Int.SetBytes` -/
def number (bs : List Byte) : Nat := bs.foldl (fun n b => n * 256 + b.val) 0

/-- The last `len` bytes of a number. -/
def bytes : Nat → Nat → List Byte
  | 0, _ => []
  | len + 1, n => bytes len (n / 256) ++ [byte n]

/-- As few bytes as there can be, but one for zero. -/
def minimal (n : Nat) : List Byte := bytes (Nat.log 256 n + 1) n

@[simp] theorem length_bytes (len n : Nat) : (bytes len n).length = len := by
  induction len generalizing n with
  | zero => rfl
  | succ len ih => rw [bytes, List.length_append, ih, List.length_singleton]

theorem number_bytes {len n : Nat} (fits : n < 256 ^ len) : number (bytes len n) = n := by
  induction len generalizing n with
  | zero =>
    obtain rfl : n = 0 := by simpa using fits
    rfl
  | succ len ih =>
    have front : n / 256 < 256 ^ len := Nat.div_lt_of_lt_mul (by rwa [← Nat.pow_succ'])
    have last : (byte n).val = n % 256 := rfl
    have whole := ih front
    rw [number] at whole
    rw [bytes, number, List.foldl_append, whole, List.foldl_cons, List.foldl_nil, last]
    omega

theorem number_minimal (n : Nat) : number (minimal n) = n :=
  number_bytes (Nat.lt_pow_succ_log_self (by decide) n)

theorem minimal_ne_nil (n : Nat) : minimal n ≠ [] := by
  intro none_
  have length := length_bytes (Nat.log 256 n + 1) n
  rw [← minimal, none_] at length
  cases length

end NovaNas.BigEndian
