import NovaNas.Base.Text

/-!
# Base64 without padding

The alphabet for URLs, as the standard library of Go writes and reads it. Three bytes are four
characters; one or two bytes at the end are two or three.
-/
namespace NovaNas.Base64

abbrev Byte := Fin 256

def alphabet : List Char :=
  "ABCDEFGHIJKLMNOPQRSTUVWXYZabcdefghijklmnopqrstuvwxyz0123456789-_".toList

def symbol (n : Nat) : Char := alphabet.getD n 'A'

def value (c : Char) : Option Nat := alphabet.idxOf? c

def sextets : List Byte → List Nat
  | [] => []
  | [a] => [a.val / 4, a.val % 4 * 16]
  | [a, b] => [a.val / 4, a.val % 4 * 16 + b.val / 16, b.val % 16 * 4]
  | a :: b :: c :: rest =>
    [a.val / 4, a.val % 4 * 16 + b.val / 16, b.val % 16 * 4 + c.val / 64, c.val % 64] ++
      sextets rest

def byte (n : Nat) : Byte := Fin.ofNat 256 n

/-- Bits that are left over at the end are not looked at. -/
def bytes : List Nat → Option (List Byte)
  | [] => some []
  | [_] => none
  | [w, x] => some [byte (w * 4 + x / 16)]
  | [w, x, y] => some [byte (w * 4 + x / 16), byte (x % 16 * 16 + y / 4)]
  | w :: x :: y :: z :: rest => (bytes rest).map fun later =>
    [byte (w * 4 + x / 16), byte (x % 16 * 16 + y / 4), byte (y % 4 * 64 + z)] ++ later

/-- `base64.RawURLEncoding.EncodeToString` -/
def encode (bs : List Byte) : List Char := (sextets bs).map symbol

/-- `base64.RawURLEncoding.DecodeString`, which passes over line breaks. -/
def decode (s : List Char) : Option (List Byte) :=
  ((s.filter fun c => c ≠ '\r' ∧ c ≠ '\n').mapM value).bind bytes

theorem sextets_lt (bs : List Byte) : ∀ n ∈ sextets bs, n < 64 := by
  induction bs using sextets.induct with
  | case1 => simp [sextets]
  | case2 a =>
    simp only [sextets, List.forall_mem_cons, List.not_mem_nil, false_implies, implies_true,
      and_true]
    omega
  | case3 a b =>
    simp only [sextets, List.forall_mem_cons, List.not_mem_nil, false_implies, implies_true,
      and_true]
    omega
  | case4 a b c rest ih =>
    simp only [sextets, List.forall_mem_append, List.forall_mem_cons, List.not_mem_nil,
      false_implies, implies_true, and_true]
    exact ⟨by omega, ih⟩

theorem byte_eq (b : Byte) {n : Nat} (same : n = b.val) : byte n = b := by
  subst same
  exact Fin.ofNat_val_eq_self b

theorem bytes_sextets (bs : List Byte) : bytes (sextets bs) = some bs := by
  induction bs using sextets.induct with
  | case1 => rfl
  | case2 a =>
    rw [sextets, bytes, byte_eq a (by omega)]
  | case3 a b =>
    rw [sextets, bytes, byte_eq a (by omega), byte_eq b (by omega)]
  | case4 a b c rest ih =>
    rw [sextets]
    simp only [List.cons_append, List.nil_append, bytes, ih, Option.map_some]
    rw [byte_eq a (by omega), byte_eq b (by omega), byte_eq c (by omega)]

/-- A character of the alphabet is no line break and stands for its place. -/
theorem value_symbol {n : Nat} (lt : n < 64) :
    value (symbol n) = some n ∧ symbol n ≠ '\r' ∧ symbol n ≠ '\n' := by
  have all : ∀ n < 64, value (symbol n) = some n ∧ symbol n ≠ '\r' ∧ symbol n ≠ '\n' := by
    decide +kernel
  exact all n lt

theorem decode_encode (bs : List Byte) : decode (encode bs) = some bs := by
  have small := sextets_lt bs
  have kept : (encode bs).filter (fun c => c ≠ '\r' ∧ c ≠ '\n') = encode bs := by
    refine List.filter_eq_self.mpr fun c member => ?_
    obtain ⟨n, within, rfl⟩ := List.mem_map.mp member
    simpa using (value_symbol (small n within)).2
  have values : (encode bs).mapM value = some (sextets bs) := by
    rw [encode]
    revert small
    induction sextets bs with
    | nil => exact fun _ => rfl
    | cons n rest ih =>
      intro small
      obtain ⟨first, later⟩ := List.forall_mem_cons.mp small
      simp [List.mapM_cons, (value_symbol first).1, ih later]
  rw [decode, kept, values, Option.bind_some, bytes_sextets]

theorem encode_ne_nil {bs : List Byte} (some : bs ≠ []) : encode bs ≠ [] := by
  cases bs with
  | nil => exact absurd rfl some
  | cons a rest =>
    rcases rest with _ | ⟨b, _ | ⟨c, rest⟩⟩ <;> simp [encode, sextets]

/-! ### Texts -/

/-- The bytes of a text in ASCII. -/
def ofText (s : List Char) : List Byte := s.map fun c => byte c.toNat

def toText (bs : List Byte) : List Char := bs.map fun b => Char.ofNat b.val

theorem toText_ofText {s : List Char} (ascii : ∀ c ∈ s, c.toNat < 128) : toText (ofText s) = s := by
  rw [toText, ofText, List.map_map]
  refine (List.map_congr_left fun c member => ?_).trans (List.map_id s)
  have small := ascii c member
  have code : (byte c.toNat).val = c.toNat := Nat.mod_eq_of_lt (by omega)
  rw [Function.comp_apply, code, Char.ofNat_toNat, id]

def encodeText (s : List Char) : List Char := encode (ofText s)

def decodeText (s : List Char) : Option (List Char) := (decode s).map toText

theorem decodeText_encodeText {s : List Char} (ascii : ∀ c ∈ s, c.toNat < 128) :
    decodeText (encodeText s) = some s := by
  rw [decodeText, encodeText, decode_encode, Option.map_some, toText_ofText ascii]

theorem encodeText_ne_nil {s : List Char} (some : s ≠ []) : encodeText s ≠ [] :=
  encode_ne_nil (by simpa [ofText] using some)

end NovaNas.Base64
