import NovaNas.Base.BigEndian
import NovaNas.Base.Entries

/-!
# Keys of the token issuer

A key of the issuer's document is an RSA key, with modulus and exponent as numbers in bytes, or a
point of a curve. The coordinates of the point are put together without the byte that marks an
uncompressed point, so that no elliptic key is ever accepted.
-/
namespace NovaNas.Auth

open Entries (get get_put)
open Base64 (Byte)
open BigEndian (number bytes minimal)

abbrev Name := List Char

inductive Curve where
  | p256
  | p384
  | p521
  deriving DecidableEq, Repr

namespace Curve

def name : Curve → Name
  | p256 => "P-256".toList
  | p384 => "P-384".toList
  | p521 => "P-521".toList

def prime : Curve → Nat
  | p256 => 2 ^ 256 - 2 ^ 224 + 2 ^ 192 + 2 ^ 96 - 1
  | p384 => 2 ^ 384 - 2 ^ 128 - 2 ^ 96 + 2 ^ 32 - 1
  | p521 => 2 ^ 521 - 1

def b : Curve → Nat
  | p256 => 0x5ac635d8aa3a93e7b3ebbd55769886bc651d06b0cc53b0f63bce3c3e27d2604b
  | p384 => 0xb3312fa7e23ee7e4988e056be3f82d19181d9c6efe8141120314088f5013875ac656398d8a2ed19d2a85c8edd3ec2aef
  | p521 => 0x51953eb9618e1c9a1f929a21a0b68540eea2da725b99b315f3b8b489918ef109e156193951ec7e937b1652c0bd3bb1bf073573df883d2c34f1ef451fd46b503f00

/-- The bytes of a coordinate. -/
def size : Curve → Nat
  | p256 => 32
  | p384 => 48
  | p521 => 66

/-- `y² = x³ - 3x + b` over the field of the curve. -/
def contains (c : Curve) (x y : Nat) : Bool :=
  x < c.prime && y < c.prime &&
    y * y % c.prime = (x * x * x + (c.prime - 3) * x + c.b) % c.prime

end Curve

inductive PublicKey where
  | rsa (n : Nat) (e : Int64)
  | ecdsa (curve : Curve) (x y : Nat)
  deriving DecidableEq, Repr

structure JWK where
  kty : Name
  kid : Name
  n : Name := []
  e : Name := []
  crv : Name := []
  x : Name := []
  y : Name := []
  deriving DecidableEq, Repr

inductive Error where
  | missing
  | base64
  | zeroExponent
  | curve (crv : Name)
  | point
  | kty (kty : Name)
  | noUsableKeys
  deriving DecidableEq, Repr

def orError {α : Type} (err : Error) : Option α → Except Error α
  | some a => .ok a
  | none => .error err

def decodeString (s : Name) : Except Error (List Byte) := orError .base64 (Base64.decode s)

/-- `e<<8 | int(b)`, on the bits of a 64-bit integer. -/
def shiftIn (e : Nat) (b : Byte) : Nat := (e <<< 8) % 2 ^ 64 ||| b.val

def exponent (bs : List Byte) : Int64 := Int64.ofNat (bs.foldl shiftIn 0)

def curveNamed (crv : Name) : Option Curve := [Curve.p256, .p384, .p521].find? (·.name = crv)

/-- `ecdsa.ParseUncompressedPublicKey` -/
def parseUncompressedPublicKey (curve : Curve) : List Byte → Option PublicKey
  | [] => none
  | mark :: point =>
    if mark.val = 4 ∧ point.length = 2 * curve.size ∧
        curve.contains (number (point.take curve.size)) (number (point.drop curve.size)) then
      some (.ecdsa curve (number (point.take curve.size)) (number (point.drop curve.size)))
    else none

def parseRSA (k : JWK) : Except Error PublicKey := do
  if k.n = [] ∨ k.e = [] then .error .missing
  else do
    let nB ← decodeString k.n
    let eB ← decodeString k.e
    if exponent eB = 0 then .error .zeroExponent else .ok (.rsa (number nB) (exponent eB))

def parseEC (k : JWK) : Except Error PublicKey := do
  let curve ← orError (.curve k.crv) (curveNamed k.crv)
  let xB ← decodeString k.x
  let yB ← decodeString k.y
  orError .point (parseUncompressedPublicKey curve (xB ++ yB))

def parseJWK (k : JWK) : Except Error PublicKey :=
  if k.kty = "RSA".toList then parseRSA k
  else if k.kty = "EC".toList then parseEC k
  else .error (.kty k.kty)

/-- A key that cannot be read, or has no id, is passed over. -/
def keep (out : List (Name × PublicKey)) (k : JWK) : List (Name × PublicKey) :=
  match parseJWK k with
  | .error _ => out
  | .ok pub => if k.kid = [] then out else Entries.put k.kid pub out

/-- The keys of a document that was fetched and decoded. -/
def fetchJWKS (doc : List JWK) : Except Error (List (Name × PublicKey)) :=
  if doc.foldl keep [] = [] then .error .noUsableKeys else .ok (doc.foldl keep [])

/-! ### Keys as documents give them -/

/-- A key that can be given: a point of its curve, or an exponent below `2 ^ 31`. -/
def PublicKey.Valid : PublicKey → Prop
  | .rsa _ e => 0 < e ∧ e < 2 ^ 31
  | .ecdsa curve x y => curve.contains x y = true

def PublicKey.jwk (kid : Name) : PublicKey → JWK
  | .rsa n e =>
    { kty := "RSA".toList
      kid
      n := Base64.encode (minimal n)
      e := Base64.encode (minimal e.toInt.toNat) }
  | .ecdsa curve x y =>
    { kty := "EC".toList
      kid
      crv := curve.name
      x := Base64.encode (bytes curve.size x)
      y := Base64.encode (bytes curve.size y) }

theorem decodeString_encode (bs : List Byte) : decodeString (Base64.encode bs) = .ok bs := by
  rw [decodeString, Base64.decode_encode, orError]

theorem shiftIn_eq {e : Nat} (b : Byte) (small : e * 256 + b.val < 2 ^ 64) :
    shiftIn e b = e * 256 + b.val := by
  have wide : e <<< 8 < 2 ^ 64 := by
    rw [Nat.shiftLeft_eq]
    exact (Nat.le_add_right _ b.val).trans_lt small
  rw [shiftIn, Nat.mod_eq_of_lt wide, ← Nat.shiftLeft_add_eq_or_of_lt b.isLt, Nat.shiftLeft_eq]

theorem le_foldl (bs : List Byte) (e : Nat) : e ≤ bs.foldl (fun n b => n * 256 + b.val) e := by
  induction bs generalizing e with
  | nil => exact le_rfl
  | cons b bs ih => exact (by omega : e ≤ e * 256 + b.val).trans (ih _)

/-- Without an overflow the shifts make the number. -/
theorem foldl_shiftIn {bs : List Byte} {e : Nat}
    (small : bs.foldl (fun n b => n * 256 + b.val) e < 2 ^ 64) :
    bs.foldl shiftIn e = bs.foldl (fun n b => n * 256 + b.val) e := by
  induction bs generalizing e with
  | nil => rfl
  | cons b bs ih =>
    rw [List.foldl_cons] at small ⊢
    rw [shiftIn_eq b ((le_foldl bs _).trans_lt small), ih small, List.foldl_cons]

theorem exponent_minimal {e : Int64} (positive : 0 < e) :
    exponent (minimal e.toInt.toNat) = e := by
  have positive : 0 < e.toInt := Int64.lt_iff_toInt_lt.mp positive
  have value : ((e.toInt.toNat : Nat) : Int) = e.toInt := by omega
  have small : number (minimal e.toInt.toNat) < 2 ^ 64 := by
    rw [BigEndian.number_minimal]
    have bound := e.toInt_lt
    omega
  rw [exponent, foldl_shiftIn small]
  change Int64.ofNat (number (minimal e.toInt.toNat)) = e
  rw [BigEndian.number_minimal, ← Int64.ofInt_eq_ofNat, value, Int64.ofInt_toInt]

theorem parseJWK_rsa {n : Nat} {e : Int64} (positive : 0 < e) (kid : Name) :
    parseJWK ((PublicKey.rsa n e).jwk kid) = .ok (.rsa n e) := by
  have given (m : Nat) : Base64.encode (minimal m) ≠ [] :=
    Base64.encode_ne_nil (BigEndian.minimal_ne_nil m)
  have used : e ≠ 0 := by
    rintro rfl
    exact absurd positive (by decide)
  change parseRSA _ = _
  simp only [parseRSA, PublicKey.jwk, given, or_self, if_false, decodeString_encode]
  change (if exponent _ = 0 then _ else Except.ok (PublicKey.rsa (number _) (exponent _))) = _
  rw [exponent_minimal positive, if_neg used, BigEndian.number_minimal]

/-- The mark of an uncompressed point is missing, so that the length is wrong. -/
theorem parseUncompressedPublicKey_bare (curve : Curve) {point : List Byte}
    (length : point.length = 2 * curve.size) : parseUncompressedPublicKey curve point = none := by
  cases point with
  | nil => rfl
  | cons mark point =>
    refine if_neg fun whole => ?_
    have shorter := whole.2.1
    rw [List.length_cons] at length
    omega

theorem parseJWK_ecdsa (curve : Curve) (x y : Nat) (kid : Name) :
    parseJWK ((PublicKey.ecdsa curve x y).jwk kid) = .error .point := by
  have named : curveNamed curve.name = some curve := by cases curve <;> decide
  have length : (bytes curve.size x ++ bytes curve.size y).length = 2 * curve.size := by
    rw [List.length_append, BigEndian.length_bytes, BigEndian.length_bytes]
    omega
  change parseEC _ = _
  simp only [parseEC, PublicKey.jwk, named, decodeString_encode]
  exact congrArg (orError Error.point) (parseUncompressedPublicKey_bare curve length)

/-! ### The document -/

theorem get_keep_other {kid : Name} {doc : List JWK} (other : ∀ k ∈ doc, k.kid ≠ kid)
    (out : List (Name × PublicKey)) :
    get kid (doc.foldl keep out) = get kid out := by
  induction doc generalizing out with
  | nil => rfl
  | cons k doc ih =>
    obtain ⟨own, other⟩ := List.forall_mem_cons.mp other
    rw [List.foldl_cons, ih other, keep]
    split
    · rfl
    · split
      · rfl
      · rw [get_put, if_neg own.symm]

/-- A key that is read is kept under its id, unless a later one has the same. -/
theorem fetchJWKS_keeps {key : PublicKey} {k : JWK} (read : parseJWK k = .ok key)
    (named : k.kid ≠ []) (before : List JWK) {after : List JWK}
    (last : ∀ k' ∈ after, k'.kid ≠ k.kid) :
    ∃ keys, fetchJWKS (before ++ k :: after) = .ok keys ∧ get k.kid keys = some key := by
  have found : get k.kid ((before ++ k :: after).foldl keep []) = some key := by
    rw [List.foldl_append, List.foldl_cons, get_keep_other last, keep, read]
    change get k.kid (if k.kid = [] then _ else _) = _
    rw [if_neg named, get_put, if_pos rfl]
  refine ⟨_, if_neg fun none_ => ?_, found⟩
  rw [none_] at found
  cases found

/-- A key is accepted as it is given, and kept under its id, exactly if it is an RSA key. -/
theorem key_accepted_iff {key : PublicKey} (valid : key.Valid) {kid : Name} (named : kid ≠ []) :
    (parseJWK (key.jwk kid) = .ok key ∧ ∀ before after, (∀ k ∈ after, k.kid ≠ kid) →
      ∃ keys, fetchJWKS (before ++ key.jwk kid :: after) = .ok keys ∧
        get kid keys = some key) ↔ ∃ n e, key = .rsa n e := by
  cases key with
  | rsa n e =>
    have read := parseJWK_rsa (n := n) valid.1 kid
    exact iff_of_true ⟨read, fun before after last => fetchJWKS_keeps read named before last⟩
      ⟨n, e, rfl⟩
  | ecdsa curve x y =>
    refine iff_of_false (fun accepted => ?_) (by simp)
    rw [parseJWK_ecdsa] at accepted
    cases accepted.1

theorem rsa_key_accepted : parseJWK ((PublicKey.rsa 3233 65537).jwk "k1".toList) =
    .ok (.rsa 3233 65537) := by
  have valid : (PublicKey.rsa 3233 65537).Valid := ⟨by decide, by decide⟩
  have named : "k1".toList ≠ [] := by decide
  exact ((key_accepted_iff valid named).mpr ⟨_, _, rfl⟩).1

/-- The generator of a curve. -/
def generator : PublicKey :=
  .ecdsa .p256 0x6b17d1f2e12c4247f8bce6e563a440f277037d812deb33a0f4a13945d898c296
    0x4fe342e2fe1a7f9b8ee7eb4a7c0f9e162bce33576b315ececbb6406837bf51f5

theorem generator_refused : generator.Valid ∧
    parseJWK (generator.jwk "k1".toList) = .error .point ∧
    fetchJWKS [generator.jwk "k1".toList] = .error .noUsableKeys := by
  have refused : parseJWK (generator.jwk "k1".toList) = .error .point := parseJWK_ecdsa _ _ _ _
  refine ⟨?_, refused, ?_⟩
  · change Curve.contains _ _ _ = true
    decide +kernel
  · have none_ : [generator.jwk "k1".toList].foldl keep [] = [] := by
      rw [List.foldl_cons, List.foldl_nil, keep, refused]
    rw [fetchJWKS, if_pos none_]

end NovaNas.Auth
