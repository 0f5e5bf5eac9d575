import NovaNas.Base.Slices

/-!
# Envelope encryption

A payload is encrypted with a fresh key, and the key is sealed by the TPM. The blob holds the
length of the sealed key in two bytes, the sealed key, the nonce and the ciphertext. The TPM and
AES-GCM are parameters.
-/
namespace NovaNas.Tpm

open Fallible (failIf bind_ok ok_bind error_bind mapError_bind mapError_mapError mapError_ok
  failIf_ok)
open Slices (Stop slice)

abbrev Bytes := List UInt8

abbrev BytesOf (n : Nat) := { b : Bytes // b.length = n }

/-- `SealUnsealer`; the number stands for what a call of `Seal` draws on besides its argument. -/
structure Sealer where
  sealBytes : Nat → Bytes → Except String Bytes
  unsealBytes : Bytes → Except String Bytes

structure Gcm where
  sealText : (key nonce plaintext : Bytes) → Bytes
  openText : (key nonce ciphertext : Bytes) → Except String Bytes

/-- What `WrapAEAD` draws at random. -/
structure Randomness where
  dek : Except String (BytesOf 32)
  tpm : Nat
  nonce : Except String (BytesOf 12)

def newCipher (key : Bytes) : Except String Unit :=
  if key.length = 16 ∨ key.length = 24 ∨ key.length = 32 then .ok ()
  else .error ("aes cipher: crypto/aes: invalid key size " ++ toString key.length)

def putUint16 (n : Nat) : Bytes := [(n / 256).toUInt8, (n % 256).toUInt8]

def uint16 (high low : UInt8) : Nat := high.toNat * 256 + low.toNat

def wrapAEAD (gcm : Gcm) (sealer : Sealer) (random : Randomness) (plaintext : Bytes) :
    Except String Bytes := do
  let dek ← random.dek.mapError ("rand DEK: " ++ ·)
  let sealedDEK ← (sealer.sealBytes random.tpm dek.val).mapError ("tpm seal DEK: " ++ ·)
  failIf (sealedDEK.length > 0xFFFF)
    ("sealed DEK overflows uint16: " ++ toString sealedDEK.length ++ " bytes")
  newCipher dek.val
  let nonce ← random.nonce.mapError ("rand nonce: " ++ ·)
  let ct := gcm.sealText dek.val nonce.val plaintext
  return putUint16 sealedDEK.length ++ (sealedDEK ++ (nonce.val ++ ct))

def unwrapAEAD (gcm : Gcm) (sealer : Sealer) : Bytes → Except String Bytes
  | high :: low :: rest => do
    let dekLen := uint16 high low
    failIf (dekLen = 0) "envelope blob: zero-length sealed DEK"
    failIf (rest.length < dekLen + 12)
      ("envelope blob truncated: have " ++ toString (rest.length + 2) ++ ", need >= " ++
        toString (2 + dekLen + 12))
    let dek ← sealer.unsealBytes (rest.take dekLen)
    newCipher dek
    (gcm.openText dek ((rest.drop dekLen).take 12) (rest.drop (dekLen + 12))).mapError
      ("aes-gcm open: " ++ ·)
  | blob => throw ("envelope blob too short: " ++ toString blob.length ++ " bytes")

/-- What is sealed can be unsealed. A sealed blob starts with a header, so it is not empty. -/
structure Sealer.Inverts (sealer : Sealer) : Prop where
  unseals : ∀ random plaintext blob, sealer.sealBytes random plaintext = .ok blob →
    sealer.unsealBytes blob = .ok plaintext
  nonempty : ∀ random plaintext blob, sealer.sealBytes random plaintext = .ok blob → blob ≠ []

/-- What is encrypted can be decrypted. -/
def Gcm.Opens (gcm : Gcm) : Prop :=
  ∀ key nonce plaintext, gcm.openText key nonce (gcm.sealText key nonce plaintext) = .ok plaintext

theorem uint16_putUint16 {n : Nat} (fits : n ≤ 0xFFFF) :
    uint16 (n / 256).toUInt8 (n % 256).toUInt8 = n := by
  simp only [uint16, Nat.toUInt8, UInt8.toNat_ofNat']
  omega

/-- What a successful wrap has put together. -/
theorem wrapAEAD_ok {gcm : Gcm} {sealer : Sealer} {random : Randomness} {plaintext blob : Bytes}
    (wrapped : wrapAEAD gcm sealer random plaintext = .ok blob) :
    ∃ (dek : BytesOf 32) (sealedDEK : Bytes) (nonce : BytesOf 12),
      sealer.sealBytes random.tpm dek.val = .ok sealedDEK ∧ sealedDEK.length ≤ 0xFFFF ∧
      blob = putUint16 sealedDEK.length ++
        (sealedDEK ++ (nonce.val ++ gcm.sealText dek.val nonce.val plaintext)) := by
  rw [wrapAEAD] at wrapped
  obtain ⟨dek, -, wrapped⟩ := bind_ok wrapped
  obtain ⟨sealedDEK, sealed, wrapped⟩ := bind_ok wrapped
  obtain ⟨_, fits, wrapped⟩ := bind_ok wrapped
  obtain ⟨_, -, wrapped⟩ := bind_ok wrapped
  obtain ⟨nonce, -, wrapped⟩ := bind_ok wrapped
  cases wrapped
  exact ⟨dek, sealedDEK, nonce, mapError_ok sealed,
    Nat.not_lt.mp (failIf_ok fits), rfl⟩

theorem uint16_le (high low : UInt8) : uint16 high low ≤ 0xFFFF := by
  have := high.toNat_lt
  have := low.toNat_lt
  rw [uint16]
  omega

theorem putUint16_uint16 (high low : UInt8) : putUint16 (uint16 high low) = [high, low] := by
  have bound := low.toNat_lt
  have front : (high.toNat * 256 + low.toNat) / 256 = high.toNat := by omega
  have back : (high.toNat * 256 + low.toNat) % 256 = low.toNat := by omega
  simp [putUint16, uint16, front, back, Nat.toUInt8]

/-- The parts of a blob whose length field is right. -/
theorem unwrapAEAD_parts (gcm : Gcm) (sealer : Sealer) {sealedDEK nonce : Bytes}
    (nonempty : sealedDEK ≠ []) (fits : sealedDEK.length ≤ 0xFFFF) (twelve : nonce.length = 12)
    (ct : Bytes) :
    unwrapAEAD gcm sealer (putUint16 sealedDEK.length ++ (sealedDEK ++ (nonce ++ ct))) = (do
      let dek ← sealer.unsealBytes sealedDEK
      newCipher dek
      (gcm.openText dek nonce ct).mapError ("aes-gcm open: " ++ ·)) := by
  have positive : ¬sealedDEK.length = 0 := by simpa using nonempty
  have long : ¬(sealedDEK ++ (nonce ++ ct)).length < sealedDEK.length + 12 := by
    simp [twelve]
  have middle : (nonce ++ ct).take 12 = nonce := List.take_left' twelve
  have rest : (sealedDEK ++ (nonce ++ ct)).drop (sealedDEK.length + 12) = ct := by
    rw [← List.drop_drop, List.drop_left]
    exact List.drop_left' twelve
  rw [putUint16, List.cons_append, List.cons_append, List.nil_append, unwrapAEAD]
  simp only [uint16_putUint16 fits, failIf, if_neg positive, if_neg long, List.take_left,
    List.drop_left, middle, rest, ok_bind]

/-- A blob is opened just where it is a length field, a sealed key that the sealer opens, a nonce
and a ciphertext that authenticates under the key. -/
theorem unwrapAEAD_ok_iff {gcm : Gcm} {sealer : Sealer} {blob plaintext : Bytes} :
    unwrapAEAD gcm sealer blob = .ok plaintext ↔ ∃ sealedDEK dek nonce ct, sealedDEK ≠ [] ∧
      sealedDEK.length ≤ 0xFFFF ∧ nonce.length = 12 ∧
      blob = putUint16 sealedDEK.length ++ (sealedDEK ++ (nonce ++ ct)) ∧
      sealer.unsealBytes sealedDEK = .ok dek ∧ newCipher dek = .ok () ∧
      gcm.openText dek nonce ct = .ok plaintext := by
  constructor
  · intro opened
    match blob, opened with
    | high :: low :: rest, opened =>
      rw [unwrapAEAD] at opened
      obtain ⟨_, positive, opened⟩ := bind_ok opened
      obtain ⟨_, long, opened⟩ := bind_ok opened
      obtain ⟨dek, unsealed, opened⟩ := bind_ok opened
      obtain ⟨_, cipher, opened⟩ := bind_ok opened
      have enough := failIf_ok long
      have length : (rest.take (uint16 high low)).length = uint16 high low := by
        rw [List.length_take]
        omega
      have parts : rest.take (uint16 high low) ++ ((rest.drop (uint16 high low)).take 12 ++
          rest.drop (uint16 high low + 12)) = rest := by
        rw [← List.drop_drop, List.take_append_drop, List.take_append_drop]
      refine ⟨rest.take (uint16 high low), dek, (rest.drop (uint16 high low)).take 12,
        rest.drop (uint16 high low + 12), ?_, ?_, ?_, ?_, unsealed, cipher,
        mapError_ok opened⟩
      · intro none_
        rw [none_] at length
        exact failIf_ok positive length.symm
      · rw [length]
        exact uint16_le high low
      · simp
        omega
      · rw [length, putUint16_uint16, parts]
        rfl
  · rintro ⟨sealedDEK, dek, nonce, ct, nonempty, fits, twelve, rfl, unsealed, cipher, opened⟩
    rw [unwrapAEAD_parts gcm sealer nonempty fits twelve]
    simp only [unsealed, cipher, opened, ok_bind]
    rfl

/-- Unwrapping gives back what was wrapped. -/
theorem unwrapAEAD_wrapAEAD {gcm : Gcm} {sealer : Sealer} (inverts : sealer.Inverts)
    (opens : gcm.Opens) {random : Randomness} {plaintext blob : Bytes}
    (wrapped : wrapAEAD gcm sealer random plaintext = .ok blob) :
    unwrapAEAD gcm sealer blob = .ok plaintext := by
  obtain ⟨dek, sealedDEK, nonce, sealed, fits, rfl⟩ := wrapAEAD_ok wrapped
  exact unwrapAEAD_ok_iff.mpr ⟨sealedDEK, dek.val, nonce.val, _, inverts.nonempty _ _ _ sealed, fits,
    nonce.property, rfl, inverts.unseals _ _ _ sealed, if_pos (.inr (.inr dek.property)),
    opens dek.val nonce.val plaintext⟩

/-! ### The slices of the code -/

/-- `binary.BigEndian.Uint16` -/
def readUint16 {ε : Type} : Bytes → Except (Stop ε) Nat
  | high :: low :: _ => .ok (uint16 high low)
  | _ => .error .panic

theorem readUint16_putUint16 {ε : Type} {n : Nat} (fits : n ≤ 0xFFFF) :
    (readUint16 (putUint16 n) : Except (Stop ε) Nat) = .ok n :=
  congrArg Except.ok (uint16_putUint16 fits)

/-- Two bytes are a number, and no others are it. -/
theorem readUint16_pair {ε : Type} {b : Bytes} (two : b.length = 2) :
    ∃ n ≤ 0xFFFF, b = putUint16 n ∧ (readUint16 b : Except (Stop ε) Nat) = .ok n := by
  obtain ⟨high, low, rfl⟩ := List.length_eq_two.mp two
  exact ⟨uint16 high low, uint16_le high low, (putUint16_uint16 high low).symm, rfl⟩

/-- `UnwrapAEAD` with the slices it takes of the blob. -/
def unwrapAEADSlices (gcm : Gcm) (sealer : Sealer) (blob : Bytes) :
    Except (Stop String) Bytes := do
  failIf (blob.length < 2)
    (.error ("envelope blob too short: " ++ toString blob.length ++ " bytes"))
  let dekLen ← readUint16 (← slice blob 0 2)
  failIf (dekLen = 0) (.error "envelope blob: zero-length sealed DEK")
  failIf (blob.length < 2 + dekLen + 12)
    (.error ("envelope blob truncated: have " ++ toString blob.length ++ ", need >= " ++
      toString (2 + dekLen + 12)))
  let sealedDEK ← slice blob 2 (2 + dekLen)
  let dek ← (sealer.unsealBytes sealedDEK).mapError .error
  (newCipher dek).mapError .error
  let nonce ← slice blob (2 + dekLen) (2 + dekLen + 12)
  let ct ← slice blob (2 + dekLen + 12) blob.length
  -- `gcm.Open` takes a nonce of no other length.
  failIf (nonce.length ≠ 12) .panic
  (gcm.openText dek nonce ct).mapError fun err => .error ("aes-gcm open: " ++ err)

/-- No slice leaves the blob. -/
theorem unwrapAEADSlices_eq (gcm : Gcm) (sealer : Sealer) (blob : Bytes) :
    unwrapAEADSlices gcm sealer blob = (unwrapAEAD gcm sealer blob).mapError .error := by
  match blob with
  | [] => rfl
  | [_] => rfl
  | high :: low :: rest =>
    have header : (slice (high :: low :: rest) 0 2 : Except (Stop String) Bytes) =
        .ok [high, low] := Slices.slice_middle [] [high, low] rest rfl rfl
    have length : (readUint16 [high, low] : Except (Stop String) Nat) = .ok (uint16 high low) := rfl
    have long : ¬(high :: low :: rest).length < 2 := by simp
    have total : (high :: low :: rest).length = rest.length + 2 := rfl
    simp only [unwrapAEADSlices, unwrapAEAD, failIf, if_neg long, header, length, ok_bind]
    generalize uint16 high low = n
    by_cases zero : n = 0
    · simp only [if_pos zero, error_bind]
      rfl
    by_cases short : rest.length < n + 12
    · simp only [if_neg zero, if_pos short, ok_bind, error_bind, total,
        if_pos (show rest.length + 2 < 2 + n + 12 by omega)]
      rfl
    · -- The length was checked, so each slice is the part that the lists give.
      have key : (slice (high :: low :: rest) 2 (2 + n) : Except (Stop String) Bytes) =
          .ok (rest.take n) := by
        rw [Slices.slice_ok (by omega) (by omega), Nat.add_comm 2]
        rfl
      have nonce : (slice (high :: low :: rest) (2 + n) (2 + n + 12) :
          Except (Stop String) Bytes) = .ok ((rest.drop n).take 12) := by
        rw [Slices.slice_ok (by omega) (by omega), List.drop_take, Nat.add_comm 2,
          Nat.add_sub_cancel_left]
        rfl
      have ct : (slice (high :: low :: rest) (2 + n + 12) (rest.length + 2) :
          Except (Stop String) Bytes) = .ok (rest.drop (n + 12)) := by
        rw [Slices.slice_ok (by omega) (by omega), ← total, List.take_length, Nat.add_comm 2,
          Nat.add_right_comm]
        rfl
      have twelve : ¬((rest.drop n).take 12).length ≠ 12 := by
        simp
        omega
      simp only [if_neg zero, if_neg short, total,
        if_neg (show ¬rest.length + 2 < 2 + n + 12 by omega), key, nonce, ct, if_neg twelve,
        ok_bind,
        mapError_bind, mapError_mapError]
      rfl

/-- With a sealer that opens what it sealed, wrapping loses nothing. With any sealer and on any
bytes, unwrapping stays inside of the blob, and it gives a payload only for a length field, a sealed
key that the sealer opens, a nonce and a ciphertext that authenticates under that key. -/
theorem envelope_lossless_total :
    (∀ (gcm : Gcm) (sealer : Sealer), sealer.Inverts → gcm.Opens →
      ∀ random payload blob, wrapAEAD gcm sealer random payload = .ok blob →
        unwrapAEADSlices gcm sealer blob = .ok payload) ∧
    ∀ (gcm : Gcm) (sealer : Sealer) (blob : Bytes),
      unwrapAEADSlices gcm sealer blob ≠ .error .panic ∧
      ∀ payload, unwrapAEADSlices gcm sealer blob = .ok payload →
        ∃ sealedDEK dek nonce ct, sealedDEK ≠ [] ∧ sealedDEK.length ≤ 0xFFFF ∧
          nonce.length = 12 ∧ blob = putUint16 sealedDEK.length ++ (sealedDEK ++ (nonce ++ ct)) ∧
          sealer.unsealBytes sealedDEK = .ok dek ∧ newCipher dek = .ok () ∧
          gcm.openText dek nonce ct = .ok payload := by
  constructor
  · intro gcm sealer inverts opens random payload blob wrapped
    rw [unwrapAEADSlices_eq, unwrapAEAD_wrapAEAD inverts opens wrapped]
    rfl
  · intro gcm sealer blob
    rw [unwrapAEADSlices_eq]
    constructor
    · cases unwrapAEAD gcm sealer blob with
      | ok _ => rintro ⟨⟩
      | error _ => rintro ⟨⟩
    · intro payload opened
      exact unwrapAEAD_ok_iff.mp (mapError_ok opened)

/-- A byte in front stands for the seal, and one for the tag. -/
def headed : Sealer := ⟨fun _ key => .ok (1 :: key), fun blob => .ok blob.tail⟩

def tagged : Gcm := ⟨fun _ _ text => 0 :: text, fun _ _ ct => .ok ct.tail⟩

def sevens : Randomness where
  dek := .ok ⟨List.replicate 32 7, rfl⟩
  tpm := 0
  nonce := .ok ⟨List.replicate 12 7, rfl⟩

theorem headed_lossless : headed.Inverts ∧ tagged.Opens ∧ ∃ blob,
    wrapAEAD tagged headed sevens [1, 2, 3] = .ok blob ∧
      unwrapAEADSlices tagged headed blob = .ok [1, 2, 3] := by
  have inverts : headed.Inverts := by
    constructor <;> rintro _ _ _ ⟨⟩
    · rfl
    · exact List.cons_ne_nil _ _
  have opens : tagged.Opens := fun _ _ _ => rfl
  exact ⟨inverts, opens, _, rfl,
    envelope_lossless_total.1 tagged headed inverts opens sevens [1, 2, 3] _ rfl⟩

end NovaNas.Tpm
