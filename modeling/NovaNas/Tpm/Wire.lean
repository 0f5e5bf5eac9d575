import NovaNas.Tpm.Envelope

/-!
# The format of sealed blobs

A sealed blob is a magic word, a version, the list of PCRs and the two parts of a TPM object, each
of the three behind its length in two bytes. The reader takes the fields from the front and checks
every length before it slices. It accepts exactly the bytes that the writer writes.
-/
namespace NovaNas.Tpm

open Fallible (failIf each bind_ok bind_ok_iff failIf_ok_iff each_ok_iff)
open Slices (Stop slice Safe safe_ok safe_bind safe_failIf)

def wireMagic : Bytes := [0x54, 0x50, 0x4d, 0x53]

def wireVersion : Nat := 1

def maxPCRs : Nat := 24

def maxBlobField : Nat := 4096

/-- What `ErrInvalidBlob` is wrapped with. -/
inductive InvalidBlob where
  | tooManyPCRs (count : Nat)
  | pubTooLarge (length : Nat)
  | privTooLarge (length : Nat)
  | pcrOutOfRange (pcr : UInt8)
  | shortHeader
  | badMagic (magic : Bytes)
  | shortVersion
  | unsupportedVersion (version : Nat)
  | shortPCRCount
  | pcrCountTooLarge (count : Nat)
  | shortPCRList
  | shortPubLen
  | pubLenTooLarge (length : Nat)
  | shortPub
  | shortPrivLen
  | privLenTooLarge (length : Nat)
  | shortPriv
  | trailing (count : Int)
  deriving DecidableEq, Repr

/-! ### Writing -/

def checkPCR {ε : Type} (err : InvalidBlob → ε) (pcr : UInt8) : Except ε Unit :=
  failIf (pcr.toNat ≥ maxPCRs) (err (.pcrOutOfRange pcr))

/-- The fields in their order. -/
def wire (pcrs pub priv : Bytes) : Bytes :=
  wireMagic ++ (putUint16 wireVersion ++ (putUint16 pcrs.length ++ (pcrs ++
    (putUint16 pub.length ++ (pub ++ (putUint16 priv.length ++ priv))))))

def marshalSealedBlob (pcrs pub priv : Bytes) : Except InvalidBlob Bytes := do
  failIf (pcrs.length > maxPCRs) (.tooManyPCRs pcrs.length)
  failIf (pub.length > maxBlobField) (.pubTooLarge pub.length)
  failIf (priv.length > maxBlobField) (.privTooLarge priv.length)
  each (checkPCR id) pcrs
  return wire pcrs pub priv

/-! ### Reading -/

structure WireReader where
  b : Bytes
  pos : Nat

namespace WireReader

variable (r : WireReader)

/-- The error is `errShort`. -/
def take (n : Int) : Except (Stop Unit) (Bytes × WireReader) :=
  if n < 0 ∨ r.pos + n > r.b.length then .error (.error ())
  else do
    let out ← slice r.b r.pos (r.pos + n.toNat)
    return (out, { r with pos := r.pos + n.toNat })

def takeU16 : Except (Stop Unit) (Nat × WireReader) := do
  let (b, r) ← r.take 2
  let n ← readUint16 b
  return (n, r)

def remaining : Int := r.b.length - r.pos

end WireReader

/-- `errShort` becomes the error of the field. -/
def orInvalid {α : Type} (err : InvalidBlob) (read : Except (Stop Unit) α) :
    Except (Stop InvalidBlob) α := read.mapError (Stop.as err)

/-- A field behind its length. -/
def takeField (r : WireReader) (shortLen short : InvalidBlob) (tooLarge : Nat → InvalidBlob) :
    Except (Stop InvalidBlob) (Bytes × WireReader) := do
  let (length, r) ← orInvalid shortLen r.takeU16
  failIf (length > maxBlobField) (.error (tooLarge length))
  orInvalid short (r.take length)

/-- The fields, and the reader behind them. -/
def readFields (b : Bytes) : Except (Stop InvalidBlob) ((Bytes × Bytes × Bytes) × WireReader) := do
  let r : WireReader := ⟨b, 0⟩
  let (magic, r) ← orInvalid .shortHeader (r.take 4)
  failIf (magic ≠ wireMagic) (.error (.badMagic magic))
  let (ver, r) ← orInvalid .shortVersion r.takeU16
  failIf (ver ≠ wireVersion) (.error (.unsupportedVersion ver))
  let (pcrCount, r) ← orInvalid .shortPCRCount r.takeU16
  failIf (pcrCount > maxPCRs) (.error (.pcrCountTooLarge pcrCount))
  let (pcrs, r) ← orInvalid .shortPCRList (r.take pcrCount)
  each (checkPCR .error) pcrs
  let (pub, r) ← takeField r .shortPubLen .shortPub .pubLenTooLarge
  let (priv, r) ← takeField r .shortPrivLen .shortPriv .privLenTooLarge
  return ((pcrs, pub, priv), r)

def unmarshalSealedBlob (b : Bytes) : Except (Stop InvalidBlob) (Bytes × Bytes × Bytes) := do
  let (blob, r) ← readFields b
  failIf (r.remaining ≠ 0) (.error (.trailing r.remaining))
  return blob

/-! ### What the reader does -/

namespace WireReader

def skip (r : WireReader) (n : Nat) : WireReader := ⟨r.b, r.pos + n⟩

/-- The reader stands before the rest of its bytes. -/
structure Before (r : WireReader) (rest : Bytes) : Prop where
  within : r.pos ≤ r.b.length
  unread : r.b.drop r.pos = rest

variable {r r' : WireReader} {rest out later : Bytes} {n : Nat}

theorem Before.skip (before : r.Before (out ++ later)) : (r.skip out.length).Before later := by
  obtain ⟨within, unread⟩ := before
  have lengths := congrArg List.length unread
  rw [List.length_drop, List.length_append] at lengths
  constructor
  · show r.pos + out.length ≤ r.b.length
    omega
  · show r.b.drop (r.pos + out.length) = later
    rw [← List.drop_drop, unread, List.drop_left]

theorem take_eq (r : WireReader) (n : Nat) : r.take n =
    if r.b.length < r.pos + n then .error (.error ())
    else .ok ((r.b.take (r.pos + n)).drop r.pos, r.skip n) := by
  rw [take, Int.toNat_natCast]
  by_cases short : r.b.length < r.pos + n
  · rw [if_pos short, if_pos (.inr (by omega))]
  · rw [if_neg short, if_neg (by omega), Slices.slice_ok (by omega) (by omega)]
    rfl

/-- The check before the slice covers its bounds. -/
theorem safe_take (r : WireReader) (n : Nat) : Safe (r.take n) := by
  rw [take_eq]
  split
  · exact Slices.safe_error ()
  · exact safe_ok _

/-- Bytes are taken from the front of what is unread. -/
theorem take_ok_iff (before : r.Before rest) : r.take n = .ok (out, r') ↔
    ∃ later, rest = out ++ later ∧ out.length = n ∧ r' = r.skip n := by
  obtain ⟨within, rfl⟩ := before
  rw [take_eq]
  constructor
  · intro taken
    split at taken
    · cases taken
    next enough =>
      cases taken
      rw [List.drop_take, Nat.add_sub_cancel_left]
      refine ⟨r.b.drop (r.pos + n), ?_, ?_, rfl⟩
      · rw [← List.drop_drop, List.take_append_drop]
      · simp
        omega
  · rintro ⟨later, parts, rfl, rfl⟩
    have lengths := congrArg List.length parts
    rw [List.length_drop, List.length_append] at lengths
    rw [if_neg (by omega), List.drop_take, Nat.add_sub_cancel_left, parts, List.take_left]

theorem takeU16_eq (r : WireReader) : r.takeU16 =
    r.take (2 : Nat) >>= fun taken => readUint16 taken.1 >>= fun n => .ok (n, taken.2) := rfl

theorem length_take (taken : r.take n = .ok (out, r')) : out.length = n := by
  rw [take_eq] at taken
  split at taken
  · cases taken
  · cases taken
    simp
    omega

theorem safe_takeU16 (r : WireReader) : Safe r.takeU16 := by
  rw [takeU16_eq]
  refine safe_bind (safe_take r 2) fun (b, r') taken => ?_
  obtain ⟨n, -, -, number⟩ := readUint16_pair (ε := Unit) (length_take taken)
  rw [number]
  exact safe_ok _

theorem takeU16_ok_iff (before : r.Before rest) : r.takeU16 = .ok (n, r') ↔
    ∃ later, n ≤ 0xFFFF ∧ rest = putUint16 n ++ later ∧ r' = r.skip 2 := by
  rw [takeU16_eq]
  constructor
  · intro returned
    obtain ⟨⟨b, r₁⟩, taken, returned⟩ := bind_ok returned
    obtain ⟨later, parts, two, rfl⟩ := (take_ok_iff before).mp taken
    obtain ⟨m, fits, rfl, number⟩ := readUint16_pair (ε := Unit) two
    rw [number] at returned
    cases returned
    exact ⟨later, fits, parts, rfl⟩
  · rintro ⟨later, fits, parts, rfl⟩
    have taken := (take_ok_iff before).mpr ⟨later, parts, rfl, rfl⟩
    exact bind_ok_iff.mpr ⟨_, taken, bind_ok_iff.mpr ⟨n, readUint16_putUint16 fits, rfl⟩⟩

end WireReader

section Fields

open WireReader

variable {r r' : WireReader} {rest out later b pcrs pub priv : Bytes} {α : Type}

theorem orInvalid_ok_iff {err : InvalidBlob} {read : Except (Stop Unit) α} {a : α} :
    orInvalid err read = .ok a ↔ read = .ok a := Fallible.mapError_ok_iff

theorem safe_orInvalid {read : Except (Stop Unit) α} (safe : Safe read) (err : InvalidBlob) :
    Safe (orInvalid err read) := Slices.safe_as safe err

theorem before_putUint16 {n : Nat} (before : r.Before (putUint16 n ++ later)) :
    (r.skip 2).Before later := before.skip

/-- A field as the writer puts it down. -/
theorem takeField_ok_iff (before : r.Before rest) {shortLen short : InvalidBlob}
    {tooLarge : Nat → InvalidBlob} :
    takeField r shortLen short tooLarge = .ok (out, r') ↔ ∃ later, out.length ≤ maxBlobField ∧
      rest = putUint16 out.length ++ (out ++ later) ∧ r' = (r.skip 2).skip out.length := by
  constructor
  · intro returned
    obtain ⟨⟨length, r₁⟩, first, returned⟩ := bind_ok returned
    obtain ⟨_, fits, returned⟩ := bind_ok returned
    obtain ⟨middle, -, rfl, rfl⟩ := (takeU16_ok_iff before).mp (orInvalid_ok_iff.mp first)
    obtain ⟨later, rfl, rfl, rfl⟩ :=
      (take_ok_iff (before_putUint16 before)).mp (orInvalid_ok_iff.mp returned)
    exact ⟨later, Nat.not_lt.mp (Fallible.failIf_ok fits), rfl, rfl⟩
  · rintro ⟨later, fits, rfl, rfl⟩
    have bound : out.length ≤ 0xFFFF := Nat.le_trans fits (by decide)
    have first := (takeU16_ok_iff before).mpr ⟨_, bound, rfl, rfl⟩
    have second := (take_ok_iff (before_putUint16 before)).mpr ⟨later, rfl, rfl, rfl⟩
    refine bind_ok_iff.mpr ⟨_, orInvalid_ok_iff.mpr first, ?_⟩
    exact bind_ok_iff.mpr ⟨(), failIf_ok_iff.mpr (Nat.not_lt.mpr fits), orInvalid_ok_iff.mpr second⟩

theorem safe_takeField (r : WireReader) (shortLen short : InvalidBlob)
    (tooLarge : Nat → InvalidBlob) : Safe (takeField r shortLen short tooLarge) := by
  refine safe_bind (safe_orInvalid (safe_takeU16 r) _) fun (length, r') _ => ?_
  refine safe_bind (safe_failIf _) fun _ _ => ?_
  exact safe_orInvalid (safe_take r' length) _

/-- The limits of the format. -/
structure Fits (pcrs pub priv : Bytes) : Prop where
  count : pcrs.length ≤ maxPCRs
  range : ∀ pcr ∈ pcrs, pcr.toNat < maxPCRs
  pub : pub.length ≤ maxBlobField
  priv : priv.length ≤ maxBlobField

theorem checkPCR_ok_iff {ε : Type} {err : InvalidBlob → ε} {pcr : UInt8} {u : Unit} :
    checkPCR err pcr = .ok u ↔ pcr.toNat < maxPCRs :=
  failIf_ok_iff.trans Nat.not_le

theorem marshalSealedBlob_ok_iff :
    marshalSealedBlob pcrs pub priv = .ok b ↔ Fits pcrs pub priv ∧ b = wire pcrs pub priv := by
  constructor
  · intro returned
    obtain ⟨_, count, returned⟩ := bind_ok returned
    obtain ⟨_, pubFits, returned⟩ := bind_ok returned
    obtain ⟨_, privFits, returned⟩ := bind_ok returned
    obtain ⟨_, range, returned⟩ := bind_ok returned
    cases returned
    refine ⟨⟨?_, ?_, ?_, ?_⟩, rfl⟩
    · exact Nat.not_lt.mp (failIf_ok_iff.mp count)
    · exact fun pcr member => checkPCR_ok_iff.mp (each_ok_iff.mp range pcr member)
    · exact Nat.not_lt.mp (failIf_ok_iff.mp pubFits)
    · exact Nat.not_lt.mp (failIf_ok_iff.mp privFits)
  · rintro ⟨fits, rfl⟩
    refine bind_ok_iff.mpr ⟨(), failIf_ok_iff.mpr (Nat.not_lt.mpr fits.count), ?_⟩
    refine bind_ok_iff.mpr ⟨(), failIf_ok_iff.mpr (Nat.not_lt.mpr fits.pub), ?_⟩
    refine bind_ok_iff.mpr ⟨(), failIf_ok_iff.mpr (Nat.not_lt.mpr fits.priv), ?_⟩
    exact bind_ok_iff.mpr ⟨(), each_ok_iff.mpr fun pcr member =>
      checkPCR_ok_iff.mpr (fits.range pcr member), rfl⟩

/-- The reader finds in front what the writer wrote, and stops behind it. -/
theorem readFields_ok_iff : readFields b = .ok ((pcrs, pub, priv), r) ↔ Fits pcrs pub priv ∧
    ∃ later, b = wire pcrs pub priv ++ later ∧ r = ⟨b, (wire pcrs pub priv).length⟩ := by
  have start : WireReader.Before ⟨b, 0⟩ b := ⟨Nat.zero_le _, rfl⟩
  constructor
  · intro returned
    obtain ⟨⟨magic, r₁⟩, header, returned⟩ := bind_ok returned
    obtain ⟨_, word, returned⟩ := bind_ok returned
    obtain ⟨⟨ver, r₂⟩, version, returned⟩ := bind_ok returned
    obtain ⟨_, known, returned⟩ := bind_ok returned
    obtain ⟨⟨count, r₃⟩, counted, returned⟩ := bind_ok returned
    obtain ⟨_, few, returned⟩ := bind_ok returned
    obtain ⟨⟨listed, r₄⟩, list, returned⟩ := bind_ok returned
    obtain ⟨_, range, returned⟩ := bind_ok returned
    obtain ⟨⟨pub', r₅⟩, half₁, returned⟩ := bind_ok returned
    obtain ⟨⟨priv', r₆⟩, half₂, returned⟩ := bind_ok returned
    cases returned
    -- Each field is the front of what the one before it leaves.
    obtain ⟨rest₁, parts, -, rfl⟩ :=
      (take_ok_iff (n := 4) start).mp (orInvalid_ok_iff.mp header)
    have word : magic = wireMagic := Decidable.not_not.mp (failIf_ok_iff.mp word)
    have known : ver = wireVersion := Decidable.not_not.mp (failIf_ok_iff.mp known)
    subst word known
    have at₁ : WireReader.Before ⟨b, 0⟩ (wireMagic ++ rest₁) := ⟨Nat.zero_le _, parts⟩
    obtain ⟨rest₂, -, rfl, rfl⟩ := (takeU16_ok_iff at₁.skip).mp (orInvalid_ok_iff.mp version)
    have at₂ := before_putUint16 at₁.skip
    obtain ⟨rest₃, -, rfl, rfl⟩ := (takeU16_ok_iff at₂).mp (orInvalid_ok_iff.mp counted)
    have at₃ := before_putUint16 at₂
    obtain ⟨rest₄, rfl, rfl, rfl⟩ := (take_ok_iff at₃).mp (orInvalid_ok_iff.mp list)
    obtain ⟨rest₅, pubFits, rfl, rfl⟩ := (takeField_ok_iff at₃.skip).mp half₁
    have at₅ := (before_putUint16 at₃.skip).skip
    obtain ⟨later, privFits, rfl, rfl⟩ := (takeField_ok_iff at₅).mp half₂
    refine ⟨⟨Nat.not_lt.mp (failIf_ok_iff.mp few), ?_, pubFits, privFits⟩, later, ?_, ?_⟩
    · exact fun pcr member => checkPCR_ok_iff.mp (each_ok_iff.mp range pcr member)
    · simpa [wire] using parts
    · simp [WireReader.skip, wire, putUint16, wireMagic]
      omega
  · rintro ⟨fits, later, parts, rfl⟩
    simp only [wire, List.append_assoc] at parts
    have at₁ : WireReader.Before ⟨b, 0⟩ _ := ⟨Nat.zero_le _, parts⟩
    have at₂ := before_putUint16 at₁.skip
    have at₃ := before_putUint16 at₂
    have at₅ := (before_putUint16 at₃.skip).skip
    have few : pcrs.length ≤ 0xFFFF := Nat.le_trans fits.count (by decide)
    refine bind_ok_iff.mpr ⟨(wireMagic, _), orInvalid_ok_iff.mpr
      ((take_ok_iff (n := 4) at₁).mpr ⟨_, rfl, rfl, rfl⟩), ?_⟩
    refine bind_ok_iff.mpr ⟨(), failIf_ok_iff.mpr (not_not_intro rfl), ?_⟩
    refine bind_ok_iff.mpr ⟨(wireVersion, _), orInvalid_ok_iff.mpr
      ((takeU16_ok_iff at₁.skip).mpr ⟨_, by decide, rfl, rfl⟩), ?_⟩
    refine bind_ok_iff.mpr ⟨(), failIf_ok_iff.mpr (not_not_intro rfl), ?_⟩
    refine bind_ok_iff.mpr ⟨(pcrs.length, _), orInvalid_ok_iff.mpr
      ((takeU16_ok_iff at₂).mpr ⟨_, few, rfl, rfl⟩), ?_⟩
    refine bind_ok_iff.mpr ⟨(), failIf_ok_iff.mpr (Nat.not_lt.mpr fits.count), ?_⟩
    refine bind_ok_iff.mpr ⟨(pcrs, _), orInvalid_ok_iff.mpr
      ((take_ok_iff at₃).mpr ⟨_, rfl, rfl, rfl⟩), ?_⟩
    refine bind_ok_iff.mpr ⟨(), each_ok_iff.mpr fun pcr member =>
      checkPCR_ok_iff.mpr (fits.range pcr member), ?_⟩
    refine bind_ok_iff.mpr ⟨(pub, _), (takeField_ok_iff at₃.skip).mpr ⟨_, fits.pub, rfl, rfl⟩, ?_⟩
    refine bind_ok_iff.mpr ⟨(priv, _), (takeField_ok_iff at₅).mpr ⟨_, fits.priv, rfl, rfl⟩, ?_⟩
    simp [WireReader.skip, wire, putUint16, wireMagic, pure, Except.pure]
    omega

theorem unmarshalSealedBlob_ok_iff : unmarshalSealedBlob b = .ok (pcrs, pub, priv) ↔
    Fits pcrs pub priv ∧ b = wire pcrs pub priv := by
  constructor
  · intro returned
    obtain ⟨⟨blob, r⟩, fields, returned⟩ := bind_ok returned
    obtain ⟨_, done, returned⟩ := bind_ok returned
    cases returned
    obtain ⟨fits, later, rfl, rfl⟩ := readFields_ok_iff.mp fields
    have none_ : later = [] := by
      have nothing := failIf_ok_iff.mp done
      simp only [WireReader.remaining, List.length_append] at nothing
      exact List.eq_nil_of_length_eq_zero (by omega)
    exact ⟨fits, by rw [none_, List.append_nil]⟩
  · rintro ⟨fits, rfl⟩
    have fields := readFields_ok_iff.mpr ⟨fits, [], (List.append_nil _).symm, rfl⟩
    refine bind_ok_iff.mpr ⟨_, fields, bind_ok_iff.mpr ⟨(), failIf_ok_iff.mpr ?_, rfl⟩⟩
    simp [WireReader.remaining]

theorem safe_readFields (b : Bytes) : Safe (readFields b) := by
  refine safe_bind (safe_orInvalid (safe_take _ 4) _) fun (magic, r₁) _ => ?_
  refine safe_bind (safe_failIf _) fun _ _ => ?_
  refine safe_bind (safe_orInvalid (safe_takeU16 r₁) _) fun (ver, r₂) _ => ?_
  refine safe_bind (safe_failIf _) fun _ _ => ?_
  refine safe_bind (safe_orInvalid (safe_takeU16 r₂) _) fun (count, r₃) _ => ?_
  refine safe_bind (safe_failIf _) fun _ _ => ?_
  refine safe_bind (safe_orInvalid (safe_take r₃ count) _) fun (pcrs, r₄) _ => ?_
  refine safe_bind (Slices.safe_each fun _ => safe_failIf _) fun _ _ => ?_
  refine safe_bind (safe_takeField r₄ _ _ _) fun (pub, r₅) _ => ?_
  exact safe_bind (safe_takeField r₅ _ _ _) fun _ _ => safe_ok _

theorem safe_unmarshalSealedBlob (b : Bytes) : Safe (unmarshalSealedBlob b) := by
  refine safe_bind (safe_readFields b) fun _ _ => ?_
  exact safe_bind (safe_failIf _) fun _ _ => safe_ok _

def Accepted (b : Bytes) : Prop := ∃ blob, unmarshalSealedBlob b = .ok blob

/-- What stands behind a blob is no part of it. -/
theorem accepted_append {extra : Bytes} (whole : Accepted b) (more : Accepted (b ++ extra)) :
    extra = [] := by
  obtain ⟨⟨pcrs, pub, priv⟩, read⟩ := whole
  obtain ⟨⟨pcrs', pub', priv'⟩, read'⟩ := more
  obtain ⟨fits, rfl⟩ := unmarshalSealedBlob_ok_iff.mp read
  obtain ⟨fits', same⟩ := unmarshalSealedBlob_ok_iff.mp read'
  -- Both readings take the same fields from the front, so they stop at the same place.
  have fields := readFields_ok_iff.mpr ⟨fits, extra, rfl, rfl⟩
  have fields' := readFields_ok_iff.mpr ⟨fits', [], same.trans (List.append_nil _).symm, rfl⟩
  have stops := congrArg (fun read => WireReader.pos read.2)
    (Except.ok.inj (fields.symm.trans fields'))
  have lengths := congrArg List.length same
  simp only [List.length_append] at stops lengths
  exact List.eq_nil_of_length_eq_zero (by omega)

end Fields

/-- Reading and writing are inverse to each other, in both directions and for all bytes. So no blob
has two decodings and no two blobs have the same one, no blob begins another, and the reader never
leaves its bytes. -/
theorem sealedBlob_canonical :
    (∀ b pcrs pub priv, unmarshalSealedBlob b = .ok (pcrs, pub, priv) ↔
      marshalSealedBlob pcrs pub priv = .ok b) ∧
    (∀ b, Accepted b → ∃ blob, unmarshalSealedBlob b = .ok blob ∧
      ∀ pcrs pub priv, marshalSealedBlob pcrs pub priv = .ok b → (pcrs, pub, priv) = blob) ∧
    (∀ b b' blob, unmarshalSealedBlob b = .ok blob → unmarshalSealedBlob b' = .ok blob → b = b') ∧
    (∀ b b', Accepted b → b' <+: b ∨ b <+: b' → b' ≠ b → ¬Accepted b') ∧
    ∀ b, unmarshalSealedBlob b ≠ .error .panic := by
  have agree (b pcrs pub priv : Bytes) : unmarshalSealedBlob b = .ok (pcrs, pub, priv) ↔
      marshalSealedBlob pcrs pub priv = .ok b := by
    rw [unmarshalSealedBlob_ok_iff, marshalSealedBlob_ok_iff]
  refine ⟨agree, ?_, ?_, ?_, safe_unmarshalSealedBlob⟩
  · rintro b ⟨blob, read⟩
    refine ⟨blob, read, fun pcrs pub priv written => ?_⟩
    exact Except.ok.inj (((agree ..).mpr written).symm.trans read)
  · rintro b b' ⟨pcrs, pub, priv⟩ read read'
    exact Except.ok.inj (((agree ..).mp read).symm.trans ((agree ..).mp read'))
  · rintro b b' accepted (⟨extra, rfl⟩ | ⟨extra, rfl⟩) other accepted'
    · rw [accepted_append accepted' accepted, List.append_nil] at other
      exact other rfl
    · rw [accepted_append accepted accepted', List.append_nil] at other
      exact other rfl

end NovaNas.Tpm
