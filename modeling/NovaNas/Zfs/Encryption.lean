import NovaNas.Base.Interleaving
import NovaNas.Tpm.Envelope
import NovaNas.Zfs.Names

/-!
# Keys of encrypted datasets

The encryption manager creates datasets with a fresh raw key, keeps the key wrapped in the secrets
backend and gives it back. The secrets backend is a map; a record is read back as it was written.
`zfs create` fails if the dataset exists, other failures of `zfs` are arbitrary.
-/
namespace NovaNas.Zfs

open Fallible (failIf)
open Tpm (Bytes BytesOf)

abbrev RawKey := BytesOf 32

def defaultEncryptionAlgorithm : String := "aes-256-gcm"

/-- The record under a dataset's escrow key; the blob is held decoded. -/
structure WrappedKeyRecord where
  wrapped : Bytes
  algorithm : String
  created : String

structure CreateSpec where
  parent : Name
  name : Name
  type : String
  volumeSizeBytes : Nat
  properties : List (String × String)
  encryptionEnabled : Bool
  encryptionAlgorithm : String

inductive Failure where
  | badName (err : NameError)
  | badType (type : String)
  | badSize
  | noParent
  | noSealer
  | randRawKey (err : String)
  | tpmWrap (err : String)
  | notEncrypted
  | reservedProperty (key : String)
  | volumeSize
  | zfs (command : String)
  | secretNotFound (key : List Char)
  | tpmUnwrap (err : String)
  | keyLength (length : Nat)
  deriving DecidableEq, Repr

/-! ### Arguments of zfs -/

def reservedProperties : List String := ["encryption", "keyformat", "keylocation"]

def propertyArgs (properties : List (String × String)) : List String :=
  (properties.mergeSort fun a b => a.1 ≤ b.1).flatMap fun (k, v) => ["-o", k ++ "=" ++ v]

def CreateSpec.full (spec : CreateSpec) : Name := spec.parent ++ '/' :: spec.name

/-- The options and the name of the dataset for `zfs create`. -/
def createEncryptedArgs (spec : CreateSpec) : Except Failure (List String × Name) := do
  failIf (!spec.encryptionEnabled) .notEncrypted
  failIf (spec.type ≠ "filesystem" ∧ spec.type ≠ "volume") (.badType spec.type)
  (validateDatasetName spec.full).mapError .badName
  let alg :=
    if spec.encryptionAlgorithm = "" then defaultEncryptionAlgorithm
    else spec.encryptionAlgorithm
  match spec.properties.find? (·.1 ∈ reservedProperties) with
  | some (k, _) => throw (.reservedProperty k)
  | none =>
    failIf (spec.type = "volume" ∧ spec.volumeSizeBytes = 0) .volumeSize
    return (["create", "-o", "encryption=" ++ alg, "-o", "keyformat=raw", "-o",
      "keylocation=prompt"] ++ propertyArgs spec.properties ++
      (if spec.type = "volume" then ["-V", toString spec.volumeSizeBytes] else []), spec.full)

/-! ### The manager -/

structure Manager where
  gcm : Tpm.Gcm
  sealer : Option Tpm.Sealer

structure Dataset where
  /-- The key that `Initialize` returned when it created the dataset. -/
  origin : Option RawKey
  keyLoaded : Bool

structure State where
  datasets : Name → Option Dataset
  secrets : List Char → Option WrappedKeyRecord

def State.setDataset (st : State) (name : Name) (dataset : Option Dataset) : State :=
  { st with datasets := Function.update st.datasets name dataset }

def State.setSecret (st : State) (key : List Char) (record : Option WrappedKeyRecord) : State :=
  { st with secrets := Function.update st.secrets key record }

inductive CreateOutcome where
  | succeeds
  /-- An error, before or after the dataset came into being. -/
  | fails (made : Bool)

/-- What a call of `Initialize` depends on. -/
structure Answers where
  rawKey : Except String RawKey
  random : Tpm.Randomness
  now : String
  create : CreateOutcome

/-- `zfs create` with the key on its standard input. -/
def State.zfsCreate (st : State) (name : Name) (key : RawKey) (outcome : CreateOutcome) :
    Bool × State :=
  match st.datasets name with
  | some _ => (false, st)
  | none =>
    match outcome with
    | .succeeds => (true, st.setDataset name (some ⟨some key, true⟩))
    | .fails true => (false, st.setDataset name (some ⟨none, true⟩))
    | .fails false => (false, st)

/-- The part of `Initialize` up to the first write: the key, where its record goes, the record. -/
def Manager.prepare (m : Manager) (full : Name) (spec : Option CreateSpec) (answers : Answers) :
    Except Failure (RawKey × List Char × WrappedKeyRecord) := do
  (validateDatasetName full).mapError .badName
  match m.sealer with
  | none => throw .noSealer
  | some sealer =>
    let rawKey ← answers.rawKey.mapError .randRawKey
    let wrapped ← (Tpm.wrapAEAD m.gcm sealer answers.random rawKey.val).mapError .tpmWrap
    let alg :=
      match spec with
      | some spec =>
        if spec.encryptionAlgorithm = "" then defaultEncryptionAlgorithm
        else spec.encryptionAlgorithm
      | none => defaultEncryptionAlgorithm
    let secretKey ← (encodeSecretKey full).mapError .badName
    return (rawKey, secretKey, ⟨wrapped, alg, answers.now⟩)

/-- `Initialize` -/
def Manager.initializeKey (m : Manager) (full : Name) (spec : Option CreateSpec) (answers : Answers)
    (st : State) : Except Failure RawKey × State :=
  match m.prepare full spec answers with
  | .error err => (.error err, st)
  | .ok (rawKey, secretKey, record) =>
    let st := st.setSecret secretKey (some record)
    match spec with
    | none => (.ok rawKey, st)
    | some spec =>
      match createEncryptedArgs spec with
      | .error err => (.error err, st.setSecret secretKey none)
      | .ok (_, name) =>
        match st.zfsCreate name rawKey answers.create with
        | (true, st) => (.ok rawKey, st)
        | (false, st) => (.error (.zfs "create"), st.setSecret secretKey none)

def Manager.fetchRawKey (m : Manager) (full : Name) (st : State) : Except Failure RawKey := do
  match m.sealer with
  | none => throw .noSealer
  | some sealer =>
    let secretKey ← (encodeSecretKey full).mapError .badName
    match st.secrets secretKey with
    | none => throw (.secretNotFound secretKey)
    | some record =>
      let rawKey ← (Tpm.unwrapAEAD m.gcm sealer record.wrapped).mapError .tpmUnwrap
      if right : rawKey.length = 32 then return ⟨rawKey, right⟩
      else throw (.keyLength rawKey.length)

/-- `Recover` -/
def Manager.recover (m : Manager) (full : Name) (st : State) : Except Failure RawKey :=
  m.fetchRawKey full st

def State.setLoaded (st : State) (full : Name) (loaded : Bool) : State :=
  st.setDataset full ((st.datasets full).map fun dataset => { dataset with keyLoaded := loaded })

def Manager.loadKey (m : Manager) (full : Name) (fails : Bool) (st : State) :
    Except Failure Unit × State :=
  match m.fetchRawKey full st with
  | .error err => (.error err, st)
  | .ok _ =>
    if fails then (.error (.zfs "load-key"), st) else (.ok (), st.setLoaded full true)

def unloadKey (full : Name) (fails : Bool) (st : State) : Except Failure Unit × State :=
  match validateDatasetName full with
  | .error err => (.error (.badName err), st)
  | .ok () => if fails then (.error (.zfs "unload-key"), st) else (.ok (), st.setLoaded full false)

/-! ### Requests -/

structure EncryptionInitRequest where
  type : String
  volumeSizeBytes : Nat
  algorithm : String
  properties : List (String × String)

def splitParentName (full : Name) : Option (Name × Name) :=
  match full.reverse.dropWhile (· ≠ '/') with
  | [] => none
  | _ :: parent => some (parent.reverse, (full.reverse.takeWhile (· ≠ '/')).reverse)

def initSpec (full : Name) (body : EncryptionInitRequest) : Except Failure CreateSpec := do
  (validateDatasetName full).mapError .badName
  failIf (body.type ≠ "filesystem" ∧ body.type ≠ "volume") (.badType body.type)
  failIf (body.type = "volume" ∧ body.volumeSizeBytes = 0) .badSize
  match splitParentName full with
  | none => throw .noParent
  | some (parent, name) =>
    return ⟨parent, name, body.type, body.volumeSizeBytes, body.properties, true, body.algorithm⟩

/-- `EncryptionHandler.Initialize` -/
def Manager.handleInitialize (m : Manager) (full : Name) (body : EncryptionInitRequest)
    (answers : Answers) (st : State) : Except Failure RawKey × State :=
  match initSpec full body with
  | .error err => (.error err, st)
  | .ok spec => m.initializeKey full (some spec) answers st

/-! ### Runs -/

inductive Action where
  | initializeKey (full : Name) (body : EncryptionInitRequest) (answers : Answers)
  | loadKey (full : Name) (fails : Bool)
  | unloadKey (full : Name) (fails : Bool)
  | recover (full : Name)
  /-- Someone else creates or destroys a dataset. -/
  | create (full : Name)
  | destroy (full : Name)

def step (m : Manager) (st : State) : Action → Option State
  | .initializeKey full body answers => some (m.handleInitialize full body answers st).2
  | .loadKey full fails => some (m.loadKey full fails st).2
  | .unloadKey full fails => some (unloadKey full fails st).2
  | .recover _ => some st
  | .create full =>
    match st.datasets full with
    | some _ => none
    | none => some (st.setDataset full (some ⟨none, true⟩))
  | .destroy full => some (st.setDataset full none)

/-- The condition on the steps: a dataset that `Initialize` has created and that still exists is
not initialized again. -/
def fresh (st : State) : Action → Prop
  | .initializeKey full _ _ => ∀ dataset ∈ st.datasets full, dataset.origin = none
  | _ => True

end NovaNas.Zfs
