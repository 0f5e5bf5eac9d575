import Mathlib.Algebra.Group.Int.Defs
import NovaNas.Csi.Client

/-!
# The CSI controller

The calls that create, delete and expand volumes and that create and delete snapshots. Each is a
chain of requests to the API server with a job at its end.
-/
namespace NovaNas.Csi

open Program
open Zfs (Name)

/-! ### Identifiers -/

structure VolumeID where
  full : Name
  pool : Name
  parent : Name
  leaf : Name
  deriving DecidableEq, Repr

inductive IDError where
  | empty
  | noName
  | emptySegment
  | notASnapshot
  deriving DecidableEq, Repr

def encodeVolumeID (parent leaf : Name) : Name :=
  if parent = [] then leaf else parent ++ '/' :: leaf

def parseVolumeID (id : Name) : Except IDError VolumeID :=
  if id = [] then .error .empty
  else
    let parts := Text.split '/' id
    if parts.length < 2 then .error .noName
    else if parts.contains [] then .error .emptySegment
    else .ok {
      full := id
      pool := parts.headD []
      parent := Text.join '/' parts.dropLast
      leaf := parts.getLastD [] }

theorem parseVolumeID_full {volumeId : Name} {id : VolumeID}
    (parsed : parseVolumeID volumeId = .ok id) : id.full = volumeId := by
  rw [parseVolumeID] at parsed
  split at parsed
  · cases parsed
  dsimp only at parsed
  split_ifs at parsed
  cases parsed
  rfl

structure SnapshotID where
  full : Name
  dataset : Name
  shortTag : Name
  deriving DecidableEq, Repr

def encodeSnapshotID (dataset short : Name) : Name := dataset ++ '@' :: short

/-- The last `@` separates the dataset from the short name. -/
def parseSnapshotID (id : Name) : Except IDError SnapshotID :=
  match Text.cut '@' id.reverse with
  | none => .error .notASnapshot
  | some (short, dataset) =>
    if short = [] ∨ dataset = [] then .error .notASnapshot
    else .ok { full := id, dataset := dataset.reverse, shortTag := short.reverse }

/-- The name without its pool, or nothing where it is not below the pool. -/
def datasetSubpath (pool full : Name) : Name :=
  if (pool ++ ['/']).isPrefixOf full then full.drop (pool.length + 1) else []

def extractPool (full : Name) : Name :=
  match Text.cut '/' full with
  | some (pool, _) => if pool = [] then full else pool
  | none => full

/-! ### Errors -/

inductive Code where
  | invalidArgument
  | notFound
  | alreadyExists
  | internal
  deriving DecidableEq, Repr

/-- What the text of an error says. -/
inductive Message where
  | nameRequired
  | capabilitiesRequired
  | accessTypeRequired (index : Nat)
  | mixedCapabilities
  | nfsRequiresMount
  | poolRequired
  | emptyDatasetName (full pool : Name)
  | volumeId (err : IDError)
  | sourceVolumeId (err : IDError)
  | snapshotIdRequired
  | snapshotId (err : IDError)
  | volumeNotFound (full : Name)
  | wrongType (full : Name) (type want : DatasetType)
  | incompatibleSize (full : Name)
  | unknownType (type : DatasetType)
  | getDataset (full : Name) (err : ApiError)
  | createDataset (full : Name) (err : ApiError)
  | waitCreateDataset (err : ApiError)
  | getProtocolShare (leaf : Name) (err : ApiError)
  | createProtocolShare (leaf : Name) (err : ApiError)
  | waitCreateProtocolShare (err : ApiError)
  | deleteProtocolShare (leaf : Name) (err : ApiError)
  | waitDeleteProtocolShare (err : ApiError)
  | destroyDataset (full : Name) (err : ApiError)
  | waitDestroyDataset (err : ApiError)
  | getVolume (err : ApiError)
  | setProps (err : ApiError)
  | waitSetProps (err : ApiError)
  | createSnapshot (err : ApiError)
  | waitSnapshot (err : ApiError)
  | destroySnapshot (err : ApiError)
  | waitDestroySnapshot (err : ApiError)
  deriving DecidableEq, Repr

structure Status where
  code : Code
  message : Message
  deriving DecidableEq, Repr

def errInvalid (message : Message) : Status := ⟨.invalidArgument, message⟩
def errNotFound (message : Message) : Status := ⟨.notFound, message⟩
def errAlreadyExists (message : Message) : Status := ⟨.alreadyExists, message⟩
def errInternal (message : Message) : Status := ⟨.internal, message⟩

/-! ### Requests -/

structure Config where
  defaultPool : Name := []
  defaultParent : Name := []
  nfsServer : Name := []
  defaultNFSClients : Name := []
  deriving DecidableEq, Repr

/-- The parameters of a storage class that the driver reads; one that is not given is empty. -/
structure Parameters where
  pool : Name := []
  parent : Name := []
  compression : Name := []
  recordsize : Name := []
  volblocksize : Name := []
  fsType : Name := []
  accessProtocol : Name := []
  mountOptions : Name := []
  nfsClients : Name := []
  deriving DecidableEq, Repr

inductive AccessType where
  | mount
  | block
  deriving DecidableEq, Repr

structure CapacityRange where
  requiredBytes : Int
  limitBytes : Int
  deriving DecidableEq, Repr

structure CreateVolumeRequest where
  name : Name
  capabilities : List (Option AccessType)
  parameters : Parameters
  capacityRange : Option CapacityRange
  deriving DecidableEq, Repr

structure ExpandVolumeRequest where
  volumeId : Name
  capacityRange : Option CapacityRange
  capability : Option (Option AccessType)
  deriving DecidableEq, Repr

inductive ContextKey where
  | volumeKind
  | fsType
  | nfsServer
  | nfsPath
  | mountOptions
  deriving DecidableEq, Repr

structure Volume where
  volumeId : Name
  capacityBytes : Int
  volumeContext : List (ContextKey × Name)
  deriving DecidableEq, Repr

structure ExpandVolumeResponse where
  capacityBytes : Int
  nodeExpansionRequired : Bool
  deriving DecidableEq, Repr

structure Snapshot where
  snapshotId : Name
  sourceVolumeId : Name
  readyToUse : Bool
  deriving DecidableEq, Repr

/-! ### Kinds of volumes -/

inductive VolumeKind where
  | filesystem
  | block
  | nfs
  deriving DecidableEq, Repr

def zfsType : VolumeKind → DatasetType
  | .block => .volume
  | .nfs => .filesystem
  | .filesystem => .filesystem

def DatasetType.name : DatasetType → Name
  | .filesystem => "filesystem".toList
  | .volume => "volume".toList
  | .other name => name

def accessKind (index : Nat) : Option AccessType → Except Status VolumeKind
  | some .mount => .ok .filesystem
  | some .block => .ok .block
  | none => .error (errInvalid (.accessTypeRequired index))

/-- The capabilities from the given index on agree with the kind. -/
def agree (kind : VolumeKind) : (index : Nat) → List (Option AccessType) → Except Status Unit
  | _, [] => .ok ()
  | index, c :: rest => do
    let k ← accessKind index c
    if k ≠ kind then throw (errInvalid .mixedCapabilities)
    agree kind (index + 1) rest

def classify (capabilities : List (Option AccessType)) (parameters : Parameters) :
    Except Status VolumeKind :=
  match capabilities with
  | [] => .error (errInvalid .capabilitiesRequired)
  | first :: rest => do
    let kind ← accessKind 0 first
    agree kind 1 rest
    if Text.equalFold parameters.accessProtocol "nfs".toList then
      if kind ≠ .filesystem then throw (errInvalid .nfsRequiresMount)
      return .nfs
    return kind

/-! ### Sizes -/

def defaultCapacityBytes : Int := 2 ^ 30

def oneMiB : Int := 2 ^ 20

def requestedCapacity : Option CapacityRange → Int
  | none => defaultCapacityBytes
  | some range =>
    if range.requiredBytes > 0 then range.requiredBytes
    else if range.limitBytes > 0 then range.limitBytes
    else defaultCapacityBytes

/-- Arithmetic of 64 bits, which wraps. -/
def roundUp (n m : Int) : Int :=
  if m ≤ 0 then n
  else if n.tmod m = 0 then n
  else ((n.tdiv m + 1) * m).bmod (2 ^ 64)

def sizeCompatible (dataset : Dataset) (kind : VolumeKind) (want : Int) : Bool :=
  match kind with
  | .block => dataset.volsize = 0 || dataset.volsize = want
  | .filesystem => dataset.quota = 0 || dataset.quota = want
  | .nfs => false

/-! ### Volumes -/

def firstNonEmpty (a b : Name) : Name := if a ≠ [] then a else b

def Config.defaultParentOf (cfg : Config) (pool : Name) : Name :=
  if cfg.defaultParent ≠ [] then cfg.defaultParent
  else
    let pool := if pool = [] then cfg.defaultPool else pool
    if pool = [] then [] else pool ++ "/csi".toList

def buildVolume (volumeId : Name) (capacity : Int) (kind : VolumeKind) (parameters : Parameters) :
    Volume where
  volumeId
  capacityBytes := capacity
  volumeContext := (.volumeKind, (zfsType kind).name) ::
    if kind = .block then
      [(.fsType, if parameters.fsType = [] then "ext4".toList else parameters.fsType)]
    else []

def defaultNFSMountOptions : Name := "vers=4.2,sec=krb5p,hard".toList

def Config.buildNFSVolume (cfg : Config) (volumeId : Name) (capacity : Int)
    (parameters : Parameters) (dsName : Name) : Volume where
  volumeId
  capacityBytes := capacity
  volumeContext := [
    (.volumeKind, "nfs".toList),
    (.nfsServer, cfg.nfsServer),
    (.nfsPath, '/' :: extractPool volumeId ++ '/' :: dsName),
    (.mountOptions, firstNonEmpty parameters.mountOptions defaultNFSMountOptions)]

def buildNFSClientRules (csv : Name) : List Name :=
  if Text.trimSpace csv = [] then []
  else ((Text.split ',' csv).map Text.trimSpace).filter (· ≠ [])

/-- Submits a request and waits for its job. -/
def perform (submitted waited : ApiError → Message) (polls : Nat) (submission : Api ApiError Nat) :
    Api Status Unit := do
  let job ← mapError (errInternal ∘ submitted) submission
  mapError (errInternal ∘ waited) (waitJob polls job)

/-- The same, where what is not found need not be removed. -/
def remove (submitted waited : ApiError → Message) (polls : Nat) (submission : Api ApiError Nat) :
    Api Status Unit := do
  match ← ExceptT.lift submission.run with
  | .error err => if isNotFound err then return else throw (errInternal (submitted err))
  | .ok job => mapError (errInternal ∘ waited) (waitJob polls job)

def Config.createNFSVolume (cfg : Config) (polls : Nat) (parameters : Parameters)
    (pool leaf full : Name) (capacity : Int) : Api Status Volume :=
  let dsName := datasetSubpath pool full
  if dsName = [] then throw (errInvalid (.emptyDatasetName full pool))
  else do
    match ← ExceptT.lift (getProtocolShare leaf pool dsName).run with
    | .ok () => return cfg.buildNFSVolume full capacity parameters dsName
    | .error err =>
      if isNotFound err then
        perform (.createProtocolShare leaf) .waitCreateProtocolShare polls
          (createProtocolShare {
            name := leaf
            pool
            datasetName := dsName
            quotaBytes := capacity
            nfsClients := buildNFSClientRules
              (firstNonEmpty parameters.nfsClients cfg.defaultNFSClients) })
        return cfg.buildNFSVolume full capacity parameters dsName
      else throw (errInternal (.getProtocolShare leaf err))

/-- The properties of a new dataset. -/
def properties (kind : VolumeKind) (parameters : Parameters) (capacity : Int) : List Setting :=
  let compression :=
    if parameters.compression ≠ [] then parameters.compression else "lz4".toList
  .compression compression ::
    match kind with
    | .block =>
      if parameters.volblocksize ≠ [] then [.volblocksize parameters.volblocksize] else []
    | .filesystem =>
      .size .quota capacity ::
        (if parameters.recordsize ≠ [] then [.recordsize parameters.recordsize] else []) ++
        [.size .refquota capacity]
    | .nfs => []

/-- The part of `CreateVolume` that volumes in block and filesystem mode have in common. -/
def createBacking (polls : Nat) (kind : VolumeKind) (parent leaf full : Name) (capacity : Int)
    (parameters : Parameters) : Api Status Volume := do
  match ← ExceptT.lift (getDataset full).run with
  | .ok existing =>
    if existing.type ≠ zfsType kind then
      throw (errAlreadyExists (.wrongType full existing.type (zfsType kind)))
    else if !sizeCompatible existing kind capacity then
      throw (errAlreadyExists (.incompatibleSize full))
    else return buildVolume full capacity kind parameters
  | .error err =>
    if isNotFound err then
      perform (.createDataset full) .waitCreateDataset polls
        (createDataset {
          parent
          name := leaf
          type := zfsType kind
          volumeSizeBytes := if kind = .block then capacity else 0
          properties := properties kind parameters capacity })
      return buildVolume full capacity kind parameters
    else throw (errInternal (.getDataset full err))

def Config.createVolume (cfg : Config) (polls : Nat) (req : CreateVolumeRequest) :
    Api Status Volume :=
  if req.name = [] then throw (errInvalid .nameRequired)
  else do
    let kind ← liftExcept (classify req.capabilities req.parameters)
    let pool := firstNonEmpty req.parameters.pool cfg.defaultPool
    if pool = [] then throw (errInvalid .poolRequired)
    else
      let parent := firstNonEmpty req.parameters.parent (cfg.defaultParentOf pool)
      let full := encodeVolumeID parent req.name
      let requested := requestedCapacity req.capacityRange
      -- The size of a block volume has to be a multiple of its own block size.
      let capacity := if kind = .block then requested else roundUp requested oneMiB
      if kind = .nfs then cfg.createNFSVolume polls req.parameters pool req.name full capacity
      else createBacking polls kind parent req.name full capacity req.parameters

/-- What a request leads to does not depend on the deadline of the call. -/
theorem createVolume_cases (cfg : Config) (req : CreateVolumeRequest) :
    (∃ status, ∀ polls, cfg.createVolume polls req = throw status) ∨
    (∃ pool full capacity, ∀ polls, cfg.createVolume polls req =
      cfg.createNFSVolume polls req.parameters pool req.name full capacity) ∨
    ∃ kind parent capacity, kind ≠ .nfs ∧ ∀ polls, cfg.createVolume polls req =
      createBacking polls kind parent req.name (encodeVolumeID parent req.name) capacity
        req.parameters := by
  by_cases named : req.name = []
  · exact .inl ⟨_, fun polls => by rw [Config.createVolume, if_pos named]⟩
  simp only [Config.createVolume, if_neg named]
  cases classify req.capabilities req.parameters with
  | error status => exact .inl ⟨status, fun _ => rfl⟩
  | ok kind =>
    simp only [liftExcept_ok_bind]
    split
    · exact .inl ⟨_, fun _ => rfl⟩
    split
    · exact .inr (.inl ⟨_, _, _, fun _ => rfl⟩)
    next bare => exact .inr (.inr ⟨kind, _, _, bare, fun _ => rfl⟩)

def deleteVolume (polls : Nat) (volumeId : Name) : Api Status Unit := do
  let id ← liftExcept ((parseVolumeID volumeId).mapError (errInvalid ∘ .volumeId))
  let dsName := datasetSubpath id.pool id.full
  let destroy := remove (.destroyDataset id.full) .waitDestroyDataset polls
    (destroyDataset id.full false)
  if dsName = [] then destroy
  else
    match ← ExceptT.lift (getProtocolShare id.leaf id.pool dsName).run with
    | .ok () =>
      remove (.deleteProtocolShare id.leaf) .waitDeleteProtocolShare polls
        (deleteProtocolShare id.leaf id.pool dsName)
    -- Whatever the error of the lookup is.
    | .error _ => destroy

/-- The capacity an expansion sets, and where. -/
def expansion (type : DatasetType) (requested : Int) : Option (Int × List Setting) :=
  match type with
  | .filesystem =>
    let capacity := roundUp requested oneMiB
    some (capacity, [.size .quota capacity, .size .refquota capacity])
  | .volume => some (requested, [.size .volsize requested])
  | .other _ => none

def controllerExpandVolume (polls : Nat) (req : ExpandVolumeRequest) :
    Api Status ExpandVolumeResponse := do
  let id ← liftExcept ((parseVolumeID req.volumeId).mapError (errInvalid ∘ .volumeId))
  match ← ExceptT.lift (getDataset id.full).run with
  | .error err =>
    if isNotFound err then throw (errNotFound (.volumeNotFound id.full))
    else throw (errInternal (.getVolume err))
  | .ok ds =>
    match expansion ds.type (requestedCapacity req.capacityRange) with
    | none => throw (errInternal (.unknownType ds.type))
    | some (capacity, settings) =>
      perform .setProps .waitSetProps polls (setDatasetProps id.full settings)
      return {
        capacityBytes := capacity
        nodeExpansionRequired := ds.type = .volume && req.capability = some (some .mount) }

/-! ### Snapshots -/

def Controller.createSnapshot (polls : Nat) (name sourceVolumeId : Name) : Api Status Snapshot :=
  if name = [] then throw (errInvalid .nameRequired)
  else do
    let src ← liftExcept ((parseVolumeID sourceVolumeId).mapError (errInvalid ∘ .sourceVolumeId))
    perform .createSnapshot .waitSnapshot polls (Csi.createSnapshot src.full name false)
    return {
      snapshotId := encodeSnapshotID src.full name
      sourceVolumeId := src.full
      readyToUse := true }

def Controller.deleteSnapshot (polls : Nat) (snapshotId : Name) : Api Status Unit :=
  if snapshotId = [] then throw (errInvalid .snapshotIdRequired)
  else do
    let _ ← liftExcept ((parseSnapshotID snapshotId).mapError (errInvalid ∘ .snapshotId))
    remove .destroySnapshot .waitDestroySnapshot polls (destroySnapshot snapshotId)

end NovaNas.Csi
