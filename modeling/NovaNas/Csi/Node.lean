import NovaNas.Base.Interleaving
import NovaNas.Csi.Controller

/-!
# The CSI node service

Publishing a volume mounts it at a target path: by a bind mount that is then remounted read-only
if need be, or by an NFS mount. The commands may fail, with or without having had their effect,
and mounts at one path cover each other. A path that is mounted already is taken for the work of
an earlier call.
-/
namespace NovaNas.Csi

open Program
open Zfs (Name)

/-! ### The host -/

/-- What a failed command has printed. -/
structure RunError where
  text : Name
  deriving DecidableEq, Repr

inductive Findmnt where
  | printed (output : Name)
  | exited (code : Nat)
  deriving DecidableEq, Repr

inductive MountCommand where
  | ensureFile (path : Name)
  | ensureDir (path : Name)
  | bind (source target : Name)
  | remountReadOnly (target : Name)
  | mountNfs (options source target : Name)
  | umount (target : Name)
  deriving DecidableEq, Repr

inductive HostCall where
  | getDataset (full : Name)
  | findmnt (path : Name)
  | command (c : MountCommand)
  deriving DecidableEq, Repr

abbrev HostAnswer : HostCall → Type
  -- Only the mountpoint is looked at.
  | .getDataset _ => Except ApiError Name
  | .findmnt _ => Findmnt
  | .command _ => Except RunError Unit

abbrev OnHost := Attempt HostCall HostAnswer

/-! ### The mounter -/

/-- One command, whose error ends the call. -/
def runCommand (c : MountCommand) : OnHost RunError Unit := do
  let result : Except RunError Unit ← request (HostCall.command c)
  liftExcept result

def bindMount (source target : Name) (readonly : Bool) : OnHost RunError Unit := do
  runCommand (.bind source target)
  if readonly then runCommand (.remountReadOnly target) else return

def unmount (target : Name) : OnHost RunError Unit := do
  let result : Except RunError Unit ← request (HostCall.command (.umount target))
  match result with
  | .ok () => return
  | .error err =>
    if Text.contains err.text "not mounted".toList ||
        Text.contains err.text "not currently mounted".toList then return
    else throw err

def isMounted (target : Name) : OnHost RunError Bool := do
  let found : Findmnt ← request (HostCall.findmnt target)
  match found with
  | .printed output => return Text.trimSpace output ≠ []
  | .exited code => if code = 1 then return false else throw ⟨"findmnt".toList⟩

def nfsMount (server exportPath target options : Name) (readonly : Bool) :
    OnHost RunError Unit :=
  if server = [] then throw ⟨"NFSMount: server is required".toList⟩
  else if exportPath = [] then throw ⟨"NFSMount: exportPath is required".toList⟩
  else
    let options := if options = [] then defaultNFSMountOptions else options
    let options := if readonly then options ++ ",ro".toList else options
    runCommand (.mountNfs options (server ++ ':' :: exportPath) target)

/-! ### Publishing -/

inductive NodeMessage where
  | volumeId (err : IDError)
  | capabilityRequired
  | targetPathRequired
  | missingNfsContext
  | stagingTargetPathRequired
  | getDataset (err : ApiError)
  | noMountpoint (full : Name)
  | ensureTargetFile (err : RunError)
  | ensureTargetDir (err : RunError)
  | checkTargetMount (err : RunError)
  | bindMount (source target : Name) (err : RunError)
  | mountNfs (server exportPath target : Name) (err : RunError)
  | unmountTarget (err : RunError)
  deriving DecidableEq, Repr

structure NodeStatus where
  code : Code
  message : NodeMessage
  deriving DecidableEq, Repr

structure NodeConfig where
  hostRootPrefix : Name := []
  deriving DecidableEq, Repr

/-- The entries of the volume's context that are read; one that is not there is empty. -/
structure PublishRequest where
  volumeId : Name
  capability : Option (Option AccessType)
  targetPath : Name
  stagingTargetPath : Name
  readonly : Bool
  volumeKind : Name
  nfsServer : Name
  nfsPath : Name
  mountOptions : Name
  deriving DecidableEq, Repr

def kindFromContext (volumeKind : Name) : Name :=
  if volumeKind ≠ [] then volumeKind else "filesystem".toList

def zvolDevicePath (id : VolumeID) : Name := "/dev/zvol/".toList ++ id.full

def NodeConfig.hostPath (cfg : NodeConfig) (path : Name) : Name :=
  if cfg.hostRootPrefix = [] ∨ path = [] then path
  else if cfg.hostRootPrefix.isPrefixOf path then path
  else cfg.hostRootPrefix ++ path

/-- What is mounted at the target, unless it is an NFS volume. -/
def NodeConfig.publishSource (cfg : NodeConfig) (id : VolumeID) (access : Option AccessType)
    (req : PublishRequest) : OnHost NodeStatus Name :=
  if access = some .block then return cfg.hostPath (zvolDevicePath id)
  else if kindFromContext req.volumeKind = "filesystem".toList then do
    let dataset : Except ApiError Name ← request (HostCall.getDataset id.full)
    match dataset with
    | .error err => throw ⟨.internal, .getDataset err⟩
    | .ok mountpoint =>
      if mountpoint = [] then throw ⟨.internal, .noMountpoint id.full⟩
      else return cfg.hostPath mountpoint
  else if req.stagingTargetPath = [] then throw ⟨.invalidArgument, .stagingTargetPathRequired⟩
  else return req.stagingTargetPath

/-- Mounts the target unless it is mounted already, which is taken for an earlier publication. -/
def mountTarget (target : Name) (mount : OnHost NodeStatus Unit) : OnHost NodeStatus Unit := do
  let mounted ← mapError (NodeStatus.mk .internal ∘ .checkTargetMount) (isMounted target)
  if mounted then return else mount

def prepareTarget (access : Option AccessType) (target : Name) : OnHost NodeStatus Unit :=
  if access = some .block then
    mapError (NodeStatus.mk .internal ∘ .ensureTargetFile) (runCommand (.ensureFile target))
  else mapError (NodeStatus.mk .internal ∘ .ensureTargetDir) (runCommand (.ensureDir target))

def publishNFS (req : PublishRequest) : OnHost NodeStatus Unit :=
  if req.nfsServer = [] ∨ req.nfsPath = [] then throw ⟨.invalidArgument, .missingNfsContext⟩
  else do
    prepareTarget (some .mount) req.targetPath
    mountTarget req.targetPath
      (mapError (NodeStatus.mk .internal ∘ .mountNfs req.nfsServer req.nfsPath req.targetPath)
        (nfsMount req.nfsServer req.nfsPath req.targetPath req.mountOptions req.readonly))

def NodeConfig.nodePublishVolume (cfg : NodeConfig) (req : PublishRequest) :
    OnHost NodeStatus Unit := do
  let id ← liftExcept ((parseVolumeID req.volumeId).mapError
    (NodeStatus.mk .invalidArgument ∘ .volumeId))
  match req.capability with
  | none => throw ⟨.invalidArgument, .capabilityRequired⟩
  | some access =>
    if req.targetPath = [] then throw ⟨.invalidArgument, .targetPathRequired⟩
    else if kindFromContext req.volumeKind = "nfs".toList then publishNFS req
    else
      let source ← cfg.publishSource id access req
      prepareTarget access req.targetPath
      mountTarget req.targetPath
        (mapError (NodeStatus.mk .internal ∘ .bindMount source req.targetPath)
          (bindMount source req.targetPath req.readonly))

def nodeUnpublishVolume (target : Name) : OnHost NodeStatus Unit :=
  if target = [] then throw ⟨.invalidArgument, .targetPathRequired⟩
  else mapError (NodeStatus.mk .internal ∘ .unmountTarget) (unmount target)

end NovaNas.Csi
