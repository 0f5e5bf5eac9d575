import NovaNas.Base.Cluster
import NovaNas.Base.Services
import NovaNas.Base.Text

/-!
# The VM manager

Creating a VM checks the request, fills in what it leaves open from a template, makes sure of the
namespace and creates the VM in it. The namespace is the VM's own one unless the request names
another one with the prefix. Deleting a VM deletes the namespace that bears its name as well.
-/
namespace NovaNas.Vms

open Program

abbrev Name := List Char

abbrev Labels := List (Name × Name)

/-! ### Requests -/

structure VMDisk where
  name : Name
  sizeGB : Int
  source : Name
  boot : Bool
  bus : Name
  storageClass : Name := []
  deriving DecidableEq, Repr

structure VMNetwork where
  name : Name
  type : Name
  deriving DecidableEq, Repr

structure VMCloudInit where
  user : Name := []
  password : Name := []
  sshKeys : List Name := []
  hostname : Name := []
  userData : Name := []
  deriving DecidableEq, Repr

structure VM where
  namespace_ : Name
  name : Name
  cpu : Int
  memoryMB : Int
  running : Bool
  disks : List VMDisk
  networks : List VMNetwork
  labels : Labels
  templateID : Name
  deriving DecidableEq, Repr

def VM.key (vm : VM) : Name × Name := (vm.namespace_, vm.name)

/-- What is read of a curated template. -/
structure Template where
  id : Name
  imageURL : Name
  defaultCPU : Int
  defaultMemoryMB : Int
  defaultDiskGB : Int
  requiresUserSuppliedISO : Bool
  deriving DecidableEq, Repr

structure CreateRequest where
  namespace_ : Name := []
  name : Name
  templateID : Name := []
  cpu : Int := 0
  memoryMB : Int := 0
  disks : List VMDisk := []
  networks : List VMNetwork := []
  cloudInit : VMCloudInit := {}
  startOnCreate : Bool := false
  labels : Labels := []
  deriving DecidableEq, Repr

structure Manager where
  namespacePrefix : Name := []
  templates : List Template := []
  deriving DecidableEq, Repr

/-! ### Kubernetes -/

inductive KubeError where
  | notFound
  | alreadyExists
  | other (text : Name)
  deriving DecidableEq, Repr

inductive KubeCall where
  | createNamespace (name : Name) (labels : Labels)
  | deleteNamespace (name : Name)
  | createVM (vm : VM) (cloudInit : VMCloudInit) (templateID : Name)
  | deleteVM (namespace_ name : Name)
  | setVMRunning (namespace_ name : Name) (running : Bool)
  deriving DecidableEq, Repr

abbrev Reply : KubeCall → Type
  | .createVM .. => VM
  | .createNamespace .. | .deleteNamespace _ | .deleteVM .. | .setVMRunning .. => Unit

abbrev OnKube := Attempt KubeCall (fun q => Except KubeError (Reply q))

inductive Invalid where
  | name (given : Name)
  | namespace_ ( required_prefix : Name)
  | unknownTemplate (id : Name)
  | isoRequired (template : Name)
  | cpu
  | memoryMB
  | noDisk
  | keyRequired
  deriving DecidableEq, Repr

inductive Failure where
  | invalidRequest (what : Invalid)
  | createNamespace (err : KubeError)
  | createVM (err : KubeError)
  | start (err : KubeError)
  | deleteVM (err : KubeError)
  | deleteNamespace (err : KubeError)
  deriving DecidableEq, Repr

def invalid {α : Type} (what : Invalid) : Except Failure α := .error (.invalidRequest what)

abbrev call (q : KubeCall) (wrap : KubeError → Failure) : OnKube Failure (Reply q) := consult q wrap

/-! ### Checks and defaults -/

def defaultNamespacePrefix : Name := "vm-".toList

def defaultBootDiskGB : Int := 20

def defaultDiskBus : Name := "virtio".toList

def Manager.nsPrefix (m : Manager) : Name :=
  if m.namespacePrefix ≠ [] then m.namespacePrefix else defaultNamespacePrefix

def isAlphanumeric (c : Char) : Bool := ('a' ≤ c && c ≤ 'z') || ('0' ≤ c && c ≤ '9')

/-- `^[a-z0-9]([-a-z0-9]{0,38}[a-z0-9])?$` -/
def vmNameRE : Name → Bool
  | [] => false
  | first :: rest => isAlphanumeric first &&
    match rest.getLast? with
    | none => true
    | some last => rest.length ≤ 39 && isAlphanumeric last &&
      rest.dropLast.all fun c => c == '-' || isAlphanumeric c

def validName (name : Name) : Except Failure Unit :=
  if vmNameRE name then .ok () else invalid (.name name)

def Manager.resolveNamespace (m : Manager) (req : CreateRequest) : Except Failure Name :=
  if req.namespace_ ≠ [] then
    if m.nsPrefix.isPrefixOf req.namespace_ then .ok req.namespace_
    else invalid (.namespace_ m.nsPrefix)
  else .ok (m.nsPrefix ++ req.name)

def Manager.resolveTemplate (m : Manager) (req : CreateRequest) :
    Except Failure (Option Template) :=
  if req.templateID ≠ [] then
    match m.templates.find? fun t => t.id = req.templateID with
    | none => invalid (.unknownTemplate req.templateID)
    | some t =>
      let haveBoot := req.disks.any fun d => d.boot && "url:".toList.isPrefixOf d.source
      if t.requiresUserSuppliedISO && !haveBoot then invalid (.isoRequired t.id)
      else .ok (some t)
  else .ok none

def withDefault (given : Int) (tmpl : Option Template) (default : Template → Int) (plain : Int) :
    Int :=
  if given ≤ 0 then (tmpl.map default).getD plain else given

/-- The boot disk of a cloud image, where the request has no disks. -/
def synthesizedDisks (req : CreateRequest) : Option Template → List VMDisk
  | some tmpl =>
    if req.disks = [] ∧ tmpl.imageURL ≠ [] then [{
      name := "rootdisk".toList
      sizeGB := tmpl.defaultDiskGB
      source := "template:".toList ++ tmpl.id
      boot := true
      bus := defaultDiskBus }]
    else req.disks
  | none => req.disks

def VMDisk.withDefaults (i : Nat) (d : VMDisk) : VMDisk :=
  { d with
    name := if d.name = [] then "disk".toList ++ Nat.toDigits 10 i else d.name
    sizeGB := if d.sizeGB ≤ 0 then defaultBootDiskGB else d.sizeGB
    bus := if d.bus = [] then defaultDiskBus else d.bus }

def withBootDisk (disks : List VMDisk) : List VMDisk :=
  if disks.any VMDisk.boot then disks
  else
    match disks with
    | [] => []
    | first :: rest => { first with boot := true } :: rest

def mergeLabels (a b : Labels) : Labels :=
  a.filter (fun (k, _) => !(b.map Prod.fst).contains k) ++ b

/-- The VM to create, with its cloud-init data. -/
def Manager.plan (m : Manager) (req : CreateRequest) : Except Failure (VM × VMCloudInit) := do
  validName req.name
  let ns ← m.resolveNamespace req
  let tmpl ← m.resolveTemplate req
  let cpu := withDefault req.cpu tmpl Template.defaultCPU 1
  let memoryMB := withDefault req.memoryMB tmpl Template.defaultMemoryMB 1024
  if cpu > 64 then invalid .cpu
  else if memoryMB > 256 * 1024 then invalid .memoryMB
  else
    let disks := synthesizedDisks req tmpl
    if disks = [] then invalid .noDisk
    else .ok ({
      namespace_ := ns
      name := req.name
      cpu
      memoryMB
      running := req.startOnCreate
      disks := withBootDisk (disks.mapIdx VMDisk.withDefaults)
      networks :=
        if req.networks = [] then [⟨"default".toList, "pod".toList⟩] else req.networks
      labels := mergeLabels req.labels [("novanas.io/vm".toList, req.name)]
      templateID := req.templateID },
      { req.cloudInit with
        hostname := if req.cloudInit.hostname = [] then req.name else req.cloudInit.hostname })

/-! ### Operations -/

def namespaceLabels (name : Name) : Labels := [
  ("novanas.io/managed".toList, "true".toList),
  ("novanas.io/component".toList, "vm".toList),
  ("novanas.io/vm".toList, name)]

def Manager.create (m : Manager) (req : CreateRequest) : OnKube Failure VM := do
  let (vm, cloudInit) ← liftExcept (m.plan req)
  call (.createNamespace vm.namespace_ (namespaceLabels req.name)) .createNamespace
  let out ← call (.createVM vm cloudInit req.templateID) .createVM
  if req.startOnCreate then
    call (.setVMRunning vm.namespace_ req.name true) .start
  return out

def Manager.delete (m : Manager) (namespace_ name : Name) : OnKube Failure Unit :=
  if namespace_ = [] ∨ name = [] then liftExcept (invalid .keyRequired)
  else do
    call (.deleteVM namespace_ name) .deleteVM
    -- The namespace is taken for the VM's own by its name.
    if namespace_ = m.nsPrefix ++ name then
      call (.deleteNamespace namespace_) .deleteNamespace

end NovaNas.Vms
