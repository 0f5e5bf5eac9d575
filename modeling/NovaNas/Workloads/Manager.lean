import Mathlib.Data.List.Sort
import NovaNas.Base.Cluster
import NovaNas.Base.Services
import NovaNas.Base.Text

/-!
# The workloads manager

Charts are installed as Helm releases. A release goes into the namespace the request names, or
else into the one that bears its name. Every later operation is given the name of the release
only and looks in the namespace that bears it; removing a release removes that namespace too.
-/
namespace NovaNas.Workloads

open Program

abbrev Name := List Char

/-- Values are what the YAML library reads; `none` stands for an empty map. -/
structure IndexEntry (V : Type) where
  chart : Name
  version : Name
  repoURL : Name
  defaultValues : Option V
  deriving DecidableEq, Repr

structure InstallRequest where
  indexName : Name
  releaseName : Name
  namespace_ : Name := []
  valuesYAML : Name := []
  deriving DecidableEq, Repr

structure HelmInstallRequest (V : Type) where
  releaseName : Name
  namespace_ : Name
  chartName : Name
  version : Name
  repoURL : Name
  values : Option V
  deriving DecidableEq, Repr

structure Release (V : Type) where
  name : Name
  namespace_ : Name
  chart : Name
  version : Name
  values : Option V
  deriving DecidableEq, Repr

def Release.key {V : Type} (rel : Release V) : Name × Name := (rel.namespace_, rel.name)

/-! ### Helm and Kubernetes -/

inductive HelmError where
  | notFound
  | alreadyExists
  /-- `cannot re-use a name that is still in use` -/
  | nameInUse
  | other (text : Name)
  deriving DecidableEq, Repr

inductive HelmCall (V : Type) where
  | getNamespace (ns : Name)
  | createNamespace (ns workload : Name)
  | deleteNamespace (ns : Name)
  /-- The releases of all namespaces. -/
  | list
  | get (ns name : Name)
  /-- Finding the chart, loading it and installing it. -/
  | install (req : HelmInstallRequest V)
  | uninstall (ns name : Name)
  deriving DecidableEq, Repr

abbrev Reply {V : Type} : HelmCall V → Type
  | .list => List (Release V)
  | .get .. | .install _ => Release V
  | .getNamespace _ | .createNamespace .. | .deleteNamespace _ | .uninstall .. => Unit

inductive Invalid where
  | indexNameRequired
  | releaseNameRequired
  | releaseNameLong
  | releaseNameMismatch
  | values (text : Name)
  | namespace_
  deriving DecidableEq, Repr

inductive Failure where
  | invalidArgument (what : Invalid)
  | notFound
  | alreadyExists
  | noCluster
  | helmList (err : HelmError)
  | helmGet (name : Name) (err : HelmError)
  | getNamespace (ns : Name) (err : HelmError)
  | createNamespace (ns : Name) (err : HelmError)
  | install (err : HelmError)
  | uninstall (err : HelmError)
  deriving DecidableEq, Repr

abbrev OnHelm (V : Type) := Attempt (HelmCall V) (fun q => Except HelmError (Reply q)) Failure

structure Manager (V : Type) where
  /-- There is a cluster to talk to. -/
  connected : Bool
  /-- The curated charts by name. -/
  index : Name → Option (IndexEntry V)
  parseValuesYAML : Name → Except Name (Option V)

variable {V : Type}

/-! ### The Helm client -/

def namespacePrefix : Name := "nova-app-".toList

/-- The releases in namespaces with the prefix, by name. -/
def managed (releases : List (Release V)) : List (Release V) :=
  (releases.filter fun rel => namespacePrefix.isPrefixOf rel.namespace_).insertionSort
    fun a b => String.ofList a.name ≤ String.ofList b.name

def Manager.helmList (m : Manager V) : OnHelm V (List (Release V)) :=
  if !m.connected then return []
  else do
    let releases : List (Release V) ← consult HelmCall.list Failure.helmList
    return managed releases

def Manager.helmGet (m : Manager V) (name : Name) : OnHelm V (Release V) :=
  if !m.connected then throw .noCluster
  else consult (HelmCall.get (namespacePrefix ++ name) name) fun err : HelmError =>
    if err = .notFound then Failure.notFound else .helmGet name err

def ensureNamespace (ns : Name) : OnHelm V Unit := do
  let found : Except HelmError Unit ← request (HelmCall.getNamespace ns)
  match found with
  | .ok () => return
  | .error .notFound =>
    let made : Except HelmError Unit ←
      request (HelmCall.createNamespace ns (ns.drop namespacePrefix.length))
    match made with
    | .ok () | .error .alreadyExists => return
    | .error err => throw (.createNamespace ns err)
  | .error err => throw (.getNamespace ns err)

def Manager.helmInstall (m : Manager V) (req : HelmInstallRequest V) : OnHelm V (Release V) :=
  if !m.connected then throw .noCluster
  else do
    ensureNamespace req.namespace_
    consult (HelmCall.install req) fun err : HelmError =>
      if err = .nameInUse then Failure.alreadyExists else .install err

def Manager.helmUninstall (m : Manager V) (name : Name) : OnHelm V Unit :=
  if !m.connected then throw .noCluster
  else do
    let ns := namespacePrefix ++ name
    let _ : Unit ← consult (HelmCall.uninstall ns name) fun err : HelmError =>
      if err = .notFound then Failure.notFound else .uninstall err
    -- Whether the namespace could be removed is not looked at.
    let _ : Except HelmError Unit ← request (HelmCall.deleteNamespace ns)
    return

/-! ### The manager -/

def invalid {α : Type} (what : Invalid) : Except Failure α := .error (.invalidArgument what)

/-- The characters from the byte `i` on, of `total` bytes. -/
def releaseNameChars (total : Nat) : Nat → Name → Except Failure Unit
  | _, [] => .ok ()
  | i, c :: rest =>
    if ('a' ≤ c ∧ c ≤ 'z') ∨ ('0' ≤ c ∧ c ≤ '9') ∨ (c = '-' ∧ 0 < i ∧ i < total - 1) then
      releaseNameChars total (i + c.utf8Size) rest
    else invalid .releaseNameMismatch

def validateReleaseName (name : Name) : Except Failure Unit :=
  let total := (name.map Char.utf8Size).sum
  if name = [] then invalid .releaseNameRequired
  else if total > 53 then invalid .releaseNameLong
  else releaseNameChars total 0 name

/-- The namespace a request asks for. -/
def InstallRequest.effectiveNamespace (req : InstallRequest) : Name :=
  let ns := Text.trimSpace req.namespace_
  if ns = [] then namespacePrefix ++ req.releaseName else ns

def Manager.plan (m : Manager V) (req : InstallRequest) :
    Except Failure (HelmInstallRequest V) := do
  if req.indexName = [] then invalid .indexNameRequired
  else
    validateReleaseName req.releaseName
    match m.index req.indexName with
    | none => .error .notFound
    | some entry =>
      let values ← (m.parseValuesYAML req.valuesYAML).mapError (.invalidArgument ∘ .values)
      let ns := req.effectiveNamespace
      if !namespacePrefix.isPrefixOf ns then invalid .namespace_
      else .ok {
        releaseName := req.releaseName
        namespace_ := ns
        chartName := entry.chart
        version := entry.version
        repoURL := entry.repoURL
        values := values.or entry.defaultValues }

def Manager.list (m : Manager V) : OnHelm V (List (Release V)) := m.helmList

def Manager.get (m : Manager V) (releaseName : Name) : OnHelm V (Release V) := do
  liftExcept (validateReleaseName releaseName)
  m.helmGet releaseName

def Manager.install (m : Manager V) (req : InstallRequest) : OnHelm V (Release V) := do
  let planned ← liftExcept (m.plan req)
  m.helmInstall planned

def Manager.uninstall (m : Manager V) (releaseName : Name) : OnHelm V Unit := do
  liftExcept (validateReleaseName releaseName)
  m.helmUninstall releaseName

end NovaNas.Workloads
