import NovaNas.Plugins.Needs
import NovaNas.Plugins.Resolver

/-!
# The plugin manager

Install, Upgrade and Uninstall as the calls they make. Every operation holds the lock of its
plugin; Install calls itself for the dependencies with its lock held, so a chain of calls carries
the names whose locks it holds. A lock is not reentrant: a chain that asks for a lock of its own
waits forever.
-/
namespace NovaNas.Plugins

structure Manager where
  semver : Semver
  /-- A Keycloak admin client is configured. -/
  keycloak : Bool
  /-- A deployer is wired. -/
  deployer : Bool

structure InstallRequest where
  name : String
  version : String
  marketplaceID : String
  deriving DecidableEq, Repr

structure Installation where
  name : String
  version : String
  manifest : Plugin
  status : String
  resources : List Resource
  installedDeps : List PlanStep
  deriving DecidableEq, Repr

def statusInstalled : String := "installed"

/-! ### Fetching -/

def fetchVerifiedTarball (name version marketplaceID : String) : Operation Package := do
  let (_, listed) ← orFail id (← ask (.findVersion name version marketplaceID))
  orFail id (← ask (.download listed))

variable (m : Manager)

/-- Fetches the root's manifest and plans. The manifest's name is not compared with the name asked
for here. -/
def planInstall (name version marketplaceID : String) : Operation (List PlanStep) := do
  let pkg ← fetchVerifiedTarball name version marketplaceID
  let extracted ← orFail id (← ask (.unpackTemp pkg))
  let manifest ← orFail id (parseManifest m.semver extracted.manifest)
  plan m.semver manifest

/-- What the flow shared by Install and Upgrade yields. -/
structure Provisioned where
  manifest : Plugin
  hasUI : Bool
  resources : List Resource

/-- Removes the tree and fails. -/
def abandon {α : Type} (name message : String) : Operation α := do
  ask (.removeAll name)
  throw message

def provisionManifest (name : String) (manifest : Plugin) (hasUI : Bool) :
    Operation Provisioned := do
  match ← Program.outcome (runNeeds m.keycloak name manifest.needs) with
  | .ok resources => return ⟨manifest, hasUI, resources⟩
  | .error err => abandon name ("plugins: needs: " ++ err)

def unpackProvision (name : String) (pkg : Package) : Operation Provisioned := do
  let extracted ← orFail id (← ask (.unpack name pkg))
  match parseManifest m.semver extracted.manifest with
  | .error err => abandon name err
  | .ok manifest =>
    if manifest.name ≠ name then
      abandon name
        ("plugins: manifest name " ++ quoted manifest.name ++ " != requested " ++ quoted name)
    else provisionManifest m name manifest extracted.hasUI

def fetchVerifyUnpackProvision (name version marketplaceID : String) : Operation Provisioned := do
  let pkg ← fetchVerifiedTarball name version marketplaceID
  ask (.removeAll name)
  unpackProvision m name pkg

/-! ### Steps shared by Install and Upgrade -/

/-- Adds the resources to the ledger; errors are ignored. -/
def recordResources (name : String) : List Resource → Operation Unit
  | [] => return ()
  | r :: rest => do
    ask (.addPluginResource name r)
    recordResources name rest

/-- Mounts the routes if there are any. An error is only logged. -/
def mountRoutes (name : String) (routes : List APIRoute) : Operation Unit :=
  if routes = [] then return ()
  else do
    let _ ← ask (.mount name routes)
    return ()

def registerUI (name : String) (hasUI : Bool) : Operation Unit :=
  if hasUI then ask (.register name) else return ()

def deploy (manifest : Plugin) : Operation (Option String) :=
  if m.deployer then ask (.deploy manifest) else return none

/-! ### Install -/

/-- Rolls back after the deployer failed. -/
def undoInstall {α : Type} (m : Manager) (name : String) (resources : List Resource)
    (err : String) : Operation α := do
  ask (.unmount name)
  ask (.deregister name)
  let _ ← ask (.deletePlugin name)
  let _ ← rollbackNeeds m.keycloak name resources
  abandon name ("plugins: deploy: " ++ err)

def startPlugin (name : String) (p : Provisioned) : Operation Unit := do
  recordResources name p.resources
  mountRoutes name p.manifest.routes
  registerUI name p.hasUI
  match ← deploy m p.manifest with
  | none => return ()
  | some err => undoInstall m name p.resources err

/-- Writes the row and starts the plugin. -/
def finishInstall (name : String) (p : Provisioned) : Operation Provisioned := do
  match ← ask (.createPlugin name ⟨p.manifest.version, p.manifest, statusInstalled, []⟩) with
  | some err =>
    let _ ← rollbackNeeds m.keycloak name p.resources
    abandon name ("plugins: persist: " ++ err)
  | none =>
    startPlugin m name p
    return p

/-- The part of Install after the dependencies. -/
def installRoot (req : InstallRequest) : Operation Provisioned := do
  finishInstall m req.name
    (← fetchVerifyUnpackProvision m req.name req.version req.marketplaceID)

/-- The step asks for an installation of another plugin. -/
def PlanStep.pending (step : PlanStep) (root : String) : Bool :=
  step.name ≠ root && step.action = .install

/-- How a chain of calls of Install ends without a result. -/
inductive Stop where
  | failed (message : String)
  /-- It waits for a lock that it holds itself. -/
  | blocked (name : String)
  /-- It is deeper than it was allowed to be. -/
  | exhausted
  deriving DecidableEq, Repr

abbrev Chain := Program.Attempt Call Call.Answer Stop

def ordinary {α : Type} (operation : Operation α) : Chain α :=
  Program.mapError Stop.failed operation

def Stop.wrap (text : String → String) : Stop → Stop
  | .failed message => .failed (text message)
  | stop => stop

def dependencyError (dependency root err : String) : String :=
  "plugins: install dependency " ++ quoted dependency ++ " for " ++ quoted root ++ ": " ++ err

/-- Installs the dependencies in the order of the plan. -/
def installDependencies (nested : InstallRequest → Chain Installation) (req : InstallRequest) :
    List PlanStep → Chain Unit
  | [] => return ()
  | step :: steps =>
    if !step.pending req.name then installDependencies nested req steps
    else do
      match ← ordinary (ask (.getPluginByName step.name)) with
      -- It appeared in the meantime, at whatever version.
      | some _ => installDependencies nested req steps
      | none =>
        let _ ← Program.mapError (Stop.wrap (dependencyError step.name req.name))
          (nested ⟨step.name, step.version, req.marketplaceID⟩)
        installDependencies nested req steps

def toInstallation (name : String) (p : Provisioned) (resources : List Resource)
    (deps : List PlanStep) : Installation :=
  ⟨name, p.manifest.version, p.manifest, statusInstalled, resources, deps⟩

/-- The part of Install before the dependencies. -/
def preparePlan (req : InstallRequest) : Operation (List PlanStep) := do
  let present : Option Row ← ask (.getPluginByName req.name)
  failWhen present.isSome "plugins: already installed"
  planInstall m req.name req.version req.marketplaceID

/-- `Install` in a chain of calls that holds the locks of the names in `held`. The number bounds
the depth of the recursion. -/
def install : Nat → List String → InstallRequest → Chain Installation
  | 0, _, _ => throw .exhausted
  | depth + 1, held, req =>
    if req.name = "" then throw (.failed "plugins: invalid argument: name is required")
    else if req.name ∈ held then throw (.blocked req.name)
    else do
      let steps ← ordinary (preparePlan m req)
      installDependencies (install depth (req.name :: held)) req steps
      let p ← ordinary (installRoot m req)
      return toInstallation req.name p p.resources (steps.filter (·.name ≠ req.name))

/-! ### Upgrade -/

/-- Rewrites the row and starts the new version. The resources stay when the row cannot be
written. -/
def finishUpgrade (name : String) (p : Provisioned) : Operation Installation := do
  match ← ask (.updatePlugin name p.manifest.version p.manifest statusInstalled) with
  | some err => abandon name ("plugins: persist: " ++ err)
  | none =>
    recordResources name p.resources
    mountRoutes name p.manifest.routes
    registerUI name p.hasUI
    let _ ← deploy m p.manifest
    return toInstallation name p [] []

def upgrade (name version : String) : Operation Installation := do
  let present : Option Row ← ask (.getPluginByName name)
  failWhen present.isNone "plugins: not found"
  finishUpgrade m name (← fetchVerifyUnpackProvision m name version "")

/-! ### Uninstall -/

structure UninstallOptions where
  purge : Bool
  force : Bool
  deriving DecidableEq, Repr

/-- The manifest names the plugin as a tier-2 dependency. -/
def Plugin.dependsOn (p : Plugin) (name : String) : Bool :=
  p.dependencies.any fun dep => dep.source = .tier2 && dep.name = name

def dependentsAmong (name : String) (rows : List (String × Row)) : List String :=
  (rows.filter fun (other, row) => other ≠ name && row.manifest.dependsOn name).map (·.1)

/-- The installed plugins that depend on this one, unless they cannot be listed. -/
def dependentsOf (name : String) : Operation (Option (List String)) := do
  let rows : Option (List (String × Row)) ← ask .listPlugins
  return rows.map (dependentsAmong name)

def undeploy (name : String) : Operation Unit :=
  if m.deployer then ask (.undeploy name) else return ()

def purgeResources (name : String) (purge : Bool) : Operation Unit :=
  if !purge then return ()
  else do
    match ← ask (.listPluginResources name) with
    | none => return ()
    | some resources =>
      let _ ← rollbackNeeds m.keycloak name resources
      return ()

/-- Takes the plugin down, up to its row. -/
def retire (name : String) (purge : Bool) : Operation Unit := do
  undeploy m name
  ask (.unmount name)
  ask (.deregister name)
  purgeResources m name purge
  ask (.removeAll name)

def uninstall (name : String) (opts : UninstallOptions) : Operation Unit := do
  let present : Option Row ← ask (.getPluginByName name)
  failWhen present.isNone "plugins: not found"
  let dependents ← dependentsOf name
  failWhen (dependents.getD [] ≠ [] ∧ opts.force = false)
    ("plugins: " ++ quoted name ++ " has dependents: " ++ ", ".intercalate (dependents.getD []))
  retire m name opts.purge
  check ("plugins: db delete: " ++ ·) (← ask (.deletePlugin name))

/-! ### The calls of the steps -/

open Program (Calls calls_bind)

variable {m : Manager} {name : String} {p : Call → Prop}

theorem calls_abandon {α : Type} {message : String} (removes : p (.removeAll name)) :
    Calls p (abandon (α := α) name message) :=
  calls_bind (calls_ask removes) fun _ => trivial

theorem calls_recordResources (adds : ∀ r, p (.addPluginResource name r))
    {resources : List Resource} : Calls p (recordResources name resources) := by
  induction resources with
  | nil => trivial
  | cons r rest ih => exact calls_bind (calls_ask (adds r)) fun _ => ih

theorem calls_mountRoutes {routes : List APIRoute} (mounts : p (.mount name routes)) :
    Calls p (mountRoutes name routes) := by
  rw [mountRoutes]
  split
  · trivial
  · exact calls_bind (calls_ask mounts) fun _ => trivial

theorem calls_registerUI {hasUI : Bool} (registers : p (.register name)) :
    Calls p (registerUI name hasUI) := by
  rw [registerUI]
  split
  · exact calls_ask registers
  · trivial

theorem calls_deploy {manifest : Plugin} (deploys : p (.deploy manifest)) :
    Calls p (deploy m manifest) := by
  rw [deploy]
  split
  · exact calls_ask deploys
  · trivial

theorem calls_undeploy (undeploys : p (.undeploy name)) : Calls p (undeploy m name) := by
  rw [undeploy]
  split
  · exact calls_ask undeploys
  · trivial

end NovaNas.Plugins
