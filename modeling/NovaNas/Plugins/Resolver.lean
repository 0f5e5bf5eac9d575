import NovaNas.Plugins.Calls

/-!
# The dependency resolver

Turns the dependencies that a manifest declares into a list of steps, the root last. It looks at
the direct dependencies only: those of a dependency are found when the dependency is installed.
The order of the steps and the map of resolved names are one list here, since a name enters both
at once.
-/
namespace NovaNas.Plugins

inductive PlanAction where
  | install | skip | bundled
  deriving DecidableEq, Repr

structure PlanStep where
  name : String
  version : String
  source : DependencySource
  action : PlanAction
  constraint : String
  deriving DecidableEq, Repr

/-! ### Constraints -/

def constraintSatisfied (semver : Semver) (constraint ver : String) : Bool :=
  if isBlank constraint then true
  else if (semver.constraintError constraint).isSome then false
  else if !semver.isVersion ver then false
  else semver.check constraint ver

def filterEmpty (constraints : List String) : List String := constraints.filter (!isBlank ·)

def joinConstraints (constraints : List String) : String :=
  ",".intercalate (filterEmpty constraints)

/-- The version is a candidate under the constraints. -/
def admits (semver : Semver) (constraints : List String) (ver : String) : Bool :=
  semver.isVersion ver &&
    (filterEmpty constraints = [] || semver.check (joinConstraints constraints) ver)

def highest (semver : Semver) (constraints : List String) (best : Option String) :
    List IndexVersion → Option String
  | [] => best
  | v :: versions =>
    if !admits semver constraints v.version then highest semver constraints best versions
    else
      match best with
      | none => highest semver constraints (some v.version) versions
      | some b =>
        highest semver constraints
          (some (if semver.greaterThan v.version b then v.version else b)) versions

def pickHighestSatisfying (semver : Semver) (versions : List IndexVersion)
    (constraints : List String) : Except String String :=
  match if filterEmpty constraints = [] then none
    else semver.constraintError (joinConstraints constraints) with
  | some err =>
    .error ("invalid constraint " ++ quoted (joinConstraints constraints) ++ ": " ++ err)
  | none =>
    match highest semver constraints none versions with
    | some picked => .ok picked
    | none => .error ("no version satisfies " ++ joinConstraints constraints)

def formatConstraint (constraint : String) : String :=
  if isBlank constraint then "(any version)" else constraint

/-! ### The walk -/

structure ResolveState where
  steps : List PlanStep
  /-- The constraints met so far, each with the dependency it is for. -/
  constraints : List (String × String)
  deriving Repr

def ResolveState.start : ResolveState := ⟨[], []⟩

def ResolveState.constraintsOf (st : ResolveState) (name : String) : List String :=
  (st.constraints.filter (·.1 = name)).map (·.2)

def ResolveState.stepFor (st : ResolveState) (name : String) : Option PlanStep :=
  st.steps.find? (·.name = name)

def ResolveState.add (st : ResolveState) (step : PlanStep) : ResolveState :=
  { st with steps := st.steps ++ [step] }

def ResolveState.constrain (st : ResolveState) (dep : Dependency) : ResolveState :=
  { st with constraints := st.constraints ++ [(dep.name, dep.versionConstraint)] }

/-- A bundled dependency is recorded once. -/
def ResolveState.bundle (st : ResolveState) (dep : Dependency) : ResolveState :=
  match st.stepFor dep.name with
  | some _ => st
  | none => st.add ⟨dep.name, "", .bundled, .bundled, dep.versionConstraint⟩

def errUnsatisfiable : String := "plugins: dependency version unsatisfiable"

def errCycle : String := "plugins: dependency cycle"

/-- A dependency that is installed already is skipped if its version will do. -/
def ResolveState.keep (st : ResolveState) (semver : Semver) (root : String) (dep : Dependency)
    (cur : String) : Except String ResolveState :=
  if !constraintSatisfied semver dep.versionConstraint cur then
    .error (errUnsatisfiable ++ ": plugin " ++ quoted root ++ " requires " ++ quoted dep.name ++
      " " ++ formatConstraint dep.versionConstraint ++ "; " ++ dep.name ++ "@" ++ cur ++
      " is currently installed; upgrade or remove " ++ dep.name ++ " first")
  else
    match st.stepFor dep.name with
    | none => .ok (st.add ⟨dep.name, cur, .tier2, .skip, dep.versionConstraint⟩)
    | some existing =>
      if existing.action = .skip ∧
          !constraintSatisfied semver dep.versionConstraint existing.version then
        .error (errUnsatisfiable ++ ": " ++ quoted dep.name ++ " version " ++ existing.version ++
          " does not satisfy combined constraints")
      else .ok st

/-- A dependency that has to be installed gets the version picked. -/
def ResolveState.choose (st : ResolveState) (semver : Semver) (dep : Dependency)
    (picked : String) : ResolveState :=
  match st.stepFor dep.name with
  | none =>
    st.add ⟨dep.name, picked, .tier2, .install, joinConstraints (st.constraintsOf dep.name)⟩
  | some existing =>
    if existing.action = .install ∧
        !constraintSatisfied semver dep.versionConstraint existing.version then
      { st with
        steps := st.steps.map fun step =>
          if step.name = dep.name then
            { step with
              version := picked
              constraint := joinConstraints (st.constraintsOf dep.name) }
          else step }
    else st

/-- One round of the loop of `walk`. -/
def resolveDependency (semver : Semver) (root : Plugin) (st : ResolveState) (dep : Dependency) :
    Operation ResolveState :=
  match dep.source with
  | .bundled => return st.bundle dep
  | .other text =>
    throw ("plugins: resolver: " ++ quoted dep.name ++ ": unknown dependency source " ++
      quoted text)
  | .tier2 => do
    failWhen (dep.name = root.name) (errCycle ++ ": " ++ dep.name ++ " self-references")
    let st := st.constrain dep
    match ← ask (.getPluginByName dep.name) with
    | some row => orFail (fun err => err) (st.keep semver root.name dep row.version)
    | none =>
      let (plugin, _) ←
        orFail (("plugins: resolver: marketplace lookup " ++ quoted dep.name ++ ": ") ++ ·)
          (← ask (.findVersion dep.name "" ""))
      let picked ← orFail (("plugins: resolver: " ++ quoted dep.name ++ ": ") ++ ·)
        (pickHighestSatisfying semver plugin.versions (st.constraintsOf dep.name))
      return st.choose semver dep picked

def walk (semver : Semver) (root : Plugin) : List Dependency → ResolveState → Operation ResolveState
  | [], st => return st
  | dep :: deps, st => do walk semver root deps (← resolveDependency semver root st dep)

/-- `Resolver.Plan` -/
def plan (semver : Semver) (root : Plugin) : Operation (List PlanStep) := do
  let st ← walk semver root root.dependencies .start
  return st.steps ++ [⟨root.name, root.version, .tier2, .install, ""⟩]

end NovaNas.Plugins
