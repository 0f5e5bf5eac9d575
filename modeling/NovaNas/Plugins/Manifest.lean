import NovaNas.Base.Regex
import NovaNas.Base.Text

/-!
# Plugin manifests

The resource a plugin's author writes, and the checks it must pass. The YAML decoder has already
read it into a value; a block that is missing there has empty fields, or is none in a need.
-/
namespace NovaNas.Plugins

/-- What the engine uses of the semantic version library, on the texts it is called with. -/
structure Semver where
  isVersion : String → Bool
  greaterThan : String → String → Bool
  /-- The error of `NewConstraint`. -/
  constraintError : String → Option String
  /-- `Check` of a constraint and a version that parse. -/
  check : (constraint version : String) → Bool

/-! ### The resource -/

inductive Category where
  | storage | networking | observability | developer | utility
  | other (text : String)
  deriving DecidableEq, Repr

inductive DisplayCategory where
  | unset
  | backup | files | multimedia | photos | productivity | security | communication | home
  | developer | network | storage | surveillance | utilities | observability
  | other (text : String)
  deriving DecidableEq, Repr

inductive DeploymentType where
  | helm | systemd
  | other (text : String)
  deriving DecidableEq, Repr

structure Deployment where
  type : DeploymentType
  chart : String := ""
  namespace_ : String := ""
  unit : String := ""
  deriving DecidableEq, Repr

inductive AuthMode where
  | bearerPassthrough | serviceToken
  | other (text : String)
  deriving DecidableEq, Repr

structure APIRoute where
  path : String
  upstream : String
  scopes : List String
  auth : AuthMode
  deriving DecidableEq, Repr

inductive DependencySource where
  | tier2 | bundled
  | other (text : String)
  deriving DecidableEq, Repr

structure Dependency where
  name : String
  versionConstraint : String
  source : DependencySource
  deriving DecidableEq, Repr

structure DatasetNeed where
  pool : String := ""
  name : String := ""
  properties : List (String × String) := []
  deriving DecidableEq, Repr

structure OIDCClientNeed where
  clientID : String := ""
  redirects : List String := []
  isPublic : Bool := false
  deriving DecidableEq, Repr

structure TLSCertNeed where
  commonName : String := ""
  dnsNames : List String := []
  ips : List String := []
  ttlDays : Int := 0
  deriving DecidableEq, Repr

structure PermissionNeed where
  role : String := ""
  description : String := ""
  deriving DecidableEq, Repr

inductive NeedKind where
  | dataset | oidcClient | tlsCert | permission
  | other (text : String)
  deriving DecidableEq, Repr

structure Need where
  kind : NeedKind
  dataset : Option DatasetNeed := none
  oidcClient : Option OIDCClientNeed := none
  tlsCert : Option TLSCertNeed := none
  permission : Option PermissionNeed := none
  deriving DecidableEq, Repr

structure UIWindow where
  name : String := ""
  icon : String := ""
  route : String := ""
  bundle : String := ""
  deriving DecidableEq, Repr

structure Health where
  path : String := ""
  intervalSeconds : Int := 0
  timeoutSeconds : Int := 0
  deriving DecidableEq, Repr

structure Lifecycle where
  preInstall : String := ""
  postInstall : String := ""
  preUninstall : String := ""
  deriving DecidableEq, Repr

structure Plugin where
  apiVersion : String
  kind : String
  name : String
  version : String
  vendor : String
  signature : String := ""
  description : String
  category : Category
  displayCategory : DisplayCategory
  tags : List String
  icon : String := ""
  deployment : Deployment
  needs : List Need
  dependencies : List Dependency
  routes : List APIRoute
  window : UIWindow := {}
  health : Health := {}
  lifecycle : Lifecycle := {}
  deriving DecidableEq, Repr

/-! ### Texts of the fields -/

def Category.text : Category → String
  | .storage => "storage"
  | .networking => "networking"
  | .observability => "observability"
  | .developer => "developer"
  | .utility => "utility"
  | .other text => text

def NeedKind.text : NeedKind → String
  | .dataset => "dataset"
  | .oidcClient => "oidcClient"
  | .tlsCert => "tlsCert"
  | .permission => "permission"
  | .other text => text

/-- The verb `%q`, for texts in which nothing has to be escaped. -/
def quoted (s : String) : String := "\"" ++ s ++ "\""

/-- `strings.TrimSpace(s) == ""` -/
def isBlank (s : String) : Bool := s.toList.all Text.isSpace

/-! ### Patterns -/

def isLowerAlnum (c : Char) : Bool := ('a' ≤ c && c ≤ 'z') || ('0' ≤ c && c ≤ '9')

def isLowerAlnumDash (c : Char) : Bool := isLowerAlnum c || c == '-'

def nameRE : String := "^[a-z0-9]([a-z0-9-]\x7b0,38\x7d[a-z0-9])?$"

def matchesName (s : String) : Bool :=
  match s.toList with
  | [] => false
  | first :: rest =>
    isLowerAlnum first &&
      match rest.reverse with
      | [] => true
      | last :: middle =>
        isLowerAlnum last && middle.all isLowerAlnumDash && decide (middle.length ≤ 38)

def isVersionDigit (c : Char) : Bool := '0' ≤ c && c ≤ '9'

def isVersionLabel (c : Char) : Bool :=
  isVersionDigit c || ('A' ≤ c && c ≤ 'Z') || ('a' ≤ c && c ≤ 'z') || c == '.' || c == '-'

def versionRE : Regex Char :=
  .all [.opt (.one (· == 'v')), .plus isVersionDigit, .one (· == '.'), .plus isVersionDigit,
    .one (· == '.'), .plus isVersionDigit, .opt (.seq (.one (· == '-')) (.plus isVersionLabel)),
    .opt (.seq (.one (· == '+')) (.plus isVersionLabel))]

def matchesVersion (s : String) : Bool :=
  (versionRE.run (fun rest => if rest.isEmpty then some () else none) s.toList).isSome

def tagRE : String := "^[a-z0-9][a-z0-9-]*$"

def matchesTag (s : String) : Bool :=
  match s.toList with
  | [] => false
  | first :: rest => isLowerAlnum first && rest.all isLowerAlnumDash

/-! ### Validation -/

def currentAPIVersion : String := "novanas.io/v1"

def maxTags : Nat := 16

def maxTagLength : Nat := 32

/-- `privilegedNeedsByCategory` -/
def Category.mayClaim : Category → NeedKind → Bool
  | _, .other _ => false
  | .storage, _ => true
  | .networking, kind | .observability, kind => kind ≠ .dataset
  | .developer, kind => kind = .oidcClient || kind = .permission
  | .utility, kind => kind = .permission
  | .other _, _ => false

/-- The message if the condition does not hold. -/
def require (condition : Bool) (message : String) : List String :=
  if condition then [] else [message]

def field (list : String) (i : Nat) : String := "spec." ++ list ++ "[" ++ toString i ++ "]"

def checkTag (i : Nat) (tag : String) : List String :=
  if tag.utf8ByteSize > maxTagLength then
    [field "tags" i ++ ": max " ++ toString maxTagLength ++ " chars, got " ++
      toString tag.utf8ByteSize]
  else
    require (matchesTag tag) (field "tags" i ++ ": must match " ++ tagRE ++ ", got " ++ quoted tag)

def checkDeployment (deployment : Deployment) : List String :=
  match deployment.type with
  | .helm => require (deployment.chart ≠ "") "spec.deployment.chart: required when type=helm"
  | .systemd => require (deployment.unit ≠ "") "spec.deployment.unit: required when type=systemd"
  | .other text => ["spec.deployment.type: must be helm or systemd, got " ++ quoted text]

def checkNeed (category : Category) (i : Nat) (need : Need) : List String :=
  if !category.mayClaim need.kind then
    [field "needs" i ++ ": category " ++ quoted category.text ++ " may not claim " ++
      quoted need.kind.text]
  else
    match need.kind with
    | .dataset =>
      require (need.dataset.any fun n => n.pool ≠ "" && n.name ≠ "")
        (field "needs" i ++ ".dataset: pool+name required")
    | .oidcClient =>
      require (need.oidcClient.any (·.clientID ≠ ""))
        (field "needs" i ++ ".oidcClient: clientId required")
    | .tlsCert =>
      require (need.tlsCert.any (·.commonName ≠ ""))
        (field "needs" i ++ ".tlsCert: commonName required")
    | .permission =>
      require (need.permission.any (·.role ≠ "")) (field "needs" i ++ ".permission: role required")
    | .other kind => [field "needs" i ++ ".kind: unknown " ++ quoted kind]

def checkRoute (i : Nat) (route : APIRoute) : List String :=
  require (route.path.toList.head? = some '/') (field "api.routes" i ++ ".path: must start with /") ++
  require (route.upstream ≠ "") (field "api.routes" i ++ ".upstream: required") ++
  match route.auth with
  | .bearerPassthrough | .serviceToken => []
  | .other _ => [field "api.routes" i ++ ".auth: must be bearer-passthrough or service-token"]

def checkDependency (semver : Semver) (plugin : String) (i : Nat) (dep : Dependency) :
    List String :=
  require (matchesName dep.name) (field "dependencies" i ++ ".name: must match " ++ nameRE) ++
  (match dep.source with
    | .tier2 | .bundled => []
    | .other text =>
      [field "dependencies" i ++ ".source: must be tier-2 or bundled, got " ++ quoted text]) ++
  (if dep.versionConstraint = "" then []
    else
      match semver.constraintError dep.versionConstraint with
      | none => []
      | some err => [field "dependencies" i ++ ".versionConstraint: " ++ err]) ++
  require (dep.name ≠ plugin) (field "dependencies" i ++ ": a plugin cannot depend on itself")

/-- The errors of a list's entries, each with its index. -/
def checkEach {α : Type} (check : Nat → α → List String) (entries : List α) : List String :=
  entries.zipIdx.flatMap fun (entry, i) => check i entry

/-- The errors that `Validate` joins. -/
def Plugin.problems (semver : Semver) (p : Plugin) : List String :=
  require (p.apiVersion = currentAPIVersion)
    ("apiVersion: want " ++ quoted currentAPIVersion ++ ", got " ++ quoted p.apiVersion) ++
  require (p.kind = "Plugin") ("kind: want " ++ quoted "Plugin" ++ ", got " ++ quoted p.kind) ++
  require (matchesName p.name) ("metadata.name: must match " ++ nameRE) ++
  require (matchesVersion p.version) "metadata.version: must be SemVer" ++
  require (!isBlank p.vendor) "metadata.vendor: required" ++
  require (!isBlank p.description) "spec.description: required" ++
  (match p.category with
    | .other text => ["spec.category: invalid " ++ quoted text]
    | _ => []) ++
  (match p.displayCategory with
    | .other text => ["spec.displayCategory: invalid " ++ quoted text]
    | _ => []) ++
  require (p.tags.length ≤ maxTags)
    ("spec.tags: max " ++ toString maxTags ++ " tags, got " ++ toString p.tags.length) ++
  checkEach checkTag p.tags ++
  checkDeployment p.deployment ++
  checkEach (checkNeed p.category) p.needs ++
  checkEach checkRoute p.routes ++
  checkEach (checkDependency semver p.name) p.dependencies ++
  require (p.window.bundle = "" || (p.window.name ≠ "" && p.window.route ≠ ""))
    "spec.ui.window: name+route required when bundle is set"

def Plugin.validate (semver : Semver) (p : Plugin) : Except String Unit :=
  match p.problems semver with
  | [] => .ok ()
  | problems => .error ("\n".intercalate problems)

def defaultDisplayCategoryFor : Category → DisplayCategory
  | .storage => .storage
  | .networking => .network
  | .observability => .observability
  | .developer => .developer
  | .utility => .utilities
  | .other _ => .unset

/-- The contents of a file, as the YAML decoder reads them. -/
abbrev Document := Except String Plugin

def parseManifest (semver : Semver) (document : Document) : Except String Plugin :=
  match document with
  | .error err => .error ("plugins: yaml: " ++ err)
  | .ok p =>
    let p :=
      if p.displayCategory = .unset then
        { p with displayCategory := defaultDisplayCategoryFor p.category }
      else p
    (p.validate semver).map fun _ => p

/-! ### What an accepted manifest is known to be -/

variable {semver : Semver} {p : Plugin}

theorem require_nil {condition : Bool} {message : String} :
    require condition message = [] ↔ condition = true := by
  cases condition <;> simp [require]

theorem checkEach_nil {α : Type} {check : Nat → α → List String} {entries : List α}
    (none : checkEach check entries = []) {entry : α} (member : entry ∈ entries) :
    ∃ i, check i entry = [] := by
  obtain ⟨i, bound, rfl⟩ := List.mem_iff_getElem.mp member
  refine ⟨i, List.flatMap_eq_nil_iff.mp none (entries[i], i) ?_⟩
  exact List.mem_zipIdx_iff_getElem?.mpr (List.getElem?_eq_getElem bound)

theorem validate_ok {result : Unit} (ok : p.validate semver = .ok result) :
    p.problems semver = [] := by
  rw [Plugin.validate] at ok
  split at ok
  next none => exact none
  next => cases ok

theorem parseManifest_valid {document : Document}
    (parsed : parseManifest semver document = .ok p) : p.problems semver = [] := by
  cases document with
  | error err => cases parsed
  | ok decoded =>
    simp only [parseManifest] at parsed
    generalize (if decoded.displayCategory = .unset then _ else _ : Plugin) = filled at parsed
    cases validated : filled.validate semver with
    | error err =>
      rw [validated] at parsed
      cases parsed
    | ok =>
      rw [validated] at parsed
      cases parsed
      exact validate_ok validated

theorem parseManifest_filled {manifest : Plugin} (filled : p.displayCategory ≠ .unset)
    (parsed : parseManifest semver (.ok p) = .ok manifest) : manifest = p := by
  rw [parseManifest, if_neg filled] at parsed
  cases valid : p.validate semver with
  | ok _ =>
    rw [valid] at parsed
    cases parsed
    rfl
  | error err =>
    rw [valid] at parsed
    cases parsed

theorem valid_dependency (valid : p.problems semver = []) {dep : Dependency}
    (member : dep ∈ p.dependencies) :
    matchesName dep.name = true ∧ (dep.source = .tier2 ∨ dep.source = .bundled) ∧
      dep.name ≠ p.name := by
  simp only [Plugin.problems, List.append_eq_nil_iff] at valid
  obtain ⟨i, clean⟩ := checkEach_nil valid.1.2 member
  simp only [checkDependency, List.append_eq_nil_iff, require_nil, decide_eq_true_eq] at clean
  obtain ⟨⟨⟨named, source⟩, -⟩, other⟩ := clean
  refine ⟨named, ?_, by simpa using other⟩
  cases eq : dep.source with
  | tier2 => exact .inl rfl
  | bundled => exact .inr rfl
  | other text => simp [eq] at source

end NovaNas.Plugins
