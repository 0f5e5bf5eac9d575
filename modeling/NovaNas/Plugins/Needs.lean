import NovaNas.Plugins.Calls

/-!
# Needs of a plugin

The provisioners of the four kinds of needs, how a list of needs is fulfilled and how resources
are given back. The dataset and certificate provisioners are always wired; those that talk to
Keycloak only where an admin client is configured.
-/
namespace NovaNas.Plugins

/-! ### Resource ids -/

def resourceID (tag plugin what : String) : String := tag ++ ":" ++ plugin ++ "/" ++ what

/-- The plugin ends at the first slash. -/
def parseResourceID (tag id : String) : Option (String × String) :=
  let start := (tag ++ ":").toList
  if start <+: id.toList then
    (Text.cut '/' (id.toList.drop start.length)).map fun (plugin, what) =>
      (String.ofList plugin, String.ofList what)
  else none

def datasetResourceID : (plugin full : String) → String := resourceID "dataset"

def parseDatasetResourceID : String → Option (String × String) := parseResourceID "dataset"

def oidcResourceID : (plugin clientID : String) → String := resourceID "oidcclient"

def parseOIDCResourceID : String → Option (String × String) := parseResourceID "oidcclient"

def tlsResourceID : (plugin cn : String) → String := resourceID "tlscert"

def parseTLSResourceID : String → Option (String × String) := parseResourceID "tlscert"

def permissionResourceID : (plugin role : String) → String := resourceID "permission"

def parsePermissionResourceID : String → Option (String × String) := parseResourceID "permission"

/-! ### Datasets -/

def DatasetNeed.full (n : DatasetNeed) : String := n.pool ++ "/" ++ n.name

variable (keycloak : Bool) (plugin : String)

def provisionDataset (n : DatasetNeed) : Operation String := do
  failWhen (n.pool = "" ∨ n.name = "") "plugins: dataset need: pool+name required"
  match ← ask (.getDataset n.full) with
  -- A dataset that is there already gets the id that a new one would get.
  | .found => return datasetResourceID plugin n.full
  | .failed err => throw ("plugins: dataset probe " ++ quoted n.full ++ ": " ++ err)
  | .notFound =>
    check (("plugins: dataset create " ++ quoted n.full ++ ": ") ++ ·)
      (← ask (.createDataset n.full n.properties))
    return datasetResourceID plugin n.full

def unprovisionDataset (id : String) : Operation Unit := do
  match parseDatasetResourceID id with
  | none => throw ("plugins: bad dataset resource id " ++ quoted id)
  | some (_, full) =>
    match ← ask (.getDataset full) with
    | .notFound => return ()
    | _ =>
      check (("plugins: dataset destroy " ++ quoted full ++ ": ") ++ ·)
        (← ask (.destroyDataset full))

/-! ### OIDC clients -/

def ensureClient (n : OIDCClientNeed) : Operation Unit := do
  if ← orFail id (← ask (.findClient n.clientID)) then return ()
  else
    check ("plugins: keycloak create client: " ++ ·) (← ask (.createClient n))
    let created ← orFail ("plugins: keycloak create client: lookup post-create: " ++ ·)
      (← ask (.findClient n.clientID))
    failWhen (!created) "plugins: keycloak create client: lookup post-create: <nil>"

def renewSecret (n : OIDCClientNeed) : Operation Unit :=
  if n.isPublic then return ()
  else do
    check ("plugins: keycloak rotate secret: " ++ ·) (← ask (.rotateSecret n.clientID))
    let value ← orFail ("plugins: keycloak get secret: " ++ ·) (← ask (.readSecret n.clientID))
    if value = "" then return ()
    else check ("plugins: store oidc secret: " ++ ·) (← ask (.storeSecret plugin value))

def provisionOIDCClient (n : OIDCClientNeed) : Operation String := do
  failWhen (n.clientID = "") "plugins: oidc need: clientId required"
  ensureClient n
  renewSecret plugin n
  ask (.rememberClientID plugin n.clientID)
  return oidcResourceID plugin n.clientID

def unprovisionOIDCClient (plugin id : String) : Operation Unit := do
  match parseOIDCResourceID id with
  | none => throw ("plugins: bad oidc resource id " ++ quoted id)
  | some (_, clientID) =>
    if ← orFail (fun err => err) (← ask (.findClient clientID)) then
      check ("plugins: keycloak delete client: " ++ ·) (← ask (.deleteClient clientID))
      ask (.deleteSecret plugin)
    else ask (.deleteSecret plugin)

/-! ### Certificates -/

def provisionTLSCert (n : TLSCertNeed) : Operation String := do
  failWhen (n.commonName = "") "plugins: tlsCert need: commonName required"
  let reuse : Bool ← ask (.certsExist plugin)
  if reuse then return tlsResourceID plugin n.commonName
  else
    check ("plugins: tlsCert issue: " ++ ·) (← ask (.issueCert plugin n))
    return tlsResourceID plugin n.commonName

def unprovisionTLSCert (plugin id : String) : Operation Unit := do
  match parseTLSResourceID id with
  | none => throw ("plugins: bad tlsCert resource id " ++ quoted id)
  | some (owner, _) =>
    failWhen (owner ≠ plugin) ("plugins: bad tlsCert resource id " ++ quoted id)
    ask (.removeCerts plugin)

/-! ### Permissions -/

/-- The client whose service account gets the roles: the last one provisioned for the plugin, or
the one with the plugin's name. -/
def clientIDFor : Operation String := do
  let clientID : String ← ask (.lookupClientID plugin)
  return if clientID = "" then plugin else clientID

def provisionPermission (n : PermissionNeed) : Operation String := do
  failWhen (n.role = "") "plugins: permission need: role required"
  let known ← orFail id (← ask (.findRealmRole n.role))
  failWhen (!known) ("plugins: realm role " ++ quoted n.role ++ " not found")
  let clientID ← clientIDFor plugin
  check id (← ask (.serviceAccount clientID))
  if ← orFail id (← ask (.hasRealmRole clientID n.role)) then
    return permissionResourceID plugin n.role
  else
    check ("plugins: keycloak bind role: " ++ ·) (← ask (.bindRole clientID n.role))
    return permissionResourceID plugin n.role

def unprovisionPermission (plugin id : String) : Operation Unit := do
  match parsePermissionResourceID id with
  | none => throw ("plugins: bad permission resource id " ++ quoted id)
  | some (_, role) =>
    match ← ask (.findRealmRole role) with
    | .error _ | .ok false => return ()
    | .ok true =>
      let clientID ← clientIDFor plugin
      match ← ask (.serviceAccount clientID) with
      -- The service account went with the client: nothing to unbind.
      | some _ => return ()
      | none => check ("plugins: keycloak unbind role: " ++ ·) (← ask (.unbindRole clientID role))

/-! ### Lists of needs -/

def provision (i : Nat) (need : Need) : Operation String :=
  match need.kind with
  -- The checks of the manifest have found the block of the kind.
  | .dataset => provisionDataset plugin (need.dataset.getD {})
  | .oidcClient =>
    if keycloak then provisionOIDCClient plugin (need.oidcClient.getD {})
    else throw "plugins: oidc provisioner not configured"
  | .tlsCert => provisionTLSCert plugin (need.tlsCert.getD {})
  | .permission =>
    if keycloak then provisionPermission plugin (need.permission.getD {})
    else throw "plugins: permission provisioner not configured"
  | .other kind => throw ("plugins: needs[" ++ toString i ++ "]: unknown kind " ++ quoted kind)

def unprovision (r : Resource) : Operation Unit :=
  match r.kind with
  | .dataset => unprovisionDataset r.id
  | .oidcClient =>
    if keycloak then unprovisionOIDCClient plugin r.id
    else throw "plugins: oidc provisioner not configured"
  | .tlsCert => unprovisionTLSCert plugin r.id
  | .permission =>
    if keycloak then unprovisionPermission plugin r.id
    else throw "plugins: permission provisioner not configured"
  | .other _ => return ()

/-- Gives the resources back one after the other and collects the errors. -/
def unprovisionAll : List Resource → Operation (List String)
  | [] => return []
  | r :: rest => do
    match ← Program.outcome (unprovision keycloak plugin r) with
    | .ok _ => unprovisionAll rest
    | .error err => return err :: (← unprovisionAll rest)

/-- The last resource is given back first. -/
def rollbackNeeds (done : List Resource) : Operation (List String) :=
  unprovisionAll keycloak plugin done.reverse

def runNeedsFrom (done : List Resource) (i : Nat) : List Need → Operation (List Resource)
  | [] => return done
  | need :: needs => do
    match ← Program.outcome (provision keycloak plugin i need) with
    | .ok id => runNeedsFrom (done ++ [⟨need.kind, id⟩]) (i + 1) needs
    | .error err =>
      match ← rollbackNeeds keycloak plugin done with
      | [] => throw err
      | errs => throw (err ++ " (rollback also failed: " ++ "\n".intercalate errs ++ ")")

def runNeeds (needs : List Need) : Operation (List Resource) :=
  runNeedsFrom keycloak plugin [] 0 needs

/-! ### The calls of the provisioners -/

open Program (Calls calls_bind)

variable {plugin id : String}

/-- A call to Keycloak, the secrets backend or the plugin's certificates. -/
def Call.provisioning (plugin : String) : Call → Prop
  | .findClient _ | .createClient _ | .rotateSecret _ | .readSecret _ | .storeSecret _ _ => True
  | .deleteClient _ | .deleteSecret _ | .rememberClientID _ _ | .lookupClientID _ => True
  | .findRealmRole _ | .serviceAccount _ | .hasRealmRole _ _ => True
  | .bindRole _ _ | .unbindRole _ _ => True
  | .certsExist owner | .issueCert owner _ | .removeCerts owner => owner = plugin
  | _ => False

def Call.creating : Call → Prop
  | .getDataset _ | .createDataset _ _ => True
  | _ => False

theorem calls_provisionDataset {n : DatasetNeed} :
    Calls Call.creating (provisionDataset plugin n) := by
  apply calls_bind calls_failWhen
  intro _
  apply calls_bind (calls_ask trivial)
  intro probe
  split
  · trivial
  · trivial
  · apply calls_bind (calls_ask trivial)
    intro err
    exact calls_bind calls_check fun _ => trivial

theorem calls_ensureClient {n : OIDCClientNeed} :
    Calls (Call.provisioning plugin) (ensureClient n) := by
  apply calls_bind (calls_ask trivial)
  intro _
  apply calls_bind calls_orFail
  intro found
  split
  · trivial
  · apply calls_bind (calls_ask trivial)
    intro err
    apply calls_bind calls_check
    intro _
    apply calls_bind (calls_ask trivial)
    intro _
    apply calls_bind calls_orFail
    intro created
    exact calls_failWhen

theorem calls_renewSecret {n : OIDCClientNeed} :
    Calls (Call.provisioning plugin) (renewSecret plugin n) := by
  rw [renewSecret]
  split
  · trivial
  · apply calls_bind (calls_ask trivial)
    intro err
    apply calls_bind calls_check
    intro _
    apply calls_bind (calls_ask trivial)
    intro _
    apply calls_bind calls_orFail
    intro value
    split
    · trivial
    · exact calls_bind (calls_ask trivial) fun _ => calls_check

theorem calls_provisionOIDCClient {n : OIDCClientNeed} :
    Calls (Call.provisioning plugin) (provisionOIDCClient plugin n) := by
  apply calls_bind calls_failWhen
  intro _
  apply calls_bind calls_ensureClient
  intro _
  apply calls_bind calls_renewSecret
  intro _
  exact calls_bind (calls_ask trivial) fun _ => trivial

theorem calls_unprovisionOIDCClient :
    Calls (Call.provisioning plugin) (unprovisionOIDCClient plugin id) := by
  rw [unprovisionOIDCClient]
  split
  · trivial
  · apply calls_bind (calls_ask trivial)
    intro _
    apply calls_bind calls_orFail
    intro found
    split
    · apply calls_bind (calls_ask trivial)
      intro err
      exact calls_bind calls_check fun _ => calls_ask trivial
    · exact calls_ask trivial

theorem calls_provisionTLSCert {n : TLSCertNeed} :
    Calls (Call.provisioning plugin) (provisionTLSCert plugin n) := by
  have own : Call.provisioning plugin (.certsExist plugin) := rfl
  have own' : Call.provisioning plugin (.issueCert plugin n) := rfl
  apply calls_bind calls_failWhen
  intro _
  apply calls_bind (calls_ask own)
  intro reuse
  split
  · trivial
  · apply calls_bind (calls_ask own')
    intro err
    exact calls_bind calls_check fun _ => trivial

theorem calls_unprovisionTLSCert :
    Calls (Call.provisioning plugin) (unprovisionTLSCert plugin id) := by
  rw [unprovisionTLSCert]
  split
  · trivial
  · exact calls_bind calls_failWhen fun _ => calls_ask rfl

theorem calls_clientIDFor : Calls (Call.provisioning plugin) (clientIDFor plugin) :=
  calls_bind (calls_ask trivial) fun _ => trivial

theorem calls_provisionPermission {n : PermissionNeed} :
    Calls (Call.provisioning plugin) (provisionPermission plugin n) := by
  apply calls_bind calls_failWhen
  intro _
  apply calls_bind (calls_ask trivial)
  intro _
  apply calls_bind calls_orFail
  intro known
  apply calls_bind calls_failWhen
  intro _
  apply calls_bind calls_clientIDFor
  intro clientID
  apply calls_bind (calls_ask trivial)
  intro err
  apply calls_bind calls_check
  intro _
  apply calls_bind (calls_ask trivial)
  intro _
  apply calls_bind calls_orFail
  intro bound
  split
  · trivial
  · apply calls_bind (calls_ask trivial)
    intro err
    exact calls_bind calls_check fun _ => trivial

theorem calls_unprovisionPermission :
    Calls (Call.provisioning plugin) (unprovisionPermission plugin id) := by
  rw [unprovisionPermission]
  split
  · trivial
  · apply calls_bind (calls_ask trivial)
    intro found
    split
    · trivial
    · trivial
    · apply calls_bind calls_clientIDFor
      intro clientID
      apply calls_bind (calls_ask trivial)
      intro account
      split
      · trivial
      · exact calls_bind (calls_ask trivial) fun _ => calls_check

section Lists

variable {p : Call → Prop} {keycloak : Bool}

theorem calls_provision (creating : ∀ q, Call.creating q → p q)
    (others : ∀ q, Call.provisioning plugin q → p q) (i : Nat) (need : Need) :
    Calls p (provision keycloak plugin i need) := by
  rw [provision]
  split
  · exact calls_provisionDataset.mono creating
  · split
    · exact calls_provisionOIDCClient.mono others
    · trivial
  · exact calls_provisionTLSCert.mono others
  · split
    · exact calls_provisionPermission.mono others
    · trivial
  · trivial

theorem calls_unprovision {r : Resource}
    (datasets : r.kind = .dataset → ∀ owner full, parseDatasetResourceID r.id = some (owner, full) →
      p (.getDataset full) ∧ p (.destroyDataset full))
    (others : ∀ q, Call.provisioning plugin q → p q) :
    Calls p (unprovision keycloak plugin r) := by
  rw [unprovision]
  split
  next dataset =>
    rw [unprovisionDataset]
    split
    · trivial
    next owner full parsed =>
      obtain ⟨probes, destroys⟩ := datasets dataset owner full parsed
      apply calls_bind (calls_ask probes)
      intro probe
      split
      · trivial
      · exact calls_bind (calls_ask destroys) fun _ => calls_check
  next =>
    split
    · exact calls_unprovisionOIDCClient.mono others
    · trivial
  next => exact calls_unprovisionTLSCert.mono others
  next =>
    split
    · exact calls_unprovisionPermission.mono others
    · trivial
  next => trivial

theorem calls_unprovisionAll {resources : List Resource}
    (each : ∀ r ∈ resources, Calls p (unprovision keycloak plugin r)) :
    Calls p (unprovisionAll keycloak plugin resources) := by
  induction resources with
  | nil => trivial
  | cons r rest ih =>
    have later := ih fun other member => each other (List.mem_cons_of_mem _ member)
    apply calls_bind (Program.calls_outcome (each r List.mem_cons_self))
    intro result
    split
    · exact later
    · exact calls_bind later fun _ => trivial

theorem calls_rollbackNeeds {done : List Resource}
    (each : ∀ r ∈ done, Calls p (unprovision keycloak plugin r)) :
    Calls p (rollbackNeeds keycloak plugin done) :=
  calls_unprovisionAll fun r member => each r (List.mem_reverse.mp member)

theorem calls_runNeedsFrom (provisions : ∀ i need, Calls p (provision keycloak plugin i need))
    (returns : ∀ r, Calls p (unprovision keycloak plugin r)) {needs : List Need}
    {done : List Resource} {i : Nat} : Calls p (runNeedsFrom keycloak plugin done i needs) := by
  induction needs generalizing done i with
  | nil => trivial
  | cons need needs ih =>
    apply calls_bind (Program.calls_outcome (provisions i need))
    intro result
    split
    · exact ih
    · apply calls_bind (calls_rollbackNeeds fun r _ => returns r)
      intro errs
      split <;> trivial

end Lists

end NovaNas.Plugins
