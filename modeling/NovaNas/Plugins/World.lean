import Mathlib.Data.List.AList
import NovaNas.Plugins.Manager
import NovaNas.Zfs.Names

/-!
# What the engine's calls meet

The state that the calls read and write, and what each call may answer in it. Every call to the
outside may fail. A read of the database that fails looks like a row that is not there.
-/
namespace NovaNas.Plugins

/-- A route as the router holds it. -/
structure MountedRoute where
  path : String
  auth : AuthMode
  scopes : List String
  upstream : String
  deriving DecidableEq, Repr

abbrev Rows := AList fun _ : String => Row

structure World where
  rows : Rows
  /-- The unpacked tree of each plugin. -/
  trees : String → Tree
  mounts : String → Option (List MountedRoute)
  /-- The plugins whose UI directory is registered. -/
  ui : String → Bool
  datasets : List String
  /-- The OIDC clients, and whether each is public. -/
  clients : String → Option Bool
  roles : String → Bool
  bindings : String → String → Bool
  secrets : String → Bool
  clientIDs : String → String

/-- What stays as it is: the marketplaces and the URL parser. -/
structure Outside where
  sources : Sources
  parsesURL : String → Bool

namespace World

variable (w : World)

def setRows (rows : Rows) : World := { w with rows := rows }

def setTree (plugin : String) (tree : Tree) : World :=
  { w with trees := Function.update w.trees plugin tree }

def setMount (plugin : String) (routes : Option (List MountedRoute)) : World :=
  { w with mounts := Function.update w.mounts plugin routes }

def setUI (plugin : String) (registered : Bool) : World :=
  { w with ui := Function.update w.ui plugin registered }

def setDatasets (datasets : List String) : World := { w with datasets := datasets }

def setClient (clientID : String) (client : Option Bool) : World :=
  { w with clients := Function.update w.clients clientID client }

def setBinding (clientID role : String) (bound : Bool) : World :=
  { w with
    bindings := Function.update w.bindings clientID
      (Function.update (w.bindings clientID) role bound) }

def setSecret (plugin : String) (stored : Bool) : World :=
  { w with secrets := Function.update w.secrets plugin stored }

def setClientID (plugin clientID : String) : World :=
  { w with clientIDs := Function.update w.clientIDs plugin clientID }

/-- Nothing is installed. -/
def empty : World :=
  ⟨∅, fun _ => .empty, fun _ => none, fun _ => false, [], fun _ => none, fun _ => false,
    fun _ _ => false, fun _ => false, fun _ => ""⟩

/-- `ListPlugins` -/
def listed : List (String × Row) :=
  (w.rows.entries.map fun entry => (entry.1, entry.2)).mergeSort fun a b => a.1 ≤ b.1

end World

/-! ### Parts of the answers -/

/-- `strings.TrimRight(path, "/")` -/
def trimSlashes (path : String) : String :=
  String.ofList (path.toList.reverse.dropWhile (· = '/')).reverse

def mounted (routes : List APIRoute) : List MountedRoute :=
  routes.map fun r => ⟨trimSlashes r.path, r.auth, r.scopes, r.upstream⟩

/-- The dataset lies below the other one. -/
def Below (full other : String) : Prop := (full ++ "/").toList <+: other.toList

instance (full other : String) : Decidable (Below full other) :=
  inferInstanceAs (Decidable (_ <+: _))

def ValidDataset (full : String) : Prop := Zfs.validateDatasetName full.toList = .ok ()

instance (full : String) : Decidable (ValidDataset full) :=
  inferInstanceAs (Decidable (_ = _))

def certsPart : List Char := "certs".toList

/-- The trees differ at most in the directory of the certificates. -/
def SameButCerts (tree tree' : Tree) : Prop :=
  ∀ path, path ≠ [] → path.head? ≠ some certsPart → tree' path = tree path

def hasCerts (tree : Tree) : Bool :=
  (tree [certsPart, "cert.pem".toList]).isSome && (tree [certsPart, "key.pem".toList]).isSome

/-- The call succeeds with the change, or fails and changes nothing. -/
def Writes (w w' : World) (answer : Option String) (change : World → Prop) : Prop :=
  (answer = none ∧ change w') ∨ ((∃ err, answer = some err) ∧ w' = w)

/-- The call reads the value, or fails. -/
def Reads {α : Type} (w w' : World) (answer : Except String α) (value : α → Prop) : Prop :=
  w' = w ∧ ((∃ a, value a ∧ answer = .ok a) ∨ ∃ err, answer = .error err)

/-- What a call may answer in a world, and the world after it. -/
def Effect (o : Outside) (w : World) : (q : Call) → q.Answer → World → Prop
  | .findVersion name version id, a, w' =>
    Reads w w' a fun found => ∃ down, o.sources.findVersion down name version id = .ok found
  | .download listed, a, w' => Reads w w' a fun pkg => listed.artifact = some pkg
  | .unpackTemp pkg, a, w' =>
    Reads w w' a fun x => ∃ faults tree, extractTarball pkg faults .empty = .ok (x, tree)
  | .removeAll plugin, _, w' =>
    -- What cannot be removed stays.
    ∃ stays : Path → Bool,
      w' = w.setTree plugin fun path => if stays path then w.trees plugin path else none
  | .unpack plugin pkg, a, w' =>
    ∃ faults,
      (∃ x tree, extractTarball pkg faults (w.trees plugin) = .ok (x, tree) ∧ a = .ok x ∧
        w' = w.setTree plugin tree) ∨
      (∃ err tree, extractTarball pkg faults (w.trees plugin) = .error (err, tree) ∧
        a = .error err ∧ w' = w.setTree plugin tree)
  | .getPluginByName name, a, w' => w' = w ∧ (a = w.rows.lookup name ∨ a = none)
  | .listPlugins, a, w' => w' = w ∧ (a = some w.listed ∨ a = none)
  | .createPlugin name row, a, w' =>
    Writes w w' a fun w' => w.rows.lookup name = none ∧ w' = w.setRows (w.rows.insert name row)
  | .updatePlugin name version manifest status, a, w' =>
    Writes w w' a fun w' => ∃ row, w.rows.lookup name = some row ∧
      w' = w.setRows (w.rows.insert name
        { row with version := version, manifest := manifest, status := status })
  | .deletePlugin name, a, w' => Writes w w' a fun w' => w' = w.setRows (w.rows.erase name)
  | .addPluginResource name resource, _, w' =>
    w' = w ∨ ∃ row, w.rows.lookup name = some row ∧
      w' = w.setRows (w.rows.insert name { row with resources := row.resources ++ [resource] })
  | .listPluginResources name, a, w' =>
    w' = w ∧ (a = (w.rows.lookup name).map Row.resources ∨ a = none)
  | .mount name routes, a, w' =>
    if routes.all fun r => o.parsesURL r.upstream then
      a = none ∧ w' = w.setMount name (some (mounted routes))
    else (∃ err, a = some err) ∧ w' = w
  | .unmount name, _, w' => w' = w.setMount name none
  | .register name, _, w' => w' = w.setUI name true
  | .deregister name, _, w' => w' = w.setUI name false
  | .deploy _, _, w' => w' = w
  | .undeploy _, _, w' => w' = w
  | .getDataset full, a, w' =>
    w' = w ∧ ((a = .found ∧ full ∈ w.datasets) ∨ (a = .notFound ∧ full ∉ w.datasets) ∨
      ∃ err, a = .failed err)
  | .createDataset full _, a, w' =>
    Writes w w' a (fun w' => ValidDataset full ∧ full ∉ w.datasets ∧
      w' = w.setDatasets (full :: w.datasets)) ∨
    -- The command may fail after it made the dataset.
    (∃ err, a = some err) ∧ ValidDataset full ∧ w' = w.setDatasets (full :: w.datasets)
  | .destroyDataset full, a, w' =>
    Writes w w' a fun w' => ValidDataset full ∧ full ∈ w.datasets ∧
      (∀ other ∈ w.datasets, ¬Below full other) ∧
      w' = w.setDatasets (w.datasets.filter (· ≠ full))
  | .findClient clientID, a, w' => Reads w w' a fun found => found = (w.clients clientID).isSome
  | .createClient need, a, w' =>
    Writes w w' a fun w' => w' = w.setClient need.clientID (some need.isPublic)
  | .rotateSecret _, _, w' => w' = w
  | .readSecret _, _, w' => w' = w
  | .storeSecret plugin _, a, w' => Writes w w' a fun w' => w' = w.setSecret plugin true
  | .deleteClient clientID, a, w' =>
    Writes w w' a fun w' => w' =
      { w.setClient clientID none with
        bindings := Function.update w.bindings clientID fun _ => false }
  | .deleteSecret plugin, _, w' => w' = w ∨ w' = w.setSecret plugin false
  | .findRealmRole role, a, w' => Reads w w' a fun found => found = w.roles role
  | .serviceAccount clientID, a, w' =>
    w' = w ∧ ((a = none ∧ w.clients clientID = some false) ∨ ∃ err, a = some err)
  | .hasRealmRole clientID role, a, w' =>
    Reads w w' a fun bound => bound = w.bindings clientID role
  | .bindRole clientID role, a, w' =>
    Writes w w' a fun w' => w' = w.setBinding clientID role true
  | .unbindRole clientID role, a, w' =>
    Writes w w' a fun w' => w' = w.setBinding clientID role false
  | .rememberClientID plugin clientID, _, w' => w' = w.setClientID plugin clientID
  | .lookupClientID plugin, a, w' => w' = w ∧ a = w.clientIDs plugin
  | .certsExist plugin, a, w' => w' = w ∧ a = hasCerts (w.trees plugin)
  | .issueCert plugin _, _, w' =>
    ∃ tree, SameButCerts (w.trees plugin) tree ∧ w' = w.setTree plugin tree
  | .removeCerts plugin, _, w' =>
    ∃ tree, SameButCerts (w.trees plugin) tree ∧ w' = w.setTree plugin tree

/-- The database answers the lookups and the list. -/
def Truthful (w : World) : (q : Call) → q.Answer → Prop
  | .getPluginByName name, a => a = w.rows.lookup name
  | .listPlugins, a => a = some w.listed
  | _, _ => True

/-- The operation runs alone and its reads of the table do not fail. -/
def Steady (o : Outside) (w : World) (q : Call) (a : q.Answer) (w' : World) : Prop :=
  Effect o w q a w' ∧ Truthful w q a

/-! ### What a call leaves alone -/

/-- The plugin whose row the call may write. -/
def Call.row : Call → Option String
  | .createPlugin name _ | .updatePlugin name _ _ _ | .deletePlugin name
  | .addPluginResource name _ => some name
  | _ => none

/-- The plugin whose tree the call may write. -/
def Call.tree : Call → Option String
  | .removeAll plugin | .unpack plugin _ | .issueCert plugin _ | .removeCerts plugin => some plugin
  | _ => none

def Call.mounts : Call → Option String
  | .mount name _ | .unmount name => some name
  | _ => none

def Call.registers : Call → Option String
  | .register name | .deregister name => some name
  | _ => none

def Call.dataset : Call → Option String
  | .createDataset full _ | .destroyDataset full => some full
  | _ => none

structure Unaffected (q : Call) (w w' : World) : Prop where
  row : ∀ name, q.row ≠ some name → w'.rows.lookup name = w.rows.lookup name
  tree : ∀ name, q.tree ≠ some name → w'.trees name = w.trees name
  mount : ∀ name, q.mounts ≠ some name → w'.mounts name = w.mounts name
  ui : ∀ name, q.registers ≠ some name → w'.ui name = w.ui name
  datasets : q.dataset = none → w'.datasets = w.datasets

section Unaffected

variable {q : Call} {w w' : World}

theorem unaffected_refl : Unaffected q w w :=
  ⟨fun _ _ => rfl, fun _ _ => rfl, fun _ _ => rfl, fun _ _ => rfl, fun _ => rfl⟩

theorem unaffected_rows {rows : Rows}
    (same : ∀ name, q.row ≠ some name → rows.lookup name = w.rows.lookup name) :
    Unaffected q w (w.setRows rows) :=
  ⟨same, fun _ _ => rfl, fun _ _ => rfl, fun _ _ => rfl, fun _ => rfl⟩

theorem unaffected_tree {plugin : String} {tree : Tree} (own : q.tree = some plugin) :
    Unaffected q w (w.setTree plugin tree) := by
  refine ⟨fun _ _ => rfl, fun name other => ?_, fun _ _ => rfl, fun _ _ => rfl, fun _ => rfl⟩
  have different : name ≠ plugin := fun same => other (same ▸ own)
  exact Function.update_of_ne different _ _

theorem unaffected_mount {name : String} {routes : Option (List MountedRoute)}
    (own : q.mounts = some name) : Unaffected q w (w.setMount name routes) := by
  refine ⟨fun _ _ => rfl, fun _ _ => rfl, fun another other => ?_, fun _ _ => rfl, fun _ => rfl⟩
  have different : another ≠ name := fun same => other (same ▸ own)
  exact Function.update_of_ne different _ _

theorem unaffected_ui {name : String} {registered : Bool} (own : q.registers = some name) :
    Unaffected q w (w.setUI name registered) := by
  refine ⟨fun _ _ => rfl, fun _ _ => rfl, fun _ _ => rfl, fun another other => ?_, fun _ => rfl⟩
  have different : another ≠ name := fun same => other (same ▸ own)
  exact Function.update_of_ne different _ _

theorem unaffected_datasets {datasets : List String} (own : q.dataset ≠ none) :
    Unaffected q w (w.setDatasets datasets) :=
  ⟨fun _ _ => rfl, fun _ _ => rfl, fun _ _ => rfl, fun _ _ => rfl, fun none => absurd none own⟩

theorem unaffected_keycloak
    (same : w'.rows = w.rows ∧ w'.trees = w.trees ∧ w'.mounts = w.mounts ∧ w'.ui = w.ui ∧
      w'.datasets = w.datasets) : Unaffected q w w' := by
  obtain ⟨rows, trees, mounts, ui, datasets⟩ := same
  exact ⟨fun _ _ => rows ▸ rfl, fun _ _ => trees ▸ rfl, fun _ _ => mounts ▸ rfl,
    fun _ _ => ui ▸ rfl, fun _ => datasets⟩

theorem Effect.unaffected {o : Outside} {a : q.Answer} (effect : Effect o w q a w') :
    Unaffected q w w' := by
  have inserted {name : String} {row : Row} (other : String) (different : some name ≠ some other) :
      (w.rows.insert name row).lookup other = w.rows.lookup other :=
    AList.lookup_insert_ne fun same => different (same ▸ rfl)
  cases q with
  | findVersion _ _ _ | download _ | unpackTemp _ | findClient _ | findRealmRole _
  | hasRealmRole _ _ | getPluginByName _ | listPluginResources _ | serviceAccount _
  | lookupClientID _ | certsExist _ | getDataset _ =>
    obtain ⟨rfl, -⟩ := effect
    exact unaffected_refl
  | listPlugins =>
    obtain ⟨rfl, -⟩ := effect
    exact unaffected_refl
  | createPlugin _ _ =>
    obtain ⟨-, -, rfl⟩ | ⟨-, rfl⟩ := effect
    · exact unaffected_rows inserted
    · exact unaffected_refl
  | updatePlugin _ _ _ _ =>
    obtain ⟨-, _, -, rfl⟩ | ⟨-, rfl⟩ := effect
    · exact unaffected_rows inserted
    · exact unaffected_refl
  | deletePlugin name =>
    obtain ⟨-, rfl⟩ | ⟨-, rfl⟩ := effect
    · refine unaffected_rows fun other different => ?_
      exact AList.lookup_erase_ne fun same => different (same ▸ rfl)
    · exact unaffected_refl
  | addPluginResource _ _ =>
    obtain rfl | ⟨_, -, rfl⟩ := effect
    · exact unaffected_refl
    · exact unaffected_rows inserted
  | mount _ _ =>
    rw [Effect] at effect
    split at effect
    · obtain ⟨-, rfl⟩ := effect
      exact unaffected_mount rfl
    · obtain ⟨-, rfl⟩ := effect
      exact unaffected_refl
  | unmount _ =>
    obtain rfl := effect
    exact unaffected_mount rfl
  | register _ | deregister _ =>
    obtain rfl := effect
    exact unaffected_ui rfl
  | unpack _ _ =>
    obtain ⟨_, ⟨_, _, -, -, rfl⟩ | ⟨_, _, -, -, rfl⟩⟩ := effect
    · exact unaffected_tree rfl
    · exact unaffected_tree rfl
  | removeAll _ =>
    obtain ⟨_, rfl⟩ := effect
    exact unaffected_tree rfl
  | issueCert _ _ | removeCerts _ =>
    obtain ⟨_, -, rfl⟩ := effect
    exact unaffected_tree rfl
  | createDataset _ _ =>
    rcases effect with (⟨-, -, -, rfl⟩ | ⟨-, rfl⟩) | ⟨-, -, rfl⟩
    · exact unaffected_datasets nofun
    · exact unaffected_refl
    · exact unaffected_datasets nofun
  | destroyDataset _ =>
    obtain ⟨-, -, -, -, rfl⟩ | ⟨-, rfl⟩ := effect
    · exact unaffected_datasets nofun
    · exact unaffected_refl
  | createClient _ | storeSecret _ _ | deleteClient _ | bindRole _ _ | unbindRole _ _ =>
    obtain ⟨-, rfl⟩ | ⟨-, rfl⟩ := effect
    · exact unaffected_keycloak ⟨rfl, rfl, rfl, rfl, rfl⟩
    · exact unaffected_refl
  | deleteSecret _ =>
    obtain rfl | rfl := effect
    · exact unaffected_refl
    · exact unaffected_keycloak ⟨rfl, rfl, rfl, rfl, rfl⟩
  | rememberClientID _ _ =>
    obtain rfl := effect
    exact unaffected_keycloak ⟨rfl, rfl, rfl, rfl, rfl⟩
  | deploy _ | undeploy _ | rotateSecret _ | readSecret _ =>
    obtain rfl := effect
    exact unaffected_refl

end Unaffected

/-! ### Answers when nothing outside fails -/

/-- Answers the call, as far as it can, without a failure. -/
def smooth (o : Outside) (w : World) : (q : Call) → q.Answer × World
  | .findVersion name version id => (o.sources.findVersion [] name version id, w)
  | .download listed =>
    match listed.artifact with
    | some pkg => (.ok pkg, w)
    | none => (.error "plugins: signature verification failed", w)
  | .unpackTemp pkg =>
    match extractTarball pkg .none .empty with
    | .ok (x, _) => (.ok x, w)
    | .error (err, _) => (.error err, w)
  | .removeAll plugin => ((), w.setTree plugin .empty)
  | .unpack plugin pkg =>
    match extractTarball pkg .none (w.trees plugin) with
    | .ok (x, tree) => (.ok x, w.setTree plugin tree)
    | .error (err, tree) => (.error err, w.setTree plugin tree)
  | .getPluginByName name => (w.rows.lookup name, w)
  | .listPlugins => (some w.listed, w)
  | .createPlugin name row =>
    if w.rows.lookup name = none then (none, w.setRows (w.rows.insert name row))
    else (some "duplicate key value violates unique constraint", w)
  | .updatePlugin name version manifest status =>
    match w.rows.lookup name with
    | some row =>
      (none, w.setRows (w.rows.insert name
        { row with version := version, manifest := manifest, status := status }))
    | none => (some "no rows in result set", w)
  | .deletePlugin name => (none, w.setRows (w.rows.erase name))
  | .addPluginResource name resource =>
    match w.rows.lookup name with
    | some row =>
      ((), w.setRows (w.rows.insert name { row with resources := row.resources ++ [resource] }))
    | none => ((), w)
  | .listPluginResources name => ((w.rows.lookup name).map Row.resources, w)
  | .mount name routes =>
    if routes.all fun r => o.parsesURL r.upstream then
      (none, w.setMount name (some (mounted routes)))
    else (some "plugins: bad upstream", w)
  | .unmount name => ((), w.setMount name none)
  | .register name => ((), w.setUI name true)
  | .deregister name => ((), w.setUI name false)
  | .deploy _ => (none, w)
  | .undeploy _ => ((), w)
  | .getDataset full => (if full ∈ w.datasets then .found else .notFound, w)
  | .createDataset full _ =>
    if ValidDataset full ∧ full ∉ w.datasets then (none, w.setDatasets (full :: w.datasets))
    else (some "cannot create dataset", w)
  | .destroyDataset full =>
    if ValidDataset full ∧ full ∈ w.datasets ∧ ∀ other ∈ w.datasets, ¬Below full other then
      (none, w.setDatasets (w.datasets.filter (· ≠ full)))
    else (some "cannot destroy dataset", w)
  | .findClient clientID => (.ok (w.clients clientID).isSome, w)
  | .createClient need => (none, w.setClient need.clientID (some need.isPublic))
  | .rotateSecret _ => (none, w)
  | .readSecret _ => (.ok "", w)
  | .storeSecret plugin _ => (none, w.setSecret plugin true)
  | .deleteClient clientID =>
    (none, { w.setClient clientID none with
      bindings := Function.update w.bindings clientID fun _ => false })
  | .deleteSecret plugin => ((), w.setSecret plugin false)
  | .findRealmRole role => (.ok (w.roles role), w)
  | .serviceAccount clientID =>
    (if w.clients clientID = some false then none else some "no service account", w)
  | .hasRealmRole clientID role => (.ok (w.bindings clientID role), w)
  | .bindRole clientID role => (none, w.setBinding clientID role true)
  | .unbindRole clientID role => (none, w.setBinding clientID role false)
  | .rememberClientID plugin clientID => ((), w.setClientID plugin clientID)
  | .lookupClientID plugin => (w.clientIDs plugin, w)
  | .certsExist plugin => (hasCerts (w.trees plugin), w)
  | .issueCert plugin _ => (none, w.setTree plugin (w.trees plugin))
  | .removeCerts plugin => ((), w.setTree plugin (w.trees plugin))

theorem reads_of_result {α : Type} {w : World} {value : α → Prop} (result : Except String α)
    (holds : ∀ a, result = .ok a → value a) : Reads w w result value := by
  cases result with
  | ok a => exact ⟨rfl, .inl ⟨a, holds a rfl, rfl⟩⟩
  | error err => exact ⟨rfl, .inr ⟨err, rfl⟩⟩

theorem smooth_effect (o : Outside) (w : World) (q : Call) :
    Effect o w q (smooth o w q).1 (smooth o w q).2 := by
  cases q with
  | findVersion name version id =>
    exact reads_of_result _ fun _ ok => ⟨[], ok⟩
  | download listed =>
    simp only [smooth]
    split
    next pkg verified => exact ⟨rfl, .inl ⟨pkg, verified, rfl⟩⟩
    next => exact ⟨rfl, .inr ⟨_, rfl⟩⟩
  | unpackTemp pkg =>
    simp only [smooth]
    split
    next x tree unpacked => exact ⟨rfl, .inl ⟨x, ⟨_, tree, unpacked⟩, rfl⟩⟩
    next => exact ⟨rfl, .inr ⟨_, rfl⟩⟩
  | removeAll plugin => exact ⟨fun _ => false, by simp [smooth]; rfl⟩
  | unpack plugin pkg =>
    simp only [smooth]
    split
    next x tree unpacked => exact ⟨_, .inl ⟨x, tree, unpacked, rfl, rfl⟩⟩
    next err tree failed => exact ⟨_, .inr ⟨err, tree, failed, rfl, rfl⟩⟩
  | createPlugin name row =>
    simp only [smooth]
    split
    next free => exact .inl ⟨rfl, free, rfl⟩
    next => exact .inr ⟨⟨_, rfl⟩, rfl⟩
  | updatePlugin name version manifest status =>
    simp only [smooth]
    split
    next row present => exact .inl ⟨rfl, row, present, rfl⟩
    next => exact .inr ⟨⟨_, rfl⟩, rfl⟩
  | addPluginResource name resource =>
    simp only [smooth]
    split
    next row present => exact .inr ⟨row, present, rfl⟩
    next => exact .inl rfl
  | mount name routes =>
    simp only [smooth, Effect]
    split
    next => exact ⟨rfl, rfl⟩
    next => exact ⟨⟨_, rfl⟩, rfl⟩
  | getDataset full =>
    simp only [smooth]
    split
    next present => exact ⟨rfl, .inl ⟨rfl, present⟩⟩
    next absent => exact ⟨rfl, .inr (.inl ⟨rfl, absent⟩)⟩
  | createDataset full properties =>
    simp only [smooth]
    split
    next can => exact .inl (.inl ⟨rfl, can.1, can.2, rfl⟩)
    next => exact .inl (.inr ⟨⟨_, rfl⟩, rfl⟩)
  | destroyDataset full =>
    simp only [smooth]
    split
    next can => exact .inl ⟨rfl, can.1, can.2.1, can.2.2, rfl⟩
    next => exact .inr ⟨⟨_, rfl⟩, rfl⟩
  | serviceAccount clientID =>
    simp only [smooth]
    split
    next confidential => exact ⟨rfl, .inl ⟨rfl, confidential⟩⟩
    next => exact ⟨rfl, .inr ⟨_, rfl⟩⟩
  | findClient _ | findRealmRole _ | hasRealmRole _ _ => exact ⟨rfl, .inl ⟨_, rfl, rfl⟩⟩
  | getPluginByName _ | listPlugins | listPluginResources _ => exact ⟨rfl, .inl rfl⟩
  | deletePlugin _ | createClient _ | storeSecret _ _ | deleteClient _ | bindRole _ _
  | unbindRole _ _ => exact .inl ⟨rfl, rfl⟩
  | deleteSecret _ => exact .inr rfl
  | lookupClientID _ | certsExist _ => exact ⟨rfl, rfl⟩
  | issueCert _ _ | removeCerts _ => exact ⟨_, fun _ _ _ => rfl, rfl⟩
  | unmount _ | register _ | deregister _ | deploy _ | undeploy _ | rotateSecret _ | readSecret _
  | rememberClientID _ _ => rfl

theorem smooth_steady (o : Outside) (w : World) (q : Call) :
    Steady o w q (smooth o w q).1 (smooth o w q).2 := by
  refine ⟨smooth_effect o w q, ?_⟩
  cases q with
  | getPluginByName _ => rfl
  | listPlugins => rfl
  | _ => trivial

/-! ### Small packages -/

/-- Knows only constraints that name one version. -/
def exactVersions : Semver where
  isVersion := matchesVersion
  greaterThan a b := b < a
  constraintError c := if matchesVersion c then none else some "improper constraint"
  check c v := c == v

def basicPlugin (name version : String) : Plugin where
  apiVersion := currentAPIVersion
  kind := "Plugin"
  name := name
  version := version
  vendor := "NovaNAS"
  description := "A plugin."
  category := .storage
  displayCategory := .utilities
  tags := []
  deployment := { type := .systemd, unit := "plugin.service" }
  needs := []
  dependencies := []
  routes := []

def Plugin.packed (p : Plugin) : Package := ⟨[⟨"manifest.yaml", .regular 1 (.ok p)⟩], none⟩

theorem packed_manifest (p : Plugin) : p.packed.manifest = some (.ok p) := by
  have path : clean "manifest.yaml" = manifestPath := by decide
  simp [Package.manifest, Plugin.packed, Entry.document, Entry.path, path]

/-- The index entry of a plugin of which these packages are on offer. -/
def listing (name : String) (versions : List Plugin) : IndexPlugin :=
  ⟨name, versions.map fun p => ⟨p.version, some p.packed⟩⟩

end NovaNas.Plugins
