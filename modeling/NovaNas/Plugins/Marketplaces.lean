import NovaNas.Plugins.Package

/-!
# Marketplaces

The indexes in which a plugin's versions are looked up. An index is cached; while the cache is
stale and the marketplace is down, its lookups fail.
-/
namespace NovaNas.Plugins

structure IndexVersion where
  version : String
  /-- The tarball behind the version's URL, if its signature verifies. -/
  artifact : Option Package

structure IndexPlugin where
  name : String
  versions : List IndexVersion

abbrev Index := List IndexPlugin

structure Marketplace where
  id : String
  name : String
  enabled : Bool
  index : Index

/-- Where the manager looks: the registered marketplaces, locked ones first and then in the order
of registration, or the one source of a development setup. -/
inductive Sources where
  | multi (registered : List Marketplace)
  | single (index : Index)
  | unconfigured

/-- `MarketplaceClient.FindVersion` -/
def Index.findVersion (index : Index) (name version : String) :
    Except String (IndexPlugin × IndexVersion) :=
  match index.find? (·.name = name) with
  | none => .error ("plugins: " ++ quoted name ++ " not in marketplace index")
  | some plugin =>
    match plugin.versions with
    | [] => .error ("plugins: " ++ quoted name ++ " has no versions in index")
    | newest :: _ =>
      if version = "" then .ok (plugin, newest)
      else
        match plugin.versions.find? (·.version = version) with
        | some listed => .ok (plugin, listed)
        | none =>
          .error ("plugins: " ++ quoted name ++ " has no version " ++ quoted version)

/-- The lookup in one marketplace. `down` lists those whose index cannot be fetched. -/
def Marketplace.findVersion (down : List String) (m : Marketplace) (name version : String) :
    Except String (IndexPlugin × IndexVersion) :=
  if m.id ∈ down then .error ("Get " ++ quoted m.name ++ ": connection refused")
  else m.index.findVersion name version

/-- The first marketplace that answers, with its answer; if none does, the first error. -/
def searchEnabled {μ : Type} (market : μ → Marketplace) (down : List String)
    (name version : String) (firstErr : Option String) :
    List μ → Except String (IndexPlugin × IndexVersion × μ)
  | [] =>
    .error (firstErr.getD
      ("plugins: " ++ quoted name ++ " not found in any enabled marketplace"))
  | m :: rest =>
    match (market m).findVersion down name version with
    | .ok (plugin, listed) => .ok (plugin, listed, m)
    | .error err => searchEnabled market down name version (firstErr.or (some err)) rest

def Sources.findVersion (down : List String) (sources : Sources)
    (name version marketplaceID : String) : Except String (IndexPlugin × IndexVersion) :=
  match sources with
  | .multi registered =>
    if marketplaceID = "" then
      do
        let (plugin, listed, _) ← searchEnabled id down name version none
          (registered.filter (·.enabled))
        return (plugin, listed)
    else
      match registered.find? (·.id = marketplaceID) with
      | none => .error ("plugins: marketplace " ++ marketplaceID ++ ": not found")
      | some m =>
        if !m.enabled then .error ("plugins: marketplace " ++ quoted m.name ++ " is disabled")
        else m.findVersion down name version
  | .single index => index.findVersion name version
  | .unconfigured => .error "plugins: marketplace not configured"

def Sources.indexes : Sources → List Index
  | .multi registered => registered.map (·.index)
  | .single index => [index]
  | .unconfigured => []

/-- The names under which anything is listed. -/
def Sources.names (sources : Sources) : List String :=
  sources.indexes.flatMap fun index => index.map (·.name)

/-- Some index lists the plugin with the version. -/
def Sources.Lists (sources : Sources) (plugin : IndexPlugin) (version : IndexVersion) : Prop :=
  ∃ index ∈ sources.indexes, plugin ∈ index ∧ version ∈ plugin.versions

variable {down : List String} {name version marketplaceID : String} {plugin : IndexPlugin}
  {listed : IndexVersion}

theorem Index.findVersion_ok {index : Index}
    (ok : index.findVersion name version = .ok (plugin, listed)) :
    plugin ∈ index ∧ plugin.name = name ∧ listed ∈ plugin.versions ∧
      (version ≠ "" → listed.version = version) := by
  rw [Index.findVersion] at ok
  split at ok
  next => cases ok
  next p found =>
    have named : p.name = name := by simpa using List.find?_some found
    have member := List.mem_of_find?_eq_some found
    split at ok
    next => cases ok
    next newest others versions =>
      split at ok
      next blank =>
        cases ok
        exact ⟨member, named, by simp [versions], fun other => absurd blank other⟩
      next =>
        split at ok
        next v foundVersion =>
          cases ok
          refine ⟨member, named, List.mem_of_find?_eq_some foundVersion, fun _ => ?_⟩
          simpa using List.find?_some foundVersion
        next => cases ok

theorem Marketplace.findVersion_ok {m : Marketplace}
    (ok : m.findVersion down name version = .ok (plugin, listed)) :
    m.index.findVersion name version = .ok (plugin, listed) := by
  rw [Marketplace.findVersion] at ok
  split at ok
  next => cases ok
  next => exact ok

theorem searchEnabled_ok {firstErr : Option String} {enabled : List Marketplace} {m : Marketplace}
    (ok : searchEnabled id down name version firstErr enabled = .ok (plugin, listed, m)) :
    m ∈ enabled ∧ m.index.findVersion name version = .ok (plugin, listed) := by
  induction enabled generalizing firstErr with
  | nil => cases ok
  | cons first rest ih =>
    rw [searchEnabled] at ok
    split at ok
    next plugin' listed' answer =>
      cases ok
      exact ⟨List.mem_cons_self, Marketplace.findVersion_ok answer⟩
    next =>
      obtain ⟨member, found⟩ := ih ok
      exact ⟨List.mem_cons_of_mem first member, found⟩

/-- What is found is listed in some index, under the name and version asked for. -/
theorem Sources.findVersion_ok {sources : Sources}
    (ok : sources.findVersion down name version marketplaceID = .ok (plugin, listed)) :
    sources.Lists plugin listed ∧ plugin.name = name ∧
      (version ≠ "" → listed.version = version) := by
  have inIndex {index : Index} (member : index ∈ sources.indexes)
      (found : index.findVersion name version = .ok (plugin, listed)) :
      sources.Lists plugin listed ∧ plugin.name = name ∧
        (version ≠ "" → listed.version = version) := by
    obtain ⟨within, named, version, exact_⟩ := Index.findVersion_ok found
    exact ⟨⟨index, member, within, version⟩, named, exact_⟩
  cases sources with
  | multi registered =>
    rw [Sources.findVersion] at ok
    split at ok
    next =>
      obtain ⟨⟨plugin', listed', m⟩, searched, same⟩ := Fallible.bind_ok ok
      cases same
      obtain ⟨member, found⟩ := searchEnabled_ok searched
      exact inIndex (List.mem_map_of_mem (List.mem_of_mem_filter member)) found
    next =>
      split at ok
      next => cases ok
      next m registeredUnder =>
        split at ok
        next => cases ok
        next =>
          exact inIndex (List.mem_map_of_mem (List.mem_of_find?_eq_some registeredUnder))
            (Marketplace.findVersion_ok ok)
  | single index => exact inIndex List.mem_cons_self ok
  | unconfigured => cases ok

theorem Sources.Lists.name_mem {sources : Sources} (lists : sources.Lists plugin listed) :
    plugin.name ∈ sources.names := by
  obtain ⟨index, member, within, -⟩ := lists
  exact List.mem_flatMap.mpr ⟨index, member, List.mem_map_of_mem within⟩

end NovaNas.Plugins
