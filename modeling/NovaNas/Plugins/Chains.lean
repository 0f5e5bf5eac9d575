import NovaNas.Plugins.World

/-!
# Chains of installations

Which installations a call of Install can lead to. The packages on offer form a graph: from a
published manifest an edge leads to each plugin that it depends on and that is not installed, in
the version on offer for it.
-/
namespace NovaNas.Plugins

open Program (Ends Calls ends_bind ends_bind_ok calls_bind)

variable {ε α : Type} {m : Manager} {o : Outside} {installed : Rows} {req : InstallRequest}

/-- The calls that Install makes before it changes anything. -/
def Call.reading : Call → Prop
  | .findVersion _ _ _ | .download _ | .unpackTemp _ | .getPluginByName _ => True
  | _ => False

theorem calls_fetchVerifiedTarball {name version marketplaceID : String} :
    Calls Call.reading (fetchVerifiedTarball name version marketplaceID) := by
  apply calls_bind (calls_ask trivial)
  intro found
  apply calls_bind calls_orFail
  intro _
  apply calls_bind (calls_ask trivial)
  intro downloaded
  exact calls_orFail

/-! ### The graph -/

/-- The package can be had under the request. -/
def Offers (o : Outside) (req : InstallRequest) (pkg : Package) : Prop :=
  ∃ down plugin listed, o.sources.findVersion down req.name req.version req.marketplaceID =
    .ok (plugin, listed) ∧ listed.artifact = some pkg

/-- The manifest can be had under the request. -/
def Published (m : Manager) (o : Outside) (req : InstallRequest) (manifest : Plugin) : Prop :=
  ∃ pkg faults x tree, Offers o req pkg ∧ extractTarball pkg faults .empty = .ok (x, tree) ∧
    parseManifest m.semver x.manifest = .ok manifest

/-- The constraints on a plugin of tier 2, in the order of the dependencies. -/
def constraintsOn (deps : List Dependency) (name : String) : List String :=
  (deps.filter fun dep => dep.source = .tier2 ∧ dep.name = name).map Dependency.versionConstraint

/-- Of a listing under the name, the version is the highest that satisfies the constraints of the
manifest: that of its first entry for the plugin, or of the first few where it has several. -/
def Choice (semver : Semver) (o : Outside) (p : Plugin) (name version : String) : Prop :=
  ∃ down plugin listed constraints, o.sources.findVersion down name "" "" = .ok (plugin, listed) ∧
    constraints ≠ [] ∧ constraints <+: constraintsOn p.dependencies name ∧
      pickHighestSatisfying semver plugin.versions constraints = .ok version

/-- An edge of the graph, between plugins that are not installed. A manifest of another name than
the one asked for is itself something to install. -/
structure Requires (m : Manager) (o : Outside) (installed : Rows) (req next : InstallRequest) :
    Prop where
  named : req.name ≠ ""
  other : next.name ≠ req.name
  missing : installed.lookup req.name = none
  needed : installed.lookup next.name = none
  market : next.marketplaceID = req.marketplaceID
  published : ∃ manifest, Published m o req manifest ∧
    (next.name = manifest.name ∧ next.version = manifest.version ∨
      Choice m.semver o manifest next.name next.version)

/-- The graph leads from `root` to `req` by way of the names in `held`. -/
inductive Reaches (m : Manager) (o : Outside) (installed : Rows) (root : InstallRequest) :
    List String → InstallRequest → Prop where
  | start : Reaches m o installed root [] root
  | dependency {held : List String} {req next : InstallRequest}
      (reached : Reaches m o installed root held req) (free : req.name ∉ held)
      (requires : Requires m o installed req next) :
      Reaches m o installed root (req.name :: held) next

/-- The graph leads from the request to a name on the way to which it was already met. -/
def Circular (m : Manager) (o : Outside) (installed : Rows) (req : InstallRequest) : Prop :=
  ∃ held nested, Reaches m o installed req held nested ∧ nested.name ∈ held

/-! ### Runs -/

section Responses

variable {σ : Type} {responds : Program.Responses σ Call.Answer} {s s' : σ}

theorem offers_of_fetched (sound : ∀ s q a s', responds s q a s' → ∃ w w', Effect o w q a w')
    {pkg : Package} (fetched : Ends responds
      (fetchVerifiedTarball req.name req.version req.marketplaceID) s (.ok pkg) s') :
    Offers o req pkg := by
  obtain ⟨found, _, lookup, rest₁⟩ := ends_ask_bind.mp fetched
  obtain ⟨⟨plugin, listed⟩, _, ok, rest₂⟩ := ends_bind_ok.mp rest₁
  obtain ⟨body, _, downloaded, rest₃⟩ := ends_ask_bind.mp rest₂
  obtain ⟨rfl, -⟩ := ends_orFail_ok.mp ok
  obtain ⟨rfl, -⟩ := ends_orFail_ok.mp rest₃
  obtain ⟨_, _, -, ⟨_, ⟨down, there⟩, same⟩ | ⟨_, same⟩⟩ := sound _ _ _ _ lookup <;> cases same
  obtain ⟨_, _, -, ⟨_, verified, same⟩ | ⟨_, same⟩⟩ := sound _ _ _ _ downloaded <;> cases same
  exact ⟨down, plugin, listed, there, verified⟩

theorem ends_ordinary {operation : Operation α} {r : Except Stop α} :
    Ends responds (ordinary operation) s r s' ↔
      ∃ result, r = result.mapError Stop.failed ∧ Ends responds operation s result s' :=
  Program.ends_mapError

theorem ends_ordinary_ok {operation : Operation α} {a : α} :
    Ends responds (ordinary operation) s (.ok a) s' ↔ Ends responds operation s (.ok a) s' :=
  Program.ends_mapError_ok

theorem abandon_fails {name message : String} {r : Except String α}
    (ends : Ends responds (abandon name message) s r s') :
    r = .error message ∧ responds s (.removeAll name) () s' := by
  obtain ⟨_, _, removed, rest⟩ := ends_ask_bind.mp ends
  obtain ⟨rfl, rfl⟩ := Program.ends_throw.mp rest
  exact ⟨rfl, removed⟩

/-- A package fails to unpack, what is unpacked is removed again, or its needs are provisioned. -/
theorem ends_unpackProvision {name : String} {pkg : Package} {r : Except String Provisioned}
    (ends : Ends responds (unpackProvision m name pkg) s r s') :
    (∃ err, r = .error err ∧ responds s (.unpack name pkg) (.error err) s') ∨
      ∃ x between, responds s (.unpack name pkg) (.ok x) between ∧
        ((∃ err, r = .error err ∧ responds between (.removeAll name) () s' ∧
            ∀ manifest, parseManifest m.semver x.manifest = .ok manifest → manifest.name ≠ name) ∨
          ∃ manifest, parseManifest m.semver x.manifest = .ok manifest ∧ manifest.name = name ∧
            Ends responds (provisionManifest m name manifest x.hasUI) between r s') := by
  obtain ⟨answer, between, unpacked, rest₁⟩ := ends_ask_bind.mp ends
  rcases ends_bind.mp rest₁ with ⟨x, _, got, rest₂⟩ | ⟨err, rfl, failed⟩
  · obtain ⟨rfl, rfl⟩ := ends_orFail_ok.mp got
    refine .inr ⟨x, _, unpacked, ?_⟩
    cases parsed : parseManifest m.semver x.manifest with
    | error err =>
      rw [parsed] at rest₂
      obtain ⟨failed, removed⟩ := abandon_fails rest₂
      exact .inl ⟨err, failed, removed, fun _ same => by cases same⟩
    | ok manifest =>
      simp only [parsed] at rest₂
      split at rest₂
      next other =>
        obtain ⟨failed, removed⟩ := abandon_fails rest₂
        refine .inl ⟨_, failed, removed, fun manifest' same => ?_⟩
        cases same
        exact other
      next same => exact .inr ⟨manifest, rfl, not_not.mp same, rest₂⟩
  · obtain ⟨same, rfl⟩ := ends_orFail.mp failed
    cases answer with
    | error err' =>
      cases same
      exact .inl ⟨err', rfl, unpacked⟩
    | ok x => cases same

theorem install_succ {depth : Nat} {held : List String} (named : req.name ≠ "")
    (free : req.name ∉ held) :
    install m (depth + 1) held req = do
      let steps ← ordinary (preparePlan m req)
      installDependencies (install m depth (req.name :: held)) req steps
      let p ← ordinary (installRoot m req)
      return toInstallation req.name p p.resources (steps.filter (·.name ≠ req.name)) := by
  rw [install, if_neg named, if_neg free]

end Responses

end NovaNas.Plugins
