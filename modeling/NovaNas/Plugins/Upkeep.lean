import NovaNas.Base.Interleaving
import NovaNas.Plugins.Rows

/-!
# Dependencies under Upgrade and Uninstall

Uninstall looks for plugins that depend on the one it removes; Upgrade compares its new version
with nothing. A table in which every plugin has its dependencies stays so as long as every upgrade
happens to fit.
-/
namespace NovaNas.Plugins

open Program (Ends)

open Interleaving (Trace)

variable {m : Manager} {o : Outside} {semver : Semver} {w w' : World} {name version : String}
  {row : Row}

/-- The rows have the dependencies of the manifest, at satisfying versions. -/
def Satisfied (semver : Semver) (rows : Rows) (manifest : Plugin) : Prop :=
  ∀ dep ∈ manifest.dependencies, dep.source = .tier2 →
    ∃ row, rows.lookup dep.name = some row ∧
      constraintSatisfied semver dep.versionConstraint row.version = true

instance (semver : Semver) (rows : Rows) (manifest : Plugin) :
    Decidable (Satisfied semver rows manifest) :=
  inferInstanceAs (Decidable (∀ dep ∈ manifest.dependencies, dep.source = .tier2 →
    ∃ row, row ∈ rows.lookup dep.name ∧
      constraintSatisfied semver dep.versionConstraint row.version = true))

/-- Every plugin has its dependencies, at satisfying versions. -/
def Closed (semver : Semver) (rows : Rows) : Prop :=
  ∀ entry ∈ rows.entries, Satisfied semver rows entry.2.manifest

instance (semver : Semver) (rows : Rows) : Decidable (Closed semver rows) :=
  inferInstanceAs (Decidable (∀ _ ∈ _, _))

theorem mem_entries {rows : Rows} : ⟨name, row⟩ ∈ rows.entries ↔ rows.lookup name = some row :=
  AList.mem_lookup_iff.symm

theorem closed_iff {rows : Rows} : Closed semver rows ↔
    ∀ name row, rows.lookup name = some row → Satisfied semver rows row.manifest := by
  constructor
  · intro closed name row present
    exact closed ⟨name, row⟩ (mem_entries.mpr present)
  · intro each entry member
    exact each entry.1 entry.2 (mem_entries.mp member)

theorem mem_listed : (name, row) ∈ w.listed ↔ w.rows.lookup name = some row := by
  rw [World.listed, List.mem_mergeSort, ← mem_entries, List.mem_map]
  constructor
  · rintro ⟨entry, member, same⟩
    cases same
    exact member
  · intro member
    exact ⟨⟨name, row⟩, member, rfl⟩

/-! ### Operations -/

/-- An Upgrade, or an Uninstall without force. -/
inductive Upkeep where
  | upgrade (name version : String)
  | uninstall (name : String) (purge : Bool)

/-- The operation is carried out, with success or not. -/
def Upkeep.step (m : Manager) (o : Outside) (w : World) : Upkeep → World → Prop
  | .upgrade name version, w' => ∃ r, Ends (Steady o) (Plugins.upgrade m name version) w r w'
  | .uninstall name purge, w' =>
    ∃ r, Ends (Steady o) (Plugins.uninstall m name ⟨purge, false⟩) w r w'

/-- What the upgrade can unpack has its dependencies in the table, and the plugins that depend on
it are content with its version. -/
def Upkeep.Fits (m : Manager) (o : Outside) (w : World) : Upkeep → Prop
  | .upgrade name version =>
    ∀ manifest, Unpacked m o ⟨name, version, ""⟩ manifest → manifest.name = name →
      Satisfied m.semver w.rows manifest ∧
        ∀ entry ∈ w.rows.entries, entry.1 ≠ name → ∀ dep ∈ entry.2.manifest.dependencies,
          dep.source = .tier2 → dep.name = name →
            constraintSatisfied m.semver dep.versionConstraint manifest.version = true
  | .uninstall _ _ => True

/-- The operation is carried out where it fits. -/
def Upkeep.Fitting (m : Manager) (o : Outside) (w : World) (op : Upkeep) (w' : World) : Prop :=
  op.Fits m o w ∧ op.step m o w w'

/-! ### One operation -/

theorem satisfied_of_lookups {rows rows' : Rows} {manifest : Plugin}
    (same : ∀ dep ∈ manifest.dependencies, dep.source = .tier2 →
      rows'.lookup dep.name = rows.lookup dep.name)
    (satisfied : Satisfied semver rows manifest) : Satisfied semver rows' manifest := by
  intro dep member source
  obtain ⟨row, present, holds⟩ := satisfied dep member source
  exact ⟨row, (same dep member source).trans present, holds⟩

theorem closed_of_same (same : ∀ n, w'.rows.lookup n = w.rows.lookup n)
    (closed : Closed semver w.rows) : Closed semver w'.rows := by
  rw [closed_iff] at closed ⊢
  intro name row present
  exact satisfied_of_lookups (fun dep _ _ => same dep.name)
    (closed name row ((same name).symm.trans present))

theorem upgrade_closed (closed : Closed m.semver w.rows)
    (fits : (Upkeep.upgrade name version).Fits m o w)
    {r : Except String Installation} (ends : Ends (Steady o) (upgrade m name version) w r w') :
    Closed m.semver w'.rows := by
  rcases upgrade_rows steady_sound ends with same | ⟨manifest, unpacked, named, holds, others⟩
  · exact closed_of_same same closed
  obtain ⟨own, dependents⟩ := fits manifest unpacked named
  obtain ⟨new, present, label, same⟩ := holds
  rw [closed_iff] at closed ⊢
  intro other row' present'
  by_cases self : other = name
  · subst self
    cases present.symm.trans present'
    rw [same]
    refine satisfied_of_lookups (fun dep member _ => others dep.name ?_) own
    exact named ▸ (valid_dependency unpacked.valid member).2.2
  · rw [others other self] at present'
    intro dep member source
    by_cases onIt : dep.name = name
    · refine ⟨new, onIt ▸ present, ?_⟩
      rw [label]
      exact dependents ⟨other, row'⟩ (mem_entries.mpr present') self dep member source onIt
    · obtain ⟨found, there, holds⟩ := closed other row' present' dep member source
      exact ⟨found, (others dep.name onIt).trans there, holds⟩

theorem dependsOn_of_mem {p : Plugin} {dep : Dependency} (member : dep ∈ p.dependencies)
    (source : dep.source = .tier2) : p.dependsOn dep.name = true :=
  List.any_eq_true.mpr ⟨dep, member, by simp [source]⟩

theorem uninstall_closed {purge : Bool} (closed : Closed m.semver w.rows) {r : Except String Unit}
    (ends : Ends (Steady o) (uninstall m name ⟨purge, false⟩) w r w') :
    Closed m.semver w'.rows := by
  rcases uninstall_rows ends with same | ⟨alone, deleted, others⟩
  · exact closed_of_same same closed
  rw [closed_iff] at closed ⊢
  intro other row' present'
  have different : other ≠ name := by
    rintro rfl
    cases deleted.symm.trans present'
  rw [others other different] at present'
  refine satisfied_of_lookups (fun dep member source => others dep.name fun onIt => ?_)
    (closed other row' present')
  -- It would have been listed as a dependent.
  have listed : other ∈ dependentsAmong name w.listed := by
    refine List.mem_map.mpr ⟨(other, row'), List.mem_filter.mpr ⟨mem_listed.mpr present', ?_⟩, rfl⟩
    simpa [different] using onIt ▸ dependsOn_of_mem member source
  rw [alone rfl] at listed
  cases listed

/-! ### Sequences -/

/-- Any sequence of upgrades that fit and of uninstalls without force keeps the table closed. -/
theorem upkeep_keeps_closed {ops : List Upkeep} (closed : Closed m.semver w.rows)
    (trace : Trace (Upkeep.Fitting m o) w ops w') :
    Closed m.semver w'.rows := by
  refine trace.invariant (fun v => Closed m.semver v.rows) ?_ closed
  rintro v op v' closed ⟨fits, step⟩
  cases op with
  | upgrade name version =>
    obtain ⟨r, ends⟩ := step
    exact upgrade_closed closed fits ends
  | uninstall name purge =>
    obtain ⟨r, ends⟩ := step
    exact uninstall_closed closed ends

/-! ### A small marketplace -/

variable {req : InstallRequest} {manifest : Plugin}

/-- The manifest comes out of a package that some index lists under the name. -/
theorem Unpacked.listed (unpacked : Unpacked m o req manifest) :
    ∃ plugin listed pkg document, o.sources.Lists plugin listed ∧ plugin.name = req.name ∧
      listed.artifact = some pkg ∧ pkg.manifest = some document ∧
        parseManifest m.semver document = .ok manifest := by
  obtain ⟨pkg, faults, tree, x, tree', ⟨down, plugin, listed, found, artifact⟩, extracted,
    parsed⟩ := unpacked
  obtain ⟨lists, named, -⟩ := Sources.findVersion_ok found
  exact ⟨plugin, listed, pkg, x.manifest, lists, named, artifact,
    (extractTarball_ok extracted).1, parsed⟩

def pairAlpha : Plugin :=
  { basicPlugin "alpha" "1.0.0" with dependencies := [⟨"beta", "1.0.0", .tier2⟩] }

def pairBeta : Plugin := basicPlugin "beta" "1.0.0"

/-- Of two plugins, one depends on the other. -/
def pairOffers : Outside :=
  ⟨.single [listing "alpha" [pairAlpha], listing "beta" [pairBeta]], fun _ => true⟩

theorem lists_pair {plugin : IndexPlugin} {listed : IndexVersion}
    (lists : pairOffers.sources.Lists plugin listed) : ∃ p ∈ [pairAlpha, pairBeta],
      plugin.name = p.name ∧ listed = ⟨"1.0.0", some p.packed⟩ := by
  obtain ⟨index, among, within, member⟩ := lists
  obtain rfl := List.mem_singleton.mp among
  rcases List.mem_pair.mp within with rfl | rfl
  · exact ⟨pairAlpha, by simp, rfl, List.mem_singleton.mp member⟩
  · exact ⟨pairBeta, by simp, rfl, List.mem_singleton.mp member⟩

theorem manifest_pair {p : Plugin} {document : Document} (member : p ∈ [pairAlpha, pairBeta])
    (within : p.packed.manifest = some document)
    (parsed : parseManifest m.semver document = .ok manifest) : manifest = p := by
  rw [packed_manifest] at within
  cases within
  refine parseManifest_filled ?_ parsed
  rcases List.mem_pair.mp member with rfl | rfl <;> exact nofun

theorem unpacked_pair (unpacked : Unpacked m pairOffers req manifest) :
    manifest ∈ [pairAlpha, pairBeta] ∧ manifest.name = req.name := by
  obtain ⟨plugin, listed, pkg, document, lists, named, artifact, within, parsed⟩ :=
    unpacked.listed
  obtain ⟨p, member, same, rfl⟩ := lists_pair lists
  cases artifact
  obtain rfl := manifest_pair member within parsed
  exact ⟨member, same.symm.trans named⟩

/-- Both plugins of the pair are installed. -/
def pairRows : Rows :=
  AList.insert "alpha" ⟨"1.0.0", pairAlpha, statusInstalled, []⟩
    (AList.insert "beta" ⟨"1.0.0", pairBeta, statusInstalled, []⟩ ∅)

theorem fits_beta : (Upkeep.upgrade "beta" "").Fits ⟨exactVersions, true, true⟩ pairOffers
    (World.empty.setRows pairRows) := by
  intro manifest unpacked named
  rcases List.mem_pair.mp (unpacked_pair unpacked).1 with rfl | rfl
  · exact absurd named (by decide)
  · decide +kernel

/-- The upgrade to the version on offer fits, and the plugin can go once its dependent is gone. -/
theorem upkeep_keeps_pair_closed : ∃ w',
    Trace (Upkeep.Fitting ⟨exactVersions, true, true⟩ pairOffers) (World.empty.setRows pairRows)
      [.upgrade "beta" "", .uninstall "alpha" false, .uninstall "beta" false] w' ∧
    Closed exactVersions w'.rows := by
  have ran {α : Type} (c : Operation α) (w : World) :=
    Program.run_exec (smooth_steady pairOffers) c.run w
  have removed (name : String) (w : World) : ∃ w', Upkeep.Fitting ⟨exactVersions, true, true⟩
      pairOffers w (.uninstall name false) w' := ⟨_, trivial, _, ran _ w⟩
  obtain ⟨w₁, upgraded⟩ : ∃ w', Upkeep.Fitting ⟨exactVersions, true, true⟩ pairOffers
      (World.empty.setRows pairRows) (.upgrade "beta" "") w' := ⟨_, fits_beta, _, ran _ _⟩
  obtain ⟨w₂, without⟩ := removed "alpha" w₁
  obtain ⟨w₃, without'⟩ := removed "beta" w₂
  have trace := Trace.cons upgraded (.cons without (.cons without' (.nil w₃)))
  exact ⟨w₃, trace, upkeep_keeps_closed (by decide +kernel) trace⟩

/-- A newer version of the second plugin of the pair. -/
def newerOffers : Outside :=
  ⟨.single [listing "beta" [basicPlugin "beta" "2.0.0"]], fun _ => true⟩

/-- The upgrade to it goes through, although the first plugin does not accept it. -/
theorem upgrade_breaks_dependent : Closed exactVersions pairRows ∧ ∃ w',
    Trace (Upkeep.step ⟨exactVersions, true, true⟩ newerOffers) (World.empty.setRows pairRows)
      [.upgrade "beta" ""] w' ∧ ¬Closed exactVersions w'.rows := by
  have ran := Program.run_exec (smooth_steady newerOffers)
    (upgrade ⟨exactVersions, true, true⟩ "beta" "").run (World.empty.setRows pairRows)
  exact ⟨by decide +kernel, _, .cons ⟨_, ran⟩ (.nil _), by decide +kernel⟩

end NovaNas.Plugins
