import NovaNas.Base.Triples
import NovaNas.Plugins.Chains

/-!
# The table of plugins

What the operations do to the rows, in a world that answers as `Effect` says.
-/
namespace NovaNas.Plugins

open Program (Calls Ends Keeps calls_bind ends_bind ends_bind_ok ends_pure)

variable {ε α : Type} {m : Manager} {o : Outside} {name version marketplaceID : String}

/-- The manifest can come out of a package on offer under the request. -/
def Unpacked (m : Manager) (o : Outside) (req : InstallRequest) (manifest : Plugin) : Prop :=
  ∃ pkg faults tree x tree', Offers o req pkg ∧ extractTarball pkg faults tree = .ok (x, tree') ∧
    parseManifest m.semver x.manifest = .ok manifest

theorem Unpacked.valid {req : InstallRequest} {manifest : Plugin}
    (unpacked : Unpacked m o req manifest) : manifest.problems m.semver = [] := by
  obtain ⟨_, _, _, _, _, _, _, parsed⟩ := unpacked
  exact parseManifest_valid parsed

/-! ### Calls that write no row -/

/-- The call writes nothing of the engine's but perhaps the tree of the plugin. -/
structure Call.OnlyTree (name : String) (q : Call) : Prop where
  row : q.row = none
  mounts : q.mounts = none
  registers : q.registers = none
  tree : ∀ other, q.tree = some other → other = name

variable {q : Call}

theorem onlyTree_of_reading (reading : q.reading) : q.OnlyTree name := by
  cases q with
  | findVersion _ _ _ | download _ | unpackTemp _ | getPluginByName _ =>
    exact ⟨rfl, rfl, rfl, nofun⟩
  | _ => exact reading.elim

theorem onlyTree_of_creating (creating : q.creating) : q.OnlyTree name := by
  cases q with
  | getDataset _ | createDataset _ _ => exact ⟨rfl, rfl, rfl, nofun⟩
  | _ => exact creating.elim

theorem onlyTree_of_provisioning (provisioning : q.provisioning name) :
    q.OnlyTree name := by
  cases q with
  | issueCert owner _ | removeCerts owner =>
    refine ⟨rfl, rfl, rfl, fun other same => ?_⟩
    cases same
    exact provisioning
  | certsExist _ | findClient _ | createClient _ | rotateSecret _ | readSecret _ | storeSecret _ _
  | deleteClient _ | deleteSecret _ | rememberClientID _ _ | lookupClientID _ | findRealmRole _
  | serviceAccount _ | hasRealmRole _ _ | bindRole _ _ | unbindRole _ _ =>
    exact ⟨rfl, rfl, rfl, nofun⟩
  | _ => exact provisioning.elim

theorem onlyTree_removeAll : Call.OnlyTree name (.removeAll name) :=
  ⟨rfl, rfl, rfl, fun _ same => (Option.some.inj same).symm⟩

theorem onlyTree_unpack {pkg : Package} : Call.OnlyTree name (.unpack name pkg) :=
  ⟨rfl, rfl, rfl, fun _ same => (Option.some.inj same).symm⟩

theorem calls_onlyTree_unprovision {keycloak : Bool} (r : Resource) :
    Calls (Call.OnlyTree name) (unprovision keycloak name r) :=
  calls_unprovision (fun _ _ _ _ => ⟨⟨rfl, rfl, rfl, nofun⟩, ⟨rfl, rfl, rfl, nofun⟩⟩)
    fun _ => onlyTree_of_provisioning

theorem calls_onlyTree_rollbackNeeds {keycloak : Bool} {done : List Resource} :
    Calls (Call.OnlyTree name) (rollbackNeeds keycloak name done) :=
  calls_rollbackNeeds fun r _ => calls_onlyTree_unprovision r

theorem calls_onlyTree_runNeeds {keycloak : Bool} {needs : List Need} :
    Calls (Call.OnlyTree name) (runNeeds keycloak name needs) :=
  calls_runNeedsFrom
    (calls_provision (fun _ => onlyTree_of_creating) fun _ => onlyTree_of_provisioning)
    calls_onlyTree_unprovision

section Fetch

variable {p : Call → Prop} (removes : p (.removeAll name))
  (needs : ∀ needs, Calls p (runNeeds m.keycloak name needs))

include removes needs

theorem calls_unpackProvision {pkg : Package} (unpacks : p (.unpack name pkg)) :
    Calls p (unpackProvision m name pkg) := by
  apply calls_bind (calls_ask unpacks)
  intro answer
  apply calls_bind calls_orFail
  intro x
  split
  · exact calls_abandon removes
  · split
    · exact calls_abandon removes
    · apply calls_bind (Program.calls_outcome (needs _))
      intro result
      split
      · trivial
      · exact calls_abandon removes

theorem calls_fetch (reads : ∀ q, Call.reading q → p q) (unpacks : ∀ pkg, p (.unpack name pkg)) :
    Calls p (fetchVerifyUnpackProvision m name version marketplaceID) := by
  apply calls_bind (calls_fetchVerifiedTarball.mono reads)
  intro pkg
  apply calls_bind (calls_ask removes)
  intro _
  exact calls_unpackProvision removes needs (unpacks pkg)

end Fetch

theorem calls_onlyTree_fetch :
    Calls (Call.OnlyTree name) (fetchVerifyUnpackProvision m name version marketplaceID) :=
  calls_fetch onlyTree_removeAll (fun _ => calls_onlyTree_runNeeds)
    (fun _ => onlyTree_of_reading) fun _ => onlyTree_unpack

/-! ### Calls of one plugin -/

/-- The call writes nothing that belongs to another plugin. -/
def Call.Own (name : String) (q : Call) : Prop :=
  ∀ other, q.row = some other ∨ q.tree = some other ∨ q.mounts = some other ∨
    q.registers = some other → other = name

theorem Call.OnlyTree.own (only : q.OnlyTree name) : q.Own name := by
  rintro other (row | tree | mounts | registers)
  · cases only.row.symm.trans row
  · exact only.tree other tree
  · cases only.mounts.symm.trans mounts
  · cases only.registers.symm.trans registers

/-- Of each part the call writes the plugin's own or none. -/
theorem own_of_parts (row : q.row = none ∨ q.row = some name)
    (tree : q.tree = none ∨ q.tree = some name) (mounts : q.mounts = none ∨ q.mounts = some name)
    (registers : q.registers = none ∨ q.registers = some name) : q.Own name := by
  have same {part : Option String} (own : part = none ∨ part = some name) {other : String}
      (writes : part = some other) : other = name := by
    rcases own with rfl | rfl
    · cases writes
    · exact (Option.some.inj writes).symm
  rintro other (writes | writes | writes | writes)
  · exact same row writes
  · exact same tree writes
  · exact same mounts writes
  · exact same registers writes

theorem own_updatePlugin {manifest : Plugin} {status : String} :
    Call.Own name (.updatePlugin name version manifest status) :=
  own_of_parts (.inr rfl) (.inl rfl) (.inl rfl) (.inl rfl)

theorem own_addPluginResource (r : Resource) : Call.Own name (.addPluginResource name r) :=
  own_of_parts (.inr rfl) (.inl rfl) (.inl rfl) (.inl rfl)

theorem own_mount {routes : List APIRoute} : Call.Own name (.mount name routes) :=
  own_of_parts (.inl rfl) (.inl rfl) (.inr rfl) (.inl rfl)

theorem own_unmount : Call.Own name (.unmount name) :=
  own_of_parts (.inl rfl) (.inl rfl) (.inr rfl) (.inl rfl)

theorem own_register : Call.Own name (.register name) :=
  own_of_parts (.inl rfl) (.inl rfl) (.inl rfl) (.inr rfl)

theorem own_deregister : Call.Own name (.deregister name) :=
  own_of_parts (.inl rfl) (.inl rfl) (.inl rfl) (.inr rfl)

theorem own_deploy {manifest : Plugin} : Call.Own name (.deploy manifest) :=
  own_of_parts (.inl rfl) (.inl rfl) (.inl rfl) (.inl rfl)

variable {p : Provisioned}

theorem calls_own_finishUpgrade :
    Calls (Call.Own name) (finishUpgrade m name p) := by
  apply calls_bind (calls_ask own_updatePlugin)
  intro written
  split
  · exact calls_abandon onlyTree_removeAll.own
  · apply calls_bind (calls_recordResources own_addPluginResource)
    intro _
    apply calls_bind (calls_mountRoutes own_mount)
    intro _
    apply calls_bind (calls_registerUI own_register)
    intro _
    exact calls_bind (calls_deploy own_deploy) fun _ => trivial

theorem calls_own_upgrade : Calls (Call.Own name) (upgrade m name version) := by
  have reads : Call.Own name (.getPluginByName name) :=
    (onlyTree_of_reading (q := .getPluginByName name) trivial).own
  apply calls_bind (calls_ask reads)
  intro present
  apply calls_bind calls_failWhen
  intro _
  apply calls_bind (calls_onlyTree_fetch.mono fun _ => Call.OnlyTree.own)
  intro p
  exact calls_own_finishUpgrade

section Steps

variable {σ : Type} {responds : Program.Responses σ Call.Answer} {s s' : σ}

variable {r : Except String Unit}

theorem recordResources_ok {resources : List Resource}
    (ends : Ends responds (recordResources name resources) s r s') : r = .ok () := by
  induction resources generalizing s with
  | nil => exact (ends_pure.mp ends).1
  | cons resource rest ih =>
    obtain ⟨_, _, -, later⟩ := ends_ask_bind.mp ends
    exact ih later

theorem mountRoutes_ok {routes : List APIRoute}
    (ends : Ends responds (mountRoutes name routes) s r s') : r = .ok () := by
  rw [mountRoutes] at ends
  split at ends
  next => exact (ends_pure.mp ends).1
  next =>
    obtain ⟨_, _, -, rest⟩ := ends_ask_bind.mp ends
    exact (ends_pure.mp rest).1

theorem registerUI_ok {hasUI : Bool} (ends : Ends responds (registerUI name hasUI) s r s') :
    r = .ok () := by
  cases hasUI with
  | true =>
    obtain ⟨_, rfl, -⟩ := ends_ask.mp ends
    rfl
  | false => exact (ends_pure.mp ends).1

theorem deploy_ok {manifest : Plugin} {r : Except String (Option String)}
    (ends : Ends responds (deploy m manifest) s r s') : ∃ failure, r = .ok failure := by
  rw [deploy] at ends
  split at ends
  next =>
    obtain ⟨failure, rfl, -⟩ := ends_ask.mp ends
    exact ⟨failure, rfl⟩
  next => exact ⟨none, (ends_pure.mp ends).1⟩

/-- What comes between the row and the deployer does not fail. -/
theorem ends_announced {next : Operation α} {r : Except String α} :
    Ends responds (do
      recordResources name p.resources
      mountRoutes name p.manifest.routes
      registerUI name p.hasUI
      next) s r s' ↔
    ∃ s₁ s₂ s₃, Ends responds (recordResources name p.resources) s (.ok ()) s₁ ∧
      Ends responds (mountRoutes name p.manifest.routes) s₁ (.ok ()) s₂ ∧
      Ends responds (registerUI name p.hasUI) s₂ (.ok ()) s₃ ∧ Ends responds next s₃ r s' := by
  constructor
  · intro ends
    rcases ends_bind.mp ends with ⟨_, s₁, recorded, rest₁⟩ | ⟨_, -, failed⟩
    · rcases ends_bind.mp rest₁ with ⟨_, s₂, mounted, rest₂⟩ | ⟨_, -, failed⟩
      · rcases ends_bind.mp rest₂ with ⟨_, s₃, registered, rest₃⟩ | ⟨_, -, failed⟩
        · exact ⟨s₁, s₂, s₃, recorded, mounted, registered, rest₃⟩
        · cases registerUI_ok failed
      · cases mountRoutes_ok failed
    · cases recordResources_ok failed
  · rintro ⟨s₁, s₂, s₃, recorded, mounted, registered, rest⟩
    apply ends_bind.mpr
    refine .inl ⟨(), s₁, recorded, ends_bind.mpr (.inl ⟨(), s₂, mounted, ?_⟩)⟩
    exact ends_bind.mpr (.inl ⟨(), s₃, registered, rest⟩)

end Steps

section Runs

variable {responds : Program.Responses World Call.Answer}
  (sound : ∀ w q a w', responds w q a w' → Effect o w q a w') {w w' : World}

theorem provisionManifest_ok {manifest : Plugin} {hasUI : Bool}
    (ends : Ends responds (provisionManifest m name manifest hasUI) w (.ok p) w') :
    p.manifest = manifest ∧ p.hasUI = hasUI := by
  obtain ⟨result, w₁, -, rest⟩ := Program.ends_outcome_bind.mp ends
  cases result with
  | ok resources =>
    cases (ends_pure.mp rest).1
    exact ⟨rfl, rfl⟩
  | error err => cases (abandon_fails rest).1

include sound

variable {c : Program.Attempt Call Call.Answer ε α}

theorem rows_of_calls {r : Except ε α} (calls : Calls (fun q => q.row = none) c)
    (ends : Ends responds c w r w') (n : String) :
    w'.rows.lookup n = w.rows.lookup n := by
  refine ends.invariant (fun v => v.rows.lookup n = w.rows.lookup n) ?_ calls rfl
  intro v q a v' writes same answered
  rw [(sound v q a v' answered).unaffected.row n (by rw [writes]; exact nofun), same]

theorem other_rows_of_calls {r : Except ε α} (calls : Calls (Call.Own name) c)
    (ends : Ends responds c w r w') {n : String} (different : n ≠ name) :
    w'.rows.lookup n = w.rows.lookup n := by
  refine ends.invariant (fun v => v.rows.lookup n = w.rows.lookup n) ?_ calls rfl
  intro v q a v' own same answered
  have other : q.row ≠ some n := fun writes => different (own n (.inl writes))
  rw [(sound v q a v' answered).unaffected.row n other, same]

theorem fetch_ok
    (ends : Ends responds (fetchVerifyUnpackProvision m name version marketplaceID) w (.ok p) w') :
    Unpacked m o ⟨name, version, marketplaceID⟩ p.manifest ∧ p.manifest.name = name := by
  obtain ⟨pkg, w₁, fetched, rest₁⟩ := ends_bind_ok.mp ends
  obtain ⟨_, w₂, -, rest₂⟩ := ends_ask_bind.mp rest₁
  have offers : Offers o ⟨name, version, marketplaceID⟩ pkg :=
    offers_of_fetched (fun w q a w' answered => ⟨w, w', sound w q a w' answered⟩) fetched
  rcases ends_unpackProvision rest₂ with ⟨err, failed, -⟩ | ⟨x, w₃, unpacked, outcome⟩
  · cases failed
  rcases outcome with ⟨err, failed, -⟩ | ⟨manifest, parsed, named, rest₃⟩
  · cases failed
  obtain ⟨faults, ⟨_, tree, extracted, same, -⟩ | ⟨_, _, -, same, -⟩⟩ := sound _ _ _ _ unpacked
  · cases same
    obtain ⟨rfl, -⟩ := provisionManifest_ok rest₃
    exact ⟨⟨pkg, faults, _, x, tree, offers, extracted, parsed⟩, named⟩
  · cases same

/-- The row holds the manifest. -/
def Holds (w : World) (name : String) (manifest : Plugin) : Prop :=
  ∃ row, w.rows.lookup name = some row ∧ row.version = manifest.version ∧ row.manifest = manifest

theorem holds_recordResources {manifest : Plugin} (name : String) (resources : List Resource) :
    Keeps responds (fun w => Holds w name manifest) (recordResources name resources) := by
  induction resources with
  | nil => exact Program.keeps_pure
  | cons r rest ih =>
    have adds : Keeps responds (fun w => Holds w name manifest)
        (ask (.addPluginResource name r)) := by
      refine Program.ensures_request fun v _ v' ⟨row, present, version, same⟩ answered => ?_
      obtain rfl | ⟨row', present', rfl⟩ := sound _ _ _ _ answered
      · exact ⟨row, present, version, same⟩
      · cases present.symm.trans present'
        exact ⟨_, AList.lookup_insert _, version, same⟩
    exact adds.bind fun _ => ih

theorem holds_of_calls {r : Except ε α} {manifest : Plugin}
    (calls : Calls (fun q => q.row = none) c) (ends : Ends responds c w r w')
    (holds : Holds w name manifest) : Holds w' name manifest := by
  rw [Holds, rows_of_calls sound calls ends]
  exact holds

theorem finishUpgrade_rows {r : Except String Installation}
    (ends : Ends responds (finishUpgrade m name p) w r w') :
    (∀ n, w'.rows.lookup n = w.rows.lookup n) ∨ Holds w' name p.manifest := by
  obtain ⟨answer, w₁, written, rest₁⟩ := ends_ask_bind.mp ends
  have updated := sound _ _ _ _ written
  cases answer with
  | some err =>
    obtain ⟨failed, -⟩ | ⟨-, rfl⟩ := updated
    · cases failed
    · exact .inl (rows_of_calls sound (calls_abandon rfl) rest₁)
  | none =>
    obtain ⟨-, row, -, rfl⟩ | ⟨⟨_, failed⟩, -⟩ := updated
    · refine .inr ?_
      have start : Holds (w.setRows (w.rows.insert name { row with
          version := p.manifest.version, manifest := p.manifest, status := statusInstalled }))
          name p.manifest := ⟨_, AList.lookup_insert _, rfl, rfl⟩
      have keeps {β : Type} {c : Operation β} (calls : Calls (fun q => q.row = none) c) :
          Keeps responds (fun v => Holds v name p.manifest) c :=
        fun _ _ _ holds ran => holds_of_calls sound calls ran holds
      refine ((holds_recordResources sound name p.resources).bind fun _ => ?_) _ _ _ start rest₁
      refine (keeps (calls_mountRoutes rfl)).bind fun _ => ?_
      refine (keeps (calls_registerUI rfl)).bind fun _ => ?_
      exact (keeps (calls_deploy rfl)).bind fun _ => Program.keeps_pure
    · cases failed

/-- An upgrade writes the row of its plugin or none. -/
theorem upgrade_rows {r : Except String Installation}
    (ends : Ends responds (upgrade m name version) w r w') :
    (∀ n, w'.rows.lookup n = w.rows.lookup n) ∨
      ∃ manifest, Unpacked m o ⟨name, version, ""⟩ manifest ∧ manifest.name = name ∧
        Holds w' name manifest ∧ ∀ n, n ≠ name → w'.rows.lookup n = w.rows.lookup n := by
  obtain ⟨present, w₁, looked, rest₁⟩ := ends_ask_bind.mp ends
  obtain ⟨rfl, -⟩ := sound _ _ _ _ looked
  rcases ends_bind.mp rest₁ with ⟨_, w₂, found, rest₂⟩ | ⟨err, -, missing⟩
  · have same₁ := rows_of_calls sound calls_failWhen found
    rcases ends_bind.mp rest₂ with ⟨p, w₃, fetched, rest₃⟩ | ⟨err, -, failed⟩
    · have same₂ := rows_of_calls sound (calls_onlyTree_fetch.mono fun _ only => only.row) fetched
      obtain ⟨unpacked, named⟩ := fetch_ok sound fetched
      rcases finishUpgrade_rows sound rest₃ with same₃ | holds
      · exact .inl fun n => (same₃ n).trans ((same₂ n).trans (same₁ n))
      · exact .inr ⟨p.manifest, unpacked, named, holds, fun n different =>
          other_rows_of_calls sound calls_own_upgrade ends different⟩
    · have same₂ := rows_of_calls sound (calls_onlyTree_fetch.mono fun _ only => only.row) failed
      exact .inl fun n => (same₂ n).trans (same₁ n)
  · exact .inl (rows_of_calls sound calls_failWhen missing)

end Runs

/-! ### Uninstall -/

theorem calls_onlyTree_purgeResources {purge : Bool} :
    Calls (Call.OnlyTree name) (purgeResources m name purge) := by
  have lists : Call.OnlyTree name (.listPluginResources name) := ⟨rfl, rfl, rfl, nofun⟩
  rw [purgeResources]
  split
  · trivial
  · apply calls_bind (calls_ask lists)
    intro resources
    split
    · trivial
    · exact calls_bind calls_onlyTree_rollbackNeeds fun _ => trivial

theorem calls_retire {purge : Bool} :
    Calls (fun q => q.row = none ∧ q.Own name) (retire m name purge) := by
  have undeploys : Call.OnlyTree name (.undeploy name) := ⟨rfl, rfl, rfl, nofun⟩
  have both {q : Call} (only : q.OnlyTree name) : q.row = none ∧ q.Own name := ⟨only.row, only.own⟩
  apply calls_bind (calls_undeploy (both undeploys))
  intro _
  apply calls_bind (calls_ask ⟨rfl, own_unmount⟩)
  intro _
  apply calls_bind (calls_ask ⟨rfl, own_deregister⟩)
  intro _
  apply calls_bind (calls_onlyTree_purgeResources.mono fun _ => both)
  intro _
  exact calls_ask (both onlyTree_removeAll)

section Uninstall

variable {w w' : World} {opts : UninstallOptions} {r : Except String Unit}

theorem steady_sound : ∀ w q a w', Steady o w q a w' → Effect o w q a w' :=
  fun _ _ _ _ answered => answered.1

theorem removal_rows {message : String → String}
    (ends : Ends (Steady o) (do
      retire m name opts.purge
      check message (← ask (.deletePlugin name))) w r w') :
    (∀ n, w'.rows.lookup n = w.rows.lookup n) ∨
      w'.rows.lookup name = none ∧ ∀ n, n ≠ name → w'.rows.lookup n = w.rows.lookup n := by
  have silent : Calls (fun q => q.row = none) (retire m name opts.purge) :=
    calls_retire.mono fun _ both => both.1
  rcases ends_bind.mp ends with ⟨_, w₁, retired, rest₁⟩ | ⟨err, -, failed⟩
  · have same := rows_of_calls steady_sound silent retired
    obtain ⟨answer, w₂, ⟨deleted, -⟩, rest₂⟩ := ends_ask_bind.mp rest₁
    have same' := rows_of_calls steady_sound calls_check rest₂
    obtain ⟨-, rfl⟩ | ⟨-, rfl⟩ := deleted
    · refine .inr ⟨(same' name).trans (AList.lookup_erase _ _), fun n different => ?_⟩
      exact (same' n).trans ((AList.lookup_erase_ne different).trans (same n))
    · exact .inl fun n => (same' n).trans (same n)
  · exact .inl (rows_of_calls steady_sound silent failed)

theorem dependentsOf_steady {r : Except String (Option (List String))}
    (ends : Ends (Steady o) (dependentsOf name) w r w') :
    r = .ok (some (dependentsAmong name w.listed)) ∧ w' = w := by
  obtain ⟨rows, w₁, ⟨⟨rfl, -⟩, rfl⟩, rest⟩ := ends_ask_bind.mp ends
  exact ends_pure.mp rest

/-- An uninstall without force deletes a row only if no other plugin depends on it. -/
theorem uninstall_rows (ends : Ends (Steady o) (uninstall m name opts) w r w') :
    (∀ n, w'.rows.lookup n = w.rows.lookup n) ∨
      (opts.force = false → dependentsAmong name w.listed = []) ∧ w'.rows.lookup name = none ∧
        ∀ n, n ≠ name → w'.rows.lookup n = w.rows.lookup n := by
  obtain ⟨present, w₁, ⟨⟨rfl, -⟩, -⟩, rest₁⟩ := ends_ask_bind.mp ends
  rcases ends_bind.mp rest₁ with ⟨_, w₂, found, rest₂⟩ | ⟨err, -, missing⟩
  · obtain ⟨-, rfl⟩ := ends_failWhen_ok.mp found
    rcases ends_bind.mp rest₂ with ⟨dependents, w₃, listed, rest₃⟩ | ⟨err, -, failed⟩
    · obtain ⟨same, rfl⟩ := dependentsOf_steady listed
      cases same
      rcases ends_bind.mp rest₃ with ⟨_, w₄, alone, rest₄⟩ | ⟨err, -, refused⟩
      · obtain ⟨alone, rfl⟩ := ends_failWhen_ok.mp alone
        have free : opts.force = false → dependentsAmong name w₄.listed = [] := fun gentle =>
          not_not.mp fun some => alone ⟨some, gentle⟩
        rcases removal_rows rest₄ with same | ⟨deleted, others⟩
        · exact .inl same
        · exact .inr ⟨free, deleted, others⟩
      · exact .inl (rows_of_calls steady_sound calls_failWhen refused)
    · cases (dependentsOf_steady failed).1
  · exact .inl (rows_of_calls steady_sound calls_failWhen missing)

end Uninstall

end NovaNas.Plugins
