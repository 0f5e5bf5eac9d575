import NovaNas.Plugins.Rows

/-!
# Upgrades that fail

Upgrade shares its first half with Install: once a package is downloaded and verified, the
directory of the plugin is wiped before the new version is unpacked into it, and every later
failure leaves it wiped. Row, mounts and UI registration are written last and survive a failure.
-/
namespace NovaNas.Plugins

open Program (Calls Ends Recorded ends_bind ends_bind_ok)

variable {ε α : Type} {m : Manager} {o : Outside} {w w' : World}
  {name version marketplaceID : String}

/-- Everything of the old version is as it was: its row, tree, mounts and UI registration, and what
was provisioned. -/
structure LeftIntact (name : String) (w w' : World) : Prop where
  row : w'.rows.lookup name = w.rows.lookup name
  tree : w'.trees name = w.trees name
  mounts : w'.mounts name = w.mounts name
  ui : w'.ui name = w.ui name
  datasets : w'.datasets = w.datasets
  clients : w'.clients = w.clients
  bindings : w'.bindings = w.bindings
  secrets : w'.secrets = w.secrets

theorem LeftIntact.refl (name : String) (w : World) : LeftIntact name w w :=
  ⟨rfl, rfl, rfl, rfl, rfl, rfl, rfl, rfl⟩

/-! ### What a failure cannot touch -/

/-- Two worlds register the same, and have the same rows. -/
structure SameButTrees (w w' : World) : Prop where
  rows : ∀ n, w'.rows.lookup n = w.rows.lookup n
  mounts : ∀ n, w'.mounts n = w.mounts n
  ui : ∀ n, w'.ui n = w.ui n

theorem sameButTrees {c : Program.Attempt Call Call.Answer ε α} {r : Except ε α}
    (calls : Calls (Call.OnlyTree name) c) (ends : Ends (Effect o) c w r w') :
    SameButTrees w w' := by
  refine ends.invariant (SameButTrees w) ?_ calls ⟨fun _ => rfl, fun _ => rfl, fun _ => rfl⟩
  intro v q a v' only same answered
  have frame := answered.unaffected
  refine ⟨fun n => ?_, fun n => ?_, fun n => ?_⟩
  · rw [frame.row n (by rw [only.row]; exact nofun), same.rows]
  · rw [frame.mount n (by rw [only.mounts]; exact nofun), same.mounts]
  · rw [frame.ui n (by rw [only.registers]; exact nofun), same.ui]

section Runs

variable {σ : Type} {responds : Program.Responses σ Call.Answer} {s s' : σ}

/-- Once the row is written, an upgrade succeeds. -/
theorem finishUpgrade_fails {p : Provisioned} {err : String}
    (ends : Ends responds (finishUpgrade m name p) s (.error err) s') :
    ∃ failure between, responds s
        (.updatePlugin name p.manifest.version p.manifest statusInstalled) (some failure) between ∧
      responds between (.removeAll name) () s' := by
  obtain ⟨answer, s₁, written, rest₁⟩ := ends_ask_bind.mp ends
  cases answer with
  | some failure => exact ⟨failure, s₁, written, (abandon_fails rest₁).2⟩
  | none =>
    obtain ⟨_, _, s₂, -, -, -, rest₂⟩ := ends_announced.mp rest₁
    rcases ends_bind.mp rest₂ with ⟨_, _, -, rest₃⟩ | ⟨_, -, failed⟩
    · cases (Program.ends_pure.mp rest₃).1
    · obtain ⟨_, same⟩ := deploy_ok failed
      cases same

theorem failWhen_keeps {condition : Prop} [Decidable condition] {message : String}
    {r : Except String Unit} (ends : Ends responds (failWhen condition message) s r s') :
    s' = s := by
  rw [failWhen] at ends
  split at ends
  next => exact (Program.ends_throw.mp ends).2
  next => exact (Program.ends_pure.mp ends).2

end Runs

/-- A failed upgrade leaves all rows, mounts and UI registrations as they were. -/
theorem failed_upgrade_registrations {err : String}
    (ends : Ends (Effect o) (upgrade m name version) w (.error err) w') : SameButTrees w w' := by
  obtain ⟨present, w₁, looked, rest₁⟩ := ends_ask_bind.mp ends
  obtain ⟨rfl, -⟩ := looked
  rcases ends_bind.mp rest₁ with ⟨_, w₂, found, rest₂⟩ | ⟨_, -, missing⟩
  · obtain rfl := failWhen_keeps found
    rcases ends_bind.mp rest₂ with ⟨p, w₃, fetched, rest₃⟩ | ⟨_, -, failed⟩
    · have fetch := sameButTrees calls_onlyTree_fetch fetched
      obtain ⟨failure, w₄, written, removed⟩ := finishUpgrade_fails rest₃
      obtain ⟨ok, -⟩ | ⟨-, rfl⟩ := written
      · cases ok
      · obtain ⟨stays, rfl⟩ := removed
        exact ⟨fetch.rows, fetch.mounts, fetch.ui⟩
    · exact sameButTrees calls_onlyTree_fetch failed
  · obtain rfl := failWhen_keeps missing
    exact ⟨fun _ => rfl, fun _ => rfl, fun _ => rfl⟩

/-! ### What the record of a run shows -/

/-- `os.RemoveAll` removes the whole directory. -/
def Wiping (o : Outside) (w : World) (q : Call) (a : q.Answer) (w' : World) : Prop :=
  Effect o w q a w' ∧ ∀ plugin, q = .removeAll plugin → w'.trees plugin = .empty

/-- A call and its answer. -/
abbrev Exchange := Σ q : Call, q.Answer

/-- A package is downloaded and verified. -/
def fetched : Exchange → Bool
  | ⟨.download _, .ok _⟩ => true
  | _ => false

/-- A package fails to unpack into the directory of a plugin. -/
def spoiled : Exchange → Bool
  | ⟨.unpack _ _, .error _⟩ => true
  | _ => false

section Recorded

variable {s s' : World × List Exchange}

/-- The lookup and the download change nothing, and the record shows whether they succeed. -/
theorem fetch_recorded (before : s.2.any fetched = false) {r : Except String Package}
    (ends : Ends (Recorded (Wiping o)) (fetchVerifiedTarball name version marketplaceID) s r s') :
    s'.1 = s.1 ∧ s'.2.any fetched = r.isOk := by
  obtain ⟨found, s₁, ⟨⟨⟨same₁, -⟩, -⟩, log₁⟩, rest₁⟩ := ends_ask_bind.mp ends
  cases found with
  | error err =>
    obtain ⟨rfl, rfl⟩ := rest₁
    exact ⟨same₁, by simp [log₁, before, fetched]; rfl⟩
  | ok found =>
    obtain ⟨answer, s₂, ⟨⟨⟨same₂, -⟩, -⟩, log₂⟩, rest₂⟩ := ends_ask_bind.mp rest₁
    obtain ⟨rfl, rfl⟩ := ends_orFail.mp rest₂
    refine ⟨same₂.trans same₁, ?_⟩
    cases answer <;> simp [log₂, log₁, before, fetched] <;> rfl

/-- A package fails to unpack, or the directory is wiped after a later failure. -/
theorem unpackProvision_fails {pkg : Package} {err : String}
    (ends : Ends (Recorded (Wiping o)) (unpackProvision m name pkg) s (.error err) s') :
    (s'.2.any spoiled = true ∧ ∃ tree, s'.1 = s.1.setTree name tree) ∨
      s'.1.trees name = .empty := by
  rcases ends_unpackProvision ends with ⟨_, -, ⟨effect, -⟩, log⟩ | ⟨_, s₁, -, later⟩
  · obtain ⟨_, ⟨_, _, -, same, -⟩ | ⟨_, tree, -, -, same⟩⟩ := effect
    · cases same
    · exact .inl ⟨by simp [log, spoiled], tree, same⟩
  rcases later with ⟨_, -, removed, -⟩ | ⟨manifest, -, -, rest⟩
  · exact .inr (removed.1.2 name rfl)
  obtain ⟨result, s₂, -, rest'⟩ := Program.ends_outcome_bind.mp rest
  cases result with
  | ok resources => cases (Program.ends_pure.mp rest').1
  | error err => exact .inr ((abandon_fails rest').2.1.2 name rfl)

/-- A failed upgrade downloads nothing and changes nothing, or fails in the unpacking and changes
the tree, or ends with the tree wiped. -/
theorem failed_upgrade_cases {err : String} {log : List Exchange}
    (ends : Ends (Recorded (Wiping o)) (upgrade m name version) (w, []) (.error err) (w', log)) :
    (log.any fetched = false ∧ w' = w) ∨ log.any fetched = true ∧
      ((log.any spoiled = true ∧ ∃ tree tree', w' = (w.setTree name tree).setTree name tree') ∨
        w'.trees name = .empty) := by
  obtain ⟨present, s₁, ⟨⟨⟨same₁, -⟩, -⟩, log₁⟩, rest₁⟩ := ends_ask_bind.mp ends
  have before : s₁.2.any fetched = false := by simp [log₁, fetched]
  have after {s s' : World × List Exchange} (earlier : s.2 <+: s'.2)
      (got : s.2.any fetched = true) : s'.2.any fetched = true := by
    obtain ⟨later, same⟩ := earlier
    rw [← same, List.any_append, got, Bool.true_or]
  rcases ends_bind.mp rest₁ with ⟨_, _, found, rest₂⟩ | ⟨_, -, missing⟩
  case inr =>
    obtain rfl := failWhen_keeps missing
    exact .inl ⟨before, same₁⟩
  obtain rfl := failWhen_keeps found
  rcases ends_bind.mp rest₂ with ⟨p, s₂, provisioned, rest₃⟩ | ⟨_, -, failed⟩
  · obtain ⟨pkg, s₃, downloaded, rest⟩ := ends_bind_ok.mp provisioned
    obtain ⟨_, _, -, removed⟩ := finishUpgrade_fails rest₃
    exact .inr ⟨after (rest.record_prefix.trans rest₃.record_prefix)
      (fetch_recorded before downloaded).2, .inr (removed.1.2 name rfl)⟩
  rcases ends_bind.mp failed with ⟨pkg, s₂, downloaded, rest₃⟩ | ⟨_, -, undone⟩
  case inr =>
    obtain ⟨same₂, none⟩ := fetch_recorded before undone
    exact .inl ⟨none, same₂.trans same₁⟩
  obtain ⟨same₂, got⟩ := fetch_recorded before downloaded
  refine .inr ⟨after rest₃.record_prefix got, ?_⟩
  obtain ⟨_, s₃, ⟨⟨⟨_, wiped⟩, -⟩, -⟩, rest₄⟩ := ends_ask_bind.mp rest₃
  rw [same₂, same₁] at wiped
  rcases unpackProvision_fails rest₄ with ⟨spoils, tree, same₄⟩ | gone
  · exact .inl ⟨spoils, _, tree, same₄.trans (by rw [wiped])⟩
  · exact .inr gone

end Recorded

/-- A plugin in version 1.0.0 with its unpacked tree. -/
def mediaInstalled : World :=
  (World.empty.setRows (AList.insert "media"
    ⟨"1.0.0", basicPlugin "media" "1.0.0", statusInstalled, []⟩ ∅)).setTree "media" fun path =>
      if path = [] then some .directory
      else if path = manifestPath then some (.file (.ok (basicPlugin "media" "1.0.0"))) else none

/-- Answers as `smooth`, only that no download succeeds. -/
def unavailable (o : Outside) (s : World × List Exchange) (q : Call) :
    q.Answer × World × List Exchange :=
  let answered : q.Answer × World :=
    match q with
    | .download _ => (.error "plugins: http 503", s.1)
    | q => smooth o s.1 q
  (answered.1, answered.2, s.2 ++ [⟨q, answered.1⟩])

theorem unavailable_recorded (o : Outside) (s : World × List Exchange) (q : Call) :
    Recorded (Wiping o) s q (unavailable o s q).1 (unavailable o s q).2 := by
  cases q with
  | download _ => exact ⟨⟨⟨rfl, .inr ⟨_, rfl⟩⟩, nofun⟩, rfl⟩
  | removeAll _ =>
    refine ⟨⟨smooth_effect o s.1 _, ?_⟩, rfl⟩
    rintro _ ⟨⟩
    exact Function.update_self ..
  | _ => exact ⟨⟨smooth_effect o s.1 _, nofun⟩, rfl⟩

/-- A new version of the plugin is on offer. -/
def mediaOffers : Outside :=
  ⟨.single [listing "media" [basicPlugin "media" "2.0.0"]], fun _ => true⟩

end NovaNas.Plugins
