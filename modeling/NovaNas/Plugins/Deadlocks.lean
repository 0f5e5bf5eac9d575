import NovaNas.Plugins.Chains

/-!
# Installations that wait for themselves

A chain of calls of Install returns, whatever other operations do meanwhile, unless the graph of
the packages on offer leads it back to a name whose lock it holds. The locks of other chains are
taken to be released at some time.
-/
namespace NovaNas.Plugins

open Program (Ends ends_bind ends_bind_ok ends_pure ends_throw ends_mapError)

variable {ε α : Type} {m : Manager} {o : Outside} {installed : Rows}
  {root req next : InstallRequest} {held : List String}

/-- The plugins of the table stay installed and the database can be read. Everything else may
change between two calls. -/
def Answers (o : Outside) (installed : Rows) : Program.Responses Unit Call.Answer :=
  fun _ q a _ => ∃ w w', (∀ name row, installed.lookup name = some row →
    w.rows.lookup name = some row) ∧ Steady o w q a w'

/-- The operation can have the result. -/
abbrev CanEnd (o : Outside) (installed : Rows) (c : Program.Attempt Call Call.Answer ε α)
    (r : Except ε α) : Prop :=
  Ends (Answers o installed) c () r ()

/-- The chain of calls came to its end, with or without an error. -/
def Returned (r : Except Stop α) : Prop :=
  ∀ stop, r = .error stop → ∃ message, stop = .failed message

/-- Install returns: with enough room for the recursion it has a result, and whatever the calls
answer the result is that of a call that came to its end. -/
def Returns (m : Manager) (o : Outside) (installed : Rows) (req : InstallRequest) : Prop :=
  ∃ enough, ∀ depth ≥ enough,
    (∃ r, CanEnd o installed (install m depth [] req) r) ∧
      ∀ r, CanEnd o installed (install m depth [] req) r → Returned r

/-- The manifest names each dependency once, and each of tier 2 can be had: it is installed in a
version that will do, or on offer. -/
structure Tidy (m : Manager) (o : Outside) (installed : Rows) (p : Plugin) : Prop where
  once : (p.dependencies.map Dependency.name).Nodup
  fits : ∀ dep ∈ p.dependencies, dep.source = .tier2 → ∀ row,
    installed.lookup dep.name = some row →
      constraintSatisfied m.semver dep.versionConstraint row.version = true
  offered : ∀ dep ∈ p.dependencies, dep.source = .tier2 → installed.lookup dep.name = none →
    ∃ version, Choice m.semver o p dep.name version

/-! ### Answers -/

theorem answers_sound {q : Call} {a : q.Answer} (answered : Answers o installed () q a ()) :
    ∃ w w', Effect o w q a w' := by
  obtain ⟨w, w', -, effect, -⟩ := answered
  exact ⟨w, w', effect⟩

theorem answers_reading {q : Call} {a : q.Answer}
    (steady : Steady o (World.empty.setRows installed) q a (World.empty.setRows installed)) :
    Answers o installed () q a () :=
  ⟨_, _, fun _ _ present => present, steady⟩

theorem answers_lookup (name : String) :
    Answers o installed () (.getPluginByName name) (installed.lookup name) () :=
  answers_reading ⟨⟨rfl, .inl rfl⟩, rfl⟩

theorem answers_found {down : List String} {name version id : String}
    {found : IndexPlugin × IndexVersion}
    (ok : o.sources.findVersion down name version id = .ok found) :
    Answers o installed () (.findVersion name version id) (.ok found) () :=
  answers_reading ⟨⟨rfl, .inl ⟨_, ⟨down, ok⟩, rfl⟩⟩, trivial⟩

/-- A plugin may appear at any time. -/
theorem answers_some (name : String) :
    ∃ row, Answers o installed () (.getPluginByName name) (some row) () := by
  cases present : installed.lookup name with
  | some row => exact ⟨row, present ▸ answers_lookup name⟩
  | none =>
    let row : Row := ⟨"", basicPlugin "" "", "", []⟩
    have there : (installed.insert name row).lookup name = some row := AList.lookup_insert _
    refine ⟨row, World.empty.setRows (installed.insert name row), _, fun other row' kept => ?_,
      ⟨rfl, .inl there.symm⟩, there.symm⟩
    refine (AList.lookup_insert_ne ?_).trans kept
    rintro rfl
    cases present.symm.trans kept

theorem missing_of_answer {name : String}
    (answered : Answers o installed () (.getPluginByName name) none ()) :
    installed.lookup name = none := by
  obtain ⟨w, _, kept, -, truth⟩ := answered
  cases present : installed.lookup name with
  | none => rfl
  | some row => cases truth.trans (kept name row present)

/-! ### The steps of a plan -/

section Plans

variable {semver : Semver} {p : Plugin} {done : List Dependency} {st st' : ResolveState}
  {dep : Dependency}

/-- What the walk knows after the dependencies in `done` comes from them and from what is on
offer. -/
structure Sensible (semver : Semver) (o : Outside) (p : Plugin) (done : List Dependency)
    (st : ResolveState) : Prop where
  constraints : ∀ name, st.constraintsOf name = constraintsOn done name
  names : ∀ step ∈ st.steps, step.name ∈ done.map Dependency.name
  steps : ∀ step ∈ st.steps, step.action = .install → Choice semver o p step.name step.version

theorem sensible_start : Sensible semver o p [] .start :=
  ⟨fun _ => rfl, List.forall_mem_nil _, List.forall_mem_nil _⟩

section

variable (sensible : Sensible semver o p done st)
include sensible

theorem Sensible.add {step : PlanStep} (named : step.name ∈ done.map Dependency.name)
    (choice : step.action = .install → Choice semver o p step.name step.version) :
    Sensible semver o p done (st.add step) := by
  refine ⟨sensible.constraints, ?_, ?_⟩ <;> intro other member
  all_goals rcases List.mem_append.mp member with old | new
  · exact sensible.names other old
  · exact List.mem_singleton.mp new ▸ named
  · exact sensible.steps other old
  · exact List.mem_singleton.mp new ▸ choice

theorem Sensible.constrain (source : dep.source = .tier2) :
    Sensible semver o p (done ++ [dep]) (st.constrain dep) := by
  refine ⟨fun name => ?_, fun step member => ?_, sensible.steps⟩
  · have before := sensible.constraints name
    by_cases same : dep.name = name <;>
      simp_all [ResolveState.constraintsOf, ResolveState.constrain, constraintsOn]
  · simpa using .inl (by simpa using sensible.names step member)

theorem Sensible.keep (among : dep ∈ done) {name cur : String}
    (kept : st.keep semver name dep cur = .ok st') :
    Sensible semver o p done st' := by
  rw [ResolveState.keep] at kept
  split at kept
  · cases kept
  · split at kept
    · cases kept
      exact sensible.add (List.mem_map_of_mem among) nofun
    · split at kept <;> cases kept
      exact sensible

theorem Sensible.choose (among : dep ∈ done) {picked : String}
    (choice : Choice semver o p dep.name picked) :
    Sensible semver o p done (st.choose semver dep picked) := by
  rw [ResolveState.choose]
  split
  · exact sensible.add (List.mem_map_of_mem among) fun _ => choice
  · split
    · refine ⟨sensible.constraints, ?_, ?_⟩ <;> intro step member
      all_goals
        obtain ⟨old, listed, rfl⟩ := List.mem_map.mp member
        by_cases same : old.name = dep.name
      · simpa [same] using sensible.names old listed
      · simpa [same] using sensible.names old listed
      · simpa [same] using fun _ => choice
      · simpa [same] using sensible.steps old listed
    · exact sensible

theorem Sensible.resolve (among : done ++ [dep] <+: p.dependencies)
    (ends : CanEnd o installed (resolveDependency semver p st dep) (.ok st')) :
    Sensible semver o p (done ++ [dep]) st' := by
  rw [resolveDependency] at ends
  split at ends
  next source =>
    have bundled : Sensible semver o p (done ++ [dep]) st :=
      ⟨fun name => by simp [sensible.constraints, constraintsOn, source],
        fun step member => by simpa using .inl (by simpa using sensible.names step member),
        sensible.steps⟩
    obtain ⟨same, -⟩ := ends_pure.mp ends
    cases same
    rw [ResolveState.bundle]
    split
    · exact bundled
    · exact bundled.add (by simp) nofun
  next => cases (ends_throw.mp ends).1
  next source =>
    have constrained := sensible.constrain source
    obtain ⟨_, _, -, rest₁⟩ := ends_bind_ok.mp ends
    obtain ⟨present, _, -, rest₂⟩ := ends_ask_bind.mp rest₁
    cases present with
    | some row => exact constrained.keep (by simp) (ends_orFail_ok.mp rest₂).1
    | none =>
      obtain ⟨found, _, lookup, rest₃⟩ := ends_ask_bind.mp rest₂
      obtain ⟨⟨plugin, listed⟩, _, ok, rest₄⟩ := ends_bind_ok.mp rest₃
      obtain ⟨picked, _, ok', rest₅⟩ := ends_bind_ok.mp rest₄
      obtain ⟨rfl, -⟩ := ends_orFail_ok.mp ok
      obtain ⟨pick, -⟩ := ends_orFail_ok.mp ok'
      obtain ⟨same, -⟩ := ends_pure.mp rest₅
      cases same
      obtain ⟨_, _, -, ⟨_, ⟨down, there⟩, same⟩ | ⟨_, same⟩⟩ := answers_sound lookup <;> cases same
      rw [constrained.constraints] at pick
      refine constrained.choose (by simp) ⟨down, plugin, listed, _, there, ?_, ?_, pick⟩
      · simp [constraintsOn, source]
      · exact (among.filter _).map _

theorem Sensible.walk {deps : List Dependency} (split : done ++ deps = p.dependencies)
    (ends : CanEnd o installed (walk semver p deps st) (.ok st')) :
    Sensible semver o p p.dependencies st' := by
  induction deps generalizing done st with
  | nil =>
    obtain ⟨same, -⟩ := ends_pure.mp ends
    cases same
    rwa [List.append_nil, ← split] at *
  | cons dep deps ih =>
    obtain ⟨next, _, resolved, rest⟩ := ends_bind_ok.mp ends
    rw [List.append_cons] at split
    exact ih (sensible.resolve ⟨deps, split⟩ resolved) split rest

end

/-- What a plan asks to install are edges of the graph. -/
theorem requires_of_plan {steps : List PlanStep} (named : req.name ≠ "")
    (ends : CanEnd o installed (preparePlan m req) (.ok steps)) {step : PlanStep}
    (member : step ∈ steps) (pending : step.pending req.name = true)
    (needed : installed.lookup step.name = none) :
    Requires m o installed req ⟨step.name, step.version, req.marketplaceID⟩ := by
  obtain ⟨present, _, looked, rest₁⟩ := ends_ask_bind.mp ends
  obtain ⟨_, _, absent, rest₂⟩ := ends_bind_ok.mp rest₁
  obtain ⟨pkg, _, fetched, rest₃⟩ := ends_bind_ok.mp rest₂
  obtain ⟨unpacked, _, answer, rest₄⟩ := ends_ask_bind.mp rest₃
  obtain ⟨x, _, ok, rest₅⟩ := ends_bind_ok.mp rest₄
  obtain ⟨manifest, _, ok', planned⟩ := ends_bind_ok.mp rest₅
  obtain ⟨rfl, -⟩ := ends_orFail_ok.mp ok
  obtain ⟨parsed, -⟩ := ends_orFail_ok.mp ok'
  obtain ⟨st, _, walked, rest₆⟩ := ends_bind_ok.mp planned
  obtain ⟨same, -⟩ := ends_pure.mp rest₆
  cases same
  obtain ⟨_, _, -, ⟨_, ⟨faults, tree, extracted⟩, same⟩ | ⟨_, same⟩⟩ := answers_sound answer <;>
    cases same
  obtain rfl : present = none := by simpa using (ends_failWhen_ok.mp absent).1
  have sensible := sensible_start.walk rfl walked
  simp only [PlanStep.pending, Bool.and_eq_true, decide_eq_true_eq] at pending
  refine ⟨named, pending.1, missing_of_answer looked, needed, rfl, manifest,
    ⟨pkg, faults, x, tree, offers_of_fetched (fun _ _ _ _ => answers_sound) fetched, extracted,
      parsed⟩, ?_⟩
  rcases List.mem_append.mp member with old | new
  · exact .inr (sensible.steps step old pending.2)
  · obtain rfl := List.mem_singleton.mp new
    exact .inl ⟨rfl, rfl⟩

end Plans

/-! ### The names on the way -/

theorem Offers.listed {pkg : Package} (offers : Offers o req pkg) : req.name ∈ o.sources.names := by
  obtain ⟨down, plugin, listed, found, -⟩ := offers
  obtain ⟨lists, named, -⟩ := Sources.findVersion_ok found
  rw [← named]
  exact lists.name_mem

theorem Requires.listed (requires : Requires m o installed req next) :
    req.name ∈ o.sources.names := by
  obtain ⟨manifest, ⟨pkg, _, _, _, offers, -⟩, -⟩ := requires.published
  exact offers.listed

section

variable (reached : Reaches m o installed root held req)
include reached

theorem Reaches.nodup : held.Nodup := by
  induction reached with
  | start => exact List.nodup_nil
  | dependency _ free _ ih => exact List.nodup_cons.mpr ⟨free, ih⟩

theorem Reaches.listed :
    held ⊆ o.sources.names := by
  induction reached with
  | start => exact List.nil_subset _
  | dependency _ _ requires ih => exact List.cons_subset.mpr ⟨requires.listed, ih⟩

theorem Reaches.named : "" ∉ held := by
  induction reached with
  | start => exact List.not_mem_nil
  | dependency _ _ requires ih => simp [requires.named.symm, ih]

/-- A chain is not deeper than there are names. -/
theorem Reaches.length_le :
    held.length ≤ o.sources.names.length :=
  (List.subperm_of_subset reached.nodup reached.listed).length_le

end

/-! ### Chains that return -/

theorem returned_ok {a : α} : Returned (.ok a) := nofun

theorem returned_failed {message : String} : Returned (α := α) (.error (.failed message)) := by
  rintro _ ⟨⟩
  exact ⟨message, rfl⟩

theorem Returned.error {β : Type} {stop : Stop} (returned : Returned (α := α) (.error stop)) :
    Returned (α := β) (.error stop) := by
  obtain ⟨message, rfl⟩ := returned stop rfl
  exact returned_failed

theorem returned_ordinary {operation : Operation α} {r : Except Stop α}
    (ends : CanEnd o installed (ordinary operation) r) : Returned r := by
  obtain ⟨result, rfl, -⟩ := ends_ordinary.mp ends
  cases result with
  | ok a => exact returned_ok
  | error err => exact returned_failed

theorem returned_dependencies {nested : InstallRequest → Chain Installation}
    {steps : List PlanStep} {r : Except Stop Unit}
    (returns : ∀ step ∈ steps, step.pending req.name = true →
      installed.lookup step.name = none → ∀ r,
        CanEnd o installed (nested ⟨step.name, step.version, req.marketplaceID⟩) r → Returned r)
    (ends : CanEnd o installed (installDependencies nested req steps) r) : Returned r := by
  induction steps with
  | nil =>
    obtain ⟨rfl, -⟩ := ends_pure.mp ends
    exact returned_ok
  | cons step steps ih =>
    have others := fun other member => returns other (List.mem_cons_of_mem step member)
    rw [installDependencies] at ends
    split at ends
    · exact ih others ends
    · rename_i pending
      rcases ends_bind.mp ends with ⟨present, _, looked, rest⟩ | ⟨stop, rfl, failed⟩
      · cases present with
        | some row => exact ih others rest
        | none =>
          rcases ends_bind.mp rest with ⟨done, _, -, rest'⟩ | ⟨stop, rfl, failed⟩
          · exact ih others rest'
          · obtain ⟨result, same, inner⟩ := ends_mapError.mp failed
            obtain ⟨_, ok, answered⟩ := Program.ends_request.mp (ends_ordinary_ok.mp looked)
            cases ok
            have returned := returns step List.mem_cons_self (by simpa using pending)
              (missing_of_answer answered) result inner
            cases result with
            | ok a => cases same
            | error stop =>
              obtain ⟨message, rfl⟩ := returned stop rfl
              cases same
              exact returned_failed
      · exact (returned_ordinary failed).error

/-- One call of Install, if those for its dependencies return. -/
theorem returned_install_succ {depth : Nat} {r : Except Stop Installation} (free : req.name ∉ held)
    (returns : ∀ next, Requires m o installed req next → ∀ r,
      CanEnd o installed (install m depth (req.name :: held) next) r → Returned r)
    (ends : CanEnd o installed (install m (depth + 1) held req) r) : Returned r := by
  by_cases named : req.name = ""
  · rw [install, if_pos named] at ends
    obtain ⟨rfl, -⟩ := ends_throw.mp ends
    exact returned_failed
  rw [install_succ named free] at ends
  rcases ends_bind.mp ends with ⟨steps, _, prepared, rest⟩ | ⟨stop, rfl, failed⟩
  · rcases ends_bind.mp rest with ⟨_, _, -, rest'⟩ | ⟨stop, rfl, failed⟩
    · rcases ends_bind.mp rest' with ⟨p, _, -, done⟩ | ⟨stop, rfl, failed⟩
      · obtain ⟨rfl, -⟩ := ends_pure.mp done
        exact returned_ok
      · exact (returned_ordinary failed).error
    · refine (returned_dependencies (fun step member pending needed => ?_) failed).error
      exact returns _ (requires_of_plan named (ends_ordinary_ok.mp prepared) member pending needed)
  · exact (returned_ordinary failed).error

/-- The induction is on the room left; the locks held are different listed names, so it does not
run out. -/
theorem returned_install (safe : ¬Circular m o installed root) {depth : Nat}
    (reached : Reaches m o installed root held req)
    (room : o.sources.names.length < depth + held.length) {r : Except Stop Installation}
    (ends : CanEnd o installed (install m depth held req) r) : Returned r := by
  induction depth generalizing held req r with
  | zero =>
    have := reached.length_le
    omega
  | succ depth ih =>
    have free : req.name ∉ held := fun blocked => safe ⟨held, req, reached, blocked⟩
    refine returned_install_succ free (fun next requires _ inner => ?_) ends
    refine ih (reached.dependency free requires) ?_ inner
    rw [List.length_cons]
    omega

/-! ### Chains that wait -/

section Waits

variable {p : Plugin} {done deps : List Dependency} {st : ResolveState} {dep : Dependency}
  {version : String → String}

theorem constraintsOn_of_absent {name : String} (absent : name ∉ deps.map Dependency.name) :
    constraintsOn deps name = [] := by
  simp only [constraintsOn, List.map_eq_nil_iff, List.filter_eq_nil_iff]
  rintro dep member passes
  simp only [decide_eq_true_eq] at passes
  exact absent (List.mem_map.mpr ⟨dep, member, passes.2⟩)

theorem constraintsOn_once (source : dep.source = .tier2)
    (before : dep.name ∉ done.map Dependency.name) (after : dep.name ∉ deps.map Dependency.name) :
    constraintsOn (done ++ dep :: deps) dep.name = [dep.versionConstraint] := by
  rw [constraintsOn, List.filter_append, List.filter_cons_of_pos (by simp [source]),
    List.map_append, List.map_cons]
  exact congrArg₂ (· ++ dep.versionConstraint :: ·) (constraintsOn_of_absent before)
    (constraintsOn_of_absent after)

section Rounds

variable {st' : ResolveState} {semver : Semver} (source : dep.source = .tier2)
  (other : dep.name ≠ p.name)
include source other

/-- A plugin that is installed is kept if it will do. -/
theorem canEnd_keep {row : Row} (present : installed.lookup dep.name = some row)
    (kept : (st.constrain dep).keep semver p.name dep row.version = .ok st') :
    CanEnd o installed (resolveDependency semver p st dep) (.ok st') := by
  simp only [resolveDependency, source]
  refine ends_bind_ok.mpr ⟨(), (), ends_failWhen_ok.mpr ⟨other, rfl⟩, ?_⟩
  exact ends_ask_bind.mpr ⟨some row, (), present ▸ answers_lookup dep.name,
    ends_orFail_ok.mpr ⟨kept, rfl⟩⟩

/-- One that is missing is chosen from what is on offer. -/
theorem canEnd_choose {down : List String} {plugin : IndexPlugin} {listed : IndexVersion}
    {picked : String} (missing : installed.lookup dep.name = none)
    (found : o.sources.findVersion down dep.name "" "" = .ok (plugin, listed))
    (pick : pickHighestSatisfying semver plugin.versions
      ((st.constrain dep).constraintsOf dep.name) = .ok picked) :
    CanEnd o installed (resolveDependency semver p st dep)
      (.ok ((st.constrain dep).choose semver dep picked)) := by
  simp only [resolveDependency, source]
  refine ends_bind_ok.mpr ⟨(), (), ends_failWhen_ok.mpr ⟨other, rfl⟩, ?_⟩
  refine ends_ask_bind.mpr ⟨none, (), missing ▸ answers_lookup dep.name, ?_⟩
  refine ends_ask_bind.mpr ⟨_, (), answers_found found, ?_⟩
  refine ends_bind_ok.mpr ⟨_, (), ends_orFail_ok.mpr ⟨rfl, rfl⟩, ?_⟩
  refine ends_bind_ok.mpr ⟨_, (), ends_orFail_ok.mpr ⟨pick, rfl⟩, ?_⟩
  exact ends_pure.mpr ⟨rfl, rfl⟩

end Rounds

section

variable (tidy : Tidy m o installed p) (valid : p.problems m.semver = [])
  (chosen : ∀ name, (∃ v, Choice m.semver o p name v) → Choice m.semver o p name (version name))
include tidy valid chosen

/-- The first time the walk meets a name it can add a step for it. -/
theorem canEnd_resolve (split : done ++ dep :: deps = p.dependencies)
    (sensible : Sensible m.semver o p done st) :
    ∃ (st' : ResolveState) (step : PlanStep),
      CanEnd o installed (resolveDependency m.semver p st dep) (.ok (st'.add step)) ∧
      st'.steps = st.steps ∧
      (dep.source = .tier2 → installed.lookup dep.name = none →
        step.name = dep.name ∧ step.version = version dep.name ∧ step.action = .install) := by
  have member : dep ∈ p.dependencies := split ▸ by simp
  obtain ⟨-, source, other⟩ := valid_dependency valid member
  have once := tidy.once
  rw [← split, List.map_append, List.map_cons, List.nodup_middle, List.nodup_cons,
    List.mem_append, not_or] at once
  have fresh : st.stepFor dep.name = none := by
    rw [ResolveState.stepFor, List.find?_eq_none]
    exact fun step listed same => once.1.1 (of_decide_eq_true same ▸ sensible.names step listed)
  have absent : (st.constrain dep).stepFor dep.name = none := fresh
  rcases source with source | source
  · cases present : installed.lookup dep.name with
    | some row =>
      have fits := tidy.fits dep member source row present
      refine ⟨st.constrain dep, ⟨dep.name, row.version, .tier2, .skip, dep.versionConstraint⟩,
        canEnd_keep source other present ?_, rfl, fun _ missing => ?_⟩
      · simp [ResolveState.keep, fits, absent]
      · cases missing
    | none =>
      obtain ⟨down, plugin, listed, constraints, found, some, among, pick⟩ :=
        chosen _ (tidy.offered dep member source present)
      have own : (st.constrain dep).constraintsOf dep.name = [dep.versionConstraint] :=
        ((sensible.constrain source).constraints _).trans
          (constraintsOn_once source once.1.1 List.not_mem_nil)
      rw [← split, constraintsOn_once source once.1.1 once.1.2] at among
      rw [among.eq_of_length_le (List.length_pos_iff.mpr some), ← own] at pick
      have ends := canEnd_choose source other present found pick
      rw [ResolveState.choose, absent] at ends
      exact ⟨_, _, ends, rfl, fun _ _ => ⟨rfl, rfl, rfl⟩⟩
  · refine ⟨st, ⟨dep.name, "", .bundled, .bundled, dep.versionConstraint⟩, ?_, rfl,
      fun tier2 => ?_⟩
    · simp only [resolveDependency, source]
      refine ends_pure.mpr ⟨?_, rfl⟩
      rw [ResolveState.bundle, fresh]
    · cases source.symm.trans tier2

theorem canEnd_walk (split : done ++ deps = p.dependencies)
    (sensible : Sensible m.semver o p done st) :
    ∃ st', CanEnd o installed (walk m.semver p deps st) (.ok st') ∧ st.steps ⊆ st'.steps ∧
      ∀ dep ∈ deps, dep.source = .tier2 → installed.lookup dep.name = none →
        ∃ step ∈ st'.steps,
          step.name = dep.name ∧ step.version = version dep.name ∧ step.action = .install := by
  induction deps generalizing done st with
  | nil => exact ⟨st, ends_pure.mpr ⟨rfl, rfl⟩, List.Subset.refl _, by simp⟩
  | cons dep deps ih =>
    obtain ⟨st₁, step, resolved, same, own⟩ := canEnd_resolve tidy valid chosen split sensible
    rw [List.append_cons] at split
    obtain ⟨st₂, walked, kept, steps⟩ := ih split (sensible.resolve ⟨deps, split⟩ resolved)
    rw [ResolveState.add, same] at kept
    refine ⟨st₂, ends_bind_ok.mpr ⟨_, (), resolved, walked⟩,
      fun _ old => kept (List.mem_append_left _ old), fun other member source needed => ?_⟩
    rcases List.mem_cons.mp member with rfl | rest
    · exact ⟨step, kept (by simp), own source needed⟩
    · exact steps other rest source needed

end

/-- A published manifest whose dependencies are resolved gives a plan. -/
theorem canEnd_plan {manifest : Plugin} (missing : installed.lookup req.name = none)
    (published : Published m o req manifest)
    (walked : CanEnd o installed (walk m.semver manifest manifest.dependencies .start) (.ok st)) :
    CanEnd o installed (preparePlan m req)
      (.ok (st.steps ++ [⟨manifest.name, manifest.version, .tier2, .install, ""⟩])) := by
  obtain ⟨pkg, faults, x, tree, ⟨down, plugin, listed, found, verified⟩, extracted, parsed⟩ :=
    published
  refine ends_ask_bind.mpr ⟨none, (), missing ▸ answers_lookup req.name, ?_⟩
  refine ends_bind_ok.mpr ⟨(), (), ends_failWhen_ok.mpr ⟨by simp, rfl⟩, ?_⟩
  refine ends_bind_ok.mpr ⟨pkg, (), ?_, ?_⟩
  · refine ends_ask_bind.mpr ⟨_, (), answers_found found, ?_⟩
    refine ends_bind_ok.mpr ⟨_, (), ends_orFail_ok.mpr ⟨rfl, rfl⟩, ?_⟩
    exact ends_ask_bind.mpr ⟨_, (),
      answers_reading ⟨⟨rfl, .inl ⟨_, verified, rfl⟩⟩, trivial⟩, ends_orFail_ok.mpr ⟨rfl, rfl⟩⟩
  · refine ends_ask_bind.mpr ⟨_, (),
      answers_reading ⟨⟨rfl, .inl ⟨_, ⟨faults, tree, extracted⟩, rfl⟩⟩, trivial⟩, ?_⟩
    refine ends_bind_ok.mpr ⟨_, (), ends_orFail_ok.mpr ⟨rfl, rfl⟩, ?_⟩
    refine ends_bind_ok.mpr ⟨_, (), ends_orFail_ok.mpr ⟨parsed, rfl⟩, ?_⟩
    exact ends_bind_ok.mpr ⟨st, (), walked, ends_pure.mpr ⟨rfl, rfl⟩⟩

variable (tidy : ∀ req manifest, Published m o req manifest → Tidy m o installed manifest)

include tidy in
/-- Every edge of the graph is a step of some plan. -/
theorem canEnd_preparePlan (requires : Requires m o installed req next) :
    ∃ steps step, CanEnd o installed (preparePlan m req) (.ok steps) ∧ step ∈ steps ∧
      step.pending req.name = true ∧ step.name = next.name ∧ step.version = next.version := by
  obtain ⟨manifest, published, edge⟩ := requires.published
  have valid : manifest.problems m.semver = [] := by
    obtain ⟨_, _, _, _, -, -, parsed⟩ := id published
    exact parseManifest_valid parsed
  classical
  -- The version of the edge is chosen where it can be, and any other elsewhere.
  let version (name : String) : String :=
    if Choice m.semver o manifest name next.version then next.version
    else Classical.epsilon (Choice m.semver o manifest name)
  have chosen (name : String) (some : ∃ v, Choice m.semver o manifest name v) :
      Choice m.semver o manifest name (version name) := by
    by_cases offered : Choice m.semver o manifest name next.version
    · rwa [show version name = next.version from if_pos offered]
    · rw [show version name = _ from if_neg offered]
      exact Classical.epsilon_spec some
  obtain ⟨st, walked, -, steps⟩ :=
    canEnd_walk (tidy req manifest published) valid chosen rfl sensible_start
  have prepared := canEnd_plan requires.missing published walked
  have pends {step : PlanStep} (name : step.name = next.name) (action : step.action = .install) :
      step.pending req.name = true := by
    simp [PlanStep.pending, name, action, requires.other]
  rcases edge with ⟨name, version⟩ | choice
  · exact ⟨_, _, prepared, List.mem_append_right _ List.mem_cons_self, pends name.symm rfl,
      name.symm, version.symm⟩
  · obtain ⟨_, _, _, constraints, -, some, among, -⟩ := id choice
    obtain ⟨c, within⟩ := List.exists_mem_of_ne_nil constraints some
    obtain ⟨dep, listed, -⟩ := List.mem_map.mp (among.subset within)
    obtain ⟨member, source⟩ := List.mem_filter.mp listed
    obtain ⟨source, same⟩ := of_decide_eq_true source
    obtain ⟨step, member, name, picked, action⟩ :=
      steps dep member source (same ▸ requires.needed)
    rw [same] at name picked
    exact ⟨_, step, prepared, List.mem_append_left _ member, pends name action, name,
      picked.trans (if_pos choice)⟩

/-- Where one nested installation can wait for a lock, the loop can. -/
theorem blocked_dependency {nested : InstallRequest → Chain Installation} {steps : List PlanStep}
    {step : PlanStep} {name : String} (member : step ∈ steps)
    (pending : step.pending req.name = true) (needed : installed.lookup step.name = none)
    (blocks : CanEnd o installed (nested ⟨step.name, step.version, req.marketplaceID⟩)
      (.error (.blocked name))) :
    CanEnd o installed (installDependencies nested req steps) (.error (.blocked name)) := by
  have asks (name : String) {present : Option Row}
      (answered : Answers o installed () (.getPluginByName name) present ()) :
      CanEnd o installed (ordinary (ask (.getPluginByName name))) (.ok present) :=
    ends_ordinary_ok.mpr (Program.ends_request.mpr ⟨_, rfl, answered⟩)
  induction steps with
  | nil => cases member
  | cons first steps ih =>
    rw [installDependencies]
    by_cases here : first = step
    · subst here
      rw [pending, if_neg (by simp)]
      refine ends_bind.mpr (.inl ⟨none, (), asks _ (needed ▸ answers_lookup first.name), ?_⟩)
      exact ends_bind.mpr (.inr ⟨_, rfl, ends_mapError.mpr ⟨_, rfl, blocks⟩⟩)
    · have later := ih ((List.mem_cons.mp member).resolve_left (Ne.symm here))
      split
      · exact later
      -- The steps before it are found installed.
      · obtain ⟨row, answered⟩ := answers_some first.name
        exact ends_bind.mpr (.inl ⟨some row, (), asks _ answered, later⟩)

include tidy

theorem blocked_install (free : req.name ∉ held) (requires : Requires m o installed req next)
    {depth : Nat} {name : String}
    (blocks : CanEnd o installed (install m depth (req.name :: held) next)
      (.error (.blocked name))) :
    CanEnd o installed (install m (depth + 1) held req) (.error (.blocked name)) := by
  obtain ⟨steps, step, prepared, member, pending, named, version⟩ :=
    canEnd_preparePlan tidy requires
  have same : next = ⟨step.name, step.version, req.marketplaceID⟩ := by
    rw [named, version, ← requires.market]
  rw [install_succ requires.named free]
  refine ends_bind.mpr (.inl ⟨steps, (), ends_ordinary_ok.mpr prepared, ?_⟩)
  refine ends_bind.mpr (.inr ⟨_, rfl, ?_⟩)
  exact blocked_dependency member pending (named ▸ requires.needed) (same ▸ blocks)

/-- Where a nested installation can wait for a lock, the whole call can. -/
theorem Reaches.blocked (reached : Reaches m o installed root held req)
    {name : String} (enough : Nat) (blocks : ∀ depth ≥ enough,
      CanEnd o installed (install m depth held req) (.error (.blocked name))) :
    ∃ enough, ∀ depth ≥ enough,
      CanEnd o installed (install m depth [] root) (.error (.blocked name)) := by
  induction reached generalizing enough with
  | start => exact ⟨enough, blocks⟩
  | dependency reached free requires ih =>
    refine ih (enough + 1) fun depth deep => ?_
    obtain ⟨d, rfl⟩ := Nat.exists_eq_add_of_le deep
    rw [Nat.add_right_comm]
    exact blocked_install tidy free requires (blocks _ (Nat.le_add_right enough d))

end Waits

theorem canEnd_somehow (c : Chain α) : ∃ r, CanEnd o installed c r := by
  let handler : Unit → (q : Call) → q.Answer × Unit :=
    fun _ q => ((smooth o (World.empty.setRows installed) q).1, ())
  have sound : ∀ s q, Answers o installed s q (handler s q).1 (handler s q).2 :=
    fun _ q => ⟨_, _, fun _ _ present => present, smooth_steady o _ q⟩
  exact ⟨_, Program.run_exec sound c.run ()⟩

/-- Two plugins that depend on each other. -/
def cyclicOffers : Outside :=
  let needing (name other : String) : Plugin :=
    { basicPlugin name "1.0.0" with dependencies := [⟨other, "", .tier2⟩] }
  ⟨.single [listing "alpha" [needing "alpha" "beta"], listing "beta" [needing "beta" "alpha"]],
    fun _ => true⟩

end NovaNas.Plugins
