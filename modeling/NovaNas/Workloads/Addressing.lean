import NovaNas.Base.Interleaving
import NovaNas.Workloads.Manager

/-!
# Finding releases again

Helm knows a release by its namespace and its name, the API by its name alone. What the API lists
it can also read and remove, each release on its own, exactly as long as every release is in the
namespace that bears its name. Requests that name no other namespace keep it so.
-/
namespace NovaNas.Workloads

open Program

variable {V : Type}

/-! ### The cluster -/

abbrev Releases (V : Type) := Cluster (Release.key (V := V))

def HelmInstallRequest.release (req : HelmInstallRequest V) : Release V where
  name := req.releaseName
  namespace_ := req.namespace_
  chart := req.chartName
  version := req.version
  values := req.values

/-- What a call does when nothing goes wrong. -/
def serve : Service (Releases V) HelmError (Reply (V := V))
  | c, .getNamespace ns => (if c.holds ns then .ok () else .error .notFound, c)
  | c, .createNamespace ns _ =>
    if c.holds ns then (.error .alreadyExists, c) else (.ok (), c.ensure ns)
  | c, .deleteNamespace ns =>
    if c.holds ns then (.ok (), c.dropNamespace ns) else (.error .notFound, c)
  | c, .list => (.ok c.objects, c)
  | c, .get ns name =>
    match c.find (ns, name) with
    | some rel => (.ok rel, c)
    | none => (.error .notFound, c)
  | c, .install req =>
    if c.holds req.namespace_ then
      match c.create req.release with
      | some c' => (.ok req.release, c')
      | none => (.error .nameInUse, c)
    else (.error (.other "namespaces not found".toList), c)
  | c, .uninstall ns name =>
    if (c.find (ns, name)).isSome then (.ok (), c.remove (ns, name)) else (.error .notFound, c)

abbrev Healthy := Service.Healthy (serve (V := V))

abbrev Responds := Service.Faulty (serve (V := V))

/-! ### Addresses -/

/-- Every release the API lists it also finds by its name, in its namespace, and removes by its
name without touching another one. -/
def Addressed (m : Manager V) (c : Releases V) : Prop :=
  ∀ releases after, Ends Healthy m.list c (.ok releases) after → ∀ rel ∈ releases,
    Ends Healthy (m.get rel.name) c (.ok rel) c ∧
      ∃ c', Ends Healthy (m.uninstall rel.name) c (.ok ()) c' ∧
        ∀ other, other ∈ c'.objects ↔ other ∈ c.objects ∧ other ≠ rel

/-- The release bears a valid name and its namespace bears that name, if the API shows it at all. -/
def Release.AtHome (rel : Release V) : Prop :=
  namespacePrefix.isPrefixOf rel.namespace_ = true →
    validateReleaseName rel.name = .ok () ∧ rel.namespace_ = namespacePrefix ++ rel.name

section Addresses

variable {m : Manager V} {c c' : Releases V} {rel : Release V} {name : Name}

theorem list_ok {releases : List (Release V)} (connected : m.connected = true)
    (ends : Ends Healthy m.list c (.ok releases) c') : releases = managed c.objects := by
  simp only [Manager.list, Manager.helmList, connected, Bool.not_true, Bool.false_eq_true,
    if_false] at ends
  obtain ⟨listed, m₁, asked, same, -⟩ := ends_bind_ok.mp ends
  obtain ⟨a, answer, served⟩ := ends_consult.mp asked
  cases served
  cases answer
  exact Except.ok.inj same

theorem list_ends (connected : m.connected = true) :
    Ends Healthy m.list c (.ok (managed c.objects)) c := by
  simp only [Manager.list, Manager.helmList, connected, Bool.not_true, Bool.false_eq_true,
    if_false]
  exact ends_bind_ok.mpr ⟨c.objects, c, ends_consult.mpr ⟨.ok c.objects, rfl, rfl⟩, rfl, rfl⟩

theorem mem_managed : rel ∈ managed c.objects ↔
    rel ∈ c.objects ∧ namespacePrefix.isPrefixOf rel.namespace_ = true := by
  rw [managed, List.mem_insertionSort, List.mem_filter]

/-- A release is read where its name says. -/
theorem get_ok_iff (connected : m.connected = true) :
    Ends Healthy (m.get name) c (.ok rel) c ↔
      validateReleaseName name = .ok () ∧ c.find (namespacePrefix ++ name, name) = some rel := by
  rw [Manager.get]
  cases valid : validateReleaseName name with
  | error err => simp [liftExcept_error_bind]
  | ok =>
    rw [liftExcept_ok_bind, Manager.helmGet]
    simp only [connected, Bool.not_true, Bool.false_eq_true, if_false, true_and]
    rw [ends_consult]
    cases found : c.find (namespacePrefix ++ name, name) with
    | none =>
      simp only [Service.Healthy, serve, found]
      simp [Except.mapError]
    | some other =>
      simp only [Service.Healthy, serve, found]
      simp [Except.mapError, eq_comm]

/-- Where the name finds a release, it removes it and what else is in its namespace. -/
theorem uninstall_ends (connected : m.connected = true) (valid : validateReleaseName name = .ok ())
    (found : c.find (namespacePrefix ++ name, name) = some rel) :
    Ends Healthy (m.uninstall name) c (.ok ())
      ((c.remove (namespacePrefix ++ name, name)).dropNamespace (namespacePrefix ++ name)) := by
  rw [Manager.uninstall, valid, liftExcept_ok_bind, Manager.helmUninstall]
  simp only [connected, Bool.not_true, Bool.false_eq_true, if_false]
  have removed : serve c (.uninstall (namespacePrefix ++ name) name) =
      (.ok (), c.remove (namespacePrefix ++ name, name)) := by
    simp [serve, found]
  have stays : namespacePrefix ++ name ∈ c.namespaces := by
    obtain ⟨member, at_⟩ := Cluster.find_eq_some found
    have inside := c.housed rel member
    rwa [at_] at inside
  have dropped : serve (c.remove (namespacePrefix ++ name, name))
      (.deleteNamespace (namespacePrefix ++ name)) = (.ok (), (c.remove (namespacePrefix ++ name,
        name)).dropNamespace (namespacePrefix ++ name)) := if_pos (Cluster.holds_iff.mpr stays)
  exact ends_bind_ok.mpr ⟨(), _, consult_serves removed,
    ends_request_bind.mpr ⟨.ok (), _, dropped.symm, rfl, rfl⟩⟩

/-- What the API lists it also finds and removes, exactly if every release is at home. -/
theorem addressed_iff (connected : m.connected = true) :
    Addressed m c ↔ ∀ rel ∈ c.objects, rel.AtHome := by
  constructor
  · intro addressed rel member shown
    have listed := mem_managed.mpr ⟨member, shown⟩
    obtain ⟨got, -⟩ := addressed _ c (list_ends connected) rel listed
    obtain ⟨valid, found⟩ := (get_ok_iff connected).mp got
    exact ⟨valid, congrArg Prod.fst (Cluster.find_eq_some found).2⟩
  · intro home releases after listed rel shown
    rw [list_ok connected listed] at shown
    obtain ⟨member, managed⟩ := mem_managed.mp shown
    obtain ⟨valid, own⟩ := home rel member managed
    have at_ : rel.key = (namespacePrefix ++ rel.name, rel.name) := Prod.ext own rfl
    have found : c.find (namespacePrefix ++ rel.name, rel.name) = some rel :=
      at_ ▸ Cluster.find_mem member
    refine ⟨(get_ok_iff connected).mpr ⟨valid, found⟩, _, uninstall_ends connected valid found, ?_⟩
    intro other
    rw [Cluster.mem_dropNamespace, Cluster.mem_remove, and_assoc]
    -- Nothing else is in the namespace: what is there bears the same name.
    constructor
    · rintro ⟨there, differs, -⟩
      exact ⟨there, fun same => differs (same ▸ at_)⟩
    · rintro ⟨there, differs⟩
      have elsewhere : other.namespace_ ≠ namespacePrefix ++ rel.name := by
        intro inside
        have shares := (home other there (by rw [inside, ← own]; exact managed)).2
        have names : other.name = rel.name := List.append_cancel_left (shares.symm.trans inside)
        have keys : other.key = rel.key := Prod.ext (inside.trans own.symm) names
        exact differs (List.inj_on_of_nodup_map c.distinct there member keys)
      exact ⟨there, fun same => elsewhere (congrArg Prod.fst same), elsewhere⟩

end Addresses

/-! ### Runs -/

inductive Event (V : Type) where
  | installed (req : InstallRequest) (result : Except Failure (Release V))
  | uninstalled (releaseName : Name) (result : Except Failure Unit)

def Event.Step (m : Manager V) (c : Releases V) : Event V → Releases V → Prop
  | .installed req result, c' => Ends Responds (m.install req) c result c'
  | .uninstalled releaseName result, c' => Ends Responds (m.uninstall releaseName) c result c'

/-- A request names the namespace that bears the release's name, or none. -/
def Event.Homely : Event V → Prop
  | .installed req _ => req.effectiveNamespace = namespacePrefix ++ req.releaseName
  | .uninstalled .. => True

/-- The call puts no release elsewhere than in the namespace that bears its name. -/
def HelmCall.Homely : HelmCall V → Prop
  | .install req => req.release.AtHome
  | .getNamespace _ | .createNamespace .. | .deleteNamespace _ | .list | .get .. | .uninstall .. =>
    True

section Runs

variable {m : Manager V} {c c' : Releases V}

theorem home_served (c : Releases V) (q : HelmCall V) (homely : q.Homely)
    (home : ∀ rel ∈ c.objects, rel.AtHome) : ∀ rel ∈ (serve c q).2.objects, rel.AtHome := by
  cases q with
  | getNamespace _ | list => exact home
  | createNamespace _ _ | get _ _ =>
    simp only [serve]
    split <;> exact home
  | deleteNamespace ns =>
    simp only [serve]
    split
    · exact Cluster.all_dropNamespace ns home
    · exact home
  | install req =>
    simp only [serve]
    split
    · split
      next created => exact Cluster.all_create home homely created
      · exact home
    · exact home
  | uninstall ns name =>
    simp only [serve]
    split
    · exact Cluster.all_remove (ns, name) home
    · exact home

theorem plan_home {req : InstallRequest} {planned : HelmInstallRequest V}
    (own : req.effectiveNamespace = namespacePrefix ++ req.releaseName)
    (plans : m.plan req = .ok planned) : planned.release.AtHome := by
  rw [Manager.plan] at plans
  split at plans
  · cases plans
  obtain ⟨⟨⟩, valid, plans⟩ := Fallible.bind_ok plans
  split at plans
  · cases plans
  obtain ⟨values, -, plans⟩ := Fallible.bind_ok plans
  dsimp only at plans
  split at plans
  · cases plans
  cases plans
  exact fun _ => ⟨valid, own⟩

theorem calls_ensureNamespace (ns : Name) :
    Calls HelmCall.Homely (ensureNamespace ns : OnHelm V Unit) := by
  apply calls_bind (calls_request.mpr trivial)
  intro found
  split
  · exact calls_pure
  · apply calls_bind (calls_request.mpr trivial)
    intro made
    split
    · exact calls_pure
    · exact calls_pure
    · exact calls_throw
  · exact calls_throw

theorem calls_install {req : InstallRequest}
    (own : req.effectiveNamespace = namespacePrefix ++ req.releaseName) :
    Calls HelmCall.Homely (m.install req) := by
  rw [Manager.install]
  cases plans : m.plan req with
  | error err => exact calls_throw
  | ok planned =>
    rw [liftExcept_ok_bind, Manager.helmInstall]
    split
    · exact calls_throw
    · apply calls_bind (calls_ensureNamespace _)
      rintro -
      exact calls_consult (plan_home own plans)

theorem calls_uninstall (releaseName : Name) :
    Calls HelmCall.Homely (m.uninstall releaseName) := by
  rw [Manager.uninstall]
  cases validateReleaseName releaseName with
  | error err => exact calls_throw
  | ok =>
    rw [liftExcept_ok_bind, Manager.helmUninstall]
    split
    · exact calls_throw
    · apply calls_bind (calls_consult trivial)
      rintro -
      exact calls_bind (calls_request.mpr trivial) fun _ => calls_pure

theorem home_step {event : Event V} (home : ∀ rel ∈ c.objects, rel.AtHome) (homely : event.Homely)
    (step : event.Step m c c') : ∀ rel ∈ c'.objects, rel.AtHome := by
  cases event with
  | installed req result =>
    exact Ends.faulty_invariant step _ home_served (calls_install homely) home
  | uninstalled releaseName result =>
    exact Ends.faulty_invariant step _ home_served (calls_uninstall releaseName) home

/-- What the API lists it also finds and removes, after any run in which every release is installed
into the namespace of its name. -/
theorem releases_addressed {events : List (Event V)} (trace : Interleaving.Trace
    (fun c (event : Event V) c' => event.Homely ∧ event.Step m c c') .empty events c) :
    Addressed m c := by
  have home : ∀ rel ∈ c.objects, rel.AtHome := by
    refine trace.invariant (fun c => ∀ rel ∈ c.objects, rel.AtHome) ?_ ?_
    · intro c event c' home step
      exact home_step home step.1 step.2
    · intro rel member
      cases member
  cases connected : m.connected with
  | true => exact (addressed_iff connected).mpr home
  | false =>
    -- Without a cluster nothing is listed.
    intro releases after listed rel shown
    simp only [Manager.list, Manager.helmList, connected, Bool.not_false, if_true] at listed
    obtain ⟨same, -⟩ := listed
    cases same
    cases shown

end Runs

/-! ### A release that is not found again -/

/-- One chart and no values. -/
def demo : Manager Unit where
  connected := true
  index _ := some ⟨"nginx".toList, "1.0.0".toList, "charts".toList, none⟩
  parseValuesYAML _ := .ok none

def request_ (name namespace_ : Name) : InstallRequest where
  indexName := "nginx".toList
  releaseName := name
  namespace_

def release (name namespace_ : Name) : Release Unit :=
  ⟨name, namespace_, "nginx".toList, "1.0.0".toList, none⟩

/-- The releases after an operation on a healthy cluster. -/
def after (op : OnHelm Unit α) (c : Releases Unit) : Releases Unit := (op.run.exec serve c).2

theorem releases_addressed_web : ∃ r₁ r₂ r₃ c, Interleaving.Trace
    (fun c (event : Event Unit) c' => event.Homely ∧ event.Step demo c c') .empty
    [.installed (request_ "web".toList []) r₁, .installed (request_ "db".toList []) r₂,
      .uninstalled "web".toList r₃] c ∧
    c.objects = [release "db".toList "nova-app-db".toList] ∧ Addressed demo c := by
  let web := after (demo.install (request_ "web".toList [])) .empty
  let both := after (demo.install (request_ "db".toList [])) web
  have trace : Interleaving.Trace
      (fun c (event : Event Unit) c' => event.Homely ∧ event.Step demo c c') .empty
      [.installed (request_ "web".toList []) _, .installed (request_ "db".toList []) _,
        .uninstalled "web".toList _] (after (demo.uninstall "web".toList) both) :=
    .cons ⟨by rw [Event.Homely]; decide +kernel, Service.faulty_exec _ _⟩ <|
      .cons ⟨by rw [Event.Homely]; decide +kernel, Service.faulty_exec _ _⟩ <|
        .cons ⟨trivial, Service.faulty_exec _ _⟩ (.nil _)
  exact ⟨_, _, _, _, trace, by decide +kernel, releases_addressed trace⟩

/-- The release `web` in the namespace of the release `db`: it is listed, it is not found by its
name, and removing `db` removes it. -/
theorem release_lost : ∃ c c', Interleaving.Trace
    (fun c (event : Event Unit) c' => event.Step demo c c') .empty
    [.installed (request_ "web".toList "nova-app-db".toList)
        (.ok (release "web".toList "nova-app-db".toList)),
      .installed (request_ "db".toList []) (.ok (release "db".toList "nova-app-db".toList))] c ∧
    ¬Addressed demo c ∧
    Ends Healthy demo.list c (.ok [release "db".toList "nova-app-db".toList,
      release "web".toList "nova-app-db".toList]) c ∧
    Ends Healthy (demo.get "web".toList) c (.error .notFound) c ∧
    Ends Healthy (demo.uninstall "db".toList) c (.ok ()) c' ∧ c'.objects = [] := by
  let webbed := after (demo.install (request_ "web".toList "nova-app-db".toList)) .empty
  let both := after (demo.install (request_ "db".toList [])) webbed
  have first : Ends Responds (demo.install (request_ "web".toList "nova-app-db".toList)) .empty _
    webbed := Service.faulty_exec _ _
  have second : Ends Responds (demo.install (request_ "db".toList [])) webbed _ both :=
    Service.faulty_exec _ _
  have web : ((demo.install (request_ "web".toList "nova-app-db".toList)).run.exec serve .empty).1 =
      .ok (release "web".toList "nova-app-db".toList) := by decide +kernel
  have db : ((demo.install (request_ "db".toList [])).run.exec serve webbed).1 =
      .ok (release "db".toList "nova-app-db".toList) := by decide +kernel
  rw [web] at first
  rw [db] at second
  have listed : demo.list.run.exec serve both = (.ok [release "db".toList "nova-app-db".toList,
      release "web".toList "nova-app-db".toList], both) := by decide +kernel
  have got : (demo.get "web".toList).run.exec serve both = (.error .notFound, both) := by
    decide +kernel
  have removed : (demo.uninstall "db".toList).run.exec serve both = (.ok (), .empty) := by
    decide +kernel
  refine ⟨both, .empty, .cons first (.cons second (.nil _)), ?_, Service.healthy_of_exec listed,
    Service.healthy_of_exec got, Service.healthy_of_exec removed, rfl⟩
  rw [addressed_iff rfl]
  intro home
  have member : release "web".toList "nova-app-db".toList ∈ both.objects := by decide +kernel
  exact absurd (home _ member (by decide)).2 (by decide)

end NovaNas.Workloads
