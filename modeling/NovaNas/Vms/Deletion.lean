import NovaNas.Base.Interleaving
import NovaNas.Vms.Manager

/-!
# What deleting a VM takes away

Kubernetes answers the calls of the manager: it finds VMs by namespace and name, and deleting a
namespace deletes what is in it. Any call may fail, with or without having had its effect. So a
deletion takes other VMs with it exactly if the VM is in the namespace that bears its name and is
not alone there.
-/
namespace NovaNas.Vms

open Program

/-! ### The cluster -/

abbrev Kube := Cluster VM.key

def VM.setRunning (running : Bool) (vm : VM) : VM := { vm with running }

theorem VM.key_setRunning (running : Bool) (vm : VM) : (vm.setRunning running).key = vm.key := rfl

/-- What a call does when nothing goes wrong. -/
def serve : Service Kube KubeError Reply
  | c, .createNamespace name _ => (.ok (), c.ensure name)
  | c, .deleteNamespace name =>
    if c.holds name then (.ok (), c.dropNamespace name) else (.error .notFound, c)
  | c, .createVM vm _ _ =>
    if c.holds vm.namespace_ then
      match c.create vm with
      | some c' => (.ok vm, c')
      | none => (.error .alreadyExists, c)
    else (.error .notFound, c)
  | c, .deleteVM namespace_ name =>
    if (c.find (namespace_, name)).isSome then (.ok (), c.remove (namespace_, name))
    else (.error .notFound, c)
  | c, .setVMRunning namespace_ name running =>
    if (c.find (namespace_, name)).isSome then
      (.ok (), c.modify (namespace_, name) (VM.setRunning running) (VM.key_setRunning running))
    else (.error .notFound, c)

abbrev Responds := Service.Faulty serve

/-! ### Deletion -/

section Delete

variable {m : Manager} {c c' : Kube} {namespace_ name : Name}

/-- The others stay. -/
def SparesOthers (namespace_ name : Name) (c c' : Kube) : Prop :=
  ∀ vm ∈ c.objects, vm.key ≠ (namespace_, name) → vm ∈ c'.objects

/-- A VM in the namespace that bears its name is alone there. -/
def Alone (m : Manager) (c : Kube) (namespace_ name : Name) : Prop :=
  name ≠ [] → namespace_ = m.nsPrefix ++ name → (c.find (namespace_, name)).isSome →
    ∀ vm ∈ c.objects, vm.namespace_ = namespace_ → vm.name = name

theorem serve_deleteVM_spares :
    SparesOthers namespace_ name c (serve c (.deleteVM namespace_ name)).2 := by
  intro vm member other
  simp only [serve]
  split
  · exact (c.mem_remove _ vm).mpr ⟨member, other⟩
  · exact member

theorem after_deleteVM_spares (after : c' = c ∨ c' = (serve c (.deleteVM namespace_ name)).2) :
    SparesOthers namespace_ name c c' := by
  rcases after with rfl | rfl
  · intro vm member other
    exact member
  · exact serve_deleteVM_spares

theorem serve_deleteVM_ok
    (served : serve c (.deleteVM namespace_ name) = (.ok (), c')) :
    (c.find (namespace_, name)).isSome ∧ c' = c.remove (namespace_, name) := by
  simp only [serve] at served
  split at served
  next present =>
    cases served
    exact ⟨present, rfl⟩
  next => cases served

theorem serve_deleteNamespace_spares
    (elsewhere : ∀ vm ∈ c.objects, vm.namespace_ = namespace_ → vm.name = name) :
    SparesOthers namespace_ name (c.remove (namespace_, name))
      (serve (c.remove (namespace_, name)) (.deleteNamespace namespace_)).2 := by
  intro vm member other
  simp only [serve]
  split
  · refine ((c.remove _).mem_dropNamespace _ vm).mpr ⟨member, ?_⟩
    intro inside
    have old := ((c.mem_remove _ vm).mp member).1
    exact other (Prod.ext inside (elsewhere vm old inside))
  · exact member

/-- A VM that is alone in the namespace that bears its name takes no other one along. -/
theorem delete_spares {r : Except Failure Unit} (alone : Alone m c namespace_ name)
    (ends : Ends Responds (m.delete namespace_ name) c r c') :
    SparesOthers namespace_ name c c' := by
  rw [Manager.delete] at ends
  split at ends
  · obtain ⟨-, rfl⟩ := ends
    exact fun vm member _ => member
  next given =>
    rcases ends_bind.mp ends with ⟨⟨⟩, m₁, deleted, rest⟩ | ⟨err, -, failed⟩
    · obtain ⟨present, rfl⟩ := serve_deleteVM_ok (consult_ok deleted)
      split at rest
      next own =>
        have spared := serve_deleteNamespace_spares (alone (not_or.mp given).2 own present)
        intro vm member other
        have kept := (c.mem_remove _ vm).mpr ⟨member, other⟩
        rcases consult_after rest with rfl | rfl
        · exact kept
        · exact spared vm kept other
      next =>
        obtain ⟨-, rfl⟩ := rest
        exact fun vm member other => (c.mem_remove _ vm).mpr ⟨member, other⟩
    · exact after_deleteVM_spares (consult_after failed)

/-- A VM that shares the namespace that bears its name can take the others along. -/
theorem delete_takes_along {vm : VM} (named : name ≠ []) (own : namespace_ = m.nsPrefix ++ name)
    (present : (c.find (namespace_, name)).isSome) (member : vm ∈ c.objects)
    (inside : vm.namespace_ = namespace_) :
    ∃ c', Ends Responds (m.delete namespace_ name) c (.ok ()) c' ∧ vm ∉ c'.objects := by
  have given : ¬(namespace_ = [] ∨ name = []) := by
    rw [own, List.append_eq_nil_iff]
    exact not_or.mpr ⟨fun both => named both.2, named⟩
  have deleted : serve c (.deleteVM namespace_ name) = (.ok (), c.remove (namespace_, name)) :=
    if_pos present
  have stays : namespace_ ∈ (c.remove (namespace_, name)).namespaces := inside ▸ c.housed vm member
  have dropped : serve (c.remove (namespace_, name)) (.deleteNamespace namespace_) =
      (.ok (), (c.remove (namespace_, name)).dropNamespace namespace_) :=
    if_pos (Cluster.holds_iff.mpr stays)
  refine ⟨(c.remove (namespace_, name)).dropNamespace namespace_, ?_, ?_⟩
  swap
  · intro kept
    exact ((Cluster.mem_dropNamespace _ _ vm).mp kept).2 inside
  rw [Manager.delete, if_neg given]
  refine ends_bind_ok.mpr ⟨(), _, (consult_serves deleted).mono Service.healthy_faulty, ?_⟩
  rw [if_pos own]
  exact (consult_serves dropped).mono Service.healthy_faulty

/-- In any cluster, no run of a deletion takes another VM along exactly if the VM is alone in the
namespace that bears its name. -/
theorem delete_spares_others_iff (m : Manager) (c : Kube) (namespace_ name : Name) :
    (∀ r c', Ends Responds (m.delete namespace_ name) c r c' → SparesOthers namespace_ name c c') ↔
      Alone m c namespace_ name := by
  constructor
  · intro spares named own present vm member inside
    by_contra other
    obtain ⟨c', ends, lost⟩ := delete_takes_along named own present member inside
    exact lost (spares _ c' ends vm member fun same => other (congrArg Prod.snd same))
  · intro alone r c' ends
    exact delete_spares alone ends

end Delete

/-! ### Runs -/

inductive VmEvent where
  | created (req : CreateRequest) (result : Except Failure VM)
  | deleted (namespace_ name : Name) (result : Except Failure Unit)

def VmEvent.Step (m : Manager) (c : Kube) : VmEvent → Kube → Prop
  | .created req result, c' => Ends Responds (m.create req) c result c'
  | .deleted namespace_ name result, c' => Ends Responds (m.delete namespace_ name) c result c'

/-- A request names the namespace that bears the VM's name, or none. -/
def VmEvent.Homely (m : Manager) : VmEvent → Prop
  | .created req _ => req.namespace_ = [] ∨ req.namespace_ = m.nsPrefix ++ req.name
  | .deleted .. => True

def Manager.AtHome (m : Manager) (vm : VM) : Prop := vm.namespace_ = m.nsPrefix ++ vm.name

/-- The call creates no VM elsewhere than in the namespace that bears its name. -/
def KubeCall.Homely (m : Manager) : KubeCall → Prop
  | .createVM vm _ _ => m.AtHome vm
  | _ => True

section Runs

variable {m : Manager} {c c' : Kube} {req : CreateRequest}

theorem home_served (c : Kube) (q : KubeCall) (homely : q.Homely m)
    (home : ∀ vm ∈ c.objects, m.AtHome vm) : ∀ vm ∈ (serve c q).2.objects, m.AtHome vm := by
  cases q with
  | createNamespace _ _ => exact home
  | deleteNamespace ns =>
    simp only [serve]
    split
    · exact Cluster.all_dropNamespace ns home
    · exact home
  | createVM vm _ _ =>
    simp only [serve]
    split
    · split
      next created => exact Cluster.all_create home homely created
      · exact home
    · exact home
  | deleteVM ns name =>
    simp only [serve]
    split
    · exact Cluster.all_remove (ns, name) home
    · exact home
  | setVMRunning _ _ running =>
    simp only [serve]
    split
    · refine List.forall_mem_map.mpr fun vm member => ?_
      split <;> exact home vm member
    · exact home

theorem plan_home {vm : VM} {cloudInit : VMCloudInit}
    (own : req.namespace_ = [] ∨ req.namespace_ = m.nsPrefix ++ req.name)
    (plans : m.plan req = .ok (vm, cloudInit)) : m.AtHome vm := by
  obtain ⟨_, -, plans⟩ := Fallible.bind_ok plans
  obtain ⟨ns, resolved, plans⟩ := Fallible.bind_ok plans
  obtain ⟨_, -, plans⟩ := Fallible.bind_ok plans
  have at_ : ns = m.nsPrefix ++ req.name := by
    rw [Manager.resolveNamespace] at resolved
    split at resolved
    next given =>
      split at resolved <;> cases resolved
      exact own.resolve_left given
    next =>
      cases resolved
      rfl
  dsimp only at plans
  split at plans
  · cases plans
  split at plans
  · cases plans
  split at plans <;> cases plans
  exact at_

theorem calls_create (own : req.namespace_ = [] ∨ req.namespace_ = m.nsPrefix ++ req.name) :
    Calls (KubeCall.Homely m) (m.create req) := by
  rw [Manager.create]
  cases plans : m.plan req with
  | error err => exact calls_throw
  | ok planned =>
    rw [liftExcept_ok_bind]
    refine calls_bind (calls_consult trivial) fun _ => ?_
    refine calls_bind (calls_consult (plan_home own plans)) fun _ => ?_
    split
    · exact calls_bind (calls_consult trivial) fun _ => calls_pure
    · exact calls_pure

theorem calls_delete (namespace_ name : Name) :
    Calls (KubeCall.Homely m) (m.delete namespace_ name) := by
  rw [Manager.delete]
  split
  · exact calls_throw
  · refine calls_bind (calls_consult trivial) fun _ => ?_
    split
    · exact calls_consult trivial
    · exact calls_pure

/-- After any run in which no request for a VM names the namespace of another one, a deletion takes
no other VM along. -/
theorem deletions_spare_others {events : List VmEvent} (trace : Interleaving.Trace
    (fun c (event : VmEvent) c' => event.Homely m ∧ event.Step m c c') .empty events c)
    {namespace_ name : Name} {r : Except Failure Unit}
    (ends : Ends Responds (m.delete namespace_ name) c r c') :
    SparesOthers namespace_ name c c' := by
  have home : ∀ vm ∈ c.objects, m.AtHome vm := by
    refine trace.invariant (fun c => ∀ vm ∈ c.objects, m.AtHome vm) ?_ (List.forall_mem_nil _)
    rintro c (⟨req, result⟩ | ⟨namespace_, name, result⟩) c' home ⟨homely, step⟩
    · exact Ends.faulty_invariant step _ home_served (calls_create homely) home
    · exact Ends.faulty_invariant step _ home_served (calls_delete namespace_ name) home
  refine (delete_spares_others_iff m c namespace_ name).mpr ?_ r c' ends
  intro _ own _ vm member inside
  exact List.append_cancel_left ((home vm member).symm.trans (inside.trans own))

end Runs

/-! ### VMs in one namespace and in two -/

def blankDisk : VMDisk := ⟨"root".toList, 20, "blank".toList, true, "virtio".toList, []⟩

def foo : CreateRequest := { name := "foo".toList, disks := [blankDisk] }

/-- A second VM in the namespace of the first. -/
def bar : CreateRequest :=
  { name := "bar".toList, namespace_ := "vm-foo".toList, disks := [blankDisk] }

def created (c : Kube) (req : CreateRequest) : Kube := ((Manager.create {} req).run.exec serve c).2

/-- The VM that a request creates. -/
def built (namespace_ name : Name) : VM where
  namespace_
  name
  cpu := 1
  memoryMB := 1024
  running := false
  disks := [blankDisk]
  networks := [⟨"default".toList, "pod".toList⟩]
  labels := [("novanas.io/vm".toList, name)]
  templateID := []

/-- With the second VM in a namespace of its own, deleting the first spares it. -/
theorem deletions_spare_others_bar : ∃ (r₁ r₂ : Except Failure VM) (c c' : Kube),
    Interleaving.Trace (fun c (event : VmEvent) c' => event.Homely {} ∧ event.Step {} c c') .empty
      [.created foo r₁, .created { bar with namespace_ := [] } r₂] c ∧
    VmEvent.Step {} c (.deleted "vm-foo".toList "foo".toList (.ok ())) c' ∧
    built "vm-bar".toList "bar".toList ∈ c'.objects := by
  let both := created (created .empty foo) { bar with namespace_ := [] }
  have trace : Interleaving.Trace
      (fun c (event : VmEvent) c' => event.Homely {} ∧ event.Step {} c c') .empty
      [.created foo _, .created { bar with namespace_ := [] } _] both :=
    .cons ⟨Or.inl rfl, Service.faulty_exec _ _⟩
      (.cons ⟨Or.inl rfl, Service.faulty_exec _ _⟩ (.nil both))
  have deleted : Ends Responds (Manager.delete {} "vm-foo".toList "foo".toList) both _ _ :=
    Service.faulty_exec _ both
  have done :
      ((Manager.delete {} "vm-foo".toList "foo".toList).run.exec serve both).1 = .ok () := by
    decide +kernel
  rw [done] at deleted
  have member : built "vm-bar".toList "bar".toList ∈ both.objects := by decide +kernel
  exact ⟨_, _, both, _, trace, deleted, deletions_spare_others trace deleted _ member (by decide)⟩

theorem delete_takes_other_vm : ∃ (first second : VM) (c c' : Kube),
    Interleaving.Trace (fun c (event : VmEvent) c' => event.Step {} c c') .empty
      [.created foo (.ok first), .created bar (.ok second)] c ∧
    VmEvent.Step {} c (.deleted "vm-foo".toList "foo".toList (.ok ())) c' ∧
    second ∈ c.objects ∧ second.key ≠ ("vm-foo".toList, "foo".toList) ∧ second ∉ c'.objects := by
  let both := created (created .empty foo) bar
  have first : Ends Responds (Manager.create {} foo) .empty _ (created .empty foo) :=
    Service.faulty_exec _ _
  have second : Ends Responds (Manager.create {} bar) (created .empty foo) _ both :=
    Service.faulty_exec _ _
  have built_foo : ((Manager.create {} foo).run.exec serve .empty).1 =
      .ok (built "vm-foo".toList "foo".toList) := by decide +kernel
  have built_bar : ((Manager.create {} bar).run.exec serve (created .empty foo)).1 =
      .ok (built "vm-foo".toList "bar".toList) := by decide +kernel
  have present : (both.find ("vm-foo".toList, "foo".toList)).isSome := by decide +kernel
  have member : built "vm-foo".toList "bar".toList ∈ both.objects := by decide +kernel
  rw [built_foo] at first
  rw [built_bar] at second
  obtain ⟨c', deleted, lost⟩ :=
    delete_takes_along (m := {}) (by decide) (by decide) present member rfl
  exact ⟨_, _, both, c', .cons first (.cons second (.nil _)), deleted, member, by decide, lost⟩

end NovaNas.Vms
