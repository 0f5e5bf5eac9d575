import NovaNas.Csi.Node

/-!
# Read-only publication

A publication that succeeds leaves the target mounted. It is mounted read-only where that was
asked for, unless the target was mounted writable before: by an earlier publication, or by one
that was to be read-only and failed between its bind mount and the remount.
-/
namespace NovaNas.Csi

open Program
open Zfs (Name)

/-! ### What the commands do -/

structure Mount where
  readOnly : Bool
  deriving DecidableEq, Repr

/-- The mounts at each path, the one that covers the others first. -/
abbrev Mounts := Name → List Mount

/-- The last of the options that choose between the two modes chooses the read-only one. -/
def saysReadOnly (options : Name) : Bool :=
  ((Text.split ',' options).filter fun o => o = "ro".toList || o = "rw".toList).getLast? =
    some "ro".toList

inductive MountCommand.Effect (m : Mounts) : MountCommand → Mounts → Prop where
  | ensureFile (path : Name) : Effect m (.ensureFile path) m
  | ensureDir (path : Name) : Effect m (.ensureDir path) m
  /-- A bind mount takes over the mode of its source. -/
  | bind (source target : Name) (mount : Mount) :
      Effect m (.bind source target) (Function.update m target (mount :: m target))
  | remountReadOnly (target : Name) {top : Mount} {rest : List Mount} (at_ : m target = top :: rest) :
      Effect m (.remountReadOnly target) (Function.update m target (⟨true⟩ :: rest))
  | mountNfs (options source target : Name) {mount : Mount}
      (mode : saysReadOnly options = true → mount.readOnly = true) :
      Effect m (.mountNfs options source target) (Function.update m target (mount :: m target))
  | umount (target : Name) {top : Mount} {rest : List Mount} (at_ : m target = top :: rest) :
      Effect m (.umount target) (Function.update m target rest)

/-- Commands fail at any time, with or without having had their effect, and so does the lookup of
a mount; but it prints nothing where nothing is mounted. -/
def hostResponds : Responses Mounts HostAnswer := fun m q a m' =>
  match q, a with
  | .getDataset _, _ => m' = m
  | .findmnt path, .printed output => m' = m ∧ (Text.trimSpace output ≠ [] → m path ≠ [])
  | .findmnt _, .exited _ => m' = m
  | .command c, .ok () => c.Effect m m'
  | .command c, .error _ => m' = m ∨ c.Effect m m'

/-- The target is mounted, and read-only if the request asks for it. -/
def PublishRequest.Honoured (req : PublishRequest) (m : Mounts) : Prop :=
  ∃ top rest, m req.targetPath = top :: rest ∧ (req.readonly = true → top.readOnly = true)

/-- The mount that covers the others at the path can be written to. -/
def Writable (m : Mounts) (path : Name) : Prop :=
  ∃ top rest, m path = top :: rest ∧ top.readOnly = false

section Mounter

variable {m m' : Mounts} {target source server exportPath options : Name} {readonly : Bool}
  {access : Option AccessType}

theorem runCommand_ok {c : MountCommand} (ends : Ends hostResponds (runCommand c) m (.ok ()) m') :
    c.Effect m m' := by
  obtain ⟨a, m₁, answered, rest⟩ := ends_request_bind.mp ends
  cases a with
  | ok =>
    obtain ⟨-, rfl⟩ := rest
    exact answered
  | error err => cases rest.1

theorem isMounted_ok {mounted : Bool}
    (ends : Ends hostResponds (isMounted target) m (.ok mounted) m') :
    m' = m ∧ (mounted = true → m target ≠ []) := by
  obtain ⟨a, m₁, answered, rest⟩ := ends_request_bind.mp ends
  cases a with
  | printed output =>
    obtain ⟨same, rfl⟩ := rest
    cases same
    obtain ⟨rfl, mounted⟩ := answered
    exact ⟨rfl, fun shown => mounted (of_decide_eq_true shown)⟩
  | exited code =>
    obtain rfl : m₁ = m := answered
    dsimp only at rest
    split at rest
    · obtain ⟨same, rfl⟩ := rest
      cases same
      exact ⟨rfl, nofun⟩
    · cases rest.1

/-- The bind mount is made first and its mode is changed afterwards. -/
theorem bindMount_ok (ends : Ends hostResponds (bindMount source target readonly) m (.ok ()) m') :
    ∃ top rest, m' target = top :: rest ∧ (readonly = true → top.readOnly = true) := by
  obtain ⟨⟨⟩, m₁, bound, rest⟩ := ends_bind_ok.mp ends
  cases runCommand_ok bound with
  | bind _ _ mount =>
    split at rest
    next =>
      cases runCommand_ok rest with
      | remountReadOnly _ at_ => exact ⟨⟨true⟩, _, Function.update_self .., fun _ => rfl⟩
    next writable =>
      obtain ⟨-, rfl⟩ := rest
      exact ⟨mount, _, Function.update_self .., fun asked => absurd asked writable⟩

theorem saysReadOnly_append (options : Name) : saysReadOnly (options ++ ",ro".toList) = true := by
  have parts : Text.split ',' (options ++ ",ro".toList) = Text.split ',' options ++ ["ro".toList] :=
    Text.split_append_sep ',' options "ro".toList
  rw [saysReadOnly, parts, List.filter_append]
  simp

theorem nfsMount_ok
    (ends : Ends hostResponds (nfsMount server exportPath target options readonly) m (.ok ()) m') :
    ∃ top rest, m' target = top :: rest ∧ (readonly = true → top.readOnly = true) := by
  rw [nfsMount] at ends
  split at ends
  · cases ends.1
  split at ends
  · cases ends.1
  cases runCommand_ok ends with
  | @mountNfs _ _ _ mount mode =>
    refine ⟨mount, _, Function.update_self .., fun asked => mode ?_⟩
    rw [if_pos asked]
    exact saysReadOnly_append _

theorem mountTarget_ok {mount : OnHost NodeStatus Unit}
    (ends : Ends hostResponds (mountTarget target mount) m (.ok ()) m') :
    m' = m ∧ m target ≠ [] ∨ Ends hostResponds mount m (.ok ()) m' := by
  obtain ⟨mounted, m₁, checked, rest⟩ := ends_bind_ok.mp ends
  obtain ⟨rfl, there⟩ := isMounted_ok (ends_mapError_ok.mp checked)
  cases mounted with
  | true =>
    obtain ⟨-, rfl⟩ := rest
    exact .inl ⟨rfl, there rfl⟩
  | false => exact .inr rest

theorem prepareTarget_ok (ends : Ends hostResponds (prepareTarget access target) m (.ok ()) m') :
    m' = m := by
  rw [prepareTarget] at ends
  split at ends
  · cases runCommand_ok (ends_mapError_ok.mp ends)
    rfl
  · cases runCommand_ok (ends_mapError_ok.mp ends)
    rfl

theorem publishSource_ok {cfg : NodeConfig} {id : VolumeID} {req : PublishRequest}
    (ends : Ends hostResponds (cfg.publishSource id access req) m (.ok source) m') : m' = m := by
  rw [NodeConfig.publishSource] at ends
  split at ends
  · exact ends.2
  split at ends
  · obtain ⟨a, m₁, answered, rest⟩ := ends_request_bind.mp ends
    obtain rfl : m₁ = m := answered
    cases a with
    | error err => cases rest.1
    | ok mountpoint =>
      dsimp only at rest
      split at rest
      · cases rest.1
      · exact rest.2
  split at ends
  · cases ends.1
  · exact ends.2

end Mounter

/-! ### Publications -/

section Publications

variable {cfg : NodeConfig} {req : PublishRequest} {m m' : Mounts}

/-- A publication that succeeds has mounted the target as asked for or found it mounted. -/
theorem nodePublishVolume_ok (ends : Ends hostResponds (cfg.nodePublishVolume req) m (.ok ()) m') :
    req.Honoured m' ∨ m' = m ∧ m req.targetPath ≠ [] := by
  rw [NodeConfig.nodePublishVolume] at ends
  obtain ⟨id, parsed, ends⟩ := ends_parsed_bind ends
  split at ends
  · cases ends.1
  split at ends
  · cases ends.1
  split at ends
  next =>
    rw [publishNFS] at ends
    split at ends
    · cases ends.1
    obtain ⟨⟨⟩, m₁, prepared, rest⟩ := ends_bind_ok.mp ends
    obtain rfl := prepareTarget_ok prepared
    rcases mountTarget_ok rest with found | mounted
    · exact .inr found
    · exact .inl (nfsMount_ok (ends_mapError_ok.mp mounted))
  next =>
    obtain ⟨source, m₁, resolved, rest⟩ := ends_bind_ok.mp ends
    obtain rfl := publishSource_ok resolved
    obtain ⟨⟨⟩, m₂, prepared, later⟩ := ends_bind_ok.mp rest
    obtain rfl := prepareTarget_ok prepared
    rcases mountTarget_ok later with found | mounted
    · exact .inr found
    · exact .inl (bindMount_ok (ends_mapError_ok.mp mounted))

theorem honoured_of_not_writable (spared : req.readonly = true → ¬ Writable m req.targetPath)
    (ends : Ends hostResponds (cfg.nodePublishVolume req) m (.ok ()) m') : req.Honoured m' := by
  rcases nodePublishVolume_ok ends with honoured | ⟨rfl, mounted⟩
  · exact honoured
  · obtain ⟨top, rest, at_⟩ := List.exists_cons_of_ne_nil mounted
    refine ⟨top, rest, at_, fun asked => ?_⟩
    by_contra writable
    exact spared asked ⟨top, rest, at_, Bool.eq_false_iff.mpr writable⟩

end Publications

/-! ### Sequences of calls -/

/-- A call with its result. -/
inductive NodeEvent where
  | published (req : PublishRequest) (result : Except NodeStatus Unit)
  | unpublished (target : Name) (result : Except NodeStatus Unit)

def NodeEvent.Step (cfg : NodeConfig) (m : Mounts) : NodeEvent → Mounts → Prop
  | .published req result, m' => Ends hostResponds (cfg.nodePublishVolume req) m result m'
  | .unpublished target result, m' => Ends hostResponds (nodeUnpublishVolume target) m result m'

/-- A publication that is to be read-only does not find its target mounted writable. -/
def NodeEvent.Spared (m : Mounts) : NodeEvent → Prop
  | .published req _ => req.readonly = true → ¬ Writable m req.targetPath
  | .unpublished _ _ => True

/-- Whenever a publication succeeds, its target is mounted, and read-only if asked for. -/
theorem publications_honour_read_only {cfg : NodeConfig} {m m' : Mounts} {events : List NodeEvent}
    {req : PublishRequest}
    (trace : Interleaving.Trace (fun m event m' => event.Spared m ∧ event.Step cfg m m') m
      (events ++ [.published req (.ok ())]) m') : req.Honoured m' := by
  obtain ⟨before, -, spared, ends⟩ := trace.last
  exact honoured_of_not_writable spared ends

/-- A filesystem volume that is to be mounted read-only. -/
def readOnlyClaim : PublishRequest where
  volumeId := "tank/csi/pvc-1".toList
  capability := some (some .mount)
  targetPath := "/pods/1/mount".toList
  stagingTargetPath := []
  readonly := true
  volumeKind := []
  nfsServer := []
  nfsPath := []
  mountOptions := []

def unmounted : Mounts := fun _ => []

/-- A host on which all commands work, but for remounts if they are to fail. -/
def workingHost (remounts : Bool) (m : Mounts) : (q : HostCall) → HostAnswer q × Mounts
  | .getDataset full => (.ok ('/' :: full), m)
  | .findmnt path => (if m path = [] then .exited 1 else .printed ['/'], m)
  | .command (.ensureFile _) => (.ok (), m)
  | .command (.ensureDir _) => (.ok (), m)
  | .command (.bind _ target) => (.ok (), Function.update m target (⟨false⟩ :: m target))
  | .command (.remountReadOnly target) =>
    match remounts, m target with
    | true, _ :: rest => (.ok (), Function.update m target (⟨true⟩ :: rest))
    | _, _ => (.error ⟨"mount".toList⟩, m)
  | .command (.mountNfs options _ target) =>
    (.ok (), Function.update m target (⟨saysReadOnly options⟩ :: m target))
  | .command (.umount target) =>
    match m target with
    | _ :: rest => (.ok (), Function.update m target rest)
    | [] => (.error ⟨"umount: not mounted".toList⟩, m)

theorem workingHost_responds (remounts : Bool) (m : Mounts) (q : HostCall) :
    hostResponds m q (workingHost remounts m q).1 (workingHost remounts m q).2 := by
  cases q with
  | getDataset full => rfl
  | findmnt path =>
    by_cases empty : m path = []
    · simp [workingHost, hostResponds, empty]
    · simp [workingHost, hostResponds, empty]
  | command c =>
    cases c with
    | ensureFile path => exact .ensureFile path
    | ensureDir path => exact .ensureDir path
    | bind source target => exact .bind source target _
    | remountReadOnly target =>
      cases remounts with
      | false => simp [workingHost, hostResponds]
      | true =>
        cases at_ : m target with
        | nil => simp [workingHost, hostResponds, at_]
        | cons top rest =>
          simp only [workingHost, hostResponds, at_]
          exact .remountReadOnly target at_
    | mountNfs options source target => exact .mountNfs options source target id
    | umount target =>
      cases at_ : m target with
      | nil => simp [workingHost, hostResponds, at_]
      | cons top rest =>
        simp only [workingHost, hostResponds, at_]
        exact .umount target at_

/-- The result of a publication on such a host, and the mounts after it. -/
def publishedOn (remounts : Bool) (m : Mounts) : Except NodeStatus Unit × Mounts :=
  (NodeConfig.nodePublishVolume {} readOnlyClaim).run.exec (workingHost remounts) m

theorem step_publishedOn (remounts : Bool) (m : Mounts) :
    NodeEvent.Step {} m (.published readOnlyClaim (publishedOn remounts m).1)
      (publishedOn remounts m).2 :=
  run_exec (workingHost_responds remounts) _ m

/-- The target as a failed remount leaves it. -/
def bound : Mounts := (publishedOn false unmounted).2

theorem remount_failed : ∃ status, (publishedOn false unmounted).1 = .error status :=
  ⟨⟨.internal, .bindMount "/tank/csi/pvc-1".toList readOnlyClaim.targetPath ⟨"mount".toList⟩⟩,
    by decide +kernel⟩

/-- The remount fails, the volume is unpublished, and the retry mounts it read-only. -/
theorem publications_honour_read_only_claim : ∃ status r m, Interleaving.Trace
    (fun m (event : NodeEvent) m' => event.Spared m ∧ event.Step {} m m') unmounted
    ([.published readOnlyClaim (.error status), .unpublished readOnlyClaim.targetPath r] ++
      [.published readOnlyClaim (.ok ())]) m ∧ readOnlyClaim.Honoured m := by
  obtain ⟨status, failed⟩ := remount_failed
  let unpublished :=
    (nodeUnpublishVolume readOnlyClaim.targetPath).run.exec (workingHost true) bound
  have freed : unpublished.2 readOnlyClaim.targetPath = [] := by decide +kernel
  have retried : (publishedOn true unpublished.2).1 = .ok () := by decide +kernel
  have trace : Interleaving.Trace
      (fun m (event : NodeEvent) m' => event.Spared m ∧ event.Step {} m m') unmounted
      ([.published readOnlyClaim (.error status),
        .unpublished readOnlyClaim.targetPath unpublished.1] ++
        [.published readOnlyClaim (.ok ())]) (publishedOn true unpublished.2).2 := by
    refine .cons ⟨?_, failed ▸ step_publishedOn false unmounted⟩ <|
      .cons ⟨trivial, run_exec (workingHost_responds true) _ bound⟩ <|
        .cons ⟨?_, retried ▸ step_publishedOn true unpublished.2⟩ (.nil _)
    · rintro - ⟨top, rest, at_, -⟩
      cases at_
    · rintro - ⟨top, rest, at_, -⟩
      cases freed.symm.trans at_
  exact ⟨_, _, _, trace, publications_honour_read_only trace⟩

/-- The remount fails, and the retry finds the target mounted. -/
theorem retry_leaves_writable : ∃ m status, Interleaving.Trace
    (fun m (event : NodeEvent) m' => event.Step {} m m') unmounted
    [.published readOnlyClaim (.error status), .published readOnlyClaim (.ok ())] m ∧
    Writable m readOnlyClaim.targetPath := by
  obtain ⟨status, failed⟩ := remount_failed
  have retried : (publishedOn true bound).1 = .ok () := by decide +kernel
  have at_ : (publishedOn true bound).2 readOnlyClaim.targetPath = [⟨false⟩] := by decide +kernel
  have first := step_publishedOn false unmounted
  have second := step_publishedOn true bound
  rw [failed] at first
  rw [retried] at second
  exact ⟨_, _, .cons first (.cons second (.nil _)), _, _, at_, rfl⟩

end NovaNas.Csi
