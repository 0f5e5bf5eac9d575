import NovaNas.Csi.Jobs

/-!
# Repeated calls of the controller

A call that has succeeded is made again, with nothing changed in between. Creating a volume finds
the dataset of the first call and gives the same answer. The other calls find what they are to do
done already only when their second job fails, and report that as an error.
-/
namespace NovaNas.Csi

open Program
open Zfs (Name)

variable {host : Host} {lossy : Prop} {w w' : World} {polls : Nat}

/-- Without losses, the answer in a settled world is what the server makes of that world. -/
theorem World.Settled.served {q : Call} {a : Answer q} (settled : w.Settled)
    (responds : Responds host False w q a w') : (a, w') = serve host w q := by
  obtain ⟨m, works, served | ⟨⟨⟩, -⟩⟩ := responds
  rwa [settled.works works] at served

/-! ### Creating volumes -/

variable {cfg : Config}

section Volumes

variable {kind : VolumeKind} {parent leaf full : Name} {capacity : Int} {parameters : Parameters}
  {v : Volume}

theorem find_create {s s' : Storage} {b : Backing} (ran : (Command.create b).run s = some s') :
    s'.find b.name = some b := by
  simp only [Command.run, Bool.or_eq_true, decide_eq_true_eq, Option.ite_none_left_eq_some] at ran
  obtain ⟨new, same⟩ := ran
  cases same
  simp only [not_or, Bool.not_eq_true, Option.isSome_eq_false_iff, Option.isNone_iff_eq_none] at new
  simp only [Storage.find, List.find?_append] at new ⊢
  simp [new.1.1.1]

theorem absent_of_create {s s' : Storage} {b : Backing}
    (ran : (Command.create b).run s = some s') : s.find b.name = none := by
  simp only [Command.run, Option.ite_none_left_eq_some, Bool.or_eq_true, not_or] at ran
  simpa using ran.1.1.1.1

/-- The volume has its dataset, and nothing is under way. -/
structure Backed (kind : VolumeKind) (full : Name) (w : World) : Prop where
  settled : w.Settled
  named : full ≠ []
  found : ∃ b, w.storage.find full = some b ∧ b.type = zfsType kind

/-- A dataset that a call has created was not there before and is what was asked for. -/
theorem created_dataset {spec : CreateDatasetSpec} {submitted waited : ApiError → Message}
    (settled : w.Settled) (encoded : full = encodeVolumeID spec.parent spec.name)
    (ends : Ends (Responds host lossy) (perform submitted waited polls (createDataset spec)) w
      (.ok ()) w') : w'.Settled ∧ spec.backing.name = full ∧ w.storage.find full = none ∧
        w'.storage.find full = some spec.backing := by
  obtain ⟨job, planned, after, ran⟩ :=
    settled.completed (perform_ok (createDataset_submits spec) ends)
  have inside : spec.parent ≠ [] := by
    intro outside
    rw [perform, createDataset, if_pos (.inl outside)] at ends
    obtain ⟨_, _, refused, -⟩ := ends_bind_ok.mp ends
    cases (ends_mapError_ok.mp refused).1
  have named : spec.backing.name = full := by
    rw [encoded, encodeVolumeID, if_neg inside]
    rfl
  simp only [Request.plan] at planned
  split at planned
  · cases planned
    obtain ⟨s, checked, later⟩ := Option.bind_eq_some_iff.mp ran
    obtain ⟨s', made, same⟩ := Option.bind_eq_some_iff.mp later
    cases same
    obtain ⟨-, unchanged⟩ := Option.ite_none_right_eq_some.mp checked
    cases unchanged
    exact ⟨after, named, named ▸ absent_of_create made, named ▸ find_create made⟩
  · cases planned

theorem created {spec : CreateDatasetSpec} {submitted waited : ApiError → Message}
    (settled : w.Settled)
    (encoded : full = encodeVolumeID spec.parent spec.name) (typed : spec.type = zfsType kind)
    (ends : Ends (Responds host lossy) (perform submitted waited polls (createDataset spec)) w
      (.ok ()) w') : Backed kind full w' := by
  obtain ⟨after, named, -, found⟩ := created_dataset settled encoded ends
  exact ⟨after, by simp [← named, CreateDatasetSpec.backing], spec.backing, found, typed⟩

theorem createBacking_ok (settled : w.Settled) (encoded : full = encodeVolumeID parent leaf)
    (ends : Ends (Responds host lossy)
      (createBacking polls kind parent leaf full capacity parameters) w (.ok v) w') :
    v = buildVolume full capacity kind parameters ∧ Backed kind full w' := by
  rw [createBacking, ends_lift_bind] at ends
  obtain ⟨a, m, asked, rest⟩ := ends
  obtain rfl := settled.works (getDataset_works asked)
  cases a with
  | ok ds =>
    obtain ⟨-, named, b, found, rfl⟩ := getDataset_ok asked
    dsimp only at rest
    split_ifs at rest with wrong
    · cases rest.1
    · cases rest.1
    · obtain ⟨same, rfl⟩ := rest
      cases same
      exact ⟨rfl, settled, named, b, found, not_not.mp wrong⟩
  | error err =>
    dsimp only at rest
    split at rest
    · obtain ⟨⟨⟩, m', performed, same, rfl⟩ := ends_bind_ok.mp rest
      cases same
      exact ⟨rfl, created settled encoded rfl performed⟩
    · cases rest.1

variable {r : Except Status Volume}

/-- The dataset of the first call is found by the second. -/
theorem Backed.again (backed : Backed kind full w) (bare : kind ≠ .nfs)
    (ends : Ends (Responds host False)
      (createBacking polls kind parent leaf full capacity parameters) w r w') :
    r = .ok (buildVolume full capacity kind parameters) ∧ w' = w := by
  obtain ⟨settled, named, b, found, typed⟩ := backed
  rw [createBacking, ends_lift_bind] at ends
  obtain ⟨a, m, asked, rest⟩ := ends
  obtain ⟨rfl, rfl⟩ : a = .ok b.seen ∧ m = w := by
    have asked : Ends (Responds host False) (getDataset full) w a m := asked
    rw [getDataset, if_neg named] at asked
    rcases ends_bind.mp asked with ⟨detail, m, answered, rfl, rfl⟩ | ⟨err, -, answered⟩
    · have served := settled.served (ends_send.mp answered)
      simp only [serve, found] at served
      cases served
      exact ⟨rfl, rfl⟩
    · have served := settled.served (ends_send.mp answered)
      simp only [serve, found] at served
      cases served
  have compatible : sizeCompatible b.seen kind capacity = true := by
    -- The adapter shows no sizes, so none can differ.
    cases kind with
    | filesystem => rfl
    | block => rfl
    | nfs => exact absurd rfl bare
  have same_type : b.seen.type = zfsType kind := typed
  simpa [same_type, compatible] using rest

theorem createNFSVolume_ok {pool : Name} (settled : w.Settled)
    (ends : Ends (Responds host lossy) (cfg.createNFSVolume polls parameters pool leaf full capacity)
      w (.ok v) w') :
    v = cfg.buildNFSVolume full capacity parameters (datasetSubpath pool full) ∧ w' = w ∧
      Ends (Responds host lossy) (getProtocolShare leaf pool (datasetSubpath pool full)) w
        (.ok ()) w := by
  rw [Config.createNFSVolume] at ends
  split at ends
  · cases ends.1
  obtain ⟨a, m, asked, rest⟩ := ends_lift_bind.mp ends
  obtain ⟨works, other⟩ := getProtocolShare_ends asked
  obtain rfl := settled.works works
  cases a with
  | ok =>
    obtain ⟨same, rfl⟩ := rest
    cases same
    exact ⟨rfl, rfl, asked⟩
  | error err =>
    simp only [other err rfl, Bool.false_eq_true, if_false] at rest
    cases rest.1

theorem getProtocolShare_again {name pool dataset : Name} {r : Except ApiError Unit} {m : World}
    (settled : w.Settled)
    (first : Ends (Responds host lossy) (getProtocolShare name pool dataset) w (.ok ()) m)
    (second : Ends (Responds host False) (getProtocolShare name pool dataset) w r w') :
    r = .ok () ∧ w' = w := by
  rw [getProtocolShare] at first second
  split at first
  · cases first.1
  split at first
  · cases first.1
  next named full =>
  rw [if_neg named, if_neg full] at second
  obtain ⟨m', works, shown⟩ := (ends_send.mp first).served
  obtain rfl := settled.works works
  have served := settled.served (ends_send.mp second)
  have unchanged : (serve host m' (.getProtocolShare name pool dataset)).2 = m' := serve_world rfl m'
  rw [← shown] at served unchanged
  cases served
  exact ⟨rfl, unchanged⟩

theorem createNFSVolume_again {pool : Name} {polls' : Nat} {m : World} (settled : w.Settled)
    (first : Ends (Responds host lossy)
      (cfg.createNFSVolume polls parameters pool leaf full capacity) w (.ok v) m)
    (second : Ends (Responds host False)
      (cfg.createNFSVolume polls' parameters pool leaf full capacity) w r w') :
    r = .ok v ∧ w' = w := by
  obtain ⟨rfl, -, asked⟩ := createNFSVolume_ok settled first
  rw [Config.createNFSVolume] at second
  split at second
  next outside =>
    rw [outside, getProtocolShare] at asked
    split_ifs at asked <;> first | cases asked.1 | simp_all
  obtain ⟨a, m', again, rest⟩ := ends_lift_bind.mp second
  obtain ⟨rfl, rfl⟩ := getProtocolShare_again settled asked again
  exact rest

theorem createVolume_again {req : CreateVolumeRequest} {polls' : Nat} {m : World}
    (settled : w.Settled)
    (first : Ends (Responds host lossy) (cfg.createVolume polls req) w (.ok v) m)
    (second : Ends (Responds host False) (cfg.createVolume polls' req) m r w') :
    r = .ok v ∧ w' = m := by
  rcases createVolume_cases cfg req with ⟨status, fails⟩ | ⟨pool, full, capacity, nfs⟩ |
    ⟨kind, parent, capacity, bare, backing⟩
  · rw [fails] at first
    cases first.1
  · rw [nfs] at first second
    obtain ⟨-, rfl, -⟩ := createNFSVolume_ok settled first
    exact createNFSVolume_again settled first second
  · rw [backing] at first second
    obtain ⟨rfl, backed⟩ := createBacking_ok settled rfl first
    exact backed.again bare second

end Volumes

/-! ### Deleting volumes -/

theorem destroy_run {s s' : Storage} {full : Name} {recursive : Bool}
    (ran : (Command.destroy full recursive).run s = some s') :
    (s.find full).isSome ∧ s'.find full = none := by
  simp only [Command.run, Option.ite_none_left_eq_some, Bool.or_eq_true, not_or] at ran
  obtain ⟨⟨present, -⟩, same⟩ := ran
  cases same
  constructor
  · simpa [Option.isSome_iff_ne_none] using present
  · simp only [Storage.find, List.find?_eq_none, List.mem_filter]
    rintro b ⟨-, kept⟩ named
    simp [covers, decide_eq_true_eq.mp named] at kept

theorem datasetSubpath_append {pool full : Name} (below : datasetSubpath pool full ≠ []) :
    pool ++ '/' :: datasetSubpath pool full = full := by
  rw [datasetSubpath] at below ⊢
  split at below
  next inside =>
    obtain ⟨rest, rfl⟩ := List.isPrefixOf_iff_prefix.mp inside
    simp [List.isPrefixOf_iff_prefix]
  next => exact absurd rfl below

/-- A job that ends with the destruction of a dataset. -/
theorem Completed.destroyed {request : Request} {full : Name}
    (settled : w.Settled) (completed : Completed request w w')
    (last : ∀ job, request.plan = .ok job → ∀ s s', runAll s job.rest = some s' →
      ∃ m, s.datasets = m.datasets ∧ (Command.destroy full false).run m = some s') :
    w'.Settled ∧ (w.storage.find full).isSome ∧ w'.storage.find full = none := by
  obtain ⟨job, planned, after, ran⟩ := settled.completed completed
  obtain ⟨m, same, destroyed⟩ := last job planned _ _ ran
  obtain ⟨present, gone⟩ := destroy_run destroyed
  refine ⟨after, ?_, gone⟩
  rwa [Storage.find, same]

/-- A volume that a call has deleted was there before and is not there afterwards. -/
theorem deleteVolume_ok {volumeId : Name} (settled : w.Settled)
    (ends : Ends (Responds host lossy) (deleteVolume polls volumeId) w (.ok ()) w') :
    w'.Settled ∧ (w.storage.find volumeId).isSome ∧ w'.storage.find volumeId = none := by
  rw [deleteVolume] at ends
  obtain ⟨id, parsed, onward⟩ := ends_parsed_bind ends
  obtain rfl := parseVolumeID_full parsed
  -- The dataset is destroyed on its own, ...
  have alone {w : World} (settled : w.Settled)
      (ends : Ends (Responds host lossy) (remove (.destroyDataset id.full) .waitDestroyDataset
        polls (destroyDataset id.full false)) w (.ok ()) w') :
      w'.Settled ∧ (w.storage.find id.full).isSome ∧ w'.storage.find id.full = none := by
    refine (remove_ok (destroyDataset_submits id.full false) ends).destroyed settled ?_
    intro job planned s s' ran
    simp only [Request.plan] at planned
    split at planned
    · cases planned
      exact ⟨s, rfl, (runAll_single _ _).symm.trans ran⟩
    · cases planned
  dsimp only at onward
  split at onward
  · exact alone settled onward
  next below =>
  obtain ⟨a, m, asked, rest⟩ := ends_lift_bind.mp onward
  obtain rfl := settled.works (getProtocolShare_ends asked).1
  cases a with
  | error err => exact alone settled rest
  | ok =>
    -- ... or with its share.
    refine (remove_ok (deleteProtocolShare_submits _ _ _) rest).destroyed settled ?_
    intro job planned s s' ran
    simp only [Request.plan] at planned
    split at planned
    · cases planned
    next known =>
    have pooled : id.pool ≠ [] := by
      intro outside
      rw [not_or, not_not, decide_eq_decide] at known
      exact below (known.2.mp outside)
    split at planned
    · cases planned
      simp only [Job.queue, datasetSubpath_append below] at ran
      obtain ⟨unshared, dropped, ran⟩ := Option.bind_eq_some_iff.mp ran
      cases dropped
      obtain ⟨bare, dropped, ran⟩ := Option.bind_eq_some_iff.mp ran
      cases dropped
      refine ⟨_, ?_, (runAll_single _ _).symm.trans ran⟩
      rfl
    · cases planned
      simp [Job.queue, Command.run] at ran

/-! ### Snapshots -/

/-- A snapshot that a call has taken was not there before and is there afterwards. -/
theorem createSnapshot_ok {name sourceVolumeId : Name} {snapshot : Snapshot} (settled : w.Settled)
    (ends : Ends (Responds host lossy) (Controller.createSnapshot polls name sourceVolumeId) w
      (.ok snapshot) w') : w'.Settled ∧
      encodeSnapshotID sourceVolumeId name ∉ w.storage.snapshots ∧
      encodeSnapshotID sourceVolumeId name ∈ w'.storage.snapshots := by
  rw [Controller.createSnapshot] at ends
  split at ends
  · cases ends.1
  obtain ⟨id, parsed, onward⟩ := ends_parsed_bind ends
  obtain rfl := parseVolumeID_full parsed
  obtain ⟨⟨⟩, m, performed, -, rfl⟩ := ends_bind_ok.mp onward
  obtain ⟨job, planned, after, ran⟩ :=
    settled.completed (perform_ok (createSnapshot_submits id.full name false) performed)
  simp only [Request.plan] at planned
  split at planned
  · cases planned
    simp only [Job.queue, runAll_single, Command.run, Option.ite_none_left_eq_some,
      Bool.or_eq_true, not_or, Option.some.injEq] at ran
    obtain ⟨⟨present, new⟩, same⟩ := ran
    -- The dataset is there, so the snapshot of that name is among the new ones.
    have named : encodeSnapshotID id.full name ∈ (w.storage.datasets.filter
        fun b => covers id.full false b.name).map fun b => b.name ++ '@' :: name := by
      obtain ⟨b, found⟩ := Option.ne_none_iff_exists'.mp (mt Option.isNone_iff_eq_none.mpr present)
      have own : b.name = id.full := by simpa using List.find?_some found
      refine List.mem_map.mpr ⟨b, List.mem_filter.mpr ⟨List.mem_of_find?_eq_some found, ?_⟩, ?_⟩
      · simp [covers, own]
      · rw [own, encodeSnapshotID]
    refine ⟨after, ?_, ?_⟩
    · intro taken
      exact new (List.any_eq_true.mpr ⟨_, named, List.contains_iff_mem.mpr taken⟩)
    · rw [← same]
      exact List.mem_append_right _ named
  · cases planned

/-- A snapshot that a call has deleted was there before and is not there afterwards. -/
theorem deleteSnapshot_ok {snapshotId : Name} (settled : w.Settled)
    (ends : Ends (Responds host lossy) (Controller.deleteSnapshot polls snapshotId) w
      (.ok ()) w') :
    w'.Settled ∧ snapshotId ∈ w.storage.snapshots ∧ snapshotId ∉ w'.storage.snapshots := by
  rw [Controller.deleteSnapshot] at ends
  split at ends
  · cases ends.1
  obtain ⟨id, parsed, ends⟩ := ends_parsed_bind ends
  obtain ⟨job, planned, after, ran⟩ :=
    settled.completed (remove_ok (destroySnapshot_submits snapshotId) ends)
  simp only [Request.plan] at planned
  split at planned
  · cases planned
    simp only [Job.queue, runAll_single, Command.run, Option.ite_none_right_eq_some,
      Option.some.injEq] at ran
    obtain ⟨present, same⟩ := ran
    exact ⟨after, List.contains_iff_mem.mp present, by simp [← same]⟩
  · cases planned

/-! ### The same call again -/

inductive ControllerCall where
  | createVolume (req : CreateVolumeRequest)
  | deleteVolume (volumeId : Name)
  | createSnapshot (name sourceVolumeId : Name)
  | deleteSnapshot (snapshotId : Name)
  deriving DecidableEq, Repr

inductive Response where
  | volume (volume : Volume)
  | snapshot (snapshot : Snapshot)
  | deleted
  deriving DecidableEq, Repr

def ControllerCall.handle (cfg : Config) (polls : Nat) : ControllerCall → Api Status Response
  | .createVolume req => do return .volume (← cfg.createVolume polls req)
  | .deleteVolume volumeId => do
    Csi.deleteVolume polls volumeId
    return .deleted
  | .createSnapshot name sourceVolumeId => do
    return .snapshot (← Controller.createSnapshot polls name sourceVolumeId)
  | .deleteSnapshot snapshotId => do
    Controller.deleteSnapshot polls snapshotId
    return .deleted

/-- Made in this world, with no request and no answer lost and so many polls of a job, the call
returns, and with this response, and leaves the storage as it is. -/
def Repeats (host : Host) (cfg : Config) (call : ControllerCall) (response : Response) (polls : Nat)
    (w : World) : Prop :=
  (∃ r w', Ends (Responds host False) (call.handle cfg polls) w r w') ∧
    ∀ r w', Ends (Responds host False) (call.handle cfg polls) w r w' →
      r = .ok response ∧ w'.storage = w.storage

section Again

variable {cfg : Config} {call : ControllerCall} {response response' : Response} {polls' : Nat}
  {m : World}

theorem returns (host : Host) (cfg : Config) (call : ControllerCall) (polls : Nat) (w : World) :
    ∃ r w', Ends (Responds host False) (call.handle cfg polls) w r w' :=
  ⟨_, _, run_exec (prompt_responds host False) (call.handle cfg polls).run w⟩

theorem createVolume_repeats {req : CreateVolumeRequest} (settled : w.Settled)
    (first : Ends (Responds host lossy) (ControllerCall.handle cfg polls (.createVolume req)) w
      (.ok response) m) : Repeats host cfg (.createVolume req) response polls' m := by
  obtain ⟨v, m, created, same, rfl⟩ := ends_bind_ok.mp first
  cases same
  refine ⟨returns host cfg _ polls' m, ?_⟩
  intro r w' second
  rcases ends_bind.mp second with ⟨v', m', again, rfl, rfl⟩ | ⟨status, -, again⟩
  · obtain ⟨same, rfl⟩ := createVolume_again settled created again
    cases same
    exact ⟨rfl, rfl⟩
  · obtain ⟨same, -⟩ := createVolume_again settled created again
    cases same

/-- What a call deletes or takes is there before it or after it, and not both. -/
theorem fails_again (settled : w.Settled) (other : ∀ req, call ≠ .createVolume req)
    (first : Ends (Responds host lossy) (call.handle cfg polls) w (.ok response) m)
    (second : Ends (Responds host False) (call.handle cfg polls') m (.ok response') w') : False := by
  cases call with
  | createVolume req => exact other req rfl
  | deleteVolume volumeId =>
    obtain ⟨⟨⟩, _, first, -, rfl⟩ := ends_bind_ok.mp first
    obtain ⟨⟨⟩, _, second, -, rfl⟩ := ends_bind_ok.mp second
    obtain ⟨between, -, gone⟩ := deleteVolume_ok settled first
    obtain ⟨-, present, -⟩ := deleteVolume_ok between second
    simp [gone] at present
  | createSnapshot name sourceVolumeId =>
    obtain ⟨_, _, first, -, rfl⟩ := ends_bind_ok.mp first
    obtain ⟨_, _, second, -, rfl⟩ := ends_bind_ok.mp second
    obtain ⟨between, -, taken⟩ := createSnapshot_ok settled first
    obtain ⟨-, new, -⟩ := createSnapshot_ok between second
    exact new taken
  | deleteSnapshot snapshotId =>
    obtain ⟨⟨⟩, _, first, -, rfl⟩ := ends_bind_ok.mp first
    obtain ⟨⟨⟩, _, second, -, rfl⟩ := ends_bind_ok.mp second
    obtain ⟨between, -, gone⟩ := deleteSnapshot_ok settled first
    obtain ⟨-, present, -⟩ := deleteSnapshot_ok between second
    exact gone present

end Again

/-- A call that has succeeded can be repeated if and only if it creates a volume, however often the
second one polls its job. In the first call, requests and answers may be lost. -/
theorem repeats_iff_createVolume {cfg : Config} {call : ControllerCall} {response : Response}
    (settled : w.Settled)
    (first : Ends (Responds host lossy) (call.handle cfg polls) w (.ok response) w')
    (polls' : Nat) :
    Repeats host cfg call response polls' w' ↔ ∃ req, call = .createVolume req := by
  constructor
  · intro repeats
    by_contra other
    obtain ⟨⟨r, m, second⟩, same⟩ := repeats
    rw [(same r m second).1] at second
    exact fails_again settled (not_exists.mp other) first second
  · rintro ⟨req, rfl⟩
    exact createVolume_repeats settled first

theorem succeeds_of_exec {call : ControllerCall} {w : World}
    (succeeds : ((call.handle cfg 1).run.exec (prompt host) w).1.toBool = true) :
    ∃ response m, Ends (Responds host False) (call.handle cfg 1) w (.ok response) m := by
  have first := run_exec (prompt_responds host False) (call.handle cfg 1).run w
  generalize (call.handle cfg 1).run.exec (prompt host) w = result at first succeeds
  obtain ⟨_ | response, m⟩ := result
  · cases succeeds
  · exact ⟨response, m, first⟩

theorem repeats_iff_createVolume_claim : ∃ response m,
    Ends (Responds plainHost False)
      (ControllerCall.handle {} 1 (.createVolume (claim .mount none))) (stocked [] [])
      (.ok response) m ∧
    ∀ polls, (Repeats plainHost {} (.createVolume (claim .mount none)) response polls m ↔
      ∃ req, ControllerCall.createVolume (claim .mount none) = .createVolume req) := by
  obtain ⟨response, m, first⟩ : ∃ response m, Ends (Responds plainHost False)
      (ControllerCall.handle {} 1 (.createVolume (claim .mount none))) (stocked [] [])
      (.ok response) m :=
    succeeds_of_exec (by decide +kernel)
  exact ⟨response, m, first, repeats_iff_createVolume (stocked_settled [] []) first⟩

/-- The call succeeds, and fails when it is repeated. -/
def FailsAgain (call : ControllerCall) (w : World) : Prop :=
  ∃ response m, Ends (Responds plainHost False) (call.handle {} 1) w (.ok response) m ∧
    ∀ polls r w', Ends (Responds plainHost False) (call.handle {} polls) m r w' →
      ∃ status, r = .error status

theorem failsAgain_of_exec {call : ControllerCall} {w : World} (settled : w.Settled)
    (other : ∀ req, call ≠ .createVolume req)
    (succeeds : ((call.handle {} 1).run.exec (prompt plainHost) w).1.toBool = true) :
    FailsAgain call w := by
  obtain ⟨response, m, first⟩ := succeeds_of_exec succeeds
  refine ⟨response, m, first, fun polls r w' second => ?_⟩
  cases r with
  | error status => exact ⟨status, rfl⟩
  | ok response' => exact (fails_again settled other first second).elim

/-- Deleting a volume, taking a snapshot and deleting one each succeed once. -/
theorem retries_fail :
    let volume : Backing := ⟨claimed, .filesystem, '/' :: claimed, 0, 2 ^ 30, 2 ^ 30⟩
    let daily := claimed ++ "@daily".toList
    FailsAgain (.deleteVolume claimed) (stocked [volume] []) ∧
      FailsAgain (.createSnapshot "daily".toList claimed) (stocked [volume] []) ∧
      FailsAgain (.deleteSnapshot daily) (stocked [volume] [daily]) := by
  refine ⟨failsAgain_of_exec (stocked_settled _ _) nofun ?_,
    failsAgain_of_exec (stocked_settled _ _) nofun ?_,
    failsAgain_of_exec (stocked_settled _ _) nofun ?_⟩ <;> decide +kernel

end NovaNas.Csi
