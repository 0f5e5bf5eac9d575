import Mathlib.Logic.Relation
import NovaNas.Csi.Controller

/-!
# The API server behind the CSI driver

The storage of the host, the jobs that change it and the answers of the server. A job runs its
commands one after the other, and other jobs run in between; a command may fail, with or without
having had its effect. The job table is read by polling.
-/
namespace NovaNas.Csi

open Program
open Zfs (Name validateDatasetName validateSnapshotName)

/-! ### Storage -/

/-- A dataset on the host. A quota of zero is none. -/
structure Backing where
  name : Name
  type : DatasetType
  mountpoint : Name
  volsize : Int
  quota : Int
  refquota : Int
  deriving DecidableEq, Repr

def Backing.size (b : Backing) : SizeProperty → Int
  | .volsize => b.volsize
  | .quota => b.quota
  | .refquota => b.refquota

def Backing.resize (b : Backing) : SizeProperty → Int → Backing
  | .volsize, bytes => { b with volsize := bytes }
  | .quota, bytes => { b with quota := bytes }
  | .refquota, bytes => { b with refquota := bytes }

structure Storage where
  datasets : List Backing
  snapshots : List Name
  /-- Shares with a file of their own in the directory of the NFS server. -/
  exports : List Name
  /-- Shares with a file of their own in the directory of the SMB server. -/
  sambaShares : List Name
  deriving DecidableEq, Repr

def Storage.find (s : Storage) (full : Name) : Option Backing :=
  s.datasets.find? (·.name = full)

def Storage.resize (s : Storage) (full : Name) (property : SizeProperty) (bytes : Int) : Storage :=
  { s with
    datasets := s.datasets.map fun b => if b.name = full then b.resize property bytes else b }

/-- The dataset and, if asked for, the datasets below it. -/
def covers (full : Name) (recursive : Bool) (name : Name) : Bool :=
  name = full || (recursive && (full ++ ['/']).isPrefixOf name)

/-- A change that a job makes on the host. -/
inductive Command where
  /-- A check of the job's input. -/
  | require (passed : Bool)
  | create (dataset : Backing)
  | set (full : Name) (setting : Setting)
  | destroy (full : Name) (recursive : Bool)
  | snapshot (dataset short : Name) (recursive : Bool)
  | destroySnapshot (full : Name)
  | addExport (share : Name)
  | dropExport (share : Name)
  | dropSambaShare (share : Name)
  deriving DecidableEq, Repr

/-- What a command does when it works; nothing where it cannot. -/
def Command.run (s : Storage) : Command → Option Storage
  | .require passed => if passed then some s else none
  | .create dataset =>
    if (s.find dataset.name).isSome || dataset.volsize < 0 || dataset.quota < 0 ||
        dataset.refquota < 0 then none
    else some { s with datasets := s.datasets ++ [dataset] }
  | .set full (.size property bytes) =>
    if (s.find full).isNone || bytes < 0 then none else some (s.resize full property bytes)
  | .set full _ => if (s.find full).isNone then none else some s
  | .destroy full recursive =>
    let children := s.datasets.filter fun b => (full ++ ['/']).isPrefixOf b.name
    let snapshots := s.snapshots.filter fun name => (full ++ ['@']).isPrefixOf name
    if (s.find full).isNone || (!recursive && (!children.isEmpty || !snapshots.isEmpty)) then none
    else some { s with
      datasets := s.datasets.filter fun b => !covers full recursive b.name
      snapshots := s.snapshots.filter fun name =>
        !recursive || !(s.datasets.filter fun b => covers full recursive b.name).any
          fun b => (b.name ++ ['@']).isPrefixOf name }
  | .snapshot dataset short recursive =>
    let names := (s.datasets.filter fun b => covers dataset recursive b.name).map
      fun b => b.name ++ '@' :: short
    if (s.find dataset).isNone || names.any s.snapshots.contains then none
    else some { s with snapshots := s.snapshots ++ names }
  | .destroySnapshot full =>
    if s.snapshots.contains full then
      some { s with snapshots := s.snapshots.filter (· ≠ full) }
    else none
  | .addExport share =>
    if s.exports.contains share then none else some { s with exports := s.exports ++ [share] }
  -- What is not there need not be removed.
  | .dropExport share => some { s with exports := s.exports.filter (· ≠ share) }
  | .dropSambaShare share => some { s with sambaShares := s.sambaShares.filter (· ≠ share) }

/-- The commands in order, each of which works. -/
def runAll : Storage → List Command → Option Storage
  | s, [] => some s
  | s, c :: rest => (c.run s).bind fun s' => runAll s' rest

/-! ### Jobs -/

structure Job where
  /-- What is left to do. -/
  rest : List Command
  /-- A failed command does not keep the job from the next ones. -/
  bestEffort : Bool
  /-- A command has failed. -/
  broken : Bool
  state : JobState
  deriving DecidableEq, Repr

def Job.queue (commands : List Command) : Job := ⟨commands, false, false, .queued⟩

/-- `zfs set` has changed a size. -/
structure Resize where
  dataset : Name
  property : SizeProperty
  before : Int
  after : Int
  deriving DecidableEq, Repr

def Command.resizes (s : Storage) : Command → List Resize
  | .set full (.size property bytes) =>
    ((s.find full).map fun b => ⟨full, property, b.size property, bytes⟩).toList
  | _ => []

structure World where
  storage : Storage
  jobs : List Job
  /-- All changes of sizes so far. -/
  resizes : List Resize
  deriving DecidableEq, Repr

def World.update (w : World) (id : Nat) (job : Job) : World :=
  { w with jobs := w.jobs.set id job }

/-- A command has had its effect. -/
def World.ran (w : World) (c : Command) (after : Storage) : World :=
  { w with storage := after, resizes := w.resizes ++ c.resizes w.storage }

/-- One step of a worker at a job, with the command that has its effect in it, if any. -/
inductive Job.Moves (job : Job) : Job → Option Command → Prop where
  | starts (queued : job.state = .queued) : Moves job { job with state := .running } none
  | runs {c : Command} {rest : List Command} (running : job.state = .running)
      (left : job.rest = c :: rest) : Moves job { job with rest } (some c)
  /-- A failed command may have had its effect. -/
  | passesOver {c : Command} {rest : List Command} {effect : Option Command}
      (running : job.state = .running) (left : job.rest = c :: rest) (goesOn : job.bestEffort = true)
      (may : effect = none ∨ effect = some c) : Moves job { job with rest, broken := true } effect
  | fails {c : Command} {rest : List Command} {effect : Option Command}
      (running : job.state = .running) (left : job.rest = c :: rest)
      (may : effect = none ∨ effect = some c) : Moves job { job with state := .failed } effect
  | ends (running : job.state = .running) (left : job.rest = []) :
      Moves job { job with state := if job.broken then .failed else .succeeded } none
  /-- The job is cancelled, or a restart interrupts it. -/
  | dropped {state : JobState} {effect : Option Command} (live : job.state.isTerminal = false)
      (dropped : state = .cancelled ∨ state = .interrupted)
      (may : effect = none ∨ effect = job.rest.head?) : Moves job { job with state } effect

/-- One step of a worker. -/
inductive Work (w : World) : World → Prop where
  | quiet {id : Nat} {job job' : Job} (found : w.jobs[id]? = some job) (moves : job.Moves job' none) :
      Work w (w.update id job')
  | effective {id : Nat} {job job' : Job} {c : Command} {after : Storage}
      (found : w.jobs[id]? = some job) (moves : job.Moves job' (some c))
      (ran : c.run w.storage = some after) : Work w ((w.ran c after).update id job')

abbrev Works : World → World → Prop := Relation.ReflTransGen Work

/-! ### Answers -/

/-- What is not the server's to decide. -/
structure Host where
  /-- `zfs` has another complaint about the name than that there is no such dataset. -/
  rejects : Name → Bool
  /-- The access control list at the path of the dataset can be read. -/
  aclReadable : Name → Bool

def badRequest : ApiError := .status 400

def hostError : ApiError := .status 500

inductive ShareNameError where
  | empty
  | tooLong
  | leadingDash
  | character (c : Char)
  deriving DecidableEq, Repr

def isShareCharacter (c : Char) : Bool :=
  Zfs.isAlpha c || ('0' ≤ c && c ≤ '9') || c = '_' || c = '-'

def validateName (name : Name) : Except ShareNameError Unit :=
  match name with
  | [] => .error .empty
  | first :: _ =>
    if Zfs.byteLength name > 64 then .error .tooLong
    else if first = '-' then .error .leadingDash
    else
      match name.find? fun c => !isShareCharacter c with
      | some c => .error (.character c)
      | none => .ok ()

/-- The dataset that a specification describes. -/
def CreateDatasetSpec.backing (spec : CreateDatasetSpec) : Backing :=
  let size (property : SizeProperty) : Int :=
    (spec.properties.findSome? fun
      | .size p bytes => if p = property then some bytes else none
      | _ => none).getD 0
  { name := spec.parent ++ '/' :: spec.name
    type := spec.type
    mountpoint := '/' :: spec.parent ++ '/' :: spec.name
    volsize := spec.volumeSizeBytes
    quota := size .quota
    refquota := size .refquota }

/-- The job for a request, or the status with which the server refuses it. -/
def Request.plan : Request → Except ApiError Job
  | .createDataset spec =>
    if validateDatasetName (spec.parent ++ '/' :: spec.name) = .ok () then
      .ok (.queue [
        .require (spec.type = .filesystem || (spec.type = .volume && spec.volumeSizeBytes ≠ 0)),
        .create spec.backing])
    else .error badRequest
  | .destroyDataset full recursive =>
    if validateDatasetName full = .ok () then .ok (.queue [.destroy full recursive])
    else .error badRequest
  | .setDatasetProps full settings =>
    if validateDatasetName full = .ok () ∧ settings ≠ [] then
      .ok (.queue (settings.map (.set full)))
    else .error badRequest
  | .createSnapshot dataset short recursive =>
    if validateSnapshotName (dataset ++ '@' :: short) = .ok () then
      .ok (.queue [.snapshot dataset short recursive])
    else .error badRequest
  | .destroySnapshot full =>
    if validateSnapshotName full = .ok () then .ok (.queue [.destroySnapshot full])
    else .error badRequest
  | .createProtocolShare spec =>
    if spec.name = [] ∨ spec.pool = [] ∨ spec.datasetName = [] then .error badRequest
    else
      let dataset : CreateDatasetSpec := {
        parent := spec.pool
        name := spec.datasetName
        type := .filesystem
        volumeSizeBytes := 0
        properties := if spec.quotaBytes > 0 then [.size .quota spec.quotaBytes] else [] }
      .ok (.queue [
        .require (validateName spec.name = .ok ()),
        .require (validateDatasetName dataset.backing.name = .ok ()),
        .create dataset.backing,
        .addExport spec.name])
  | .deleteProtocolShare name pool dataset =>
    if name = [] ∨ decide (pool = []) ≠ decide (dataset = []) then .error badRequest
    else if validateName name = .ok () then
      let surfaces : List Command := [.dropSambaShare name, .dropExport name]
      let commands :=
        if pool = [] then surfaces else surfaces ++ [.destroy (pool ++ '/' :: dataset) false]
      .ok { Job.queue commands with bestEffort := true }
    else .ok (.queue [.require false])

def World.accept (w : World) (job : Job) : World := { w with jobs := w.jobs ++ [job] }

/-- The answer of the server. -/
def serve (host : Host) (w : World) : (q : Call) → Answer q × World
  | .getDataset full =>
    match w.storage.find full with
    | some b => (.ok ⟨b.type, b.mountpoint⟩, w)
    | none => (.error (if host.rejects full then hostError else .status 404), w)
  | .getProtocolShare name pool dataset =>
    if pool = [] ∨ dataset = [] then (.error badRequest, w)
    else if validateName name ≠ .ok () then (.error hostError, w)
    -- The files of the shares are looked up as well, but do not matter for the answer.
    else if (w.storage.find (pool ++ '/' :: dataset)).isNone then (.error hostError, w)
    else if !host.aclReadable (pool ++ '/' :: dataset) then (.error hostError, w)
    else (.ok (), w)
  | .submit request =>
    match request.plan with
    | .error err => (.error err, w)
    | .ok job => (.ok w.jobs.length, w.accept job)
  | .getJob id =>
    match w.jobs[id]? with
    | some job => (.ok job.state, w)
    | none => (.error (.status 404), w)

/-- The answer is lost on its way, or the request is, or the server refuses it for the moment. -/
def Lost (host : Host) (w : World) (q : Call) (a : Answer q) (w' : World) : Prop :=
  (∃ err, a = .error err ∧ isNotFound err = false) ∧ (w' = w ∨ w' = (serve host w q).2)

/-- Workers go on while the request is on its way. -/
def Responds (host : Host) (lossy : Prop) : Responses World Answer := fun w q a w' =>
  ∃ m, Works w m ∧ ((a, w') = serve host m q ∨ lossy ∧ Lost host m q a w')

end NovaNas.Csi
