import NovaNas.Base.Program
import NovaNas.Scheduler.Manager

/-!
# Task handlers

A handler decodes its task, marks the job's row running, performs the host operation of its
kind, and finishes the row. What it calls outside (the jobs table, the schedules, the clock,
the host) is answered by whoever runs it; the answer of the table is not looked at.
-/
namespace NovaNas.Jobs

open Program (perform)

/-- The kinds the worker's mux has a handler for. -/
inductive Kind where
  | poolCreate | poolDestroy | poolScrub | poolReplace | poolOffline | poolOnline | poolClear
  | poolAttach | poolDetach | poolAdd | poolExport | poolImport | poolTrim | poolSetProps
  | poolCheckpoint | poolDiscardCheckpoint | poolUpgrade | poolReguid
  | datasetCreate | datasetSet | datasetDestroy | datasetRename | datasetClone | datasetPromote
  | datasetLoadKey | datasetUnloadKey | datasetChangeKey | datasetBookmark
  | datasetDestroyBookmark | datasetSetACL | datasetAppendACE | datasetRemoveACE
  | snapshotCreate | snapshotDestroy | snapshotRollback | snapshotHold | snapshotRelease
  | iscsiTargetCreate | iscsiTargetDestroy | iscsiPortalCreate | iscsiPortalDelete
  | iscsiLUNCreate | iscsiLUNDelete | iscsiACLCreate | iscsiACLDelete | iscsiSaveConfig
  | nvmeofSubsystemCreate | nvmeofSubsystemDestroy | nvmeofNamespaceAdd | nvmeofNamespaceRemove
  | nvmeofHostAllow | nvmeofHostDisallow | nvmeofPortCreate | nvmeofPortDelete
  | nvmeofPortLink | nvmeofPortUnlink | nvmeofSetHostDHChap | nvmeofClearHostDHChap
  | nvmeofSaveConfig
  | nfsExportCreate | nfsExportUpdate | nfsExportDelete | nfsReload
  | krb5SetConfig | krb5SetIdmapd | krb5UploadKeytab | krb5DeleteKeytab
  | sambaShareCreate | sambaShareUpdate | sambaShareDelete | sambaReload | sambaUserAdd
  | sambaUserDelete | sambaUserSetPassword | sambaSetGlobals
  | smartRunSelfTest | smartEnable
  | schedSnapshotFire | schedReplicationFire
  | networkInterfaceApply | networkInterfaceDelete | networkVLANApply | networkBondApply
  | networkReload
  | systemSetHostname | systemSetTimezone | systemSetNTP | systemReboot | systemShutdown
  | systemCancelShutdown
  | protocolShareCreate | protocolShareUpdate | protocolShareDelete
  | replicationRun
  deriving DecidableEq, Repr

inductive JobState where
  | queued | running | succeeded | failed | cancelled | interrupted
  deriving DecidableEq, Repr

def JobState.terminal : JobState → Bool
  | .succeeded | .failed | .cancelled => true
  | _ => false

/-- What `exec.HostError` tells `finish`. -/
structure HostError where
  stderr : String
  exitCode : Int
  deriving DecidableEq, Repr

/-- A Go error: its text, and the host error it wraps, if any. -/
structure RunError where
  message : String
  host : Option HostError := none
  deriving DecidableEq, Repr

structure PoolTrimPayload where
  name : String
  action : String
  disk : String
  deriving DecidableEq, Repr

structure NvmeofSaveConfigPayload where
  path : String
  deriving DecidableEq, Repr

structure SchedFirePayload where
  scheduleID : Nat
  deriving DecidableEq, Repr

structure ProtocolShareDeletePayload where
  name : String
  pool : String
  datasetName : String
  deriving DecidableEq, Repr

/-- 0 is `uuid.Nil`. -/
structure ReplicationRunPayload where
  jobID : Nat
  deriving DecidableEq, Repr

inductive TrimAction where
  | start | stop
  deriving DecidableEq, Repr

/-- A call of a manager of the host, with what the payload `ρ` gave it. -/
inductive HostOp (ρ : Type) where
  /-- The one method that the handler of `kind` calls. -/
  | call (kind : Kind) (payload : ρ)
  | trim (name : String) (action : TrimAction) (disk : String)
  | saveToFile (path : String)
  | createSnapshot (dataset shortName : String) (recursive : Bool)
  | deleteShare (name pool datasetName : String)
  | deleteProtocolShare (name : String)
  | runReplication (jobID : Nat)
  deriving DecidableEq, Repr

structure TaskBody (ρ : Type) where
  jobID : Nat
  payload : ρ
  deriving DecidableEq, Repr

/-- What the handlers get from elsewhere: `json.Unmarshal` at their payload types, the verb %q
of `fmt`, the process's time zone, and whether the replication runner is wired. -/
structure Library (ρ : Type) where
  poolTrim : ρ → Except RunError PoolTrimPayload
  nvmeofSaveConfig : ρ → Except RunError NvmeofSaveConfigPayload
  schedSnapshotFire : ρ → Except RunError SchedFirePayload
  schedReplicationFire : ρ → Except RunError SchedFirePayload
  protocolShareDelete : ρ → Except RunError ProtocolShareDeletePayload
  replicationRun : ρ → Except RunError ReplicationRunPayload
  /-- The payload types that are only handed on, at their kinds. -/
  other : Kind → ρ → Except RunError ρ
  quote : String → String
  zone : Clock.Location
  wired : Bool

/-! ### Calls -/

inductive Call (ρ : Type) where
  | markJobRunning (id : Nat)
  | markJobFinished (id : Nat) (state : JobState) (stdout stderr : String)
      (exitCode : Option Int) (error : Option String)
  /-- Redis: "job:<id>:update". -/
  | publish (id : Nat) (state : JobState)
  | getSnapshotSchedule (id : Nat)
  | getReplicationSchedule (id : Nat)
  | now
  | host (op : HostOp ρ)

/-- `none` is a nil error. -/
@[reducible] def Call.Answer {ρ : Type} : Call ρ → Type
  | .markJobRunning _ | .markJobFinished .. | .publish .. | .host _ => Option RunError
  | .getSnapshotSchedule _ => Except RunError Scheduler.SnapshotSchedule
  | .getReplicationSchedule _ => Except RunError Scheduler.ReplicationSchedule
  | .now => Int

abbrev Outside (ρ α : Type) := Program (Call ρ) Call.Answer α

section Handlers

variable {ρ π : Type}

def decode (unmarshal : ρ → Except RunError π) (body : TaskBody ρ) : Except RunError (Nat × π) :=
  (unmarshal body.payload).map fun p => (body.jobID, p)

def markRunning (id : Nat) : Outside ρ (Option RunError) := perform (Call.markJobRunning id)

def hostOp (op : HostOp ρ) : Outside ρ (Option RunError) := perform (Call.host op)

def getSnapshotSchedule (id : Nat) : Outside ρ (Except RunError Scheduler.SnapshotSchedule) :=
  perform (Call.getSnapshotSchedule id)

def getReplicationSchedule (id : Nat) :
    Outside ρ (Except RunError Scheduler.ReplicationSchedule) :=
  perform (Call.getReplicationSchedule id)

def timeNow : Outside ρ Int := perform Call.now

def finish (id : Nat) (runErr : Option RunError) : Outside ρ Unit := do
  let state := if runErr.isSome then JobState.failed else .succeeded
  let host := runErr.bind (·.host)
  let _ ← perform (Call.markJobFinished id state "" ((host.map (·.stderr)).getD "")
    (host.map (·.exitCode)) (runErr.map (·.message)))
  let _ ← perform (Call.publish id state)

/-- The frame of the handlers of `WorkerDeps`: each finishes the row with the error of its job
and returns it. -/
def handling (unmarshal : ρ → Except RunError π) (body : TaskBody ρ)
    (job : π → Outside ρ (Option RunError)) : Outside ρ (Option RunError) :=
  match decode unmarshal body with
  -- An undecodable task leaves its row as it is.
  | .error err => pure (some err)
  | .ok (id, p) => do
    -- Neither whether the row could be marked nor its state is looked at.
    let _ ← markRunning id
    let err ← job p
    finish id err
    pure err

/-- `handlePoolCreate` and the handlers that differ from it only in the method they call. -/
def handleCall (lib : Library ρ) (kind : Kind) (body : TaskBody ρ) : Outside ρ (Option RunError) :=
  handling (lib.other kind) body fun p => hostOp (.call kind p)

def trimAction : String → Option TrimAction
  | "start" => some .start
  | "stop" => some .stop
  | _ => none

section Kinds

variable (lib : Library ρ) (body : TaskBody ρ)

def handlePoolTrim : Outside ρ (Option RunError) :=
  handling lib.poolTrim body fun p =>
    match trimAction p.action with
    | some action => hostOp (.trim p.name action p.disk)
    | none => pure (some { message := "invalid trim action " ++ lib.quote p.action })

def handleNvmeofSaveConfig : Outside ρ (Option RunError) :=
  handling lib.nvmeofSaveConfig body fun p =>
    let path := if p.path = "" then "/etc/nova-nas/nvmet-config.json" else p.path
    hostOp (.saveToFile path)

def handleSchedSnapshotFire : Outside ρ (Option RunError) :=
  handling lib.schedSnapshotFire body fun p => do
    match ← getSnapshotSchedule p.scheduleID with
    | .error fetchErr => pure (some fetchErr)
    | .ok s =>
      let now ← timeNow
      let short := Scheduler.formatSnapTime lib.zone s.snapshotPrefix now
      hostOp (.createSnapshot s.dataset short s.recursive)

/-- The tick loop owns the replication; the handler only looks the schedule up. -/
def handleSchedReplicationFire : Outside ρ (Option RunError) :=
  handling lib.schedReplicationFire body fun p => do
    match ← getReplicationSchedule p.scheduleID with
    | .error err => pure (some err)
    | .ok _ => pure none

def handleProtocolShareDelete : Outside ρ (Option RunError) :=
  handling lib.protocolShareDelete body fun p =>
    if p.pool ≠ "" ∧ p.datasetName ≠ "" then
      hostOp (.deleteShare p.name p.pool p.datasetName)
    else
      hostOp (.deleteProtocolShare p.name)

/-- Outside the frame: the row of the job is neither marked nor finished. -/
def handleReplicationRun : Outside ρ (Option RunError) :=
  if lib.wired then
    match lib.replicationRun body.payload with
    | .error err =>
      pure (some { err with message := "decode replication payload: " ++ err.message })
    | .ok payload =>
      -- The nil UUID.
      if payload.jobID = 0 then pure (some { message := "replication: empty jobId" })
      else hostOp (.runReplication payload.jobID)
  else pure (some { message := "replication runner not wired" })

def newServeMux : Kind → TaskBody ρ → Outside ρ (Option RunError)
  | .poolTrim => handlePoolTrim lib
  | .nvmeofSaveConfig => handleNvmeofSaveConfig lib
  | .schedSnapshotFire => handleSchedSnapshotFire lib
  | .schedReplicationFire => handleSchedReplicationFire lib
  | .protocolShareDelete => handleProtocolShareDelete lib
  | .replicationRun => handleReplicationRun lib
  | kind => handleCall lib kind

/-- The payload fits the payload type of the kind. -/
def decodes : Kind → ρ → Bool
  | .poolTrim, raw => (lib.poolTrim raw).isOk
  | .nvmeofSaveConfig, raw => (lib.nvmeofSaveConfig raw).isOk
  | .schedSnapshotFire, raw => (lib.schedSnapshotFire raw).isOk
  | .schedReplicationFire, raw => (lib.schedReplicationFire raw).isOk
  | .protocolShareDelete, raw => (lib.protocolShareDelete raw).isOk
  | .replicationRun, raw => (lib.replicationRun raw).isOk
  | kind, raw => (lib.other kind raw).isOk

/-- Some answers make the handler of the kind perform its host operation. -/
def operates : Kind → ρ → Bool
  | .poolTrim, raw => (lib.poolTrim raw).toOption.any fun p => (trimAction p.action).isSome
  | .schedReplicationFire, _ => false
  | .replicationRun, raw =>
    lib.wired && (lib.replicationRun raw).toOption.any fun p => p.jobID != 0
  | kind, raw => decodes lib kind raw

end Kinds

/-! ### What handlers call -/

/-- The row of the jobs table that a call updates. -/
def Call.row : Call ρ → Option Nat
  | .markJobRunning id => some id
  | .markJobFinished id .. => some id
  | _ => none

/-- The state that a call publishes, with its job. -/
def Call.published : Call ρ → Option (Nat × JobState)
  | .publish id state => some (id, state)
  | _ => none

def Call.isHost : Call ρ → Bool
  | .host _ => true
  | _ => false

/-- How far a handler is with its row, and the state it has finished it with. -/
inductive Progress where
  | unmarked
  | marked
  | finished (state : JobState)

def Progress.ended : Progress → Bool
  | .finished _ => true
  | _ => false

/-- A row is marked running, later finished, and not touched besides; then the state that it was
finished with is published, and nothing else. -/
def protocol (id : Nat) : Progress → Call ρ → Option Progress
  | .unmarked, .markJobRunning job => if job = id then some .marked else none
  | .marked, .markJobFinished job state _ _ _ _ =>
    if job = id ∧ state.terminal then some (.finished state) else none
  | .finished state, .publish job told =>
    if job = id ∧ told = state then some (.finished state) else none
  | at_, q => if q.row = none ∧ q.published = none then some at_ else none

theorem protocol_steady (id : Nat) (at_ : Progress) (q : Call ρ)
    (aside : q.row = none ∧ q.published = none) : protocol id at_ q = some at_ := by
  cases at_ <;> cases q <;> simp_all [protocol, Call.row, Call.published]

theorem protocol_eq {id : Nat} {at_ after : Progress} {q : Call ρ}
    (allowed : protocol id at_ q = some after) :
    (at_ = .unmarked ∧ q = .markJobRunning id ∧ after = .marked) ∨
    (at_ = .marked ∧ ∃ state stdout stderr exitCode error, state.terminal = true ∧
      q = .markJobFinished id state stdout stderr exitCode error ∧ after = .finished state) ∨
    (q.row = none ∧ after = at_ ∧
      ∀ told ∈ q.published, told.1 = id ∧ at_ = .finished told.2) := by
  unfold protocol at allowed
  split at allowed
  · split at allowed <;> simp_all
  · split at allowed <;> simp_all
  · split at allowed
    next same =>
      cases allowed
      refine .inr (.inr ⟨rfl, rfl, ?_⟩)
      rintro _ ⟨⟩
      exact ⟨same.1, by rw [same.2]⟩
    next => cases allowed
  · split at allowed
    next aside =>
      cases allowed
      exact .inr (.inr ⟨aside.1, rfl, by simp [aside.2]⟩)
    next => cases allowed

/-- Every handler but the replication run's is a job in the frame that leaves the jobs table
alone and publishes nothing. -/
theorem newServeMux_framed (lib : Library ρ) {kind : Kind} (body : TaskBody ρ)
    (other : kind ≠ .replicationRun) :
    ∃ (π : Type) (unmarshal : ρ → Except RunError π) (job : π → Outside ρ (Option RunError)),
      (∀ p, (job p).Always fun q => q.row = none ∧ q.published = none) ∧
      decodes lib kind body.payload = (unmarshal body.payload).isOk ∧
      newServeMux lib kind body = handling unmarshal body job := by
  -- One case for each handler with a body of its own, and one for all others.
  unfold newServeMux
  split
  · refine ⟨_, lib.poolTrim, _, fun p => ?_, rfl, rfl⟩
    split <;> simp [hostOp, perform, Call.row, Call.published]
  · refine ⟨_, lib.nvmeofSaveConfig, _, fun p => ?_, rfl, rfl⟩
    simp [hostOp, perform, Call.row, Call.published]
  · refine ⟨_, lib.schedSnapshotFire, _, fun p => ?_, rfl, rfl⟩
    simp only [getSnapshotSchedule, Program.perform_bind]
    refine ⟨⟨rfl, rfl⟩, fun found => ?_⟩
    cases found <;> simp [hostOp, timeNow, perform, Call.row, Call.published]
  · refine ⟨_, lib.schedReplicationFire, _, fun p => ?_, rfl, rfl⟩
    simp only [getReplicationSchedule, Program.perform_bind]
    refine ⟨⟨rfl, rfl⟩, fun found => ?_⟩
    cases found <;> simp
  · refine ⟨_, lib.protocolShareDelete, _, fun p => ?_, rfl, rfl⟩
    split <;> simp [hostOp, perform, Call.row, Call.published]
  · exact absurd rfl other
  · refine ⟨_, lib.other kind, _, fun p => ?_, ?_, rfl⟩
    · simp [hostOp, perform, Call.row, Call.published]
    · unfold decodes
      split <;> first | rfl | contradiction

section Frame

variable {unmarshal : ρ → Except RunError π} {body : TaskBody ρ}
  {job : π → Outside ρ (Option RunError)}

theorem handling_ok {p : π} (decoded : unmarshal body.payload = .ok p) :
    handling unmarshal body job = .ask (.markJobRunning body.jobID) fun _ =>
      job p >>= fun err => finish body.jobID err >>= fun _ => pure err := by
  simp only [handling, decode, decoded, Except.map, markRunning, Program.perform_bind]

theorem handling_error {err : RunError} (decoded : unmarshal body.payload = .error err) :
    handling unmarshal body job = .ret (some err) := by
  simp only [handling, decode, decoded, Except.map, Program.pure_eq]

theorem finish_follows {accept : Progress → Prop} (accepts : ∀ state, accept (.finished state))
    (id : Nat) (err : Option RunError) :
    (finish id err >>= fun _ => (pure err : Outside ρ (Option RunError))).Follows (protocol id)
      accept .marked := by
  cases err with
  | none =>
    exact ⟨.finished .succeeded, by simp [protocol, JobState.terminal], fun _ =>
      ⟨.finished .succeeded, by simp [protocol], fun _ => accepts _⟩⟩
  | some err =>
    exact ⟨.finished .failed, by simp [protocol, JobState.terminal], fun _ =>
      ⟨.finished .failed, by simp [protocol], fun _ => accepts _⟩⟩

theorem handling_follows
    (aside : ∀ p, (job p).Always fun q => q.row = none ∧ q.published = none) :
    (handling unmarshal body job).Follows (protocol body.jobID)
      (fun at_ => (unmarshal body.payload).isOk = true → at_.ended = true) .unmarked := by
  cases decoded : unmarshal body.payload with
  | error err =>
    rw [handling_error decoded]
    exact fun fits => by simp [Except.isOk, Except.toBool] at fits
  | ok p =>
    rw [handling_ok decoded]
    refine ⟨.marked, by simp [protocol], fun _ => ?_⟩
    -- The job itself leaves the row marked; `finish` does the rest.
    exact .bind (fun q quiet => protocol_steady body.jobID .marked q quiet) (aside p)
      (finish_follows (fun _ _ => rfl) body.jobID)

theorem handling_ever :
    (handling unmarshal body job).Ever (·.isHost) ↔
      ∃ p, unmarshal body.payload = .ok p ∧ (job p).Ever (·.isHost) := by
  cases decoded : unmarshal body.payload with
  | error err => simp [handling_error decoded]
  | ok p =>
    rw [handling_ok decoded]
    simp only [Program.Ever, Call.isHost, Bool.false_eq_true, false_or, exists_const,
      Except.ok.injEq, exists_eq_left']
    exact Program.ever_bind fun err => by simp [finish]

theorem handling_ever_of_ok (ever : ∀ p, (job p).Ever (·.isHost)) :
    (handling unmarshal body job).Ever (·.isHost) ↔ (unmarshal body.payload).isOk = true := by
  rw [handling_ever]
  cases unmarshal body.payload <;> simp [ever, Except.isOk, Except.toBool]

end Frame

/-- Every handler keeps to the protocol. Where the payload decodes, the row is marked and then
finished on every path, except by the replication run. -/
theorem newServeMux_follows (lib : Library ρ) (kind : Kind) (body : TaskBody ρ) :
    (newServeMux lib kind body).Follows (protocol body.jobID) (fun at_ =>
      kind ≠ .replicationRun → decodes lib kind body.payload = true → at_.ended = true)
      .unmarked := by
  by_cases other : kind = .replicationRun
  · subst other
    simp only [newServeMux, handleReplicationRun]
    split
    · split
      · exact fun differs => absurd rfl differs
      · split
        · exact fun differs => absurd rfl differs
        · exact ⟨.unmarked, rfl, fun _ differs => absurd rfl differs⟩
    · exact fun differs => absurd rfl differs
  · obtain ⟨π, unmarshal, job, aside, same, equal⟩ := newServeMux_framed lib body other
    rw [equal, same]
    exact (handling_follows aside).mono fun at_ closed _ => closed

/-- A handler updates no row but that of its own job. -/
theorem own_of_follows {id : Nat} {accept : Progress → Prop} {at_ : Progress}
    {program : Outside ρ π} (follows : program.Follows (protocol id) accept at_) :
    program.Always fun q => ∀ row ∈ q.row, row = id := by
  induction program generalizing at_ with
  | ret result => trivial
  | ask q next ih =>
    obtain ⟨after, allowed, later⟩ := follows
    refine ⟨?_, fun a => ih a (later a)⟩
    obtain ⟨-, rfl, -⟩ | ⟨-, _, _, _, _, _, -, rfl, -⟩ | ⟨aside, -⟩ := protocol_eq allowed
    · simp [Call.row]
    · simp [Call.row]
    · simp [aside]

theorem newServeMux_own (lib : Library ρ) (kind : Kind) (body : TaskBody ρ) :
    (newServeMux lib kind body).Always fun q => ∀ id ∈ q.row, id = body.jobID :=
  own_of_follows (newServeMux_follows lib kind body)

/-- The handler can come to a host operation exactly when the kind and the payload say so. -/
theorem newServeMux_ever (lib : Library ρ) (kind : Kind) (body : TaskBody ρ) :
    (newServeMux lib kind body).Ever (·.isHost) ↔ operates lib kind body.payload = true := by
  have operation : ∀ op : HostOp ρ, (hostOp op).Ever (·.isHost) := fun op => .inl rfl
  unfold newServeMux
  split
  · simp only [handlePoolTrim, operates, handling_ever]
    cases lib.poolTrim body.payload with
    | error err => simp [Except.toOption]
    | ok p => cases known : trimAction p.action <;> simp [Except.toOption, known, operation]
  · exact handling_ever_of_ok fun p => operation _
  · refine handling_ever_of_ok fun p => ?_
    simp only [getSnapshotSchedule, timeNow, Program.perform_bind]
    -- Any schedule will do as the answer.
    exact .inr ⟨.ok default, .inr ⟨0, operation _⟩⟩
  · simp only [handleSchedReplicationFire, operates, Bool.false_eq_true, iff_false, handling_ever,
      getReplicationSchedule, Program.perform_bind]
    rintro ⟨p, -, ever⟩
    obtain ⟨found, ever⟩ := ever.resolve_left (by simp [Call.isHost])
    cases found <;> exact ever
  · refine handling_ever_of_ok fun p => ?_
    split <;> exact operation _
  · simp only [handleReplicationRun, operates]
    cases lib.wired with
    | false => simp
    | true =>
      cases lib.replicationRun body.payload with
      | error err => simp [Except.toOption]
      | ok payload =>
        by_cases empty : payload.jobID = 0 <;> simp [Except.toOption, empty, operation]
  · rw [handleCall, handling_ever_of_ok fun p => operation _]
    unfold operates
    split <;> try contradiction
    unfold decodes
    split <;> first | rfl | contradiction

end Handlers

end NovaNas.Jobs
