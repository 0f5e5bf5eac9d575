
/-!
# Replication jobs

The stored job, the checks an update passes and the merge of a PATCH request onto the stored
job. Time stamps are left out: nothing below reads them.
-/
namespace NovaNas.Replication

inductive BackendKind where
  | zfs
  | s3
  | rsync
  | other (name : String)
  deriving DecidableEq, Repr

inductive Direction where
  | push
  | pull
  | other (name : String)
  deriving DecidableEq, Repr

/-- The fields of a source, and of a destination. -/
structure Endpoint where
  dataset : String := ""
  path : String := ""
  host : String := ""
  sshUser : String := ""
  bucket : String := ""
  keyPrefix : String := ""
  endpoint : String := ""
  region : String := ""
  deriving DecidableEq, Repr

structure RetentionPolicy where
  keepLastN : Int := 0
  keepDaily : Int := 0
  keepWeekly : Int := 0
  keepMonthly : Int := 0
  keepYearly : Int := 0
  deriving DecidableEq, Repr

def RetentionPolicy.isZero (r : RetentionPolicy) : Bool :=
  r.keepLastN == 0 && r.keepDaily == 0 && r.keepWeekly == 0 && r.keepMonthly == 0 &&
    r.keepYearly == 0

/-- A job; the id 0 is the nil UUID. -/
structure Job where
  id : Nat
  name : String
  backend : BackendKind
  direction : Direction
  source : Endpoint
  destination : Endpoint
  schedule : String
  retention : RetentionPolicy
  enabled : Bool
  secretRef : String
  /-- Base of the next incremental send; empty for a full one. -/
  lastSnapshot : String
  deriving DecidableEq, Repr

/-! ### Validation -/

def Job.validate (j : Job) : Option String :=
  if j.name = "" then some "replication: name is required"
  else match j.backend with
    | .other _ => some "replication: backend must be zfs|s3|rsync"
    | _ =>
      match j.direction with
      | .other _ => some "replication: direction must be push|pull"
      | _ => none

def validateZFS (j : Job) : Option String :=
  if j.direction = .push then
    if j.source.dataset = "" then some "zfs push: source.dataset is required"
    else if j.destination.dataset = "" ∨ j.destination.host = "" then
      some "zfs push: destination.dataset and destination.host are required"
    else none
  else if j.destination.dataset = "" then some "zfs pull: destination.dataset is required"
  else if j.source.dataset = "" ∨ j.source.host = "" then
    some "zfs pull: source.dataset and source.host are required"
  else none

def validateS3 (j : Job) : Option String :=
  if j.direction = .push then
    if j.source.path = "" then some "s3 push: source.path is required (mount the dataset first)"
    else if j.destination.bucket = "" then some "s3 push: destination.bucket is required"
    else none
  else if j.source.bucket = "" then some "s3 pull: source.bucket is required"
  else if j.destination.path = "" then some "s3 pull: destination.path is required"
  else none

def validateRsync (j : Job) : Option String :=
  if j.direction = .push then
    if j.source.path = "" then some "rsync push: source.path is required"
    else if j.destination.host = "" ∨ j.destination.sshUser = "" ∨ j.destination.path = "" then
      some "rsync push: destination.\x7bhost,sshUser,path\x7d are required"
    else none
  else if j.destination.path = "" then some "rsync pull: destination.path is required"
  else if j.source.host = "" ∨ j.source.sshUser = "" ∨ j.source.path = "" then
    some "rsync pull: source.\x7bhost,sshUser,path\x7d are required"
  else none

/-- The validation hook of a job's backend. -/
def backendValidate (j : Job) : Option String :=
  match j.backend with
  | .zfs => validateZFS j
  | .s3 => validateS3 j
  | .rsync => validateRsync j
  -- No backend is registered under another name; `validate` rejects it first.
  | .other _ => none

/-! ### Requests -/

/-- A PATCH body. An empty text or an all-zero record is a field that is not set. -/
structure JobRequest where
  name : String := ""
  backend : Option BackendKind := none
  direction : Option Direction := none
  source : Endpoint := {}
  destination : Endpoint := {}
  schedule : String := ""
  retention : RetentionPolicy := {}
  enabled : Option Bool := none
  secretRef : String := ""
  lastSnapshot : Option String := none
  deriving DecidableEq, Repr

/-- Merges a request onto an existing job; a job without an id is new. -/
def requestToJob (req : JobRequest) (existing : Job) : Job where
  id := existing.id
  name := if req.name ≠ "" then req.name else existing.name
  backend := req.backend.getD existing.backend
  direction := req.direction.getD existing.direction
  source := if req.source ≠ {} ∨ existing.id = 0 then req.source else existing.source
  destination :=
    if req.destination ≠ {} ∨ existing.id = 0 then req.destination else existing.destination
  retention :=
    if ¬ req.retention.isZero ∨ existing.id = 0 then req.retention else existing.retention
  schedule := if req.schedule ≠ "" ∨ existing.id = 0 then req.schedule else existing.schedule
  -- A new job is enabled unless the request says otherwise.
  enabled := req.enabled.getD (if existing.id = 0 then true else existing.enabled)
  secretRef := if req.secretRef ≠ "" then req.secretRef else existing.secretRef
  lastSnapshot := req.lastSnapshot.getD existing.lastSnapshot

/-! ### Fields a request sets -/

/-- A field of a job with the value a request sets it to, if it does. -/
structure Field where
  type : Type
  get : Job → type
  sets : JobRequest → Option type

def given {α : Type} (isSet : Bool) (value : α) : Option α := if isSet then some value else none

/-- The configuration fields of a job. -/
def configFields : List Field :=
  [⟨String, (·.name), fun r => given (r.name ≠ "") r.name⟩,
    ⟨BackendKind, (·.backend), (·.backend)⟩,
    ⟨Direction, (·.direction), (·.direction)⟩,
    ⟨Endpoint, (·.source), fun r => given (r.source ≠ {}) r.source⟩,
    ⟨Endpoint, (·.destination), fun r => given (r.destination ≠ {}) r.destination⟩,
    ⟨String, (·.schedule), fun r => given (r.schedule ≠ "") r.schedule⟩,
    ⟨RetentionPolicy, (·.retention), fun r => given (!r.retention.isZero) r.retention⟩,
    ⟨Bool, (·.enabled), (·.enabled)⟩,
    ⟨String, (·.secretRef), fun r => given (r.secretRef ≠ "") r.secretRef⟩]

/-- On a stored job a request changes a field exactly to the value it sets. -/
theorem requestToJob_get {req : JobRequest} {job : Job} (stored : job.id ≠ 0) :
    ∀ f ∈ configFields, f.get (requestToJob req job) = (f.sets req).getD (f.get job) := by
  -- Three fields are optional in the request already; the others are set when not empty.
  simp only [configFields, List.forall_mem_cons, requestToJob, given, stored, or_false, if_false,
    decide_eq_true_eq, Bool.not_eq_true', Bool.not_eq_true]
  refine ⟨?_, trivial, trivial, ?_, ?_, ?_, ?_, trivial, ?_, by simp⟩ <;> split <;> rfl

end NovaNas.Replication
