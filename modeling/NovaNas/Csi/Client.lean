import NovaNas.Base.Runs
import NovaNas.Zfs.Names

/-!
# The API client of the CSI driver

The requests the driver makes of the API server, the checks of the client library in front of
them and the adapter that projects the answers. Changes are jobs: the server accepts a request
and answers with a job, and the client polls the job until it has ended.
-/
namespace NovaNas.Csi

open Program
open Zfs (Name)

inductive DatasetType where
  | filesystem
  | volume
  | other (name : Name)
  deriving DecidableEq, Repr

/-- A dataset as the API shows it. -/
structure DatasetDetail where
  type : DatasetType
  mountpoint : Name
  deriving DecidableEq, Repr

/-- A dataset as the driver sees it. -/
structure Dataset where
  type : DatasetType
  mountpoint : Name
  volsize : Int
  quota : Int
  deriving DecidableEq, Repr

inductive SizeProperty where
  | volsize
  | quota
  | refquota
  deriving DecidableEq, Repr

/-- A property of a dataset with its value. -/
inductive Setting where
  | compression (value : Name)
  | recordsize (value : Name)
  | volblocksize (value : Name)
  | size (property : SizeProperty) (bytes : Int)
  deriving DecidableEq, Repr

structure CreateDatasetSpec where
  parent : Name
  name : Name
  type : DatasetType
  volumeSizeBytes : Int
  properties : List Setting
  deriving DecidableEq, Repr

structure ProtocolShareSpec where
  name : Name
  pool : Name
  datasetName : Name
  /-- Not sent unless it is positive. -/
  quotaBytes : Int
  /-- The rules carry no options. -/
  nfsClients : List Name
  deriving DecidableEq, Repr

inductive JobState where
  | queued
  | running
  | succeeded
  | failed
  | cancelled
  | interrupted
  deriving DecidableEq, Repr

def JobState.isTerminal : JobState → Bool
  | .succeeded | .failed | .cancelled | .interrupted => true
  | .queued | .running => false

inductive ApiError where
  /-- The server's answer has this status. -/
  | status (code : Nat)
  /-- The client refuses to send the request. -/
  | refused
  /-- No answer. -/
  | transport
  /-- The context of the call is done. -/
  | deadline
  | jobFailed (state : JobState)
  deriving DecidableEq, Repr

def isNotFound (err : ApiError) : Bool := err = .status 404

/-- The requests that the server turns into jobs. -/
inductive Request where
  | createDataset (spec : CreateDatasetSpec)
  | destroyDataset (full : Name) (recursive : Bool)
  /-- The settings are a map and stand in the order of their names. -/
  | setDatasetProps (full : Name) (settings : List Setting)
  | createSnapshot (dataset short : Name) (recursive : Bool)
  | destroySnapshot (full : Name)
  | createProtocolShare (spec : ProtocolShareSpec)
  | deleteProtocolShare (name pool dataset : Name)
  deriving DecidableEq, Repr

inductive Call where
  | getDataset (full : Name)
  | getProtocolShare (name pool dataset : Name)
  | submit (request : Request)
  | getJob (id : Nat)
  deriving DecidableEq, Repr

abbrev Reply : Call → Type
  | .getDataset _ => DatasetDetail
  -- The driver only looks at whether there is a share.
  | .getProtocolShare _ _ _ => Unit
  | .submit _ => Nat
  | .getJob _ => JobState

abbrev Answer (q : Call) : Type := Except ApiError (Reply q)

abbrev Api := Attempt Call Answer

/-- One request, whose error ends the call. -/
def send (q : Call) : Api ApiError (Reply q) := do
  match ← request q with
  | .ok reply => return reply
  | .error err => throw err

/-- The adapter leaves out the sizes, which the driver reads as zero. -/
def getDataset (full : Name) : Api ApiError Dataset :=
  if full = [] then throw .refused
  else do
    let detail ← send (.getDataset full)
    return { type := detail.type, mountpoint := detail.mountpoint, volsize := 0, quota := 0 }

def createDataset (spec : CreateDatasetSpec) : Api ApiError Nat :=
  if spec.parent = [] ∨ spec.name = [] ∨ spec.type = .other [] then throw .refused
  else if spec.type = .volume ∧ spec.volumeSizeBytes ≤ 0 then throw .refused
  else send (.submit (.createDataset spec))

def destroyDataset (full : Name) (recursive : Bool) : Api ApiError Nat :=
  if full = [] then throw .refused else send (.submit (.destroyDataset full recursive))

def setDatasetProps (full : Name) (settings : List Setting) : Api ApiError Nat :=
  if full = [] then throw .refused
  else if settings = [] then throw .refused
  else send (.submit (.setDatasetProps full settings))

def createSnapshot (dataset short : Name) (recursive : Bool) : Api ApiError Nat :=
  if dataset = [] ∨ short = [] then throw .refused
  else send (.submit (.createSnapshot dataset short recursive))

def destroySnapshot (full : Name) : Api ApiError Nat :=
  if full = [] then throw .refused else send (.submit (.destroySnapshot full))

def createProtocolShare (spec : ProtocolShareSpec) : Api ApiError Nat :=
  if spec.name = [] then throw .refused
  else if spec.pool = [] ∨ spec.datasetName = [] then throw .refused
  else send (.submit (.createProtocolShare spec))

def getProtocolShare (name pool dataset : Name) : Api ApiError Unit :=
  if name = [] then throw .refused
  else if pool = [] ∨ dataset = [] then throw .refused
  else send (.getProtocolShare name pool dataset)

def deleteProtocolShare (name pool dataset : Name) : Api ApiError Nat :=
  if name = [] then throw .refused
  else if decide (pool = []) ≠ decide (dataset = []) then throw .refused
  else send (.submit (.deleteProtocolShare name pool dataset))

/-- Polls until the job has ended; the context of the call leaves time for so many polls. -/
def waitJob : (polls : Nat) → (id : Nat) → Api ApiError Unit
  | 0, _ => throw .deadline
  | polls + 1, id => do
    let state ← send (.getJob id)
    if state.isTerminal then
      if state ≠ .succeeded then throw (.jobFailed state) else return
    else waitJob polls id

end NovaNas.Csi
