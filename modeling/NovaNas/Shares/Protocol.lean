import NovaNas.Base.Sorting
import NovaNas.Shares.Exports
import NovaNas.Shares.Samba
import NovaNas.Zfs.Acl

/-!
# Shares over several protocols

A share is a dataset with an NFS export, a Samba share or both. Creating one takes the steps back
that came before a failed one, but a step that fails after its file was written leaves the file.
Updating one creates or updates what the share asks for, and leaves what it no longer asks for.
-/
namespace NovaNas.Shares

open Fallible (failIf)

inductive Protocol where
  | nfs
  | smb
  | other (text : Name)
  deriving DecidableEq, Repr

structure SMBOpts where
  comment : Name := []
  browseable : Bool := false
  guestOK : Bool := false
  validUsers : List Name := []
  writeList : List Name := []

structure ProtocolShare where
  name : Name
  pool : Name
  datasetName : Name
  protocols : List Protocol
  acls : List Zfs.Acl.ACE := []
  quotaBytes : UInt64 := 0
  /-- The clients of the export. -/
  nfs : Option (List Nfs.ClientRule) := none
  smb : Option SMBOpts := none

structure Manager where
  pathPrefix : Name := []
  requireKerberos : Bool := false

inductive ProtocolError where
  | name (err : CheckError)
  | noPool
  | noDatasetName
  | noProtocol
  | protocol (text : Name)
  | getDataset
  | createDataset
  | setProps
  | setACL
  | nfs (err : Nfs.ExportError)
  | smb (err : Samba.ShareError)
  deriving DecidableEq, Repr

def unsupported : Protocol → Option Name
  | .other text => some text
  | _ => none

def validateProtocols (ps : List Protocol) : Except ProtocolError Unit :=
  if ps = [] then .error .noProtocol
  else
    match ps.findSome? unsupported with
    | some text => .error (.protocol text)
    | none => .ok ()

def validateShare (s : ProtocolShare) : Except ProtocolError Unit := do
  (validateName "share name" s.name).mapError .name
  failIf (s.pool = []) .noPool
  failIf (s.datasetName = []) .noDatasetName
  validateProtocols s.protocols

/-! ### What a share is made of -/

structure Dataset where
  props : Name → Option Name
  acl : List Zfs.Acl.ACE

/-- The dataset, the export and the Samba share that belong to the name. -/
structure State where
  dataset : Option Dataset := none
  exportFile : Option Name := none
  shareFile : Option Name := none

def managedZFSProps : List (Name × Name) :=
  [("acltype", "nfsv4"), ("aclmode", "passthrough"), ("aclinherit", "passthrough"),
    ("xattr", "sa"), ("casesensitivity", "mixed"), ("utf8only", "on"),
    ("normalization", "formD")].map fun (key, value) => (key.toList, value.toList)

def quotaKey : Name := "quota".toList

namespace ProtocolShare

variable (s : ProtocolShare)

def quota : Option Name :=
  if s.quotaBytes = 0 then none else some (Nat.toDigits 10 s.quotaBytes.toNat)

def props : List (Name × Name) :=
  managedZFSProps ++ s.quota.toList.map fun value => (quotaKey, value)

def wantsNFS : Bool := s.protocols.contains .nfs && s.nfs.isSome

def wantsSMB : Bool := s.protocols.contains .smb && s.smb.isSome

end ProtocolShare

def Dataset.setProps (d : Dataset) (props : List (Name × Name)) : Dataset :=
  { d with props := fun key => ((props.find? (·.1 = key)).map (·.2)).or (d.props key) }

/-- `buildCreateSpec`, as the dataset that it makes. -/
def newDataset (s : ProtocolShare) : Dataset := Dataset.setProps ⟨fun _ => none, []⟩ s.props

def Manager.path (m : Manager) (s : ProtocolShare) : Name :=
  m.pathPrefix ++ '/' :: (s.pool ++ '/' :: s.datasetName)

def Manager.nfsExportFor (m : Manager) (s : ProtocolShare) : Nfs.Export :=
  ⟨s.name, m.path s, s.nfs.getD []⟩

def Manager.sambaShareFor (m : Manager) (s : ProtocolShare) : Samba.Share :=
  let out : Samba.Share := { name := s.name, path := m.path s, browseable := true, writable := true }
  match s.smb with
  | none => out
  | some opts =>
    { out with
      comment := opts.comment
      browseable := opts.browseable
      guestOK := opts.guestOK
      validUsers := opts.validUsers
      writeList := opts.writeList }

/-! ### Create -/

/-- What `zfs create` does; a failed one may leave the dataset. -/
inductive Creation where
  | done
  | failed (left : Bool)

/-- What the host does at each step, and at those that undo others. -/
structure Steps where
  getFails : Bool := false
  create : Creation := .done
  /-- How many properties are set before one fails. -/
  setPropsFails : Option Nat := none
  setACLFails : Bool := false
  nfs : Nfs.Steps := {}
  nfsUpdate : Nfs.Steps := {}
  smb : Samba.Steps := {}
  smbUpdate : Samba.Steps := {}
  destroyFails : Bool := false
  nfsUndo : Nfs.Steps := {}

abbrev Result := Except ProtocolError Unit × State

def Steps.createDataset (steps : Steps) (s : ProtocolShare) (st : State) : Result :=
  match st.dataset, steps.create with
  | some _, _ => (.error .createDataset, st)
  | none, .failed left =>
    (.error .createDataset, if left then { st with dataset := some (newDataset s) } else st)
  | none, .done => (.ok (), { st with dataset := some (newDataset s) })

def Steps.setACL (steps : Steps) (s : ProtocolShare) (st : State) : Result :=
  if s.acls = [] then (.ok (), st)
  else if steps.setACLFails then (.error .setACL, st)
  else (.ok (), { st with dataset := st.dataset.map fun d => { d with acl := s.acls } })

def Steps.destroy (steps : Steps) (st : State) : State :=
  if steps.destroyFails then st else { st with dataset := none }

section Managers

variable (m : Manager) (steps : Steps) (s : ProtocolShare)

def createExportStep (file : Option Name) : Nfs.Result :=
  if s.wantsNFS then Nfs.createExport m.requireKerberos steps.nfs (m.nfsExportFor s) file
  else (.ok (), file)

def createShareStep (file : Option Name) : Samba.Result :=
  if s.wantsSMB then Samba.createShare steps.smb (m.sambaShareFor s) file else (.ok (), file)

/-- The export and the Samba share, once there is a dataset. -/
def createServices (st : State) : Result :=
  match createExportStep m steps s st.exportFile with
  | (.error err, file) => (.error (.nfs err), steps.destroy { st with exportFile := file })
  | (.ok (), exportFile) =>
    match createShareStep m steps s st.shareFile with
    | (.ok (), shareFile) => (.ok (), { st with exportFile, shareFile })
    | (.error err, shareFile) =>
      let undone :=
        if s.wantsNFS then (Nfs.deleteExport steps.nfsUndo s.name exportFile).2 else exportFile
      (.error (.smb err), steps.destroy { st with exportFile := undone, shareFile })

def create (st : State) : Result :=
  match validateShare s with
  | .error err => (.error err, st)
  | .ok () =>
    match steps.createDataset s st with
    | (.error err, st) => (.error err, st)
    | (.ok (), st) =>
      match steps.setACL s st with
      | (.error err, st) => (.error err, steps.destroy st)
      | (.ok (), st) => createServices m steps s st

/-! ### Update -/

def updateDataset (st : State) : Result :=
  if steps.getFails then (.error .getDataset, st)
  else
    match st.dataset with
    | none => steps.createDataset s st
    | some d =>
      let set props := { st with dataset := some (d.setProps props) }
      match steps.setPropsFails with
      | some n => (.error .setProps, set ((Sorting.sortBy Prod.fst s.props).take n))
      | none => (.ok (), set s.props)

/-- Updated if it is there, and created if not. -/
def updateExportStep (file : Option Name) : Nfs.Result :=
  if s.wantsNFS then
    match Nfs.updateExport m.requireKerberos steps.nfsUpdate (m.nfsExportFor s) file with
    | (.error .notFound, _) => Nfs.createExport m.requireKerberos steps.nfs (m.nfsExportFor s) file
    | result => result
  else (.ok (), file)

def updateShareStep (file : Option Name) : Samba.Result :=
  if s.wantsSMB then
    match Samba.updateShare steps.smbUpdate (m.sambaShareFor s) file with
    | (.error .notFound, _) => Samba.createShare steps.smb (m.sambaShareFor s) file
    | result => result
  else (.ok (), file)

def update (st : State) : Result :=
  match validateShare s with
  | .error err => (.error err, st)
  | .ok () =>
    match updateDataset steps s st with
    | (.error err, st) => (.error err, st)
    | (.ok (), st) =>
      match steps.setACL s st with
      | (.error err, st) => (.error err, st)
      | (.ok (), st) =>
        match updateExportStep m steps s st.exportFile with
        | (.error err, file) => (.error (.nfs err), { st with exportFile := file })
        | (.ok (), exportFile) =>
          match updateShareStep m steps s st.shareFile with
          | (.error err, file) => (.error (.smb err), { st with exportFile, shareFile := file })
          | (.ok (), shareFile) => (.ok (), { st with exportFile, shareFile })

end Managers

/-! ### Steps that leave a file -/

/-- Every step of writing the export succeeds. -/
def Nfs.Steps.Fine (steps : Nfs.Steps) : Prop :=
  steps.readFails = false ∧ steps.write = .done ∧ steps.exportfsFails = false

/-- A step fails with the file of the export in place. -/
def Nfs.Steps.Leaves (steps : Nfs.Steps) : Prop :=
  steps.readFails = false ∧ ((∃ text, steps.write = .failed (some text)) ∨
    steps.write = .done ∧ steps.exportfsFails = true)

/-- Every step of writing the Samba share succeeds. -/
def Samba.Steps.Fine (steps : Samba.Steps) : Prop :=
  steps.readFails = false ∧ steps.write = .done ∧ steps.testparmFails = false ∧
    steps.reloadFails = false

/-- A step fails with the file of the Samba share in place. -/
def Samba.Steps.Leaves (steps : Samba.Steps) : Prop :=
  steps.readFails = false ∧ ((∃ text, steps.write = .failed (some text)) ∨
    steps.write = .done ∧ steps.testparmFails = false ∧ steps.reloadFails = true)

section Fresh

variable (m : Manager) (steps : Steps) (s : ProtocolShare)

def Manager.export : Nfs.Export :=
  Nfs.applyKerberosDefault m.requireKerberos (m.nfsExportFor s)

def ExportFine : Prop :=
  s.wantsNFS = true → Nfs.validateExport (m.export s) = .ok () ∧ steps.nfs.Fine

def ExportLeft : Prop :=
  s.wantsNFS = true ∧ Nfs.validateExport (m.export s) = .ok () ∧ steps.nfs.Leaves

def ShareFine : Prop :=
  s.wantsSMB = true → Samba.validateShare (m.sambaShareFor s) = .ok () ∧ steps.smb.Fine

def ShareLeft : Prop :=
  s.wantsSMB = true ∧ Samba.validateShare (m.sambaShareFor s) = .ok () ∧ steps.smb.Leaves

/-- The file of the export that the share asks for. -/
def Manager.exportFile : Option Name :=
  if s.wantsNFS then some (Nfs.renderExportFile (m.export s)) else none

def Manager.shareFile : Option Name :=
  if s.wantsSMB then some (Samba.renderShareConf (m.sambaShareFor s)) else none

theorem createExportStep_fresh :
    ExportFine m steps s ∧ ¬ExportLeft m steps s ∧
        createExportStep m steps s none = (.ok (), m.exportFile s) ∨
      ExportLeft m steps s ∧
        (∃ err text, createExportStep m steps s none = (.error err, some text)) ∨
      ¬ExportFine m steps s ∧ ¬ExportLeft m steps s ∧
        ∃ err, createExportStep m steps s none = (.error err, none) := by
  unfold ExportFine ExportLeft createExportStep Manager.exportFile Manager.export
  cases wants : s.wantsNFS with
  | false => simp
  | true =>
    cases valid : Nfs.validateExport (Nfs.applyKerberosDefault m.requireKerberos
        (m.nfsExportFor s)) with
    | error err => simp [Nfs.createExport, onFile, valid]
    | ok =>
      rcases steps.nfs with ⟨_ | _, _ | (_ | text), removeFails, _ | _⟩ <;>
        simp [Nfs.createExport, onFile, valid, Nfs.Steps.Fine, Nfs.Steps.Leaves,
          Nfs.Steps.store, Nfs.Steps.reload]

theorem createShareStep_fresh (undone : steps.smb.undo = .done) :
    ShareFine m steps s ∧ ¬ShareLeft m steps s ∧
        createShareStep m steps s none = (.ok (), m.shareFile s) ∨
      ShareLeft m steps s ∧
        (∃ err text, createShareStep m steps s none = (.error err, some text)) ∨
      ¬ShareFine m steps s ∧ ¬ShareLeft m steps s ∧
        ∃ err, createShareStep m steps s none = (.error err, none) := by
  unfold ShareFine ShareLeft createShareStep Manager.shareFile
  cases wants : s.wantsSMB with
  | false => simp
  | true =>
    cases valid : Samba.validateShare (m.sambaShareFor s) with
    | error err => simp [Samba.createShare, onFile, valid]
    | ok =>
      rcases fields : steps.smb with ⟨_ | _, _ | (_ | text), _ | _, undo, _ | _⟩ <;>
        rw [fields] at undone <;> cases undone <;>
        simp [Samba.createShare, onFile, valid, Samba.Steps.Fine, Samba.Steps.Leaves,
          Samba.Steps.store, Samba.Steps.commit, Except.mapError]

/-- The steps that undo others succeed. -/
structure Undoes : Prop where
  destroys : steps.destroyFails = false
  removes : steps.nfsUndo.removeFails = false
  restores : steps.smb.undo = .done

/-- The steps before the services succeed. -/
def Reached : Prop :=
  steps.create = .done ∧ (s.acls ≠ [] → steps.setACLFails = false)

variable {m steps s}

theorem deleteExport_gone (valid : validateShare s = .ok ()) (undoes : Undoes steps)
    (file : Option Name) : (Nfs.deleteExport steps.nfsUndo s.name file).2 = none := by
  obtain ⟨⟨⟩, named, -⟩ := Fallible.bind_ok valid
  have named : validateName "export name" s.name = .ok () :=
    validateName_congr (Fallible.mapError_ok named)
  cases file <;> simp [Nfs.deleteExport, onFile, named, undoes.removes]

theorem createServices_traceless_iff (valid : validateShare s = .ok ()) (undoes : Undoes steps)
    (d : Dataset) :
    (∀ err, (createServices m steps s ⟨some d, none, none⟩).1 = .error err →
      (createServices m steps s ⟨some d, none, none⟩).2 = {}) ↔
    ¬ExportLeft m steps s ∧ (ExportFine m steps s → ¬ShareLeft m steps s) := by
  have gone := deleteExport_gone valid undoes
  rcases createExportStep_fresh m steps s with ⟨fine, unleft, made⟩ | ⟨left, err, text, made⟩ |
    ⟨unfine, unleft, err, made⟩
  · rcases createShareStep_fresh m steps s undoes.restores with ⟨-, unleft', made'⟩ |
      ⟨left', err', text', made'⟩ | ⟨-, unleft', err', made'⟩
    · simp [createServices, made, made', unleft, unleft']
    · simp [createServices, made, made', fine, left', Steps.destroy, undoes.destroys]
    · have undone : (if s.wantsNFS = true then
          (Nfs.deleteExport steps.nfsUndo s.name (m.exportFile s)).2 else m.exportFile s) = none := by
        split
        · exact gone _
        next unwanted => simp [Manager.exportFile, unwanted]
      simp [createServices, made, made', unleft, unleft', Steps.destroy, undoes.destroys, undone]
  · simp [createServices, made, left, Steps.destroy, undoes.destroys]
  · simp [createServices, made, unleft, unfine, Steps.destroy, undoes.destroys]

/-- A share that could not be created from nothing leaves nothing exactly if a failed `zfs create`
leaves no dataset, no export is left once its steps are reached, and no Samba share once the export
is there. -/
theorem failed_create_traceless_iff (valid : validateShare s = .ok ()) (undoes : Undoes steps) :
    (∀ err, (create m steps s {}).1 = .error err → (create m steps s {}).2 = {}) ↔
      steps.create ≠ .failed true ∧ (Reached steps s →
        ¬ExportLeft m steps s ∧ (ExportFine m steps s → ¬ShareLeft m steps s)) := by
  unfold create
  rw [valid]
  cases creation : steps.create with
  | failed left => cases left <;> simp [Steps.createDataset, creation, Reached]
  | done =>
    by_cases refused : s.acls ≠ [] ∧ steps.setACLFails = true
    · have unreached : ¬Reached steps s := fun reached => by
        rw [reached.2 refused.1] at refused
        cases refused.2
      simp [Steps.createDataset, creation, Steps.setACL, refused, unreached, Steps.destroy,
        undoes.destroys]
    · have reached : Reached steps s := ⟨creation, fun some => by
        simpa [some] using refused⟩
      obtain ⟨d, served⟩ : ∃ d, steps.setACL s { dataset := some (newDataset s) } =
          (.ok (), ⟨some d, none, none⟩) := by
        unfold Steps.setACL
        split
        · exact ⟨_, rfl⟩
        next some =>
          rw [if_neg (by simp [reached.2 some])]
          exact ⟨_, rfl⟩
      simp only [Steps.createDataset, creation, served, reached, true_imp_iff,
        createServices_traceless_iff valid undoes]
      simp

def team (protocols : List Protocol) (quotaBytes : UInt64) : ProtocolShare where
  name := "team".toList
  pool := "tank".toList
  datasetName := "team".toList
  protocols := protocols
  quotaBytes := quotaBytes
  nfs := some [⟨"*".toList, "rw".toList⟩]
  smb := some {}

/-- A Samba share that `testparm` refuses takes the export and the dataset with it. -/
theorem failed_testparm_undone :
    (create {} { smb := { testparmFails := true } } (team [.nfs, .smb] 0) {}).2 = {} := by
  have leaves : ¬({ testparmFails := true } : Samba.Steps).Leaves := by
    rintro ⟨-, ⟨_, written⟩ | ⟨-, checked, -⟩⟩
    · cases written
    · cases checked
  have exports : ¬({} : Nfs.Steps).Leaves := by
    rintro ⟨-, ⟨_, written⟩ | ⟨-, reloaded⟩⟩
    · cases written
    · cases reloaded
  have valid : validateShare (team [.nfs, .smb] 0) = .ok () := by decide
  have undoes : Undoes { smb := { testparmFails := true } } := ⟨rfl, rfl, rfl⟩
  refine (failed_create_traceless_iff valid undoes).mpr ⟨?_, fun _ => ⟨?_, fun _ => ?_⟩⟩
    (.smb .testparm) ?_
  · intro failed
    cases failed
  · exact fun left => exports left.2.2
  · exact fun left => leaves left.2.2
  · decide

/-- When `exportfs` fails, the dataset is destroyed but the file of the export stays. -/
theorem failed_exportfs_leaves_file :
    validateShare (team [.nfs, .smb] 0) = .ok () ∧
    (create {} { nfs := { exportfsFails := true } } (team [.nfs, .smb] 0) {}).1 =
      .error (.nfs .exportfs) ∧
    (create {} { nfs := { exportfsFails := true } } (team [.nfs, .smb] 0) {}).2.dataset.isNone ∧
    (create {} { nfs := { exportfsFails := true } } (team [.nfs, .smb] 0) {}).2.exportFile =
      some (Nfs.renderExportFile (Manager.export {} (team [.nfs, .smb] 0))) := by
  decide

/-! ### Updates -/

theorem find_props (s : ProtocolShare) :
    (s.props.find? (·.1 = quotaKey)).map (·.2) = s.quota := by
  have managed : managedZFSProps.find? (·.1 = quotaKey) = none := by decide
  rw [ProtocolShare.props, List.find?_append, managed]
  cases s.quota <;> simp

/-- What the share is about: the two files and the quota of the dataset. -/
def State.view (st : State) : Option Name × Option Name × Option (Option Name) :=
  (st.exportFile, st.shareFile, st.dataset.map (·.props quotaKey))

theorem createDataset_ok {st after : State} (made : steps.createDataset s st = (.ok (), after)) :
    st.dataset = none ∧ after = { st with dataset := some (newDataset s) } := by
  unfold Steps.createDataset at made
  split at made
  · cases made
  · cases made
  next absent _ => exact ⟨absent, (Prod.mk.inj made).2.symm⟩

theorem setACL_ok {st after : State} (made : steps.setACL s st = (.ok (), after)) :
    after.view = st.view := by
  unfold Steps.setACL at made
  split at made
  · rw [(Prod.mk.inj made).2]
  · split at made
    · cases made
    · rw [← (Prod.mk.inj made).2]
      simp [State.view, Function.comp_def]

theorem updateDataset_ok {st after : State} (made : updateDataset steps s st = (.ok (), after)) :
    after.view = (st.exportFile, st.shareFile,
      some (s.quota.or (st.dataset.bind (·.props quotaKey)))) := by
  have quota (d : Dataset) :
      (d.setProps s.props).props quotaKey = s.quota.or (d.props quotaKey) := by
    rw [← find_props]
    rfl
  unfold updateDataset at made
  split at made
  · cases made
  split at made
  next absent =>
    obtain ⟨-, rfl⟩ := createDataset_ok made
    simp [State.view, newDataset, quota, absent]
  next d present =>
    split at made
    · cases made
    · rw [← (Prod.mk.inj made).2]
      simp [State.view, quota, present]

theorem updateExportStep_ok {file after : Option Name}
    (made : updateExportStep m steps s file = (.ok (), after)) :
    (s.wantsNFS = true → Nfs.validateExport (m.export s) = .ok ()) ∧
      after = (m.exportFile s).or file := by
  unfold updateExportStep at made
  split at made
  next wants =>
    have stored : Nfs.validateExport (m.export s) = .ok () ∧
        after = some (Nfs.renderExportFile (m.export s)) := by
      split at made
      · exact Nfs.createExport_ok made
      · exact Nfs.updateExport_ok made
    exact ⟨fun _ => stored.1, by simp [Manager.exportFile, wants, stored.2]⟩
  next unwanted =>
    rw [← (Prod.mk.inj made).2]
    simp [Manager.exportFile, unwanted]

theorem updateShareStep_ok {file after : Option Name}
    (made : updateShareStep m steps s file = (.ok (), after)) :
    (s.wantsSMB = true → Samba.validateShare (m.sambaShareFor s) = .ok ()) ∧
      after = (m.shareFile s).or file := by
  unfold updateShareStep at made
  split at made
  next wants =>
    have stored : Samba.validateShare (m.sambaShareFor s) = .ok () ∧
        after = some (Samba.renderShareConf (m.sambaShareFor s)) := by
      split at made
      · exact Samba.createShare_ok made
      · exact Samba.updateShare_ok made
    exact ⟨fun _ => stored.1, by simp [Manager.shareFile, wants, stored.2]⟩
  next unwanted =>
    rw [← (Prod.mk.inj made).2]
    simp [Manager.shareFile, unwanted]

/-- What the share asks for passes the checks. -/
structure Servable (m : Manager) (s : ProtocolShare) : Prop where
  share : validateShare s = .ok ()
  export_ : s.wantsNFS = true → Nfs.validateExport (m.export s) = .ok ()
  samba : s.wantsSMB = true → Samba.validateShare (m.sambaShareFor s) = .ok ()

theorem update_ok {st : State} (updated : (update m steps s st).1 = .ok ()) :
    Servable m s ∧ (update m steps s st).2.view = ((m.exportFile s).or st.exportFile,
      (m.shareFile s).or st.shareFile, some (s.quota.or (st.dataset.bind (·.props quotaKey)))) := by
  unfold update at updated ⊢
  cases valid : validateShare s with
  | error err => simp [valid] at updated
  | ok =>
    rcases touched : updateDataset steps s st with ⟨err | ⟨⟩, st₁⟩
    · simp [valid, touched] at updated
    rcases listed : steps.setACL s st₁ with ⟨err | ⟨⟩, st₂⟩
    · simp [valid, touched, listed] at updated
    rcases exported : updateExportStep m steps s st₂.exportFile with ⟨err | ⟨⟩, exportFile⟩
    · simp [valid, touched, listed, exported] at updated
    rcases shared : updateShareStep m steps s st₂.shareFile with ⟨err | ⟨⟩, shareFile⟩
    · simp [valid, touched, listed, exported, shared] at updated
    obtain ⟨validExport, rfl⟩ := updateExportStep_ok exported
    obtain ⟨validSamba, rfl⟩ := updateShareStep_ok shared
    have kept := (setACL_ok listed).trans (updateDataset_ok touched)
    simp only [State.view, Prod.mk.injEq] at kept
    obtain ⟨sameExport, sameShare, quota⟩ := kept
    refine ⟨⟨valid, validExport, validSamba⟩, ?_⟩
    simp only [listed, exported, shared]
    simp only [State.view, sameExport, sameShare, quota]

/-- What creating the share from nothing produces. -/
theorem create_view (servable : Servable m s) : (create m {} s {}).1 = .ok () ∧
    (create m {} s {}).2.view = (m.exportFile s, m.shareFile s, some s.quota) := by
  have exported : createExportStep m {} s none = (.ok (), m.exportFile s) := by
    rcases createExportStep_fresh m {} s with ⟨-, -, made⟩ | ⟨⟨-, -, -, left⟩, -⟩ | ⟨unfine, -⟩
    · exact made
    · simp at left
    · exact absurd (fun wants => ⟨servable.export_ wants, rfl, rfl, rfl⟩) unfine
  have shared : createShareStep m {} s none = (.ok (), m.shareFile s) := by
    rcases createShareStep_fresh m {} s rfl with ⟨-, -, made⟩ | ⟨⟨-, -, -, left⟩, -⟩ | ⟨unfine, -⟩
    · exact made
    · simp at left
    · exact absurd (fun wants => ⟨servable.samba wants, rfl, rfl, rfl, rfl⟩) unfine
  have quota : (newDataset s).props quotaKey = s.quota := by
    rw [← find_props]
    exact Option.or_none
  unfold create
  rw [servable.share]
  by_cases acls : s.acls = []
  · simp [Steps.createDataset, Steps.setACL, acls, createServices, exported, shared, State.view,
      quota]
  · simp [Steps.createDataset, Steps.setACL, acls, createServices, exported, shared, State.view,
      quota]

/-- A successful update gives what creating the share from nothing gives exactly if there is no
export or Samba share that the share does not ask for, and no quota that it does not set. -/
theorem update_converges_iff {st : State} (updated : (update m steps s st).1 = .ok ()) :
    ((create m {} s {}).1 = .ok () ∧
      (update m steps s st).2.view = (create m {} s {}).2.view) ↔
    (s.wantsNFS = false → st.exportFile = none) ∧ (s.wantsSMB = false → st.shareFile = none) ∧
      (s.quotaBytes = 0 → ∀ d ∈ st.dataset, d.props quotaKey = none) := by
  obtain ⟨servable, after⟩ := update_ok updated
  obtain ⟨created, fresh⟩ := create_view servable
  rw [after, fresh, and_iff_right created, Prod.mk.injEq, Prod.mk.injEq]
  have export_ : (m.exportFile s).or st.exportFile = m.exportFile s ↔
      (s.wantsNFS = false → st.exportFile = none) := by
    cases wants : s.wantsNFS <;> simp [Manager.exportFile, wants]
  have share : (m.shareFile s).or st.shareFile = m.shareFile s ↔
      (s.wantsSMB = false → st.shareFile = none) := by
    cases wants : s.wantsSMB <;> simp [Manager.shareFile, wants]
  have quota : some (s.quota.or (st.dataset.bind (·.props quotaKey))) = some s.quota ↔
      (s.quotaBytes = 0 → ∀ d ∈ st.dataset, d.props quotaKey = none) := by
    by_cases unset : s.quotaBytes = 0 <;> cases st.dataset <;>
      simp [ProtocolShare.quota, unset]
  rw [export_, share, quota]

/-- What is left of a share whose creation failed at `exportfs`. -/
def leftover : State := (create {} { nfs := { exportfsFails := true } } (team [.nfs] 0) {}).2

/-- An update that asks for the export, and for a Samba share and a quota of 1 MiB. -/
theorem widened_converges :
    (update {} {} (team [.nfs, .smb] 1048576) leftover).2.view =
      (create {} {} (team [.nfs, .smb] 1048576) {}).2.view := by
  have updated : (update {} {} (team [.nfs, .smb] 1048576) leftover).1 = .ok () := by decide
  refine ((update_converges_iff updated).mpr ⟨?_, ?_, ?_⟩).2
  · intro unwanted
    cases unwanted
  · intro unwanted
    cases unwanted
  · intro unset
    cases unset

/-- One that asks for a Samba share alone keeps the export. -/
theorem narrowed_keeps_export :
    (update {} {} (team [.smb] 0) leftover).1 = .ok () ∧
    (update {} {} (team [.smb] 0) leftover).2.view =
      (some (Nfs.renderExportFile (Manager.export {} (team [.nfs] 0))),
        some (Samba.renderShareConf (Manager.sambaShareFor {} (team [.smb] 0))), some none) ∧
    (create {} {} (team [.smb] 0) {}).2.view =
      (none, some (Samba.renderShareConf (Manager.sambaShareFor {} (team [.smb] 0))),
        some none) := by
  decide

end Fresh

end NovaNas.Shares
