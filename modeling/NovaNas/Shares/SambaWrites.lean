import NovaNas.Shares.Samba

/-!
# Samba's configuration directory

The shares and the global settings are files of one directory. A change writes its file, lets
`testparm` check the whole and makes the daemon reload. What was there before comes back only if it
is `testparm` that fails: a write that fails halfway and a reload that fails leave the new file.
-/
namespace NovaNas.Shares.Samba

open Fallible (failIf)

/-! ### Global settings -/

structure GlobalsOpts where
  workgroup : Name := []
  serverString : Name := []
  aclProfile : Name := []
  securityMode : Name := []
  realm : Name := []
  enableNetBIOS : Bool := false
  customLines : List Name := []

inductive LineError where
  | noEquals
  | control
  | metacharacter (c : Char)
  deriving DecidableEq, Repr

inductive GlobalsError where
  | check (err : CheckError)
  | aclProfile (text : Name)
  | securityMode (text : Name)
  | customLine (i : Nat) (err : LineError)
  | read
  | write
  | testparm
  | reload
  deriving DecidableEq, Repr

def orDefault (value : Name) (otherwise : String) : Name :=
  if value = [] then otherwise.toList else value

def applyGlobalsDefaults (o : GlobalsOpts) : GlobalsOpts :=
  { o with
    workgroup := orDefault o.workgroup "WORKGROUP"
    serverString := orDefault o.serverString "NovaNAS"
    aclProfile := orDefault o.aclProfile "nfsv4"
    securityMode := orDefault o.securityMode "user" }

def domainChar (c : Char) : Bool := isAlnum c || c = '_' || c = '-' || c = '.'

def validateWorkgroup (w : Name) : Check := do
  failIf (w = []) (.required "workgroup")
  failIf (15 < Text.byteLength w) (.tooLong "workgroup" w)
  allOf domainChar "workgroup" w

def isControl (c : Char) : Bool := "\n\r\x00".toList.contains c

def validateServerString (s : Name) : Check := do
  failIf (256 < Text.byteLength s) (.tooLong "server string" s)
  allOf (fun c => !isControl c) "server string" s

def validateRealm (r : Name) : Check := do
  failIf (255 < Text.byteLength r) (.tooLong "realm" r)
  allOf domainChar "realm" r

def isMetacharacter (c : Char) : Bool := ";|&$`\\<>".toList.contains c

def validateCustomLine (line : Name) : Except LineError Unit :=
  if !line.contains '=' then .error .noEquals
  else
    match line.find? fun c => isControl c || isMetacharacter c with
    | none => .ok ()
    | some c => .error (if isControl c then .control else .metacharacter c)

def validateCustomLines : Nat → List Name → Except GlobalsError Unit
  | _, [] => .ok ()
  | i, line :: rest => do
    (validateCustomLine line).mapError (.customLine i)
    validateCustomLines (i + 1) rest

def nfsv4 : Name := "nfsv4".toList

def ads : Name := "ads".toList

def validateGlobals (o : GlobalsOpts) : Except GlobalsError Unit := do
  (validateWorkgroup o.workgroup).mapError .check
  (validateServerString o.serverString).mapError .check
  failIf (o.aclProfile ≠ nfsv4 ∧ o.aclProfile ≠ "posix".toList) (.aclProfile o.aclProfile)
  failIf (o.securityMode ≠ "user".toList ∧ o.securityMode ≠ ads) (.securityMode o.securityMode)
  (validateRealm o.realm).mapError .check
  failIf (o.securityMode = ads ∧ o.realm = []) (.check (.required "realm"))
  validateCustomLines 0 o.customLines

def fixed (settings : List (String × String)) : List (Name × Name) :=
  settings.map fun (key, value) => (key.toList, value.toList)

def nfsv4Settings : List (Name × Name) :=
  fixed [("vfs objects", "zfsacl"), ("nfs4: chown", "yes"), ("nfs4: acedup", "merge"),
    ("nfs4: mode", "special"), ("nt acl support", "yes"), ("inherit acls", "yes"),
    ("map acl inherit", "yes"), ("store dos attributes", "yes"), ("ea support", "yes"),
    ("oplocks", "no"), ("level2 oplocks", "no"), ("kernel oplocks", "no"),
    ("idmap config * : backend", "tdb"), ("idmap config * : range", "100000-200000")]

def posixSettings : List (Name × Name) :=
  fixed [("vfs objects", "acl_xattr"), ("acl_xattr:ignore system acls", "yes"),
    ("nt acl support", "yes"), ("store dos attributes", "yes")]

def globalSettings (o : GlobalsOpts) : List (Name × Name) :=
  [("workgroup".toList, o.workgroup), ("server string".toList, o.serverString)] ++
    fixed [("server min protocol", "SMB2"), ("server max protocol", "SMB3")] ++
    (if o.aclProfile = nfsv4 then fixed [("client min protocol", "SMB2")] else []) ++
    [("security".toList, o.securityMode)] ++
    (if o.securityMode = ads then [("realm".toList, o.realm)] else []) ++
    (if o.enableNetBIOS then [] else fixed [("disable netbios", "yes")]) ++
    (if o.aclProfile = nfsv4 then nfsv4Settings else posixSettings)

def renderGlobalsConf (o : GlobalsOpts) : Name :=
  Text.unlines ("[global]".toList :: ((globalSettings o).map settingLine ++
    o.customLines.map fun line => Text.blanks 3 ++ Text.trimSpace line))

/-! ### One file -/

/-- The steps of a change that touch the host. -/
def Stage.globalsError : Stage → GlobalsError
  | .write => .write
  | .testparm => .testparm
  | .reload => .reload

/-- With or without globals before. -/
def setGlobals (steps : Steps) (opts : GlobalsOpts) (file : Option Name) :
    Except GlobalsError Unit × Option Name :=
  let opts := applyGlobalsDefaults opts
  match validateGlobals opts with
  | .error err => (.error err, file)
  | .ok () =>
    if steps.readFails then (.error .read, file)
    else
      let (result, after) := steps.commit (renderGlobalsConf opts) file
      (result.mapError Stage.globalsError, after)

section File

variable {steps : Steps} {text : Name} {before : Option Name}

/-- A failed write leaves the file as it was, and so does a failed reload, since the file already
had the new text. -/
structure Steps.Spares (steps : Steps) (text : Name) (before : Option Name) : Prop where
  write : ∀ left, steps.write = .failed left → left = before
  reload : steps.write = .done → steps.testparmFails = false → steps.reloadFails = true →
    before = some text

theorem commit_restores_iff (undone : steps.undo = .done) :
    (∀ stage, (steps.commit text before).1 = .error stage →
      (steps.commit text before).2 = before) ↔ steps.Spares text before := by
  unfold Steps.commit
  constructor
  · intro restores
    refine ⟨fun left failed => ?_, fun written passed stale => ?_⟩
    · simpa [failed] using restores
    · simpa [written, passed, stale, eq_comm] using restores
  · rintro ⟨failedWrite, failedReload⟩ stage failed
    cases written : steps.write with
    | failed left => simpa using failedWrite left written
    | done =>
      cases passed : steps.testparmFails with
      | true => simp [undone]
      | false =>
        cases stale : steps.reloadFails with
        | true => simpa using (failedReload written passed stale).symm
        | false => simp [written, passed, stale] at failed

end File

/-! ### The directory -/

/-- The contents of the files, by name. -/
abbrev ConfigDir := Name → Option Name

structure Manager where
  filePrefix : Name := []

def Manager.filePath (m : Manager) (name : Name) : Name :=
  orDefault m.filePrefix "nova-nas-" ++ name ++ ".conf".toList

def globalsFileName : Name := "00-nova-globals.conf".toList

inductive Change where
  | createShare (s : Share)
  | updateShare (s : Share)
  | setGlobals (opts : GlobalsOpts)

inductive ChangeError where
  | share (err : ShareError)
  | globals (err : GlobalsError)

namespace Change

variable (m : Manager) (steps : Steps) (dir : ConfigDir)

def path : Change → Name
  | createShare s => m.filePath s.name
  | updateShare s => m.filePath s.name
  | setGlobals _ => globalsFileName

/-- What the change does to its file. -/
def apply (file : Option Name) : Change → Except ChangeError Unit × Option Name
  | createShare s =>
    let (result, after) := Samba.createShare steps s file
    (result.mapError .share, after)
  | updateShare s =>
    let (result, after) := Samba.updateShare steps s file
    (result.mapError .share, after)
  | setGlobals opts =>
    let (result, after) := Samba.setGlobals steps opts file
    (result.mapError .globals, after)

def run (c : Change) : Except ChangeError Unit × ConfigDir :=
  let (result, after) := c.apply steps (dir (c.path m))
  (result, Function.update dir (c.path m) after)

/-- The text that the change writes. -/
def text : Change → Name
  | createShare s => renderShareConf s
  | updateShare s => renderShareConf s
  | setGlobals opts => renderGlobalsConf (applyGlobalsDefaults opts)

def stageError : Change → Stage → ChangeError
  | createShare s, stage => .share (stage.shareError s.name)
  | updateShare s, stage => .share (stage.shareError s.name)
  | setGlobals _, stage => .globals stage.globalsError

/-- The change gets as far as writing. -/
def Reaches (file : Option Name) : Change → Prop
  | createShare s => validateShare s = .ok () ∧ steps.readFails = false ∧ file = none
  | updateShare s => validateShare s = .ok () ∧ steps.readFails = false ∧ file ≠ none
  | setGlobals opts =>
    validateGlobals (applyGlobalsDefaults opts) = .ok () ∧ steps.readFails = false

variable {m steps dir}

theorem apply_refused {c : Change} {file : Option Name} (refused : ¬c.Reaches steps file) :
    (c.apply steps file).2 = file := by
  cases c with
  | createShare s =>
    cases valid : validateShare s with
    | error err => simp [apply, Samba.createShare, onFile, valid]
    | ok =>
      cases readable : steps.readFails <;> cases file <;>
        simp_all [apply, Samba.createShare, onFile, Reaches]
  | updateShare s =>
    cases valid : validateShare s with
    | error err => simp [apply, Samba.updateShare, onFile, valid]
    | ok =>
      cases readable : steps.readFails <;> cases file <;>
        simp_all [apply, Samba.updateShare, onFile, Reaches]
  | setGlobals opts =>
    cases valid : validateGlobals (applyGlobalsDefaults opts) with
    | error err => simp [apply, Samba.setGlobals, valid]
    | ok => cases readable : steps.readFails <;> simp_all [apply, Samba.setGlobals, Reaches]

theorem apply_reached {c : Change} {file : Option Name} (reached : c.Reaches steps file) :
    c.apply steps file =
      ((steps.commit c.text file).1.mapError c.stageError, (steps.commit c.text file).2) := by
  cases c with
  | createShare s =>
    obtain ⟨valid, readable, rfl⟩ := reached
    simp [apply, Samba.createShare, onFile, valid, readable, Steps.store,
      Fallible.mapError_mapError, text]
    rfl
  | updateShare s =>
    obtain ⟨valid, readable, present⟩ := reached
    obtain ⟨prev, rfl⟩ := Option.ne_none_iff_exists'.mp present
    simp [apply, Samba.updateShare, onFile, valid, readable, Steps.store,
      Fallible.mapError_mapError, text]
    rfl
  | setGlobals opts =>
    obtain ⟨valid, readable⟩ := reached
    simp [apply, Samba.setGlobals, valid, readable, Fallible.mapError_mapError, text]
    rfl

/-- A failed change leaves the directory as it was exactly if, once it gets as far as writing, a
failed write leaves its file as it was and the reload does not fail, unless the file had the new
text already. -/
theorem failed_change_restores_iff (m : Manager) (dir : ConfigDir) (c : Change)
    (undone : steps.undo = .done) :
    (∀ err, (c.run m steps dir).1 = .error err → (c.run m steps dir).2 = dir) ↔
      (c.Reaches steps (dir (c.path m)) → steps.Spares c.text (dir (c.path m))) := by
  by_cases reached : c.Reaches steps (dir (c.path m))
  · simp only [run, apply_reached reached, Function.update_eq_self_iff, Fallible.forall_mapError, reached,
      true_imp_iff, commit_restores_iff undone]
  · have same : (c.run m steps dir).2 = dir := by
      simp [run, apply_refused reached]
    simp [same, reached]

end Change

def docs : Share := { name := "docs".toList, path := "/tank/docs".toList }

/-- When `testparm` refuses new global settings, the old ones are back. -/
theorem refused_globals_restored :
    (Change.run {} { testparmFails := true } (fun _ => none) (.setGlobals {})).2 = fun _ => none := by
  refine (Change.failed_change_restores_iff {} (fun _ => none) (.setGlobals {}) rfl).mpr
    (fun _ => ⟨?_, ?_⟩) (.globals .testparm) ?_
  · intro left failed
    cases failed
  · intro _ passed
    cases passed
  · rfl

/-- When the reload fails, the share is reported as not created, and is there. -/
theorem failed_reload_leaves_share :
    (Change.run {} { reloadFails := true } (fun _ => none) (.createShare docs)).1 =
      .error (.share .reload) ∧
    (Change.run {} { reloadFails := true } (fun _ => none) (.createShare docs)).2
      "nova-nas-docs.conf".toList = some (renderShareConf docs) := by
  exact ⟨rfl, rfl⟩

end NovaNas.Shares.Samba
