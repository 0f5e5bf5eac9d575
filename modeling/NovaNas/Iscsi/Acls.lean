import NovaNas.Base.Fallible
import NovaNas.Base.Lines

/-!
# Initiators of an iSCSI target

`CreateACL` checks everything first, then creates the entry of the initiator and sets its CHAP user
and secret, each with a `targetcli` command of its own. It returns at the first command that fails,
and what was done before stays: an initiator that was meant to authenticate is then admitted without.
-/
namespace NovaNas.Iscsi

open Fallible (failIf failIf_ok bind_ok)

abbrev Name := List Char

inductive Invalid where
  | dash (field : String)
  | notIqn
  | iqnCharacter (c : Char)
  | initiator (err : Invalid)
  | required (field : String)
  | control (field : String)
  | forbidden (field : String) (c : Char)
  | secretLength (n : Nat)
  | notZvol
  | whitespace (field : String)
  | ip (text : Name)
  | port (n : Int64)
  | transport (text : Name)
  deriving DecidableEq, Repr

inductive Error where
  | invalid (err : Invalid)
  | run (text : String)
  deriving DecidableEq, Repr

structure ACL where
  initiatorIQN : Name
  chapUser : Name := []
  chapSecret : Name := []
  deriving DecidableEq, Repr

def ACL.HasCHAP (acl : ACL) : Prop := acl.chapUser ≠ [] ∨ acl.chapSecret ≠ []

instance (acl : ACL) : Decidable acl.HasCHAP := inferInstanceAs (Decidable (_ ∨ _))

/-! ### Checks -/

def validateNoDash (field : String) (v : Name) : Except Invalid Unit :=
  failIf (v.head? = some '-') (.dash field)

/-- A loop over the characters that returns the first error. -/
def validateEach (check : Char → Option Invalid) (v : Name) : Except Invalid Unit :=
  match v.findSome? check with
  | some err => .error err
  | none => .ok ()

def iqnChar (c : Char) : Bool := Text.alphanumeric c || c == '.' || c == '-' || c == ':'

def validateIQN (iqn : Name) : Except Invalid Unit := do
  failIf ("iqn.".toList.isPrefixOf iqn = false) .notIqn
  validateNoDash "IQN" iqn
  validateEach (fun c => if iqnChar c then none else some (.iqnCharacter c)) iqn

def controlChar (c : Char) : Bool := c.toNat < 0x20 || c.toNat = 0x7f

def shellCharacters : Name := ";|&$`\\\"'<>*?()\x7b\x7d[]".toList

def chapCharacters : Name := ' ' :: '\t' :: '=' :: shellCharacters

def validateCHAPField (field : String) (v : Name) : Except Invalid Unit := do
  failIf (v = []) (.required field)
  validateEach (fun c =>
    if controlChar c then some (.control field)
    else if chapCharacters.contains c then some (.forbidden field c)
    else none) v

/-! ### Commands -/

inductive Command where
  | createACL (iqn initiator : Name)
  | setUser (iqn initiator user : Name)
  | setPassword (iqn initiator secret : Name)
  deriving DecidableEq, Repr

def buildCreateACLArgs (iqn : Name) (acl : ACL) : Except Invalid Command := do
  validateIQN iqn
  (validateIQN acl.initiatorIQN).mapError .initiator
  return .createACL iqn acl.initiatorIQN

def buildSetCHAPUserArgs (iqn : Name) (acl : ACL) : Except Invalid Command := do
  validateIQN iqn
  (validateIQN acl.initiatorIQN).mapError .initiator
  validateCHAPField "CHAP user" acl.chapUser
  return .setUser iqn acl.initiatorIQN acl.chapUser

def buildSetCHAPPasswordArgs (iqn : Name) (acl : ACL) : Except Invalid Command := do
  validateIQN iqn
  (validateIQN acl.initiatorIQN).mapError .initiator
  validateCHAPField "CHAP secret" acl.chapSecret
  let n := Text.byteLength acl.chapSecret
  failIf (n < 12 ∨ n > 16) (.secretLength n)
  return .setPassword iqn acl.initiatorIQN acl.chapSecret

/-- Both halves are checked before the first command runs. -/
def aclCommands (iqn : Name) (acl : ACL) : Except Invalid (List Command) := do
  let create ← buildCreateACLArgs iqn acl
  if acl.HasCHAP then do
    let user ← buildSetCHAPUserArgs iqn acl
    let password ← buildSetCHAPPasswordArgs iqn acl
    return [create, user, password]
  else return [create]

/-! ### The target -/

structure Auth where
  user : Option Name := none
  secret : Option Name := none
  deriving DecidableEq, Repr

def Auth.Complete (auth : Auth) : Prop := auth.user.isSome ∧ auth.secret.isSome

/-- The entry of an initiator on a target. -/
abbrev Acls := Name × Name → Option Auth

/-- What a command that succeeds does. -/
def Command.apply (acls : Acls) : Command → Acls
  | .createACL iqn initiator =>
    Function.update acls (iqn, initiator) (some ((acls (iqn, initiator)).getD {}))
  | .setUser iqn initiator user => Function.update acls (iqn, initiator)
      ((acls (iqn, initiator)).map fun auth => { auth with user := some user })
  | .setPassword iqn initiator secret => Function.update acls (iqn, initiator)
      ((acls (iqn, initiator)).map fun auth => { auth with secret := some secret })

/-- The error of each command that fails; such a command changes nothing. -/
abbrev Runner := Command → Option String

def runAll (r : Runner) : List Command → Acls → Except Error Unit × Acls
  | [], acls => (.ok (), acls)
  | cmd :: cmds, acls =>
    match r cmd with
    | some text => (.error (.run text), acls)
    | none => runAll r cmds (cmd.apply acls)

def createACL (r : Runner) (iqn : Name) (acl : ACL) (acls : Acls) : Except Error Unit × Acls :=
  match aclCommands iqn acl with
  | .error err => (.error (.invalid err), acls)
  | .ok cmds => runAll r cmds acls

/-! ### What a failure leaves -/

theorem aclCommands_eq {iqn : Name} {acl : ACL} {cmds : List Command} (chap : acl.HasCHAP)
    (accepted : aclCommands iqn acl = .ok cmds) :
    cmds = [.createACL iqn acl.initiatorIQN, .setUser iqn acl.initiatorIQN acl.chapUser,
      .setPassword iqn acl.initiatorIQN acl.chapSecret] := by
  obtain ⟨create, created, accepted⟩ := bind_ok accepted
  rw [if_pos chap] at accepted
  obtain ⟨user, userSet, accepted⟩ := bind_ok accepted
  obtain ⟨password, passwordSet, accepted⟩ := bind_ok accepted
  cases accepted
  obtain ⟨-, -, created⟩ := bind_ok created
  obtain ⟨-, -, created⟩ := bind_ok created
  obtain ⟨-, -, userSet⟩ := bind_ok userSet
  obtain ⟨-, -, userSet⟩ := bind_ok userSet
  obtain ⟨-, -, userSet⟩ := bind_ok userSet
  obtain ⟨-, -, passwordSet⟩ := bind_ok passwordSet
  obtain ⟨-, -, passwordSet⟩ := bind_ok passwordSet
  obtain ⟨-, -, passwordSet⟩ := bind_ok passwordSet
  obtain ⟨-, -, passwordSet⟩ := bind_ok passwordSet
  cases created
  cases userSet
  cases passwordSet
  rfl

/-- Every entry that a failed call leaves for the initiator was there before or is complete. -/
def FailsSafe (r : Runner) (iqn : Name) (acl : ACL) (acls : Acls) : Prop :=
  ∀ err, (createACL r iqn acl acls).1 = .error err →
    ∀ auth, (createACL r iqn acl acls).2 (iqn, acl.initiatorIQN) = some auth →
      (acls (iqn, acl.initiatorIQN)).isSome ∨ auth.Complete

/-- A failed call leaves no initiator without its credentials exactly if the entry was there before,
or the commands that set the credentials do not fail after the one that creates it. -/
theorem failed_acl_safe_iff (r : Runner) {iqn : Name} {acl : ACL} (acls : Acls) {cmds : List Command}
    (chap : acl.HasCHAP) (accepted : aclCommands iqn acl = .ok cmds) :
    FailsSafe r iqn acl acls ↔ (acls (iqn, acl.initiatorIQN)).isSome ∨
      (r (.createACL iqn acl.initiatorIQN) = none →
        r (.setUser iqn acl.initiatorIQN acl.chapUser) = none ∧
          r (.setPassword iqn acl.initiatorIQN acl.chapSecret) = none) := by
  have run : createACL r iqn acl acls = runAll r cmds acls := by rw [createACL, accepted]
  rw [FailsSafe, run, aclCommands_eq chap accepted]
  cases before : acls (iqn, acl.initiatorIQN) with
  | some auth => simp
  | none =>
    cases created : r (.createACL iqn acl.initiatorIQN) with
    | some text => simp [runAll, created, before]
    | none =>
      -- From here on the entry exists, and a failure leaves it as it is then.
      cases user : r (.setUser iqn acl.initiatorIQN acl.chapUser) with
      | some text => simp [runAll, created, user, Command.apply, before, Auth.Complete]
      | none =>
        cases password : r (.setPassword iqn acl.initiatorIQN acl.chapSecret) with
        | some text =>
          simp [runAll, created, user, password, Command.apply, before, Auth.Complete]
        | none => simp [runAll, created, user, password]

def backupHost : ACL where
  initiatorIQN := "iqn.2020-01.io.client:backup".toList
  chapUser := "backup".toList
  chapSecret := "0123456789ab".toList

def tank : Name := "iqn.2020-01.io.example:tank".toList

/-- Nothing fails but the command that creates the entry. -/
theorem failed_create_safe : FailsSafe
    (fun cmd => if cmd = .createACL tank backupHost.initiatorIQN then some "exit status 1" else none)
    tank backupHost fun _ => none := by
  have accepted : aclCommands tank backupHost = .ok [.createACL tank backupHost.initiatorIQN,
      .setUser tank backupHost.initiatorIQN backupHost.chapUser,
      .setPassword tank backupHost.initiatorIQN backupHost.chapSecret] := by decide +kernel
  refine (failed_acl_safe_iff _ _ (by decide) accepted).mpr (.inr fun created => ?_)
  simp at created

/-- The command that sets the user fails. -/
theorem failed_user_admits :
    let result := createACL
      (fun cmd => if cmd = .setUser tank backupHost.initiatorIQN backupHost.chapUser
        then some "exit status 1" else none) tank backupHost fun _ => none
    result.1 = .error (.run "exit status 1") ∧
      result.2 (tank, backupHost.initiatorIQN) = some { user := none, secret := none } := by
  decide +kernel

end NovaNas.Iscsi
