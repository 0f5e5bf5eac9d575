import Mathlib.Data.List.Dedup
import NovaNas.Base.Services
import NovaNas.Base.Sorting
import NovaNas.Base.Text

/-!
# The Kerberos principals of the users

The sync daemon lists the users of Keycloak page by page, works out which principals they are to
have, and creates and deletes principals in the KDC until it has these. It deletes only what looks
like the principal of a user, and a call that fails does not end the pass.
-/
namespace NovaNas.Krb5

open Program Sorting

abbrev Name := List Char

structure KeycloakUser where
  id : Name
  username : Name
  enabled : Bool
  /-- The values of the attribute `nova-tenant`. -/
  tenants : List Name
  /-- The values of the attribute `nova-platform-nfs`. -/
  platformNFS : List Name
  deriving DecidableEq, Repr

def KeycloakUser.platformNFSEnabled (u : KeycloakUser) : Bool :=
  u.platformNFS.any fun v => Text.equalFold (Text.trimSpace v) "true".toList

/-! ### Names of principals -/

def servicePrefixes : List Name :=
  ["krbtgt/".toList, "kadmin/".toList, "nfs/".toList, "host/".toList, "K/M".toList]

def isServicePrincipal (name : Name) : Bool :=
  servicePrefixes.any fun p => name = p || p.isPrefixOf name

def expectedPrincipals (realm : Name) (u : KeycloakUser) : List Name :=
  if !u.enabled || Text.trimSpace u.username = [] then []
  else if u.tenants = [] then
    if u.platformNFSEnabled then [u.username ++ '@' :: realm] else []
  else
    let tenants := (u.tenants.map Text.trimSpace).filter (· ≠ [])
    sortNames (tenants.map fun t => u.username ++ '/' :: (t ++ '@' :: realm)).dedup

def principalUserPattern (realm name : Name) : Bool :=
  if isServicePrincipal name then false
  else
    let suffix := '@' :: realm
    if !suffix.isSuffixOf name then false
    else
      let local_ := name.take (name.length - suffix.length)
      if local_ = [] then false else local_.count '/' ≤ 1

/-! ### Calls -/

structure ApiError where
  text : Name
  deriving DecidableEq, Repr

inductive Change where
  | create (name : Name)
  | delete (name : Name)
  deriving DecidableEq, Repr

inductive SyncCall where
  /-- The users at the positions from `first` on, of Keycloak. -/
  | page (first max : Nat)
  | listPrincipals
  | change (c : Change)
  deriving DecidableEq, Repr

abbrev Reply : SyncCall → Type
  | .page .. => List KeycloakUser
  | .listPrincipals => List Name
  | .change _ => Unit

inductive SyncError where
  | listUsers (err : ApiError)
  | listPrincipals (err : ApiError)
  /-- The pass has been given up before the last page. -/
  | cancelled
  deriving DecidableEq, Repr

abbrev SyncAnswer (q : SyncCall) := Except ApiError (Reply q)

abbrev OnSync := Attempt SyncCall SyncAnswer SyncError

/-! ### One pass -/

def pageSize : Nat := 100

/-- The users from the position `first` on, in at most the given number of pages. -/
def listUsersFrom : Nat → Nat → OnSync (List KeycloakUser)
  | 0, _ => throw .cancelled
  | pages + 1, first => do
    let page : List KeycloakUser ← consult (SyncCall.page first pageSize) SyncError.listUsers
    if page.length < pageSize then return page
    else
      let rest ← listUsersFrom pages (first + page.length)
      return page ++ rest

def listUsers (pages : Nat) : OnSync (List KeycloakUser) := listUsersFrom pages 0

/-- Asks for one change after the other: those that worked, and the number of the others. -/
def applyEach (make : Name → Change) : List Name → Program SyncCall SyncAnswer (List Name × Nat)
  | [] => .ret ([], 0)
  | name :: rest => do
    let result : Except ApiError Unit ← perform (SyncCall.change (make name))
    let (done, errors) ← applyEach make rest
    match result with
    | .ok () => .ret (name :: done, errors)
    | .error _ => .ret (done, errors + 1)

structure Result where
  usersConsidered : Nat
  principalsDesired : Nat
  principalsInKDC : Nat
  created : List Name
  deleted : List Name
  createErrors : Nat
  deleteErrors : Nat
  deriving DecidableEq, Repr

/-- What the users are to have. -/
def desired (realm : Name) (users : List KeycloakUser) : List Name :=
  (users.flatMap (expectedPrincipals realm)).dedup

def createNames (wanted have_ : List Name) : List Name :=
  sortNames (wanted.filter fun p => !have_.contains p)

def deleteCandidates (realm : Name) (wanted have_ : List Name) : List Name :=
  sortNames (have_.dedup.filter fun n => principalUserPattern realm n && !wanted.contains n)

def reconcileOnce (realm : Name) (pages : Nat) : OnSync Result := do
  let users ← listUsers pages
  let kdcList : List Name ← consult SyncCall.listPrincipals SyncError.listPrincipals
  let wanted := desired realm users
  let (created, createErrors) ←
    ExceptT.lift (applyEach .create (createNames wanted kdcList))
  let (deleted, deleteErrors) ←
    ExceptT.lift (applyEach .delete (deleteCandidates realm wanted kdcList))
  return {
    usersConsidered := users.length
    principalsDesired := wanted.length
    principalsInKDC := kdcList.length
    created, deleted, createErrors, deleteErrors }

/-! ### The KDC -/

def isNameStart (c : Char) : Bool :=
  ('A' ≤ c && c ≤ 'Z') || ('a' ≤ c && c ≤ 'z') || ('0' ≤ c && c ≤ '9')

def isNameChar (c : Char) : Bool := isNameStart c || c == '.' || c == '_' || c == '-'

/-- `[A-Za-z0-9]` and then characters that are accepted. -/
def startsName (accepts : Char → Bool) : Name → Bool
  | [] => false
  | first :: rest => isNameStart first && rest.all accepts

/-- `^[A-Za-z0-9][A-Za-z0-9._/\-]*(@[A-Za-z0-9][A-Za-z0-9._\-]*)?$` -/
def principalNameRE (name : Name) : Bool :=
  match Text.cut '@' name with
  | none => startsName (fun c => isNameChar c || c == '/') name
  | some (before, realm) =>
    startsName (fun c => isNameChar c || c == '/') before && startsName isNameChar realm

inductive NameError where
  | required
  | tooLong
  | invalid (name : Name)
  deriving DecidableEq, Repr

def validatePrincipalName (name : Name) : Except NameError Unit :=
  if name = [] then .error .required
  else if (name.map Char.utf8Size).sum > 256 then .error .tooLong
  else if !principalNameRE name then .error (.invalid name)
  else .ok ()

/-- What the change makes of the principals. -/
def Change.apply (principals : List Name) : Change → List Name
  | .create name => if principals.contains name then principals else principals ++ [name]
  | .delete name => principals.filter (· ≠ name)

def Change.name : Change → Name
  | .create name | .delete name => name

structure World where
  users : List KeycloakUser
  principals : List Name
  deriving DecidableEq, Repr

/-- Keycloak and a KDC that accepts some names. -/
def serve (accepts : Name → Bool) : Service World ApiError Reply
  | w, .page first max => (.ok ((w.users.drop first).take max), w)
  | w, .listPrincipals => (.ok w.principals, w)
  | w, .change c =>
    if !accepts c.name then (.error ⟨"principal name is not valid".toList⟩, w)
    else
      match c with
      | .create name =>
        if w.principals.contains name then (.error ⟨"principal already exists".toList⟩, w)
        else (.ok (), { w with principals := c.apply w.principals })
      -- Deleting what is not there is no error.
      | .delete _ => (.ok (), { w with principals := c.apply w.principals })

end NovaNas.Krb5
