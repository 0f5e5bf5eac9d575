import NovaNas.Base.Runs
import NovaNas.Plugins.Marketplaces

/-!
# What the plugin engine calls

The calls that the engine makes to the database, the disk, the marketplaces, the provisioners'
backends and its own live tables, and the programs over them. Answers carry what the engine looks
at; an error it only logs is no part of the answer.
-/
namespace NovaNas.Plugins

/-- An auto-provisioned resource. -/
structure Resource where
  kind : NeedKind
  id : String
  deriving DecidableEq, Repr

/-- A row of the plugins table with its part of the resource ledger. -/
structure Row where
  version : String
  manifest : Plugin
  status : String
  resources : List Resource
  deriving DecidableEq, Repr

inductive Probe where
  | found
  | notFound
  | failed (err : String)
  deriving DecidableEq, Repr

inductive Call where
  -- the marketplaces
  | findVersion (name version marketplaceID : String)
  | download (listed : IndexVersion)
  -- the disk
  | unpackTemp (pkg : Package)
  | removeAll (plugin : String)
  | unpack (plugin : String) (pkg : Package)
  -- the database
  | getPluginByName (name : String)
  | listPlugins
  | createPlugin (name : String) (row : Row)
  | updatePlugin (name version : String) (manifest : Plugin) (status : String)
  | deletePlugin (name : String)
  | addPluginResource (plugin : String) (resource : Resource)
  | listPluginResources (plugin : String)
  -- the live tables
  | mount (plugin : String) (routes : List APIRoute)
  | unmount (plugin : String)
  | register (plugin : String)
  | deregister (plugin : String)
  -- the runtime
  | deploy (manifest : Plugin)
  | undeploy (plugin : String)
  -- datasets
  | getDataset (full : String)
  | createDataset (full : String) (properties : List (String × String))
  | destroyDataset (full : String)
  -- Keycloak and the secrets backend
  | findClient (clientID : String)
  | createClient (need : OIDCClientNeed)
  | rotateSecret (clientID : String)
  | readSecret (clientID : String)
  | storeSecret (plugin value : String)
  | deleteClient (clientID : String)
  | deleteSecret (plugin : String)
  | findRealmRole (role : String)
  | serviceAccount (clientID : String)
  | hasRealmRole (clientID role : String)
  | bindRole (clientID role : String)
  | unbindRole (clientID role : String)
  -- the client ids that the provisioner remembers
  | rememberClientID (plugin clientID : String)
  | lookupClientID (plugin : String)
  -- certificates
  | certsExist (plugin : String)
  | issueCert (plugin : String) (need : TLSCertNeed)
  | removeCerts (plugin : String)

/-- What a call answers. An optional text is an error. -/
@[reducible] def Call.Answer : Call → Type
  | findVersion _ _ _ => Except String (IndexPlugin × IndexVersion)
  | download _ => Except String Package
  | unpackTemp _ | unpack _ _ => Except String Extracted
  | removeAll _ => Unit
  | getPluginByName _ => Option Row
  | listPlugins => Option (List (String × Row))
  | createPlugin _ _ | updatePlugin _ _ _ _ | deletePlugin _ => Option String
  | addPluginResource _ _ => Unit
  | listPluginResources _ => Option (List Resource)
  | mount _ _ => Option String
  | unmount _ | register _ | deregister _ => Unit
  | deploy _ => Option String
  | undeploy _ => Unit
  | getDataset _ => Probe
  | createDataset _ _ | destroyDataset _ => Option String
  | findClient _ | findRealmRole _ | hasRealmRole _ _ => Except String Bool
  | createClient _ | rotateSecret _ | storeSecret _ _ | deleteClient _ => Option String
  | readSecret _ => Except String String
  | deleteSecret _ => Unit
  | serviceAccount _ | bindRole _ _ | unbindRole _ _ => Option String
  | rememberClientID _ _ => Unit
  | lookupClientID _ => String
  | certsExist _ => Bool
  | issueCert _ _ => Option String
  | removeCerts _ => Unit

/-- An operation that returns a result or an error. -/
abbrev Operation := Program.Attempt Call Call.Answer String

variable {α : Type}

def ask (q : Call) : Operation q.Answer := Program.request q

/-- Returns the result or fails with the error, wrapped. -/
def orFail (wrap : String → String) : Except String α → Operation α
  | .ok a => pure a
  | .error err => throw (wrap err)

/-- Fails if there is an error. -/
def check (wrap : String → String) : Option String → Operation Unit
  | none => pure ()
  | some err => throw (wrap err)

/-- Fails if the condition holds. -/
def failWhen (condition : Prop) [Decidable condition] (message : String) : Operation Unit :=
  if condition then throw message else pure ()

section Ends

open Program (Ends)

variable {σ : Type} {responds : Program.Responses σ Call.Answer} {s s' : σ}

@[simp] theorem ends_ask {q : Call} {r : Except String q.Answer} :
    Ends responds (ask q) s r s' ↔ ∃ a, r = .ok a ∧ responds s q a s' :=
  Program.ends_request

theorem ends_ask_bind {β : Type} {q : Call} {next : q.Answer → Operation β} {r : Except String β} :
    Ends responds (ask q >>= next) s r s' ↔
      ∃ a m, responds s q a m ∧ Ends responds (next a) m r s' :=
  Program.ends_request_bind

theorem ends_orFail {wrap : String → String} {result : Except String α} {r : Except String α} :
    Ends responds (orFail wrap result) s r s' ↔ r = result.mapError wrap ∧ s' = s := by
  cases result <;> exact Iff.rfl

@[simp] theorem ends_orFail_ok {wrap : String → String} {result : Except String α} {a : α} :
    Ends responds (orFail wrap result) s (.ok a) s' ↔ result = .ok a ∧ s' = s := by
  rw [ends_orFail]
  cases result <;> simp [Except.mapError, eq_comm]

@[simp] theorem ends_failWhen_ok {condition : Prop} [Decidable condition] {message : String}
    {a : Unit} : Ends responds (failWhen condition message) s (.ok a) s' ↔
      ¬condition ∧ s' = s := by
  rw [failWhen]
  split
  next holds => simp [holds]
  next fails => simp [fails]

end Ends

section Calls

open Program (Calls)

variable {p : Call → Prop}

theorem calls_orFail {wrap : String → String} {result : Except String α} :
    Calls p (orFail wrap result) := by
  cases result <;> trivial

theorem calls_check {wrap : String → String} {err : Option String} : Calls p (check wrap err) := by
  cases err <;> trivial

theorem calls_failWhen {condition : Prop} [Decidable condition] {message : String} :
    Calls p (failWhen condition message) := by
  rw [failWhen]
  split <;> trivial

theorem calls_ask {q : Call} (holds : p q) : Calls p (ask q) :=
  Program.calls_request.mpr holds

end Calls

end NovaNas.Plugins
