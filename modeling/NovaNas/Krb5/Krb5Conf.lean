import NovaNas.Base.Entries
import NovaNas.Base.Ip
import NovaNas.Base.Sorting
import NovaNas.Krb5.ConfLines

/-!
# The file of the Kerberos client

The realms and the domains are maps. They are written in the order of their keys and put together
again line by line; a realm is a block of lines up to a closing brace.
-/
namespace NovaNas.Krb5.Conf

open Text (blanks unlines)
open Entries (get put)
open Fallible (failIf failIf_ok bind_ok each each_ok)

structure Realm where
  kdc : List Name := []
  adminServer : Name := []
  defaultDomain : Name := []
  deriving DecidableEq, Repr

structure Config where
  defaultRealm : Name := []
  realms : List (Name × Realm) := []
  domainRealm : List (Name × Name) := []
  dnsLookupKDC : Bool := false
  dnsLookupRealm : Bool := false
  deriving DecidableEq, Repr

/-- The maps are compared as maps. -/
structure Config.Same (a b : Config) : Prop where
  defaultRealm : a.defaultRealm = b.defaultRealm
  realms : ∀ name, get name a.realms = get name b.realms
  domainRealm : ∀ key, get key a.domainRealm = get key b.domainRealm
  dnsLookupKDC : a.dnsLookupKDC = b.dnsLookupKDC
  dnsLookupRealm : a.dnsLookupRealm = b.dnsLookupRealm

/-! ### Checks -/

inductive HostError where
  | empty
  | parse
  | host (text : Name)
  | port (text : Name)
  deriving DecidableEq, Repr

inductive ConfigError where
  | realmRequired
  | notUpper (realm : Name)
  | realmName (realm : Name)
  | noEntry (realm : Name)
  | noKDC (realm : Name)
  | kdc (realm kdc : Name) (err : HostError)
  | adminServer (realm server : Name) (err : HostError)
  | defaultDomain (realm domain : Name)
  | domainKey (suffix : Name)
  | domainValue (realm : Name)
  deriving DecidableEq, Repr

def isRealmName : Name → Bool
  | [] => false
  | c :: rest => Text.alphanumeric c && rest.all nameChar

/-- `strings.ToUpper` for ASCII: a name with other characters is no realm in any case. -/
def isUpper (s : Name) : Bool := s.map Char.toUpper = s

/-- `net.SplitHostPort` -/
def splitHostPort (hostport : Name) : Option (Name × Name) :=
  match Text.cutLast ':' hostport with
  | none => none
  | some (front, port) =>
    if hostport.head? = some '[' then
      match Text.cut ']' hostport with
      | none => none
      | some (opened, after) =>
        if after = ':' :: port ∧ hostport.tail.contains '[' = false ∧ after.contains ']' = false then
          some (opened.tail, port)
        else none
    else if front.contains ':' || hostport.contains '[' || hostport.contains ']' then none
    else some (front, port)

def portInRange (port : Name) : Bool :=
  match Text.atoi64 port with
  | some n => 1 ≤ n && n ≤ 65535
  | none => false

/-- The host and the port that are checked, without a port if there is none. -/
def hostAndPort (s : Name) : Option (Name × Name) :=
  if s.head? = some '[' ∨ s.count ':' = 1 then splitHostPort s else some (s, [])

def validateHostPort (s : Name) : Except HostError Unit := do
  failIf (s = []) .empty
  match hostAndPort s with
  | none => .error .parse
  | some (host, port) => do
    failIf ((Ip.parseIP host).isNone ∧ isDNSName host = false) (.host host)
    failIf (port ≠ [] ∧ portInRange port = false) (.port port)

def validateAdminServer (name server : Name) : Except ConfigError Unit :=
  if server = [] then .ok () else (validateHostPort server).mapError (.adminServer name server)

def validateRealm (name : Name) (r : Realm) : Except ConfigError Unit := do
  failIf (isUpper name = false) (.notUpper name)
  failIf (isRealmName name = false) (.realmName name)
  failIf (r.kdc = []) (.noKDC name)
  each (fun kdc => (validateHostPort kdc).mapError (.kdc name kdc)) r.kdc
  validateAdminServer name r.adminServer
  failIf (r.defaultDomain ≠ [] ∧ isDNSName r.defaultDomain = false)
    (.defaultDomain name r.defaultDomain)

/-- The suffix without a dot in front. -/
def bareSuffix (suffix : Name) : Name := if suffix.head? = some '.' then suffix.tail else suffix

def validateDomain (suffix realm : Name) : Except ConfigError Unit := do
  failIf (isDNSName (bareSuffix suffix) = false) (.domainKey suffix)
  failIf (isUpper realm = false ∨ isRealmName realm = false) (.domainValue realm)

def validateConfig (cfg : Config) : Except ConfigError Unit := do
  failIf (cfg.defaultRealm = []) .realmRequired
  failIf (isUpper cfg.defaultRealm = false) (.notUpper cfg.defaultRealm)
  failIf (isRealmName cfg.defaultRealm = false) (.realmName cfg.defaultRealm)
  failIf (get cfg.defaultRealm cfg.realms = none) (.noEntry cfg.defaultRealm)
  each (fun entry => validateRealm entry.1 entry.2) cfg.realms
  each (fun entry => validateDomain entry.1 entry.2) cfg.domainRealm

/-! ### Writing -/

def boolStr (b : Bool) : Name := if b then "true".toList else "false".toList

def sortedKeys {β : Type} (m : List (Name × β)) : List Name := Sorting.sortNames (m.map (·.1))

/-- Written only if there is something to write. -/
def optional (key value : Name) : List Name :=
  if value = [] then [] else [blanks 8 ++ setting key value]

def realmLines (name : Name) (r : Realm) : List Name :=
  (blanks 4 ++ setting name ['{']) ::
    (r.kdc.map fun kdc => blanks 8 ++ setting "kdc".toList kdc) ++
    optional "admin_server".toList r.adminServer ++
    optional "default_domain".toList r.defaultDomain ++
    [blanks 4 ++ ['}']]

def Config.realm (cfg : Config) (name : Name) : Realm := (get name cfg.realms).getD {}

def Config.domain (cfg : Config) (key : Name) : Name := (get key cfg.domainRealm).getD []

def Config.defaultLines (cfg : Config) : List Name :=
  "[libdefaults]".toList ::
    (if cfg.defaultRealm = [] then []
      else [blanks 4 ++ setting "default_realm".toList cfg.defaultRealm]) ++
    [blanks 4 ++ setting "dns_lookup_kdc".toList (boolStr cfg.dnsLookupKDC),
      blanks 4 ++ setting "dns_lookup_realm".toList (boolStr cfg.dnsLookupRealm)]

def Config.domainLines (cfg : Config) : List Name :=
  if cfg.domainRealm = [] then []
  else [] :: "[domain_realm]".toList ::
    (sortedKeys cfg.domainRealm).map fun key => blanks 4 ++ setting key (cfg.domain key)

def Config.lines (cfg : Config) : List Name :=
  cfg.defaultLines ++ ([] :: "[realms]".toList ::
    (((sortedKeys cfg.realms).flatMap fun name => realmLines name (cfg.realm name)) ++
      cfg.domainLines))

def renderKrb5Conf (cfg : Config) : Name := unlines cfg.lines

/-! ### Reading -/

def parseBool (s : Name) : Bool :=
  (["true", "yes", "1", "on"].map String.toList).contains (Text.toLower s)

structure Reading where
  section_ : Name
  currentRealm : Name
  realm : Realm
  cfg : Config
  deriving DecidableEq, Repr

def Reading.flushRealm (s : Reading) : Reading where
  section_ := s.section_
  currentRealm := []
  realm := {}
  cfg := if s.currentRealm = [] then s.cfg
    else { s.cfg with realms := put s.currentRealm s.realm s.cfg.realms }

def Config.setDefault (cfg : Config) (k v : Name) : Config :=
  if k = "default_realm".toList then { cfg with defaultRealm := v }
  else if k = "dns_lookup_kdc".toList then { cfg with dnsLookupKDC := parseBool v }
  else if k = "dns_lookup_realm".toList then { cfg with dnsLookupRealm := parseBool v }
  else cfg

def Realm.set (r : Realm) (k v : Name) : Realm :=
  if k = "kdc".toList then { r with kdc := r.kdc ++ [v] }
  else if k = "admin_server".toList then { r with adminServer := v }
  else if k = "default_domain".toList then { r with defaultDomain := v }
  else r

def Reading.set (s : Reading) (k v : Name) : Reading :=
  if s.section_ = "libdefaults".toList then { s with cfg := s.cfg.setDefault k v }
  else if s.section_ = "realms".toList then
    if s.currentRealm = [] then
      if v = ['{'] then { s with currentRealm := k, realm := {} } else s
    else { s with realm := s.realm.set k v }
  else if s.section_ = "domain_realm".toList then
    { s with cfg.domainRealm := put k v s.cfg.domainRealm }
  else s

def Reading.line (s : Reading) (raw : Name) : Reading :=
  match sectionName (cleaned raw) with
  | some name => { s.flushRealm with section_ := name }
  | none =>
    if cleaned raw = ['}'] then s.flushRealm
    else
      match splitKV (cleaned raw) with
      | some (k, v) => s.set k v
      | none => s

/-- No domains at all are the same as an empty map of them. -/
def parseKrb5Conf (data : Name) : Config :=
  ((Text.split '\n' data).foldl Reading.line ⟨[], [], {}, {}⟩).flushRealm.cfg

/-! ### What is accepted -/

theorem nameChar_of_isRealmName {s : Name} (ok : isRealmName s = true) :
    s ≠ [] ∧ ∀ c ∈ s, nameChar c = true := by
  cases s with
  | nil => cases ok
  | cons c rest =>
    obtain ⟨first, later⟩ := Bool.and_eq_true_iff.mp ok
    refine ⟨List.cons_ne_nil _ _, List.forall_mem_cons.mpr ⟨?_, List.all_eq_true.mp later⟩⟩
    simp [nameChar, first]

theorem mem_of_splitHostPort {s host port : Name} (split : splitHostPort s = some (host, port))
    {c : Char} (member : c ∈ s) : c ∈ host ∨ c ∈ port ∨ c = ':' ∨ c = '[' ∨ c = ']' := by
  unfold splitHostPort at split
  split at split
  · cases split
  next front port' last =>
    have whole := Text.eq_of_cutLast last
    split at split
    next bracket =>
      split at split
      · cases split
      next opened after cut =>
        split at split
        next shape =>
          cases split
          rw [(Text.cut_eq_some_iff.mp cut).1, shape.1, List.mem_append, List.mem_cons,
            List.mem_cons] at member
          cases opened with
          | nil => grind
          | cons d opened =>
            obtain rfl : d = '[' := by
              rw [(Text.cut_eq_some_iff.mp cut).1] at bracket
              simpa using bracket
            rw [List.mem_cons] at member
            grind
        next => cases split
    next =>
      split at split
      · cases split
      · cases split
        rw [whole, List.mem_append, List.mem_cons] at member
        grind

theorem plain_of_isMark {c : Char} (mark : Ip.isMark c = true) : plain c = true := by
  have uncommented : isComment c = false := by
    by_contra comment
    simp only [isComment, Bool.not_eq_false, Bool.or_eq_true, beq_iff_eq] at comment
    rcases comment with rfl | rfl
    all_goals exact absurd mark (by decide)
  simp [plain, Ip.isSpace_of_isMark mark, uncommented]

theorem plain_of_atoi64 {s : Name} {n : Int64} (read : Text.atoi64 s = some n) :
    ∀ c ∈ s, plain c = true := by
  obtain ⟨value, read, -⟩ := Option.map_eq_some_iff.mp read
  obtain ⟨first, rest, rfl, sign, digits⟩ := Text.digit_of_atoi read
  have digit {c : Char} (isDigit : (Text.digit c).isSome) : plain c = true := by
    obtain ⟨d, value⟩ := Option.isSome_iff_exists.mp isDigit
    exact plain_of_isMark (Ip.isMark_of_digit value)
  refine List.forall_mem_cons.mpr ⟨?_, fun c member => digit (digits c member)⟩
  rcases sign with rfl | rfl | isDigit
  · decide
  · decide
  · exact digit isDigit

theorem plain_of_validateHostPort {s : Name} (valid : validateHostPort s = .ok ()) :
    s ≠ [] ∧ ∀ c ∈ s, plain c = true := by
  obtain ⟨_, given, valid⟩ := bind_ok valid
  refine ⟨failIf_ok given, ?_⟩
  split at valid
  · cases valid
  next host port parts =>
    obtain ⟨_, named, ranged⟩ := bind_ok valid
    have hostPlain : ∀ c ∈ host, plain c = true := by
      cases address : Ip.parseIP host with
      | some ip => exact fun c member => plain_of_isMark (Ip.parseIP_marks address c member)
      | none =>
        have dns : isDNSName host = true := by simpa [address] using failIf_ok named
        exact fun c member => plain_of_nameChar (nameChar_of_isDNSName dns c member)
    have portPlain : ∀ c ∈ port, plain c = true := by
      by_cases missing : port = []
      · simp [missing]
      · have inRange : portInRange port = true := by simpa [missing] using failIf_ok ranged
        unfold portInRange at inRange
        split at inRange
        next read => exact plain_of_atoi64 read
        next => cases inRange
    rw [hostAndPort] at parts
    split at parts
    · intro c member
      rcases mem_of_splitHostPort parts member with inHost | inPort | rfl | rfl | rfl
      · exact hostPlain c inHost
      · exact portPlain c inPort
      all_goals decide
    · cases parts
      exact hostPlain

/-- What a realm has to be to be read back. -/
structure Realm.Plain (r : Realm) : Prop where
  kdc : ∀ kdc ∈ r.kdc, kdc ≠ [] ∧ Fine kdc
  adminServer : Fine r.adminServer
  defaultDomain : Fine r.defaultDomain

theorem plain_of_validateRealm {name : Name} {r : Realm} (valid : validateRealm name r = .ok ()) :
    KeyWord name ∧ r.Plain := by
  obtain ⟨_, -, valid⟩ := bind_ok valid
  obtain ⟨_, named, valid⟩ := bind_ok valid
  obtain ⟨_, -, valid⟩ := bind_ok valid
  obtain ⟨_, kdcs, valid⟩ := bind_ok valid
  obtain ⟨_, admin, valid⟩ := bind_ok valid
  have host {s : Name} (valid : validateHostPort s = .ok ()) : s ≠ [] ∧ Fine s :=
    ⟨(plain_of_validateHostPort valid).1, .of_plain (plain_of_validateHostPort valid).2⟩
  obtain ⟨given, chars⟩ := nameChar_of_isRealmName (s := name) (by simpa using failIf_ok named)
  refine ⟨.of_name chars given, fun kdc member => ?_, ?_, ?_⟩
  · exact host (Fallible.mapError_ok (each_ok kdcs kdc member))
  · rw [validateAdminServer] at admin
    split at admin
    next none_ =>
      rw [none_]
      exact .of_plain (by simp)
    next => exact (host (Fallible.mapError_ok admin)).2
  · by_cases missing : r.defaultDomain = []
    · rw [missing]
      exact .of_plain (by simp)
    · have dns : isDNSName r.defaultDomain = true := by simpa [missing] using failIf_ok valid
      exact .of_name (nameChar_of_isDNSName dns)

theorem keyWord_of_validateDomain {suffix realm : Name}
    (valid : validateDomain suffix realm = .ok ()) :
    KeyWord suffix ∧ realm ≠ [] ∧ Fine realm := by
  obtain ⟨_, dns, valid⟩ := bind_ok valid
  have dns : isDNSName (bareSuffix suffix) = true := by simpa using failIf_ok dns
  have chars := nameChar_of_isDNSName dns
  have named : isRealmName realm = true := by
    simpa using (not_or.mp (failIf_ok valid)).2
  obtain ⟨given, realmChars⟩ := nameChar_of_isRealmName named
  refine ⟨?_, given, .of_name realmChars⟩
  cases suffix with
  | nil => simp [bareSuffix, isDNSName] at dns
  | cons c suffix =>
    refine .of_name ?_ (List.cons_ne_nil _ _)
    by_cases dot : c = '.'
    · refine List.forall_mem_cons.mpr ⟨by simp [dot, nameChar], ?_⟩
      simpa [bareSuffix, dot] using chars
    · simpa [bareSuffix, dot] using chars

/-! ### Reading what was written -/

def Reading.reads (s : Reading) (lines : List Name) : Reading :=
  (Text.split '\n' (unlines lines)).foldl Reading.line s

open Reading (reads)

theorem reads_nil (s : Reading) : s.reads [] = s := rfl

theorem reads_cons {l : Name} (single : '\n' ∉ l) (s : Reading) (rest : List Name) :
    s.reads (l :: rest) = (s.line l).reads rest := by
  have text : unlines (l :: rest) = l ++ '\n' :: unlines rest := by simp [unlines]
  rw [reads, text, Text.split_append single, List.foldl_cons]
  rfl

theorem blanks_single (indent : Nat) : '\n' ∉ blanks indent := fun member => by
  cases List.eq_of_mem_replicate member

theorem reads_setting {key value : Name} (word : KeyWord key) (fine : Fine value)
    (given : value ≠ []) (indent : Nat) (s : Reading) (rest : List Name) :
    s.reads ((blanks indent ++ setting key value) :: rest) = (s.set key value).reads rest := by
  have single : '\n' ∉ blanks indent ++ setting key value := by
    simp [blanks_single, setting_single word fine]
  have open_ : setting key value ≠ ['}'] := fun same => by
    have lengths := congrArg List.length same
    simp [setting] at lengths
    omega
  rw [reads_cons single, Reading.line, cleaned_setting word fine given,
    sectionName_setting word, if_neg open_, splitKV_setting word fine]

theorem reads_section {raw name : Name} (single : '\n' ∉ raw)
    (header : sectionName (cleaned raw) = some name) (s : Reading) (rest : List Name) :
    s.reads (raw :: rest) = reads { s.flushRealm with section_ := name } rest := by
  rw [reads_cons single, Reading.line, header]

theorem reads_blank (s : Reading) (rest : List Name) : s.reads ([] :: rest) = s.reads rest := by
  rw [reads_cons (by simp)]
  rfl

theorem reads_brace (s : Reading) (rest : List Name) :
    s.reads ((blanks 4 ++ ['}']) :: rest) = s.flushRealm.reads rest := by
  rw [reads_cons (by decide)]
  rfl

section Realms

variable {name : Name} (named : KeyWord name)
include named

theorem set_realm (r : Realm) (cfg : Config) (k v : Name) :
    Reading.set ⟨"realms".toList, name, r, cfg⟩ k v = ⟨"realms".toList, name, r.set k v, cfg⟩ := by
  have other : "realms".toList ≠ "libdefaults".toList := by decide
  rw [Reading.set, if_neg other, if_pos rfl, if_neg named.given]

theorem reads_kdcs {kdcs : List Name} (fine : ∀ kdc ∈ kdcs, kdc ≠ [] ∧ Fine kdc) (r : Realm)
    (cfg : Config) (rest : List Name) :
    reads ⟨"realms".toList, name, r, cfg⟩
      ((kdcs.map fun kdc => blanks 8 ++ setting "kdc".toList kdc) ++ rest) =
    reads ⟨"realms".toList, name, { r with kdc := r.kdc ++ kdcs }, cfg⟩ rest := by
  induction kdcs generalizing r with
  | nil => simp
  | cons kdc kdcs ih =>
    obtain ⟨⟨given, own⟩, fine⟩ := List.forall_mem_cons.mp fine
    have added : r.set "kdc".toList kdc = { r with kdc := r.kdc ++ [kdc] } := rfl
    rw [List.map_cons, List.cons_append, reads_setting (keyWord_of (by decide)) own given,
      set_realm named, added, ih fine, List.append_assoc, List.singleton_append]

theorem reads_optional {key value : Name} (word : isKeyWord key = true) (fine : Fine value)
    (r : Realm) (cfg : Config) (rest : List Name) :
    reads ⟨"realms".toList, name, r, cfg⟩ (optional key value ++ rest) =
      reads ⟨"realms".toList, name, if value = [] then r else r.set key value, cfg⟩ rest := by
  rw [optional]
  split
  · rfl
  next given =>
    rw [List.singleton_append, reads_setting (keyWord_of word) fine given, set_realm named]

theorem reads_realm {r : Realm} (plain : r.Plain) (cfg : Config) (rest : List Name) :
    reads ⟨"realms".toList, [], {}, cfg⟩ (realmLines name r ++ rest) =
      reads ⟨"realms".toList, [], {},
        { cfg with realms := put name r cfg.realms }⟩ rest := by
  have opened : Reading.set ⟨"realms".toList, [], {}, cfg⟩ name ['{'] =
      ⟨"realms".toList, name, {}, cfg⟩ := rfl
  have brace : Fine ['{'] := .of_plain (List.all_eq_true.mp (by decide))
  have admin (kdc : List Name) : (if r.adminServer = [] then ⟨kdc, [], []⟩
      else Realm.set ⟨kdc, [], []⟩ "admin_server".toList r.adminServer) =
        Realm.mk kdc r.adminServer [] := by
    split
    next none_ => rw [none_]
    next => rfl
  have domain (kdc : List Name) (server : Name) : (if r.defaultDomain = [] then ⟨kdc, server, []⟩
      else Realm.set ⟨kdc, server, []⟩ "default_domain".toList r.defaultDomain) =
        Realm.mk kdc server r.defaultDomain := by
    split
    next none_ => rw [none_]
    next => rfl
  have closed : Reading.flushRealm ⟨"realms".toList, name, r, cfg⟩ = ⟨"realms".toList, [], {},
      { cfg with realms := put name r cfg.realms }⟩ := by
    rw [Reading.flushRealm, if_neg named.given]
  simp only [realmLines, List.cons_append, List.append_assoc, List.nil_append]
  rw [reads_setting named brace (by simp), opened, reads_kdcs named plain.kdc,
    reads_optional named (by decide) plain.adminServer,
    reads_optional named (by decide) plain.defaultDomain, reads_brace, admin, domain]
  exact congrArg (reads · rest) closed

end Realms

theorem reads_realms {names : List Name} {realm : Name → Realm}
    (plain : ∀ name ∈ names, KeyWord name ∧ (realm name).Plain) (cfg : Config) (rest : List Name) :
    reads ⟨"realms".toList, [], {}, cfg⟩
      ((names.flatMap fun name => realmLines name (realm name)) ++ rest) =
    reads ⟨"realms".toList, [], {}, { cfg with
      realms := names.foldl (fun made name => put name (realm name) made) cfg.realms }⟩
      rest := by
  induction names generalizing cfg with
  | nil => rfl
  | cons name names ih =>
    obtain ⟨⟨named, own⟩, plain⟩ := List.forall_mem_cons.mp plain
    rw [List.flatMap_cons, List.append_assoc, reads_realm named own, ih plain]
    rfl

theorem reads_domains {keys : List Name} {domain : Name → Name}
    (plain : ∀ key ∈ keys, KeyWord key ∧ domain key ≠ [] ∧ Fine (domain key)) (cfg : Config) :
    reads ⟨"domain_realm".toList, [], {}, cfg⟩
      (keys.map fun key => blanks 4 ++ setting key (domain key)) =
    ⟨"domain_realm".toList, [], {}, { cfg with
      domainRealm := keys.foldl (fun made key => put key (domain key) made) cfg.domainRealm }⟩ := by
  induction keys generalizing cfg with
  | nil => rfl
  | cons key keys ih =>
    obtain ⟨⟨word, given, fine⟩, plain⟩ := List.forall_mem_cons.mp plain
    have added : Reading.set ⟨"domain_realm".toList, [], {}, cfg⟩ key (domain key) =
        ⟨"domain_realm".toList, [], {},
          { cfg with domainRealm := put key (domain key) cfg.domainRealm }⟩ := rfl
    rw [List.map_cons, reads_setting word fine given, added, ih plain]
    rfl

theorem mem_sortedKeys {β : Type} {m : List (Name × β)} {k : Name} :
    k ∈ sortedKeys m ↔ k ∈ m.map (·.1) := Sorting.mem_sortNames

theorem exists_get {β : Type} {m : List (Name × β)} {k : Name} (member : k ∈ sortedKeys m) :
    ∃ v, get k m = some v ∧ (k, v) ∈ m := by
  cases found : get k m with
  | none => exact absurd (mem_sortedKeys.mp member) (Entries.get_eq_none_iff.mp found)
  | some v => exact ⟨v, rfl, Entries.mem_of_get found⟩

theorem parseBool_boolStr (b : Bool) : parseBool (boolStr b) = b := by
  cases b <;> decide

/-- The configuration as its lines make it. -/
def Config.rebuilt (cfg : Config) : Config :=
  { cfg with
    realms := (sortedKeys cfg.realms).foldl
      (fun made name => put name (cfg.realm name) made) []
    domainRealm := (sortedKeys cfg.domainRealm).foldl
      (fun made key => put key (cfg.domain key) made) [] }

theorem Config.rebuilt_same (cfg : Config) : cfg.rebuilt.Same cfg where
  defaultRealm := rfl
  realms := Entries.get_foldl_put (fun _ => mem_sortedKeys) fun name r found => by
    rw [Config.realm, found, Option.getD_some]
  domainRealm := Entries.get_foldl_put (fun _ => mem_sortedKeys) fun key realm found => by
    rw [Config.domain, found, Option.getD_some]
  dnsLookupKDC := rfl
  dnsLookupRealm := rfl

section File

variable {cfg : Config} (valid : validateConfig cfg = .ok ())
include valid

theorem realms_plain :
    ∀ name ∈ sortedKeys cfg.realms, KeyWord name ∧ (cfg.realm name).Plain := by
  obtain ⟨_, -, valid⟩ := bind_ok valid
  obtain ⟨_, -, valid⟩ := bind_ok valid
  obtain ⟨_, -, valid⟩ := bind_ok valid
  obtain ⟨_, -, valid⟩ := bind_ok valid
  obtain ⟨_, realms, -⟩ := bind_ok valid
  intro name member
  obtain ⟨r, found, listed⟩ := exists_get member
  rw [Config.realm, found, Option.getD_some]
  exact plain_of_validateRealm (each_ok realms _ listed)

theorem domains_plain : ∀ key ∈ sortedKeys cfg.domainRealm,
    KeyWord key ∧ cfg.domain key ≠ [] ∧ Fine (cfg.domain key) := by
  obtain ⟨_, -, valid⟩ := bind_ok valid
  obtain ⟨_, -, valid⟩ := bind_ok valid
  obtain ⟨_, -, valid⟩ := bind_ok valid
  obtain ⟨_, -, valid⟩ := bind_ok valid
  obtain ⟨_, -, domains⟩ := bind_ok valid
  intro key member
  obtain ⟨realm, found, listed⟩ := exists_get member
  rw [Config.domain, found, Option.getD_some]
  exact keyWord_of_validateDomain (each_ok domains _ listed)

theorem defaultRealm_fine : cfg.defaultRealm ≠ [] ∧ Fine cfg.defaultRealm := by
  obtain ⟨_, -, valid⟩ := bind_ok valid
  obtain ⟨_, -, valid⟩ := bind_ok valid
  obtain ⟨_, named, -⟩ := bind_ok valid
  obtain ⟨given, chars⟩ := nameChar_of_isRealmName (by simpa using failIf_ok named)
  exact ⟨given, .of_name chars⟩

theorem reads_defaults (rest : List Name) :
    reads ⟨[], [], {}, {}⟩ (cfg.defaultLines ++ rest) =
      reads ⟨"libdefaults".toList, [], {}, { cfg with realms := [], domainRealm := [] }⟩
        rest := by
  obtain ⟨given, fine⟩ := defaultRealm_fine valid
  have word (b : Bool) : boolStr b ≠ [] ∧ Fine (boolStr b) := by
    cases b
    all_goals exact ⟨by decide, .of_plain (List.all_eq_true.mp (by decide))⟩
  have header : sectionName (cleaned "[libdefaults]".toList) = some "libdefaults".toList := by decide
  have made : (((Reading.mk "libdefaults".toList [] {} {}).set "default_realm".toList
      cfg.defaultRealm).set "dns_lookup_kdc".toList (boolStr cfg.dnsLookupKDC)).set
        "dns_lookup_realm".toList (boolStr cfg.dnsLookupRealm) =
      ⟨"libdefaults".toList, [], {}, ⟨cfg.defaultRealm, [], [],
        parseBool (boolStr cfg.dnsLookupKDC), parseBool (boolStr cfg.dnsLookupRealm)⟩⟩ := rfl
  rw [parseBool_boolStr, parseBool_boolStr] at made
  simp only [Config.defaultLines, if_neg given, List.cons_append, List.nil_append]
  rw [reads_section (by decide) header, reads_setting (keyWord_of (by decide)) fine given,
    reads_setting (keyWord_of (by decide)) (word _).2 (word _).1,
    reads_setting (keyWord_of (by decide)) (word _).2 (word _).1]
  exact congrArg (reads · rest) made

theorem reads_domainLines : (reads ⟨"realms".toList, [], {},
    { cfg.rebuilt with domainRealm := [] }⟩ cfg.domainLines).flushRealm.cfg = cfg.rebuilt := by
  have header : sectionName (cleaned "[domain_realm]".toList) = some "domain_realm".toList := by
    decide
  rw [Config.domainLines]
  split
  next missing =>
    have none_ : cfg.rebuilt.domainRealm = [] := by
      rw [Config.rebuilt, missing]
      rfl
    rw [reads_nil, ← none_]
    rfl
  next =>
    have flushed : Reading.flushRealm ⟨"realms".toList, [], {},
        { cfg.rebuilt with domainRealm := [] }⟩ =
          ⟨"realms".toList, [], {}, { cfg.rebuilt with domainRealm := [] }⟩ := rfl
    rw [reads_blank, reads_section (by decide) header, flushed, reads_domains (domains_plain valid)]
    rfl

/-- An accepted configuration is read back as it was. -/
theorem krb5Conf_read_back : (parseKrb5Conf (renderKrb5Conf cfg)).Same cfg := by
  have header : sectionName (cleaned "[realms]".toList) = some "realms".toList := by decide
  have flushed : Reading.flushRealm ⟨"libdefaults".toList, [], {},
      { cfg with realms := [], domainRealm := [] }⟩ =
        ⟨"libdefaults".toList, [], {}, { cfg with realms := [], domainRealm := [] }⟩ := rfl
  have read : parseKrb5Conf (renderKrb5Conf cfg) = cfg.rebuilt := by
    change (reads ⟨[], [], {}, {}⟩ cfg.lines).flushRealm.cfg = _
    rw [Config.lines, reads_defaults valid, reads_blank, reads_section (by decide) header, flushed,
      reads_realms (realms_plain valid)]
    exact reads_domainLines valid
  rw [read]
  exact cfg.rebuilt_same

end File

def corporate : Config where
  defaultRealm := "EXAMPLE.COM".toList
  realms := [("LAB.EXAMPLE.COM".toList, ⟨["[fd00::88]:88".toList], [], []⟩),
    ("EXAMPLE.COM".toList, ⟨["kdc1.example.com:88".toList, "10.0.0.2".toList],
      "kdc1.example.com".toList, "example.com".toList⟩)]
  domainRealm := [(".example.com".toList, "EXAMPLE.COM".toList)]
  dnsLookupKDC := true

theorem corporate_read_back : (parseKrb5Conf (renderKrb5Conf corporate)).Same corporate :=
  krb5Conf_read_back (by decide +kernel)

end NovaNas.Krb5.Conf
