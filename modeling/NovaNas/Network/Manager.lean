import NovaNas.Base.Directory
import NovaNas.Base.Fallible
import NovaNas.Base.Ip
import NovaNas.Base.Lines
import NovaNas.Base.Sorting

/-!
# The network manager

Interfaces, VLANs and bonds as files of systemd-networkd in one flat directory. All the files of
the manager begin with its prefix; what follows tells the names, and by suffixes also the parts of
VLANs and bonds. Writing works; the listing and the deletion of configurations are left out.
-/
namespace NovaNas.Network

open Fallible (failIf)
open Files (Directory)

abbrev Name := List Char

abbrev Dir := Directory Name Name

def byteLength (s : Name) : Nat := (s.map Char.utf8Size).sum

def line (s : Name) : Name := s ++ ['\n']

/-- A line that gives a key its value. -/
def pairLine (key value : Name) : Name := line (key ++ '=' :: value)

/-! ### Configurations -/

structure InterfaceConfig where
  name : Name
  matchName : Name
  dhcp : Name := []
  addresses : List Name := []
  gateway : Name := []
  dns : List Name := []
  domains : List Name := []
  mtu : Int64 := 0
  linkLocal : Name := []
  dryRun : Bool := false
  deriving DecidableEq, Repr

structure VLAN where
  name : Name
  parent : Name
  id : Int64
  address : Name := []
  dryRun : Bool := false
  deriving DecidableEq, Repr

structure Bond where
  name : Name
  mode : Name
  members : List Name
  address : Name := []
  miiMonSec : Int64 := 0
  dryRun : Bool := false
  deriving DecidableEq, Repr

inductive Config where
  | interface (c : InterfaceConfig)
  | vlan (v : VLAN)
  | bond (b : Bond)
  deriving DecidableEq, Repr

def Config.dryRun : Config → Bool
  | .interface c => c.dryRun
  | .vlan v => v.dryRun
  | .bond b => b.dryRun

/-! ### Validation -/

/-- The part of a request that an error message names. -/
inductive Place where
  | addresses (i : Nat)
  | gateway
  | dns (i : Nat)
  | parent
  | members (i : Nat)
  deriving DecidableEq, Repr

inductive Label where
  | name
  | matchName
  deriving DecidableEq, Repr

inductive Error where
  | required (label : Label)
  | tooLong (label : Label) (text : Name)
  | dash (label : Label) (text : Name)
  | invalidChar (label : Label) (c : Char) (text : Name)
  | dhcp (text : Name)
  | linkLocal (text : Name)
  | addressRequired
  | cidr (text : Name)
  | ipRequired
  | ip (text : Name)
  | mtu (value : Int64)
  | vlanID (value : Int64)
  | bondMode (text : Name)
  | noMembers
  | duplicate (text : Name)
  | miiMon
  | under (place : Place) (err : Error)
  | reload (text : String)
  deriving DecidableEq, Repr

def nameChar (c : Char) : Bool :=
  ('a' ≤ c && c ≤ 'z') || ('A' ≤ c && c ≤ 'Z') || ('0' ≤ c && c ≤ '9') || c == '_' || c == '-'

def validateText (label : Label) (ok : Char → Bool) (name : Name) : Except Error Unit := do
  failIf (name = []) (.required label)
  failIf (byteLength name > 64) (.tooLong label name)
  failIf (name.head? = some '-') (.dash label name)
  match name.find? fun c => !ok c with
  | some c => .error (.invalidChar label c name)
  | none => .ok ()

def validateConfigName (name : Name) : Except Error Unit := validateText .name nameChar name

def matchChar (c : Char) : Bool := nameChar c || c == '*' || c == '?'

def validateMatchName (name : Name) : Except Error Unit := validateText .matchName matchChar name

def dhcpValues : List Name := ["", "yes", "no", "ipv4", "ipv6"].map String.toList

def validateDHCP (s : Name) : Except Error Unit :=
  failIf (dhcpValues.contains s = false) (.dhcp s)

def linkLocalValues : List Name :=
  ["", "ipv6", "ipv4", "yes", "no", "fallback", "ipv4-fallback"].map String.toList

def validateLinkLocal (s : Name) : Except Error Unit :=
  failIf (linkLocalValues.contains s = false) (.linkLocal s)

def validateCIDR (c : Name) : Except Error Unit := do
  failIf (c = []) .addressRequired
  failIf ((Ip.parseCIDR c).isNone = true) (.cidr c)

def validateIP (s : Name) : Except Error Unit := do
  failIf (s = []) .ipRequired
  failIf ((Ip.parseIP s).isNone = true) (.ip s)

/-- Checks each entry of a list and says where one fails. -/
def validateEach (check : Name → Except Error Unit) (place : Nat → Place) (i : Nat) :
    List Name → Except Error Unit
  | [] => .ok ()
  | s :: rest => do
    (check s).mapError (.under (place i))
    validateEach check place (i + 1) rest

def validateInterfaceConfig (c : InterfaceConfig) : Except Error Unit := do
  validateConfigName c.name
  validateMatchName c.matchName
  validateDHCP c.dhcp
  validateLinkLocal c.linkLocal
  validateEach validateCIDR .addresses 0 c.addresses
  if c.gateway = [] then .ok () else (validateIP c.gateway).mapError (.under .gateway)
  validateEach validateIP .dns 0 c.dns
  failIf (c.mtu < 0 ∨ c.mtu > 65535) (.mtu c.mtu)

/-- An address may be left out. -/
def validateOptional (address : Name) : Except Error Unit :=
  if address = [] then .ok () else validateCIDR address

def validateVLAN (v : VLAN) : Except Error Unit := do
  validateConfigName v.name
  (validateMatchName v.parent).mapError (.under .parent)
  failIf (v.id < 1 ∨ v.id > 4094) (.vlanID v.id)
  validateOptional v.address

def validBondModes : List Name :=
  ["balance-rr", "active-backup", "balance-xor", "broadcast", "802.3ad", "balance-tlb",
    "balance-alb"].map String.toList

def validateMembers (seen : List Name) (i : Nat) : List Name → Except Error Unit
  | [] => .ok ()
  | m :: rest => do
    (validateMatchName m).mapError (.under (.members i))
    failIf (seen.contains m = true) (.under (.members i) (.duplicate m))
    validateMembers (seen ++ [m]) (i + 1) rest

def validateBond (b : Bond) : Except Error Unit := do
  validateConfigName b.name
  failIf (validBondModes.contains b.mode = false) (.bondMode b.mode)
  failIf (b.members = []) .noMembers
  validateMembers [] 0 b.members
  validateOptional b.address
  failIf (b.miiMonSec < 0) .miiMon

def Config.validate : Config → Except Error Unit
  | .interface c => validateInterfaceConfig c
  | .vlan v => validateVLAN v
  | .bond b => validateBond b

/-! ### Rendering -/

def nameKey : Name := "Name".toList

def matchHeader : Name := line "[Match]".toList

def networkHeader : Name := line "[Network]".toList

/-- The beginning of a `.network` file. -/
def matchSection (pattern : Name) : Name := matchHeader ++ pairLine nameKey pattern ++ line []

def addressSection (address : Name) : Name :=
  line [] ++ line "[Address]".toList ++ pairLine "Address".toList address

def renderNetworkFile (c : InterfaceConfig) : Name :=
  matchSection c.matchName ++ networkHeader ++
    (if c.dhcp = [] then [] else pairLine "DHCP".toList c.dhcp) ++
    c.dns.flatMap (pairLine "DNS".toList) ++
    (if c.domains = [] then [] else pairLine "Domains".toList (Text.join ' ' c.domains)) ++
    (if c.linkLocal = [] then [] else pairLine "LinkLocalAddressing".toList c.linkLocal) ++
    (if c.mtu > 0 then pairLine "MTUBytes".toList (Text.itoa c.mtu) else []) ++
    c.addresses.flatMap addressSection ++
    (if c.gateway = [] then []
      else line [] ++ line "[Route]".toList ++ pairLine "Gateway".toList c.gateway)

def netdevHeader (name kind : Name) : Name :=
  line "[NetDev]".toList ++ pairLine nameKey name ++ pairLine "Kind".toList kind ++ line []

def renderVLANNetdev (v : VLAN) : Name :=
  netdevHeader v.name "vlan".toList ++ line "[VLAN]".toList ++ pairLine "Id".toList (Text.itoa v.id)

def renderVLANParentNetwork (v : VLAN) : Name :=
  matchSection v.parent ++ networkHeader ++ pairLine "VLAN".toList v.name

/-- The `.network` file of a device of our own. -/
def renderDeviceNetwork (name address : Name) : Name :=
  matchSection name ++ networkHeader ++
    if address = [] then pairLine "DHCP".toList "yes".toList else addressSection address

def renderVLANNetwork (v : VLAN) : Name := renderDeviceNetwork v.name v.address

def renderBondNetdev (b : Bond) : Name :=
  netdevHeader b.name "bond".toList ++ line "[Bond]".toList ++ pairLine "Mode".toList b.mode ++
    if b.miiMonSec > 0 then pairLine "MIIMonitorSec".toList (Text.itoa b.miiMonSec ++ ['s']) else []

def renderBondNetwork (b : Bond) : Name := renderDeviceNetwork b.name b.address

def renderBondMemberNetwork (bondName memberName : Name) : Name :=
  matchSection memberName ++ networkHeader ++ pairLine "Bond".toList bondName

/-! ### The manager -/

structure Manager where
  filePrefix : Name := []
  /-- The error of `networkctl reload`. -/
  reloadError : Option String := none

def Manager.start (m : Manager) : Name :=
  if m.filePrefix = [] then "70-nova-".toList else m.filePrefix

def networkSuffix : Name := ".network".toList

def netdevSuffix : Name := ".netdev".toList

def memberInfix : Name := "-member-".toList

def parentSuffix : Name := "-parent".toList

def Manager.networkFile (m : Manager) (name : Name) : Name := m.start ++ name ++ networkSuffix

def Manager.netdevFile (m : Manager) (name : Name) : Name := m.start ++ name ++ netdevSuffix

def Manager.memberNetworkFile (m : Manager) (bondName memberName : Name) : Name :=
  m.start ++ bondName ++ memberInfix ++ memberName ++ networkSuffix

def Manager.parentFile (m : Manager) (name : Name) : Name :=
  m.start ++ name ++ parentSuffix ++ networkSuffix

def Manager.reload (m : Manager) : Except Error Unit :=
  match m.reloadError with
  | some text => .error (.reload text)
  | none => .ok ()

/-- The files of a configuration in the order in which they are written. -/
def Manager.files (m : Manager) : Config → List (Name × Name)
  | .interface c => [(m.networkFile c.name, renderNetworkFile c)]
  | .vlan v =>
    [(m.netdevFile v.name, renderVLANNetdev v), (m.parentFile v.name, renderVLANParentNetwork v),
      (m.networkFile v.name, renderVLANNetwork v)]
  | .bond b =>
    [(m.netdevFile b.name, renderBondNetdev b), (m.networkFile b.name, renderBondNetwork b)] ++
      Sorting.sortBy Prod.fst (b.members.map fun member =>
        (m.memberNetworkFile b.name member, renderBondMemberNetwork b.name member))

/-- What the three kinds have in common: nothing is written for a dry run. -/
def Manager.apply (m : Manager) (c : Config) (dir : Dir) : Except Error Unit × Dir :=
  match c.validate with
  | .error err => (.error err, dir)
  | .ok () => if c.dryRun then (.ok (), dir) else (m.reload, dir.writeAll (m.files c))

def Manager.applyBond (m : Manager) (b : Bond) (dir : Dir) : Except Error Unit × Dir :=
  m.apply (.bond b) dir

end NovaNas.Network
