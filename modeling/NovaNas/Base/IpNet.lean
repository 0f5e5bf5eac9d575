import NovaNas.Base.Ip

/-!
# IP networks

A network as the standard library of Go keeps it: the bytes of its first address, four for one that
is written with dots and sixteen for one with colons, and how many bits are its own.
-/
namespace NovaNas.Ip

structure Net where
  ip : Bytes
  ones : Nat
  deriving DecidableEq, Repr

/-- The first bits of a byte. -/
def maskByte (bits b : Nat) : Nat := b / 2 ^ (8 - min bits 8) * 2 ^ (8 - min bits 8)

/-- `ip.Mask(CIDRMask(bits, 8*len(ip)))` -/
def mask : Nat → Bytes → Bytes
  | _, [] => []
  | bits, b :: bs => maskByte bits b :: mask (bits - 8) bs

/-- `_, n, err := net.ParseCIDR(s)` -/
def parseNet (s : List Char) : Option Net :=
  (parseCIDR s).map fun (ip, bits) =>
    ⟨mask bits (if s.contains ':' then ip else ip.drop 12), bits⟩

/-- `ip.To4()`, or the address itself. -/
def short (ip : Bytes) : Bytes := if isV4 ip then ip.drop 12 else ip

/-- How many bits of the short form are the network's own. -/
def Net.shortOnes (net : Net) : Nat := if isV4 net.ip then net.ones - 96 else net.ones

/-- `n.Contains(ip)` -/
def Net.contains (net : Net) (ip : Bytes) : Bool :=
  (short ip).length = (short net.ip).length &&
    mask net.shortOnes (short net.ip) = mask net.shortOnes (short ip)

end NovaNas.Ip
