import DnsConnector.Octets

/-!
# DnsConnector.Address

IPv4 and IPv6 addresses as words of 32 and 128 bits.  An IPv6 address below
`::ffff:0:0/96` stands for an IPv4 address; `IpAddress.canonical` replaces it
by the address it stands for, which is how a dual-stack socket's senders are
compared with configured ones.
-/

namespace DnsConnector

/-- An IPv4 address, most significant octet first. -/
abbrev Ipv4 := BitVec 32

/-- An IPv6 address, most significant group first. -/
abbrev Ipv6 := BitVec 128

/-- An address of either family. -/
inductive IpAddress where
  | v4 (address : Ipv4)
  | v6 (address : Ipv6)
deriving DecidableEq, Repr, Inhabited

/-! ## Parts of an address -/

namespace Ipv4

/-- The four octets in network order. -/
def octets (a : Ipv4) : Octets := Octets.bigEndian 4 a.toNat

/-- The address that four octets spell. -/
def ofOctets (bs : Octets) : Ipv4 := BitVec.ofNat 32 (Octets.ofBigEndian bs)

@[simp] theorem length_octets (a : Ipv4) : (octets a).length = 4 := by simp [octets]

@[simp] theorem ofOctets_octets (a : Ipv4) : ofOctets (octets a) = a := by
  have h : a.toNat < Nat.pow 256 4 := a.isLt
  simp [ofOctets, octets, Octets.ofBigEndian_bigEndian h]

end Ipv4

namespace Ipv6

/-- The sixteen octets in network order. -/
def octets (a : Ipv6) : Octets := Octets.bigEndian 16 a.toNat

/-- The address that sixteen octets spell. -/
def ofOctets (bs : Octets) : Ipv6 := BitVec.ofNat 128 (Octets.ofBigEndian bs)

/-- The eight groups of 16 bits. -/
def groups (a : Ipv6) : List Nat :=
  (List.range 8).map fun i => (a >>> (112 - 16 * i)).toNat % 65536

/-- The address of the given groups, most significant first. -/
def ofGroups (gs : List Nat) : Ipv6 :=
  BitVec.ofNat 128 (gs.foldl (fun n g => n * 65536 + g) 0)

/-- The IPv4 address an IPv4-mapped address stands for. -/
def mapped? (a : Ipv6) : Option Ipv4 :=
  if (a >>> 32).toNat = 0xffff then some (a.setWidth 32) else none

@[simp] theorem length_octets (a : Ipv6) : (octets a).length = 16 := by simp [octets]

@[simp] theorem ofOctets_octets (a : Ipv6) : ofOctets (octets a) = a := by
  have h : a.toNat < Nat.pow 256 16 := a.isLt
  simp [ofOctets, octets, Octets.ofBigEndian_bigEndian h]

end Ipv6

/-! ## Families and canonical form -/

namespace IpAddress

/-- The octets of the address in network order. -/
def octets : IpAddress → Octets
  | .v4 a => Ipv4.octets a
  | .v6 a => Ipv6.octets a

/-- Whether the address is an IPv4 address. -/
def isV4 : IpAddress → Bool
  | .v4 _ => true
  | .v6 _ => false

/-- Whether the address is an IPv6 address, IPv4-mapped ones included. -/
def isV6 (a : IpAddress) : Bool := !a.isV4

/-- The address with an IPv4-mapped one replaced by the address it stands for. -/
def canonical : IpAddress → IpAddress
  | .v4 a => .v4 a
  | .v6 a => match Ipv6.mapped? a with
    | some b => .v4 b
    | none => .v6 a

/-- Reducing once is enough. -/
@[simp] theorem canonical_canonical (a : IpAddress) : a.canonical.canonical = a.canonical := by
  cases a with
  | v4 a => rfl
  | v6 a =>
    cases h : Ipv6.mapped? a with
    | some b => simp [canonical, h]
    | none => simp [canonical, h]

end IpAddress

/-- The families of addresses an allocation is asked for. -/
inductive AddressFamily where
  | v4
  | v6
  | both
deriving DecidableEq, Repr, Inhabited

namespace AddressFamily

/-- Whether a request for the family has to be given an IPv4 address. -/
def needsV4 : AddressFamily → Bool
  | .v4 | .both => true
  | .v6 => false

/-- Whether an address belongs to the family. -/
def includes : AddressFamily → IpAddress → Bool
  | .v4, a => a.isV4
  | .v6, a => a.isV6
  | .both, _ => true

end AddressFamily

/-- An address and the UDP port of a socket there.  A scope tells apart the
links that use the same link-local IPv6 address; IPv4 sockets have scope 0. -/
structure SocketAddress where
  ip : IpAddress
  port : UInt16
  scope : UInt32 := 0
deriving DecidableEq, Repr, Inhabited

end DnsConnector
