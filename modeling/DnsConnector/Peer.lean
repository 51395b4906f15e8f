import DnsConnector.Address.Text
import DnsConnector.Failure
import DnsConnector.Table

/-!
# DnsConnector.Peer

Who sent a datagram.  The directory knows peers by the address they send from;
ports and scopes do not matter, and an IPv4-mapped IPv6 address counts as the
IPv4 address it stands for, both in the directory and in a datagram.
-/

namespace DnsConnector

/-- The stable identifier of a participant. -/
structure PeerId where
  text : String
deriving DecidableEq, Repr, Inhabited

namespace PeerId

/-- The order of the identifiers' octets, which for UTF-8 is the order of
their code points. -/
def compare (p q : PeerId) : Ordering := Ord.compare p.text q.text

end PeerId

/-- A line of the configured directory. -/
structure PeerEntry where
  address : String
  id : String
deriving DecidableEq, Repr

/-- An entry whose address is none. -/
structure PeerFault where
  address : String
deriving DecidableEq, Repr

namespace PeerFault

/-- The failure names the address. -/
def toFailure (f : PeerFault) : Failure :=
  .invalidIpAddress (f.address ++ ": " ++ IpAddress.malformed)

end PeerFault

/-- The known peers by canonical address. -/
structure PeerDirectory where
  peers : Table IpAddress PeerId

namespace PeerDirectory

instance : EmptyCollection PeerDirectory := ⟨⟨∅⟩⟩

/-- Adds an entry; a later one for the same address replaces an earlier one. -/
def addEntry (d : PeerDirectory) (e : PeerEntry) : Except PeerFault PeerDirectory :=
  match IpAddress.ofText? e.address with
  | some a => .ok ⟨d.peers.insert a.canonical ⟨e.id⟩⟩
  | none => .error ⟨e.address⟩

/-- The directory of a list of entries. -/
def ofEntries (es : List PeerEntry) : Except PeerFault PeerDirectory :=
  es.foldlM addEntry ∅

/-- The number of known addresses. -/
def size (d : PeerDirectory) : Nat := d.peers.size

/-- Whether no address is known. -/
def isEmpty (d : PeerDirectory) : Bool := d.peers.isEmpty

/-- The peer at an address. -/
def find? (d : PeerDirectory) (a : IpAddress) : Option PeerId := d.peers.get? a.canonical

/-- The peer that a socket address belongs to. -/
def whoIs (d : PeerDirectory) (source : SocketAddress) : Except Failure PeerId :=
  match d.find? source.ip with
  | some p => .ok p
  | none => .error (.peerNotFound source.ip.canonical.text)

end PeerDirectory

end DnsConnector
