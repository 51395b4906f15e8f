import DnsConnector.AddressPlan
import DnsConnector.Fqdn
import DnsConnector.Peer
import DnsConnector.SiteNetwork

/-!
# DnsConnector.AddressBook

Which synthetic addresses belong to which peer and name.  A record has an IPv6
address for ever and an IPv4 address as long as nobody needs it more: once the
pool is used up, the IPv4 address of the least recently used record that has
been idle long enough goes to the next request.

The book is a pure transition system.  Time is an argument of every request, in
milliseconds since the book was opened.
-/

namespace DnsConnector

/-! ## Records -/

/-- What addresses are allocated for: a peer and a name. -/
structure AllocationKey where
  peer : PeerId
  name : Fqdn
deriving DecidableEq, Repr

namespace AllocationKey

/-- The key of a peer and the text of a name. -/
def ofText (peer : PeerId) (domain : String) : Except NameFault AllocationKey :=
  (Fqdn.ofText domain).map fun name => ⟨peer, name⟩

end AllocationKey

/-- The addresses of a key and the time of the last request for it. -/
structure Allocation where
  v4 : Option Ipv4
  v6 : Ipv6
  lastUsed : Nat
deriving DecidableEq, Repr

namespace Allocation

/-- The addresses, IPv4 first. -/
def addresses (r : Allocation) : List IpAddress :=
  (r.v4.map IpAddress.v4).toList ++ [.v6 r.v6]

end Allocation

/-! ## The queue of IPv4 holders -/

/-- An IPv4 address in use, the key it was given to, the number of that key's
allocation and the time of the last request for it when the holder was put into
the queue. -/
structure Holder where
  address : Ipv4
  key : AllocationKey
  number : Nat
  stamp : Nat
deriving DecidableEq, Repr

namespace Holder

/-- Puts a holder at the end of a queue, in which no address occurs twice. -/
def enqueue (queue : List Holder) (h : Holder) : List Holder :=
  queue.filter (·.address ≠ h.address) ++ [h]

/-- Looks for a holder to take the address from, for at most a number of steps.
A holder that was used since it was queued goes to the back, once; the first
other one gives its address if it has been idle long enough and stops the
search if not. -/
def search (lastUsed : Nat → Nat) (now idle : Nat) :
    Nat → List Holder → List Holder × Option Holder
  | 0, queue => (queue, none)
  | _ + 1, [] => ([], none)
  | steps + 1, h :: rest =>
    if h.stamp < lastUsed h.number then
      search lastUsed now idle steps (rest ++ [{ h with stamp := lastUsed h.number }])
    else if now - lastUsed h.number < idle then
      (h :: rest, none)
    else
      (rest, some h)

end Holder

/-! ## The book -/

/-- Why a request is refused. -/
inductive AllocationFault where
  /-- The text is no name. -/
  | badName (fault : NameFault)
  /-- There is no IPv4 address for the name. -/
  | noIpv4 (name : Fqdn)
  /-- All discriminators have been drawn. -/
  | noIpv6
deriving DecidableEq, Repr

namespace AllocationFault

/-- The failure of a refused request. -/
def toFailure : AllocationFault → Failure
  | .badName fault => fault.toFailure
  | .noIpv4 name => .poolExhausted ("no IPv4 address for " ++ name.text)
  | .noIpv6 => .poolExhausted "IPv6 discriminator space exhausted"

end AllocationFault

/-- All allocations and what is left to allocate. -/
structure AddressBook where
  pool : HostPool
  site : Network 128
  /-- How long a record has to be idle before it may lose its IPv4 address, in
  milliseconds. -/
  reclaimIdle : Nat
  /-- All allocations, in the order in which they were made. -/
  allocations : List Allocation
  /-- The number of the allocation of each key. -/
  records : Table AllocationKey Nat
  /-- The key that every allocated address belongs to. -/
  owners : Table IpAddress AllocationKey
  /-- How many addresses of the pool have been handed out, from the first on. -/
  handedOut : Nat
  /-- Addresses that were given back, which go first. -/
  recycled : List Ipv4
  /-- The holders of IPv4 addresses, least recently queued first. -/
  queue : List Holder
  /-- How many discriminators have been drawn. -/
  drawn : Nat

namespace AddressBook

/-- A book without records. -/
def empty (pool : HostPool) (site : Network 128) (reclaimIdle : Nat) : AddressBook :=
  { pool, site, reclaimIdle, allocations := [], records := ∅, owners := ∅, handedOut := 0
    recycled := [], queue := [], drawn := 0 }

/-- The idle time as it is compared: a count of milliseconds in 64 bits. -/
def idleLimit (b : AddressBook) : Nat := b.reclaimIdle.toUInt64.toNat

/-! ### Looking things up -/

/-- The number of records. -/
def size (b : AddressBook) : Nat := b.records.size

/-- Whether there is no record. -/
def isEmpty (b : AddressBook) : Bool := b.records.isEmpty

/-- How many IPv4 addresses can be handed out without taking one back. -/
def available (b : AddressBook) : Nat := b.pool.size - b.handedOut + b.recycled.length

/-- The key an address belongs to. -/
def owner? (b : AddressBook) (a : IpAddress) : Option AllocationKey := b.owners.get? a

/-- The name behind an address, if it belongs to the peer. -/
def nameFor? (b : AddressBook) (peer : PeerId) (a : IpAddress) : Option Fqdn :=
  ((b.owner? a).filter (·.peer = peer)).map (·.name)

/-- The IPv4 address of the allocation with a number. -/
def v4At (b : AddressBook) (i : Nat) : Option Ipv4 := b.allocations[i]?.bind (·.v4)

/-- The time of the last request for the allocation with a number. -/
def lastUsedAt (b : AddressBook) (i : Nat) : Nat := (b.allocations[i]?.map (·.lastUsed)).getD 0

/-- The addresses of the allocation with a number. -/
def addressesAt (b : AddressBook) (i : Nat) : List IpAddress :=
  (b.allocations[i]?.map (·.addresses)).getD []

/-! ### Small steps -/

/-- Changes the allocation with a number. -/
def change (b : AddressBook) (i : Nat) (f : Allocation → Allocation) : AddressBook :=
  { b with allocations := b.allocations.modify i f }

/-- Notes a request for the allocation with a number. -/
def touch (b : AddressBook) (i now : Nat) : AddressBook :=
  b.change i fun r => { r with lastUsed := max r.lastUsed now }

/-- Draws a discriminator. -/
def draw (b : AddressBook) : AddressBook := { b with drawn := b.drawn + 1 }

/-- Appends an allocation, which is filed under no key yet. -/
def add (b : AddressBook) (r : Allocation) : AddressBook :=
  { b with allocations := b.allocations ++ [r] }

/-- Files an allocation under a key. -/
def file (b : AddressBook) (k : AllocationKey) (i : Nat) (v6 : Ipv6) : AddressBook :=
  { b with owners := b.owners.insert (.v6 v6) k, records := b.records.insert k i }

/-- Takes the address from a holder that has left the queue. -/
def release (b : AddressBook) (h : Holder) : AddressBook :=
  { b.change h.number fun r => { r with v4 := none } with
    owners := b.owners.erase (.v4 h.address) }

/-- Makes an allocation of a key the holder of an IPv4 address. -/
def hold (b : AddressBook) (k : AllocationKey) (i : Nat) (a : Ipv4) : AddressBook :=
  { b.change i fun r => { r with v4 := some a } with
    queue := Holder.enqueue b.queue ⟨a, k, i, b.lastUsedAt i⟩
    owners := b.owners.insert (.v4 a) k }

/-! ### IPv4 addresses -/

/-- An address that nobody has held since it was given back, or ever. -/
def takeFree (b : AddressBook) : AddressBook × Option Ipv4 :=
  match b.recycled with
  | a :: rest => ({ b with recycled := rest }, some a)
  | [] =>
    match b.pool.get? b.handedOut with
    | some a => ({ b with handedOut := b.handedOut + 1 }, some a)
    | none => (b, none)

/-- Looks for a record that may lose its IPv4 address: the queue afterwards,
and the holder if there is one. -/
def findIdle (b : AddressBook) (now : Nat) : List Holder × Option Holder :=
  Holder.search b.lastUsedAt now b.idleLimit b.queue.length b.queue

/-- Takes back the IPv4 address of a record, if one has been idle long enough. -/
def reclaim (b : AddressBook) (now : Nat) : AddressBook × Option Ipv4 :=
  match b.findIdle now with
  | (queue, none) => ({ b with queue }, none)
  | (queue, some h) => ({ b with queue }.release h, some h.address)

/-- An IPv4 address for somebody who has none. -/
def obtainV4 (b : AddressBook) (now : Nat) : AddressBook × Option Ipv4 :=
  match b.takeFree with
  | (b, some a) => (b, some a)
  | (b, none) => b.reclaim now

/-- The IPv4 address of an allocation of a key, obtained if it has none. -/
def assignV4 (b : AddressBook) (k : AllocationKey) (i now : Nat) : AddressBook × Option Ipv4 :=
  match b.v4At i with
  | some a => (b, some a)
  | none =>
    match b.obtainV4 now with
    | (b, none) => (b, none)
    | (b, some a) => (b.hold k i a, some a)

/-! ### Requests -/

/-- Serves the first request for a key.  The discriminator is drawn first and
stays drawn even if there is no IPv4 address. -/
def create (b : AddressBook) (k : AllocationKey) (family : AddressFamily) (now : Nat) :
    AddressBook × Except AllocationFault (List IpAddress) :=
  let b := b.draw
  match SiteNetwork.address? b.site b.drawn with
  | none => (b, .error .noIpv6)
  | some v6 =>
    let i := b.allocations.length
    let b := b.add ⟨none, v6, now⟩
    if family.needsV4 then
      match b.assignV4 k i now with
      | (b, none) => ({ b with allocations := b.allocations.take i }, .error (.noIpv4 k.name))
      | (b, some _) => (b.file k i v6, .ok (b.addressesAt i))
    else
      (b.file k i v6, .ok (b.addressesAt i))

/-- Serves a later request for a key. -/
def renew (b : AddressBook) (k : AllocationKey) (i : Nat) (family : AddressFamily) (now : Nat) :
    AddressBook × Except AllocationFault (List IpAddress) :=
  let b := b.touch i now
  if family.needsV4 then
    match b.assignV4 k i now with
    | (b, none) => (b, .error (.noIpv4 k.name))
    | (b, some _) => (b, .ok (b.addressesAt i))
  else
    (b, .ok (b.addressesAt i))

/-- The addresses of a peer and a name, allocated if need be.  A request for
IPv6 only is not refused for want of IPv4 addresses. -/
def request (b : AddressBook) (peer : PeerId) (domain : String) (family : AddressFamily)
    (now : Nat) : AddressBook × Except AllocationFault (List IpAddress) :=
  match AllocationKey.ofText peer domain with
  | .error fault => (b, .error (.badName fault))
  | .ok k =>
    match b.records.get? k with
    | none => b.create k family now
    | some i => b.renew k i family now

end AddressBook

end DnsConnector
