import DnsConnector.Failure
import DnsConnector.Network.Text

/-!
# DnsConnector.AddressPlan

From the serviced IPv4 networks to the routes, the connector's own DNS address
and the pool of addresses it may hand out.  The DNS address is the first host
of the first network; the pool holds every other host of every network, that
is, all addresses but the lowest and the highest of each.

A pool is stored as ranges, so that a /8 does not cost sixteen million list
cells; `HostPool.toList` is its enumeration.
-/

namespace DnsConnector

/-! ## Ranges of hosts -/

/-- The addresses from `first` to `last`, both included. -/
structure HostRange where
  first : Ipv4
  last : Ipv4
deriving DecidableEq, Repr

namespace HostRange

/-- The hosts of a network: all addresses but the lowest and the highest. -/
def ofNetwork (n : Network 32) : HostRange := ⟨n.first + 1, n.last - 1⟩

/-- The number of addresses in the range. -/
def size (r : HostRange) : Nat := (r.last - r.first).toNat + 1

/-- Whether an address lies in the range. -/
def contains (r : HostRange) (a : Ipv4) : Bool := r.first ≤ a && a ≤ r.last

/-- The addresses in ascending order. -/
def toList (r : HostRange) : List Ipv4 :=
  (List.range r.size).map fun i => r.first + BitVec.ofNat 32 i

@[simp] theorem length_toList (r : HostRange) : r.toList.length = r.size := by simp [toList]

end HostRange

/-! ## The pool -/

/-- The addresses that may be handed out, in the order in which they are. -/
structure HostPool where
  ranges : List HostRange
deriving DecidableEq, Repr, Inhabited

namespace HostPool

/-- The number of addresses in ranges. -/
def sizeIn : List HostRange → Nat
  | [] => 0
  | r :: rs => r.size + sizeIn rs

/-- The number of addresses. -/
def size (p : HostPool) : Nat := sizeIn p.ranges

/-- Whether there is no address. -/
def isEmpty (p : HostPool) : Bool := p.size == 0

/-- The address number `i` of consecutive ranges. -/
def getIn : List HostRange → Nat → Option Ipv4
  | [], _ => none
  | r :: rs, i =>
    if i < r.size then some (r.first + BitVec.ofNat 32 i) else getIn rs (i - r.size)

/-- The address number `i`, counted from zero. -/
def get? (p : HostPool) (i : Nat) : Option Ipv4 := getIn p.ranges i

/-- Whether an address is in the pool. -/
def contains (p : HostPool) (a : Ipv4) : Bool := p.ranges.any (·.contains a)

/-- All addresses, range by range. -/
def toList (p : HostPool) : List Ipv4 := p.ranges.flatMap HostRange.toList

theorem length_flatMap_toList (rs : List HostRange) :
    (rs.flatMap HostRange.toList).length = sizeIn rs := by
  induction rs with
  | nil => rfl
  | cons r rs ih => simp [sizeIn, ih]

/-- The size is the number of addresses enumerated. -/
@[simp] theorem length_toList (p : HostPool) : p.toList.length = p.size :=
  length_flatMap_toList p.ranges

theorem getIn_eq_getElem? (rs : List HostRange) (i : Nat) :
    getIn rs i = (rs.flatMap HostRange.toList)[i]? := by
  induction rs generalizing i with
  | nil => simp [getIn]
  | cons r rs ih =>
    rw [getIn, List.flatMap_cons, List.getElem?_append]
    by_cases h : i < r.size
    · simp [h, HostRange.toList]
    · simp [h, ih]

/-- Looking up a position reads the enumeration. -/
theorem get?_eq_getElem?_toList (p : HostPool) (i : Nat) : p.get? i = p.toList[i]? :=
  getIn_eq_getElem? p.ranges i

end HostPool

/-! ## The plan -/

/-- Why networks cannot be serviced together. -/
inductive PlanFault where
  /-- There is no network at all. -/
  | noNetwork
  /-- A network has no host that could be handed out. -/
  | noHost (network : Network 32)
  /-- There is no network of the lowest address and the length of the given one. -/
  | unmade (network : Network 32) (fault : NetworkFault)
  /-- A network shares addresses with an earlier one. -/
  | overlap (network earlier : Network 32)
deriving DecidableEq, Repr

namespace PlanFault

/-- The wording of a fault. -/
def message : PlanFault → String
  | .noNetwork => "at least one IPv4 prefix is required"
  | .noHost n => "prefix " ++ Network.text4 n ++ " has no usable host addresses"
  | .unmade n fault => Network.text4 n ++ ": " ++ fault.message
  | .overlap n earlier => "prefix " ++ Network.text4 n ++ " overlaps " ++ Network.text4 earlier

/-- A plan that cannot be made is a configuration error, and a route that cannot be
made is an invalid network. -/
def toFailure (f : PlanFault) : Failure :=
  match f with
  | .unmade _ _ => .invalidCidr f.message
  | _ => .config f.message

end PlanFault

/-- What the connector announces, listens on and hands out. -/
structure AddressPlan where
  routes : List (Network 32)
  dnsAddress : Ipv4
  pool : HostPool
deriving DecidableEq, Repr

namespace AddressPlan

/-- The longest network length that leaves a host. -/
def longestLength : Nat := 30

/-- Adds a network to routes that are already serviced. -/
def addRoute (routes : List (Network 32)) (n : Network 32) :
    Except PlanFault (List (Network 32)) :=
  if longestLength < n.length then
    .error (.noHost n)
  else
    match Network.ofLength? n.first n.length with
    | .error fault => .error (.unmade n fault)
    | .ok route =>
      match routes.find? (·.overlaps route) with
      | some earlier => .error (.overlap route earlier)
      | none => .ok (routes ++ [route])

/-- The route of a network is the network without host bits, which can always be
made. -/
theorem addRoute_eq (routes : List (Network 32)) (n : Network 32) :
    addRoute routes n =
      if longestLength < n.length then .error (.noHost n)
      else
        match routes.find? (·.overlaps n.masked) with
        | some earlier => .error (.overlap n.masked earlier)
        | none => .ok (routes ++ [n.masked]) := by
  rw [addRoute, Network.ofLength?_first]

/-- The plan for checked routes. -/
def ofRoutes (route : Network 32) (more : List (Network 32)) : AddressPlan :=
  let hosts := HostRange.ofNetwork route
  { routes := route :: more
    dnsAddress := hosts.first
    pool := ⟨⟨hosts.first + 1, hosts.last⟩ :: more.map HostRange.ofNetwork⟩ }

/-- The plan for the given networks, host bits allowed. -/
def ofNetworks (ns : List (Network 32)) : Except PlanFault AddressPlan :=
  match ns.foldlM addRoute [] with
  | .error f => .error f
  | .ok [] => .error .noNetwork
  | .ok (route :: more) => .ok (ofRoutes route more)

end AddressPlan

end DnsConnector
