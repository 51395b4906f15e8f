import DnsConnector.Timed
import DnsConnector.Wire.Lookup
import DnsConnector.Wire.Reply

/-!
# DnsConnector.Forwarder

Looking up real addresses by asking name servers.  The servers are asked in
order; the first definitive reply, success or "no such name", ends the search,
and every other outcome moves on to the next server.  The queries for the two
families run side by side, and an address found for one family is never hidden
by a failure of the other.
-/

namespace DnsConnector

open Wire

/-! ## Servers -/

/-- What becomes of a query that was sent to a server. -/
inductive Delivery where
  | reply (delay : Nat) (octets : Octets)
  | failure (delay : Nat) (reason : Failure)
  /-- Nothing ever comes back. -/
  | silence
deriving DecidableEq, Repr

/-- A name server, as the answer it has for every query. -/
abbrev NameServer := Octets → Delivery

namespace Delivery

/-- What is received in the time allowed. -/
def received {ε : Type} (timeout : Nat) : Delivery → Timed ε (Except Failure Octets)
  | .reply delay octets =>
    ((Timed.after delay octets).within timeout).map fun
      | some bs => .ok bs
      | none => .error .queryTimeout
  | .failure delay reason =>
    ((Timed.after delay reason).within timeout).map fun
      | some f => .error f
      | none => .error .queryTimeout
  | .silence => .after timeout (.error .queryTimeout)

end Delivery

/-- A query that was sent. -/
structure SentQuery where
  /-- The number of the server, from zero. -/
  server : Nat
  type : RecordType
  octets : Octets
deriving DecidableEq, Repr

/-! ## Asking -/

/-- The servers to ask, in order, and how long each may take. -/
structure Forwarder where
  servers : List NameServer
  timeout : Nat
  /-- The identifier of the query for a type that goes to a server. -/
  identifier : Nat → RecordType → UInt16

namespace Forwarder

/-- Whether an address belongs to the records of a type. -/
def isOfType (type : RecordType) (a : IpAddress) : Bool :=
  match type with
  | .a => a.isV4
  | _ => a.isV6

/-- The failure of a reply to some other query. -/
def foreignReply (received sent : UInt16) : Failure :=
  .temporary ("response ID " ++ toString received.toNat ++ " does not match query ID " ++
    toString sent.toNat)

/-- The addresses of a type in what was received for a query. -/
def readReply (id : UInt16) (type : RecordType) (octets : Octets) :
    Except Failure (List IpAddress) :=
  match Reply.parse octets with
  | .error f => .error f
  | .ok reply =>
    if reply.id ≠ id then
      .error (foreignReply reply.id id)
    else
      match reply.classify with
      | .error f => .error f
      | .ok () => .ok (reply.addresses.filter (isOfType type))

/-- Asks one server. -/
def exchange (f : Forwarder) (server : Nat) (ask : NameServer) (host : String)
    (type : RecordType) : Timed SentQuery (Except Failure (List IpAddress)) :=
  let id := f.identifier server type
  match Lookup.ofHost id host type with
  | .error e => .ready (.error e)
  | .ok query =>
    (Timed.emit ⟨server, type, query⟩).bind fun _ =>
      ((ask query).received f.timeout).map fun
        | .error e => .error e
        | .ok octets => readReply id type octets

/-- Whether the outcome of an exchange ends the search. -/
def isFinal : Except Failure (List IpAddress) → Bool
  | .ok _ => true
  | .error e => e.isNotFound

/-- Asks servers in order until one gives a final outcome; `last` is the outcome
if there is none left to ask. -/
def askFrom (f : Forwarder) (host : String) (type : RecordType) :
    Nat → List NameServer → Except Failure (List IpAddress) →
      Timed SentQuery (Except Failure (List IpAddress))
  | _, [], last => .ready last
  | server, ask :: more, _ =>
    (f.exchange server ask host type).bind fun outcome =>
      if isFinal outcome then .ready outcome
      else askFrom f host type (server + 1) more outcome

/-- The outcome of a search without servers. -/
def noServers : Failure := .temporary "no upstream servers"

/-- The outcome of asking the servers for one type. -/
def ask (f : Forwarder) (host : String) (type : RecordType) :
    Timed SentQuery (Except Failure (List IpAddress)) :=
  f.askFrom host type 0 f.servers (.error noServers)

/-! ## Putting the families together -/

/-- All addresses found. -/
def found (outcomes : List (Except Failure (List IpAddress))) : List IpAddress :=
  outcomes.flatMap fun
    | .ok as => as
    | .error _ => []

/-- The last failure other than "no such name". -/
def lastFailure (outcomes : List (Except Failure (List IpAddress))) : Option Failure :=
  (outcomes.filterMap fun
    | .ok _ => none
    | .error e => if e.isNotFound then none else some e).getLast?

/-- The outcome of the queries for several families: what was found, else the
last failure, else "no such name". -/
def merge (outcomes : List (Except Failure (List IpAddress))) :
    Except Failure (List IpAddress) :=
  if !(found outcomes).isEmpty then
    .ok (found outcomes)
  else
    match lastFailure outcomes with
    | some e => .error e
    | none => .error .nxDomain

/-- Looks up the addresses of a host. -/
def lookup (f : Forwarder) (family : AddressFamily) (host : String) :
    Timed SentQuery (Except Failure (List IpAddress)) :=
  match family with
  | .v4 => (f.ask host .a).map fun r => merge [r]
  | .v6 => (f.ask host .aaaa).map fun r => merge [r]
  | .both => ((f.ask host .a).both (f.ask host .aaaa)).map fun (r4, r6) => merge [r4, r6]

end Forwarder

end DnsConnector
