import DnsConnector.AddressPlan
import DnsConnector.Forwarder
import DnsConnector.Responder
import DnsConnector.Settings

/-!
# DnsConnector.Services

From settings to a working connector.  Every part of the settings that is text
is read here once; what cannot be read is reported as an invalid setting.
Settings that pass `Settings.validate` can be put into service.
-/

namespace DnsConnector

/-! ## Invalid settings -/

/-- What is wrong with a setting. -/
inductive SettingFault where
  | portZero
  | network (text : String) (fault : NetworkFault)
  | plan (fault : PlanFault)
  | ignored (fault : CidrFault)
  | noServer
  | server (text : String)
  | peerAddress (text : String)
  | peerId (address : String)
deriving DecidableEq, Repr

namespace SettingFault

/-- The wording of a fault. -/
def message : SettingFault → String
  | .portZero => "DNS port cannot be 0"
  | .network text fault => "Invalid prefix '" ++ text ++ "': " ++ fault.message
  | .plan fault => fault.toFailure.message
  | .ignored fault => fault.toFailure.message
  | .noServer => "No upstream servers configured"
  | .server text => "Invalid upstream server '" ++ text ++ "': " ++ SocketAddress.malformed
  | .peerAddress text => "Invalid peer address '" ++ text ++ "': " ++ IpAddress.malformed
  | .peerId address => "Peer " ++ address ++ " has an empty id"

/-- A fault as it is reported. -/
def report (f : SettingFault) : String := "Configuration validation error: " ++ f.message

end SettingFault

namespace Settings

/-! ## Reading single settings -/

/-- The serviced networks. -/
def networks (s : Settings) : Except SettingFault (List (Network 32)) :=
  s.connector.networks.mapM fun text =>
    match Network.ofText4 text with
    | .ok n => .ok n
    | .error fault => .error (.network text fault)

/-- The address plan. -/
def plan (s : Settings) : Except SettingFault AddressPlan :=
  match s.networks with
  | .error f => .error f
  | .ok ns =>
    match AddressPlan.ofNetworks ns with
    | .ok p => .ok p
    | .error fault => .error (.plan fault)

/-- The filter of ignored destinations. -/
def filter (s : Settings) : Except SettingFault DestinationFilter :=
  match DestinationFilter.ofTexts s.connector.ignored with
  | .ok f => .ok f
  | .error fault => .error (.ignored fault)

/-- The name servers. -/
def nameServers (s : Settings) : Except SettingFault (List SocketAddress) :=
  s.resolver.servers.mapM fun text =>
    match SocketAddress.ofText? text with
    | some a => .ok a
    | none => .error (.server text)

/-- Checks an entry of the peer directory. -/
def checkPeer (e : PeerEntry) : Except SettingFault Unit :=
  if (IpAddress.ofText? e.address).isNone then .error (.peerAddress e.address)
  else if e.id.isEmpty then .error (.peerId e.address)
  else .ok ()

/-- Checks all settings and reports the first fault. -/
def validate (s : Settings) : Except SettingFault Unit := do
  if s.server.dnsPort = 0 then
    throw .portZero
  let _ ← s.plan
  let _ ← s.filter
  if s.resolver.servers.isEmpty then
    throw .noServer
  let _ ← s.nameServers
  s.identity.peers.forM checkPeer

/-! ## The address to listen on -/

/-- A listening address that is none. -/
structure BindFault where
  text : String
deriving DecidableEq, Repr

/-- The wording of a listening address that is none. -/
def BindFault.message (f : BindFault) : String :=
  "Invalid bind address '" ++ f.text ++ "': " ++ IpAddress.malformed

/-- Where to listen: at the configured address, which may bring a port of its
own, or else at the connector's DNS address. -/
def listenAddress (s : Settings) (dnsAddress : Ipv4) : Except BindFault SocketAddress :=
  match s.server.bindAddress with
  | none => .ok ⟨.v4 dnsAddress, s.server.dnsPort, 0⟩
  | some text =>
    match SocketAddress.ofText? text with
    | some a => .ok a
    | none =>
      match IpAddress.ofText? text with
      | some ip => .ok ⟨ip, s.server.dnsPort, 0⟩
      | none => .error ⟨text⟩

end Settings

/-! ## Exchanges -/

/-- The steps of an exchange with a name server. -/
inductive ExchangeStep where
  | bind
  | connect
  | send
  | receive
deriving DecidableEq, Repr

namespace ExchangeStep

/-- The wording of a step. -/
def text : ExchangeStep → String
  | .bind => "bind for"
  | .connect => "connect to"
  | .send => "send to"
  | .receive => "receive from"

/-- The failure of a step that the system reports. -/
def failure (step : ExchangeStep) (server : SocketAddress) (report : String) : Failure :=
  .temporary (step.text ++ " " ++ server.text ++ ": " ++ report)

end ExchangeStep

/-- What became of queries to name servers. -/
abbrev Exchanges := List ((SocketAddress × Octets) × Delivery)

/-- A server that answers what is known and nothing else. -/
def Exchanges.reach (known : Exchanges) (server : SocketAddress) : NameServer := fun query =>
  (known.lookup (server, query)).getD .silence

/-! ## Services -/

/-- Everything a running connector needs, read from its settings. -/
structure Services where
  plan : AddressPlan
  directory : PeerDirectory
  nameServers : List SocketAddress
  ignored : DestinationFilter
  book : AddressBook
  /-- How long a query to one server, and a whole look-up, may take. -/
  queryTimeout : Nat
  whoIsTimeout : Nat
  writeTimeout : Nat

/-- Why settings cannot be put into service. -/
inductive ServiceFault where
  | setting (fault : SettingFault)
  | peer (fault : PeerFault)
deriving DecidableEq, Repr

/-- The wording of a fault. -/
def ServiceFault.message : ServiceFault → String
  | .setting fault => fault.report
  | .peer fault => fault.toFailure.message

namespace Services

/-- The services of some settings, with an empty address book. -/
def ofSettings (s : Settings) : Except ServiceFault Services := do
  let plan ← s.plan.mapError .setting
  let directory ← (PeerDirectory.ofEntries s.identity.peers).mapError .peer
  let nameServers ← s.nameServers.mapError .setting
  let ignored ← s.filter.mapError .setting
  return {
    plan
    directory
    nameServers
    ignored
    book := AddressBook.empty plan.pool (SiteNetwork.ofSite s.connector.siteId)
      (s.connector.reclaimIdle.toNat * 1000)
    queryTimeout := s.resolver.queryTimeout.toNat
    whoIsTimeout := s.identity.whoIsTimeout.toNat
    writeTimeout := s.server.writeTimeout.toNat }

/-- The forwarder over the configured name servers.  `reach` says what becomes
of a query to an address, `identifier` which identifier each query has. -/
def forwarder (v : Services) (reach : SocketAddress → NameServer)
    (identifier : Nat → RecordType → UInt16) : Forwarder :=
  ⟨v.nameServers.map reach, v.queryTimeout, identifier⟩

/-- The policy of the connector.  The deadline of a whole look-up is the time
that one server may take. -/
def policy (v : Services) (f : Forwarder) : Policy SentQuery where
  whoIs source := .ready (v.directory.whoIs source)
  whoIsTimeout := v.whoIsTimeout
  lookup host := f.lookup .both host
  lookupTimeout := v.queryTimeout
  ignored := v.ignored

/-- The queries of a trace that have to be sent next: for each type the first
one that nothing is known about.  Those behind it may turn out to be needless. -/
def unsent (v : Services) (known : Exchanges) (trace : List SentQuery) :
    List (SocketAddress × Octets) :=
  let next? (type : RecordType) :=
    (trace.filterMap fun q =>
      match v.nameServers[q.server]? with
      | some a => if q.type = type ∧ known.lookup (a, q.octets) = none then some (a, q.octets) else none
      | none => none).head?
  [RecordType.a, .aaaa].filterMap next?

end Services

end DnsConnector
