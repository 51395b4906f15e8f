import DnsConnector.Connector
import DnsConnector.Services
import Std.Async.Select
import Std.Async.Signal
import Std.Async.Timer
import Std.Async.UDP

/-!
# DnsConnector.Udp

The connector on real sockets.  What to do is decided by `Connector.feed`,
`Connector.finish` and the policy of the services; this module moves octets and
waits.
-/

namespace DnsConnector.Udp

open Std.Async

/-! ## Addresses and failures -/

/-- A socket address as the system takes it, without a scope. -/
def toSystem (a : SocketAddress) : Std.Net.SocketAddress :=
  match a.ip with
  | .v4 ip =>
    let octets := Ipv4.octets ip
    .v4 ⟨⟨.ofFn fun i => octets.getD i 0⟩, a.port⟩
  | .v6 ip => .v6 ⟨⟨.ofFn fun i => UInt16.ofNat (ip.toNat >>> (112 - 16 * i.toNat))⟩, a.port⟩

/-- A socket address as the system gives it. -/
def ofSystem : Std.Net.SocketAddress → SocketAddress
  | .v4 a => ⟨.v4 (Ipv4.ofOctets a.addr.octets.toList), a.port, 0⟩
  | .v6 a => ⟨.v6 (Ipv6.ofOctets (a.addr.segments.toList.flatMap Octets.word16)), a.port, 0⟩

/-- The number that the system gives to an error, or zero. -/
def errorNumber : IO.Error → UInt32
  | .alreadyExists _ n _ | .otherError n _ | .resourceBusy n _ | .resourceVanished n _
  | .unsupportedOperation n _ | .hardwareFault n _ | .unsatisfiedConstraints n _
  | .illegalOperation n _ | .protocolError n _ | .timeExpired n _ | .interrupted _ n _
  | .noFileOrDirectory _ n _ | .invalidArgument _ n _ | .permissionDenied _ n _
  | .resourceExhausted _ n _ | .inappropriateType _ n _ | .noSuchThing _ n _ => n
  | .unexpectedEof | .userError _ => 0

/-- How a socket failed.  Numbers of errors may come with a negative sign. -/
def socketFault (e : IO.Error) : SocketFault :=
  match (errorNumber e).toInt32.toInt.natAbs with
  | 4 => .interrupted
  | 111 => .refused
  | 104 => .reset
  | 11 => .wouldBlock
  | 32 => .brokenPipe
  | 1 | 13 => .denied
  | 110 => .timedOut
  | 99 => .addressNotAvailable
  | _ => .other

/-! ## Asking name servers -/

/-- The address to send from when asking a server. -/
def localAddress (server : SocketAddress) : SocketAddress :=
  if server.ip.isV4 then ⟨.v4 0, 0, 0⟩ else ⟨.v6 0, 0, 0⟩

/-- The most that is read of a reply. -/
def replyLimit : Nat := 4096

/-- Waits for a time in milliseconds. -/
def timer (time : Nat) : Async (Selector Unit) :=
  return (← Sleep.mk (.ofNat time)).selector

/-- A socket at an address. -/
def openSocket (address : SocketAddress) : Async UDP.Socket := do
  let socket ← UDP.Socket.mk
  socket.bind (toSystem address)
  return socket

/-- Takes a step of an exchange, which may fail. -/
def attempt (step : ExchangeStep) (server : SocketAddress) (action : Async α) :
    Async (Except Failure α) := do
  try
    return .ok (← action)
  catch e => return .error (step.failure server (toString e))

/-- Waits for a reply, but not for ever. -/
def await (socket : UDP.Socket) (timeout : Nat) : Async (Option Octets) := do
  Selectable.one #[
    .case (socket.recvSelector replyLimit.toUInt64) fun (octets, _) => pure (some octets.toList),
    .case (← timer timeout) fun _ => pure none]

/-- Sends a query from a socket of its own and waits for the reply. -/
def converse (server : SocketAddress) (query : Octets) (timeout : Nat) :
    ExceptT Failure Async (Option Octets) := do
  let socket ← ExceptT.mk (attempt .bind server (openSocket (localAddress server)))
  ExceptT.mk (attempt .connect server (socket.connect (toSystem server)))
  ExceptT.mk (attempt .send server (socket.send ⟨query.toArray⟩))
  ExceptT.mk (attempt .receive server (await socket timeout))

/-- What becomes of a query. -/
def deliver (server : SocketAddress) (query : Octets) (timeout : Nat) : Async Delivery := do
  let start ← IO.monoMsNow
  let outcome ← converse server query timeout
  let delay := (← IO.monoMsNow) - start
  match outcome with
  | .ok (some octets) => return .reply delay octets
  | .ok none => return .silence
  | .error failure => return .failure delay failure

/-- Decides about a datagram.  The decision is worked out with what is known;
queries that turn up unanswered on the way are sent, and it is worked out again.
Every round but the last one learns about another query. -/
def draft (v : Services) (identifier : Nat → RecordType → UInt16) (datagram : Octets)
    (source : SocketAddress) : (rounds : Nat) → Exchanges → Async (Option Draft)
  | 0, _ => return none
  | rounds + 1, known => do
    let run := (v.policy (v.forwarder known.reach identifier)).draft datagram source
    match v.unsent known run.trace with
    | [] => return run.result
    | queries =>
      let learned ← Async.concurrentlyAll (queries.toArray.map fun (server, query) => do
        return ((server, query), ← deliver server query v.queryTimeout))
      draft v identifier datagram source rounds (learned.toList ++ known)

/-! ## Serving -/

/-- What the tasks of a running connector share. -/
structure Station where
  services : Services
  socket : UDP.Socket
  connector : IO.Ref Connector
  /-- When the connector was started. -/
  start : Nat

namespace Station

/-- Takes the connector to its next state. -/
def advance (s : Station) (next : Connector → Connector × List Listener.Action) :
    Async (List Listener.Action) :=
  s.connector.modifyGet fun c => let (c, actions) := next c; (actions, c)

/-- Writes a response, if that does not take too long. -/
def write (s : Station) (task : Nat) (response : Octets) (destination : SocketAddress) :
    Async Unit := do
  let send : Async Bool := do
    try
      s.socket.send ⟨response.toArray⟩ (some (toSystem destination))
      return true
    catch _ => return false
  let giveUp : Async Bool := do
    (← Sleep.mk (.ofNat s.services.writeTimeout)).wait
    return false
  let success ← Async.race send giveUp
  let _ ← s.advance fun c => c.feed (if success then .written task else .unwritten task)

/-- Sees a datagram through to the end of its task. -/
def handle (s : Station) (task : Nat) (datagram : Octets) (source : SocketAddress) :
    Async Unit := do
  let servers := s.services.nameServers.length
  let identifiers ← (List.range (2 * servers)).mapM fun _ => IO.rand 0 65535
  let identifier (server : Nat) (type : RecordType) : UInt16 :=
    UInt16.ofNat (identifiers.getD (2 * server + if type = .a then 0 else 1) 0)
  let draft ← draft s.services identifier datagram source (2 * servers + 1) []
  let now := (← IO.monoMsNow) - s.start
  for action in ← s.advance fun c => c.finish task draft now do
    match action with
    | .write task response destination => s.write task response destination
    | _ => pure ()

/-- Passes an event on and starts the task that it brings about. -/
def feed (s : Station) (e : Listener.Event) : Async Unit := do
  for action in ← s.advance fun c => c.feed e do
    match action with
    | .handle task datagram source => background (s.handle task datagram source)
    | _ => pure ()

/-- What comes next from outside: a datagram, a failure, or a request to stop. -/
def next (s : Station) (stop : Selector Unit) : Async (Listener.Event × Option IO.Error) := do
  try
    Selectable.one #[
      .case stop fun _ => pure (.cancel, none),
      .case (s.socket.recvSelector Listener.datagramLimit.toUInt64) fun (octets, source) =>
        pure (.datagram octets.toList ((source.map ofSystem).getD default), none)]
  catch e => return (.fault (socketFault e), some e)

/-- Listens until told to stop or until the socket fails. -/
partial def listen (s : Station) (stop : Selector Unit) : Async Unit := do
  let (event, error) ← s.next stop
  s.feed event
  match (← s.connector.get).listener.result?, error with
  | none, _ => s.listen stop
  | some (.error _), some e => throw e
  | some _, _ => return ()

end Station

/-- Serves at an address until interrupted. -/
def serve (v : Services) (address : SocketAddress) : IO Unit := do
  let socket ← (openSocket address).block
  let connector ← IO.mkRef ⟨Listener.start none, v.book⟩
  let station : Station := ⟨v, socket, connector, ← IO.monoMsNow⟩
  let interrupt ← Signal.Waiter.mk .sigint false
  (station.listen interrupt.selector).block

end DnsConnector.Udp
