import DnsConnector.Address
import DnsConnector.Octets
import DnsConnector.Table

/-!
# DnsConnector.Listener

Answering the datagrams of a socket.  A listener is a machine that is driven by
events: what the socket delivers, how far its own tasks have come, and
cancellation.  Every datagram becomes a task, which asks for one response and
writes it once, to where the datagram came from.

A failing socket ends the reading and leaves the tasks alone.  Cancellation is a
token that fires.  By itself this does nothing: the reading and every task also
wait for the token, and end when they look at it after it has fired.  Whoever
goes on when both the token and what else it waits for are ready may look at
either of them first, so what follows `cancel` may be `stop` or another
datagram, and `abandon` or the response of the task.
-/

namespace DnsConnector

/-! ## Failures of the socket -/

/-- How a socket fails. -/
inductive SocketFault where
  | interrupted
  | refused
  | reset
  | wouldBlock
  | brokenPipe
  | denied
  | timedOut
  | addressNotAvailable
  | other
deriving DecidableEq, Repr

namespace SocketFault

/-- The failures that leave the socket as it was: an interruption, nothing to
read, and reports about a datagram sent earlier. -/
def isTransient : SocketFault → Bool
  | .interrupted | .refused | .reset | .wouldBlock => true
  | _ => false

end SocketFault

namespace Listener

/-! ## Events and actions -/

/-- What happens to a listener. -/
inductive Event where
  /-- The reading goes on with a datagram that came in. -/
  | datagram (octets : Octets) (source : SocketAddress)
  /-- The reading goes on with a failure instead of a datagram. -/
  | fault (fault : SocketFault)
  /-- The token fires. -/
  | cancel
  /-- The reading looks at the token. -/
  | stop
  /-- A task goes on for the first time. -/
  | started (task : Nat)
  /-- A task goes on with its response, or with the news that there is none. -/
  | handled (task : Nat) (response : Option Octets)
  /-- A task goes on with its response written. -/
  | written (task : Nat)
  /-- A task goes on with its response not written, or not in time. -/
  | unwritten (task : Nat)
  /-- A task looks at the token. -/
  | abandon (task : Nat)
deriving DecidableEq, Repr

/-- What a listener does about an event. -/
inductive Action where
  /-- Asks for the response to a datagram. -/
  | handle (task : Nat) (datagram : Octets) (source : SocketAddress)
  /-- Starts to write a response. -/
  | write (task : Nat) (response : Octets) (destination : SocketAddress)
  /-- Reports a response that has been written. -/
  | sent (task : Nat) (response : Octets) (destination : SocketAddress)
deriving DecidableEq, Repr

/-! ## The listener -/

/-- Whether a listener reads, and why it does not. -/
inductive Status where
  | listening
  | cancelled
  | failed (fault : SocketFault)
deriving DecidableEq, Repr

/-- How far a datagram has been answered. -/
inductive Stage where
  /-- The datagram was read. -/
  | fresh (datagram : Octets)
  /-- The response was asked for. -/
  | waiting
  /-- The response is being written. -/
  | writing (response : Octets)
deriving DecidableEq, Repr

/-- A datagram that is being answered. -/
structure Task where
  source : SocketAddress
  stage : Stage
deriving DecidableEq, Repr

end Listener

/-- A listener: its status, whether the token has fired, how many datagrams it
has read, and the tasks that are not over, by their numbers. -/
structure Listener where
  status : Listener.Status
  fired : Bool
  /-- Where datagrams are received, each over the ones before it. -/
  buffer : Octets
  received : Nat
  tasks : Table Nat Listener.Task
deriving Repr

namespace Listener

/-- The most that is read of a datagram; the rest of a longer one is lost. -/
def datagramLimit : Nat := 4096

/-- A listener on a socket, which has to have an address to begin with. -/
def start (addressFault : Option SocketFault) : Listener where
  status :=
    match addressFault with
    | none => .listening
    | some fault => .failed fault
  fired := false
  buffer := .replicate datagramLimit 0
  received := 0
  tasks := ∅

/-- Whether datagrams are read. -/
def isListening (l : Listener) : Bool := l.status = .listening

/-- How listening ended, if it did. -/
def result? (l : Listener) : Option (Except SocketFault Unit) :=
  match l.status with
  | .listening => none
  | .cancelled => some (.ok ())
  | .failed fault => some (.error fault)

/-- A buffer into which a datagram was received, as much of it as there is room
for, and how many octets were. -/
def receive (buffer octets : Octets) : Octets × Nat :=
  let length := min octets.length buffer.length
  (octets.take length ++ buffer.drop length, length)

/-- Reads a datagram.  Its task has a copy of it. -/
def read (l : Listener) (octets : Octets) (source : SocketAddress) : Listener :=
  let (buffer, length) := receive l.buffer octets
  { l with
    buffer
    received := l.received + 1
    tasks := l.tasks.insert l.received ⟨source, .fresh (buffer.take length)⟩ }

/-- Goes on with a task that was only started. -/
def begin (l : Listener) (task : Nat) : Listener × List Action :=
  match l.tasks.get? task with
  | some ⟨source, .fresh datagram⟩ =>
    ({ l with tasks := l.tasks.insert task ⟨source, .waiting⟩ }, [.handle task datagram source])
  | _ => (l, [])

/-- Goes on with a task whose response is known. -/
def respond (l : Listener) (task : Nat) (response : Option Octets) : Listener × List Action :=
  match l.tasks.get? task, response with
  | some ⟨source, .waiting⟩, some bs =>
    ({ l with tasks := l.tasks.insert task ⟨source, .writing bs⟩ }, [.write task bs source])
  | some ⟨_, .waiting⟩, none => ({ l with tasks := l.tasks.erase task }, [])
  | _, _ => (l, [])

/-- Ends a task whose response was being written. -/
def conclude (l : Listener) (task : Nat) (success : Bool) : Listener × List Action :=
  match l.tasks.get? task with
  | some ⟨source, .writing bs⟩ =>
    ({ l with tasks := l.tasks.erase task }, if success then [.sent task bs source] else [])
  | _ => (l, [])

/-- What a listener does about an event. -/
def step (l : Listener) : Event → Listener × List Action
  | .datagram octets source => (if l.isListening then l.read octets source else l, [])
  | .fault fault =>
    (if l.isListening && !fault.isTransient then { l with status := .failed fault } else l, [])
  | .cancel => ({ l with fired := true }, [])
  | .stop => (if l.isListening && l.fired then { l with status := .cancelled } else l, [])
  | .started task => l.begin task
  | .handled task response => l.respond task response
  | .written task => l.conclude task true
  | .unwritten task => l.conclude task false
  | .abandon task => (if l.fired then { l with tasks := l.tasks.erase task } else l, [])

/-- What a listener does about a sequence of events. -/
def run (l : Listener) : List Event → Listener × List Action
  | [] => (l, [])
  | e :: es =>
    let (l, now) := l.step e
    let (l, later) := l.run es
    (l, now ++ later)

/-- What goes on at once after an event if nothing else is ready then: the task
of a datagram, and after cancellation whatever waits for the token. -/
def followers (l : Listener) : Event → List Event
  | .datagram _ _ => [.started l.received]
  | .cancel => .stop :: (List.range l.received).map .abandon
  | _ => []

/-! ## What events do -/

/-- A transient failure changes nothing. -/
theorem step_fault_of_isTransient (l : Listener) {fault : SocketFault}
    (h : fault.isTransient = true) : l.step (.fault fault) = (l, []) := by
  simp [step, h]

/-- A listener that has stopped reads nothing. -/
theorem step_datagram_of_not_isListening {l : Listener} (h : l.isListening = false)
    (octets : Octets) (source : SocketAddress) : l.step (.datagram octets source) = (l, []) := by
  simp [step, h]

/-- A task that is over does nothing any more. -/
theorem respond_of_get?_eq_none {l : Listener} {task : Nat} (h : l.tasks.get? task = none)
    (response : Option Octets) : l.respond task response = (l, []) := by
  simp [respond, h]

/-- Running events one after the other. -/
theorem run_append (l : Listener) (es fs : List Event) :
    l.run (es ++ fs) =
      (((l.run es).1.run fs).1, (l.run es).2 ++ ((l.run es).1.run fs).2) := by
  induction es generalizing l with
  | nil => rfl
  | cons e es ih => simp only [List.cons_append, run, ih, List.append_assoc]

end Listener

end DnsConnector
