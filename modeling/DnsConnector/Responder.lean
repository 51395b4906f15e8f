import DnsConnector.Decision
import DnsConnector.Wire.Reply
import DnsConnector.Wire.Response

/-!
# DnsConnector.Responder

From a datagram to at most one response.  Nothing is sent for what is no query,
asks nothing, comes from an unknown peer or could not be decided.
-/

namespace DnsConnector

open Wire

/-- A query that was decided and is to be answered. -/
structure Draft where
  query : Query
  asked : AskedQuestion
  verdict : Verdict

namespace Draft

/-- The response code and the answers of an outcome. -/
def contents : Outcome → Nat × List IpAddress
  | .answer addresses => (ResponseCode.noError, addresses)
  | .noData => (ResponseCode.noError, [])
  | .nxDomain => (ResponseCode.nxDomain, [])

/-- Carries the decision out and writes the response, unless there is none. -/
def finish (d : Draft) (book : AddressBook) (now : Nat) : AddressBook × Option Octets :=
  match d.verdict.conclude book now with
  | (book, .error _) => (book, none)
  | (book, .ok outcome) =>
    let (code, answers) := contents outcome
    (book, some (Response.encode d.query d.asked.question code answers))

end Draft

namespace Policy

variable {ε : Type}

/-- Decides about a datagram; without a draft there is nothing to answer. -/
def draft (p : Policy ε) (datagram : Octets) (source : SocketAddress) :
    Timed ε (Option Draft) :=
  match Query.parse datagram with
  | .error _ => .ready none
  | .ok query =>
    match query.asked with
    | none => .ready none
    | some asked =>
      (p.decide ⟨asked.domain, RecordType.ofCode asked.question.type, source⟩).map fun verdict =>
        some ⟨query, asked, verdict⟩

/-- Handles a datagram at a given time: the book afterwards and the response. -/
def respond (p : Policy ε) (datagram : Octets) (source : SocketAddress) (book : AddressBook)
    (now : Nat) : AddressBook × Option Octets :=
  match (p.draft datagram source).result with
  | none => (book, none)
  | some draft => draft.finish book now

end Policy

end DnsConnector
