import DnsConnector.AddressBook
import DnsConnector.DestinationFilter
import DnsConnector.RecordType
import DnsConnector.Timed

/-!
# DnsConnector.Decision

What is answered to a peer's question.  Only questions for addresses are looked
up.  If any of the real addresses is ignored, the real addresses of the asked
family are the answer; otherwise it is one synthetic address from the book.

A decision is reached in two steps: finding out what to do, which takes time
but does not touch the book, and doing it, which takes none.
-/

namespace DnsConnector

/-- A question from a peer. -/
structure Request where
  domain : String
  type : RecordType
  source : SocketAddress
deriving DecidableEq, Repr

/-- What is answered. -/
inductive Outcome where
  | answer (addresses : List IpAddress)
  /-- The name exists, without what was asked for. -/
  | noData
  | nxDomain
deriving DecidableEq, Repr

/-- What is to be done about a request. -/
inductive Verdict where
  /-- The outcome does not depend on the book. -/
  | settled (outcome : Except Failure Outcome)
  /-- The peer is given a synthetic address for the name. -/
  | allocate (peer : PeerId) (name : Fqdn) (family : AddressFamily)

/-- Everything that is asked about a request. -/
structure Policy (ε : Type) where
  whoIs : SocketAddress → Timed ε (Except Failure PeerId)
  whoIsTimeout : Nat
  /-- The real addresses of a name, both families. -/
  lookup : String → Timed ε (Except Failure (List IpAddress))
  lookupTimeout : Nat
  ignored : DestinationFilter

namespace Policy

variable {ε : Type}

/-- The time a peer's identification may take unless set, in milliseconds. -/
def defaultWhoIsTimeout : Nat := 1000

/-- The time a look-up may take unless set, in milliseconds. -/
def defaultLookupTimeout : Nat := 2000

/-- The peer behind a request; any failure means that the source is unknown. -/
def identify (p : Policy ε) (source : SocketAddress) : Timed ε (Except Failure PeerId) :=
  ((p.whoIs source).within p.whoIsTimeout).map fun
    | some (.ok peer) => .ok peer
    | _ => .error (.peerNotFound source.text)

/-- The real addresses of a name. -/
def resolve (p : Policy ε) (name : Fqdn) : Timed ε (Except Failure (List IpAddress)) :=
  ((p.lookup name.text).within p.lookupTimeout).map fun
    | some outcome => outcome
    | none => .error .queryTimeout

/-- The family of addresses that a type of question asks for. -/
def familyOf : RecordType → Option AddressFamily
  | .a => some .v4
  | .aaaa => some .v6
  | _ => none

/-- What to do about a name whose real addresses are known. -/
def judge (p : Policy ε) (peer : PeerId) (name : Fqdn) (family : AddressFamily) :
    Except Failure (List IpAddress) → Verdict
  | .error f => .settled (if f.isNotFound then .ok .nxDomain else .error f)
  | .ok real =>
    let asked := real.filter family.includes
    if asked.isEmpty then .settled (.ok .noData)
    else if p.ignored.ignoresAny real then .settled (.ok (.answer asked))
    else .allocate peer name family

/-- Finds out what to do about a request. -/
def decide (p : Policy ε) (r : Request) : Timed ε Verdict :=
  (p.identify r.source).bind fun
    | .error f => .ready (.settled (.error f))
    | .ok peer =>
      match familyOf r.type with
      | none => .ready (.settled (.ok .noData))
      | some family =>
        match Fqdn.ofText r.domain with
        | .error fault => .ready (.settled (.error fault.toFailure))
        | .ok name => (p.resolve name).map (p.judge peer name family)

end Policy

namespace Verdict

/-- Does what is to be done. -/
def conclude (v : Verdict) (book : AddressBook) (now : Nat) :
    AddressBook × Except Failure Outcome :=
  match v with
  | .settled outcome => (book, outcome)
  | .allocate peer name family =>
    match book.request peer name.text family now with
    | (book, .error fault) => (book, .error fault.toFailure)
    | (book, .ok addresses) =>
      match addresses.find? family.includes with
      | some a => (book, .ok (.answer [a]))
      | none => (book, .ok .noData)

end Verdict

end DnsConnector
