import DnsConnector.Failure
import DnsConnector.Wire.Message

/-!
# DnsConnector.Wire.Reply

What name servers send back.  Of a reply only the identifier, the response code
and the addresses in the answer section matter.  A reply is definitive if its
code says that the name was found or that it does not exist.
-/

namespace DnsConnector.Wire

/-! ## Response codes -/

namespace ResponseCode

def noError : Nat := 0
def formatError : Nat := 1
def serverFailure : Nat := 2
def nxDomain : Nat := 3
def notImplemented : Nat := 4
def refused : Nat := 5

/-- The mnemonic of a response code. -/
def status (code : Nat) : String :=
  if code = noError then "NOERROR"
  else if code = nxDomain then "NXDOMAIN"
  else if code = serverFailure then "SERVFAIL"
  else if code = refused then "REFUSED"
  else if code = notImplemented then "NOTIMP"
  else if code = formatError then "FORMERR"
  else "UNKNOWN"

end ResponseCode

/-! ## Replies -/

/-- What counts of a decoded reply. -/
structure Reply where
  id : UInt16
  code : Nat
  addresses : List IpAddress
deriving DecidableEq, Repr

namespace Reply

/-- The failure of octets that are no message. -/
def undecodable : Failure := .malformedMessage "Failed to parse DNS response"

/-- Reads a datagram as a reply. -/
def parse (bs : Octets) : Except Failure Reply :=
  match Message.decode bs with
  | none => .error undecodable
  | some m => .ok ⟨m.id, m.responseCode, m.addresses⟩

/-- What a response code other than success means for a look-up. -/
def classify (r : Reply) : Except Failure Unit :=
  if r.code = ResponseCode.noError then .ok ()
  else if r.code = ResponseCode.nxDomain then .error .nxDomain
  else .error (.temporary ("upstream answered " ++ ResponseCode.status r.code))

end Reply

end DnsConnector.Wire
