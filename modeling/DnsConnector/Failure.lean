/-!
# DnsConnector.Failure

What can go wrong on the way from a question to an answer.  Collaborators
outside the library (peer identification, transports) report failures with
texts of their own, so each kind carries its detail; the modules that decide
something have precise causes, which they turn into one of these.
-/

namespace DnsConnector

/-- A failure and its detail. -/
inductive Failure where
  | invalidDomainName (detail : String)
  | invalidIpAddress (detail : String)
  | invalidCidr (detail : String)
  | config (detail : String)
  | malformedMessage (detail : String)
  | peerNotFound (detail : String)
  | poolExhausted (detail : String)
  | nxDomain
  | queryTimeout
  | temporary (detail : String)
  | io (detail : String)
deriving DecidableEq, Repr, Inhabited

namespace Failure

/-- The wording of a failure. -/
def message : Failure → String
  | .invalidDomainName detail => "Invalid domain name: " ++ detail
  | .invalidIpAddress detail => "Invalid IP address: " ++ detail
  | .invalidCidr detail => "Invalid CIDR format: " ++ detail
  | .config detail => "Configuration error: " ++ detail
  | .malformedMessage detail => "Malformed DNS message: " ++ detail
  | .peerNotFound detail => "Peer not found for " ++ detail
  | .poolExhausted detail => "Address pool exhausted: " ++ detail
  | .nxDomain => "Domain not found (NXDOMAIN)"
  | .queryTimeout => "Query timeout"
  | .temporary detail => "Temporary failure: " ++ detail
  | .io detail => "I/O error: " ++ detail

/-- The name was looked up and does not exist. -/
def isNotFound : Failure → Bool
  | .nxDomain => true
  | _ => false

/-- No answer came in time. -/
def isTimeout : Failure → Bool
  | .queryTimeout => true
  | _ => false

/-- Anything but a definitive "no such name". -/
def isTemporary (f : Failure) : Bool := !f.isNotFound

end Failure

end DnsConnector
