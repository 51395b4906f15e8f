import DnsConnector.HostName
import DnsConnector.RecordType
import DnsConnector.Wire.Response

/-!
# DnsConnector.Wire.Lookup

The queries that the connector sends to name servers: one question about a host
name in the class of the Internet, with recursion asked for.
-/

namespace DnsConnector.Wire.Lookup

/-- The flags of a standard query that asks for recursion. -/
def flags : UInt16 := 0x0100

/-- The question for records of a type of a name. -/
def question (name : List Label) (type : RecordType) : Question :=
  ⟨name, type.code, internetClass⟩

/-- The query with a given identifier. -/
def encode (id : UInt16) (q : Question) : Octets :=
  Octets.word16 id ++ Octets.word16 flags ++ Octets.bigEndian 2 1 ++ Octets.bigEndian 2 0 ++
    Octets.bigEndian 2 0 ++ Octets.bigEndian 2 0 ++ Response.encodeQuestion q

/-- The failure of a look-up of a text that is no host name. -/
def badHost (host : String) : Failure :=
  .invalidDomainName ("Invalid domain '" ++ host ++ "': not a host name")

/-- The query about a host, if its name can be sent. -/
def ofHost (id : UInt16) (host : String) (type : RecordType) : Except Failure Octets :=
  match HostName.ofText? host with
  | some name => .ok (encode id (question name type))
  | none => .error (badHost host)

end DnsConnector.Wire.Lookup
