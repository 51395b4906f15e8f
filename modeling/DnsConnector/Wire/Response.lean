import DnsConnector.Wire.Query

/-!
# DnsConnector.Wire.Response

Responses to queries.  A response repeats the identifier, the recursion bit and
the first question of its query, says that it is authoritative and carries any
number of addresses, each under the question's name.  That name stands at a
fixed place, the end of the header, so an answer only points there.
-/

namespace DnsConnector.Wire

/-- The class of the Internet. -/
def internetClass : UInt16 := 1

namespace Response

/-- The time to live of every answer, in seconds. -/
def answerTtl : UInt32 := 5

/-- A question without pointers. -/
def encodeQuestion (q : Question) : Octets :=
  Name.encode q.name ++ Octets.word16 q.type ++ Octets.word16 q.qclass

/-- The question's name in an answer: a pointer to the end of the header,
except that the root is shorter than a pointer. -/
def encodeOwner (q : Question) : Octets :=
  if q.name.isEmpty then [0] else [0xc0, UInt8.ofNat headerLength]

/-- The type of the record that holds an address. -/
def addressCode : IpAddress → UInt16
  | .v4 _ => RecordCode.a
  | .v6 _ => RecordCode.aaaa

/-- One answer to a question. -/
def encodeAnswer (q : Question) (a : IpAddress) : Octets :=
  encodeOwner q ++ Octets.word16 (addressCode a) ++ Octets.word16 internetClass ++
    Octets.word32 answerTtl ++ Octets.bigEndian 2 a.octets.length ++ a.octets

/-- The header of a response: one question and a number of answers. -/
def encodeHeader (query : Query) (rcode : Nat) (answerCount : Nat) : Octets :=
  Octets.word16 query.id ++
    [if query.recursionDesired then 0x85 else 0x84, UInt8.ofNat rcode] ++
    Octets.bigEndian 2 1 ++ Octets.bigEndian 2 answerCount ++
    Octets.bigEndian 2 0 ++ Octets.bigEndian 2 0

/-- The response to a query that asked `q`.  Every answer is written: a response is
meant to fit one datagram, and one of more than 65535 octets is neither cut off
nor marked as truncated (the TC flag), as message encoders may do. -/
def encode (query : Query) (q : Question) (rcode : Nat) (answers : List IpAddress) : Octets :=
  encodeHeader query rcode answers.length ++ encodeQuestion q ++
    answers.flatMap (encodeAnswer q)

end Response

end DnsConnector.Wire
