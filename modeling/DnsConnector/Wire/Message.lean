import DnsConnector.Address
import DnsConnector.Wire.Data

/-!
# DnsConnector.Wire.Message

Whole DNS messages.  A message is decoded completely: the header, as many
questions as it announces, and the records of its three sections.  Octets after
the last record are not looked at, and any fault rejects the message.

The data of a record has to fill its announced length exactly and to have the
shape of its type; only addresses are kept as something else than octets.  Empty
data is accepted for every type.
-/

namespace DnsConnector.Wire

/-- A question: a name, a type and a class, both by code. -/
structure Question where
  name : List Label
  type : UInt16
  qclass : UInt16
deriving DecidableEq, Repr

/-- The data of a record. -/
inductive RecordData where
  /-- The record announces no data. -/
  | absent
  | address (a : IpAddress)
  | raw (octets : Octets)
deriving DecidableEq, Repr

/-- A resource record. -/
structure Record where
  name : List Label
  type : UInt16
  rclass : UInt16
  ttl : UInt32
  data : RecordData
deriving DecidableEq, Repr

/-- A decoded message. -/
structure Message where
  id : UInt16
  /-- The sixteen bits between the identifier and the counts. -/
  flags : UInt16
  questions : List Question
  answers : List Record
  authorities : List Record
  additionals : List Record
deriving DecidableEq, Repr

/-- The octets of the header. -/
def headerLength : Nat := 12

/-! ## Types with rules of their own -/

namespace RecordCode

def a : UInt16 := 1
def aaaa : UInt16 := 28
def sig : UInt16 := 24
def opt : UInt16 := 41
def tsig : UInt16 := 250

end RecordCode

namespace Message

/-! ## Questions and records -/

/-- Reads a question. -/
def questionAt (msg : Array UInt8) (pos : Nat) : Option (Question × Nat) := do
  let (name, pos) ← Name.read msg pos
  let (type, pos) ← word16At msg pos
  let (qclass, pos) ← word16At msg pos
  some (⟨name, type, qclass⟩, pos)

/-- Reads data of the given type and length; it has to be consumed exactly. -/
def dataAt (msg : Array UInt8) (type : UInt16) (pos len : Nat) : Option (RecordData × Nat) := do
  let (bs, stop) ← octetsAt msg pos len
  if len = 0 then
    some (.absent, stop)
  else if skipData msg (DataShape.ofCode type) pos len = some stop then
    if type = RecordCode.a then
      some (.address (.v4 (Ipv4.ofOctets bs)), stop)
    else if type = RecordCode.aaaa then
      some (.address (.v6 (Ipv6.ofOctets bs)), stop)
    else
      some (.raw bs, stop)
  else
    none

/-- Reads a record.  The extension record belongs to the root. -/
def recordAt (msg : Array UInt8) (pos : Nat) : Option (Record × Nat) := do
  let (name, pos) ← Name.read msg pos
  let (type, pos) ← word16At msg pos
  if type = RecordCode.opt ∧ name ≠ [] then
    none
  else
    let (rclass, pos) ← word16At msg pos
    let (ttl, pos) ← word32At msg pos
    let (len, pos) ← word16At msg pos
    let (data, pos) ← dataAt msg type pos len.toNat
    some (⟨name, type, rclass, ttl, data⟩, pos)

/-- Reads a number of items one after the other. -/
def itemsAt (item : Nat → Option (α × Nat)) : Nat → Nat → Option (List α × Nat)
  | 0, pos => some ([], pos)
  | n + 1, pos => do
    let (x, pos) ← item pos
    let (xs, pos) ← itemsAt item n pos
    some (x :: xs, pos)

/-- Whether the records of the answer or the authority section may stand there:
the extension and signature records may not. -/
def isSection (rs : List Record) : Bool :=
  rs.all fun r => r.type != RecordCode.opt && r.type != RecordCode.sig && r.type != RecordCode.tsig

/-- The extension records of a section. -/
def extensions (rs : List Record) : List Record := rs.filter (·.type == RecordCode.opt)

/-- Decodes a message. -/
def decodeArray (msg : Array UInt8) : Option Message := do
  let (id, pos) ← word16At msg 0
  let (flags, pos) ← word16At msg pos
  let (questionCount, pos) ← word16At msg pos
  let (answerCount, pos) ← word16At msg pos
  let (authorityCount, pos) ← word16At msg pos
  let (additionalCount, pos) ← word16At msg pos
  let (questions, pos) ← itemsAt (questionAt msg) questionCount.toNat pos
  let (answers, pos) ← itemsAt (recordAt msg) answerCount.toNat pos
  let (authorities, pos) ← itemsAt (recordAt msg) authorityCount.toNat pos
  let (additionals, _) ← itemsAt (recordAt msg) additionalCount.toNat pos
  if isSection answers && isSection authorities && (extensions additionals).length ≤ 1 then
    some ⟨id, flags, questions, answers, authorities, additionals⟩
  else
    none

/-- Decodes the message at the front of the octets. -/
def decode (bs : Octets) : Option Message := decodeArray bs.toArray

/-! ## The header's flags -/

/-- Whether the message says that it is a response. -/
def isResponse (m : Message) : Bool := 0x8000 ≤ m.flags.toNat

/-- The operation, a number below sixteen. -/
def opcode (m : Message) : Nat := m.flags.toNat / 2048 % 16

/-- Whether the sender asks for recursion. -/
def recursionDesired (m : Message) : Bool := m.flags.toNat / 256 % 2 == 1

/-- The response code: four bits of the header and, above them, the eight bits
that an extension record carries at the top of its time to live. -/
def responseCode (m : Message) : Nat :=
  let low := m.flags.toNat % 16
  match extensions m.additionals with
  | [] => low
  | r :: _ => (r.ttl >>> 24).toNat * 16 + low

/-- The addresses in the answer section, whatever name and class they have. -/
def addresses (m : Message) : List IpAddress :=
  m.answers.filterMap fun r =>
    match r.data with
    | .address a => some a
    | _ => none

end Message

end DnsConnector.Wire
