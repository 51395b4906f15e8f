import DnsConnector.Failure
import DnsConnector.Wire.Message

/-!
# DnsConnector.Wire.Query

Datagrams from peers, read as queries.  A query is a decodable message that is
no response and whose operation is the standard query; of its questions only
the first counts, and that one's name has to be written without a pointer into
the header and in printable characters other than the dot and the backslash.
The text of a name, every label followed by a dot, then tells names apart.
-/

namespace DnsConnector.Wire

/-- Why octets are no query. -/
inductive QueryFault where
  /-- They are no message at all. -/
  | undecodable
  /-- The message is a response. -/
  | response
  /-- The operation is not the standard query. -/
  | opcode (number : Nat)
  /-- The name points into the header. -/
  | headerPointer
  /-- The name goes on after the last octet. -/
  | cutOff
  /-- The name has no end. -/
  | endless
  /-- A label has octets that do not belong into the text of a name. -/
  | label
deriving DecidableEq, Repr

/-- The name of an operation. -/
def opcodeText (n : Nat) : String :=
  match n with
  | 0 => "Query"
  | 2 => "Status"
  | 4 => "Notify"
  | 5 => "Update"
  | n => "Unknown(" ++ toString n ++ ")"

namespace QueryFault

/-- The wording of a fault. -/
def message : QueryFault → String
  | .undecodable => "no DNS message"
  | .response => "QR bit set on query"
  | .opcode n => "unsupported opcode " ++ opcodeText n
  | .headerPointer => "compression pointer into header"
  | .cutOff => "name runs past the datagram"
  | .endless => "name does not terminate"
  | .label => "label is not printable ASCII"

/-- The failure of a datagram that is no query. -/
def toFailure (f : QueryFault) : Failure := .malformedMessage f.message

end QueryFault

/-! ## The text of a name -/

namespace Name

/-- Whether an octet may stand in the text of a name: printable ASCII other
than the dot and the backslash. -/
def isPlain (b : UInt8) : Bool := 0x21 ≤ b && b ≤ 0x7e && b != 0x2e && b != 0x5c

/-- The character of an octet. -/
def charOf (b : UInt8) : Char := Char.ofNat b.toNat

/-- Every label followed by a dot; the root, which has no label, is a dot. -/
def textOf (ls : List Label) : List Char :=
  if ls.isEmpty then ['.'] else ls.flatMap fun l => l.map charOf ++ ['.']

/-- The text of a name whose octets may all stand in it. -/
def text? (ls : List Label) : Option String :=
  if ls.all (·.all isPlain) then some (String.ofList (textOf ls)) else none

end Name

/-! ## Pointers into the header -/

/-- How following a name ends. -/
inductive NameEnd where
  | root
  | headerPointer
  | cutOff
  | endless
deriving DecidableEq, Repr

/-- Follows the labels and pointers of a name for at most a number of steps,
up to its end or to a pointer into the header. -/
def followName (msg : Array UInt8) : Nat → Nat → NameEnd
  | 0, _ => .endless
  | steps + 1, pos =>
    match msg[pos]? with
    | none => .cutOff
    | some b =>
      if b = 0 then
        .root
      else if 192 ≤ b.toNat then
        let target := Name.pointerTarget b (msg[pos + 1]?.getD 0)
        if target < headerLength then .headerPointer else followName msg steps target
      else
        followName msg steps (pos + 1 + b.toNat)

/-! ## Queries -/

/-- The first question of a query, as received, and the text of its name. -/
structure AskedQuestion where
  question : Question
  domain : String
deriving DecidableEq, Repr

/-- A datagram read as a query. -/
structure Query where
  id : UInt16
  recursionDesired : Bool
  /-- Missing if the query asks nothing. -/
  asked : Option AskedQuestion
deriving DecidableEq, Repr

namespace Query

/-- The first question of a message, whose octets are needed to find pointers. -/
def askedQuestion (msg : Array UInt8) (q : Question) : Except QueryFault AskedQuestion :=
  match followName msg msg.size headerLength with
  | .headerPointer => .error .headerPointer
  | .cutOff => .error .cutOff
  | .endless => .error .endless
  | .root =>
    match Name.text? q.name with
    | some domain => .ok ⟨q, domain⟩
    | none => .error .label

/-- Reads a datagram as a query. -/
def parse (bs : Octets) : Except QueryFault Query :=
  match Message.decode bs with
  | none => .error .undecodable
  | some m =>
    if m.isResponse then
      .error .response
    else if m.opcode ≠ 0 then
      .error (.opcode m.opcode)
    else
      match m.questions with
      | [] => .ok ⟨m.id, m.recursionDesired, none⟩
      | q :: _ =>
        match askedQuestion bs.toArray q with
        | .error f => .error f
        | .ok asked => .ok ⟨m.id, m.recursionDesired, some asked⟩

end Query

end DnsConnector.Wire
