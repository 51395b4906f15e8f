/-!
# DnsConnector.RecordType

The types of records that questions ask for.  The connector makes up answers
for addresses only; the types that it does not tell apart are carried with
their code.
-/

namespace DnsConnector

/-- The type of a record. -/
inductive RecordType where
  | a
  | ns
  | soa
  | aaaa
  | other (code : UInt16)
deriving DecidableEq, Repr, Inhabited

namespace RecordType

/-- The code of a type on the wire. -/
def code : RecordType → UInt16
  | .a => 1
  | .ns => 2
  | .soa => 6
  | .aaaa => 28
  | .other c => c

/-- The type with a given code. -/
def ofCode (c : UInt16) : RecordType :=
  if c = 1 then .a
  else if c = 2 then .ns
  else if c = 6 then .soa
  else if c = 28 then .aaaa
  else .other c

/-- The name of a type; without one, `TYPE` and the code. -/
def text : RecordType → String
  | .a => "A"
  | .ns => "NS"
  | .soa => "SOA"
  | .aaaa => "AAAA"
  | .other c => "TYPE" ++ toString c.toNat

/-- Every code survives its type. -/
@[simp] theorem code_ofCode (c : UInt16) : (ofCode c).code = c := by
  simp only [ofCode]
  repeat' split
  all_goals simp_all [code]

/-- A type made from a code survives the code. -/
@[simp] theorem ofCode_code_ofCode (c : UInt16) : ofCode (ofCode c).code = ofCode c := by simp

end RecordType

end DnsConnector
