import DnsConnector.Failure
import DnsConnector.Text.Blank
import DnsConnector.Text.Pieces

/-!
# DnsConnector.Fqdn

Fully qualified domain names in normal form: lower case, exactly one dot at
the end, labels of 1 to 63 octets and at most 254 octets in all.  The normal
form is what allocations are filed under and what is looked up, so two
spellings of a name that differ in case, surrounding blanks or trailing dots
are one name.  Lengths are counted in octets of UTF-8.
-/

namespace DnsConnector

open Text

/-- Why a text is no domain name. -/
inductive NameFault where
  /-- Nothing is left without blanks and dots. -/
  | empty
  /-- The name has too many octets. -/
  | tooLong (octets : Nat)
  /-- A label is empty or has more than 63 octets. -/
  | label (name : String)
deriving DecidableEq, Repr

namespace NameFault

/-- The wording of a fault. -/
def message : NameFault → String
  | .empty => "domain cannot be empty"
  | .tooLong octets => "domain too long (" ++ toString octets ++ " bytes)"
  | .label name => "invalid label in " ++ name

/-- The failure of a request for such a name. -/
def toFailure (f : NameFault) : Failure := .invalidDomainName f.message

end NameFault

/-- A domain name in normal form. -/
structure Fqdn where
  text : String
deriving DecidableEq, Repr, Inhabited

namespace Fqdn

/-- The most octets a name in normal form has. -/
def maxLength : Nat := 254

/-- The most octets a label has. -/
def maxLabel : Nat := 63

/-- The number of octets of a text. -/
def octetCount : List Char → Nat
  | [] => 0
  | c :: cs => c.utf8Size + octetCount cs

/-- A text without surrounding blanks and without trailing dots. -/
def bare (cs : List Char) : List Char := dropTrailing (· == '.') (trim cs)

/-- Whether a label has an admissible length. -/
def isLabel (cs : List Char) : Bool := !cs.isEmpty && octetCount cs ≤ maxLabel

/-- The normal form of a text without surrounding blanks and trailing dots. -/
def normalizeBare (cs : List Char) : Except NameFault (List Char) :=
  if cs.isEmpty then
    .error .empty
  else if maxLength < octetCount cs + 1 then
    .error (.tooLong (octetCount cs))
  else if (pieces '.' cs).all isLabel then
    .ok (cs.map Char.toLower ++ ['.'])
  else
    .error (.label (String.ofList cs))

/-- The normal form of a text. -/
def normalize (cs : List Char) : Except NameFault (List Char) := normalizeBare (bare cs)

/-- The domain name a text names. -/
def ofText (text : String) : Except NameFault Fqdn :=
  (normalize text.toList).map fun cs => ⟨String.ofList cs⟩

end Fqdn

end DnsConnector
