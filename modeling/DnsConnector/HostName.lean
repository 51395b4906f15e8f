import DnsConnector.Text.Blank
import DnsConnector.Text.Numeral
import DnsConnector.Wire.Name

/-!
# DnsConnector.HostName

The names that name servers are asked about, read from text.  The text is cut
at its dots; a backslash in front of three octal digits stands for the octet
with that number, and in front of any other character it takes that character
literally.

Ordinary host names are folded to lower case.  If any label is not ordinary,
the whole name is kept as written, and its labels may then also hold
underscores and start with an asterisk.
-/

namespace DnsConnector.HostName

open Text Wire

/-! ## Cutting the text -/

/-- How much of an escape has been read. -/
inductive Escape where
  | none
  | backslash
  /-- The worth of one or two octal digits, and whether a third one is due next. -/
  | octal (value : Nat) (second : Bool)
deriving DecidableEq, Repr

/-- Whether a character may stand in a name without a backslash. -/
def isVisible (c : Char) : Bool :=
  !isBlank c && 0x20 ≤ c.toNat && !(0x7f ≤ c.toNat && c.toNat ≤ 0x9f)

/-- The labels of a text, the first of which continues `label`.  An escape that
the end of the text cuts off is dropped. -/
def cutFrom : Escape → List Char → List Char → Option (List (List Char))
  | _, label, [] => some (if label.isEmpty then [] else [label])
  | .none, label, c :: cs =>
    if c = '.' then (cutFrom .none [] cs).map (label :: ·)
    else if c = '\\' then cutFrom .backslash label cs
    else if isVisible c then cutFrom .none (label ++ [c]) cs
    else none
  | .backslash, label, c :: cs =>
    if c.isDigit then (digit? 8 c).bind fun d => cutFrom (.octal d false) label cs
    else cutFrom .none (label ++ [c]) cs
  | .octal value second, label, c :: cs =>
    (digit? 8 c).bind fun d =>
      if second then cutFrom .none (label ++ [Char.ofNat (value * 8 + d)]) cs
      else cutFrom (.octal (value * 8 + d) true) label cs

/-- The labels of a text; the root has none. -/
def cut (cs : List Char) : Option (List (List Char)) :=
  if cs = ['.'] then some [] else cutFrom .none [] cs

/-! ## Labels -/

/-- Whether a character may stand in a label, which depends on whether it is
the first one. -/
def isLabelChar (first : Bool) (c : Char) : Bool :=
  c.isAlphanum || c == '_' || c == '.' || (c == '-' && !first) || (c == '*' && first)

/-- Whether a label may be sent as written. -/
def isLabel : List Char → Bool
  | [] => false
  | c :: cs => isLabelChar true c && cs.all (isLabelChar false) && cs.length < Name.maxLabel

/-- The octets of a label in ASCII. -/
def octetsOf (cs : List Char) : Label := cs.map fun c => UInt8.ofNat c.toNat

/-- A label as written. -/
def literalLabel? (cs : List Char) : Option Label :=
  if isLabel cs then some (octetsOf cs) else none

/-- A label folded to lower case, if it is ordinary: an asterisk, a label that
starts with an underscore, which keeps its case, or letters, digits, dashes and
escaped dots. -/
def foldedLabel? (cs : List Char) : Option Label :=
  if cs = ['*'] ∨ cs.head? = some '_' then
    literalLabel? cs
  else if cs.all fun c => c.isAlphanum || c == '-' || c == '.' then
    literalLabel? (cs.map Char.toLower)
  else
    none

/-- The labels of a name, folded if all are ordinary and as written otherwise. -/
def labels? (parts : List (List Char)) : Option (List Label) :=
  (parts.mapM foldedLabel?).or (parts.mapM literalLabel?)

/-- The name a text names, if it has room in a message.  Names are in ASCII: a label
with other characters is not replaced by its ASCII encoding (IDNA), as resolvers
for international names do, but refused, and one that starts with `xn--` is taken
as it is without being decoded. -/
def ofText? (text : String) : Option (List Label) :=
  ((cut text.toList).bind labels?).filter fun ls => Name.encodedLength ls ≤ Name.maxLength

end DnsConnector.HostName
