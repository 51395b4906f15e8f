import DnsConnector.Address
import DnsConnector.Text.Numeral
import DnsConnector.Text.Pieces

/-!
# DnsConnector.Address.Text

The written form of addresses: dotted quads, RFC 5952 text for IPv6 and
`address:port` for sockets.  Reading is strict: no leading zeros in a dotted
quad, at most four digits in a group, one `::` that stands for at least one
group, no zone on a bare address.
-/

namespace DnsConnector

open Text

/-! ## IPv4 -/

namespace Ipv4

/-- A decimal number up to 255 without leading zeros. -/
def octetOfChars? (cs : List Char) : Option Nat :=
  if cs.length ≤ 3 ∧ (cs.head? = some '0' → cs.length = 1) then numeralUpTo? 10 255 cs else none

/-- Reads a dotted quad. -/
def ofChars? (cs : List Char) : Option Ipv4 :=
  match (pieces '.' cs).mapM octetOfChars? with
  | some [a, b, c, d] => some (BitVec.ofNat 32 (((a * 256 + b) * 256 + c) * 256 + d))
  | _ => none

/-- Reads a dotted quad. -/
def ofText? (text : String) : Option Ipv4 := ofChars? text.toList

/-- The dotted quad of an address. -/
def text (a : Ipv4) : String :=
  ".".intercalate ((octets a).map fun b => toString b.toNat)

end Ipv4

/-! ## IPv6 -/

namespace Ipv6

/-- One to four hexadecimal digits. -/
def groupOfChars? (cs : List Char) : Option Nat :=
  if cs.length ≤ 4 then numeral? 16 cs else none

/-- Reads groups separated by colons; the empty text has none. -/
def groupsOfChars? (cs : List Char) : Option (List Nat) :=
  if cs.isEmpty then some [] else (pieces ':' cs).mapM groupOfChars?

/-- Reads groups whose last two may be written as a dotted quad. -/
def tailOfChars? (cs : List Char) : Option (List Nat) :=
  if cs.isEmpty then
    some []
  else
    let ps := pieces ':' cs
    match Ipv4.ofChars? (ps.getLastD []) with
    | some a => (ps.dropLast.mapM groupOfChars?).map (· ++ [a.toNat / 65536, a.toNat % 65536])
    | none => ps.mapM groupOfChars?

/-- The text before the first `::` and the text after it. -/
def cutAtGap? : List Char → Option (List Char × List Char)
  | ':' :: ':' :: cs => some ([], cs)
  | c :: cs => (cutAtGap? cs).map fun (a, b) => (c :: a, b)
  | [] => none

/-- Reads an IPv6 address: eight groups, or fewer around a `::`. -/
def ofChars? (cs : List Char) : Option Ipv6 :=
  match cutAtGap? cs with
  | none => do
    let gs ← tailOfChars? cs
    if gs.length = 8 then some (ofGroups gs) else none
  | some (front, back) => do
    let hs ← groupsOfChars? front
    let ts ← tailOfChars? back
    if hs.length + ts.length ≤ 7 then
      some (ofGroups (hs ++ List.replicate (8 - hs.length - ts.length) 0 ++ ts))
    else
      none

/-- Reads an IPv6 address. -/
def ofText? (text : String) : Option Ipv6 := ofChars? text.toList

/-- A group without leading zeros. -/
def groupText (g : Nat) : String := String.ofList (Nat.toDigits 16 g)

/-- How many zero groups stand at the front. -/
def zeroRun (gs : List Nat) : Nat := (gs.takeWhile (· == 0)).length

/-- Where the longest run of zero groups starts and how long it is; of equally
long runs the first. -/
def longestZeroRun (gs : List Nat) : Nat × Nat :=
  (List.range gs.length).foldl
    (fun (start, len) i =>
      let run := zeroRun (gs.drop i)
      if len < run then (i, run) else (start, len))
    (0, 0)

/-- The RFC 5952 text: a dotted quad at the end of IPv4-mapped addresses, and
the longest run of two or more zero groups written `::`. -/
def text (a : Ipv6) : String :=
  match mapped? a with
  | some b => "::ffff:" ++ Ipv4.text b
  | none =>
    let gs := groups a
    let (start, len) := longestZeroRun gs
    let write (gs : List Nat) := ":".intercalate (gs.map groupText)
    if 2 ≤ len then
      write (gs.take start) ++ "::" ++ write (gs.drop (start + len))
    else
      write gs

end Ipv6

/-! ## Either family -/

namespace IpAddress

/-- Reads an address of either family. -/
def ofText? (text : String) : Option IpAddress :=
  match Ipv4.ofText? text with
  | some a => some (.v4 a)
  | none => (Ipv6.ofText? text).map .v6

/-- The text of an address. -/
def text : IpAddress → String
  | .v4 a => Ipv4.text a
  | .v6 a => Ipv6.text a

/-- What is said of a text that is no address. -/
def malformed : String := "invalid IP address syntax"

end IpAddress

/-! ## Sockets -/

namespace SocketAddress

/-- A UDP port: digits only, leading zeros allowed. -/
def portOfChars? (cs : List Char) : Option UInt16 :=
  (numeralUpTo? 10 65535 cs).map UInt16.ofNat

/-- The inside of the brackets: an IPv6 address and a scope after `%`. -/
def hostOfChars? (cs : List Char) : Option (Ipv6 × UInt32) :=
  match cutAt? '%' cs with
  | none => (Ipv6.ofChars? cs).map (·, 0)
  | some (host, scope) => do
    let a ← Ipv6.ofChars? host
    let s ← numeralUpTo? 10 4294967295 scope
    some (a, UInt32.ofNat s)

/-- Reads `v4:port`, `[v6]:port` or `[v6%scope]:port`. -/
def ofText? (text : String) : Option SocketAddress :=
  match text.toList with
  | '[' :: cs =>
    match cutAt? ']' cs with
    | some (host, ':' :: port) => do
      let (a, scope) ← hostOfChars? host
      let p ← portOfChars? port
      some ⟨.v6 a, p, scope⟩
    | _ => none
  | cs =>
    match cutAt? ':' cs with
    | some (host, port) => do
      let a ← Ipv4.ofChars? host
      let p ← portOfChars? port
      some ⟨.v4 a, p, 0⟩
    | none => none

/-- The text of a socket address; a scope is written only if it is not 0. -/
def text (s : SocketAddress) : String :=
  let port := toString s.port.toNat
  match s.ip with
  | .v4 a => Ipv4.text a ++ ":" ++ port
  | .v6 a =>
    let zone := if s.scope = 0 then "" else "%" ++ toString s.scope.toNat
    "[" ++ Ipv6.text a ++ zone ++ "]:" ++ port

/-- What is said of a text that is no socket address. -/
def malformed : String := "invalid socket address syntax"

end SocketAddress

end DnsConnector
