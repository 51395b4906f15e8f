import DnsConnector.Address.Text
import DnsConnector.Network

/-!
# DnsConnector.Network.Text

The written form of networks, `address/length`.  A missing length means a
single address, and the length of an IPv4 network may also be written as a
netmask.  Of several faults the first in the order slashes, address, length is
reported.
-/

namespace DnsConnector

open Text

/-- Why a text is no network. -/
inductive NetworkFault where
  /-- There is more than one slash in the text. -/
  | slashes (text : String)
  /-- The part before the slash is no address. -/
  | address (text : String)
  /-- The part after the slash is no length for the family. -/
  | length
deriving DecidableEq, Repr

namespace NetworkFault

/-- The wording of a fault. -/
def message : NetworkFault → String
  | .slashes text => "invalid cidr format: CIDR must contain a single '/': " ++ text
  | .address text => "invalid address: " ++ text
  | .length => "invalid prefix"

end NetworkFault

namespace Network

/-- An unsigned number below 256, with an optional plus sign and any number of
leading zeros. -/
def lengthOfChars? (cs : List Char) : Option Nat :=
  match cs with
  | '+' :: ds => numeralUpTo? 10 255 ds
  | ds => numeralUpTo? 10 255 ds

/-- The number of leading ones of a mask that has ones only at its front. -/
def lengthOfNetmask? (mask : Ipv4) : Option Nat :=
  (List.range 33).find? fun len => keepTop len (BitVec.allOnes 32) == mask

/-- A network of the given length, if the family has networks that long. -/
def ofLength? {w : Nat} (a : BitVec w) (len : Nat) : Except NetworkFault (Network w) :=
  if h : len ≤ w then .ok ⟨a, len, h⟩ else .error .length

/-- A network can be made again of its lowest address and its length. -/
@[simp] theorem ofLength?_first {w : Nat} (n : Network w) :
    ofLength? n.first n.length = .ok n.masked := dif_pos n.length_le

/-- Splits a text at its slash and reads the two parts. -/
def ofTextWith {w : Nat} (address? : List Char → Option (BitVec w))
    (length? : List Char → Option Nat) (text : String) : Except NetworkFault (Network w) :=
  let read (front : List Char) (len : Option (List Char)) : Except NetworkFault (Network w) :=
    match address? front with
    | none => .error (.address (String.ofList front))
    | some a =>
      match len with
      | none => ofLength? a w
      | some cs =>
        match length? cs with
        | none => .error .length
        | some n => ofLength? a n
  match cutAt? '/' text.toList with
  | none => read text.toList none
  | some (front, back) =>
    if '/' ∈ back then .error (.slashes text) else read front (some back)

/-- Reads an IPv4 network. -/
def ofText4 (text : String) : Except NetworkFault (Network 32) :=
  ofTextWith Ipv4.ofChars?
    (fun cs =>
      match Ipv4.ofChars? cs with
      | some mask => lengthOfNetmask? mask
      | none => lengthOfChars? cs)
    text

/-- Reads an IPv6 network. -/
def ofText6 (text : String) : Except NetworkFault (Network 128) :=
  ofTextWith Ipv6.ofChars? lengthOfChars? text

/-- The text of an IPv4 network, its address as given. -/
def text4 (n : Network 32) : String := Ipv4.text n.address ++ "/" ++ toString n.length

/-- The text of an IPv6 network, its address as given. -/
def text6 (n : Network 128) : String := Ipv6.text n.address ++ "/" ++ toString n.length

end Network

namespace IpNetwork

/-- Reads a network of either family; whatever is wrong, the whole text is
reported as no address. -/
def ofText (text : String) : Except NetworkFault IpNetwork :=
  match Network.ofText4 text with
  | .ok n => .ok (.v4 n)
  | .error _ =>
    match Network.ofText6 text with
    | .ok n => .ok (.v6 n)
    | .error _ => .error (.address text)

end IpNetwork

end DnsConnector
