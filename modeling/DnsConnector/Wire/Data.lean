import DnsConnector.Wire.Name

/-!
# DnsConnector.Wire.Data

The data of records.  The data of a known type has a shape, and every shape has
a reader: it is told where the data begins and how many octets were announced,
and gives the position after what it has read.

A reader follows what it finds and is not stopped by the announced end.  A name,
a string or a parameter may lead it further, up to the end of the message.  So
where the reading ended has to be compared with what was announced; data that
is shorter or longer is not accepted.
-/

namespace DnsConnector.Wire

namespace Message

/-! ## Fields at a position

Each reader takes the message and a position and gives what it read together
with the position after it. -/

/-- The octets from a position on, if there are that many. -/
def octetsAt (msg : Array UInt8) (pos n : Nat) : Option (Octets × Nat) :=
  if pos + n ≤ msg.size then some ((msg.extract pos (pos + n)).toList, pos + n) else none

/-- A field of one octet. -/
def octetAt (msg : Array UInt8) (pos : Nat) : Option (UInt8 × Nat) :=
  msg[pos]?.map fun b => (b, pos + 1)

/-- A field of two octets. -/
def word16At (msg : Array UInt8) (pos : Nat) : Option (UInt16 × Nat) :=
  (octetsAt msg pos 2).map fun (bs, stop) => (UInt16.ofNat (Octets.ofBigEndian bs), stop)

/-- A field of four octets. -/
def word32At (msg : Array UInt8) (pos : Nat) : Option (UInt32 × Nat) :=
  (octetsAt msg pos 4).map fun (bs, stop) => (UInt32.ofNat (Octets.ofBigEndian bs), stop)

/-- A string behind its length. -/
def stringAt (msg : Array UInt8) (pos : Nat) : Option (Octets × Nat) := do
  let (n, pos) ← octetAt msg pos
  octetsAt msg pos n.toNat

theorem snd_of_octetsAt {msg : Array UInt8} {pos n : Nat} {r : Octets × Nat}
    (h : octetsAt msg pos n = some r) : r.2 = pos + n := by
  rw [octetsAt, Option.ite_none_right_eq_some, Option.some.injEq] at h
  rw [← h.2]

theorem snd_of_octetAt {msg : Array UInt8} {pos : Nat} {r : UInt8 × Nat}
    (h : octetAt msg pos = some r) : r.2 = pos + 1 := by
  obtain ⟨b, -, rfl⟩ := Option.map_eq_some_iff.1 h
  rfl

theorem snd_of_word16At {msg : Array UInt8} {pos : Nat} {r : UInt16 × Nat}
    (h : word16At msg pos = some r) : r.2 = pos + 2 := by
  obtain ⟨field, hfield, rfl⟩ := Option.map_eq_some_iff.1 h
  exact snd_of_octetsAt hfield

end Message

/-! ## Shapes -/

/-- The shape that the data of a type has to have. -/
inductive DataShape where
  /-- A number of octets, then a number of names, then a number of octets. -/
  | fields (before names after : Nat)
  /-- Strings, each behind its length, up to the end. -/
  | strings
  /-- Two strings. -/
  | twoStrings
  /-- A number of octets and any more. -/
  | atLeast (n : Nat)
  /-- Two words, flags, two strings and a name. -/
  | rewriting
  /-- A serial number, flags and a list of types. -/
  | synchronization
  /-- A priority, a name and parameters. -/
  | service
  /-- Flags, a tag behind its length and a value. -/
  | property
  /-- Options of the extension record. -/
  | options
  /-- Anything. -/
  | opaqueOctets
  /-- Nothing can be read. -/
  | unreadable
deriving DecidableEq, Repr

namespace DataShape

/-- The shape of a type's data. -/
def ofCode (type : UInt16) : DataShape :=
  match type.toNat with
  | 0 => .fields 0 0 0
  | 1 => .fields 4 0 0
  | 28 => .fields 16 0 0
  | 2 | 5 | 12 | 65305 => .fields 0 1 0
  | 15 => .fields 2 1 0
  | 6 => .fields 0 2 20
  | 33 => .fields 6 1 0
  | 16 => .strings
  | 13 => .twoStrings
  | 44 => .atLeast 2 -- SSHFP
  | 52 | 53 => .atLeast 3 -- TLSA, SMIMEA
  | 37 => .atLeast 6 -- CERT, the certificate of which is not empty
  | 35 => .rewriting -- NAPTR
  | 62 => .synchronization -- CSYNC
  | 64 | 65 => .service -- SVCB, HTTPS
  | 257 => .property -- CAA
  | 41 => .options
  | 251 | 252 | 255 => .unreadable
  | _ => .opaqueOctets

end DataShape

namespace Message

/-! ## Strings and names -/

/-- The position after a string. -/
def skipString (msg : Array UInt8) (pos : Nat) : Option Nat :=
  (stringAt msg pos).map (·.2)

/-- A string takes at least the octet of its length. -/
theorem lt_of_skipString {msg : Array UInt8} {pos stop : Nat}
    (h : skipString msg pos = some stop) : pos < stop := by
  obtain ⟨r, hr, rfl⟩ := Option.map_eq_some_iff.1 h
  obtain ⟨n, hn, hr⟩ := Option.bind_eq_some_iff.1 hr
  have hstart := snd_of_octetAt hn
  have hstop := snd_of_octetsAt hr
  omega

/-- The position after the strings that start before `stop`. -/
def skipStrings (msg : Array UInt8) (pos stop : Nat) : Option Nat :=
  if pos < stop then
    match _h : skipString msg pos with
    | none => none
    | some next => skipStrings msg next stop
  else
    some pos
termination_by stop - pos
decreasing_by
  have := lt_of_skipString _h
  omega

/-- The position after a number of names. -/
def skipNames (msg : Array UInt8) : Nat → Nat → Option Nat
  | 0, pos => some pos
  | n + 1, pos => do
    let (_, next) ← Name.read msg pos
    skipNames msg n next

/-- The position after `n` octets and as many more as were announced. -/
def skipAtLeast (msg : Array UInt8) (n pos len : Nat) : Option Nat := do
  let (_, next) ← octetsAt msg pos n
  if len < n then none
  else (octetsAt msg next (len - n)).map (·.2)

/-! ## Letters and digits -/

/-- Whether an octet is a letter or a digit. -/
def isAlphanumeric (b : UInt8) : Bool :=
  (0x30 ≤ b && b ≤ 0x39) || (0x41 ≤ b && b ≤ 0x5a) || (0x61 ≤ b && b ≤ 0x7a)

/-- The position after the rewriting of a name, whose flags are letters and
digits. -/
def skipRewriting (msg : Array UInt8) (pos : Nat) : Option Nat := do
  let (_, pos) ← octetsAt msg pos 4
  let (flags, pos) ← stringAt msg pos
  if flags.all isAlphanumeric then
    let pos ← skipString msg pos
    let pos ← skipString msg pos
    skipNames msg 1 pos
  else
    none

/-- The longest tag of a property. -/
def maxTag : Nat := 15

/-- The position after a property: its tag is a word of letters and digits, and
its value is whatever is left of the announced octets. -/
def skipProperty (msg : Array UInt8) (pos len : Nat) : Option Nat := do
  let (_, pos) ← octetAt msg pos
  let (n, pos) ← octetAt msg pos
  if len < n.toNat + 2 ∨ n = 0 ∨ maxTag < n.toNat then
    none
  else
    let (tag, pos) ← octetsAt msg pos n.toNat
    if tag.all isAlphanumeric then (octetsAt msg pos (len - (n.toNat + 2))).map (·.2) else none

/-! ## Lists of types -/

/-- What comes next in a list of types.  The list has blocks: the upper half of
all types of a block, the number of octets, and in these a bit for each type. -/
inductive TypeListState where
  | block
  | size
  | bits (index left : Nat)
deriving DecidableEq, Repr

/-- What comes after an octet of a list of types.  There are 256 types in a
block, so behind 32 octets no bit may be set. -/
def TypeListState.next? (b : UInt8) : TypeListState → Option TypeListState
  | .block => some .size
  | .size => some (.bits 0 b.toNat)
  | .bits index left =>
    if left = 0 ∨ 32 ≤ index ∧ b ≠ 0 then none
    else if left = 1 then some .block
    else some (.bits (index + 1) (left - 1))

/-- The position after the next octets of a list of types, which may end
anywhere. -/
def skipTypes (msg : Array UInt8) : (n : Nat) → TypeListState → Nat → Option Nat
  | 0, _, pos => some pos
  | n + 1, state, pos => do
    let (b, pos) ← octetAt msg pos
    let state ← state.next? b
    skipTypes msg n state pos

/-- The position after a synchronization.  Two of the flags in the second octet
are known, and no other may be set there. -/
def skipSynchronization (msg : Array UInt8) (pos len : Nat) : Option Nat := do
  let (_, pos) ← word32At msg pos
  let (flags, pos) ← word16At msg pos
  if flags &&& 0xfc ≠ 0 ∨ len < 6 then none
  else skipTypes msg (len - 6) .block pos

/-! ## Services -/

/-- Whether octets are the names of protocols, each behind its length and in
UTF-8. -/
def areProtocols : Octets → Bool
  | [] => true
  | n :: bs =>
    if n.toNat ≤ bs.length then
      (String.fromUTF8? ⟨(bs.take n.toNat).toArray⟩).isSome && areProtocols (bs.drop n.toNat)
    else
      false
termination_by bs => bs.length
decreasing_by
  rw [List.length_drop, List.length_cons]
  omega

/-- Whether a parameter may have a value. -/
def isParameter (key : UInt16) (value : Octets) : Bool :=
  match key.toNat with
  | 0 => !value.isEmpty && value.length % 2 == 0 -- the keys that must be understood
  | 1 => !value.isEmpty && areProtocols value
  | 2 => value.isEmpty
  | 3 => 2 ≤ value.length -- a port
  | 4 => value.length % 4 == 0 -- addresses
  | 6 => value.length % 16 == 0
  | _ => true

/-- The position after the parameters before `stop`, the keys of which ascend
from the last one.  A parameter begins with four octets for its key and its
length; where there is no room for them nothing is read. -/
def skipParameters (msg : Array UInt8) (last : Option UInt16) (pos stop : Nat) : Option Nat :=
  if stop < pos then
    none
  else if stop < pos + 4 then
    some pos
  else do
    let (key, _) ← word16At msg pos
    let (n, _) ← word16At msg (pos + 2)
    let (value, _) ← octetsAt msg (pos + 4) n.toNat
    if isParameter key value && last.all (· < key) then
      skipParameters msg (some key) (pos + 4 + n.toNat) stop
    else
      none
termination_by stop - pos

/-- The position after a service. -/
def skipService (msg : Array UInt8) (pos len : Nat) : Option Nat := do
  let (_, next) ← word16At msg pos
  let next ← skipNames msg 1 next
  skipParameters msg none next (pos + len)

/-! ## Options -/

/-- The option that tells the subnet of a client. -/
def subnetOption : UInt16 := 8

/-- Whether octets are a subnet: its family, its length in bits, another length
and as many octets of its address as the bits take, but no more than an address
of the family has. -/
def isSubnet : Octets → Bool
  | high :: low :: length :: _ :: address =>
    let given := (length.toNat + 7) / 8
    match high.toNat * 256 + low.toNat with
    | 1 => min given 4 ≤ address.length
    | 2 => min given 16 ≤ address.length
    | _ => false
  | _ => false

/-- Whether an option may have a value. -/
def isOption (code : UInt16) (value : Octets) : Bool := code != subnetOption || isSubnet value

/-- The position after the options in the `len` octets before `stop`.  An
option may not announce more than `len` octets; what the end cuts off is
dropped. -/
def skipOptions (msg : Array UInt8) (len pos stop : Nat) : Option Nat :=
  if pos < stop then
    if pos + 2 = stop then
      some stop
    else do
      let (code, _) ← word16At msg pos
      let (n, next) ← word16At msg (pos + 2)
      if len < n.toNat ∨ stop < next then
        none
      else if stop < next + n.toNat then
        some stop
      else
        let (value, _) ← octetsAt msg next n.toNat
        if isOption code value then skipOptions msg len (pos + 4 + n.toNat) stop else none
  else
    some pos
termination_by stop - pos

/-! ## Data -/

/-- The position after data of a given shape and length. -/
def skipData (msg : Array UInt8) (shape : DataShape) (pos len : Nat) : Option Nat :=
  match shape with
  | .fields before names after =>
    (skipNames msg names (pos + before)).map (· + after)
  | .strings => skipStrings msg pos (pos + len)
  | .twoStrings => (skipString msg pos).bind (skipString msg)
  | .atLeast n => skipAtLeast msg n pos len
  | .rewriting => skipRewriting msg pos
  | .synchronization => skipSynchronization msg pos len
  | .service => skipService msg pos len
  | .property => skipProperty msg pos len
  | .options => skipOptions msg len pos (pos + len)
  | .opaqueOctets => some (pos + len)
  | .unreadable => none

end Message

end DnsConnector.Wire
