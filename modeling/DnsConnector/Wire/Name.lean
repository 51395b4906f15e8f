import DnsConnector.Octets

/-!
# DnsConnector.Wire.Name

Domain names inside messages.  A name is a list of labels; on the wire each
label follows its length and an empty label ends the name.  Instead of its
remaining labels a name may hold a pointer to an earlier place of the message.

A pointer has to aim below the start of the run of labels it stands in, and
the run it aims at must not reach that start.  The starts of the runs of one
name therefore decrease strictly, which is why reading ends.
-/

namespace DnsConnector.Wire

/-- The octets of a label without its length. -/
abbrev Label := Octets

namespace Name

/-- The most octets a label has. -/
def maxLabel : Nat := 63

/-- The most octets a name has on the wire. -/
def maxLength : Nat := 255

/-! ## Writing -/

/-- A label behind its length. -/
def encodeLabel (l : Label) : Octets := UInt8.ofNat l.length :: l

/-- The labels in order and the empty label that ends the name. -/
def encode (ls : List Label) : Octets := ls.flatMap encodeLabel ++ [0]

/-- How many octets a name takes without pointers. -/
def encodedLength : List Label → Nat
  | [] => 1
  | l :: ls => l.length + 1 + encodedLength ls

@[simp] theorem length_encode (ls : List Label) : (encode ls).length = encodedLength ls := by
  induction ls with
  | nil => rfl
  | cons l ls ih =>
    simp only [encode, encodedLength, List.flatMap_cons, List.length_append, encodeLabel,
      List.length_cons] at ih ⊢
    omega

/-! ## Reading -/

/-- The place a pointer with these two octets aims at. -/
def pointerTarget (high low : UInt8) : Nat := (high.toNat % 64) * 256 + low.toNat

/-- Reads the run of labels that starts at `start`, from position `pos` on.
The run has to stay below `limit`, if there is one.  The result is the labels,
those behind a pointer included, and the position after the run. -/
def readRun (msg : Array UInt8) (start : Nat) (limit : Option Nat) (pos : Nat) :
    Option (List Label × Nat) :=
  if limit.any (· ≤ pos) then
    none
  else if hpos : pos < msg.size then
    let b := msg[pos]
    if b = 0 then
      some ([], pos + 1)
    else if b.toNat < 64 then
      if pos + 1 + b.toNat ≤ msg.size then
        (readRun msg start limit (pos + 1 + b.toNat)).map fun (ls, stop) =>
          ((msg.extract (pos + 1) (pos + 1 + b.toNat)).toList :: ls, stop)
      else
        none
    else if 192 ≤ b.toNat then
      match msg[pos + 1]? with
      | none => none
      | some low =>
        if _ : pointerTarget b low < start then
          (readRun msg (pointerTarget b low) (some start) (pointerTarget b low)).map
            fun (ls, _) => (ls, pos + 2)
        else
          none
    else
      none
  else
    none
termination_by (start, msg.size - pos)

/-- Reads the name at a position: its labels and the position after it. -/
def read (msg : Array UInt8) (pos : Nat) : Option (List Label × Nat) :=
  (readRun msg pos none pos).filter fun (ls, _) => encodedLength ls ≤ maxLength

end Name

end DnsConnector.Wire
