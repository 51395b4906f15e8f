import DnsConnector.Address

/-!
# DnsConnector.Network

Networks of `w`-bit addresses: an address, as it was given, and the number of
leading bits that are fixed.  Two addresses lie in the same network of length
`len` iff they agree once shifted right by `w - len` bits, which is what
clearing the host bits with `keepTop` compares (`keepTop_eq_keepTop_iff`).
-/

namespace DnsConnector

/-- A network: an address, host bits allowed, and a length. -/
structure Network (w : Nat) where
  address : BitVec w
  length : Nat
  length_le : length ≤ w
deriving DecidableEq, Repr

namespace Network

variable {w : Nat}

/-! ## Host bits -/

/-- The address with all but the leading `len` bits cleared. -/
def keepTop (len : Nat) (a : BitVec w) : BitVec w :=
  (a >>> (w - len)) <<< (w - len)

/-- The host bits of a network of length `len`, all set. -/
def hostBits (w len : Nat) : BitVec w := BitVec.allOnes w >>> len

/-- Clearing the host bits shifts them out and zeros in. -/
theorem toNat_keepTop (len : Nat) (a : BitVec w) :
    (keepTop len a).toNat = (a.toNat >>> (w - len)) <<< (w - len) := by
  rw [keepTop, BitVec.toNat_shiftLeft, BitVec.toNat_ushiftRight]
  refine Nat.mod_eq_of_lt (Nat.lt_of_le_of_lt ?_ a.isLt)
  rw [Nat.shiftLeft_eq, Nat.shiftRight_eq_div_pow]
  exact Nat.div_mul_le_self _ _

/-- Clearing the host bits twice is clearing them once. -/
@[simp] theorem keepTop_keepTop (len : Nat) (a : BitVec w) :
    keepTop len (keepTop len a) = keepTop len a := by
  apply BitVec.eq_of_toNat_eq
  rw [toNat_keepTop, toNat_keepTop, Nat.shiftLeft_shiftRight]

/-- Two addresses have the same leading bits iff they agree without the others. -/
theorem keepTop_eq_keepTop_iff (len : Nat) (a b : BitVec w) :
    keepTop len a = keepTop len b ↔ a.toNat >>> (w - len) = b.toNat >>> (w - len) := by
  rw [← BitVec.toNat_inj, toNat_keepTop, toNat_keepTop]
  constructor
  · intro h
    simpa only [Nat.shiftLeft_shiftRight] using congrArg (· >>> (w - len)) h
  · intro h
    rw [h]

/-! ## First and last address -/

/-- The network address: the lowest one. -/
def first (n : Network w) : BitVec w := keepTop n.length n.address

/-- The highest address of the network. -/
def last (n : Network w) : BitVec w := n.address ||| hostBits w n.length

/-- The same network given by its lowest address. -/
def masked (n : Network w) : Network w := { n with address := n.first }

/-- Whether an address lies in the network. -/
def contains (n : Network w) (a : BitVec w) : Bool := keepTop n.length a == n.first

@[simp] theorem first_masked (n : Network w) : n.masked.first = n.first := by
  simp [masked, first]

@[simp] theorem length_masked (n : Network w) : n.masked.length = n.length := rfl

theorem contains_iff (n : Network w) (a : BitVec w) :
    n.contains a = true ↔
      a.toNat >>> (w - n.length) = n.address.toNat >>> (w - n.length) := by
  rw [contains, beq_iff_eq, first, keepTop_eq_keepTop_iff]

/-- Host bits of the given address do not matter to what a network contains. -/
@[simp] theorem contains_masked (n : Network w) (a : BitVec w) :
    n.masked.contains a = n.contains a := by
  simp [contains]

/-- Whether two networks have an address in common: one contains the lowest
address of the other. -/
def overlaps (m n : Network w) : Bool := m.contains n.first || n.contains m.first

end Network

/-- A network of either family. -/
inductive IpNetwork where
  | v4 (network : Network 32)
  | v6 (network : Network 128)
deriving DecidableEq, Repr

namespace IpNetwork

/-- Whether an address lies in the network; the other family never does. -/
def contains : IpNetwork → IpAddress → Bool
  | .v4 n, .v4 a => n.contains a
  | .v6 n, .v6 a => n.contains a
  | _, _ => false

end IpNetwork

end DnsConnector
