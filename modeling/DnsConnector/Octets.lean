/-!
# DnsConnector.Octets

Octet strings and the big-endian fields of network formats.  A field of `k`
octets holds a number below `256 ^ k`; writing a number that fits and reading
it back is the identity (`ofBigEndian_bigEndian`).
-/

namespace DnsConnector

/-- A datagram or a part of one. -/
abbrev Octets := List UInt8

namespace Octets

/-! ## Big-endian fields -/

/-- The low `8 * k` bits of `n` as `k` octets, most significant first. -/
def bigEndian : Nat → Nat → Octets
  | 0, _ => []
  | k + 1, n => bigEndian k (n / 256) ++ [UInt8.ofNat n]

/-- The number that octets spell, most significant first. -/
def ofBigEndian (bs : Octets) : Nat :=
  bs.foldl (fun n b => n * 256 + b.toNat) 0

@[simp] theorem length_bigEndian (k n : Nat) : (bigEndian k n).length = k := by
  induction k generalizing n with
  | zero => rfl
  | succ k ih => simp [bigEndian, ih]

@[simp] theorem ofBigEndian_nil : ofBigEndian [] = 0 := rfl

/-- The last octet is the units digit. -/
@[simp] theorem ofBigEndian_append_singleton (bs : Octets) (b : UInt8) :
    ofBigEndian (bs ++ [b]) = ofBigEndian bs * 256 + b.toNat := by
  simp [ofBigEndian]

/-- A field keeps the residue of the number it was given. -/
theorem ofBigEndian_bigEndian_mod (k n : Nat) :
    ofBigEndian (bigEndian k n) = n % Nat.pow 256 k := by
  induction k generalizing n with
  | zero => simp [bigEndian, Nat.mod_one]
  | succ k ih =>
    have hpow : Nat.pow 256 (k + 1) = 256 * Nat.pow 256 k := Nat.mul_comm _ _
    rw [bigEndian, ofBigEndian_append_singleton, ih, hpow, Nat.mod_mul, UInt8.toNat_ofNat']
    omega

/-- A number that fits its field is read back. -/
theorem ofBigEndian_bigEndian {k n : Nat} (h : n < Nat.pow 256 k) :
    ofBigEndian (bigEndian k n) = n := by
  rw [ofBigEndian_bigEndian_mod, Nat.mod_eq_of_lt h]

/-- A field of two octets. -/
def word16 (n : UInt16) : Octets := bigEndian 2 n.toNat

/-- A field of four octets. -/
def word32 (n : UInt32) : Octets := bigEndian 4 n.toNat

@[simp] theorem length_word16 (n : UInt16) : (word16 n).length = 2 := by simp [word16]

@[simp] theorem length_word32 (n : UInt32) : (word32 n).length = 4 := by simp [word32]

end Octets

end DnsConnector
