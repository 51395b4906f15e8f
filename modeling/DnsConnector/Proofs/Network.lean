import DnsConnector.Network

/-!
# DnsConnector.Proofs.Network

Networks as intervals of numbers: a network is the addresses from its lowest to
its highest one (`contains_iff_le`), and two networks overlap in the sense of
`overlaps`, which looks at lowest addresses only, iff they have an address in
common (`overlaps_iff`).
-/

namespace DnsConnector.Network

variable {w : Nat}

/-- The number of addresses of a network. -/
def size (n : Network w) : Nat := Nat.pow 2 (w - n.length)

theorem size_pos (n : Network w) : 0 < n.size := Nat.two_pow_pos _

/-- The lowest address is a multiple of the size. -/
theorem toNat_first (n : Network w) : n.first.toNat = n.address.toNat / n.size * n.size := by
  rw [first, toNat_keepTop, Nat.shiftLeft_eq, Nat.shiftRight_eq_div_pow]
  rfl

/-- The host bits are the largest number below the size. -/
theorem toNat_hostBits {len : Nat} (h : len ≤ w) :
    (hostBits w len).toNat = Nat.pow 2 (w - len) - 1 := by
  rw [hostBits, BitVec.toNat_ushiftRight, BitVec.toNat_allOnes, Nat.shiftRight_eq_div_pow]
  have hsplit : 2 ^ w = 2 ^ len * 2 ^ (w - len) := by rw [← Nat.pow_add, Nat.add_sub_cancel' h]
  have hpos : 0 < 2 ^ len := Nat.two_pow_pos len
  have hpos' : 0 < 2 ^ (w - len) := Nat.two_pow_pos (w - len)
  change _ = 2 ^ (w - len) - 1
  rw [hsplit, Nat.div_eq_iff hpos]
  generalize 2 ^ len = p at *
  generalize 2 ^ (w - len) = q at *
  have hmul : (q - 1) * p + p = p * q := by
    obtain ⟨q, rfl⟩ : ∃ r, q = r + 1 := ⟨q - 1, by omega⟩
    rw [Nat.add_sub_cancel, Nat.mul_comm p, Nat.add_mul, Nat.one_mul]
  omega

/-- A number with the bits below a power of two all set. -/
theorem or_pred_pow (a m : Nat) :
    a ||| (Nat.pow 2 m - 1) = a / Nat.pow 2 m * Nat.pow 2 m + (Nat.pow 2 m - 1) := by
  change a ||| (2 ^ m - 1) = a / 2 ^ m * 2 ^ m + (2 ^ m - 1)
  have hlow : 2 ^ m - 1 < 2 ^ m := Nat.sub_lt (Nat.two_pow_pos m) Nat.one_pos
  rw [Nat.mul_comm, Nat.two_pow_add_eq_or_of_lt hlow]
  apply Nat.eq_of_testBit_eq
  intro i
  simp only [Nat.testBit_or, Nat.testBit_two_pow_sub_one, Nat.testBit_two_pow_mul,
    Nat.testBit_div_two_pow]
  by_cases hi : i < m
  · simp [hi]
  · have hle : m ≤ i := Nat.le_of_not_lt hi
    simp [hi, hle, Nat.sub_add_cancel hle]

/-- The highest address is the last one of as many as the size says. -/
theorem toNat_last (n : Network w) : n.last.toNat = n.first.toNat + (n.size - 1) := by
  rw [last, BitVec.toNat_or, toNat_hostBits n.length_le, toNat_first]
  exact or_pred_pow _ _

theorem toNat_first_le_last (n : Network w) : n.first.toNat ≤ n.last.toNat := by
  rw [toNat_last]
  exact Nat.le_add_right _ _

/-- A network is the addresses from its lowest to its highest one. -/
theorem contains_iff_le (n : Network w) (a : BitVec w) :
    n.contains a = true ↔ n.first.toNat ≤ a.toNat ∧ a.toNat ≤ n.last.toNat := by
  rw [contains_iff, Nat.shiftRight_eq_div_pow, Nat.shiftRight_eq_div_pow, toNat_last, toNat_first]
  change a.toNat / n.size = n.address.toNat / n.size ↔ _
  rw [Nat.div_eq_iff n.size_pos, Nat.add_sub_assoc n.size_pos]

@[simp] theorem contains_first (n : Network w) : n.contains n.first = true :=
  (contains_iff_le n _).2 ⟨Nat.le_refl _, n.toNat_first_le_last⟩

@[simp] theorem contains_last (n : Network w) : n.contains n.last = true :=
  (contains_iff_le n _).2 ⟨n.toNat_first_le_last, Nat.le_refl _⟩

/-- Two networks overlap iff they have an address in common. -/
theorem overlaps_iff (m n : Network w) :
    m.overlaps n = true ↔ ∃ a, m.contains a = true ∧ n.contains a = true := by
  rw [overlaps, Bool.or_eq_true]
  constructor
  · rintro (h | h)
    · exact ⟨n.first, h, contains_first n⟩
    · exact ⟨m.first, contains_first m, h⟩
  · rintro ⟨a, hm, hn⟩
    rw [contains_iff_le] at hm hn
    rw [contains_iff_le, contains_iff_le]
    omega

/-! ## Host bits of the given address -/

theorem toNat_last_masked (n : Network w) : n.masked.last.toNat = n.last.toNat := by
  rw [toNat_last, toNat_last, first_masked]
  rfl

@[simp] theorem last_masked (n : Network w) : n.masked.last = n.last :=
  BitVec.eq_of_toNat_eq n.toNat_last_masked

end DnsConnector.Network
