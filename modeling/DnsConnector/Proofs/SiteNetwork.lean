import DnsConnector.Proofs.Network
import DnsConnector.SiteNetwork

/-!
# DnsConnector.Proofs.SiteNetwork

A discriminator and the network it is put into do not overlap, so that setting
the bits is adding the numbers (`toNat_of_address?`) and two discriminators of
one network have two addresses.  The same holds of the site number within what
all sites share (`toNat_first_ofSite`), so an address of a site is the sum of
three numbers that have bits of their own.  Neither two sites nor two
discriminators share an address then (`collisionFree`).
-/

namespace DnsConnector.SiteNetwork

variable {n : Network 128}

/-! ## Addresses of one network -/

/-- A network of length 80 or less has room for every discriminator. -/
theorem maxDiscriminator_lt_size (hn : n.length ≤ 80) : maxDiscriminator < n.size := by
  have hmono : 2 ^ 48 ≤ 2 ^ (128 - n.length) := Nat.pow_le_pow_right (by decide) (by omega)
  exact Nat.lt_of_lt_of_le (by decide) hmono

/-- The number of an address is that of its network plus its discriminator. -/
theorem toNat_of_address? (hn : n.length ≤ 80) {d : Nat} {x : Ipv6} (h : address? n d = some x) :
    x.toNat = n.first.toNat + d := by
  simp only [address?, Option.ite_none_right_eq_some, Option.some.injEq] at h
  obtain ⟨hd, rfl⟩ := h
  have hmax : maxDiscriminator = 2 ^ 48 - 1 := rfl
  have hfits : d < 2 ^ (128 - n.length) := Nat.lt_of_le_of_lt hd (maxDiscriminator_lt_size hn)
  have hsmall : (BitVec.ofNat 128 d).toNat = d := by
    rw [BitVec.toNat_ofNat]
    omega
  rw [BitVec.toNat_or, hsmall, Network.first, Network.toNat_keepTop, Nat.shiftLeft_eq,
    Nat.mul_comm, Nat.two_pow_add_eq_or_of_lt hfits]

/-- Two discriminators have two addresses. -/
theorem address?_injective (hn : n.length ≤ 80) {d d' : Nat} {x : Ipv6}
    (h : address? n d = some x) (h' : address? n d' = some x) : d = d' := by
  have hx := toNat_of_address? hn h
  have hx' := toNat_of_address? hn h'
  omega

variable {site site' : UInt16} {d d' : Nat} {x x' : Ipv6}

theorem le_of_address? (h : address? n d = some x) : d ≤ maxDiscriminator :=
  (address?_isSome_iff n d).1 (Option.isSome_of_eq_some h)

theorem contains_of_address? (hn : n.length ≤ 80) (h : address? n d = some x) :
    n.contains x = true := by
  have hle := le_of_address? h
  have hroom := maxDiscriminator_lt_size hn
  rw [Network.contains_iff_le, Network.toNat_last, toNat_of_address? hn h]
  omega

/-! ## Addresses of sites -/

/-- The /64 that all sites share. -/
def shared : Network 128 := ⟨0xfd7a115ca1e0a99c0000000000000000#128, 64, by decide⟩

/-- The lowest address of a site is the one of all sites plus the site number,
behind which there are 48 bits. -/
theorem toNat_first_ofSite (site : UInt16) :
    (ofSite site).first.toNat = shared.first.toNat + site.toNat * Nat.pow 2 48 := by
  have hshared : shared.first.toNat = base.toNat * 2 ^ 64 := by decide
  have haddress : (ofSite site).address.toNat = (base.toNat * 2 ^ 16 + site.toNat) * 2 ^ 48 := by
    rw [ofSite, BitVec.toNat_append, BitVec.toNat_append,
      ← Nat.shiftLeft_add_eq_or_of_lt site.toBitVec.isLt, Nat.shiftLeft_eq, Nat.shiftLeft_eq]
    exact Nat.or_zero _
  have hsize : (ofSite site).size = 2 ^ 48 := rfl
  change _ = _ + site.toNat * 2 ^ 48
  rw [Network.toNat_first, haddress, hsize, hshared]
  omega

theorem toNat_of_address?_ofSite (h : address? (ofSite site) d = some x) :
    x.toNat = shared.first.toNat + site.toNat * Nat.pow 2 48 + d := by
  rw [toNat_of_address? (Nat.le_refl 80) h, toNat_first_ofSite]

theorem shared_contains_of_address? (h : address? (ofSite site) d = some x) :
    shared.contains x = true := by
  have hle : d < 2 ^ 48 := Nat.lt_of_le_of_lt (le_of_address? h) (by decide)
  have hsite : site.toNat < 2 ^ 16 := site.toBitVec.isLt
  have hsize : shared.size = 2 ^ 64 := rfl
  have hx : x.toNat = shared.first.toNat + site.toNat * 2 ^ 48 + d := toNat_of_address?_ofSite h
  rw [Network.contains_iff_le, Network.toNat_last, hsize, hx]
  omega

/-- An address belongs to one site and one discriminator. -/
theorem eq_iff_of_address? (h : address? (ofSite site) d = some x)
    (h' : address? (ofSite site') d' = some x') : x = x' ↔ site = site' ∧ d = d' := by
  have hle : d < 2 ^ 48 := Nat.lt_of_le_of_lt (le_of_address? h) (by decide)
  have hle' : d' < 2 ^ 48 := Nat.lt_of_le_of_lt (le_of_address? h') (by decide)
  have hx : x.toNat = shared.first.toNat + site.toNat * 2 ^ 48 + d := toNat_of_address?_ofSite h
  have hx' : x'.toNat = shared.first.toNat + site'.toNat * 2 ^ 48 + d' :=
    toNat_of_address?_ofSite h'
  rw [← BitVec.toNat_inj, ← UInt16.toNat_inj, hx, hx']
  omega

/-! ## No collisions -/

/-- The discriminators of 48 bits have an address each in a network, and no
other one has. -/
structure Separates (n : Network 128) : Prop where
  eq_none_iff : ∀ d, address? n d = none ↔ Nat.pow 2 48 - 1 < d
  exists_contains : ∀ d ≤ Nat.pow 2 48 - 1, ∃ x, address? n d = some x ∧ n.contains x = true
  injective : ∀ d d' x, address? n d = some x → address? n d' = some x → d = d'

theorem separates (hn : n.length ≤ 80) : Separates n where
  eq_none_iff d := by
    rw [← Option.not_isSome_iff_eq_none, address?_isSome_iff, Nat.not_le]
    rfl
  exists_contains d hd := by
    obtain ⟨x, hx⟩ := Option.isSome_iff_exists.1 ((address?_isSome_iff n d).2 hd)
    exact ⟨x, hx, contains_of_address? hn hx⟩
  injective _ _ _ := address?_injective hn

/-- **No collisions.**  Exactly the discriminators of 48 bits have an address in
the network of a site, and all of these lie in the /64 that the sites share.
Two addresses are the same iff site and discriminator are.  Any other network
that leaves 48 bits free separates its discriminators as well, whatever its host
bits are. -/
theorem collisionFree :
    (∀ site d, address? (ofSite site) d = none ↔ Nat.pow 2 48 - 1 < d) ∧
      (∀ site, ∀ d ≤ Nat.pow 2 48 - 1, ∃ x, address? (ofSite site) d = some x ∧
        (ofSite site).contains x = true ∧ shared.contains x = true) ∧
      (∀ site site' d d' x x', address? (ofSite site) d = some x →
        address? (ofSite site') d' = some x' → (x = x' ↔ site = site' ∧ d = d')) ∧
      ∀ n : Network 128, n.length ≤ 80 → Separates n := by
  refine ⟨fun site => (separates (Nat.le_refl 80)).eq_none_iff, fun site d hd => ?_,
    fun _ _ _ _ _ _ => eq_iff_of_address?, fun _ => separates⟩
  obtain ⟨x, hx, hcontains⟩ := (separates (n := ofSite site) (Nat.le_refl 80)).exists_contains d hd
  exact ⟨x, hx, hcontains, shared_contains_of_address? hx⟩

/-- The last address of one site and the first one of the next are neighbours,
and a network with host bits separates its discriminators. -/
theorem collisionFree_of_neighbours :
    address? (ofSite 1) 0xffffffffffff = some 0xfd7a115ca1e0a99c0001ffffffffffff#128 ∧
      address? (ofSite 2) 0 = some 0xfd7a115ca1e0a99c0002000000000000#128 ∧
      (∃ x, address? (ofSite 1) 0xffffffffffff = some x ∧ (ofSite 1).contains x = true ∧
        shared.contains x = true) ∧
      ¬0xfd7a115ca1e0a99c0001ffffffffffff#128 = 0xfd7a115ca1e0a99c0002000000000000#128 ∧
      Separates ⟨0xfd0000000000000000000000000000ff#128, 72, by decide⟩ := by
  have hlast : address? (ofSite 1) 0xffffffffffff =
      some 0xfd7a115ca1e0a99c0001ffffffffffff#128 := by decide
  have hfirst : address? (ofSite 2) 0 = some 0xfd7a115ca1e0a99c0002000000000000#128 := by decide
  obtain ⟨-, hcontains, hsame, hseparates⟩ := collisionFree
  refine ⟨hlast, hfirst, hcontains 1 0xffffffffffff (by decide), fun heq => ?_,
    hseparates _ (by decide)⟩
  exact absurd ((hsame 1 2 _ 0 _ _ hlast hfirst).1 heq).1 (by decide)

end DnsConnector.SiteNetwork
