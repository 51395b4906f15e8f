import DnsConnector.Network

/-!
# DnsConnector.SiteNetwork

The unique local IPv6 network of a connector.  All connectors share the upper
64 bits, the site number takes the next 16, and the lower 48 bits of the /80
hold a discriminator that is drawn anew for every allocation.
-/

namespace DnsConnector.SiteNetwork

/-- The upper 64 bits shared by all sites. -/
def base : BitVec 64 := 0xfd7a115ca1e0a99c

/-- The /80 of a site. -/
def ofSite (site : UInt16) : Network 128 :=
  ⟨base ++ site.toBitVec ++ (0 : BitVec 48), 80, by decide⟩

/-- The largest discriminator: what fits into the 48 bits below a /80. -/
def maxDiscriminator : Nat := 0xffffffffffff

/-- The address with the given discriminator in its low bits. -/
def address? (n : Network 128) (d : Nat) : Option Ipv6 :=
  if d ≤ maxDiscriminator then some (n.first ||| BitVec.ofNat 128 d) else none

/-- Exactly the discriminators that fit have an address. -/
theorem address?_isSome_iff (n : Network 128) (d : Nat) :
    (address? n d).isSome = true ↔ d ≤ maxDiscriminator := by
  simp only [address?]
  split <;> simp_all

end DnsConnector.SiteNetwork
