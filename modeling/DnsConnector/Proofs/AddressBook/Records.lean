import DnsConnector.Proofs.AddressBook.Leases
import DnsConnector.Proofs.SiteNetwork

/-!
# DnsConnector.Proofs.AddressBook.Records

The keys' side of a book: every key has an allocation of its own, every holder
in the queue belongs to the allocation of its key (`Filed`), and the IPv6
addresses of the records are different discriminators of the site, under which
the reverse map has their keys (`Sited`).

While a new key is served its allocation exists before it is filed, and an IPv4
address is held for it by then.  `Filed` therefore takes the numbers of the
keys as a parameter: at rest it is the table of records, in between that table
and the new key (`withKey`).
-/

namespace DnsConnector.AddressBook

/-! ## Keys and holders -/

/-- Every key has an allocation of its own, and holders belong to the
allocation of their key. -/
structure Filed (own : AllocationKey → Option Nat) (b : AddressBook) : Prop where
  lt_length : ∀ k i, own k = some i → i < b.allocations.length
  injective : ∀ k k' i, own k = some i → own k' = some i → k = k'
  own_key : ∀ h ∈ b.queue, own h.key = some h.number

/-- Numbers of keys, with one more key. -/
def withKey (own : AllocationKey → Option Nat) (k : AllocationKey) (i : Nat) :
    AllocationKey → Option Nat :=
  fun k' => if k' = k then some i else own k'

theorem withKey_self (own : AllocationKey → Option Nat) (k : AllocationKey) (i : Nat) :
    withKey own k i k = some i := if_pos rfl

theorem withKey_of_ne {own : AllocationKey → Option Nat} {k k' : AllocationKey} (h : k' ≠ k)
    (i : Nat) : withKey own k i k' = own k' := if_neg h

/-- Filing adds a key to the table. -/
theorem get?_records_file (b : AddressBook) (k : AllocationKey) (i : Nat) (v6 : Ipv6) :
    (b.file k i v6).records.get? = withKey b.records.get? k i := by
  funext k'
  exact Table.get?_insert b.records k k' i

namespace Filed

variable {own : AllocationKey → Option Nat} {b : AddressBook}

theorem empty (pool : HostPool) (site : Network 128) (idle : Nat) :
    Filed (AddressBook.empty pool site idle).records.get? (AddressBook.empty pool site idle) where
  lt_length := by simp [AddressBook.empty]
  injective := by simp [AddressBook.empty]
  own_key := by simp [AddressBook.empty]

/-- The allocation of a key has an IPv6 address. -/
theorem exists_v6At (hb : Filed own b) {k : AllocationKey} {i : Nat} (hk : own k = some i) :
    ∃ x, b.v6At i = some x := by
  rw [v6At, List.getElem?_eq_getElem (hb.lt_length k i hk)]
  exact ⟨_, rfl⟩

theorem draw (hb : Filed own b) : Filed own b.draw := ⟨hb.lt_length, hb.injective, hb.own_key⟩

theorem file (hb : Filed own b) (k : AllocationKey) (i : Nat) (v6 : Ipv6) :
    Filed own (b.file k i v6) := ⟨hb.lt_length, hb.injective, hb.own_key⟩

theorem touch (hb : Filed own b) (i now : Nat) : Filed own (b.touch i now) where
  lt_length := by simpa using hb.lt_length
  injective := hb.injective
  own_key := hb.own_key

/-- The allocation of a new key is behind all others. -/
theorem prepared (hb : Filed own b) {k : AllocationKey} (hk : own k = none) (v6 : Ipv6)
    (now : Nat) : Filed (withKey own k b.allocations.length) (b.prepared v6 now) where
  lt_length := by
    intro k' i h
    change i < (b.allocations ++ [_]).length
    rw [List.length_append, List.length_singleton]
    by_cases hk' : k' = k
    · subst hk'
      rw [withKey_self] at h
      have hi : b.allocations.length = i := Option.some.inj h
      omega
    · rw [withKey_of_ne hk'] at h
      have hi := hb.lt_length k' i h
      omega
  injective := by
    intro k₁ k₂ i h₁ h₂
    by_cases hk₁ : k₁ = k <;> by_cases hk₂ : k₂ = k
    · rw [hk₁, hk₂]
    · subst hk₁
      rw [withKey_self] at h₁
      rw [withKey_of_ne hk₂, ← Option.some.inj h₁] at h₂
      exact absurd (hb.lt_length k₂ _ h₂) (Nat.lt_irrefl _)
    · subst hk₂
      rw [withKey_self] at h₂
      rw [withKey_of_ne hk₁, ← Option.some.inj h₂] at h₁
      exact absurd (hb.lt_length k₁ _ h₁) (Nat.lt_irrefl _)
    · rw [withKey_of_ne hk₁] at h₁
      rw [withKey_of_ne hk₂] at h₂
      exact hb.injective k₁ k₂ i h₁ h₂
  own_key := by
    intro h hh
    have hown : own h.key = some h.number := hb.own_key h hh
    have hne : h.key ≠ k := by
      rintro rfl
      rw [hk] at hown
      contradiction
    rw [withKey_of_ne hne]
    exact hown

/-- The order and the stamps of the queue do not matter. -/
theorem requeue (hb : Filed own b) {queue : List Holder}
    (hqueue : Holder.SameHolders queue b.queue) : Filed own { b with queue } where
  lt_length := hb.lt_length
  injective := hb.injective
  own_key := by
    intro x hx
    obtain ⟨y, hy, -, hkey, hnumber⟩ := hqueue.exists_mem hx
    rw [← hkey, ← hnumber]
    exact hb.own_key y hy

theorem release (hb : Filed own b) {queue : List Holder} {h : Holder}
    (hqueue : Holder.SameHolders (h :: queue) b.queue) :
    Filed own ({ b with queue }.release h) where
  lt_length := by simpa using hb.lt_length
  injective := hb.injective
  own_key := by
    intro x hx
    exact (hb.requeue hqueue).own_key x (List.mem_cons_of_mem h hx)

theorem hold (hb : Filed own b) {a : Ipv4} (hloose : Leased [a] b) {k : AllocationKey} {i : Nat}
    (hk : own k = some i) : Filed own (b.hold k i a) where
  lt_length := by simpa using hb.lt_length
  injective := hb.injective
  own_key := by
    intro x hx
    rw [hloose.queue_hold] at hx
    rcases List.mem_append.1 hx with hx | hx
    · exact hb.own_key x hx
    · rw [List.mem_singleton.1 hx]
      exact hk

end Filed

/-! ## Granting and refusing -/

section Assigning

variable {own : AllocationKey → Option Nat} {b b' : AddressBook} {k : AllocationKey}
  {i now : Nat} {family : AddressFamily} {queue : List Holder}

/-- A search for an idle holder loses no holder but the one it finds. -/
theorem sameHolders_of_findIdle {found : Option Holder} (h : b.findIdle now = (queue, found)) :
    Holder.SameHolders (found.toList ++ queue) b.queue := by
  have hsearched := Holder.searched b.lastUsedAt now b.idleLimit b.queue
  rw [findIdle] at h
  rw [h] at hsearched
  exact hsearched.sameHolders

/-- While an address is granted the parts of the book stay in agreement. -/
theorem Granted.keeps (hgranted : Granted b k i family now b') (hleased : Leased [] b)
    (hfiled : Filed own b) (hk : own k = some i) : Leased [] b' ∧ Filed own b' := by
  have hi : i < b.allocations.length := hfiled.lt_length k i hk
  cases hgranted with
  | unneeded => exact ⟨hleased, hfiled⟩
  | kept => exact ⟨hleased, hfiled⟩
  | fresh _ hv4 hfresh =>
      have hloose := hleased.handOut hfresh
      have hfiled' : Filed own { b with handedOut := b.handedOut + 1 } :=
        ⟨hfiled.lt_length, hfiled.injective, hfiled.own_key⟩
      exact ⟨hloose.hold k hi hv4, hfiled'.hold hloose hk⟩
  | @reclaimed queue h _ hv4 _ hfind =>
      have hqueue := sameHolders_of_findIdle hfind
      have hloose := hleased.release hqueue
      have hv4' : ({ b with queue }.release h).v4At i = none := by
        rw [v4At_release]
        split
        · rfl
        · exact hv4
      have hi' : i < ({ b with queue }.release h).allocations.length := by simpa using hi
      exact ⟨hloose.hold k hi' hv4', (hfiled.release hqueue).hold hloose hk⟩

/-- Everything but IPv4 addresses and who holds them is the same in both books. -/
structure SameBesidesV4 (b b' : AddressBook) : Prop where
  pool_eq : b'.pool = b.pool
  site_eq : b'.site = b.site
  reclaimIdle_eq : b'.reclaimIdle = b.reclaimIdle
  records_eq : b'.records = b.records
  drawn_eq : b'.drawn = b.drawn
  v6At_eq : ∀ j, b'.v6At j = b.v6At j
  lastUsedAt_eq : ∀ j, b'.lastUsedAt j = b.lastUsedAt j
  owner_eq : ∀ x, b'.owners.get? (.v6 x) = b.owners.get? (.v6 x)

theorem SameBesidesV4.v6?_eq (h : SameBesidesV4 b b') (k : AllocationKey) :
    b'.v6? k = b.v6? k := by
  simp only [v6?, h.records_eq]
  exact congrArg _ (funext h.v6At_eq)

theorem Granted.sameBesidesV4 (hgranted : Granted b k i family now b') : SameBesidesV4 b b' := by
  cases hgranted with
  | unneeded => exact ⟨rfl, rfl, rfl, rfl, rfl, fun _ => rfl, fun _ => rfl, fun _ => rfl⟩
  | kept => exact ⟨rfl, rfl, rfl, rfl, rfl, fun _ => rfl, fun _ => rfl, fun _ => rfl⟩
  | @fresh a =>
      refine ⟨rfl, rfl, rfl, rfl, rfl, fun j => v6At_hold k i a j,
        fun j => lastUsedAt_hold k i a j, fun x => ?_⟩
      change (b.owners.insert (.v4 a) k).get? (.v6 x) = _
      rw [Table.get?_insert, if_neg (by simp)]
  | @reclaimed queue h =>
      refine ⟨rfl, rfl, rfl, rfl, rfl, fun j => ?_, fun j => ?_, fun x => ?_⟩
      · rw [v6At_hold, v6At_release]
        rfl
      · rw [lastUsedAt_hold, lastUsedAt_release]
        rfl
      · change ((b.owners.erase (.v4 h.address)).insert (.v4 h.address) k).get? (.v6 x) = _
        rw [Table.get?_insert, if_neg (by simp), Table.get?_erase, if_neg (by simp)]

end Assigning

/-! ## A new record -/

section Creating

variable {b b' : AddressBook} {k : AllocationKey} {x : Ipv6} {family : AddressFamily} {now : Nat}

/-- The table of records after a new key was filed. -/
theorem Granted.get?_records_file
    (hgranted : Granted (b.prepared x now) k b.allocations.length family now b') :
    (b'.file k b.allocations.length x).records.get? =
      withKey b.records.get? k b.allocations.length := by
  rw [AddressBook.get?_records_file, hgranted.sameBesidesV4.records_eq]
  rfl

/-- A request for a key leaves the records of other keys alone. -/
theorem Served.get?_records_of_ne {r : AddressBook × Except AllocationFault (List IpAddress)}
    (h : Served b k family now r) {k' : AllocationKey} (hk : k' ≠ k) :
    r.1.records.get? k' = b.records.get? k' := by
  cases h with
  | noIpv6 => rfl
  | refusedNew => rfl
  | created _ _ hgranted => rw [hgranted.get?_records_file, withKey_of_ne hk]
  | refused => rfl
  | renewed _ hgranted => exact congrArg (Table.get? · k') hgranted.sameBesidesV4.records_eq

/-- The IPv6 addresses after a new key was filed. -/
theorem Granted.v6?_file (hfiled : Filed b.records.get? b)
    (hgranted : Granted (b.prepared x now) k b.allocations.length family now b')
    (k' : AllocationKey) :
    (b'.file k b.allocations.length x).v6? k' = if k' = k then some x else b.v6? k' := by
  have hv6 : ∀ j, b'.v6At j = if j = b.allocations.length then some x else b.v6At j :=
    fun j => (hgranted.sameBesidesV4.v6At_eq j).trans (v6At_add x now j)
  rw [v6?, hgranted.get?_records_file]
  by_cases hk : k' = k
  · subst hk
    rw [if_pos rfl, withKey_self]
    exact (hv6 _).trans (if_pos rfl)
  · rw [if_neg hk, withKey_of_ne hk, v6?]
    cases hi : b.records.get? k' with
    | none => rfl
    | some i => exact (hv6 i).trans (if_neg (Nat.ne_of_lt (hfiled.lt_length k' i hi)))

end Creating

/-! ## IPv6 addresses -/

/-- The IPv6 addresses of the records are discriminators of the site that were
drawn, and the reverse map knows exactly them. -/
structure Sited (b : AddressBook) : Prop where
  length_site_le : b.site.length ≤ 80
  drawn_of_v6? : ∀ k x, b.v6? k = some x → ∃ d, 0 < d ∧ d ≤ b.drawn ∧
    SiteNetwork.address? b.site d = some x
  owner_iff : ∀ x k, b.owners.get? (.v6 x) = some k ↔ b.v6? k = some x

namespace Sited

variable {b b' : AddressBook}

theorem empty (pool : HostPool) {site : Network 128} (hsite : site.length ≤ 80) (idle : Nat) :
    Sited (AddressBook.empty pool site idle) where
  length_site_le := hsite
  drawn_of_v6? := by simp [AddressBook.empty, v6?]
  owner_iff := by simp [AddressBook.empty, v6?]

/-- Drawing more discriminators does not matter to the records that are there. -/
theorem congr (hb : Sited b) (hsite : b'.site = b.site) (hrecords : b'.records = b.records)
    (hdrawn : b.drawn ≤ b'.drawn) (hv6 : ∀ j, b'.v6At j = b.v6At j)
    (howners : ∀ x, b'.owners.get? (.v6 x) = b.owners.get? (.v6 x)) : Sited b' := by
  have hsame : ∀ k, b'.v6? k = b.v6? k := by
    intro k
    simp only [v6?, hrecords]
    exact congrArg _ (funext hv6)
  refine ⟨hsite ▸ hb.length_site_le, ?_, ?_⟩
  · intro k x hx
    obtain ⟨d, hpos, hle, hd⟩ := hb.drawn_of_v6? k x (hsame k ▸ hx)
    exact ⟨d, hpos, Nat.le_trans hle hdrawn, hsite ▸ hd⟩
  · intro x k
    rw [howners, hsame]
    exact hb.owner_iff x k

/-- The discriminator drawn next belongs to no record. -/
theorem v6?_ne (hb : Sited b) {x : Ipv6}
    (hx : SiteNetwork.address? b.site (b.drawn + 1) = some x) (k : AllocationKey) :
    b.v6? k ≠ some x := by
  intro hv6
  obtain ⟨d, -, hle, hd⟩ := hb.drawn_of_v6? k x hv6
  have he := SiteNetwork.address?_injective hb.length_site_le hx hd
  omega

/-- A new key is filed with the discriminator drawn for it. -/
theorem created (hb : Sited b) (hfiled : Filed b.records.get? b) {k : AllocationKey} {x : Ipv6}
    {family : AddressFamily} {now : Nat} (hkey : b.records.get? k = none)
    (hx : SiteNetwork.address? b.site (b.drawn + 1) = some x)
    (hgranted : Granted (b.prepared x now) k b.allocations.length family now b') :
    Sited (b'.file k b.allocations.length x) := by
  have hsame := hgranted.sameBesidesV4
  have hsite : (b'.file k b.allocations.length x).site = b.site := hsame.site_eq
  have hdrawn : (b'.file k b.allocations.length x).drawn = b.drawn + 1 := hsame.drawn_eq
  have hv6 := hgranted.v6?_file hfiled
  refine ⟨hsite ▸ hb.length_site_le, ?_, ?_⟩
  · intro k' y hy
    rw [hv6] at hy
    rw [hdrawn, hsite]
    split at hy
    next =>
      obtain rfl := Option.some.inj hy
      exact ⟨b.drawn + 1, Nat.succ_pos _, Nat.le_refl _, hx⟩
    next =>
      obtain ⟨d, hpos, hle, hd⟩ := hb.drawn_of_v6? k' y hy
      exact ⟨d, hpos, Nat.le_succ_of_le hle, hd⟩
  · intro y k'
    change (b'.owners.insert (.v6 x) k).get? (.v6 y) = some k' ↔ _
    rw [Table.get?_insert, hsame.owner_eq, hv6]
    change (if _ then _ else b.owners.get? (.v6 y)) = some k' ↔ _
    by_cases hy : y = x
    · subst hy
      have hother := hb.v6?_ne hx k'
      by_cases hk' : k' = k
      · simp [hk']
      · have hne : ¬ k = k' := fun e => hk' e.symm
        simp [hk', hne, hother]
    · have hne : IpAddress.v6 y ≠ .v6 x := by simpa using hy
      rw [if_neg hne, hb.owner_iff]
      by_cases hk' : k' = k
      · subst hk'
        have hnone : b.v6? k' = none := by simp [v6?, hkey]
        have hne' : ¬ x = y := fun e => hy e.symm
        simp [hnone, hne']
      · rw [if_neg hk']

end Sited

end DnsConnector.AddressBook
