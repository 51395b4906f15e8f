import DnsConnector.Proofs.AddressBook.Request
import DnsConnector.Proofs.AddressBook.Steps
import Mathlib.Data.List.Nodup

/-!
# DnsConnector.Proofs.AddressBook.Leases

The IPv4 side of a book: the pool, the queue, the reverse map and the
allocations agree on who holds which address (`Leased`).  The invariant carries
the list of addresses that were handed out and that nobody holds; it is empty
between requests and has one element while an address changes hands, so that
handing out, taking back and holding are proved one by one.
-/

namespace DnsConnector.AddressBook

/-- The parts of a book agree on the holders of IPv4 addresses; nobody holds
those of `loose`, although they were handed out. -/
structure Leased (loose : List Ipv4) (b : AddressBook) : Prop where
  nodup_pool : b.pool.toList.Nodup
  recycled_eq : b.recycled = []
  handedOut_le : b.handedOut ≤ b.pool.size
  /-- The addresses handed out are the first ones of the pool. -/
  perm : (b.queue.map (·.address) ++ loose).Perm (b.pool.toList.take b.handedOut)
  v4At_iff : ∀ i a, b.v4At i = some a ↔ ∃ h ∈ b.queue, h.number = i ∧ h.address = a
  owner_iff : ∀ a k, b.owners.get? (.v4 a) = some k ↔ ∃ h ∈ b.queue, h.address = a ∧ h.key = k

namespace Leased

variable {loose : List Ipv4} {b : AddressBook}

/-! ## What it says -/

/-- No address is handed out twice. -/
theorem nodup (hb : Leased loose b) : (b.queue.map (·.address) ++ loose).Nodup :=
  hb.perm.nodup_iff.2 (hb.nodup_pool.sublist (List.take_sublist _ _))

/-- Two holders of one address are one holder. -/
theorem eq_of_address_eq (hb : Leased loose b) {x y : Holder} (hx : x ∈ b.queue)
    (hy : y ∈ b.queue) (h : x.address = y.address) : x = y :=
  List.inj_on_of_nodup_map (List.nodup_append.1 hb.nodup).1 hx hy h

/-- A holder's allocation has its address. -/
theorem v4At_number (hb : Leased loose b) {h : Holder} (hh : h ∈ b.queue) :
    b.v4At h.number = some h.address :=
  (hb.v4At_iff _ _).2 ⟨h, hh, rfl, rfl⟩

/-- What an allocation has is handed out. -/
theorem mem_pool_of_v4At (hb : Leased loose b) {i : Nat} {a : Ipv4} (h : b.v4At i = some a) :
    a ∈ b.pool.toList := by
  obtain ⟨x, hx, -, rfl⟩ := (hb.v4At_iff i a).1 h
  have hmem : x.address ∈ b.pool.toList.take b.handedOut :=
    hb.perm.mem_iff.1 (List.mem_append_left _ (List.mem_map_of_mem hx))
  exact List.mem_of_mem_take hmem

/-! ## Steps that leave the holders alone -/

theorem empty {pool : HostPool} (hpool : pool.toList.Nodup) (site : Network 128) (idle : Nat) :
    Leased [] (AddressBook.empty pool site idle) where
  nodup_pool := hpool
  recycled_eq := rfl
  handedOut_le := Nat.zero_le _
  perm := by simp [AddressBook.empty]
  v4At_iff := by simp [AddressBook.empty, v4At]
  owner_iff := by simp [AddressBook.empty]

theorem draw (hb : Leased loose b) : Leased loose b.draw :=
  ⟨hb.nodup_pool, hb.recycled_eq, hb.handedOut_le, hb.perm, hb.v4At_iff, hb.owner_iff⟩

theorem touch (hb : Leased loose b) (i now : Nat) : Leased loose (b.touch i now) where
  nodup_pool := hb.nodup_pool
  recycled_eq := hb.recycled_eq
  handedOut_le := hb.handedOut_le
  perm := hb.perm
  v4At_iff := by
    intro j a
    rw [v4At_touch]
    exact hb.v4At_iff j a
  owner_iff := hb.owner_iff

theorem add (hb : Leased loose b) (v6 : Ipv6) (now : Nat) :
    Leased loose (b.add ⟨none, v6, now⟩) where
  nodup_pool := hb.nodup_pool
  recycled_eq := hb.recycled_eq
  handedOut_le := hb.handedOut_le
  perm := hb.perm
  v4At_iff := by
    intro j a
    rw [v4At_add]
    exact hb.v4At_iff j a
  owner_iff := hb.owner_iff

theorem file (hb : Leased loose b) (k : AllocationKey) (i : Nat) (v6 : Ipv6) :
    Leased loose (b.file k i v6) where
  nodup_pool := hb.nodup_pool
  recycled_eq := hb.recycled_eq
  handedOut_le := hb.handedOut_le
  perm := hb.perm
  v4At_iff := hb.v4At_iff
  owner_iff := by
    intro a k'
    have hne : IpAddress.v4 a ≠ .v6 v6 := nofun
    simp only [AddressBook.file, Table.get?_insert, hne, if_false]
    exact hb.owner_iff a k'

/-- The order and the stamps of the queue do not matter. -/
theorem requeue (hb : Leased loose b) {queue : List Holder}
    (hqueue : Holder.SameHolders queue b.queue) : Leased loose { b with queue } where
  nodup_pool := hb.nodup_pool
  recycled_eq := hb.recycled_eq
  handedOut_le := hb.handedOut_le
  perm := (hqueue.map_address.append_right _).trans hb.perm
  v4At_iff := by
    intro i a
    rw [hqueue.exists_iff fun address _ number => number = i ∧ address = a]
    exact hb.v4At_iff i a
  owner_iff := by
    intro a k
    rw [hqueue.exists_iff fun address key _ => address = a ∧ key = k]
    exact hb.owner_iff a k

/-! ## An address changes hands -/

/-- A fresh address is handed out and nobody holds it yet. -/
theorem handOut (hb : Leased [] b) {a : Ipv4} (ha : b.pool.get? b.handedOut = some a) :
    Leased [a] { b with handedOut := b.handedOut + 1 } where
  nodup_pool := hb.nodup_pool
  recycled_eq := hb.recycled_eq
  handedOut_le := by
    rw [HostPool.get?_eq_getElem?_toList] at ha
    obtain ⟨hlt, -⟩ := List.getElem?_eq_some_iff.1 ha
    rwa [HostPool.length_toList] at hlt
  perm := by
    rw [HostPool.get?_eq_getElem?_toList] at ha
    change (b.queue.map (·.address) ++ [a]).Perm (b.pool.toList.take (b.handedOut + 1))
    rw [List.take_add_one, ha, Option.toList_some]
    simpa using hb.perm.append_right [a]
  v4At_iff := hb.v4At_iff
  owner_iff := hb.owner_iff

/-- A holder leaves the queue and loses its address. -/
theorem release (hb : Leased [] b) {queue : List Holder} {h : Holder}
    (hqueue : Holder.SameHolders (h :: queue) b.queue) :
    Leased [h.address] ({ b with queue }.release h) := by
  have hall : Leased [] { b with queue := h :: queue } := hb.requeue hqueue
  have hfirst : ∀ x ∈ queue, x.address ≠ h.address := by
    have hnodup := hall.nodup
    simp only [List.append_nil, List.map_cons, List.nodup_cons, List.mem_map, not_exists,
      not_and] at hnodup
    exact hnodup.1
  refine ⟨hall.nodup_pool, hall.recycled_eq, hall.handedOut_le, ?_, ?_, ?_⟩
  · have hperm := hall.perm
    simp only [List.append_nil, List.map_cons] at hperm
    exact List.perm_append_comm.trans hperm
  · intro i a
    rw [v4At_release]
    change (if i = h.number then none else b.v4At i) = some a ↔
      ∃ x ∈ queue, x.number = i ∧ x.address = a
    by_cases hi : i = h.number
    · subst hi
      simp only [if_true, reduceCtorEq, false_iff, not_exists, not_and]
      intro x hx hnumber
      have hx4 := hall.v4At_number (List.mem_cons_of_mem h hx)
      have hh4 := hall.v4At_number (List.mem_cons_self (a := h) (l := queue))
      rw [hnumber, hh4] at hx4
      exact absurd (Option.some.inj hx4).symm (hfirst x hx)
    · rw [if_neg hi]
      refine ((hall.v4At_iff i a).trans (List.exists_mem_cons_iff _ h queue)).trans ?_
      refine or_iff_right ?_
      rintro ⟨hnumber, -⟩
      exact hi hnumber.symm
  · intro a k
    change (b.owners.erase (.v4 h.address)).get? (.v4 a) = some k ↔
      ∃ x ∈ queue, x.address = a ∧ x.key = k
    rw [Table.get?_erase]
    by_cases ha : a = h.address
    · subst ha
      simp only [if_true, reduceCtorEq, false_iff, not_exists, not_and]
      intro x hx haddress
      exact absurd haddress (hfirst x hx)
    · rw [if_neg (by simpa using ha)]
      refine ((hall.owner_iff a k).trans (List.exists_mem_cons_iff _ h queue)).trans ?_
      refine or_iff_right ?_
      rintro ⟨haddress, -⟩
      exact ha haddress.symm

/-- A loose address has no holder. -/
theorem address_ne {a : Ipv4} (hb : Leased [a] b) {x : Holder} (hx : x ∈ b.queue) :
    x.address ≠ a :=
  (List.nodup_append.1 hb.nodup).2.2 _ (List.mem_map_of_mem hx) _ List.mem_cons_self

/-- A new holder goes behind all others. -/
theorem queue_hold {a : Ipv4} (hb : Leased [a] b) (k : AllocationKey) (i : Nat) :
    (b.hold k i a).queue = b.queue ++ [⟨a, k, i, b.lastUsedAt i⟩] := by
  have hfilter : b.queue.filter (fun x => decide (x.address ≠ a)) = b.queue :=
    List.filter_eq_self.2 fun x hx => by simpa using hb.address_ne hx
  change b.queue.filter (fun x => decide (x.address ≠ a)) ++ [_] = _
  rw [hfilter]

/-- An allocation without IPv4 address becomes the holder of a loose one. -/
theorem hold {a : Ipv4} (hb : Leased [a] b) (k : AllocationKey) {i : Nat}
    (hi : i < b.allocations.length) (hv4 : b.v4At i = none) : Leased [] (b.hold k i a) := by
  have hqueue := hb.queue_hold k i
  refine ⟨hb.nodup_pool, hb.recycled_eq, hb.handedOut_le, ?_, ?_, ?_⟩
  · rw [hqueue]
    simpa using hb.perm
  · intro j a'
    rw [hqueue, v4At_hold k hi]
    simp only [List.mem_append, List.mem_singleton, or_and_right, exists_or, exists_eq_left]
    rw [← hb.v4At_iff j a']
    by_cases hj : j = i
    · subst hj; simp [hv4]
    · have hne : ¬ i = j := fun e => hj e.symm
      simp [hj, hne]
  · intro a' k'
    rw [hqueue]
    simp only [List.mem_append, List.mem_singleton, or_and_right, exists_or, exists_eq_left]
    rw [← hb.owner_iff a' k']
    change (b.owners.insert (.v4 a) k).get? (.v4 a') = some k' ↔ _
    rw [Table.get?_insert]
    by_cases ha : a' = a
    · subst ha
      have hnone : ¬ b.owners.get? (.v4 a') = some k' := by
        rw [hb.owner_iff]
        rintro ⟨x, hx, haddress, -⟩
        exact hb.address_ne hx haddress
      simp [hnone]
    · have hne : ¬ a = a' := fun e => ha e.symm
      simp [ha, hne]

end Leased

end DnsConnector.AddressBook
