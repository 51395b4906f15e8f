import DnsConnector.Proofs.AddressBook.Search

/-!
# DnsConnector.Proofs.AddressBook.Request

What a request can do to a book, said once.  `Served` has one constructor for
each way a request for a key ends; the book afterwards is put together from the
small steps of the book (`touch`, `draw`, `add`, `hold`, `release`, `file`), so
that whatever these keep is kept by a request (`served_request`).

An allocation that needs an IPv4 address is `Granted` one in three ways: it has
one, there is a fresh one, or a holder gives its own.  Otherwise it is
`Refused` one, and only the order of the queue and its stamps change.
-/

namespace DnsConnector

/-- The key of a peer and a text is the peer and the name of the text. -/
theorem AllocationKey.ofText_eq {domain : String} {name : Fqdn}
    (h : Fqdn.ofText domain = .ok name) (peer : PeerId) :
    AllocationKey.ofText peer domain = .ok ⟨peer, name⟩ := by
  rw [AllocationKey.ofText, h]
  rfl

namespace AddressBook

/-! ## IPv4 addresses -/

/-- The book after an allocation was given the IPv4 address it needs, if it
needs one. -/
inductive Granted (b : AddressBook) (k : AllocationKey) (i : Nat) (family : AddressFamily)
    (now : Nat) : AddressBook → Prop
  /-- None is needed. -/
  | unneeded (hneed : family.needsV4 = false) : Granted b k i family now b
  /-- It has one. -/
  | kept {a : Ipv4} (hneed : family.needsV4 = true) (hv4 : b.v4At i = some a) :
      Granted b k i family now b
  /-- It gets one that was never handed out. -/
  | fresh {a : Ipv4} (hneed : family.needsV4 = true) (hv4 : b.v4At i = none)
      (hfresh : b.pool.get? b.handedOut = some a) :
      Granted b k i family now ({ b with handedOut := b.handedOut + 1 }.hold k i a)
  /-- It gets the one of a holder. -/
  | reclaimed {queue : List Holder} {h : Holder} (hneed : family.needsV4 = true)
      (hv4 : b.v4At i = none) (hdry : b.pool.get? b.handedOut = none)
      (hfind : b.findIdle now = (queue, some h)) :
      Granted b k i family now (({ b with queue }.release h).hold k i h.address)

/-- An allocation was not given the IPv4 address it needs, and the queue is
left in the given order. -/
structure Refused (b : AddressBook) (i : Nat) (family : AddressFamily) (now : Nat)
    (queue : List Holder) : Prop where
  need : family.needsV4 = true
  v4At_eq : b.v4At i = none
  dry : b.pool.get? b.handedOut = none
  find : b.findIdle now = (queue, none)

/-- An address is assigned or refused, if no address was given back. -/
theorem assignV4_cases {b : AddressBook} (hrecycled : b.recycled = []) (k : AllocationKey)
    (i now : Nat) {family : AddressFamily} (hneed : family.needsV4 = true) :
    (∃ b' a, b.assignV4 k i now = (b', some a) ∧ Granted b k i family now b') ∨
      ∃ queue, b.assignV4 k i now = ({ b with queue }, none) ∧ Refused b i family now queue := by
  cases hv4 : b.v4At i with
  | some a =>
      have hassign : b.assignV4 k i now = (b, some a) := by simp [assignV4, hv4]
      exact .inl ⟨b, a, hassign, .kept hneed hv4⟩
  | none =>
      cases hfresh : b.pool.get? b.handedOut with
      | some a =>
          have hassign : b.assignV4 k i now =
              ({ b with handedOut := b.handedOut + 1 }.hold k i a, some a) := by
            simp [assignV4, hv4, obtainV4, takeFree, hrecycled, hfresh]
          exact .inl ⟨_, a, hassign, .fresh hneed hv4 hfresh⟩
      | none =>
          have hobtain : b.obtainV4 now = b.reclaim now := by
            simp [obtainV4, takeFree, hrecycled, hfresh]
          match hfind : b.findIdle now with
          | (queue, some h) =>
              have hassign : b.assignV4 k i now =
                  (({ b with queue }.release h).hold k i h.address, some h.address) := by
                simp [assignV4, hv4, hobtain, reclaim, hfind]
              exact .inl ⟨_, h.address, hassign, .reclaimed hneed hv4 hfresh hfind⟩
          | (queue, none) =>
              have hassign : b.assignV4 k i now = ({ b with queue }, none) := by
                simp [assignV4, hv4, hobtain, reclaim, hfind]
              exact .inr ⟨queue, hassign, hneed, hv4, hfresh, hfind⟩

/-! ## Requests -/

/-- The book as the first request for a key finds it, with an allocation for
the key that is not filed yet. -/
def prepared (b : AddressBook) (v6 : Ipv6) (now : Nat) : AddressBook := b.draw.add ⟨none, v6, now⟩

/-- The ways a request for a key ends. -/
inductive Served (b : AddressBook) (k : AllocationKey) (family : AddressFamily) (now : Nat) :
    AddressBook × Except AllocationFault (List IpAddress) → Prop
  /-- The key is new and there is no discriminator for it. -/
  | noIpv6 (hkey : b.records.get? k = none)
      (hsite : SiteNetwork.address? b.site (b.drawn + 1) = none) :
      Served b k family now (b.draw, .error .noIpv6)
  /-- The key is new and there is no IPv4 address for it. -/
  | refusedNew {v6 : Ipv6} {queue : List Holder} (hkey : b.records.get? k = none)
      (hsite : SiteNetwork.address? b.site (b.drawn + 1) = some v6)
      (hrefused : Refused (b.prepared v6 now) b.allocations.length family now queue) :
      Served b k family now ({ b.draw with queue }, .error (.noIpv4 k.name))
  /-- The key is new and is filed. -/
  | created {v6 : Ipv6} {b' : AddressBook} (hkey : b.records.get? k = none)
      (hsite : SiteNetwork.address? b.site (b.drawn + 1) = some v6)
      (hgranted : Granted (b.prepared v6 now) k b.allocations.length family now b') :
      Served b k family now
        (b'.file k b.allocations.length v6, .ok (b'.addressesAt b.allocations.length))
  /-- The key is filed and there is no IPv4 address for it. -/
  | refused {i : Nat} {queue : List Holder} (hkey : b.records.get? k = some i)
      (hrefused : Refused (b.touch i now) i family now queue) :
      Served b k family now ({ b.touch i now with queue }, .error (.noIpv4 k.name))
  /-- The key is filed and keeps its addresses, or is given an IPv4 address. -/
  | renewed {i : Nat} {b' : AddressBook} (hkey : b.records.get? k = some i)
      (hgranted : Granted (b.touch i now) k i family now b') :
      Served b k family now (b', .ok (b'.addressesAt i))

theorem served_create {b : AddressBook} (hrecycled : b.recycled = []) {k : AllocationKey}
    (hkey : b.records.get? k = none) (family : AddressFamily) (now : Nat) :
    Served b k family now (b.create k family now) := by
  simp only [create]
  cases hsite : SiteNetwork.address? b.draw.site b.draw.drawn with
  | none => exact .noIpv6 hkey hsite
  | some v6 =>
      by_cases hneed : family.needsV4 = true
      · simp only [hneed, if_true]
        rcases assignV4_cases (b := b.prepared v6 now) hrecycled k b.draw.allocations.length now
          hneed with ⟨b', a, hassign, hgranted⟩ | ⟨queue, hassign, hrefused⟩
        · rw [prepared] at hassign
          rw [hassign]
          exact .created hkey hsite hgranted
        · rw [prepared] at hassign
          rw [hassign]
          have hdrop : { b.prepared v6 now with
              queue, allocations := (b.prepared v6 now).allocations.take b.allocations.length } =
              { b.draw with queue } := by
            simp [prepared, add, draw]
          have hserved := Served.refusedNew hkey hsite hrefused
          rwa [← hdrop] at hserved
      · simp only [hneed]
        exact .created hkey hsite (.unneeded (Bool.eq_false_iff.2 hneed))

theorem served_renew {b : AddressBook} (hrecycled : b.recycled = []) {k : AllocationKey} {i : Nat}
    (hkey : b.records.get? k = some i) (family : AddressFamily) (now : Nat) :
    Served b k family now (b.renew k i family now) := by
  rw [renew]
  by_cases hneed : family.needsV4 = true
  · simp only [hneed, if_true]
    rcases assignV4_cases (b := b.touch i now) hrecycled k i now hneed
      with ⟨b', a, hassign, hgranted⟩ | ⟨queue, hassign, hrefused⟩
    · rw [hassign]
      exact .renewed hkey hgranted
    · rw [hassign]
      exact .refused hkey hrefused
  · simp only [hneed]
    exact .renewed hkey (.unneeded (Bool.eq_false_iff.2 hneed))

/-- A request for a key ends in one of these ways. -/
theorem served_request {b : AddressBook} (hrecycled : b.recycled = []) {peer : PeerId}
    {domain : String} {k : AllocationKey} (hkey : AllocationKey.ofText peer domain = .ok k)
    (family : AddressFamily) (now : Nat) :
    Served b k family now (b.request peer domain family now) := by
  rw [request, hkey]
  cases hrecord : b.records.get? k with
  | none => simpa only [hrecord] using served_create hrecycled hrecord family now
  | some i => simpa only [hrecord] using served_renew hrecycled hrecord family now

/-- A text that is no name changes nothing. -/
theorem request_of_badName {b : AddressBook} {peer : PeerId} {domain : String}
    {fault : NameFault} (hkey : AllocationKey.ofText peer domain = .error fault)
    (family : AddressFamily) (now : Nat) :
    b.request peer domain family now = (b, .error (.badName fault)) := by
  rw [request, hkey]

end AddressBook

end DnsConnector
