import DnsConnector.Proofs.AddressBook.Reclaim

/-!
# DnsConnector.Proofs.AddressBook.Exhaustion

When a request for IPv4 is refused.  If nothing is available, the answer is
decided by the first holder in the queue that nobody asked for since it was
queued: its address is granted if the last request for it was long enough ago,
and otherwise the request is refused (`answer_run_of_exhausted`).  An idle
holder further behind does not help, nor do idle holders all of which were
asked for since they were queued (`refused_although_idle`).
-/

namespace DnsConnector.AddressBook

open Call

variable {b : AddressBook} {k : AllocationKey} {family : AddressFamily} {now : Nat}
  {r : AddressBook × Except AllocationFault (List IpAddress)} {calls : List Call} {c : Call}

/-! ## The answer of a search -/

/-- A key without IPv4 address is served by the search if nothing is available
in the pool. -/
theorem Granted.addressesAt_eq {b' : AddressBook} {i : Nat} {v6 : Ipv6}
    (hgranted : Granted b k i family now b') (hi : i < b.allocations.length)
    (hneed : family.needsV4 = true) (hv4 : b.v4At i = none)
    (hdry : b.pool.get? b.handedOut = none) (hv6 : b.v6At i = some v6) :
    ∃ queue x, b.findIdle now = (queue, some x) ∧
      b'.addressesAt i = [.v4 x.address, .v6 v6] := by
  have hv6' : b'.v6At i = some v6 := (hgranted.sameBesidesV4.v6At_eq i).trans hv6
  rw [AddressBook.addressesAt_eq hv6']
  cases hgranted with
  | unneeded hneed' => rw [hneed] at hneed'; contradiction
  | kept _ hv4' => rw [hv4] at hv4'; contradiction
  | fresh _ _ hfresh => rw [hdry] at hfresh; contradiction
  | @reclaimed queue x _ _ _ hfind =>
      refine ⟨queue, x, hfind, ?_⟩
      rw [v4At_hold k (by simpa using hi), if_pos rfl]
      rfl

/-- If nothing is available, a request that needs an address for a key without
one is answered by the search. -/
theorem Served.answer_of_exhausted (h : Served b k family now r) (hb : Coherent b)
    (hneed : family.needsV4 = true) (hv4 : b.v4? k = none) (hdry : b.available = 0)
    (hfree : b.drawn < SiteNetwork.maxDiscriminator) :
    (∃ queue x v6, b.findIdle now = (queue, some x) ∧ r.2 = .ok [.v4 x.address, .v6 v6]) ∨
      ∃ queue, b.findIdle now = (queue, none) ∧ r.2 = .error (.noIpv4 k.name) := by
  have hdry' := hb.leased.available_eq_zero_iff.1 hdry
  cases h with
  | noIpv6 _ hsite =>
      have hsome := (SiteNetwork.address?_isSome_iff b.site (b.drawn + 1)).2 hfree
      rw [hsite] at hsome
      contradiction
  | @refusedNew v6 queue _ _ hrefused =>
      exact .inr ⟨queue, (findIdle_prepared hb v6).symm.trans hrefused.find, rfl⟩
  | @created v6 b' hkey _ hgranted =>
      have hi := (hb.filed.prepared hkey v6 now).lt_length k _ (withKey_self _ k _)
      have hv4' : (b.prepared v6 now).v4At b.allocations.length = none := by
        rw [prepared, v4At_add, v4At]
        exact congrArg (Option.bind · _) (getElem?_length_allocations (b := b))
      obtain ⟨queue, x, hfind, hanswer⟩ := hgranted.addressesAt_eq hi hneed hv4' hdry'
        ((v6At_add v6 now _).trans (if_pos rfl))
      exact .inl ⟨queue, x, v6, (findIdle_prepared hb v6).symm.trans hfind,
        congrArg Except.ok hanswer⟩
  | @refused i queue hkey hrefused =>
      have hv4' : b.v4At i = none := by rwa [v4?, hkey] at hv4
      exact .inr ⟨queue, (findIdle_touch hb hkey hv4').symm.trans hrefused.find, rfl⟩
  | @renewed i b' hkey hgranted =>
      have hv4' : b.v4At i = none := by rwa [v4?, hkey] at hv4
      have hi := hb.filed.lt_length k i hkey
      obtain ⟨v6, hv6⟩ := hb.filed.exists_v6At hkey
      obtain ⟨queue, x, hfind, hanswer⟩ := hgranted.addressesAt_eq (by simpa using hi) hneed
        ((v4At_touch i now i).trans hv4') hdry' ((v6At_touch i now i).trans hv6)
      exact .inl ⟨queue, x, v6, (findIdle_touch hb hkey hv4').symm.trans hfind,
        congrArg Except.ok hanswer⟩

/-! ## In terms of the requests so far -/

/-- The first holder in a queue that nobody asked for since it was queued, if
the last request for it was long enough ago. -/
def Yielding (calls : List Call) (now idle : Nat) (queue : List Holder) (x : Holder) : Prop :=
  ∃ front rest, queue = front ++ x :: rest ∧
    (∀ y ∈ front, y.stamp < lastRequest calls y.key) ∧
    lastRequest calls x.key ≤ x.stamp ∧ lastRequest calls x.key + idle ≤ now

/-- What the search finds is what yields. -/
theorem exists_findIdle_iff (hb : Coherent b) (hrecorded : Recorded calls b)
    (hlast : ∀ e ∈ calls, e.time ≤ now) {x : Holder} :
    (∃ queue, b.findIdle now = (queue, some x)) ↔
      Yielding calls now b.idleLimit b.queue x := by
  have hused : ∀ y ∈ b.queue, b.lastUsedAt y.number = lastRequest calls y.key :=
    fun y hy => hrecorded.lastUsedAt_eq hb hy
  have hle : lastRequest calls x.key ≤ now := lastRequest_le hlast
  have hsame : ∀ front rest, b.queue = front ++ x :: rest →
      ((∀ y ∈ front, y.stamp < b.lastUsedAt y.number) ∧ b.lastUsedAt x.number ≤ x.stamp ∧
          b.idleLimit ≤ now - b.lastUsedAt x.number ↔
        (∀ y ∈ front, y.stamp < lastRequest calls y.key) ∧ lastRequest calls x.key ≤ x.stamp ∧
          lastRequest calls x.key + b.idleLimit ≤ now) := by
    intro front rest hqueue
    have hx := hused x (by simp [hqueue])
    have hfront : (∀ y ∈ front, y.stamp < b.lastUsedAt y.number) ↔
        ∀ y ∈ front, y.stamp < lastRequest calls y.key := by
      refine forall₂_congr fun y hy => ?_
      rw [hused y (by simp [hqueue, hy])]
    rw [hfront, hx, Nat.le_sub_iff_add_le hle, Nat.add_comm]
  have hfind : ∀ queue, b.findIdle now = (queue, some x) ↔ _ :=
    fun queue => Holder.search_eq_some_iff
  simp only [hfind]
  constructor
  · rintro ⟨-, front, rest, hqueue, -, htimes⟩
    exact ⟨front, rest, hqueue, (hsame front rest hqueue).1 htimes⟩
  · rintro ⟨front, rest, hqueue, hrequests⟩
    exact ⟨_, front, rest, hqueue, rfl, (hsame front rest hqueue).2 hrequests⟩

/-- **Exhaustion.**  After requests in the order of time, a request that needs
an IPv4 address for a key without one while nothing is available is given the
address of the yielding holder, and is refused if no holder yields. -/
theorem answer_run_of_exhausted {ns : List (Network 32)} {plan : AddressPlan}
    (hplan : AddressPlan.ofNetworks ns = .ok plan) (site : Network 128) {idle : Nat}
    (hidle : idle < UInt64.size) {calls : List Call} {c : Call}
    (hcalls : InOrder (calls ++ [c])) {k : AllocationKey} (hkey : c.key? = some k)
    (hneed : c.family.needsV4 = true)
    (hv4 : ((empty plan.pool site idle).run calls).v4? k = none)
    (hdry : ((empty plan.pool site idle).run calls).available = 0)
    (hfree : ((empty plan.pool site idle).run calls).drawn < SiteNetwork.maxDiscriminator) :
    (∀ x, Yielding calls c.time idle ((empty plan.pool site idle).run calls).queue x →
        ∃ v6, (((empty plan.pool site idle).run calls).answer c).2 =
          .ok [.v4 x.address, .v6 v6]) ∧
      ((∀ x, ¬Yielding calls c.time idle ((empty plan.pool site idle).run calls).queue x) →
        (((empty plan.pool site idle).run calls).answer c).2 = .error (.noIpv4 k.name)) := by
  have hempty := Coherent.empty (AddressPlan.nodup_pool hplan) site idle
  have hb := hempty.run calls
  obtain ⟨horder, hlast⟩ := inOrder_append_singleton.1 hcalls
  have hrecorded := Recorded.run hempty rfl horder
  have hlimit := idleLimit_eq (sameSetting_run hempty calls).reclaimIdle_eq hidle
  have hyields := fun x => exists_findIdle_iff (x := x) hb hrecorded hlast
  rw [hlimit] at hyields
  generalize (empty plan.pool site idle).run calls = b at *
  have hserved := served_of_key?_eq hb.leased.recycled_eq hkey
  rcases hserved.answer_of_exhausted hb hneed hv4 hdry hfree with
    ⟨queue, x, v6, hfind, hanswer⟩ | ⟨queue, hfind, hanswer⟩
  · refine ⟨fun y hy => ?_, fun hnone => absurd ((hyields x).1 ⟨queue, hfind⟩) (hnone x)⟩
    obtain ⟨queue', hfind'⟩ := (hyields y).2 hy
    have hxy : some x = some y := congrArg Prod.snd (hfind.symm.trans hfind')
    obtain rfl := Option.some.inj hxy
    exact ⟨v6, hanswer⟩
  · refine ⟨fun y hy => ?_, fun _ => hanswer⟩
    obtain ⟨queue', hfind'⟩ := (hyields y).2 hy
    exact absurd (congrArg Prod.snd (hfind.symm.trans hfind')) nofun

/-- The only holder yields, as nobody asked for it again. -/
theorem answer_run_of_exhausted_of_yielding :
    InOrder ([⟨⟨"p"⟩, "a", .both, 0⟩] ++ [⟨⟨"q"⟩, "a", .v4, 1000⟩]) ∧
      Yielding [⟨⟨"p"⟩, "a", .both, 0⟩] 1000 1000
        ((empty (AddressPlan.ofRoutes ⟨0x0a000000#32, 30, by decide⟩ []).pool
          (SiteNetwork.ofSite 1) 1000).run [⟨⟨"p"⟩, "a", .both, 0⟩]).queue
        ⟨0x0a000002#32, ⟨⟨"p"⟩, ⟨"a."⟩⟩, 0, 0⟩ ∧
      ∃ v6, (((empty (AddressPlan.ofRoutes ⟨0x0a000000#32, 30, by decide⟩ []).pool
          (SiteNetwork.ofSite 1) 1000).run [⟨⟨"p"⟩, "a", .both, 0⟩]).answer
            ⟨⟨"q"⟩, "a", .v4, 1000⟩).2 = .ok [.v4 0x0a000002#32, .v6 v6] := by
  have hplan : AddressPlan.ofNetworks [⟨0x0a000000#32, 30, by decide⟩] =
      .ok (.ofRoutes ⟨0x0a000000#32, 30, by decide⟩ []) := by decide
  have horder : InOrder ([⟨⟨"p"⟩, "a", .both, 0⟩] ++ [⟨⟨"q"⟩, "a", .v4, 1000⟩]) := by decide
  have hyielding : Yielding [⟨⟨"p"⟩, "a", .both, 0⟩] 1000 1000
      ((empty (AddressPlan.ofRoutes ⟨0x0a000000#32, 30, by decide⟩ []).pool
        (SiteNetwork.ofSite 1) 1000).run [⟨⟨"p"⟩, "a", .both, 0⟩]).queue
      ⟨0x0a000002#32, ⟨⟨"p"⟩, ⟨"a."⟩⟩, 0, 0⟩ :=
    ⟨[], [], by decide, nofun, by decide, by decide⟩
  have hkey : (⟨⟨"q"⟩, "a", .v4, 1000⟩ : Call).key? = some ⟨⟨"q"⟩, ⟨"a."⟩⟩ := by decide
  have hanswer := (answer_run_of_exhausted hplan (SiteNetwork.ofSite 1) (by decide) horder
    hkey (by decide) (by decide) (by decide) (by decide)).1 _ hyielding
  exact ⟨horder, hyielding, hanswer⟩

/-- It is not so that a request is served whenever some holder has been idle
for long enough: a holder that was asked for since it was queued goes to the
back, and the search ends before it comes to it again. -/
theorem refused_although_idle :
    ¬∀ (ns : List (Network 32)) (plan : AddressPlan) (site : Network 128) (idle : Nat)
      (calls : List Call) (c : Call) (k : AllocationKey),
      AddressPlan.ofNetworks ns = .ok plan → idle < UInt64.size → InOrder (calls ++ [c]) →
      c.key? = some k → c.family.needsV4 = true →
      ((empty plan.pool site idle).run calls).v4? k = none →
      ((empty plan.pool site idle).run calls).available = 0 →
      ((empty plan.pool site idle).run calls).drawn < SiteNetwork.maxDiscriminator →
      (∃ k' a, ((empty plan.pool site idle).run calls).v4? k' = some a ∧
        lastRequest calls k' + idle ≤ c.time) →
      ∃ a v6, (((empty plan.pool site idle).run calls).answer c).2 = .ok [.v4 a, .v6 v6] := by
  intro h
  have hrefused : (((empty (AddressPlan.ofRoutes ⟨0x0a000000#32, 30, by decide⟩ []).pool
      (SiteNetwork.ofSite 1) 1000).run
        [⟨⟨"p"⟩, "a.", .both, 0⟩, ⟨⟨"p"⟩, "a.", .both, 1⟩]).answer
          ⟨⟨"p"⟩, "b.", .both, 10001⟩).2 = .error (.noIpv4 ⟨"b."⟩) := by decide
  obtain ⟨a, v6, hserved⟩ := h [⟨0x0a000000#32, 30, by decide⟩]
    (AddressPlan.ofRoutes ⟨0x0a000000#32, 30, by decide⟩ []) (SiteNetwork.ofSite 1) 1000
    [⟨⟨"p"⟩, "a.", .both, 0⟩, ⟨⟨"p"⟩, "a.", .both, 1⟩] ⟨⟨"p"⟩, "b.", .both, 10001⟩
    ⟨⟨"p"⟩, ⟨"b."⟩⟩ (by decide) (by decide) (by decide) (by decide) (by decide) (by decide)
    (by decide) (by decide) ⟨⟨⟨"p"⟩, ⟨"a."⟩⟩, 0x0a000002#32, by decide, by decide⟩
  exact absurd (hrefused.symm.trans hserved) nofun

end DnsConnector.AddressBook
