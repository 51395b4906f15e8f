import DnsConnector.Proofs.AddressBook.Exhaustion
import DnsConnector.Proofs.AddressBook.Refusal
import DnsConnector.Proofs.PlannedPool

/-!
# DnsConnector.Proofs.AddressBook.Recovery

What a refusal is good for if every holder has been idle long enough.  Such a
request is refused only if all holders were asked for since they were queued,
and the search that found nobody has restamped all of them and left them in
their order (`search_eq_restamped`).  So the next search finds the first one
(`search_restamped`), and the next request is served (`answer_of_refused`).
-/

namespace DnsConnector

/-! ## Two searches in a row -/

namespace Holder

variable {lastUsed : Nat → Nat} {now idle : Nat} {queue left : List Holder} {x : Holder}

/-- If all holders are idle, a search that finds none restamps them all. -/
theorem search_eq_restamped (hidle : ∀ x ∈ queue, idle ≤ now - lastUsed x.number)
    (h : search lastUsed now idle queue.length queue = (left, none)) :
    left = restamped lastUsed queue := by
  have hsearched := searched lastUsed now idle queue
  rw [h] at hsearched
  cases hsearched with
  | exhausted => rfl
  | @tooRecent front rest x _ _ hrecent =>
      have hx := hidle x (by simp)
      omega

/-- A search of restamped holders finds the first one if it is idle. -/
theorem search_restamped (hidle : idle ≤ now - lastUsed x.number) :
    search lastUsed now idle (restamped lastUsed (x :: queue)).length
        (restamped lastUsed (x :: queue)) =
      (restamped lastUsed queue, some (restamp lastUsed x)) :=
  search_eq_some_iff.2
    ⟨[], restamped lastUsed queue, rfl, by simp, nofun, Nat.le_refl (lastUsed x.number), hidle⟩

end Holder

namespace AddressBook

open Call

variable {b : AddressBook} {k k' : AllocationKey} {family family' : AddressFamily}
  {now now' : Nat} {r r' : AddressBook × Except AllocationFault (List IpAddress)}

/-! ## After a refusal -/

/-- A request that is refused an IPv4 address leaves the queue as the search
did. -/
theorem Served.findIdle_of_fails (h : Served b k family now r) (hb : Coherent b)
    (hfree : b.drawn < SiteNetwork.maxDiscriminator) (hfails : ∃ e, r.2 = .error e) :
    b.findIdle now = (r.1.queue, none) := by
  obtain ⟨e, he⟩ := hfails
  cases h with
  | noIpv6 _ hsite => exact absurd (address?_eq_none_iff.1 hsite) (Nat.not_le.2 hfree)
  | @refusedNew v6 _ _ _ hrefused => exact (findIdle_prepared hb v6).symm.trans hrefused.find
  | created => contradiction
  | @refused i _ hkey hrefused =>
      have hv4 : b.v4At i = none := (v4At_touch i now i).symm.trans hrefused.v4At_eq
      exact (findIdle_touch hb hkey hv4).symm.trans hrefused.find
  | renewed => contradiction

/-- Who holds an address was last used when it was before a refused request. -/
theorem Undisturbed.lastUsedAt_number {b' : AddressBook} (h : Undisturbed b b' k)
    (hb : Coherent b) (hv4 : b.v4? k = none) {x : Holder} (hx : x ∈ b.queue) :
    b'.lastUsedAt x.number = b.lastUsedAt x.number := by
  refine h.lastUsedAt_eq x.number fun hk => ?_
  have hself : k = x.key := hb.filed.injective k x.key _ hk (hb.filed.own_key x hx)
  have hx4 : b.v4? x.key = some x.address := hb.v4?_iff.2 ⟨x, hx, rfl, rfl⟩
  rw [← hself, hv4] at hx4
  contradiction

/-- **Recovery**, for two requests in a row.  The second one gets the address of
the first holder. -/
theorem Served.answer_of_refused (h : Served b k family now r) (h' : Served r.1 k' family' now' r')
    (hb : Coherent b) (hneed' : family'.needsV4 = true) (hv4 : b.v4? k = none)
    (hv4' : r.1.v4? k' = none) (hdry : b.available = 0)
    (hfree : b.drawn + 2 ≤ SiteNetwork.maxDiscriminator) (hnow : now ≤ now')
    (hidle : ∀ x ∈ b.queue, b.idleLimit ≤ now - b.lastUsedAt x.number)
    (hfails : ∃ e, r.2 = .error e) {x : Holder} {rest : List Holder}
    (hqueue : b.queue = x :: rest) : ∃ v6, r'.2 = .ok [.v4 x.address, .v6 v6] := by
  obtain ⟨e, he⟩ := hfails
  have hundisturbed := h.undisturbed hb he
  have hfind := h.findIdle_of_fails hb (by omega) ⟨e, he⟩
  have hleft : r.1.queue = Holder.restamped b.lastUsedAt b.queue :=
    Holder.search_eq_restamped hidle hfind
  have hlimit : r.1.idleLimit = b.idleLimit := by
    rw [idleLimit, idleLimit, hundisturbed.reclaimIdle_eq]
  -- the second search sees the times of the first one
  have hfind' : r.1.findIdle now' =
      (Holder.restamped b.lastUsedAt rest, some (Holder.restamp b.lastUsedAt x)) := by
    have hused : ∀ y ∈ Holder.restamped b.lastUsedAt b.queue,
        r.1.lastUsedAt y.number = b.lastUsedAt y.number := by
      intro y hy
      obtain ⟨z, hz, rfl⟩ := List.mem_map.1 hy
      have hsame := hundisturbed.lastUsedAt_number hb hv4 hz
      exact hsame
    have hx := hidle x (by simp [hqueue])
    rw [findIdle, hleft, hlimit, Holder.search_congr _ hused, hqueue]
    exact Holder.search_restamped (by omega)
  have hdrawn := hundisturbed.drawn_le_succ
  rcases h'.answer_of_exhausted (hb.served h) hneed' hv4'
    (hundisturbed.sameContents.available_eq.trans hdry) (by omega) with
    ⟨queue, y, v6, hfound, hanswer⟩ | ⟨queue, hnone, -⟩
  · obtain rfl : Holder.restamp b.lastUsedAt x = y :=
      Option.some.inj (congrArg Prod.snd (hfind'.symm.trans hfound))
    exact ⟨v6, hanswer⟩
  · exact absurd (congrArg Prod.snd (hfind'.symm.trans hnone)) (by simp)

/-! ## Over a run -/

/-- A pool of which nothing is available is held by somebody. -/
theorem Coherent.queue_ne_nil (hb : Coherent b) (hpool : 0 < b.pool.size)
    (hdry : b.available = 0) : b.queue ≠ [] := by
  have hle := hb.leased.handedOut_le
  have hlength := hb.length_queue
  rw [available, hb.leased.recycled_eq, List.length_nil] at hdry
  refine List.ne_nil_of_length_pos ?_
  omega

/-- Whoever has an IPv4 address was last asked for long enough ago. -/
def AllIdle (calls : List Call) (now idle : Nat) (b : AddressBook) : Prop :=
  ∀ k a, b.v4? k = some a → lastRequest calls k + idle ≤ now

theorem Coherent.allIdle_iff (hb : Coherent b) {calls : List Call} {idle : Nat} :
    AllIdle calls now idle b ↔ ∀ x ∈ b.queue, lastRequest calls x.key + idle ≤ now := by
  constructor
  · intro h x hx
    exact h x.key x.address (hb.v4?_iff.2 ⟨x, hx, rfl, rfl⟩)
  · intro h k a hv4
    obtain ⟨x, hx, -, rfl⟩ := hb.v4?_iff.1 hv4
    exact h x hx

theorem AllIdle.le_of_mem_queue {calls : List Call} {idle : Nat} (h : AllIdle calls now idle b)
    (hb : Coherent b) (hrecorded : Recorded calls b) {x : Holder} (hx : x ∈ b.queue) :
    idle ≤ now - b.lastUsedAt x.number := by
  have hle := hb.allIdle_iff.1 h x hx
  rw [hrecorded.lastUsedAt_eq hb hx]
  omega

/-- **Recovery.**  After requests in the order of time, while nothing is
available and whoever has an IPv4 address has been idle for long enough, a
request that needs an IPv4 address for a key without one may be refused; but
then the next request that needs one for a key without one is served.  It gets
the address that was queued first. -/
theorem served_after_refusal {ns : List (Network 32)} {plan : AddressPlan}
    (hplan : AddressPlan.ofNetworks ns = .ok plan) (site : Network 128) {idle : Nat}
    (hidle : idle < UInt64.size) {calls : List Call} {c d : Call}
    (hcalls : InOrder (calls ++ [c, d])) {k k' : AllocationKey} (hkey : c.key? = some k)
    (hkey' : d.key? = some k') (hneed' : d.family.needsV4 = true)
    (hv4 : ((empty plan.pool site idle).run calls).v4? k = none)
    (hv4' : (((empty plan.pool site idle).run calls).answer c).1.v4? k' = none)
    (hdry : ((empty plan.pool site idle).run calls).available = 0)
    (hfree : ((empty plan.pool site idle).run calls).drawn + 2 ≤ SiteNetwork.maxDiscriminator)
    (hall : AllIdle calls c.time idle ((empty plan.pool site idle).run calls))
    (hfails : ∃ e, (((empty plan.pool site idle).run calls).answer c).2 = .error e) :
    ∃ x v6, ((empty plan.pool site idle).run calls).queue.head? = some x ∧
      ((((empty plan.pool site idle).run calls).answer c).1.answer d).2 =
        .ok [.v4 x.address, .v6 v6] := by
  have hempty := Coherent.empty (AddressPlan.nodup_pool hplan) site idle
  have hb := hempty.run calls
  have hsetting := sameSetting_run hempty calls
  have hlimit := idleLimit_eq hsetting.reclaimIdle_eq hidle
  have hpool : 0 < ((empty plan.pool site idle).run calls).pool.size := by
    rw [hsetting.pool_eq]
    exact AddressPlan.size_pool_pos hplan
  rw [List.append_cons] at hcalls
  obtain ⟨hcalls, hlast⟩ := inOrder_append_singleton.1 hcalls
  have hrecorded := Recorded.run hempty rfl (inOrder_append_singleton.1 hcalls).1
  have htime : c.time ≤ d.time := hlast c (by simp)
  generalize (empty plan.pool site idle).run calls = b at *
  have hserved := served_of_key?_eq hb.leased.recycled_eq hkey
  have hserved' := served_of_key?_eq (hb.served hserved).leased.recycled_eq hkey'
  obtain ⟨x, rest, hqueue⟩ := List.exists_cons_of_ne_nil (hb.queue_ne_nil hpool hdry)
  obtain ⟨v6, hanswer⟩ := hserved.answer_of_refused hserved' hb hneed' hv4 hv4' hdry hfree htime
    (fun y hy => hlimit ▸ hall.le_of_mem_queue hb hrecorded hy) hfails hqueue
  exact ⟨x, v6, by rw [hqueue, List.head?_cons], hanswer⟩

/-- One name, asked for twice. -/
def askedTwice : List Call := [⟨⟨"p"⟩, "a", .both, 0⟩, ⟨⟨"p"⟩, "a", .both, 1⟩]

/-- The book of a plan after one name was asked for twice. -/
def heldTwice (plan : AddressPlan) : AddressBook :=
  (empty plan.pool (SiteNetwork.ofSite 1) 1000).run askedTwice

/-- Of a pool with one address, the first request after the idle time is refused
it and the next one is given it. -/
theorem served_after_refusal_of_heldTwice :
    ∃ plan, AddressPlan.ofNetworks [⟨0x0a000000#32, 30, by decide⟩] = .ok plan ∧
      InOrder (askedTwice ++ [⟨⟨"p"⟩, "b", .both, 10001⟩, ⟨⟨"q"⟩, "c", .v4, 10001⟩]) ∧
      AllIdle askedTwice 10001 1000 (heldTwice plan) ∧
      ((heldTwice plan).answer ⟨⟨"p"⟩, "b", .both, 10001⟩).2 = .error (.noIpv4 ⟨"b."⟩) ∧
      ∃ x v6, (heldTwice plan).queue.head? = some x ∧
        (((heldTwice plan).answer ⟨⟨"p"⟩, "b", .both, 10001⟩).1.answer
          ⟨⟨"q"⟩, "c", .v4, 10001⟩).2 = .ok [.v4 x.address, .v6 v6] := by
  have hplan : AddressPlan.ofNetworks [⟨0x0a000000#32, 30, by decide⟩] =
      .ok (.ofRoutes ⟨0x0a000000#32, 30, by decide⟩ []) := by decide
  have horder : InOrder
      (askedTwice ++ [⟨⟨"p"⟩, "b", .both, 10001⟩, ⟨⟨"q"⟩, "c", .v4, 10001⟩]) := by decide
  have hkey : (⟨⟨"p"⟩, "b", .both, 10001⟩ : Call).key? = some ⟨⟨"p"⟩, ⟨"b."⟩⟩ := by decide
  have hkey' : (⟨⟨"q"⟩, "c", .v4, 10001⟩ : Call).key? = some ⟨⟨"q"⟩, ⟨"c."⟩⟩ := by decide
  have hb := (Coherent.empty (AddressPlan.nodup_pool hplan) (SiteNetwork.ofSite 1) 1000).run
    askedTwice
  have hall : AllIdle askedTwice 10001 1000
      (heldTwice (.ofRoutes ⟨0x0a000000#32, 30, by decide⟩ [])) :=
    hb.allIdle_iff.2 (by decide)
  have hrefused : ((heldTwice (.ofRoutes ⟨0x0a000000#32, 30, by decide⟩ [])).answer
      ⟨⟨"p"⟩, "b", .both, 10001⟩).2 = .error (.noIpv4 ⟨"b."⟩) := by decide
  have hserved := served_after_refusal hplan (SiteNetwork.ofSite 1) (by decide) horder hkey hkey'
    rfl (by decide) (by decide) (by decide) (by decide) hall ⟨_, hrefused⟩
  exact ⟨_, hplan, horder, hall, hrefused, hserved⟩

end AddressBook

end DnsConnector
