import DnsConnector.AddressPlan
import DnsConnector.Proofs.Network
import Mathlib.Data.List.Pairwise

/-!
# DnsConnector.Proofs.AddressPlan

What an accepted plan hands out.  Its routes are the given networks without
host bits, no two of which have an address in common (`routes_of_ofNetworks`);
its pool is every address of a route but the lowest, the highest and the DNS
address (`mem_pool_iff`), each of them once (`nodup_pool`).
-/

namespace DnsConnector

/-! ## Ranges -/

namespace HostRange

variable {r : HostRange}

theorem size_eq (h : r.first.toNat ≤ r.last.toNat) :
    r.size = r.last.toNat - r.first.toNat + 1 := by
  rw [size, BitVec.toNat_sub_of_le (BitVec.le_def.2 h)]

/-- Counting up from the first address does not wrap around. -/
theorem toNat_add_ofNat (h : r.first.toNat ≤ r.last.toNat) {i : Nat} (hi : i < r.size) :
    (r.first + BitVec.ofNat 32 i).toNat = r.first.toNat + i := by
  rw [size_eq h] at hi
  have hlast := r.last.isLt
  rw [BitVec.toNat_add, BitVec.toNat_ofNat]
  omega

theorem mem_toList_iff (h : r.first.toNat ≤ r.last.toNat) {a : Ipv4} :
    a ∈ r.toList ↔ r.first.toNat ≤ a.toNat ∧ a.toNat ≤ r.last.toNat := by
  simp only [toList, List.mem_map, List.mem_range]
  constructor
  · rintro ⟨i, hi, rfl⟩
    rw [toNat_add_ofNat h hi]
    rw [size_eq h] at hi
    omega
  · rintro ⟨hfirst, hlast⟩
    have hi : a.toNat - r.first.toNat < r.size := by
      rw [size_eq h]
      omega
    refine ⟨a.toNat - r.first.toNat, hi, BitVec.eq_of_toNat_eq ?_⟩
    rw [toNat_add_ofNat h hi]
    omega

theorem nodup_toList (h : r.first.toNat ≤ r.last.toNat) : r.toList.Nodup := by
  refine List.pairwise_map.2 (List.nodup_range.imp_of_mem ?_)
  intro i j hi hj hne heq
  have hnum := congrArg BitVec.toNat heq
  rw [toNat_add_ofNat h (List.mem_range.1 hi), toNat_add_ofNat h (List.mem_range.1 hj)] at hnum
  omega

end HostRange

/-- The first positions of a pool hold the front of its enumeration. -/
theorem HostPool.map_get?_range {p : HostPool} {n : Nat} (h : n ≤ p.size) :
    (List.range n).map p.get? = (p.toList.take n).map some := by
  have hlength : ((List.range n).map p.get?).length = ((p.toList.take n).map some).length := by
    simp [h]
  refine List.ext_getElem hlength ?_
  intro i hi hi'
  have hlt : i < n := by simpa using hi
  have hsize : i < p.toList.length := by
    rw [length_toList]
    omega
  simp [get?_eq_getElem?_toList, List.getElem?_eq_getElem hsize]

/-! ## Routes -/

namespace AddressPlan

/-- No address lies in both networks. -/
def Apart (m n : Network 32) : Prop := ∀ a, ¬(m.contains a = true ∧ n.contains a = true)

/-- The routes of a plan: they have hosts and no address in common. -/
structure Routes (routes : List (Network 32)) : Prop where
  length_le : ∀ n ∈ routes, n.length ≤ longestLength
  apart : routes.Pairwise Apart

instance : Std.Symm Apart := ⟨fun _ _ h a ha => h a ha.symm⟩

theorem Routes.nil : Routes [] := ⟨by simp, List.Pairwise.nil⟩

/-- A network is added behind the others if it has hosts and is apart from all
of them. -/
theorem Routes.addRoute {routes routes' : List (Network 32)} {n : Network 32}
    (hroutes : Routes routes) (h : addRoute routes n = .ok routes') :
    routes' = routes ++ [n.masked] ∧ Routes routes' := by
  rw [addRoute_eq] at h
  split at h
  · contradiction
  next hlength =>
    split at h
    · contradiction
    next hfind =>
      have he : routes ++ [n.masked] = routes' := Except.ok.inj h
      subst he
      refine ⟨rfl, ?_, ?_⟩
      · intro m hm
        rcases List.mem_append.1 hm with hm | hm
        · exact hroutes.length_le m hm
        · rw [List.mem_singleton.1 hm, Network.length_masked]
          omega
      · refine List.pairwise_append.2 ⟨hroutes.apart, List.pairwise_singleton _ _, ?_⟩
        intro m hm x hx a hboth
        rw [List.mem_singleton.1 hx] at hboth
        have hover : m.overlaps n.masked = true := (Network.overlaps_iff m n.masked).2 ⟨a, hboth⟩
        exact List.find?_eq_none.1 hfind m hm hover

/-- The routes are the given networks without host bits. -/
theorem Routes.foldlM_addRoute (ns : List (Network 32)) {routes routes' : List (Network 32)}
    (hroutes : Routes routes) (h : ns.foldlM AddressPlan.addRoute routes = .ok routes') :
    routes' = routes ++ ns.map Network.masked ∧ Routes routes' := by
  induction ns generalizing routes with
  | nil =>
      have he : routes = routes' := Except.ok.inj h
      subst he
      exact ⟨by simp, hroutes⟩
  | cons n ns ih =>
      rw [List.foldlM_cons] at h
      cases hadd : AddressPlan.addRoute routes n with
      | error f => rw [hadd] at h; contradiction
      | ok next =>
          rw [hadd] at h
          obtain ⟨rfl, hnext⟩ := hroutes.addRoute hadd
          obtain ⟨he, hroutes'⟩ := ih hnext h
          refine ⟨?_, hroutes'⟩
          rw [he, List.map_cons, List.append_assoc, List.singleton_append]

variable {ns : List (Network 32)} {plan : AddressPlan}

/-- An accepted plan is made of the given networks, which have hosts and no
address in common. -/
theorem routes_of_ofNetworks (h : ofNetworks ns = .ok plan) :
    ∃ route more, ns.map Network.masked = route :: more ∧ plan = ofRoutes route more ∧
      Routes (route :: more) := by
  simp only [ofNetworks] at h
  cases hfold : ns.foldlM addRoute [] with
  | error f => rw [hfold] at h; contradiction
  | ok routes =>
      obtain ⟨he, hroutes⟩ := Routes.nil.foldlM_addRoute ns hfold
      rw [hfold] at h
      cases routes with
      | nil => contradiction
      | cons route more => exact ⟨route, more, he.symm, (Except.ok.inj h).symm, hroutes⟩

/-! ## The pool -/

/-- A network with hosts has at least four addresses, and its hosts lie between
the lowest and the highest one. -/
theorem hosts_of_length_le {n : Network 32} (h : n.length ≤ longestLength) :
    n.first.toNat + 3 ≤ n.last.toNat ∧
      (HostRange.ofNetwork n).first.toNat = n.first.toNat + 1 ∧
      (HostRange.ofNetwork n).last.toNat = n.last.toNat - 1 := by
  have hlength : n.length ≤ 30 := h
  have hsize : Nat.pow 2 2 ≤ n.size := Nat.pow_le_pow_right (by decide) (by omega)
  have hfour : 4 ≤ n.size := hsize
  have hlast := n.toNat_last
  have hbound := n.last.isLt
  refine ⟨by omega, ?_, ?_⟩
  · change (n.first + 1#32).toNat = _
    rw [BitVec.toNat_add, BitVec.toNat_ofNat]
    omega
  · change (n.last - 1#32).toNat = _
    rw [BitVec.toNat_sub_of_le (BitVec.le_def.2 (by simp; omega)), BitVec.toNat_ofNat]

/-- The range of the first route, which leaves out the DNS address. -/
theorem firstRange_of_length_le {n : Network 32} (h : n.length ≤ longestLength) :
    ((HostRange.ofNetwork n).first + 1).toNat = n.first.toNat + 2 := by
  obtain ⟨hfour, hfirst, -⟩ := hosts_of_length_le h
  have hbound := n.last.isLt
  change ((HostRange.ofNetwork n).first + 1#32).toNat = _
  rw [BitVec.toNat_add, BitVec.toNat_ofNat, hfirst]
  omega

theorem mem_hosts_iff {n : Network 32} (h : n.length ≤ longestLength) {a : Ipv4} :
    a ∈ (HostRange.ofNetwork n).toList ↔
      n.contains a = true ∧ a ≠ n.first ∧ a ≠ n.last := by
  obtain ⟨hfour, hfirst, hlast⟩ := hosts_of_length_le h
  rw [HostRange.mem_toList_iff (by omega), Network.contains_iff_le, ne_eq, ne_eq,
    ← BitVec.toNat_inj, ← BitVec.toNat_inj]
  omega

theorem mem_firstRange_iff {n : Network 32} (h : n.length ≤ longestLength) {a : Ipv4} :
    a ∈ (HostRange.mk ((HostRange.ofNetwork n).first + 1) (HostRange.ofNetwork n).last).toList ↔
      n.contains a = true ∧ a ≠ n.first ∧ a ≠ n.last ∧ a ≠ (HostRange.ofNetwork n).first := by
  obtain ⟨hfour, hfirst, hlast⟩ := hosts_of_length_le h
  have hsecond := firstRange_of_length_le h
  rw [HostRange.mem_toList_iff (by simp only [hsecond, hlast]; omega), Network.contains_iff_le,
    ne_eq, ne_eq, ne_eq, ← BitVec.toNat_inj, ← BitVec.toNat_inj, ← BitVec.toNat_inj]
  simp only [hsecond, hlast, hfirst]
  omega

/-- The pool is every address of a route but the lowest, the highest and the
DNS address. -/
theorem mem_pool_iff (h : ofNetworks ns = .ok plan) {a : Ipv4} :
    a ∈ plan.pool.toList ↔
      ∃ n ∈ plan.routes, n.contains a = true ∧ a ≠ n.first ∧ a ≠ n.last ∧ a ≠ plan.dnsAddress := by
  obtain ⟨route, more, -, rfl, hroutes⟩ := routes_of_ofNetworks h
  obtain ⟨hhead, -⟩ := List.pairwise_cons.1 hroutes.apart
  have hroute := hroutes.length_le route List.mem_cons_self
  have hmore : ∀ n ∈ more, n.length ≤ longestLength :=
    fun n hn => hroutes.length_le n (List.mem_cons_of_mem route hn)
  -- the DNS address is in the first route and so in no other one
  have hdns : route.contains (HostRange.ofNetwork route).first = true := by
    obtain ⟨hfour, hfirst, -⟩ := hosts_of_length_le hroute
    rw [Network.contains_iff_le]
    omega
  simp only [ofRoutes, HostPool.toList, List.flatMap_cons, List.flatMap_map, List.mem_append,
    List.mem_flatMap, List.mem_cons, exists_eq_or_imp, mem_firstRange_iff hroute]
  refine or_congr Iff.rfl (exists_congr fun n => and_congr_right fun hn => ?_)
  rw [mem_hosts_iff (hmore n hn)]
  refine and_congr_right fun hcontains => and_congr_right fun _ => (and_iff_left ?_).symm
  rintro rfl
  exact hhead n hn _ ⟨hdns, hcontains⟩

/-- What is handed out lies in a route, and is neither the DNS address nor the
lowest or highest address of any given network. -/
theorem usable_of_mem_pool (h : ofNetworks ns = .ok plan) {a : Ipv4} (ha : a ∈ plan.pool.toList) :
    (∃ n ∈ plan.routes, n.contains a = true) ∧ a ≠ plan.dnsAddress ∧
      ∀ n ∈ ns, a ≠ n.first ∧ a ≠ n.last := by
  obtain ⟨n, hn, hcontains, hfirst, hlast, hdns⟩ := (mem_pool_iff h).1 ha
  obtain ⟨route, more, hmap, rfl, hroutes⟩ := routes_of_ofNetworks h
  refine ⟨⟨n, hn, hcontains⟩, hdns, fun m hm => ?_⟩
  have hm' : m.masked ∈ route :: more := hmap ▸ List.mem_map_of_mem hm
  by_cases he : m.masked = n
  · rw [← he, Network.first_masked] at hfirst
    rw [← he, Network.last_masked] at hlast
    exact ⟨hfirst, hlast⟩
  · have hapart : Apart m.masked n := hroutes.apart.forall hm' hn he
    have hother : ¬m.contains a = true := fun hma => hapart a ⟨by simpa using hma, hcontains⟩
    constructor
    · rintro rfl
      exact hother (Network.contains_first m)
    · rintro rfl
      exact hother (Network.contains_last m)

/-- The pool lists every address once. -/
theorem nodup_pool (h : ofNetworks ns = .ok plan) : plan.pool.toList.Nodup := by
  obtain ⟨route, more, -, rfl, hroutes⟩ := routes_of_ofNetworks h
  obtain ⟨hhead, htail⟩ := List.pairwise_cons.1 hroutes.apart
  have hroute := hroutes.length_le route List.mem_cons_self
  have hmore : ∀ n ∈ more, n.length ≤ longestLength :=
    fun n hn => hroutes.length_le n (List.mem_cons_of_mem route hn)
  simp only [ofRoutes, HostPool.toList, List.flatMap_cons, List.nodup_append]
  refine ⟨?_, ?_, ?_⟩
  · apply HostRange.nodup_toList
    obtain ⟨hfour, -, hlast⟩ := hosts_of_length_le hroute
    simp only [firstRange_of_length_le hroute, hlast]
    omega
  · refine List.pairwise_flatMap.2 ⟨?_, ?_⟩
    · intro r hr
      obtain ⟨n, hn, rfl⟩ := List.mem_map.1 hr
      apply HostRange.nodup_toList
      obtain ⟨hfour, hfirst, hlast⟩ := hosts_of_length_le (hmore n hn)
      omega
    · refine List.pairwise_map.2 (htail.imp_of_mem ?_)
      intro m n hm hn hapart x hx y hy hxy
      subst hxy
      have hmx := (mem_hosts_iff (hmore m hm)).1 hx
      have hnx := (mem_hosts_iff (hmore n hn)).1 hy
      exact hapart x ⟨hmx.1, hnx.1⟩
  · intro x hx y hy hxy
    subst hxy
    obtain ⟨r, hr, hxr⟩ := List.mem_flatMap.1 hy
    obtain ⟨n, hn, rfl⟩ := List.mem_map.1 hr
    have hfirst := (mem_firstRange_iff hroute).1 hx
    have hnx := (mem_hosts_iff (hmore n hn)).1 hxr
    exact hhead n hn x ⟨hfirst.1, hnx.1⟩

end AddressPlan

end DnsConnector
