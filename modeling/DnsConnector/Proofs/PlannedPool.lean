import DnsConnector.Proofs.AddressPlan
import Mathlib.Data.List.Sort

/-!
# DnsConnector.Proofs.PlannedPool

The pool of a plan against the plain list of the hosts of its networks.  The
hosts of a network are its addresses in ascending order but for the lowest and
the highest one; the pool is the hosts of all networks, in order, but for the
DNS address (`toList_pool`).  What the pool says about its size, its positions
and its members is what this list says (`listsHosts_of_ofNetworks`).

Ranges are counted in words of 32 bits, and none of the sums and differences on
the way from networks to a position in the pool wraps around (`Exact`).
-/

namespace DnsConnector

/-! ## Ranges in order -/

namespace HostRange

variable {r : HostRange}

theorem pairwise_toList (h : r.first.toNat ≤ r.last.toNat) : r.toList.Pairwise (· < ·) := by
  refine List.pairwise_map.2 (List.pairwise_lt_range.imp_of_mem ?_)
  intro i j hi hj hlt
  rw [BitVec.lt_def, toNat_add_ofNat h (List.mem_range.1 hi),
    toNat_add_ofNat h (List.mem_range.1 hj)]
  omega

/-- A range is listed by any ascending list of its addresses. -/
theorem toList_eq_of_pairwise (h : r.first.toNat ≤ r.last.toNat) {as : List Ipv4}
    (has : as.Pairwise (· < ·)) (hmem : ∀ a, a ∈ r.toList ↔ a ∈ as) : r.toList = as :=
  (pairwise_toList h).eq_of_mem_iff has hmem

end HostRange

/-! ## The hosts of a network -/

namespace Network

variable (n : Network 32)

/-- The addresses of a network in ascending order. -/
def addresses : List Ipv4 := HostRange.toList ⟨n.first, n.last⟩

/-- The hosts of a network in ascending order. -/
def hosts : List Ipv4 := n.addresses.filter fun a => a ≠ n.first ∧ a ≠ n.last

theorem pairwise_addresses : n.addresses.Pairwise (· < ·) :=
  HostRange.pairwise_toList n.toNat_first_le_last

theorem mem_addresses_iff {a : Ipv4} : a ∈ n.addresses ↔ n.contains a = true := by
  rw [addresses, HostRange.mem_toList_iff n.toNat_first_le_last, contains_iff_le]

theorem pairwise_hosts : n.hosts.Pairwise (· < ·) := n.pairwise_addresses.filter _

theorem mem_hosts_iff {a : Ipv4} :
    a ∈ n.hosts ↔ n.contains a = true ∧ a ≠ n.first ∧ a ≠ n.last := by
  rw [hosts, List.mem_filter, mem_addresses_iff, decide_eq_true_iff]

@[simp] theorem hosts_masked : n.masked.hosts = n.hosts := by
  rw [hosts, hosts, addresses, addresses, first_masked, last_masked]

end Network

/-! ## Positions in a pool -/

namespace HostPool

variable {before after rs : List HostRange} {i : Nat} {a : Ipv4}

/-- A position behind some ranges is one in the ranges that follow. -/
theorem getIn_append_of_le (h : sizeIn before ≤ i) :
    getIn (before ++ after) i = getIn after (i - sizeIn before) := by
  induction before generalizing i with
  | nil => rfl
  | cons r before ih =>
      rw [sizeIn] at h
      rw [List.cons_append, getIn, if_neg (by omega), ih (by omega), sizeIn, Nat.sub_add_eq]

/-- Every position lies in one of the ranges, at some distance from its first
address. -/
theorem exists_getIn_eq (h : i < sizeIn rs) :
    ∃ before r after o, rs = before ++ r :: after ∧ i = sizeIn before + o ∧ o < r.size ∧
      getIn rs i = some (r.first + BitVec.ofNat 32 o) := by
  induction rs generalizing i with
  | nil => exact absurd h (Nat.not_lt_zero i)
  | cons r rs ih =>
      by_cases hi : i < r.size
      · exact ⟨[], r, rs, i, rfl, (Nat.zero_add i).symm, hi, if_pos hi⟩
      · rw [sizeIn] at h
        obtain ⟨before, s, after, o, rfl, hposition, ho, hget⟩ := ih (i := i - r.size) (by omega)
        refine ⟨r :: before, s, after, o, rfl, ?_, ho, (if_neg hi).trans hget⟩
        rw [sizeIn]
        omega

theorem contains_iff_mem_toList {p : HostPool}
    (h : ∀ r ∈ p.ranges, r.first.toNat ≤ r.last.toNat) :
    p.contains a = true ↔ a ∈ p.toList := by
  rw [contains, toList, List.any_eq_true, List.mem_flatMap]
  refine exists_congr fun r => and_congr_right fun hr => ?_
  rw [HostRange.mem_toList_iff (h r hr), HostRange.contains, Bool.and_eq_true,
    decide_eq_true_iff, decide_eq_true_iff, BitVec.le_def, BitVec.le_def]

end HostPool

/-! ## The plan -/

namespace AddressPlan

variable {ns : List (Network 32)} {plan : AddressPlan}

theorem toList_ofNetwork {n : Network 32} (h : n.length ≤ longestLength) :
    (HostRange.ofNetwork n).toList = n.hosts := by
  obtain ⟨hfour, hfirst, hlast⟩ := hosts_of_length_le h
  refine HostRange.toList_eq_of_pairwise (by omega) n.pairwise_hosts fun a => ?_
  rw [mem_hosts_iff h, n.mem_hosts_iff]

/-- The first range is the hosts of the first route behind the DNS address. -/
theorem hosts_eq_cons {n : Network 32} (h : n.length ≤ longestLength) :
    n.hosts = (HostRange.ofNetwork n).first ::
      (HostRange.mk ((HostRange.ofNetwork n).first + 1) (HostRange.ofNetwork n).last).toList := by
  obtain ⟨hfour, hfirst, hlast⟩ := hosts_of_length_le h
  have hsecond := firstRange_of_length_le h
  have hle : ((HostRange.ofNetwork n).first + 1).toNat ≤ (HostRange.ofNetwork n).last.toNat := by
    omega
  rw [← toList_ofNetwork h]
  refine HostRange.toList_eq_of_pairwise (by omega)
    (List.pairwise_cons.2 ⟨fun a ha => ?_, HostRange.pairwise_toList hle⟩) fun a => ?_
  · rw [HostRange.mem_toList_iff hle] at ha
    simp only [hsecond] at ha
    rw [BitVec.lt_def]
    omega
  · rw [HostRange.mem_toList_iff (by omega), List.mem_cons, HostRange.mem_toList_iff hle,
      ← BitVec.toNat_inj]
    simp only [hsecond]
    omega

/-- The hosts of all networks, in order, are the DNS address and then the pool. -/
theorem hosts_eq (h : ofNetworks ns = .ok plan) :
    ns.flatMap Network.hosts = plan.dnsAddress :: plan.pool.toList := by
  obtain ⟨route, more, hmap, rfl, hroutes⟩ := routes_of_ofNetworks h
  have hroute := hroutes.length_le route List.mem_cons_self
  have hmore : more.flatMap Network.hosts =
      (more.map HostRange.ofNetwork).flatMap HostRange.toList := by
    rw [List.flatMap_map]
    refine List.flatMap_congr fun n hn => (toList_ofNetwork ?_).symm
    exact hroutes.length_le n (List.mem_cons_of_mem route hn)
  calc ns.flatMap Network.hosts
    _ = (ns.map Network.masked).flatMap Network.hosts := by simp [List.flatMap_map]
    _ = route.hosts ++ more.flatMap Network.hosts := by rw [hmap, List.flatMap_cons]
    _ = _ := by rw [hosts_eq_cons hroute, hmore]; rfl

/-- The DNS address is not handed out. -/
theorem dnsAddress_not_mem_pool (h : ofNetworks ns = .ok plan) :
    plan.dnsAddress ∉ plan.pool.toList := fun hmem =>
  (usable_of_mem_pool h hmem).2.1 rfl

theorem toList_pool (h : ofNetworks ns = .ok plan) :
    plan.pool.toList = (ns.flatMap Network.hosts).filter (· ≠ plan.dnsAddress) := by
  rw [hosts_eq h, List.filter_cons_of_neg (by simp), eq_comm, List.filter_eq_self]
  intro a ha
  have hne : a ≠ plan.dnsAddress := (usable_of_mem_pool h ha).2.1
  exact decide_eq_true hne

/-- The ranges of the pool are not empty. -/
theorem le_of_mem_ranges (h : ofNetworks ns = .ok plan) :
    ∀ r ∈ plan.pool.ranges, r.first.toNat ≤ r.last.toNat := by
  obtain ⟨route, more, -, rfl, hroutes⟩ := routes_of_ofNetworks h
  refine List.forall_mem_cons.2 ⟨?_, List.forall_mem_map.2 fun n hn => ?_⟩
  · have hroute := hroutes.length_le route List.mem_cons_self
    obtain ⟨hfour, -, hlast⟩ := hosts_of_length_le hroute
    simp only [firstRange_of_length_le hroute, hlast]
    omega
  · obtain ⟨hfour, hfirst, hlast⟩ :=
      hosts_of_length_le (hroutes.length_le n (List.mem_cons_of_mem route hn))
    omega

theorem size_pool_pos (h : ofNetworks ns = .ok plan) : 0 < plan.pool.size := by
  obtain ⟨route, more, -, rfl, -⟩ := routes_of_ofNetworks h
  exact Nat.lt_of_lt_of_le (Nat.succ_pos _) (Nat.le_add_right _ _)

/-- The pool and the DNS address are some of the words of 32 bits. -/
theorem size_pool_lt (h : ofNetworks ns = .ok plan) : plan.pool.size < Nat.pow 2 32 := by
  have hnodup : (plan.dnsAddress :: plan.pool.toList).Nodup :=
    List.nodup_cons.2 ⟨dnsAddress_not_mem_pool h, nodup_pool h⟩
  have hnumbers := hnodup.map (f := BitVec.toNat) fun a b => BitVec.eq_of_toNat_eq
  have hsubset : (plan.dnsAddress :: plan.pool.toList).map BitVec.toNat ⊆
      List.range (Nat.pow 2 32) := by
    intro i hi
    obtain ⟨a, -, rfl⟩ := List.mem_map.1 hi
    exact List.mem_range.2 a.isLt
  have hle := (List.subperm_of_subset hnumbers hsubset).length_le
  rwa [List.length_map, List.length_cons, HostPool.length_toList, List.length_range] at hle

/-! ## What a plan says about its pool -/

/-- A plan for some networks hands out their hosts. -/
structure ListsHosts (ns : List (Network 32)) (plan : AddressPlan) : Prop where
  /-- The routes are the networks without host bits. -/
  routes_eq : plan.routes = ns.map Network.masked
  /-- The DNS address is the first host of the first network. -/
  dnsAddress_eq : (ns.head?.bind fun n => n.hosts.head?) = some plan.dnsAddress
  /-- The pool lists the other hosts, network by network. -/
  toList_eq : plan.pool.toList = (ns.flatMap Network.hosts).filter (· ≠ plan.dnsAddress)
  nodup : plan.pool.toList.Nodup
  ne_nil : plan.pool.toList ≠ []
  size_eq : plan.pool.size = plan.pool.toList.length
  get?_of_lt : ∀ i (h : i < plan.pool.toList.length), plan.pool.get? i = some plan.pool.toList[i]
  get?_of_le : ∀ i, plan.pool.toList.length ≤ i → plan.pool.get? i = none
  contains_iff : ∀ a, plan.pool.contains a = true ↔ a ∈ plan.pool.toList

/-- The words in which a plan is computed and its pool is looked up hold the
numbers they stand for. -/
structure Exact (plan : AddressPlan) : Prop where
  /-- The host above the lowest address of a route, and the one below the highest. -/
  toNat_ofNetwork : ∀ n ∈ plan.routes,
    (HostRange.ofNetwork n).first.toNat = n.first.toNat + 1 ∧
      (HostRange.ofNetwork n).last.toNat + 1 = n.last.toNat
  /-- The first range begins behind the DNS address. -/
  toNat_firstRange : ∃ r rs, plan.pool.ranges = r :: rs ∧
    r.first.toNat = plan.dnsAddress.toNat + 1
  /-- The span of a range. -/
  size_eq : ∀ r ∈ plan.pool.ranges, r.first.toNat + r.size = r.last.toNat + 1
  /-- The spans of all ranges together. -/
  size_lt : plan.pool.size < Nat.pow 2 32
  /-- What is left of a position at a range that the search for it comes to. -/
  remainder : ∀ before after i, plan.pool.ranges = before ++ after →
    HostPool.sizeIn before ≤ i →
    plan.pool.get? i = HostPool.getIn after (i - HostPool.sizeIn before)
  /-- The address at a position, counted from the start of its range. -/
  offset : ∀ i < plan.pool.size, ∃ before r after o, plan.pool.ranges = before ++ r :: after ∧
    i = HostPool.sizeIn before + o ∧ o < r.size ∧
    plan.pool.get? i = some (r.first + BitVec.ofNat 32 o) ∧
    (r.first + BitVec.ofNat 32 o).toNat = r.first.toNat + o

theorem exact_of_ofNetworks (h : ofNetworks ns = .ok plan) : Exact plan where
  toNat_ofNetwork := by
    obtain ⟨route, more, -, rfl, hroutes⟩ := routes_of_ofNetworks h
    intro n hn
    obtain ⟨hfour, hfirst, hlast⟩ := hosts_of_length_le (hroutes.length_le n hn)
    omega
  toNat_firstRange := by
    obtain ⟨route, more, -, rfl, hroutes⟩ := routes_of_ofNetworks h
    have hroute := hroutes.length_le route List.mem_cons_self
    obtain ⟨-, hfirst, -⟩ := hosts_of_length_le hroute
    refine ⟨_, _, rfl, (firstRange_of_length_le hroute).trans ?_⟩
    exact congrArg (· + 1) hfirst.symm
  size_eq r hr := by
    have hle := le_of_mem_ranges h r hr
    rw [HostRange.size_eq hle]
    omega
  size_lt := size_pool_lt h
  remainder before after i hranges hle := by
    rw [HostPool.get?, hranges, HostPool.getIn_append_of_le hle]
  offset i hi := by
    obtain ⟨before, r, after, o, hranges, hposition, ho, hget⟩ := HostPool.exists_getIn_eq hi
    have hr : r ∈ plan.pool.ranges := by simp [hranges]
    exact ⟨before, r, after, o, hranges, hposition, ho, hget,
      HostRange.toNat_add_ofNat (le_of_mem_ranges h r hr) ho⟩

theorem listsHosts_of_ofNetworks (h : ofNetworks ns = .ok plan) : ListsHosts ns plan where
  routes_eq := by
    obtain ⟨route, more, hmap, rfl, -⟩ := routes_of_ofNetworks h
    exact hmap.symm
  dnsAddress_eq := by
    obtain ⟨route, more, hmap, rfl, hroutes⟩ := routes_of_ofNetworks h
    obtain ⟨n, rest, rfl, rfl, -⟩ := List.map_eq_cons_iff.1 hmap
    have hhosts := hosts_eq_cons (hroutes.length_le n.masked List.mem_cons_self)
    rw [Network.hosts_masked] at hhosts
    rw [List.head?_cons, Option.bind_some, hhosts]
    rfl
  toList_eq := toList_pool h
  nodup := nodup_pool h
  ne_nil := List.ne_nil_of_length_pos (by simpa using size_pool_pos h)
  size_eq := (HostPool.length_toList _).symm
  get?_of_lt i hi := (HostPool.get?_eq_getElem?_toList _ i).trans (List.getElem?_eq_getElem hi)
  get?_of_le i hi := (HostPool.get?_eq_getElem?_toList _ i).trans (List.getElem?_eq_none hi)
  contains_iff _ := HostPool.contains_iff_mem_toList (le_of_mem_ranges h)

/-- **The pool.**  Whatever networks are accepted, host bits or not, the pool of
their plan is their hosts in order, but for the DNS address, whichever way it is
looked at; and no computation with its addresses wraps around. -/
theorem pool_of_ofNetworks (h : ofNetworks ns = .ok plan) :
    (∀ n : Network 32, n.addresses.Pairwise (· < ·) ∧
        ∀ a, a ∈ n.addresses ↔ n.contains a = true) ∧
      ListsHosts ns plan ∧ Exact plan :=
  ⟨fun n => ⟨n.pairwise_addresses, fun _ => n.mem_addresses_iff⟩, listsHosts_of_ofNetworks h,
    exact_of_ofNetworks h⟩

/-- Of the four addresses of the first network only the second host is handed
out, and behind it come the six hosts of the other one. -/
theorem pool_of_ofNetworks_of_two :
    ofNetworks [⟨0x0a000007#32, 30, by decide⟩, ⟨0x0a000108#32, 29, by decide⟩] =
        .ok (.ofRoutes ⟨0x0a000004#32, 30, by decide⟩ [⟨0x0a000108#32, 29, by decide⟩]) ∧
      (AddressPlan.ofRoutes ⟨0x0a000004#32, 30, by decide⟩
        [⟨0x0a000108#32, 29, by decide⟩]).pool.toList =
          ([⟨0x0a000007#32, 30, by decide⟩, ⟨0x0a000108#32, 29, by decide⟩].flatMap
            Network.hosts).filter (· ≠ 0x0a000005#32) ∧
      (AddressPlan.ofRoutes ⟨0x0a000004#32, 30, by decide⟩
        [⟨0x0a000108#32, 29, by decide⟩]).pool.get? 1 = some 0x0a000109#32 := by
  have hplan : ofNetworks [⟨0x0a000007#32, 30, by decide⟩, ⟨0x0a000108#32, 29, by decide⟩] =
      .ok (.ofRoutes ⟨0x0a000004#32, 30, by decide⟩ [⟨0x0a000108#32, 29, by decide⟩]) := by
    decide
  obtain ⟨-, hlists, -⟩ := pool_of_ofNetworks hplan
  exact ⟨hplan, hlists.toList_eq, hlists.get?_of_lt 1 (by decide)⟩

end AddressPlan

end DnsConnector
