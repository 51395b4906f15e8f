import DnsConnector.Proofs.AddressBook.Reclaim

/-!
# DnsConnector.Proofs.AddressBook.Stability

What stays the same between two requests of a run, however far apart they are.
The record of a key keeps its IPv6 address for ever, no other key is ever
answered with it, and a key that is filed later has a greater discriminator.
An IPv4 address stays with its key until a request for another key is given it
while nothing else is available (`stable_run`).

Every fact is one about a single request first; runs follow by induction.  What
happens somewhere in between is found by `exists_loses_of_run`.
-/

namespace DnsConnector.AddressBook

open Call

variable {b b' : AddressBook} {k : AllocationKey} {i now : Nat} {family : AddressFamily}
  {r : AddressBook × Except AllocationFault (List IpAddress)} {as : List IpAddress} {c : Call}
  {calls : List Call} {a : Ipv4} {x : Ipv6}

/-! ## What a successful request returns -/

/-- The record of a key has an IPv6 address, and perhaps an IPv4 address before it. -/
theorem exists_addresses_eq (hb : Coherent b) (hkey : b.records.get? k = some i) :
    ∃ x, b.v6? k = some x ∧ b.addresses k = ((b.v4? k).map IpAddress.v4).toList ++ [.v6 x] := by
  obtain ⟨x, hx⟩ := hb.filed.exists_v6At hkey
  refine ⟨x, by rw [v6?, hkey, Option.bind_some, hx], ?_⟩
  rw [addresses, v4?, hkey, Option.map_some, Option.getD_some, Option.bind_some,
    addressesAt_eq hx]

/-- An allocation that was granted the IPv4 address it needs has one. -/
theorem Granted.v4At_ne_none (hgranted : Granted b k i family now b')
    (hi : i < b.allocations.length) (hneed : family.needsV4 = true) : b'.v4At i ≠ none := by
  cases hgranted with
  | unneeded hneed' => rw [hneed] at hneed'; contradiction
  | kept _ hv4 => rw [hv4]; exact Option.some_ne_none _
  | fresh =>
      rw [v4At_hold k (by exact hi), if_pos rfl]
      exact Option.some_ne_none _
  | reclaimed =>
      rw [v4At_hold k (by simpa using hi), if_pos rfl]
      exact Option.some_ne_none _

/-- A request that succeeds leaves a record, with an IPv4 address if one is needed. -/
theorem Served.exists_record (h : Served b k family now r) (hb : Coherent b) (has : r.2 = .ok as) :
    ∃ i, r.1.records.get? k = some i ∧ (family.needsV4 = true → r.1.v4? k ≠ none) := by
  cases h with
  | noIpv6 => contradiction
  | refusedNew => contradiction
  | @created v6 b' hkey _ hgranted =>
      have hself := withKey_self b.records.get? k b.allocations.length
      have hi := (hb.filed.prepared hkey v6 now).lt_length k _ hself
      have hrecord : (b'.file k b.allocations.length v6).records.get? k =
          some b.allocations.length := by rw [hgranted.get?_records_file, hself]
      refine ⟨_, hrecord, fun hneed => ?_⟩
      rw [v4?, hrecord, Option.bind_some]
      exact hgranted.v4At_ne_none hi hneed
  | refused => contradiction
  | @renewed i b' hkey hgranted =>
      have hrecord : b'.records.get? k = some i :=
        (congrArg (Table.get? · k) hgranted.sameBesidesV4.records_eq).trans hkey
      have hi := (hb.filed.touch i now).lt_length k i hkey
      refine ⟨i, hrecord, fun hneed => ?_⟩
      rw [v4?, hrecord, Option.bind_some]
      exact hgranted.v4At_ne_none hi hneed

/-- A successful request returns the IPv4 address of the record, if it has one,
and the IPv6 address behind it. -/
theorem Served.eq_append_v6 (h : Served b k family now r) (hb : Coherent b) (has : r.2 = .ok as) :
    ∃ x, r.1.v6? k = some x ∧ as = ((r.1.v4? k).map IpAddress.v4).toList ++ [.v6 x] ∧
      (family.needsV4 = true → r.1.v4? k ≠ none) := by
  obtain ⟨i, hrecord, hneed⟩ := h.exists_record hb has
  obtain ⟨x, hx, haddresses⟩ := exists_addresses_eq (hb.served h) hrecord
  exact ⟨x, hx, (h.eq_addresses has).trans haddresses, hneed⟩

/-! ## What a request leaves to its key -/

/-- A record keeps its IPv6 address. -/
theorem Served.v6?_self (h : Served b k family now r) (hx : b.v6? k = some x) :
    r.1.v6? k = some x := by
  have hfiled : b.records.get? k ≠ none := by
    intro hkey
    rw [v6?, hkey] at hx
    contradiction
  cases h with
  | noIpv6 => exact hx
  | refusedNew hkey => exact absurd hkey hfiled
  | created hkey => exact absurd hkey hfiled
  | @refused i => exact (v6?_touch (b := b) i now k).trans hx
  | renewed _ hgranted =>
      exact (hgranted.sameBesidesV4.v6?_eq k).trans ((v6?_touch _ now k).trans hx)

/-- The IPv6 address of a record is the one it had, or was drawn for it. -/
theorem Served.v6?_cases (h : Served b k family now r) (hb : Coherent b)
    (hx : r.1.v6? k = some x) :
    b.v6? k = some x ∨ SiteNetwork.address? b.site (b.drawn + 1) = some x := by
  cases h with
  | noIpv6 => exact .inl hx
  | refusedNew => exact .inl hx
  | created _ hsite hgranted =>
      rw [hgranted.v6?_file hb.filed, if_pos rfl] at hx
      exact .inr (hx ▸ hsite)
  | @refused i => exact .inl ((v6?_touch (b := b) i now k).symm.trans hx)
  | renewed _ hgranted =>
      rw [hgranted.sameBesidesV4.v6?_eq, v6?_touch] at hx
      exact .inl hx

/-- A request for a key with an IPv4 address leaves it there. -/
theorem Served.v4?_self (h : Served b k family now r) (ha : b.v4? k = some a) :
    r.1.v4? k = some a := by
  have hfiled : b.records.get? k ≠ none := by
    intro hkey
    rw [v4?, hkey] at ha
    contradiction
  cases h with
  | noIpv6 => exact ha
  | refusedNew hkey => exact absurd hkey hfiled
  | created hkey => exact absurd hkey hfiled
  | @refused i => exact (v4?_touch (b := b) i now k).trans ha
  | @renewed i b' hkey hgranted =>
      have htouch : (b.touch i now).v4? k = some a := (v4?_touch i now k).trans ha
      have hv4 : (b.touch i now).v4At i = some a := by
        rwa [v4?, show (b.touch i now).records.get? k = some i from hkey] at htouch
      cases hgranted with
      | unneeded => exact htouch
      | kept => exact htouch
      | fresh _ hnone => rw [hv4] at hnone; contradiction
      | reclaimed _ hnone => rw [hv4] at hnone; contradiction

/-! ## What any request leaves alone -/

theorem v6?_answer (hb : Coherent b) (hx : b.v6? k = some x) (c : Call) :
    (b.answer c).1.v6? k = some x := by
  by_cases hkey : c.key? = some k
  · exact (served_of_key?_eq hb.leased.recycled_eq hkey).v6?_self hx
  · exact (answer_of_key_ne hb hkey).1.trans hx

/-- A record keeps its IPv6 address for ever. -/
theorem v6?_run (hb : Coherent b) (hx : b.v6? k = some x) (calls : List Call) :
    (b.run calls).v6? k = some x := by
  induction calls generalizing b with
  | nil => exact hx
  | cons c calls ih => exact ih (hb.answer c) (v6?_answer hb hx c)

/-- The IPv6 address of a record is the one it had, or was drawn for it. -/
theorem v6?_answer_cases (hb : Coherent b) (hx : (b.answer c).1.v6? k = some x) :
    b.v6? k = some x ∨ SiteNetwork.address? b.site (b.drawn + 1) = some x := by
  by_cases hkey : c.key? = some k
  · exact (served_of_key?_eq hb.leased.recycled_eq hkey).v6?_cases hb hx
  · exact .inl ((answer_of_key_ne hb hkey).1.symm.trans hx)

theorem drawn_le_answer (hb : Coherent b) (c : Call) : b.drawn ≤ (b.answer c).1.drawn := by
  rcases served_answer hb.leased.recycled_eq c with ⟨k, -, hserved⟩ | ⟨fault, -, hsame⟩
  · generalize b.answer c = r at hserved
    cases hserved with
    | noIpv6 => exact Nat.le_succ _
    | refusedNew => exact Nat.le_succ _
    | created _ _ hgranted =>
        exact Nat.le_of_succ_le (Nat.le_of_eq hgranted.sameBesidesV4.drawn_eq.symm)
    | refused => exact Nat.le_refl _
    | renewed _ hgranted => exact Nat.le_of_eq hgranted.sameBesidesV4.drawn_eq.symm
  · exact Nat.le_of_eq (congrArg (fun r => r.1.drawn) hsame).symm

/-- A record that is filed in a run has a discriminator that was not drawn before. -/
theorem v6?_run_cases (hb : Coherent b) (hx : (b.run calls).v6? k = some x) :
    b.v6? k = some x ∨ ∃ d, b.drawn < d ∧ SiteNetwork.address? b.site d = some x := by
  induction calls generalizing b with
  | nil => exact .inl hx
  | cons c calls ih =>
      rcases ih (hb.answer c) hx with hx | ⟨d, hd, hx⟩
      · rcases v6?_answer_cases hb hx with hx | hx
        · exact .inl hx
        · exact .inr ⟨b.drawn + 1, Nat.lt_succ_self _, hx⟩
      · rw [(sameSetting_answer hb.leased.recycled_eq c).site_eq] at hx
        exact .inr ⟨d, Nat.lt_of_le_of_lt (drawn_le_answer hb c) hd, hx⟩

/-- A key that no longer has its IPv4 address lost it to some request. -/
theorem exists_loses_of_run (hb : Coherent b) (ha : b.v4? k = some a)
    (hlost : (b.run calls).v4? k ≠ some a) :
    ∃ before c after, calls = before ++ c :: after ∧ Loses (b.run before) c k a := by
  induction calls generalizing b with
  | nil => exact absurd ha hlost
  | cons c calls ih =>
      by_cases hkept : (b.answer c).1.v4? k = some a
      · obtain ⟨before, e, after, rfl, hloses⟩ := ih (hb.answer c) hkept hlost
        exact ⟨c :: before, e, after, rfl, hloses⟩
      · refine ⟨[], c, calls, rfl, ?_, ha, hkept⟩
        intro hkey
        exact hkept ((served_of_key?_eq hb.leased.recycled_eq hkey).v4?_self ha)

/-! ## Over a run -/

/-- After some requests to a book, one more is answered with addresses. -/
def Returns (b : AddressBook) (calls : List Call) (c : Call) (as : List IpAddress) : Prop :=
  ((b.run calls).answer c).2 = .ok as

/-- What requests to a book are answered with stays the same over every run. -/
structure Stable (b : AddressBook) : Prop where
  /-- A successful request is answered with an IPv6 address and, always if it
  needs one, an IPv4 address before it. -/
  answer_eq : ∀ {calls c as}, Returns b calls c as →
    ∃ (a? : Option Ipv4) (x : Ipv6), as = (a?.map IpAddress.v4).toList ++ [.v6 x] ∧
      (c.family.needsV4 = true → a?.isSome = true)
  /-- Requests for one key are answered with one IPv6 address. -/
  v6_eq : ∀ {before c between d as bs x y}, Returns b before c as →
    Returns b (before ++ c :: between) d bs → c.key? = d.key? →
    .v6 x ∈ as → .v6 y ∈ bs → x = y
  /-- Requests for different keys are not. -/
  v6_ne : ∀ {before c between d as bs x y}, Returns b before c as →
    Returns b (before ++ c :: between) d bs → c.key? ≠ d.key? →
    .v6 x ∈ as → .v6 y ∈ bs → x ≠ y
  /-- A key that is filed later has a greater discriminator. -/
  discriminator_lt : ∀ {before after k k' x y}, (b.run before).v6? k = some x →
    (b.run before).records.get? k' = none → (b.run (before ++ after)).v6? k' = some y →
    ∃ d d', SiteNetwork.address? b.site d = some x ∧ SiteNetwork.address? b.site d' = some y ∧
      d < d'
  /-- A key is answered with its IPv4 address until a request for another key is
  given this address while nothing is available. -/
  exists_taker : ∀ {before c between d as bs k a}, Returns b before c as →
    Returns b (before ++ c :: between) d bs → c.key? = some k → d.key? = some k →
    .v4 a ∈ as → .v4 a ∉ bs →
    ∃ front e rest k' x, between = front ++ e :: rest ∧ e.key? = some k' ∧ k' ≠ k ∧
      e.family.needsV4 = true ∧ (b.run (before ++ c :: front)).available = 0 ∧
      Returns b (before ++ c :: front) e [.v4 a, .v6 x]

/-- A request that is answered with addresses asks for some key, whose record
has just these addresses then. -/
theorem Returns.exists_key (h : Returns b calls c as) (hb : Coherent b) :
    ∃ k, c.key? = some k ∧ as = (b.run (calls ++ [c])).addresses k ∧
      Served (b.run calls) k c.family c.time ((b.run calls).answer c) := by
  rcases served_answer (hb.run calls).leased.recycled_eq c with
    ⟨k, hkey, hserved⟩ | ⟨fault, -, hsame⟩
  · rw [run_append_singleton]
    exact ⟨k, hkey, hserved.eq_addresses h, hserved⟩
  · rw [Returns, hsame] at h
    contradiction

theorem run_append_cons (b : AddressBook) (before : List Call) (c : Call) (after : List Call) :
    b.run (before ++ c :: after) = (b.run (before ++ [c])).run after := by
  rw [← run_append, List.append_assoc, List.singleton_append]

/-- What is allocated stays the same from any book on whose parts agree. -/
theorem Coherent.stable (hb : Coherent b) (hsited : Sited b) : Stable b where
  answer_eq := by
    intro calls c as h
    obtain ⟨k, -, -, hserved⟩ := h.exists_key hb
    obtain ⟨x, -, has, hneed⟩ := hserved.eq_append_v6 (hb.run calls) h
    exact ⟨_, x, has, fun hc => Option.isSome_iff_ne_none.2 (hneed hc)⟩
  v6_eq := by
    intro before c between d as bs x y hc hd hkey hx hy
    obtain ⟨k, hck, rfl, -⟩ := hc.exists_key hb
    obtain ⟨k', hdk, rfl, -⟩ := hd.exists_key hb
    obtain rfl := Option.some.inj (hck.symm.trans (hkey.trans hdk))
    have hlater := v6?_run (hb.run _) (mem_addresses_v6.1 hx) (between ++ [d])
    rw [← run_append_cons, ← List.cons_append, ← List.append_assoc] at hlater
    exact Option.some.inj (hlater.symm.trans (mem_addresses_v6.1 hy))
  v6_ne := by
    intro before c between d as bs x y hc hd hkey hx hy
    obtain ⟨k, hck, rfl, -⟩ := hc.exists_key hb
    obtain ⟨k', hdk, rfl, -⟩ := hd.exists_key hb
    have hlater := v6?_run (hb.run _) (mem_addresses_v6.1 hx) (between ++ [d])
    rw [← run_append_cons, ← List.cons_append, ← List.append_assoc] at hlater
    rintro rfl
    have hagreement := (hb.run (before ++ c :: between ++ [d])).agreement (hsited.run hb _)
    have hsame := hagreement.v6?_injective k k' x hlater (mem_addresses_v6.1 hy)
    exact hkey (hck.trans (hsame ▸ hdk.symm))
  discriminator_lt := by
    intro before after k k' x y hx hnew hy
    have hsite := (sameSetting_run hb before).site_eq
    obtain ⟨d, -, hle, hd⟩ := (hsited.run hb before).drawn_of_v6? k x hx
    rw [run_append] at hy
    rcases v6?_run_cases (hb.run before) hy with hold | ⟨d', hlt, hd'⟩
    · rw [v6?, hnew] at hold
      contradiction
    · rw [hsite] at hd hd'
      exact ⟨d, d', hd, hd', Nat.lt_of_le_of_lt hle hlt⟩
  exists_taker := by
    intro before c between d as bs k a hc hd hck hdk ha hlost
    obtain ⟨k₁, hck₁, rfl, -⟩ := hc.exists_key hb
    obtain ⟨k₂, hdk₂, rfl, hserved⟩ := hd.exists_key hb
    obtain rfl := Option.some.inj (hck.symm.trans hck₁)
    obtain rfl := Option.some.inj (hdk.symm.trans hdk₂)
    rw [mem_addresses_v4] at ha hlost
    have hgone : ((b.run (before ++ [c])).run between).v4? k ≠ some a := by
      intro hkept
      rw [← run_append_cons] at hkept
      rw [run_append_singleton] at hlost
      exact hlost (hserved.v4?_self hkept)
    obtain ⟨front, e, rest, rfl, hloses⟩ := exists_loses_of_run (hb.run _) ha hgone
    obtain ⟨k', x, v6, hkey, hreclaims, -, -, -, hanswer, -⟩ :=
      hloses.exists_reclaims ((hb.run _).run front)
    refine ⟨front, e, rest, k', v6, rfl, hkey, ?_, hreclaims.need, ?_, ?_⟩
    · rintro rfl
      exact hloses.key_ne hkey
    · rw [run_append_cons]
      exact hreclaims.available_eq
    · rw [Returns, run_append_cons]
      exact hanswer

/-- **Stability.**  Over any requests to a book with the pool of a plan and the
network of a site, whatever they ask for, whenever they are made and whether
they are refused or not, what is answered stays the same. -/
theorem stable_run {ns : List (Network 32)} {plan : AddressPlan}
    (hplan : AddressPlan.ofNetworks ns = .ok plan) (site : UInt16) (idle : Nat) :
    Stable (empty plan.pool (SiteNetwork.ofSite site) idle) :=
  (Coherent.empty (AddressPlan.nodup_pool hplan) (SiteNetwork.ofSite site) idle).stable
    (.empty plan.pool (Nat.le_refl 80) idle)

/-- A name that comes back after another one took its IPv4 address is answered
with the IPv6 address it had; the other name was given the IPv4 address when
nothing else was available. -/
theorem stable_run_of_taken :
    ∃ plan b x, AddressPlan.ofNetworks [⟨0x0a000000#32, 30, by decide⟩] = .ok plan ∧
      b = empty plan.pool (SiteNetwork.ofSite 1) 1000 ∧
      Returns b [] ⟨⟨"p"⟩, "a", .both, 0⟩ [.v4 0x0a000002#32, .v6 x] ∧
      Returns b [⟨⟨"p"⟩, "a", .both, 0⟩, ⟨⟨"q"⟩, "a", .v4, 1000⟩] ⟨⟨"p"⟩, "A.", .v6, 1001⟩
        [.v6 x] ∧
      ∃ front e rest k' z, [⟨⟨"q"⟩, "a", .v4, 1000⟩] = front ++ e :: rest ∧ e.key? = some k' ∧
        k' ≠ ⟨⟨"p"⟩, ⟨"a."⟩⟩ ∧ e.family.needsV4 = true ∧
        (b.run ([] ++ ⟨⟨"p"⟩, "a", .both, 0⟩ :: front)).available = 0 ∧
        Returns b ([] ++ ⟨⟨"p"⟩, "a", .both, 0⟩ :: front) e [.v4 0x0a000002#32, .v6 z] := by
  have hplan : AddressPlan.ofNetworks [⟨0x0a000000#32, 30, by decide⟩] =
      .ok (.ofRoutes ⟨0x0a000000#32, 30, by decide⟩ []) := by decide
  have hstable := stable_run hplan 1 1000
  have hfirst : Returns
      (empty (AddressPlan.ofRoutes ⟨0x0a000000#32, 30, by decide⟩ []).pool (SiteNetwork.ofSite 1)
        1000) [] ⟨⟨"p"⟩, "a", .both, 0⟩
      [.v4 0x0a000002#32, .v6 0xfd7a115ca1e0a99c0001000000000001#128] := by
    unfold Returns
    decide
  have hlater : Returns
      (empty (AddressPlan.ofRoutes ⟨0x0a000000#32, 30, by decide⟩ []).pool (SiteNetwork.ofSite 1)
        1000) ([] ++ ⟨⟨"p"⟩, "a", .both, 0⟩ :: [⟨⟨"q"⟩, "a", .v4, 1000⟩])
      ⟨⟨"p"⟩, "A.", .v6, 1001⟩ [.v6 0xfd7a115ca1e0a99c0001000000000001#128] := by
    unfold Returns
    decide
  exact ⟨_, _, _, hplan, rfl, hfirst, hlater,
    hstable.exists_taker hfirst hlater (by decide) (by decide) (by decide) (by decide)⟩

end DnsConnector.AddressBook
