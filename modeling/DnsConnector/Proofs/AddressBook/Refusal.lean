import DnsConnector.Proofs.AddressBook.Reclaim

/-!
# DnsConnector.Proofs.AddressBook.Refusal

When a request is refused and what a refusal leaves behind.  A request for a
key fails exactly if there is no discriminator for a new key, or if an IPv4
address is needed and there is none for the key (`Served.fails_iff`).  On the
way to a refusal a discriminator may be drawn, the record touched and the queue
searched; nothing else changes, whatever way the request took
(`Served.undisturbed`).  `Refusals` says the same about requests of any text, and
holds after any run (`refusals_run`).
-/

namespace DnsConnector.AddressBook

variable {b b' : AddressBook} {k : AllocationKey} {i now : Nat} {family : AddressFamily}
  {r : AddressBook × Except AllocationFault (List IpAddress)}

/-! ## What there may be none of -/

/-- There is no discriminator for a key: it is new, and all have been drawn. -/
def LacksIpv6 (b : AddressBook) (k : AllocationKey) : Prop :=
  b.records.get? k = none ∧ SiteNetwork.maxDiscriminator ≤ b.drawn

/-- There is no IPv4 address for a key: it has none, nothing is available and
no holder gives its own. -/
def LacksIpv4 (b : AddressBook) (k : AllocationKey) (now : Nat) : Prop :=
  b.v4? k = none ∧ b.available = 0 ∧ (b.reclaim now).2 = none

/-- An allocation needs an IPv4 address and cannot be given one. -/
def Starved (b : AddressBook) (i : Nat) (family : AddressFamily) (now : Nat) : Prop :=
  family.needsV4 = true ∧ b.v4At i = none ∧ b.pool.get? b.handedOut = none ∧
    (b.findIdle now).2 = none

theorem Refused.starved {queue : List Holder} (h : Refused b i family now queue) :
    Starved b i family now :=
  ⟨h.need, h.v4At_eq, h.dry, congrArg Prod.snd h.find⟩

theorem Granted.not_starved (h : Granted b k i family now b') : ¬Starved b i family now := by
  rintro ⟨hneed, hv4, hdry, hfind⟩
  cases h with
  | unneeded hneed' => exact absurd (hneed'.symm.trans hneed) nofun
  | kept _ hv4' => exact absurd (hv4'.symm.trans hv4) nofun
  | fresh _ _ hfresh => exact absurd (hfresh.symm.trans hdry) nofun
  | reclaimed _ _ _ hfind' =>
      rw [hfind'] at hfind
      contradiction

/-- What is reclaimed is the address of the holder that is found. -/
theorem reclaim_eq_none_iff : (b.reclaim now).2 = none ↔ (b.findIdle now).2 = none := by
  rw [reclaim]
  rcases b.findIdle now with ⟨queue, _ | x⟩ <;> simp

/-- A new key is starved if there is no IPv4 address for it before the request. -/
theorem starved_prepared_iff (hb : Coherent b) (hkey : b.records.get? k = none) (v6 : Ipv6) :
    Starved (b.prepared v6 now) b.allocations.length family now ↔
      family.needsV4 = true ∧ LacksIpv4 b k now := by
  have hnew : (b.prepared v6 now).v4At b.allocations.length = none := by
    rw [prepared, v4At_add]
    exact congrArg (Option.bind · _) (getElem?_length_allocations (b := b))
  have hnone : b.v4? k = none := by rw [v4?, hkey]; rfl
  rw [Starved, LacksIpv4, findIdle_prepared hb, reclaim_eq_none_iff,
    hb.leased.available_eq_zero_iff]
  exact and_congr_right fun _ => and_congr (iff_of_true hnew hnone) Iff.rfl

/-- A key with a record is starved if there is no IPv4 address for it before
the request. -/
theorem starved_touch_iff (hb : Coherent b) (hkey : b.records.get? k = some i) :
    Starved (b.touch i now) i family now ↔ family.needsV4 = true ∧ LacksIpv4 b k now := by
  have hsame : b.v4? k = b.v4At i := by rw [v4?, hkey]; rfl
  rw [Starved, LacksIpv4, reclaim_eq_none_iff, hb.leased.available_eq_zero_iff, v4At_touch, hsame]
  refine and_congr_right fun _ => and_congr_right fun hv4 => ?_
  rw [findIdle_touch hb hkey hv4]
  exact Iff.rfl

/-! ## When a request is refused -/

/-- A discriminator is missing exactly if all have been drawn. -/
theorem address?_eq_none_iff {site : Network 128} {d : Nat} :
    SiteNetwork.address? site (d + 1) = none ↔ SiteNetwork.maxDiscriminator ≤ d := by
  rw [← Option.not_isSome_iff_eq_none, SiteNetwork.address?_isSome_iff, Nat.not_le,
    Nat.lt_succ_iff]

/-- A request for a key fails exactly if an address that it needs is missing. -/
theorem Served.fails_iff (h : Served b k family now r) (hb : Coherent b) :
    (∃ e, r.2 = .error e) ↔ LacksIpv6 b k ∨ family.needsV4 = true ∧ LacksIpv4 b k now := by
  cases h with
  | noIpv6 hkey hsite => exact iff_of_true ⟨_, rfl⟩ (.inl ⟨hkey, address?_eq_none_iff.1 hsite⟩)
  | @refusedNew v6 _ hkey hsite hrefused =>
      exact iff_of_true ⟨_, rfl⟩ (.inr ((starved_prepared_iff hb hkey v6).1 hrefused.starved))
  | @created v6 _ hkey hsite hgranted =>
      refine iff_of_false nofun ?_
      rintro (⟨-, hdrawn⟩ | hlacks)
      · exact absurd ((address?_eq_none_iff.2 hdrawn).symm.trans hsite) nofun
      · exact hgranted.not_starved ((starved_prepared_iff hb hkey v6).2 hlacks)
  | refused hkey hrefused =>
      exact iff_of_true ⟨_, rfl⟩ (.inr ((starved_touch_iff hb hkey).1 hrefused.starved))
  | renewed hkey hgranted =>
      refine iff_of_false nofun ?_
      rintro (⟨hnew, -⟩ | hlacks)
      · rw [hkey] at hnew
        contradiction
      · exact hgranted.not_starved ((starved_touch_iff hb hkey).2 hlacks)

/-- The failure is always that there is no address left. -/
theorem Served.toFailure_eq (h : Served b k family now r) {e : AllocationFault}
    (he : r.2 = .error e) : ∃ detail, e.toFailure = .poolExhausted detail := by
  cases h with
  | noIpv6 => obtain rfl := Except.error.inj he; exact ⟨_, rfl⟩
  | refusedNew => obtain rfl := Except.error.inj he; exact ⟨_, rfl⟩
  | created => contradiction
  | refused => obtain rfl := Except.error.inj he; exact ⟨_, rfl⟩
  | renewed => contradiction

/-! ## What a refusal leaves behind -/

/-- Two books differ at most in the order and the stamps of the queue, in the
last use of one key's record and in the count of drawn discriminators. -/
structure Undisturbed (b b' : AddressBook) (k : AllocationKey) : Prop where
  pool_eq : b'.pool = b.pool
  site_eq : b'.site = b.site
  reclaimIdle_eq : b'.reclaimIdle = b.reclaimIdle
  records_eq : b'.records = b.records
  owners_eq : b'.owners = b.owners
  handedOut_eq : b'.handedOut = b.handedOut
  recycled_eq : b'.recycled = b.recycled
  length_allocations_eq : b'.allocations.length = b.allocations.length
  v4At_eq : ∀ j, b'.v4At j = b.v4At j
  v6At_eq : ∀ j, b'.v6At j = b.v6At j
  lastUsedAt_eq : ∀ j, b.records.get? k ≠ some j → b'.lastUsedAt j = b.lastUsedAt j
  /-- The same addresses are held by the same keys. -/
  sameHolders : Holder.SameHolders b'.queue b.queue
  drawn_le : b.drawn ≤ b'.drawn
  drawn_le_succ : b'.drawn ≤ b.drawn + 1

theorem Undisturbed.draw_requeue (b : AddressBook) (k : AllocationKey) {queue : List Holder}
    (hqueue : Holder.SameHolders queue b.queue) : Undisturbed b { b.draw with queue } k where
  pool_eq := rfl
  site_eq := rfl
  reclaimIdle_eq := rfl
  records_eq := rfl
  owners_eq := rfl
  handedOut_eq := rfl
  recycled_eq := rfl
  length_allocations_eq := rfl
  v4At_eq _ := rfl
  v6At_eq _ := rfl
  lastUsedAt_eq _ _ := rfl
  sameHolders := hqueue
  drawn_le := Nat.le_succ _
  drawn_le_succ := Nat.le_refl _

theorem Undisturbed.touch_requeue (hb : Coherent b) (hkey : b.records.get? k = some i)
    {queue : List Holder} (hqueue : Holder.SameHolders queue b.queue) :
    Undisturbed b { b.touch i now with queue } k where
  pool_eq := rfl
  site_eq := rfl
  reclaimIdle_eq := rfl
  records_eq := rfl
  owners_eq := rfl
  handedOut_eq := rfl
  recycled_eq := rfl
  length_allocations_eq := length_allocations_touch i now
  v4At_eq := v4At_touch i now
  v6At_eq := v6At_touch i now
  lastUsedAt_eq j hj := by
    have hne : j ≠ i := by
      rintro rfl
      exact hj hkey
    exact (lastUsedAt_touch (hb.filed.lt_length k i hkey) now j).trans (if_neg hne)
  sameHolders := hqueue
  drawn_le := Nat.le_refl _
  drawn_le_succ := Nat.le_succ _

/-- A request for a key that fails disturbs nothing. -/
theorem Served.undisturbed (h : Served b k family now r) (hb : Coherent b) {e : AllocationFault}
    (he : r.2 = .error e) : Undisturbed b r.1 k := by
  -- the allocation that a new key was prepared with is gone again
  cases h with
  | noIpv6 => exact .draw_requeue b k (List.Perm.refl _)
  | refusedNew _ _ hrefused => exact .draw_requeue b k (sameHolders_of_findIdle hrefused.find)
  | created => contradiction
  | refused hkey hrefused =>
      exact .touch_requeue hb hkey (sameHolders_of_findIdle hrefused.find)
  | renewed => contradiction

/-- Two books say the same about every record, address and count. -/
structure SameContents (b b' : AddressBook) : Prop where
  keys_eq : b'.records.keys = b.records.keys
  v4?_eq : ∀ k, b'.v4? k = b.v4? k
  v6?_eq : ∀ k, b'.v6? k = b.v6? k
  owner?_eq : ∀ a, b'.owner? a = b.owner? a
  holder_iff : ∀ a k, (∃ x ∈ b'.queue, x.address = a ∧ x.key = k) ↔
    ∃ x ∈ b.queue, x.address = a ∧ x.key = k
  size_eq : b'.size = b.size
  available_eq : b'.available = b.available

theorem Undisturbed.sameContents (h : Undisturbed b b' k) : SameContents b b' where
  keys_eq := congrArg Table.keys h.records_eq
  v4?_eq k' := by rw [v4?, v4?, h.records_eq, funext h.v4At_eq]
  v6?_eq k' := by rw [v6?, v6?, h.records_eq, funext h.v6At_eq]
  owner?_eq a := by rw [owner?, owner?, h.owners_eq]
  holder_iff a k' := h.sameHolders.exists_iff fun a' k'' _ => a' = a ∧ k'' = k'
  size_eq := congrArg Table.size h.records_eq
  available_eq := by rw [available, available, h.pool_eq, h.handedOut_eq, h.recycled_eq]

/-! ## Over a run -/

/-- What is reported to the caller if a request fails. -/
def failure? (b : AddressBook) (c : Call) : Option Failure :=
  match (b.answer c).2 with
  | .ok _ => none
  | .error e => some e.toFailure

/-- When a request to a book fails, how, and what is left of the book. -/
structure Refusals (b : AddressBook) (c : Call) : Prop where
  invalidDomainName_iff : (∃ detail, b.failure? c = some (.invalidDomainName detail)) ↔
    ∃ fault, Fqdn.ofText c.domain = .error fault
  /-- A text that is no name changes nothing at all. -/
  unchanged : ∀ fault, Fqdn.ofText c.domain = .error fault → (b.answer c).1 = b
  /-- A request for IPv6 only does not fail for want of IPv4 addresses. -/
  poolExhausted_iff_of_v6 : ∀ name, Fqdn.ofText c.domain = .ok name → c.family = .v6 →
    ((∃ detail, b.failure? c = some (.poolExhausted detail)) ↔ LacksIpv6 b ⟨c.peer, name⟩)
  poolExhausted_iff : ∀ name, Fqdn.ofText c.domain = .ok name → c.family ≠ .v6 →
    ((∃ detail, b.failure? c = some (.poolExhausted detail)) ↔
      LacksIpv6 b ⟨c.peer, name⟩ ∨ LacksIpv4 b ⟨c.peer, name⟩ c.time)
  /-- There is no other failure. -/
  kind : ∀ f, b.failure? c = some f →
    (∃ detail, f = .invalidDomainName detail) ∨ ∃ detail, f = .poolExhausted detail
  undisturbed : ∀ name f, Fqdn.ofText c.domain = .ok name → b.failure? c = some f →
    Undisturbed b (b.answer c).1 ⟨c.peer, name⟩ ∧ SameContents b (b.answer c).1

variable {c : Call}

theorem failure?_eq_some_iff {f : Failure} :
    b.failure? c = some f ↔ ∃ e, (b.answer c).2 = .error e ∧ e.toFailure = f := by
  rw [failure?]
  split <;> simp_all

/-- A text that is no name is reported as such and changes nothing. -/
theorem answer_of_badName {fault : NameFault} (hname : Fqdn.ofText c.domain = .error fault) :
    b.answer c = (b, .error (.badName fault)) := by
  have hkey : AllocationKey.ofText c.peer c.domain = .error fault := by
    rw [AllocationKey.ofText, hname]
    rfl
  exact request_of_badName hkey c.family c.time

/-- A name is served for the peer. -/
theorem served_of_name (hrecycled : b.recycled = []) {name : Fqdn}
    (hname : Fqdn.ofText c.domain = .ok name) :
    Served b ⟨c.peer, name⟩ c.family c.time (b.answer c) := by
  have hkey : AllocationKey.ofText c.peer c.domain = .ok ⟨c.peer, name⟩ := by
    rw [AllocationKey.ofText, hname]
    rfl
  exact served_request hrecycled hkey c.family c.time

/-- A failure for a name is that there is no address left. -/
theorem Served.poolExhausted_iff (h : Served b k c.family c.time (b.answer c)) :
    (∃ detail, b.failure? c = some (.poolExhausted detail)) ↔
      ∃ e, (b.answer c).2 = .error e := by
  constructor
  · rintro ⟨detail, hfailure⟩
    obtain ⟨e, he, -⟩ := failure?_eq_some_iff.1 hfailure
    exact ⟨e, he⟩
  · rintro ⟨e, he⟩
    obtain ⟨detail, hdetail⟩ := h.toFailure_eq he
    exact ⟨detail, failure?_eq_some_iff.2 ⟨e, he, hdetail⟩⟩

theorem refusals_of_badName {fault : NameFault} (hname : Fqdn.ofText c.domain = .error fault) :
    Refusals b c := by
  have hanswer := answer_of_badName (b := b) hname
  have hfailure : b.failure? c = some (.invalidDomainName fault.message) :=
    failure?_eq_some_iff.2 ⟨.badName fault, congrArg Prod.snd hanswer, rfl⟩
  constructor
  case invalidDomainName_iff => exact iff_of_true ⟨_, hfailure⟩ ⟨fault, hname⟩
  case unchanged => exact fun _ _ => congrArg Prod.fst hanswer
  case kind => exact fun f hf => .inl ⟨_, Option.some.inj (hf.symm.trans hfailure)⟩
  -- the rest is about texts that are names
  all_goals
    intro name
    rw [hname]
    nofun

theorem Coherent.refusals_of_name (hb : Coherent b) {name : Fqdn}
    (hname : Fqdn.ofText c.domain = .ok name) : Refusals b c := by
  have hserved := served_of_name hb.leased.recycled_eq hname
  have hkind : ∀ f, b.failure? c = some f → ∃ detail, f = .poolExhausted detail := by
    intro f hf
    obtain ⟨e, he, rfl⟩ := failure?_eq_some_iff.1 hf
    exact hserved.toFailure_eq he
  constructor
  case invalidDomainName_iff =>
    rw [hname]
    refine iff_of_false ?_ nofun
    rintro ⟨detail, hf⟩
    obtain ⟨_, hdetail⟩ := hkind _ hf
    cases hdetail
  case unchanged =>
    rw [hname]
    nofun
  case poolExhausted_iff_of_v6 =>
    intro name' hname' hfamily
    obtain rfl := Except.ok.inj (hname.symm.trans hname')
    rw [hserved.poolExhausted_iff, hserved.fails_iff hb, hfamily]
    simp [AddressFamily.needsV4]
  case poolExhausted_iff =>
    intro name' hname' hfamily
    obtain rfl := Except.ok.inj (hname.symm.trans hname')
    have hneed : c.family.needsV4 = true := by
      cases hf : c.family <;> simp_all [AddressFamily.needsV4]
    rw [hserved.poolExhausted_iff, hserved.fails_iff hb]
    simp [hneed]
  case kind => exact fun f hf => .inr (hkind f hf)
  case undisturbed =>
    intro name' f hname' hf
    obtain rfl := Except.ok.inj (hname.symm.trans hname')
    obtain ⟨e, he, -⟩ := failure?_eq_some_iff.1 hf
    have hundisturbed := hserved.undisturbed hb he
    exact ⟨hundisturbed, hundisturbed.sameContents⟩

theorem Coherent.refusals (hb : Coherent b) (c : Call) : Refusals b c := by
  cases hname : Fqdn.ofText c.domain with
  | error fault => exact refusals_of_badName hname
  | ok name => exact hb.refusals_of_name hname

/-- **Refusals.**  After any requests to a book with the pool of a plan, the next
one fails exactly if its text is no name or an address that it needs is
missing, and leaves every record, address and count as it was if it does.  No
request draws more than one discriminator, so that a counter of 64 bits does
not come round in fewer than 2^64 requests. -/
theorem refusals_run {ns : List (Network 32)} {plan : AddressPlan}
    (hplan : AddressPlan.ofNetworks ns = .ok plan) (site : Network 128) (idle : Nat)
    (calls : List Call) (c : Call) :
    Refusals ((empty plan.pool site idle).run calls) c ∧
      ((empty plan.pool site idle).run calls).drawn ≤ calls.length := by
  have hempty := Coherent.empty (AddressPlan.nodup_pool hplan) site idle
  refine ⟨(hempty.run calls).refusals c, ?_⟩
  simpa [empty] using drawn_run_le hempty calls

/-- The only address of a pool was given to one name in this second, so that
another name, which has asked for IPv6 only, is refused IPv4. -/
theorem refusals_run_of_taken :
    AddressPlan.ofNetworks [⟨0x0a000000#32, 30, by decide⟩] =
        .ok (.ofRoutes ⟨0x0a000000#32, 30, by decide⟩ []) ∧
      ((empty (AddressPlan.ofRoutes ⟨0x0a000000#32, 30, by decide⟩ []).pool
        (SiteNetwork.ofSite 1) 1000).run
          [⟨⟨"p"⟩, "a", .both, 0⟩, ⟨⟨"p"⟩, "b", .v6, 1⟩]).failure? ⟨⟨"p"⟩, "b.", .v4, 5⟩ =
        some (.poolExhausted "no IPv4 address for b.") ∧
      SameContents
        ((empty (AddressPlan.ofRoutes ⟨0x0a000000#32, 30, by decide⟩ []).pool
          (SiteNetwork.ofSite 1) 1000).run [⟨⟨"p"⟩, "a", .both, 0⟩, ⟨⟨"p"⟩, "b", .v6, 1⟩])
        ((empty (AddressPlan.ofRoutes ⟨0x0a000000#32, 30, by decide⟩ []).pool
          (SiteNetwork.ofSite 1) 1000).run
            ([⟨⟨"p"⟩, "a", .both, 0⟩, ⟨⟨"p"⟩, "b", .v6, 1⟩] ++ [⟨⟨"p"⟩, "b.", .v4, 5⟩])) := by
  have hplan : AddressPlan.ofNetworks [⟨0x0a000000#32, 30, by decide⟩] =
      .ok (.ofRoutes ⟨0x0a000000#32, 30, by decide⟩ []) := by decide
  have hfailure : ((empty (AddressPlan.ofRoutes ⟨0x0a000000#32, 30, by decide⟩ []).pool
      (SiteNetwork.ofSite 1) 1000).run
        [⟨⟨"p"⟩, "a", .both, 0⟩, ⟨⟨"p"⟩, "b", .v6, 1⟩]).failure? ⟨⟨"p"⟩, "b.", .v4, 5⟩ =
      some (.poolExhausted "no IPv4 address for b.") := by decide
  have hrefusals := (refusals_run hplan (SiteNetwork.ofSite 1) 1000
    [⟨⟨"p"⟩, "a", .both, 0⟩, ⟨⟨"p"⟩, "b", .v6, 1⟩] ⟨⟨"p"⟩, "b.", .v4, 5⟩).1
  have hname : Fqdn.ofText "b." = .ok ⟨"b."⟩ := rfl
  rw [run_append_singleton]
  exact ⟨hplan, hfailure, (hrefusals.undisturbed _ _ hname hfailure).2⟩

end DnsConnector.AddressBook
