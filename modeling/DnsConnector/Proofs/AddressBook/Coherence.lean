import DnsConnector.Proofs.AddressBook.Records
import DnsConnector.Proofs.AddressPlan

/-!
# DnsConnector.Proofs.AddressBook.Coherence

A book in use: records, queue, reverse map and counters tell the same story
after any run of requests.  What one request keeps is put together from its
small steps (`Coherent.served`, `Sited.served`); a run keeps it by induction.
`Agreement` spells out what the four parts of a book then say about each other
(`agreement_run`).
-/

namespace DnsConnector

/-! ## Requests in a row -/

/-- A request to the book, and when it is made. -/
structure Call where
  peer : PeerId
  domain : String
  family : AddressFamily
  time : Nat
deriving DecidableEq, Repr

namespace Call

/-- What the request asks for; nothing if its text is no name. -/
def key? (c : Call) : Option AllocationKey := (AllocationKey.ofText c.peer c.domain).toOption

end Call

namespace AddressBook

/-- What a request makes of the book and what it returns. -/
def answer (b : AddressBook) (c : Call) :
    AddressBook × Except AllocationFault (List IpAddress) :=
  b.request c.peer c.domain c.family c.time

/-- The book after requests, one after the other. -/
def run (b : AddressBook) (calls : List Call) : AddressBook :=
  calls.foldl (fun b c => (b.answer c).1) b

@[simp] theorem run_nil (b : AddressBook) : b.run [] = b := rfl

@[simp] theorem run_cons (b : AddressBook) (c : Call) (calls : List Call) :
    b.run (c :: calls) = (b.answer c).1.run calls := rfl

theorem run_append (b : AddressBook) (calls more : List Call) :
    b.run (calls ++ more) = (b.run calls).run more := by
  rw [run, run, run, List.foldl_append]

/-! ## What one request keeps -/

/-- The parts of a book agree. -/
structure Coherent (b : AddressBook) : Prop where
  leased : Leased [] b
  filed : Filed b.records.get? b
  nodup_keys : b.records.keys.Nodup

variable {b : AddressBook}

theorem Coherent.empty {pool : HostPool} (hpool : pool.toList.Nodup) (site : Network 128)
    (idle : Nat) : Coherent (AddressBook.empty pool site idle) where
  leased := .empty hpool site idle
  filed := .empty pool site idle
  nodup_keys := List.Pairwise.nil

theorem Coherent.served (hb : Coherent b) {k : AllocationKey} {family : AddressFamily}
    {now : Nat} {r : AddressBook × Except AllocationFault (List IpAddress)}
    (h : Served b k family now r) : Coherent r.1 := by
  cases h with
  | noIpv6 => exact ⟨hb.leased.draw, hb.filed.draw, hb.nodup_keys⟩
  | refusedNew _ _ hrefused =>
      have hqueue := sameHolders_of_findIdle hrefused.find
      exact ⟨hb.leased.draw.requeue hqueue, hb.filed.draw.requeue hqueue, hb.nodup_keys⟩
  | @created v6 b' hkey _ hgranted =>
      obtain ⟨hleased, hfiled⟩ := hgranted.keeps (hb.leased.draw.add v6 now)
        (hb.filed.prepared hkey v6 now) (withKey_self _ k _)
      refine ⟨hleased.file k _ v6, ?_, ?_⟩
      · rw [hgranted.get?_records_file]
        exact hfiled.file k _ v6
      · change (b'.records.insert k _).keys.Nodup
        rw [hgranted.sameBesidesV4.records_eq]
        exact Table.nodup_keys_insert hb.nodup_keys k _
  | refused _ hrefused =>
      have hqueue := sameHolders_of_findIdle hrefused.find
      exact ⟨(hb.leased.touch _ now).requeue hqueue, (hb.filed.touch _ now).requeue hqueue,
        hb.nodup_keys⟩
  | @renewed i b' hkey hgranted =>
      have hrecords : b'.records = b.records := hgranted.sameBesidesV4.records_eq
      obtain ⟨hleased, hfiled⟩ := hgranted.keeps (hb.leased.touch i now)
        (hb.filed.touch i now) hkey
      exact ⟨hleased, hrecords ▸ hfiled, hrecords ▸ hb.nodup_keys⟩

theorem Sited.served (hb : Sited b) (hfiled : Filed b.records.get? b) {k : AllocationKey}
    {family : AddressFamily} {now : Nat}
    {r : AddressBook × Except AllocationFault (List IpAddress)} (h : Served b k family now r) :
    Sited r.1 := by
  cases h with
  | noIpv6 => exact hb.congr rfl rfl (Nat.le_succ _) (fun _ => rfl) (fun _ => rfl)
  | refusedNew => exact hb.congr rfl rfl (Nat.le_succ _) (fun _ => rfl) (fun _ => rfl)
  | created hkey hsite hgranted => exact hb.created hfiled hkey hsite hgranted
  | @refused i =>
      exact hb.congr rfl rfl (Nat.le_refl _) (fun j => v6At_touch i now j) (fun _ => rfl)
  | @renewed i b' _ hgranted =>
      have hsame := hgranted.sameBesidesV4
      exact hb.congr hsame.site_eq hsame.records_eq (Nat.le_of_eq hsame.drawn_eq.symm)
        (fun j => (hsame.v6At_eq j).trans (v6At_touch i now j)) hsame.owner_eq

/-- A request for a key is served; any other one changes nothing. -/
theorem served_answer (hrecycled : b.recycled = []) (c : Call) :
    (∃ k, c.key? = some k ∧ Served b k c.family c.time (b.answer c)) ∨
      ∃ fault, c.key? = none ∧ b.answer c = (b, .error (.badName fault)) := by
  cases hkey : AllocationKey.ofText c.peer c.domain with
  | ok k =>
      have hserved := served_request hrecycled hkey c.family c.time
      exact .inl ⟨k, by simp [Call.key?, hkey, Except.toOption], hserved⟩
  | error fault =>
      have hsame := request_of_badName (b := b) hkey c.family c.time
      exact .inr ⟨fault, by simp [Call.key?, hkey, Except.toOption], hsame⟩

theorem served_of_key?_eq (hrecycled : b.recycled = []) {c : Call} {k : AllocationKey}
    (hkey : c.key? = some k) : Served b k c.family c.time (b.answer c) := by
  rcases served_answer hrecycled c with ⟨k', hkey', hserved⟩ | ⟨fault, hnone, -⟩
  · obtain rfl := Option.some.inj (hkey.symm.trans hkey')
    exact hserved
  · rw [hkey] at hnone
    contradiction

/-- A successful request returns the addresses that its record has then. -/
theorem Served.eq_addresses {k : AllocationKey} {family : AddressFamily} {now : Nat}
    {r : AddressBook × Except AllocationFault (List IpAddress)} (h : Served b k family now r)
    {as : List IpAddress} (has : r.2 = .ok as) : as = r.1.addresses k := by
  cases h with
  | noIpv6 => contradiction
  | refusedNew => contradiction
  | created _ _ hgranted =>
      rw [addresses, hgranted.get?_records_file, withKey_self]
      exact (Except.ok.inj has).symm
  | refused => contradiction
  | renewed hkey hgranted =>
      have hkey' := (congrArg (Table.get? · k) hgranted.sameBesidesV4.records_eq).trans hkey
      rw [addresses, hkey']
      exact (Except.ok.inj has).symm

/-- What a book was opened with is the same in both books. -/
structure SameSetting (b b' : AddressBook) : Prop where
  pool_eq : b'.pool = b.pool
  site_eq : b'.site = b.site
  reclaimIdle_eq : b'.reclaimIdle = b.reclaimIdle

theorem Served.sameSetting {k : AllocationKey} {family : AddressFamily} {now : Nat}
    {r : AddressBook × Except AllocationFault (List IpAddress)} (h : Served b k family now r) :
    SameSetting b r.1 := by
  cases h with
  | noIpv6 => exact ⟨rfl, rfl, rfl⟩
  | refusedNew => exact ⟨rfl, rfl, rfl⟩
  | created _ _ hgranted =>
      have hsame := hgranted.sameBesidesV4
      exact ⟨hsame.pool_eq, hsame.site_eq, hsame.reclaimIdle_eq⟩
  | refused => exact ⟨rfl, rfl, rfl⟩
  | renewed _ hgranted =>
      have hsame := hgranted.sameBesidesV4
      exact ⟨hsame.pool_eq, hsame.site_eq, hsame.reclaimIdle_eq⟩

theorem sameSetting_answer (hrecycled : b.recycled = []) (c : Call) :
    SameSetting b (b.answer c).1 := by
  rcases served_answer hrecycled c with ⟨k, -, hserved⟩ | ⟨fault, -, hsame⟩
  · exact hserved.sameSetting
  · rw [hsame]
    exact ⟨rfl, rfl, rfl⟩

theorem Coherent.answer (hb : Coherent b) (c : Call) : Coherent (b.answer c).1 := by
  rcases served_answer hb.leased.recycled_eq c with ⟨k, -, hserved⟩ | ⟨fault, -, hsame⟩
  · exact hb.served hserved
  · rw [hsame]
    exact hb

theorem Sited.answer (hb : Sited b) (hcoherent : Coherent b) (c : Call) :
    Sited (b.answer c).1 := by
  rcases served_answer hcoherent.leased.recycled_eq c with ⟨k, -, hserved⟩ | ⟨fault, -, hsame⟩
  · exact hb.served hcoherent.filed hserved
  · rw [hsame]
    exact hb

/-! ## What a run keeps -/

theorem Coherent.run (hb : Coherent b) (calls : List Call) : Coherent (b.run calls) := by
  induction calls generalizing b with
  | nil => exact hb
  | cons c calls ih => exact ih (hb.answer c)

theorem Sited.run (hb : Sited b) (hcoherent : Coherent b) (calls : List Call) :
    Sited (b.run calls) := by
  induction calls generalizing b with
  | nil => exact hb
  | cons c calls ih => exact ih (hb.answer hcoherent c) (hcoherent.answer c)

theorem sameSetting_run (hb : Coherent b) (calls : List Call) : SameSetting b (b.run calls) := by
  induction calls generalizing b with
  | nil => exact ⟨rfl, rfl, rfl⟩
  | cons c calls ih =>
      have hfirst := sameSetting_answer hb.leased.recycled_eq c
      have hrest := ih (hb.answer c)
      exact ⟨hrest.pool_eq.trans hfirst.pool_eq, hrest.site_eq.trans hfirst.site_eq,
        hrest.reclaimIdle_eq.trans hfirst.reclaimIdle_eq⟩

/-- Every request draws one discriminator at most, so that a counter of 64 bits
does not come round in fewer than 2^64 requests. -/
theorem drawn_answer_le (hrecycled : b.recycled = []) (c : Call) :
    (b.answer c).1.drawn ≤ b.drawn + 1 := by
  rcases served_answer hrecycled c with ⟨k, -, hserved⟩ | ⟨fault, -, hsame⟩
  · generalize b.answer c = r at hserved
    cases hserved with
    | noIpv6 => exact Nat.le_refl _
    | refusedNew => exact Nat.le_refl _
    | created _ _ hgranted => exact Nat.le_of_eq hgranted.sameBesidesV4.drawn_eq
    | refused => exact Nat.le_succ _
    | renewed _ hgranted =>
        exact Nat.le_succ_of_le (Nat.le_of_eq hgranted.sameBesidesV4.drawn_eq)
  · rw [hsame]
    exact Nat.le_succ _

theorem drawn_run_le (hb : Coherent b) (calls : List Call) :
    (b.run calls).drawn ≤ b.drawn + calls.length := by
  induction calls generalizing b with
  | nil => exact Nat.le_refl _
  | cons c calls ih =>
      have hone := drawn_answer_le hb.leased.recycled_eq c
      have hmore := ih (hb.answer c)
      rw [run_cons, List.length_cons]
      omega

/-! ## What the parts say about each other -/

/-- What the records, the queue, the reverse map and the counters of a book say
about each other. -/
structure Agreement (b : AddressBook) : Prop where
  /-- A record has an IPv4 address iff a holder in the queue does that has the
  record's key and is of the record itself. -/
  v4?_iff_holder : ∀ k a, b.v4? k = some a ↔
    ∃ h ∈ b.queue, h.address = a ∧ h.key = k ∧ b.records.get? k = some h.number
  /-- A record has an IPv4 address iff the reverse map says so. -/
  v4?_iff_owner : ∀ k a, b.v4? k = some a ↔ b.owners.get? (.v4 a) = some k
  v4?_injective : ∀ k k' a, b.v4? k = some a → b.v4? k' = some a → k = k'
  /-- A record has an IPv6 address iff the reverse map says so. -/
  v6?_iff_owner : ∀ k x, b.v6? k = some x ↔ b.owners.get? (.v6 x) = some k
  v6?_injective : ∀ k k' x, b.v6? k = some x → b.v6? k' = some x → k = k'
  recycled_eq : b.recycled = []
  /-- The addresses in the queue are those handed out, each of them once. -/
  queue_perm : (b.queue.map fun h => some h.address).Perm
    ((List.range b.handedOut).map b.pool.get?)
  nodup_queue : (b.queue.map (·.address)).Nodup
  length_queue : b.queue.length = b.handedOut
  handedOut_le : b.handedOut ≤ b.pool.size
  nodup_keys : b.records.keys.Nodup
  /-- What is not available is held by a record. -/
  available_add : b.available + (b.records.keys.filter fun k => (b.v4? k).isSome).length =
    b.pool.size
  owner?_iff : ∀ a k, b.owner? a = some k ↔ a ∈ b.addresses k
  nameFor?_iff : ∀ peer a name, b.nameFor? peer a = some name ↔ a ∈ b.addresses ⟨peer, name⟩

namespace Coherent

/-- A record has an IPv4 address iff it is in the queue with it. -/
theorem v4?_iff (hb : Coherent b) {k : AllocationKey} {a : Ipv4} :
    b.v4? k = some a ↔ ∃ h ∈ b.queue, h.address = a ∧ h.key = k := by
  rw [v4?, Option.bind_eq_some_iff]
  constructor
  · rintro ⟨i, hi, ha⟩
    obtain ⟨h, hh, rfl, haddress⟩ := (hb.leased.v4At_iff i a).1 ha
    exact ⟨h, hh, haddress, hb.filed.injective _ _ _ (hb.filed.own_key h hh) hi⟩
  · rintro ⟨h, hh, rfl, rfl⟩
    exact ⟨h.number, hb.filed.own_key h hh, hb.leased.v4At_number hh⟩

theorem v4?_injective (hb : Coherent b) {k k' : AllocationKey} {a : Ipv4}
    (hk : b.v4? k = some a) (hk' : b.v4? k' = some a) : k = k' := by
  obtain ⟨x, hx, hxa, rfl⟩ := hb.v4?_iff.1 hk
  obtain ⟨y, hy, hya, rfl⟩ := hb.v4?_iff.1 hk'
  rw [hb.leased.eq_of_address_eq hx hy (hxa.trans hya.symm)]

/-- Two holders with one key are one holder. -/
theorem eq_of_key_eq (hb : Coherent b) {x y : Holder} (hx : x ∈ b.queue) (hy : y ∈ b.queue)
    (h : x.key = y.key) : x = y := by
  have hnumber : x.number = y.number := by
    have hxn := hb.filed.own_key x hx
    rw [h, hb.filed.own_key y hy] at hxn
    exact (Option.some.inj hxn).symm
  have hxa := hb.leased.v4At_number hx
  rw [hnumber, hb.leased.v4At_number hy] at hxa
  exact hb.leased.eq_of_address_eq hx hy (Option.some.inj hxa).symm

/-- The keys in the queue are those of the records with an IPv4 address. -/
theorem keys_perm (hb : Coherent b) :
    (b.queue.map (·.key)).Perm (b.records.keys.filter fun k => (b.v4? k).isSome) := by
  have hqueue : (b.queue.map (·.key)).Nodup := by
    have hnodup := (List.nodup_append.1 hb.leased.nodup).1
    refine List.pairwise_map.2 ((List.pairwise_map.1 hnodup).imp_of_mem ?_)
    intro x y hx hy hne hkey
    exact hne (congrArg Holder.address (hb.eq_of_key_eq hx hy hkey))
  refine (List.perm_ext_iff_of_nodup hqueue (hb.nodup_keys.filter _)).2 fun k => ?_
  rw [List.mem_filter, ← Table.get?_isSome_iff]
  constructor
  · intro hk
    obtain ⟨h, hh, rfl⟩ := List.mem_map.1 hk
    have hv4 : b.v4? h.key = some h.address := hb.v4?_iff.2 ⟨h, hh, rfl, rfl⟩
    exact ⟨by rw [hb.filed.own_key h hh]; rfl, by rw [hv4]; rfl⟩
  · rintro ⟨-, hv4⟩
    obtain ⟨a, ha⟩ := Option.isSome_iff_exists.1 hv4
    obtain ⟨h, hh, -, rfl⟩ := hb.v4?_iff.1 ha
    exact List.mem_map_of_mem hh

theorem length_queue (hb : Coherent b) : b.queue.length = b.handedOut := by
  have hlength := hb.leased.perm.length_eq
  rw [List.append_nil, List.length_map, List.length_take, HostPool.length_toList,
    Nat.min_eq_left hb.leased.handedOut_le] at hlength
  exact hlength

/-- The reverse map knows the addresses of every record and nothing else. -/
theorem owner?_iff (hb : Coherent b) (hsited : Sited b) {a : IpAddress} {k : AllocationKey} :
    b.owner? a = some k ↔ a ∈ b.addresses k := by
  cases a with
  | v4 a => rw [owner?, hb.leased.owner_iff, mem_addresses_v4, hb.v4?_iff]
  | v6 x => rw [owner?, hsited.owner_iff, mem_addresses_v6]

theorem nameFor?_iff (hb : Coherent b) (hsited : Sited b) {peer : PeerId} {a : IpAddress}
    {name : Fqdn} : b.nameFor? peer a = some name ↔ a ∈ b.addresses ⟨peer, name⟩ := by
  rw [← hb.owner?_iff hsited, nameFor?, Option.map_eq_some_iff]
  constructor
  · rintro ⟨k, hk, rfl⟩
    obtain ⟨hk, hpeer⟩ := Option.filter_eq_some_iff.1 hk
    rw [hk, ← of_decide_eq_true hpeer]
  · intro hk
    exact ⟨⟨peer, name⟩, Option.filter_eq_some_iff.2 ⟨hk, decide_eq_true rfl⟩, rfl⟩

theorem agreement (hb : Coherent b) (hsited : Sited b) : Agreement b where
  v4?_iff_holder := by
    intro k a
    rw [hb.v4?_iff]
    constructor
    · rintro ⟨h, hh, rfl, rfl⟩
      exact ⟨h, hh, rfl, rfl, hb.filed.own_key h hh⟩
    · rintro ⟨h, hh, haddress, hkey, -⟩
      exact ⟨h, hh, haddress, hkey⟩
  v4?_iff_owner := by
    intro k a
    rw [hb.v4?_iff, hb.leased.owner_iff]
  v4?_injective := fun _ _ _ => hb.v4?_injective
  v6?_iff_owner := fun k x => (hsited.owner_iff x k).symm
  v6?_injective := by
    intro k k' x hk hk'
    rw [← hsited.owner_iff] at hk hk'
    exact Option.some.inj (hk.symm.trans hk')
  recycled_eq := hb.leased.recycled_eq
  queue_perm := by
    have hperm := hb.leased.perm.map some
    rwa [List.append_nil, List.map_map, ← HostPool.map_get?_range hb.leased.handedOut_le] at hperm
  nodup_queue := (List.nodup_append.1 hb.leased.nodup).1
  length_queue := hb.length_queue
  handedOut_le := hb.leased.handedOut_le
  nodup_keys := hb.nodup_keys
  available_add := by
    have hcount := hb.keys_perm.length_eq
    have hle := hb.leased.handedOut_le
    rw [List.length_map, hb.length_queue] at hcount
    rw [← hcount, available, hb.leased.recycled_eq, List.length_nil]
    omega
  owner?_iff := fun _ _ => hb.owner?_iff hsited
  nameFor?_iff := fun _ _ _ => hb.nameFor?_iff hsited

end Coherent

/-- **Agreement.**  After any requests to a book with the pool of a plan and
the network of a site, whatever they ask for, whenever they are made and
whether they are refused or not, its parts agree with each other. -/
theorem agreement_run {ns : List (Network 32)} {plan : AddressPlan}
    (hplan : AddressPlan.ofNetworks ns = .ok plan) (site : UInt16) (idle : Nat)
    (calls : List Call) :
    Agreement ((empty plan.pool (SiteNetwork.ofSite site) idle).run calls) ∧
      ((empty plan.pool (SiteNetwork.ofSite site) idle).run calls).drawn ≤ calls.length := by
  have hcoherent := Coherent.empty (AddressPlan.nodup_pool hplan) (SiteNetwork.ofSite site) idle
  have hsited : Sited (empty plan.pool (SiteNetwork.ofSite site) idle) :=
    .empty plan.pool (Nat.le_refl 80) idle
  refine ⟨(hcoherent.run calls).agreement (hsited.run hcoherent calls), ?_⟩
  simpa [empty] using drawn_run_le hcoherent calls

/-- The only address of a pool goes from one name to another, and the parts of
the book agree on it. -/
theorem agreement_run_of_reclaim :
    AddressPlan.ofNetworks [⟨0x0a000000#32, 30, by decide⟩] =
        .ok (.ofRoutes ⟨0x0a000000#32, 30, by decide⟩ []) ∧
      Agreement ((empty (AddressPlan.ofRoutes ⟨0x0a000000#32, 30, by decide⟩ []).pool
        (SiteNetwork.ofSite 1) 0).run [⟨⟨"p"⟩, "a", .v4, 0⟩, ⟨⟨"p"⟩, "b", .both, 5⟩]) ∧
      ((empty (AddressPlan.ofRoutes ⟨0x0a000000#32, 30, by decide⟩ []).pool
        (SiteNetwork.ofSite 1) 0).run [⟨⟨"p"⟩, "a", .v4, 0⟩, ⟨⟨"p"⟩, "b", .both, 5⟩]).v4?
          ⟨⟨"p"⟩, ⟨"b."⟩⟩ = some 0x0a000002#32 :=
  have hplan : AddressPlan.ofNetworks [⟨0x0a000000#32, 30, by decide⟩] =
      .ok (.ofRoutes ⟨0x0a000000#32, 30, by decide⟩ []) := by decide
  ⟨hplan, (agreement_run hplan 1 0 _).1, by decide⟩

end AddressBook

end DnsConnector
