import DnsConnector.Proofs.AddressBook.Refusal

/-!
# DnsConnector.Proofs.AddressBook.Discriminators

What the discriminators of a book are spent on.  A request draws one exactly if
it asks for a key without record, whether the key gets a record then or not
(`drawn_answer`).  So those drawn in a run are one for every record and one for
every refused request for a new key (`drawn_run_eq`).

The second kind is lost.  While nothing can be taken from the holders of a full
pool, a new name may be refused over and over, and each time takes a
discriminator with it (`run_replicate`), until there is none left although there
is but one record (`drawn_ne_size`).
-/

namespace DnsConnector.AddressBook

variable {b : AddressBook} {k : AllocationKey} {i now : Nat} {family : AddressFamily}
  {r : AddressBook × Except AllocationFault (List IpAddress)} {c : Call}

/-! ## One request -/

/-- A request asks for a key without record. -/
def asksNew (b : AddressBook) (c : Call) : Bool :=
  c.key?.any fun k => (b.records.get? k).isNone

/-- A request for a key without record is refused. -/
def refusesNew (b : AddressBook) (c : Call) : Bool := b.asksNew c && !(b.answer c).2.isOk

/-- A new key costs a discriminator in any case, and is filed if the request succeeds. -/
theorem Served.spends_of_new (h : Served b k family now r) (hkey : b.records.get? k = none) :
    r.1.drawn = b.drawn + 1 ∧ r.1.size = b.size + if r.2.isOk then 1 else 0 := by
  cases h with
  | noIpv6 => exact ⟨rfl, rfl⟩
  | refusedNew => exact ⟨rfl, rfl⟩
  | @created v6 b' _ _ hgranted =>
      have hsame := hgranted.sameBesidesV4
      have hrecords : b'.records = b.records := hsame.records_eq
      refine ⟨hsame.drawn_eq, ?_⟩
      change (b'.records.insert k _).size = b.records.size + 1
      rw [hrecords, Table.size_insert, hkey]
      rfl
  | refused hkey' =>
      rw [hkey] at hkey'
      contradiction
  | renewed hkey' =>
      rw [hkey] at hkey'
      contradiction

/-- A key with a record costs nothing. -/
theorem Served.spends_of_filed (h : Served b k family now r) (hkey : b.records.get? k = some i) :
    r.1.drawn = b.drawn ∧ r.1.size = b.size := by
  cases h with
  | noIpv6 hkey' => exact absurd (hkey.symm.trans hkey') nofun
  | refusedNew hkey' => exact absurd (hkey.symm.trans hkey') nofun
  | created hkey' => exact absurd (hkey.symm.trans hkey') nofun
  | refused => exact ⟨rfl, rfl⟩
  | renewed _ hgranted =>
      have hsame := hgranted.sameBesidesV4
      exact ⟨hsame.drawn_eq, congrArg Table.size hsame.records_eq⟩

/-- What a request costs, and how many records there are then. -/
theorem spends_answer (hrecycled : b.recycled = []) (c : Call) :
    (b.answer c).1.drawn = b.drawn + (if b.asksNew c then 1 else 0) ∧
      (b.answer c).1.size + (if b.refusesNew c then 1 else 0) =
        b.size + if b.asksNew c then 1 else 0 := by
  rcases served_answer hrecycled c with ⟨k, hk, hserved⟩ | ⟨fault, hk, hsame⟩
  · cases hkey : b.records.get? k with
    | none =>
        have hnew : b.asksNew c = true := by rw [asksNew, hk, Option.any_some, hkey]; rfl
        obtain ⟨hdrawn, hsize⟩ := hserved.spends_of_new hkey
        rw [refusesNew, hnew, hdrawn, hsize]
        cases (b.answer c).2.isOk <;> exact ⟨rfl, rfl⟩
    | some i =>
        have hold : b.asksNew c = false := by rw [asksNew, hk, Option.any_some, hkey]; rfl
        obtain ⟨hdrawn, hsize⟩ := hserved.spends_of_filed hkey
        rw [refusesNew, hold, hdrawn, hsize]
        exact ⟨rfl, rfl⟩
  · have hnone : b.asksNew c = false := by rw [asksNew, hk]; rfl
    rw [refusesNew, hnone, hsame]
    exact ⟨rfl, rfl⟩

/-- A request draws a discriminator exactly if it asks for a key without record. -/
theorem drawn_answer (hrecycled : b.recycled = []) (c : Call) :
    (b.answer c).1.drawn = b.drawn + if b.asksNew c then 1 else 0 :=
  (spends_answer hrecycled c).1

/-! ## Over a run -/

/-- How many requests of a run ask for a key without record and are refused. -/
def refusedNew (b : AddressBook) : List Call → Nat
  | [] => 0
  | c :: calls => (if b.refusesNew c then 1 else 0) + (b.answer c).1.refusedNew calls

theorem drawn_run_add (hb : Coherent b) (calls : List Call) :
    (b.run calls).drawn + b.size = b.drawn + (b.run calls).size + b.refusedNew calls := by
  induction calls generalizing b with
  | nil => rfl
  | cons c calls ih =>
      obtain ⟨hdrawn, hsize⟩ := spends_answer hb.leased.recycled_eq c
      have hrest := ih (hb.answer c)
      rw [run_cons, refusedNew]
      omega

/-- What a book has spent its discriminators on, if that many requests for new
keys were refused. -/
structure Spent (b : AddressBook) (refused : Nat) : Prop where
  drawn_eq : b.drawn = b.size + refused
  drawn_answer_eq : ∀ c, (b.answer c).1.drawn = b.drawn + if b.asksNew c then 1 else 0
  /-- A new key is refused IPv6 addresses exactly if all discriminators are spent. -/
  fails_iff : ∀ c k, c.key? = some k → b.records.get? k = none → c.family = .v6 →
    ((∃ e, (b.answer c).2 = .error e) ↔ SiteNetwork.maxDiscriminator ≤ b.size + refused)

theorem Coherent.spent (hb : Coherent b) {refused : Nat} (hdrawn : b.drawn = b.size + refused) :
    Spent b refused where
  drawn_eq := hdrawn
  drawn_answer_eq := drawn_answer hb.leased.recycled_eq
  fails_iff := by
    intro c k hk hkey hfamily
    rw [(served_of_key?_eq hb.leased.recycled_eq hk).fails_iff hb, hfamily, LacksIpv6, ← hdrawn]
    simp [AddressFamily.needsV4, hkey]

/-- **Discriminators.**  After any requests to a book with the pool of a plan
there are as many discriminators drawn as there are records and refused
requests for new keys together, and a new key that needs no IPv4 address is
refused exactly if these are as many as there are discriminators.  A counter of
64 bits does not come round in fewer than 2^64 requests. -/
theorem drawn_run_eq {ns : List (Network 32)} {plan : AddressPlan}
    (hplan : AddressPlan.ofNetworks ns = .ok plan) (site : Network 128) (idle : Nat)
    (calls : List Call) :
    Spent ((empty plan.pool site idle).run calls)
        ((empty plan.pool site idle).refusedNew calls) ∧
      ((empty plan.pool site idle).run calls).drawn ≤ calls.length := by
  have hempty := Coherent.empty (AddressPlan.nodup_pool hplan) site idle
  refine ⟨(hempty.run calls).spent ?_, by simpa [empty] using drawn_run_le hempty calls⟩
  have hadd := drawn_run_add hempty calls
  have hdrawn : (empty plan.pool site idle).drawn = 0 := rfl
  have hsize : (empty plan.pool site idle).size = 0 := rfl
  omega

/-- The book of a plan, once one name has been given addresses. -/
def oneHeld (plan : AddressPlan) : AddressBook :=
  (empty plan.pool (SiteNetwork.ofSite 1) 1000).run [⟨⟨"p"⟩, "a", .both, 0⟩]

/-- If there is one address only, two refused requests for a second name cost two
discriminators, so that the next record has the fourth one. -/
theorem drawn_run_eq_of_refused :
    ∃ plan, AddressPlan.ofNetworks [⟨0x0a000000#32, 30, by decide⟩] = .ok plan ∧
      Spent ((oneHeld plan).run [⟨⟨"p"⟩, "b", .both, 1⟩, ⟨⟨"p"⟩, "b", .v4, 2⟩]) 2 ∧
      ((oneHeld plan).run [⟨⟨"p"⟩, "b", .both, 1⟩, ⟨⟨"p"⟩, "b", .v4, 2⟩,
        ⟨⟨"p"⟩, "b", .v6, 3⟩]).v6? ⟨⟨"p"⟩, ⟨"b."⟩⟩ =
          SiteNetwork.address? (SiteNetwork.ofSite 1) 4 := by
  have hplan : AddressPlan.ofNetworks [⟨0x0a000000#32, 30, by decide⟩] =
      .ok (.ofRoutes ⟨0x0a000000#32, 30, by decide⟩ []) := by decide
  have hspent := (drawn_run_eq hplan (SiteNetwork.ofSite 1) 1000
    ([⟨⟨"p"⟩, "a", .both, 0⟩] ++ [⟨⟨"p"⟩, "b", .both, 1⟩, ⟨⟨"p"⟩, "b", .v4, 2⟩])).1
  have hrefused : (empty (AddressPlan.ofRoutes ⟨0x0a000000#32, 30, by decide⟩ []).pool
      (SiteNetwork.ofSite 1) 1000).refusedNew
        ([⟨⟨"p"⟩, "a", .both, 0⟩] ++ [⟨⟨"p"⟩, "b", .both, 1⟩, ⟨⟨"p"⟩, "b", .v4, 2⟩]) = 2 := by
    decide
  rw [hrefused, run_append] at hspent
  exact ⟨_, hplan, hspent, by decide⟩

/-! ## A name that is refused again and again -/

/-- If a new name is refused and the search leaves the queue as it was, the
request does nothing but draw a discriminator, even if there is none left. -/
theorem answer_eq_draw (hb : Coherent b) (hk : c.key? = some k)
    (hkey : b.records.get? k = none) (hneed : c.family.needsV4 = true) (hdry : b.available = 0)
    (hfind : b.findIdle c.time = (b.queue, none)) : (b.answer c).1 = b.draw := by
  have hlacks : LacksIpv4 b k c.time := by
    refine ⟨by rw [v4?, hkey]; rfl, hdry, reclaim_eq_none_iff.2 ?_⟩
    rw [hfind]
  have hserved := served_of_key?_eq hb.leased.recycled_eq hk
  generalize b.answer c = r at hserved ⊢
  cases hserved with
  | noIpv6 => rfl
  | @refusedNew v6 queue _ _ hrefused =>
      obtain rfl : queue = b.queue :=
        congrArg Prod.fst (hrefused.find.symm.trans ((findIdle_prepared hb v6).trans hfind))
      rfl
  | @created v6 _ _ _ hgranted =>
      exact absurd ((starved_prepared_iff hb hkey v6).2 ⟨hneed, hlacks⟩) hgranted.not_starved
  | refused hkey' =>
      rw [hkey] at hkey'
      contradiction
  | renewed hkey' =>
      rw [hkey] at hkey'
      contradiction

/-- Asking again does the same again. -/
theorem run_replicate (hb : Coherent b) (hk : c.key? = some k) (hkey : b.records.get? k = none)
    (hneed : c.family.needsV4 = true) (hdry : b.available = 0)
    (hfind : b.findIdle c.time = (b.queue, none)) (n : Nat) :
    b.run (.replicate n c) = { b with drawn := b.drawn + n } := by
  induction n generalizing b with
  | zero => rfl
  | succ n ih =>
      have hanswer := answer_eq_draw hb hk hkey hneed hdry hfind
      have hdraw : Coherent b.draw := hanswer ▸ hb.answer c
      rw [List.replicate_succ, run_cons, hanswer, ih hdraw hkey hdry hfind]
      simp [draw, Nat.add_assoc, Nat.add_comm 1]

/-- The one address of a pool is held, and its holder is not idle yet. -/
theorem exists_oneHeld : ∃ plan,
    AddressPlan.ofNetworks [⟨0x0a000000#32, 30, by decide⟩] = .ok plan ∧
    (oneHeld plan).drawn = 1 ∧ (oneHeld plan).size = 1 ∧ (oneHeld plan).available = 0 ∧
    (oneHeld plan).findIdle 1 = ((oneHeld plan).queue, none) ∧
    (oneHeld plan).records.get? ⟨⟨"p"⟩, ⟨"b."⟩⟩ = none ∧
    (oneHeld plan).records.get? ⟨⟨"p"⟩, ⟨"c."⟩⟩ = none :=
  ⟨.ofRoutes ⟨0x0a000000#32, 30, by decide⟩ [], by decide, by decide, by decide, by decide,
    by decide, by decide, by decide⟩

/-- It is not so that every discriminator drawn is that of a record, nor that
they are spent only once there are as many records: a refused request for a new
name costs one too, so that a single record and enough of them leave none. -/
theorem drawn_ne_size :
    (¬∀ (ns : List (Network 32)) (plan : AddressPlan) (site : Network 128) (idle : Nat)
        (calls : List Call), AddressPlan.ofNetworks ns = .ok plan →
        ((empty plan.pool site idle).run calls).drawn =
          ((empty plan.pool site idle).run calls).size) ∧
      ¬∀ (ns : List (Network 32)) (plan : AddressPlan) (site : Network 128) (idle : Nat)
        (calls : List Call) (c : Call) (k : AllocationKey),
        AddressPlan.ofNetworks ns = .ok plan → c.key? = some k →
        ((empty plan.pool site idle).run calls).records.get? k = none → c.family = .v6 →
        (∃ e, (((empty plan.pool site idle).run calls).answer c).2 = .error e) →
        SiteNetwork.maxDiscriminator ≤ ((empty plan.pool site idle).run calls).size := by
  obtain ⟨plan, hplan, hdrawn, hsize, hdry, hfind, hkey, hkey'⟩ := exists_oneHeld
  have hempty := Coherent.empty (AddressPlan.nodup_pool hplan) (SiteNetwork.ofSite 1) 1000
  have hrun : ∀ n, (empty plan.pool (SiteNetwork.ofSite 1) 1000).run
      ([⟨⟨"p"⟩, "a", .both, 0⟩] ++ .replicate n ⟨⟨"p"⟩, "b", .both, 1⟩) =
        { oneHeld plan with drawn := (oneHeld plan).drawn + n } := by
    intro n
    rw [run_append, ← oneHeld]
    exact run_replicate (c := ⟨⟨"p"⟩, "b", .both, 1⟩) (k := ⟨⟨"p"⟩, ⟨"b."⟩⟩) (hempty.run _)
      (by decide) hkey rfl hdry hfind n
  refine ⟨fun h => ?_, fun h => ?_⟩
  · have hone := h _ plan (SiteNetwork.ofSite 1) 1000
      ([⟨⟨"p"⟩, "a", .both, 0⟩] ++ .replicate 1 ⟨⟨"p"⟩, "b", .both, 1⟩) hplan
    rw [hrun 1] at hone
    change (oneHeld plan).drawn + 1 = (oneHeld plan).size at hone
    omega
  · have hall := h _ plan (SiteNetwork.ofSite 1) 1000
      ([⟨⟨"p"⟩, "a", .both, 0⟩] ++
        .replicate SiteNetwork.maxDiscriminator ⟨⟨"p"⟩, "b", .both, 1⟩)
      ⟨⟨"p"⟩, "c", .v6, 1⟩ ⟨⟨"p"⟩, ⟨"c."⟩⟩ hplan (by decide)
    have hcoherent : Coherent { oneHeld plan with
        drawn := (oneHeld plan).drawn + SiteNetwork.maxDiscriminator } :=
      hrun SiteNetwork.maxDiscriminator ▸ hempty.run _
    have htotal : (oneHeld plan).drawn + SiteNetwork.maxDiscriminator =
        (oneHeld plan).size + SiteNetwork.maxDiscriminator := by
      rw [hdrawn, hsize]
    have hspent := hcoherent.spent htotal
    rw [hrun] at hall
    have hfails := (hspent.fails_iff ⟨⟨"p"⟩, "c", .v6, 1⟩ ⟨⟨"p"⟩, ⟨"c."⟩⟩ (by decide) hkey' rfl).2
      (Nat.le_add_left _ _)
    have hlarge : SiteNetwork.maxDiscriminator ≤ (oneHeld plan).size := hall hkey' rfl hfails
    rw [hsize] at hlarge
    exact absurd hlarge (by decide)

end DnsConnector.AddressBook
