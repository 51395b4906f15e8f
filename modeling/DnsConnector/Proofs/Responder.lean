import DnsConnector.Proofs.AddressBook.Coherence
import DnsConnector.Proofs.Decision
import DnsConnector.Proofs.Fqdn
import DnsConnector.Proofs.Wire.Lookup
import DnsConnector.Proofs.Wire.Query

/-!
# DnsConnector.Proofs.Responder

What a connector sends over a run of datagrams from anybody.  Handling a
datagram makes one request to the book at most, so that the book of a run is
one of a run of requests (`exists_run_eq`), and whatever a response says is
traced back to the look-up or to the book right after it was made up
(`justified_of_response`).
-/

namespace DnsConnector

open Wire

/-- A datagram that is handled: who sent it, when the book is asked and what
the collaborators say. -/
structure Arrival (ε : Type) where
  policy : Policy ε
  datagram : Octets
  source : SocketAddress
  time : Nat

variable {ε : Type}

namespace AddressBook

/-- What handling a datagram makes of the book, and the response. -/
def handle (b : AddressBook) (x : Arrival ε) : AddressBook × Option Octets :=
  x.policy.respond x.datagram x.source b x.time

/-- The book after datagrams, one after the other. -/
def handleAll (b : AddressBook) (xs : List (Arrival ε)) : AddressBook :=
  xs.foldl (fun b x => (b.handle x).1) b

/-! ## Datagrams are requests -/

/-- Carrying a verdict out makes one request at most. -/
theorem exists_run_of_conclude (v : Verdict) (b : AddressBook) (now : Nat) :
    ∃ calls, (v.conclude b now).1 = b.run calls := by
  cases v with
  | settled outcome => exact ⟨[], rfl⟩
  | allocate peer name family =>
      refine ⟨[⟨peer, name.text, family, now⟩], ?_⟩
      rw [Policy.fst_conclude_allocate, run_cons, run_nil, answer]

theorem exists_run_of_handle (b : AddressBook) (x : Arrival ε) :
    ∃ calls, (b.handle x).1 = b.run calls := by
  rw [handle, Policy.respond]
  split
  · exact ⟨[], rfl⟩
  next draft _ =>
    obtain ⟨calls, hcalls⟩ := exists_run_of_conclude draft.verdict b x.time
    refine ⟨calls, ?_⟩
    rw [← hcalls, Draft.finish]
    split
    next h => rw [h]
    next h => rw [h]

/-- The book after datagrams is the book after some requests. -/
theorem exists_run_eq (b : AddressBook) (xs : List (Arrival ε)) :
    ∃ calls, b.handleAll xs = b.run calls := by
  induction xs generalizing b with
  | nil => exact ⟨[], rfl⟩
  | cons x xs ih =>
      obtain ⟨calls, hcalls⟩ := exists_run_of_handle b x
      obtain ⟨more, hmore⟩ := ih (b.handle x).1
      refine ⟨calls ++ more, ?_⟩
      change handleAll (b.handle x).1 xs = _
      rw [hmore, hcalls, run_append]

end AddressBook

/-! ## Where a response comes from -/

/-- A draft stands for an accepted query that asks something. -/
theorem draft_eq_some {p : Policy ε} {datagram : Octets} {source : SocketAddress} {d : Draft}
    (h : (p.draft datagram source).result = some d) :
    Query.parse datagram = .ok d.query ∧ d.query.asked = some d.asked ∧
      d.verdict = (p.decide
        ⟨d.asked.domain, RecordType.ofCode d.asked.question.type, source⟩).result := by
  rw [Policy.draft] at h
  split at h
  · contradiction
  next query hparse =>
    split at h
    · contradiction
    next asked hasked =>
      obtain rfl := Option.some.inj h
      exact ⟨hparse, hasked, rfl⟩

/-- A response is decoded to records of the question's name, one for each
address that the request for it is answered with. -/
theorem exists_answered_of_handle {b : AddressBook} {x : Arrival ε} {response : Octets}
    (h : (b.handle x).2 = some response) :
    ∃ query asked m addresses, Query.parse x.datagram = .ok query ∧ query.asked = some asked ∧
      Message.decode response = some m ∧
      m.answers = (addresses.take (addresses.length % 65536)).map
        (Response.answerRecord asked.question) ∧
      x.policy.Answered ⟨asked.domain, RecordType.ofCode asked.question.type, x.source⟩ b x.time
        (b.handle x).1 addresses := by
  rw [AddressBook.handle, Policy.respond] at h ⊢
  cases hdraft : (x.policy.draft x.datagram x.source).result with
  | none =>
      rw [hdraft] at h
      contradiction
  | some d =>
      obtain ⟨hparse, hasked, hverdict⟩ := draft_eq_some hdraft
      simp only [hdraft, Draft.finish] at h ⊢
      cases hconclude : d.verdict.conclude b x.time with
      | mk book result =>
          rw [hconclude] at h
          cases result with
          | error f => contradiction
          | ok outcome =>
              obtain rfl := Option.some.inj h
              rw [hverdict] at hconclude
              exact ⟨d.query, d.asked, _, (Draft.contents outcome).2, hparse, hasked,
                Response.decode_encode (Query.valid_of_parse hparse hasked) _ _ _, rfl,
                Policy.answered_of_conclude hconclude⟩

/-! ## What may be answered -/

/-- An address that a plan for some networks and a site have to give away. -/
def Planned (ns : List (Network 32)) (plan : AddressPlan) (site : UInt16) : IpAddress → Prop
  | .v4 a => a ∈ plan.pool.toList ∧ (∃ n ∈ plan.routes, n.contains a = true) ∧
      a ≠ plan.dnsAddress ∧ ∀ n ∈ ns, a ≠ n.first ∧ a ≠ n.last
  | .v6 a => ∃ d, 0 < d ∧ d ≤ SiteNetwork.maxDiscriminator ∧
      SiteNetwork.address? (SiteNetwork.ofSite site) d = some a

/-- Why an address may stand among the answers to a question. -/
inductive Justified (ns : List (Network 32)) (plan : AddressPlan) (site : UInt16)
    (x : Arrival ε) (asked : AskedQuestion) (book : AddressBook) (answers : List Record)
    (a : IpAddress) : Prop
  /-- It is a real address of the name, and some real address is ignored. -/
  | real {name : Fqdn} {real : List IpAddress} (hname : Fqdn.ofText asked.domain = .ok name)
      (hreal : (x.policy.lookup name.text).result = .ok real) (hmem : a ∈ real)
      (hignored : x.policy.ignored.ignoresAny real = true) :
      Justified ns plan site x asked book answers a
  /-- No real address is ignored; it is the only answer, it belongs to the name
  for the peer that asks and for nobody else, and it is to be given away. -/
  | synthetic {name : Fqdn} {real : List IpAddress} {peer : PeerId}
      (hname : Fqdn.ofText asked.domain = .ok name)
      (hreal : (x.policy.lookup name.text).result = .ok real)
      (hignored : x.policy.ignored.ignoresAny real = false)
      (hpeer : (x.policy.whoIs x.source).result = .ok peer) (hsingle : answers.length = 1)
      (howner : ∀ peer', book.nameFor? peer' a = if peer' = peer then some name else none)
      (hplanned : Planned ns plan site a) :
      Justified ns plan site x asked book answers a

namespace AddressBook

variable {ns : List (Network 32)} {plan : AddressPlan} {site : UInt16}

/-- The addresses of a record are to be given away, and belong to its key. -/
theorem planned_of_mem_addresses {b : AddressBook} (hb : Coherent b) (hsited : Sited b)
    (hplan : AddressPlan.ofNetworks ns = .ok plan) (hpool : b.pool = plan.pool)
    (hsite : b.site = SiteNetwork.ofSite site) {k : AllocationKey} {a : IpAddress}
    (ha : a ∈ b.addresses k) : Planned ns plan site a := by
  cases a with
  | v4 a =>
      obtain ⟨i, -, hi⟩ := Option.bind_eq_some_iff.1 (mem_addresses_v4.1 ha)
      have hmem := hb.leased.mem_pool_of_v4At hi
      rw [hpool] at hmem
      exact ⟨hmem, AddressPlan.usable_of_mem_pool hplan hmem⟩
  | v6 a =>
      obtain ⟨d, hpos, -, hd⟩ := hsited.drawn_of_v6? k a (mem_addresses_v6.1 ha)
      rw [hsite] at hd
      have hle := (SiteNetwork.address?_isSome_iff _ d).1 (by rw [hd]; rfl)
      exact ⟨d, hpos, hle, hd⟩

/-- The address of a record is behind a name for the record's peer only. -/
theorem nameFor?_eq_of_mem_addresses {b : AddressBook} (hb : Coherent b) (hsited : Sited b)
    {k : AllocationKey} {a : IpAddress} (ha : a ∈ b.addresses k) (peer : PeerId) :
    b.nameFor? peer a = if peer = k.peer then some k.name else none := by
  rw [nameFor?, (hb.owner?_iff hsited).2 ha, Option.filter_some]
  by_cases hpeer : peer = k.peer
  · rw [if_pos (decide_eq_true hpeer.symm), if_pos hpeer, Option.map_some]
  · rw [if_neg (by simpa using fun e => hpeer e.symm), if_neg hpeer, Option.map_none]

/-- A successful request for a name in normal form returns addresses of the
record of the peer and the name. -/
theorem mem_addresses_of_request {b b' : AddressBook} (hb : Coherent b) {peer : PeerId}
    {text : String} {name : Fqdn} (hname : Fqdn.ofText text = .ok name) {family : AddressFamily}
    {now : Nat} {as : List IpAddress} (h : b.request peer name.text family now = (b', .ok as))
    {a : IpAddress} (ha : a ∈ as) : a ∈ b'.addresses ⟨peer, name⟩ := by
  have hkey := AllocationKey.ofText_eq (Fqdn.ofText_text hname) peer
  have hserved := served_request hb.leased.recycled_eq hkey family now
  rw [h] at hserved
  rwa [hserved.eq_addresses rfl] at ha

/-- What a request is answered with may be answered. -/
theorem justified_of_answered {b b' : AddressBook} (hb : Coherent b) (hsited : Sited b)
    (hplan : AddressPlan.ofNetworks ns = .ok plan) (hpool : b.pool = plan.pool)
    (hsite : b.site = SiteNetwork.ofSite site) {x : Arrival ε} {asked : AskedQuestion}
    {addresses : List IpAddress}
    (h : x.policy.Answered ⟨asked.domain, RecordType.ofCode asked.question.type, x.source⟩ b
      x.time b' addresses)
    {answers : List Record} (hlength : addresses.length = 1 → answers.length = 1) {a : IpAddress}
    (ha : a ∈ addresses) :
    ∃ family, Policy.familyOf (RecordType.ofCode asked.question.type) = some family ∧
      family.includes a = true ∧ Justified ns plan site x asked b' answers a := by
  cases h with
  | nothing => contradiction
  | @real peer family name real hpeer hfamily hname hreal hignored =>
      obtain ⟨hmem, hincludes⟩ := List.mem_filter.1 ha
      exact ⟨family, hfamily, hincludes, .real hname hreal hmem hignored⟩
  | @synthetic peer family name real _ addresses a' hpeer hfamily hname hreal hignored hrequest
      hfind =>
      obtain rfl := List.mem_singleton.1 ha
      have hanswer : b.answer ⟨peer, name.text, family, x.time⟩ = (b', .ok addresses) := hrequest
      have hsetting := sameSetting_answer hb.leased.recycled_eq
        ⟨peer, name.text, family, x.time⟩
      have hb' := hb.answer ⟨peer, name.text, family, x.time⟩
      have hsited' := hsited.answer hb ⟨peer, name.text, family, x.time⟩
      rw [hanswer] at hsetting hb' hsited'
      have hmem := mem_addresses_of_request hb hname hrequest (List.mem_of_find?_eq_some hfind)
      have hplanned := planned_of_mem_addresses hb' hsited' hplan
        (hsetting.pool_eq.trans hpool) (hsetting.site_eq.trans hsite) hmem
      exact ⟨family, hfamily, List.find?_some hfind, .synthetic hname hreal hignored hpeer
        (hlength rfl) (nameFor?_eq_of_mem_addresses hb' hsited' hmem) hplanned⟩

/-- **Nothing wrong is sent.**  Whatever datagrams were handled before, by
whatever collaborators and at whatever times, every record in the answer
section of a response holds an address of the family that was asked for and
that may be answered. -/
theorem justified_of_response (hplan : AddressPlan.ofNetworks ns = .ok plan) (site : UInt16)
    (idle : Nat) (xs : List (Arrival ε)) (x : Arrival ε) {response : Octets}
    (h : (((empty plan.pool (SiteNetwork.ofSite site) idle).handleAll xs).handle x).2 =
      some response) :
    ∃ query asked m, Query.parse x.datagram = .ok query ∧ query.asked = some asked ∧
      Query.Asks x.datagram asked ∧ Message.decode response = some m ∧
      (m.addresses = [] → m.answers = []) ∧
      ∀ record ∈ m.answers, ∃ a family, record.data = .address a ∧
        Policy.familyOf (RecordType.ofCode asked.question.type) = some family ∧
        family.includes a = true ∧
        Justified ns plan site x asked
          (((empty plan.pool (SiteNetwork.ofSite site) idle).handleAll xs).handle x).1
          m.answers a := by
  have hempty := Coherent.empty (AddressPlan.nodup_pool hplan) (SiteNetwork.ofSite site) idle
  have hsited : Sited (empty plan.pool (SiteNetwork.ofSite site) idle) :=
    .empty plan.pool (Nat.le_refl 80) idle
  obtain ⟨calls, hcalls⟩ := exists_run_eq (empty plan.pool (SiteNetwork.ofSite site) idle) xs
  rw [hcalls] at h ⊢
  have hsetting := sameSetting_run hempty calls
  obtain ⟨query, asked, m, addresses, hparse, hasked, hdecode, hanswers, hanswered⟩ :=
    exists_answered_of_handle h
  have hlength : addresses.length = 1 → m.answers.length = 1 := by
    intro h1
    rw [hanswers, List.length_map, List.length_take, h1]
    rfl
  have hrecord : ∀ record ∈ m.answers, ∃ a ∈ addresses, record.data = .address a := by
    intro record hmem
    rw [hanswers] at hmem
    obtain ⟨a, ha, rfl⟩ := List.mem_map.1 hmem
    exact ⟨a, List.mem_of_mem_take ha, rfl⟩
  refine ⟨query, asked, m, hparse, hasked, Query.asks_of_parse hparse hasked, hdecode, ?_, ?_⟩
  · intro hnone
    refine List.eq_nil_iff_forall_not_mem.2 fun record hmem => ?_
    obtain ⟨a, -, hdata⟩ := hrecord record hmem
    have ha : a ∈ m.addresses := List.mem_filterMap.2 ⟨record, hmem, by rw [hdata]⟩
    rw [hnone] at ha
    contradiction
  · intro record hmem
    obtain ⟨a, ha, hdata⟩ := hrecord record hmem
    obtain ⟨family, hfamily, hincludes, hjustified⟩ := justified_of_answered (hempty.run calls)
      (hsited.run hempty calls) hplan hsetting.pool_eq hsetting.site_eq hanswered hlength ha
    exact ⟨a, family, hdata, hfamily, hincludes, hjustified⟩

/-- A peer that asks twice for the IPv4 address of a name is answered. -/
theorem justified_of_response_to_query :
    ∃ (x : Arrival Unit) (response : Octets),
      AddressPlan.ofNetworks [⟨0x0a000000#32, 30, by decide⟩] =
        .ok (.ofRoutes ⟨0x0a000000#32, 30, by decide⟩ []) ∧
      (((empty (AddressPlan.ofRoutes ⟨0x0a000000#32, 30, by decide⟩ []).pool
        (SiteNetwork.ofSite 1) 0).handleAll [x]).handle x).2 = some response ∧
      ∃ query asked m, Query.parse x.datagram = .ok query ∧ query.asked = some asked ∧
        Query.Asks x.datagram asked ∧ Message.decode response = some m ∧
        (m.addresses = [] → m.answers = []) ∧
        ∀ record ∈ m.answers, ∃ a family, record.data = .address a ∧
          Policy.familyOf (RecordType.ofCode asked.question.type) = some family ∧
          family.includes a = true ∧
          Justified [⟨0x0a000000#32, 30, by decide⟩]
            (.ofRoutes ⟨0x0a000000#32, 30, by decide⟩ []) 1 x asked
            (((empty (AddressPlan.ofRoutes ⟨0x0a000000#32, 30, by decide⟩ []).pool
              (SiteNetwork.ofSite 1) 0).handleAll [x]).handle x).1 m.answers a := by
  have hplan : AddressPlan.ofNetworks [⟨0x0a000000#32, 30, by decide⟩] =
      .ok (.ofRoutes ⟨0x0a000000#32, 30, by decide⟩ []) := by decide
  let x : Arrival Unit :=
    { policy :=
        { whoIs := fun _ => .ready (.ok ⟨"p"⟩), whoIsTimeout := 1000
          lookup := fun _ => .ready (.ok [.v4 0x08080808#32]), lookupTimeout := 2000
          ignored := ∅ }
      datagram := Lookup.encode 0x1234 ⟨[[0x61]], 1, 1⟩
      source := ⟨.v4 0x7f000001#32, 53, 0⟩, time := 0 }
  have hparse : Query.parse x.datagram = .ok ⟨0x1234, true, some ⟨⟨[[0x61]], 1, 1⟩, "a."⟩⟩ :=
    Lookup.parse_encode ⟨by decide, by decide⟩ rfl 0x1234
  have hresponse : (((empty (AddressPlan.ofRoutes ⟨0x0a000000#32, 30, by decide⟩ []).pool
      (SiteNetwork.ofSite 1) 0).handleAll [x]).handle x).2 =
        some [0x12, 0x34, 0x85, 0, 0, 1, 0, 1, 0, 0, 0, 0, 1, 0x61, 0, 0, 1, 0, 1,
          0xc0, 12, 0, 1, 0, 1, 0, 0, 0, 5, 0, 4, 10, 0, 0, 2] := by
    simp only [handleAll, List.foldl_cons, List.foldl_nil, handle, Policy.respond, Policy.draft,
      hparse]
    decide
  exact ⟨x, _, hplan, hresponse, justified_of_response hplan 1 0 [x] x hresponse⟩

end AddressBook

end DnsConnector
