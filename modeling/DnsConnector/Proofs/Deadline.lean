import DnsConnector.Proofs.DecisionTable
import DnsConnector.Proofs.Failover
import DnsConnector.Proofs.Forwarding
import DnsConnector.Proofs.Services

/-!
# DnsConnector.Proofs.Deadline

How long the servers keep a look-up waiting, and what its deadline cuts off.
The search for one type asks the servers up to the first one that settles it, so
that the times of these servers add up (`elapsed_ask_of_firstToSettle`).

A connector allows a whole look-up just the time that it allows one server.  A
server that is silent uses up all of it, so that nothing can be heard from those
behind it (`Services.cutOff_of_firstToSettle`).
-/

namespace DnsConnector

open Wire Forwarder

namespace Delivery

/-- How long a server is waited for. -/
def waiting (timeout : Nat) : Delivery → Nat
  | .reply delay _ => min delay timeout
  | .failure delay _ => min delay timeout
  | .silence => timeout

theorem elapsed_received {ε : Type} (timeout : Nat) (d : Delivery) :
    (d.received timeout : Timed ε _).elapsed = d.waiting timeout := by
  cases d with
  | reply delay octets => exact Timed.elapsed_within timeout _
  | failure delay reason => exact Timed.elapsed_within timeout _
  | silence => rfl

end Delivery

namespace Forwarder

variable {f : Forwarder} {host : String} {type : RecordType} {server n : Nat} {ask : NameServer}

/-! ## One type -/

/-- What becomes of the query for a type if a server is asked. -/
def delivery? (f : Forwarder) (host : String) (type : RecordType) (server : Nat) :
    Option Delivery :=
  f.servers[server]?.bind fun ask => (f.queryTo host type server).map fun q => ask q.octets

/-- How long a server is waited for if it is asked for a type. -/
def timeOf (f : Forwarder) (host : String) (type : RecordType) (server : Nat) : Nat :=
  ((f.delivery? host type server).map (·.waiting f.timeout)).getD 0

/-- How long the servers before a server are waited for, one after the other. -/
def timeBefore (f : Forwarder) (host : String) (type : RecordType) : Nat → Nat
  | 0 => 0
  | server + 1 => f.timeBefore host type server + f.timeOf host type server

theorem delivery?_eq_some_iff {d : Delivery} : f.delivery? host type server = some d ↔
    ∃ ask query, f.servers[server]? = some ask ∧
      Lookup.ofHost (f.identifier server type) host type = .ok query ∧ ask query = d := by
  rw [delivery?, queryTo]
  cases f.servers[server]? with
  | none => simp
  | some ask =>
      cases Lookup.ofHost (f.identifier server type) host type with
      | error e => simp [Except.toOption]
      | ok query => simp [Except.toOption]

/-- A server replies to the query for a type, before the time it is allowed is
over, with addresses of the type or that there is no such name. -/
def Helps (f : Forwarder) (host : String) (type : RecordType) (server : Nat) : Prop :=
  ∃ delay octets reply, f.delivery? host type server = some (.reply delay octets) ∧
    delay < f.timeout ∧ Reply.parse octets = .ok reply ∧ reply.id = f.identifier server type ∧
    (reply.code = ResponseCode.noError ∧ (∃ a ∈ reply.addresses, isOfType type a = true) ∨
      reply.code = ResponseCode.nxDomain)

/-- A server is silent or fails if it is asked for a type. -/
def Fails (f : Forwarder) (host : String) (type : RecordType) (server : Nat) : Prop :=
  f.delivery? host type server = some .silence ∨
    ∃ delay reason, f.delivery? host type server = some (.failure delay reason)

/-- A server settles a type, and none before it does. -/
structure FirstToSettle (f : Forwarder) (host : String) (type : RecordType) (n : Nat) : Prop where
  settles : ∃ ask, f.servers[n]? = some ask ∧ f.Settles n ask host type
  before : ∀ i < n, ∀ ask, f.servers[i]? = some ask → ¬f.Settles i ask host type

theorem firstToSettle_of_helps (hn : f.Helps host type n) (hfails : ∀ i < n, f.Fails host type i) :
    f.FirstToSettle host type n where
  settles := by
    obtain ⟨delay, octets, reply, hdelivery, hdelay, hparse, hid, hcode⟩ := hn
    obtain ⟨ask, query, hask, hquery, hreply⟩ := delivery?_eq_some_iff.1 hdelivery
    exact ⟨ask, hask, query, delay, octets, hquery, hreply, Nat.le_of_lt hdelay, reply, hparse, hid,
      hcode.imp_left And.left⟩
  before i hi ask hask := by
    rintro ⟨query, delay, octets, hquery, hreply, -⟩
    have hdelivery := delivery?_eq_some_iff.2 ⟨ask, query, hask, hquery, hreply⟩
    rcases hfails i hi with h | ⟨_, _, h⟩
    · cases h.symm.trans hdelivery
    · cases h.symm.trans hdelivery

theorem elapsed_exchange (hask : f.servers[server]? = some ask) :
    (f.exchange server ask host type).elapsed = f.timeOf host type server := by
  rw [exchange, timeOf, delivery?, hask, queryTo]
  cases Lookup.ofHost (f.identifier server type) host type with
  | error e => rfl
  | ok query =>
      have hreceived : ((ask query).received f.timeout : Timed SentQuery _).elapsed =
          (ask query).waiting f.timeout := Delivery.elapsed_received f.timeout (ask query)
      simp [Timed.bind, Timed.map, Timed.emit, hreceived, Except.toOption]

/-- Asking the servers from one on takes the time of the servers up to the first
one that settles the type. -/
theorem elapsed_askFrom (hfail : ∀ ask ∈ f.servers, ask.FailsTransiently)
    (hn : f.FirstToSettle host type n) {more server : Nat} (hserver : server + more = n)
    (last : Except Failure (List IpAddress)) :
    f.timeBefore host type server +
        (f.askFrom host type server (f.servers.drop server) last).elapsed =
      f.timeBefore host type (n + 1) := by
  obtain ⟨final, hfinal, hsettles⟩ := hn.settles
  have hlength : n < f.servers.length := (List.getElem?_eq_some_iff.1 hfinal).1
  -- on the number of servers that are asked in vain
  induction more generalizing server last with
  | zero =>
      obtain rfl : server = n := hserver
      obtain rfl : f.servers[server] = final := (List.getElem?_eq_some_iff.1 hfinal).2
      have hend := (isFinal_exchange_iff (hfail _ (List.getElem_mem hlength))).2 hsettles
      rw [List.drop_eq_getElem_cons hlength, askFrom, Timed.elapsed_bind, if_pos hend,
        elapsed_exchange hfinal]
      rfl
  | succ more ih =>
      have hlt : server < f.servers.length := by omega
      have hask : f.servers[server]? = some f.servers[server] := List.getElem?_eq_getElem hlt
      have hvain : ¬isFinal (f.exchange server f.servers[server] host type).result = true := by
        rw [isFinal_exchange_iff (hfail _ (List.getElem_mem hlt))]
        exact hn.before server (by omega) _ hask
      have hnext : server + 1 + more = n := by omega
      have hmore := ih hnext (f.exchange server f.servers[server] host type).result
      rw [List.drop_eq_getElem_cons hlt, askFrom, Timed.elapsed_bind, if_neg hvain,
        elapsed_exchange hask, ← Nat.add_assoc]
      exact hmore

theorem elapsed_ask_of_firstToSettle (hfail : ∀ ask ∈ f.servers, ask.FailsTransiently)
    (hn : f.FirstToSettle host type n) :
    (f.ask host type).elapsed = f.timeBefore host type (n + 1) := by
  have htime := elapsed_askFrom hfail hn (Nat.zero_add n) (.error noServers)
  rwa [timeBefore, Nat.zero_add, List.drop_zero] at htime

theorem isFinal_ask_of_firstToSettle (hfail : ∀ ask ∈ f.servers, ask.FailsTransiently)
    (hn : f.FirstToSettle host type n) : isFinal (f.ask host type).result = true := by
  obtain ⟨ask, hask, hsettles⟩ := hn.settles
  exact (isFinal_ask_iff hfail).2 ⟨n, ask, hask, hsettles⟩

/-- The time of one server counts. -/
theorem timeOf_le_timeBefore (f : Forwarder) (host : String) (type : RecordType) {i n : Nat}
    (hi : i < n) : f.timeOf host type i ≤ f.timeBefore host type n := by
  induction n with
  | zero => contradiction
  | succ n ih =>
      rw [timeBefore]
      rcases Nat.lt_succ_iff_lt_or_eq.1 hi with hlt | rfl
      · exact Nat.le_trans (ih hlt) (Nat.le_add_right _ _)
      · exact Nat.le_add_left _ _

/-- A silent server is waited for as long as it is allowed. -/
theorem timeOf_of_silence (h : f.delivery? host type server = some .silence) :
    f.timeOf host type server = f.timeout := by
  rw [timeOf, h]
  rfl

/-! ## Both types -/

theorem transient?_of_isFinal {outcome : Except Failure (List IpAddress)}
    (h : isFinal outcome = true) : transient? outcome = none := by
  rcases isFinal_iff.1 h with ⟨as, rfl⟩ | rfl <;> rfl

/-- A look-up comes to addresses or to "no such name" if both searches do. -/
theorem isFinal_lookup_both (ha : isFinal (f.ask host .a).result = true)
    (haaaa : isFinal (f.ask host .aaaa).result = true) :
    isFinal (f.lookup .both host).result = true := by
  change isFinal (merge [(f.ask host .a).result, (f.ask host .aaaa).result]) = true
  rw [merge_pair, transient?_of_isFinal ha, transient?_of_isFinal haaaa, preferFound]
  split <;> rfl

theorem lt_elapsed_lookup_both_iff {deadline : Nat} :
    deadline < (f.lookup .both host).elapsed ↔
      ∃ type ∈ typesFor .both, deadline < (f.ask host type).elapsed := by
  change deadline < max (f.ask host .a).elapsed (f.ask host .aaaa).elapsed ↔ _
  simp only [typesFor, List.mem_cons, List.not_mem_nil, or_false, exists_eq_or_imp,
    exists_eq_left]
  omega

end Forwarder

/-! ## The deadline of a look-up -/

namespace Policy

variable {ε : Type} {p : Policy ε} {r : Request} {peer : PeerId} {name : Fqdn}
  {family : AddressFamily} {book : AddressBook} {now : Nat}

/-- What is done about an outcome takes no time. -/
theorem conclude_judge_eq_queryTimeout_iff {outcome : Except Failure (List IpAddress)} :
    ((p.judge peer name family outcome).conclude book now).2 = .error .queryTimeout ↔
      outcome = .error .queryTimeout := by
  cases outcome with
  | error e =>
      by_cases he : e = .nxDomain
      · rw [he]
        exact iff_of_false nofun nofun
      · rw [conclude_judge_failed he, Except.error.injEq, Except.error.injEq]
  | ok real =>
      refine iff_of_false ?_ nofun
      rcases conclude_judge_ok_cases p peer name family real book now with
        h | ⟨addresses, h⟩ | ⟨fault, h⟩
      · rw [h]
        nofun
      · rw [h]
        nofun
      · rw [h]
        cases fault <;> nofun

/-- A look-up that comes to addresses or to "no such name" fails only if it takes
too long. -/
theorem execute_eq_queryTimeout_iff (hpeer : p.Identifies r.source peer)
    (hfamily : familyOf r.type = some family) (hname : Fqdn.ofText r.domain = .ok name)
    (hfinal : isFinal (p.lookup name.text).result = true) :
    (p.execute r book now).2 = .error .queryTimeout ↔
      p.lookupTimeout < (p.lookup name.text).elapsed := by
  rw [execute_of_name hpeer hfamily hname, conclude_judge_eq_queryTimeout_iff, result_resolve]
  split
  next htime =>
    refine iff_of_false ?_ (Nat.not_lt.2 htime)
    rcases isFinal_iff.1 hfinal with ⟨as, has⟩ | hnone
    · rw [has]
      nofun
    · rw [hnone]
      nofun
  next htime => exact iff_of_true rfl (Nat.not_le.1 htime)

/-- A look-up that takes too long refuses the request. -/
theorem refuses_of_late (hpeer : p.Identifies r.source peer)
    (hfamily : familyOf r.type = some family) (hname : Fqdn.ofText r.domain = .ok name)
    (htime : p.lookupTimeout < (p.lookup name.text).elapsed) :
    p.execute r book now = (book, .error .queryTimeout) ∧ p.Refuses r book now := by
  have hresolve : (p.resolve name).result = .error .queryTimeout := by
    rw [result_resolve, if_neg (Nat.not_le.2 htime)]
  refine ⟨?_, refuses_of_resolve (result_identify_of_identifies hpeer) hfamily hname hresolve rfl⟩
  rw [execute_of_name hpeer hfamily hname, hresolve]
  exact conclude_judge_failed nofun

/-- What a deadline makes of a look-up, if for each type the server with the given
number is the first to settle it. -/
structure CutOff (p : Policy SentQuery) (f : Forwarder) (deadline : Nat) (r : Request)
    (name : Fqdn) (first : RecordType → Nat) (book : AddressBook) (now : Nat) : Prop where
  /-- It fails if and only if the servers asked for one of the types take too long
  altogether. -/
  queryTimeout_iff : (p.execute r book now).2 = .error .queryTimeout ↔
    ∃ type ∈ typesFor .both, deadline < f.timeBefore name.text type (first type + 1)
  refuses : (p.execute r book now).2 = .error .queryTimeout →
    p.execute r book now = (book, .error .queryTimeout) ∧ p.Refuses r book now
  /-- It fails after a silent server, unless the one that settles the type takes
  no time at all. -/
  of_silence : ∀ type ∈ typesFor .both, ∀ i < first type,
    f.delivery? name.text type i = some .silence → 0 < f.timeOf name.text type (first type) →
    (p.execute r book now).2 = .error .queryTimeout

theorem cutOff {p : Policy SentQuery} {f : Forwarder} {first : RecordType → Nat}
    (hlookup : p.lookup = f.lookup .both) (htimeout : p.lookupTimeout = f.timeout)
    (hfail : ∀ ask ∈ f.servers, ask.FailsTransiently) (hpeer : p.Identifies r.source peer)
    (hfamily : familyOf r.type = some family) (hname : Fqdn.ofText r.domain = .ok name)
    (hfirst : ∀ type ∈ typesFor .both, f.FirstToSettle name.text type (first type))
    (book : AddressBook) (now : Nat) : p.CutOff f f.timeout r name first book now := by
  have hfinal : isFinal (p.lookup name.text).result = true := by
    rw [hlookup]
    exact isFinal_lookup_both (isFinal_ask_of_firstToSettle hfail (hfirst .a (by decide)))
      (isFinal_ask_of_firstToSettle hfail (hfirst .aaaa (by decide)))
  have hlate : (p.execute r book now).2 = .error .queryTimeout ↔
      p.lookupTimeout < (p.lookup name.text).elapsed :=
    execute_eq_queryTimeout_iff hpeer hfamily hname hfinal
  have htimes : (p.execute r book now).2 = .error .queryTimeout ↔
      ∃ type ∈ typesFor .both, f.timeout < f.timeBefore name.text type (first type + 1) := by
    rw [hlate, htimeout, hlookup, lt_elapsed_lookup_both_iff]
    refine exists_congr fun type => and_congr_right fun htype => ?_
    rw [elapsed_ask_of_firstToSettle hfail (hfirst type htype)]
  refine ⟨htimes, fun h => refuses_of_late hpeer hfamily hname (hlate.1 h), ?_⟩
  intro type htype i hi hsilence htime
  have hspent := timeOf_le_timeBefore f name.text type hi
  rw [timeOf_of_silence hsilence] at hspent
  refine htimes.2 ⟨type, htype, ?_⟩
  rw [timeBefore]
  omega

end Policy

/-! ## A connector -/

namespace Services

variable {s : Settings} {v : Services} {r : Request} {peer : PeerId} {name : Fqdn}
  {family : AddressFamily} {f : Forwarder} {reach : SocketAddress → NameServer}
  {identifier : Nat → RecordType → UInt16} {first : RecordType → Nat}

theorem queryTimeout_of_ofSettings (hv : ofSettings s = .ok v) :
    v.queryTimeout = s.resolver.queryTimeout.toNat :=
  (ofSettings_eq_ok_iff.1 hv).queryTimeout_eq

theorem failsTransiently_forwarder (hf : f = v.forwarder reach identifier)
    (hfail : ∀ a, (reach a).FailsTransiently) : ∀ ask ∈ f.servers, ask.FailsTransiently := by
  rw [hf]
  exact List.forall_mem_map.2 fun a _ => hfail a

/-- **Failover within a deadline.**  The time that a connector is set to allow one
server is all that a whole look-up has.  So a request of a known peer for the
addresses of a name fails as soon as the servers that have to be asked for one
of the types take longer than this altogether, as they do if one of them that
is silent comes before the first one to settle the type. -/
theorem cutOff_of_firstToSettle (hv : ofSettings s = .ok v)
    (hf : f = v.forwarder reach identifier) (hfail : ∀ a, (reach a).FailsTransiently)
    (hpeer : v.directory.whoIs r.source = .ok peer)
    (hfamily : Policy.familyOf r.type = some family) (hname : Fqdn.ofText r.domain = .ok name)
    (hfirst : ∀ type ∈ typesFor .both, f.FirstToSettle name.text type (first type))
    (book : AddressBook) (now : Nat) :
    (v.policy f).CutOff f s.resolver.queryTimeout.toNat r name first book now := by
  have hallowed : f.timeout = s.resolver.queryTimeout.toNat := by
    rw [hf]
    exact queryTimeout_of_ofSettings hv
  rw [← hallowed]
  exact Policy.cutOff rfl (by rw [hf]; rfl) (failsTransiently_forwarder hf hfail)
    ⟨hpeer, Nat.zero_le _⟩ hfamily hname hfirst book now

/-! ## A silent server before a helpful one -/

/-- Three servers, which may take a second each. -/
def unevenSettings : Settings where
  resolver := { servers := ["192.0.2.1:53", "192.0.2.2:53", "192.0.2.3:53"], queryTimeout := 1000 }
  identity := { peers := [⟨"127.0.0.1", "p"⟩] }

/-- A server that knows an address of either family. -/
def helpful : NameServer := fun octets =>
  if octets = Lookup.encode 0 (Lookup.question [[0x61]] .a) then
    .reply 1 (Response.encode ⟨0, true, none⟩ (Lookup.question [[0x61]] .a)
      ResponseCode.noError [.v4 0x01020304#32])
  else
    .reply 1 (Response.encode ⟨0, true, none⟩ (Lookup.question [[0x61]] .aaaa)
      ResponseCode.noError [.v6 0x20010db8000000000000000000000001#128])

/-- The first server fails at once and the second one is silent. -/
def uneven (a : SocketAddress) : NameServer :=
  if a.ip = .v4 0xc0000201#32 then fun _ => .failure 1 (.temporary "SERVFAIL")
  else if a.ip = .v4 0xc0000202#32 then fun _ => .silence
  else helpful

/-- A request for the IPv4 addresses of a name. -/
def unevenRequest : Request := ⟨"a.", .a, ⟨.v4 0x7f000001#32, 5353, 0⟩⟩

theorem failsTransiently_uneven (a : SocketAddress) : (uneven a).FailsTransiently := by
  intro query delay reason h
  rw [uneven] at h
  split at h
  · exact .inr ⟨_, (Delivery.failure.inj h).2.symm⟩
  · split at h
    · contradiction
    · rw [helpful] at h
      split at h <;> contradiction

/-- A forwarder over these servers. -/
def unevenForwarder : Forwarder :=
  ⟨[fun _ => .failure 1 (.temporary "SERVFAIL"), fun _ => .silence, helpful], 1000, fun _ _ => 0⟩

theorem exists_services_uneven : ∃ v, ofSettings unevenSettings = .ok v ∧
    v.directory.whoIs unevenRequest.source = .ok ⟨"p"⟩ ∧
    unevenForwarder = v.forwarder uneven fun _ _ => 0 :=
  ⟨_, rfl, rfl, rfl⟩

/-- The third server helps, after the other two have failed. -/
theorem helps_uneven : ∀ type ∈ typesFor .both,
    unevenForwarder.Helps "a." type 2 ∧ ∀ i < 2, unevenForwarder.Fails "a." type i := by
  have hne : Lookup.encode 0 (Lookup.question [[0x61]] .aaaa) ≠
      Lookup.encode 0 (Lookup.question [[0x61]] .a) := by decide
  have hfails : ∀ type ∈ typesFor .both, ∀ i < 2, unevenForwarder.Fails "a." type i := by
    intro type htype i hi
    have hquery : Lookup.ofHost 0 "a." type =
        .ok (Lookup.encode 0 (Lookup.question [[0x61]] type)) := rfl
    match i with
    | 0 => exact .inr ⟨_, _, delivery?_eq_some_iff.2 ⟨_, _, rfl, hquery, rfl⟩⟩
    | 1 => exact .inl (delivery?_eq_some_iff.2 ⟨_, _, rfl, hquery, rfl⟩)
  refine List.forall_mem_cons.2 ⟨⟨?_, hfails .a (by decide)⟩,
    List.forall_mem_singleton.2 ⟨?_, hfails .aaaa (by decide)⟩⟩
  · refine ⟨1, _, _, delivery?_eq_some_iff.2 ⟨helpful, _, rfl, rfl, if_pos rfl⟩, by decide,
      Response.parse_reply_encode ⟨by decide, by decide⟩ _ _ _, rfl, .inl ⟨rfl, ?_⟩⟩
    exact ⟨.v4 0x01020304#32, by decide, rfl⟩
  · refine ⟨1, _, _, delivery?_eq_some_iff.2 ⟨helpful, _, rfl, rfl, if_neg hne⟩, by decide,
      Response.parse_reply_encode ⟨by decide, by decide⟩ _ _ _, rfl, .inl ⟨rfl, ?_⟩⟩
    exact ⟨.v6 0x20010db8000000000000000000000001#128, by decide, rfl⟩

theorem firstToSettle_uneven : ∀ type ∈ typesFor .both,
    unevenForwarder.FirstToSettle "a." type 2 := fun type htype =>
  firstToSettle_of_helps (helps_uneven type htype).1 (helps_uneven type htype).2

/-- The second server is silent, and the third one does not reply at once. -/
theorem silent_uneven : unevenForwarder.delivery? "a." .a 1 = some .silence ∧
    0 < unevenForwarder.timeOf "a." .a 2 := by
  refine ⟨rfl, ?_⟩
  decide

/-- The request fails, although the third server helps. -/
theorem cutOff_of_firstToSettle_of_uneven : ∃ v, ofSettings unevenSettings = .ok v ∧
    ∀ book now, (v.policy unevenForwarder).execute unevenRequest book now =
      (book, .error .queryTimeout) := by
  obtain ⟨v, hv, hpeer, hf⟩ := exists_services_uneven
  refine ⟨v, hv, fun book now => ?_⟩
  have hcutOff := cutOff_of_firstToSettle hv hf failsTransiently_uneven hpeer rfl
    (show Fqdn.ofText unevenRequest.domain = .ok ⟨"a."⟩ from rfl) firstToSettle_uneven book now
  have hlate := hcutOff.of_silence .a (by decide) 1 (by decide) silent_uneven.1 silent_uneven.2
  exact (hcutOff.refuses hlate).1

/-- A server that helps for both types is not always heard of, although every
server before it is silent or fails: one that is silent may have used up the
time of the whole look-up. -/
theorem queryTimeout_although_helped :
    ¬∀ (s : Settings) (v : Services) (reach : SocketAddress → NameServer)
      (identifier : Nat → RecordType → UInt16) (f : Forwarder) (r : Request) (peer : PeerId)
      (family : AddressFamily) (name : Fqdn) (n : Nat) (book : AddressBook) (now : Nat),
      ofSettings s = .ok v → 0 < s.resolver.queryTimeout → 2 ≤ s.resolver.servers.length →
      f = v.forwarder reach identifier → (∀ a, (reach a).FailsTransiently) →
      v.directory.whoIs r.source = .ok peer → Policy.familyOf r.type = some family →
      Fqdn.ofText r.domain = .ok name →
      (∀ type ∈ typesFor .both,
        f.Helps name.text type n ∧ ∀ i < n, f.Fails name.text type i) →
      ((v.policy f).execute r book now).2 ≠ .error .queryTimeout := by
  intro h
  obtain ⟨v, hv, hpeer, hf⟩ := exists_services_uneven
  have hname : Fqdn.ofText unevenRequest.domain = .ok ⟨"a."⟩ := rfl
  have hcutOff := Policy.cutOff (p := v.policy unevenForwarder) rfl (by rw [hf]; rfl)
    (failsTransiently_forwarder hf failsTransiently_uneven) ⟨hpeer, Nat.zero_le _⟩ rfl hname
    firstToSettle_uneven v.book 0
  exact h unevenSettings v uneven (fun _ _ => 0) unevenForwarder unevenRequest ⟨"p"⟩ .v4 ⟨"a."⟩ 2
    v.book 0 hv (by decide) (by decide) hf failsTransiently_uneven hpeer rfl hname helps_uneven
    (hcutOff.of_silence .a (by decide) 1 (by decide) silent_uneven.1 silent_uneven.2)

end Services

end DnsConnector
