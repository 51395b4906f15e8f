import DnsConnector.Proofs.Forwarder

/-!
# DnsConnector.Proofs.Failover

What a look-up makes of servers that are asked one after the other, said without
the asking.  `outcomes` are what the servers of a forwarder have for a type,
whether they are asked or not.  A search comes to the first of them that is
final, else to the last one (`result_ask`), and a server is sent its query only
if no server before it had a final outcome (`trace_ask`).  `reference` puts the
two types together, and a look-up is just this (`lookup_eq_reference`).
-/

namespace DnsConnector

open Wire

namespace Timed

variable {ε α β : Type}

@[simp] theorem trace_ready (a : α) : (ready a : Timed ε α).trace = [] := rfl

@[simp] theorem trace_emit (e : ε) : (emit e).trace = [e] := rfl

@[simp] theorem trace_map (g : α → β) (x : Timed ε α) : (x.map g).trace = x.trace := rfl

@[simp] theorem trace_bind (x : Timed ε α) (g : α → Timed ε β) :
    (x.bind g).trace = x.trace ++ (g x.result).trace := by
  simp [trace, bind, Function.comp_def]

@[simp] theorem trace_both (x : Timed ε α) (y : Timed ε β) :
    (x.both y).trace = x.trace ++ y.trace := by
  simp [trace, both]

end Timed

/-- Waiting for a server makes nothing happen. -/
theorem Delivery.trace_received {ε : Type} (timeout : Nat) (d : Delivery) :
    (d.received timeout : Timed ε _).trace = [] := by
  cases d with
  | reply delay octets =>
      rw [received, Timed.trace_map, Timed.within]
      split <;> rfl
  | failure delay reason =>
      rw [received, Timed.trace_map, Timed.within]
      split <;> rfl
  | silence => rfl

namespace Forwarder

variable {f : Forwarder} {server : Nat} {ask : NameServer} {host : String} {type : RecordType}
  {family : AddressFamily}

/-! ## One type -/

/-- An outcome is final if it has addresses, though they may be none, or says
that there is no such name. -/
theorem isFinal_iff {outcome : Except Failure (List IpAddress)} :
    isFinal outcome = true ↔ (∃ as, outcome = .ok as) ∨ outcome = .error .nxDomain := by
  cases outcome with
  | ok as => simp [isFinal]
  | error e => cases e <;> simp [isFinal, Failure.isNotFound]

/-- The query for a type that a server is sent if it is asked; none if the host
has no name that can be sent. -/
def queryTo (f : Forwarder) (host : String) (type : RecordType) (server : Nat) :
    Option SentQuery :=
  (Lookup.ofHost (f.identifier server type) host type).toOption.map (⟨server, type, ·⟩)

/-- What servers have for a type, numbered from a server on. -/
def outcomesFrom (f : Forwarder) (host : String) (type : RecordType) (server : Nat)
    (servers : List NameServer) : List (Except Failure (List IpAddress)) :=
  (servers.zipIdx server).map fun (ask, i) => (f.exchange i ask host type).result

/-- What each server has for a type, in order, if it is asked. -/
def outcomes (f : Forwarder) (host : String) (type : RecordType) :
    List (Except Failure (List IpAddress)) :=
  f.outcomesFrom host type 0 f.servers

/-- The first final outcome, else the last one, else a given one. -/
def firstFinal (outcomes : List (Except Failure (List IpAddress)))
    (last : Except Failure (List IpAddress)) : Except Failure (List IpAddress) :=
  (outcomes.find? isFinal).getD (outcomes.getLast?.getD last)

theorem firstFinal_cons (outcome : Except Failure (List IpAddress))
    (more : List (Except Failure (List IpAddress))) (last : Except Failure (List IpAddress)) :
    firstFinal (outcome :: more) last =
      if isFinal outcome then outcome else firstFinal more outcome := by
  rw [firstFinal, firstFinal, List.find?_cons, List.getLast?_cons]
  cases isFinal outcome <;> rfl

theorem outcomesFrom_cons (more : List NameServer) :
    f.outcomesFrom host type server (ask :: more) =
      (f.exchange server ask host type).result :: f.outcomesFrom host type (server + 1) more :=
  rfl

/-- A search among servers comes to the first final outcome. -/
theorem result_askFrom (f : Forwarder) (host : String) (type : RecordType) (server : Nat)
    (servers : List NameServer) (last : Except Failure (List IpAddress)) :
    (f.askFrom host type server servers last).result =
      firstFinal (f.outcomesFrom host type server servers) last := by
  induction servers generalizing server last with
  | nil => rfl
  | cons ask more ih =>
      rw [askFrom, Timed.result_bind, outcomesFrom_cons, firstFinal_cons, ← ih]
      split <;> rfl

theorem trace_exchange : (f.exchange server ask host type).trace =
    (f.queryTo host type server).toList := by
  rw [exchange, queryTo]
  cases Lookup.ofHost (f.identifier server type) host type with
  | error e => rfl
  | ok query =>
      simp [Delivery.trace_received, Except.toOption]

/-- The servers are sent their queries up to the first one with a final outcome. -/
theorem trace_askFrom (f : Forwarder) (host : String) (type : RecordType) (server : Nat)
    (servers : List NameServer) (last : Except Failure (List IpAddress)) :
    (f.askFrom host type server servers last).trace =
      ((List.range' server servers.length).take
        ((f.outcomesFrom host type server servers).findIdx isFinal + 1)).filterMap
          (f.queryTo host type) := by
  induction servers generalizing server last with
  | nil => rfl
  | cons ask more ih =>
      rw [askFrom, Timed.trace_bind, trace_exchange, outcomesFrom_cons, List.findIdx_cons,
        List.length_cons, List.range'_succ, List.take_succ_cons, List.filterMap_cons]
      cases isFinal (f.exchange server ask host type).result with
      | true => cases f.queryTo host type server <;> simp
      | false =>
          rw [if_neg Bool.false_ne_true, ih]
          cases f.queryTo host type server <;> rfl

/-- What the servers have for a type, put together: the first final outcome,
else the last one, else that there are no servers. -/
def outcome (f : Forwarder) (host : String) (type : RecordType) : Except Failure (List IpAddress) :=
  firstFinal (f.outcomes host type) (.error noServers)

/-- How a search for one type goes. -/
structure Searches (f : Forwarder) (host : String) (type : RecordType) : Prop where
  result_eq : (f.ask host type).result = f.outcome host type
  /-- Queries are sent up to the first server with a final outcome. -/
  trace_eq : (f.ask host type).trace =
    ((List.range f.servers.length).take ((f.outcomes host type).findIdx isFinal + 1)).filterMap
      (f.queryTo host type)
  /-- A server is sent a query only if nothing final came from those before it. -/
  sent : ∀ q ∈ (f.ask host type).trace, q.type = type ∧
    ∀ i < q.server, ∀ o, (f.outcomes host type)[i]? = some o → isFinal o = false

theorem eq_of_queryTo {q : SentQuery} (h : f.queryTo host type server = some q) :
    q.server = server ∧ q.type = type := by
  obtain ⟨query, -, rfl⟩ := Option.map_eq_some_iff.1 h
  exact ⟨rfl, rfl⟩

theorem searches (f : Forwarder) (host : String) (type : RecordType) : Searches f host type := by
  have htrace : (f.ask host type).trace =
      ((List.range f.servers.length).take
        ((f.outcomes host type).findIdx isFinal + 1)).filterMap (f.queryTo host type) := by
    rw [List.range_eq_range']
    exact trace_askFrom f host type 0 f.servers _
  refine ⟨result_askFrom f host type 0 f.servers _, htrace, fun q hq => ?_⟩
  rw [htrace, List.mem_filterMap] at hq
  obtain ⟨server, hserver, hquery⟩ := hq
  obtain ⟨rfl, htype⟩ := eq_of_queryTo hquery
  have hle : q.server < (f.outcomes host type).findIdx isFinal + 1 := by
    rw [List.take_range, List.mem_range] at hserver
    omega
  refine ⟨htype, fun i hi o ho => ?_⟩
  have hbefore : i < (f.outcomes host type).findIdx isFinal := by omega
  obtain ⟨hlength, rfl⟩ := List.getElem?_eq_some_iff.1 ho
  exact List.not_of_lt_findIdx hbefore

/-- The second server knows that there is no such name, so the third one is not
asked. -/
example : ((⟨[fun _ => .silence, fun _ => .failure 1 .nxDomain, fun _ => .silence], 5000,
    fun _ _ => 7⟩ : Forwarder).ask "a" .a).trace.map (·.server) = [0, 1] := by
  decide

/-! ## Both types -/

/-- The addresses in an outcome. -/
def addressesIn : Except Failure (List IpAddress) → List IpAddress
  | .ok as => as
  | .error _ => []

/-- The failure in an outcome, unless it says that there is no such name. -/
def transient? : Except Failure (List IpAddress) → Option Failure
  | .ok _ => none
  | .error e => if e = .nxDomain then none else some e

/-- Addresses if there are any, else a failure, else "no such name". -/
def preferFound (as : List IpAddress) (failure : Option Failure) :
    Except Failure (List IpAddress) :=
  if as = [] then .error (failure.getD .nxDomain) else .ok as

/-- What a look-up makes of what the servers have. -/
def reference (f : Forwarder) (host : String) : AddressFamily → Except Failure (List IpAddress)
  | .v4 => preferFound (addressesIn (f.outcome host .a)) (transient? (f.outcome host .a))
  | .v6 => preferFound (addressesIn (f.outcome host .aaaa)) (transient? (f.outcome host .aaaa))
  | .both =>
    preferFound (addressesIn (f.outcome host .a) ++ addressesIn (f.outcome host .aaaa))
      ((transient? (f.outcome host .aaaa)).or (transient? (f.outcome host .a)))

theorem found_eq (outcomes : List (Except Failure (List IpAddress))) :
    found outcomes = outcomes.flatMap addressesIn := rfl

theorem lastFailure_eq (outcomes : List (Except Failure (List IpAddress))) :
    lastFailure outcomes = (outcomes.filterMap transient?).getLast? := by
  rw [lastFailure]
  congr 2
  funext o
  cases o with
  | ok as => rfl
  | error e => cases e <;> rfl

theorem merge_eq (outcomes : List (Except Failure (List IpAddress))) :
    merge outcomes =
      preferFound (outcomes.flatMap addressesIn) (outcomes.filterMap transient?).getLast? := by
  rw [merge, found_eq, lastFailure_eq, preferFound]
  by_cases hfound : outcomes.flatMap addressesIn = []
  · rw [if_neg (by simp [hfound]), if_pos hfound]
    cases (outcomes.filterMap transient?).getLast? <;> rfl
  · rw [if_pos (by simpa using hfound), if_neg hfound]

/-- The types that are asked for to find addresses of a family, in the order in
which the addresses are returned. -/
def typesFor : AddressFamily → List RecordType
  | .v4 => [.a]
  | .v6 => [.aaaa]
  | .both => [.a, .aaaa]

theorem result_lookup (f : Forwarder) (family : AddressFamily) (host : String) :
    (f.lookup family host).result =
      merge ((typesFor family).map fun type => (f.ask host type).result) := by
  cases family <;> rfl

/-- How a look-up for a family goes. -/
structure LooksUp (f : Forwarder) (host : String) (family : AddressFamily) : Prop where
  result_eq : (f.lookup family host).result = f.reference host family
  /-- Nothing is sent but the queries of the searches for the types. -/
  trace_eq : (f.lookup family host).trace =
    (typesFor family).flatMap fun type => (f.ask host type).trace
  ne_nil : ∀ as, (f.lookup family host).result = .ok as → as ≠ []
  /-- The addresses returned are those that the search for their type found. -/
  mem_iff : ∀ as, (f.lookup family host).result = .ok as → ∀ a, a ∈ as ↔
    ∃ type ∈ typesFor family, isOfType type a = true ∧ a ∈ addressesIn (f.ask host type).result
  /-- An IPv4 address stands before every IPv6 address. -/
  sorted : ∀ as, (f.lookup family host).result = .ok as →
    as.Pairwise fun a b => b.isV4 = true → a.isV4 = true
  /-- Addresses found for one type are returned, whatever the other one comes to. -/
  not_hidden : ∀ type ∈ typesFor family, ∀ found, (f.ask host type).result = .ok found →
    found ≠ [] → ∃ as, (f.lookup family host).result = .ok as ∧ found.Sublist as

theorem isOfType_of_mem_addressesIn {a : IpAddress}
    (h : a ∈ addressesIn (f.ask host type).result) : isOfType type a = true := by
  cases hask : (f.ask host type).result with
  | ok as =>
      rw [hask] at h
      exact isOfType_of_ask hask a h
  | error e =>
      rw [hask] at h
      contradiction

theorem merge_singleton (r : Except Failure (List IpAddress)) :
    merge [r] = preferFound (addressesIn r) (transient? r) := by
  rw [merge_eq, List.flatMap_singleton]
  cases h : transient? r <;> simp [h]

/-- Of two failures the second one is seen. -/
theorem merge_pair (r r' : Except Failure (List IpAddress)) :
    merge [r, r'] =
      preferFound (addressesIn r ++ addressesIn r') ((transient? r').or (transient? r)) := by
  rw [merge_eq, List.flatMap_cons, List.flatMap_singleton]
  cases h : transient? r <;> cases h' : transient? r' <;> simp [h, h']

theorem lookup_eq_reference (f : Forwarder) (host : String) (family : AddressFamily) :
    (f.lookup family host).result = f.reference host family := by
  have ha := (searches f host .a).result_eq
  have haaaa := (searches f host .aaaa).result_eq
  rw [result_lookup]
  cases family with
  | v4 => rw [reference, ← ha, ← merge_singleton]; rfl
  | v6 => rw [reference, ← haaaa, ← merge_singleton]; rfl
  | both => rw [reference, ← ha, ← haaaa, ← merge_pair]; rfl

theorem result_lookup_eq_ok_iff {as : List IpAddress} : (f.lookup family host).result = .ok as ↔
    ((typesFor family).flatMap fun type => addressesIn (f.ask host type).result) = as ∧ as ≠ [] := by
  rw [result_lookup, merge_eq_ok_iff, found_eq, List.flatMap_map]

theorem sorted_addressesIn (f : Forwarder) (host : String) (family : AddressFamily) :
    ((typesFor family).flatMap fun type => addressesIn (f.ask host type).result).Pairwise
      fun a b => b.isV4 = true → a.isV4 = true := by
  refine List.pairwise_flatMap.2 ⟨fun type _ => ?_, ?_⟩
  · -- within one type either all addresses are IPv4 or none is
    refine List.pairwise_of_forall_mem_list fun a ha b hb hv4 => ?_
    have ha := isOfType_of_mem_addressesIn ha
    have hb := isOfType_of_mem_addressesIn hb
    cases type <;> cases a <;> cases b <;> first | rfl | contradiction
  · cases family with
    | v4 => exact List.pairwise_singleton _ _
    | v6 => exact List.pairwise_singleton _ _
    | both =>
        refine List.pairwise_pair.2 fun a ha b _ _ => ?_
        exact isOfType_of_mem_addressesIn ha

theorem looksUp (f : Forwarder) (host : String) (family : AddressFamily) :
    LooksUp f host family where
  result_eq := lookup_eq_reference f host family
  trace_eq := by
    cases family <;> simp [lookup, typesFor]
  ne_nil as has := (result_lookup_eq_ok_iff.1 has).2
  mem_iff as has a := by
    rw [← (result_lookup_eq_ok_iff.1 has).1, List.mem_flatMap]
    refine exists_congr fun type => and_congr_right fun _ => ?_
    exact ⟨fun h => ⟨isOfType_of_mem_addressesIn h, h⟩, And.right⟩
  sorted as has := by
    rw [← (result_lookup_eq_ok_iff.1 has).1]
    exact sorted_addressesIn f host family
  not_hidden type htype found hfound hne := by
    have hsublist : found.Sublist
        ((typesFor family).flatMap fun type => addressesIn (f.ask host type).result) := by
      have hmem := List.mem_map_of_mem htype (f := fun type => addressesIn (f.ask host type).result)
      rw [hfound] at hmem
      exact List.sublist_flatten_of_mem hmem
    refine ⟨_, result_lookup_eq_ok_iff.2 ⟨rfl, fun hnil => ?_⟩, hsublist⟩
    rw [hnil] at hsublist
    exact hne (List.sublist_nil.1 hsublist)

/-- **Failover.**  Whatever the servers do, the search for each type comes to
the first outcome with addresses or without such a name and stops there, and a
look-up is what the reference makes of the two searches. -/
theorem refines_reference (f : Forwarder) (host : String) :
    (∀ outcome, isFinal outcome = true ↔ (∃ as, outcome = .ok as) ∨ outcome = .error .nxDomain) ∧
      (∀ type, Searches f host type) ∧ ∀ family, LooksUp f host family :=
  ⟨fun _ => isFinal_iff, searches f host, looksUp f host⟩

end Forwarder

end DnsConnector
