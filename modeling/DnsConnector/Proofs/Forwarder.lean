import DnsConnector.Forwarder

/-!
# DnsConnector.Proofs.Forwarder

What becomes of a look-up, in terms of what the servers make of the queries.
The search for one type ends with an outcome other than a failure exactly if
some server gives a definitive reply (`isFinal_ask_iff`).  Of the outcomes for
two types the failure is seen only if nothing was found at all
(`merge_eq_ok_iff`, `exists_merge_eq_error`).
-/

namespace DnsConnector

open Wire

/-- A server that only fails for the time being: what comes back instead of a
reply never says that a name does not exist. -/
def NameServer.FailsTransiently (ask : NameServer) : Prop :=
  ∀ query delay reason, ask query = .failure delay reason →
    reason = .queryTimeout ∨ ∃ detail, reason = .temporary detail

namespace Delivery

variable {ε : Type} {timeout : Nat} {d : Delivery} {octets : Octets}

/-- Octets are received from a reply that comes in time. -/
theorem received_eq_ok_iff :
    (d.received timeout : Timed ε _).result = .ok octets ↔
      ∃ delay, d = .reply delay octets ∧ delay ≤ timeout := by
  cases d with
  | reply delay bs =>
      simp only [received, Timed.result_map, Timed.result_within, Timed.after]
      by_cases hdelay : delay ≤ timeout
      · rw [if_pos hdelay]
        refine ⟨fun h => ⟨delay, by rw [Except.ok.inj h], hdelay⟩, ?_⟩
        rintro ⟨_, h, -⟩
        rw [(Delivery.reply.inj h).2]
      · rw [if_neg hdelay]
        refine ⟨nofun, ?_⟩
        rintro ⟨delay', h, hdelay'⟩
        exact absurd ((Delivery.reply.inj h).1 ▸ hdelay') hdelay
  | failure delay reason =>
      by_cases hdelay : delay ≤ timeout <;>
        simp [received, Timed.result_within, Timed.after, hdelay]
  | silence => simp [received, Timed.after]

/-- Nothing that is received instead of a reply says that a name does not exist. -/
theorem isNotFound_of_received {ask : NameServer} (hfail : ask.FailsTransiently) {query : Octets}
    {e : Failure} (h : ((ask query).received timeout : Timed ε _).result = .error e) :
    e.isNotFound = false := by
  cases hd : ask query with
  | reply delay bs =>
      rw [hd, received, Timed.result_map, Timed.result_within] at h
      split at h
      · contradiction
      · rw [← Except.error.inj h]
        rfl
  | failure delay reason =>
      rw [hd, received, Timed.result_map, Timed.result_within] at h
      split at h
      next hresult =>
        rw [Option.ite_none_right_eq_some, Option.some.injEq] at hresult
        rw [← Except.error.inj h, ← hresult.2]
        rcases hfail query delay reason hd with rfl | ⟨detail, rfl⟩ <;> rfl
      · rw [← Except.error.inj h]
        rfl
  | silence =>
      rw [hd] at h
      rw [← Except.error.inj h]
      rfl

end Delivery

namespace Forwarder

variable {f : Forwarder} {server : Nat} {ask : NameServer} {host : String} {type : RecordType}

/-! ## One server -/

/-- Octets are a definitive reply to the query with an identifier: they can be
decoded, carry this identifier and say that the name was found or that it does
not exist. -/
def IsDefinitive (id : UInt16) (octets : Octets) : Prop :=
  ∃ reply, Reply.parse octets = .ok reply ∧ reply.id = id ∧
    (reply.code = ResponseCode.noError ∨ reply.code = ResponseCode.nxDomain)

/-- A server gives a definitive reply to the query for a type in the time allowed. -/
def Settles (f : Forwarder) (server : Nat) (ask : NameServer) (host : String)
    (type : RecordType) : Prop :=
  ∃ query delay octets, Lookup.ofHost (f.identifier server type) host type = .ok query ∧
    ask query = .reply delay octets ∧ delay ≤ f.timeout ∧
    IsDefinitive (f.identifier server type) octets

theorem isFinal_readReply_iff {id : UInt16} {octets : Octets} :
    isFinal (readReply id type octets) = true ↔ IsDefinitive id octets := by
  rw [IsDefinitive, readReply]
  cases hparse : Reply.parse octets with
  | error e =>
      have he : e = Reply.undecodable := by
        rw [Reply.parse] at hparse
        split at hparse
        · exact (Except.error.inj hparse).symm
        · contradiction
      simp [isFinal, he, Reply.undecodable, Failure.isNotFound]
  | ok reply =>
      by_cases hid : reply.id = id
      · by_cases hok : reply.code = ResponseCode.noError
        · simp [hid, Reply.classify, hok, isFinal]
        · by_cases hnx : reply.code = ResponseCode.nxDomain
          · simp [hid, Reply.classify, hnx, isFinal, Failure.isNotFound, ResponseCode.nxDomain,
              ResponseCode.noError]
          · simp [hid, Reply.classify, hok, hnx, isFinal, Failure.isNotFound]
      · simp [hid, isFinal, foreignReply, Failure.isNotFound]

/-- The outcome of asking one server is final exactly if its reply is definitive. -/
theorem isFinal_exchange_iff (hfail : ask.FailsTransiently) :
    isFinal (f.exchange server ask host type).result = true ↔ f.Settles server ask host type := by
  rw [Settles, exchange]
  cases hquery : Lookup.ofHost (f.identifier server type) host type with
  | error e =>
      have he : e = Lookup.badHost host := by
        rw [Lookup.ofHost] at hquery
        split at hquery
        · contradiction
        · exact (Except.error.inj hquery).symm
      simp [Timed.ready, isFinal, he, Lookup.badHost, Failure.isNotFound]
  | ok query =>
      rw [Timed.result_bind, Timed.result_map]
      cases hreceived : ((ask query).received f.timeout : Timed SentQuery _).result with
      | error e =>
          have he : isFinal (.error e) = false := Delivery.isNotFound_of_received hfail hreceived
          refine ⟨fun h => absurd (he.symm.trans h) Bool.false_ne_true, ?_⟩
          rintro ⟨query', delay, octets, hquery', hreply, hdelay, -⟩
          obtain rfl := Except.ok.inj hquery'
          rw [Delivery.received_eq_ok_iff.2 ⟨delay, hreply, hdelay⟩] at hreceived
          contradiction
      | ok octets =>
          obtain ⟨delay, hreply, hdelay⟩ := Delivery.received_eq_ok_iff.1 hreceived
          refine isFinal_readReply_iff.trans
            ⟨fun h => ⟨query, delay, octets, rfl, hreply, hdelay, h⟩, ?_⟩
          rintro ⟨query', delay', octets', hquery', hreply', -, h⟩
          obtain rfl := Except.ok.inj hquery'
          obtain ⟨-, rfl⟩ := Delivery.reply.inj (hreply.symm.trans hreply')
          exact h

/-- The addresses of a reply that comes in time and reports success are the outcome. -/
theorem result_exchange_of_reply {query : Octets} {delay : Nat} {octets : Octets} {reply : Reply}
    (hquery : Lookup.ofHost (f.identifier server type) host type = .ok query)
    (hreply : ask query = .reply delay octets) (hdelay : delay ≤ f.timeout)
    (hparse : Reply.parse octets = .ok reply) (hid : reply.id = f.identifier server type)
    (hcode : reply.code = ResponseCode.noError) :
    (f.exchange server ask host type).result =
      .ok (reply.addresses.filter (isOfType type)) := by
  have hreceived : ((ask query).received f.timeout : Timed SentQuery _).result = .ok octets :=
    Delivery.received_eq_ok_iff.2 ⟨delay, hreply, hdelay⟩
  have hclassify : reply.classify = .ok () := if_pos hcode
  simp only [exchange, hquery, Timed.result_bind, Timed.result_map, hreceived, readReply, hparse,
    hid, hclassify, ne_eq, not_true, if_false]

/-- Of a reply only addresses of the asked type are taken. -/
theorem isOfType_of_exchange {as : List IpAddress}
    (h : (f.exchange server ask host type).result = .ok as) :
    ∀ a ∈ as, isOfType type a = true := by
  rw [exchange] at h
  split at h
  · contradiction
  · rw [Timed.result_bind, Timed.result_map] at h
    split at h
    · contradiction
    · rw [readReply] at h
      split at h
      · contradiction
      · split at h
        · contradiction
        · split at h
          · contradiction
          · obtain rfl := Except.ok.inj h
            exact fun a ha => (List.mem_filter.1 ha).2

/-! ## All servers -/

/-- A search among servers comes to a final outcome at the first one that has one. -/
theorem isFinal_askFrom_iff {servers : List NameServer} {last : Except Failure (List IpAddress)}
    (hlast : isFinal last = false) :
    isFinal (f.askFrom host type server servers last).result = true ↔
      ∃ i ask, servers[i]? = some ask ∧
        isFinal (f.exchange (server + i) ask host type).result = true := by
  induction servers generalizing server last with
  | nil => simp [askFrom, Timed.ready, hlast]
  | cons ask more ih =>
      rw [askFrom, Timed.result_bind]
      by_cases hfinal : isFinal (f.exchange server ask host type).result = true
      · rw [if_pos hfinal]
        exact ⟨fun _ => ⟨0, ask, rfl, hfinal⟩, fun _ => hfinal⟩
      · rw [if_neg hfinal, ih (Bool.eq_false_iff.2 hfinal)]
        constructor
        · rintro ⟨i, next, hnext, h⟩
          rw [Nat.add_right_comm] at h
          exact ⟨i + 1, next, hnext, h⟩
        · rintro ⟨i, next, hnext, h⟩
          cases i with
          | zero =>
              obtain rfl := Option.some.inj hnext
              exact absurd h hfinal
          | succ i => exact ⟨i, next, hnext, by rwa [Nat.add_right_comm]⟩

theorem isOfType_of_askFrom {servers : List NameServer} {last : Except Failure (List IpAddress)}
    (hlast : isFinal last = false) {as : List IpAddress}
    (h : (f.askFrom host type server servers last).result = .ok as) :
    ∀ a ∈ as, isOfType type a = true := by
  induction servers generalizing server last with
  | nil =>
      obtain rfl : last = .ok as := h
      contradiction
  | cons ask more ih =>
      rw [askFrom, Timed.result_bind] at h
      split at h
      · exact isOfType_of_exchange h
      next hfinal => exact ih (Bool.eq_false_iff.2 hfinal) h

/-- Some server gives a definitive reply to the query for a type. -/
def Settled (f : Forwarder) (host : String) (type : RecordType) : Prop :=
  ∃ server ask, f.servers[server]? = some ask ∧ f.Settles server ask host type

/-- The servers are asked with success for a type, and there are addresses. -/
def Finds (f : Forwarder) (host : String) (type : RecordType) : Prop :=
  ∃ as, (f.ask host type).result = .ok as ∧ as ≠ []

/-- The outcome for a type is final exactly if some server gives a definitive reply. -/
theorem isFinal_ask_iff (hfail : ∀ ask ∈ f.servers, ask.FailsTransiently) :
    isFinal (f.ask host type).result = true ↔ f.Settled host type := by
  rw [ask, isFinal_askFrom_iff rfl, Settled]
  refine exists_congr fun i => exists_congr fun ask => and_congr_right fun hask => ?_
  rw [Nat.zero_add]
  exact isFinal_exchange_iff (hfail ask (List.mem_of_getElem? hask))

theorem isOfType_of_ask {as : List IpAddress} (h : (f.ask host type).result = .ok as) :
    ∀ a ∈ as, isOfType type a = true :=
  isOfType_of_askFrom rfl h

/-! ## How long it takes -/

theorem elapsed_exchange_le (f : Forwarder) (server : Nat) (ask : NameServer) (host : String)
    (type : RecordType) : (f.exchange server ask host type).elapsed ≤ f.timeout := by
  rw [exchange]
  split
  · exact Nat.zero_le _
  next query _ =>
    rw [Timed.bind]
    change 0 + ((ask query).received f.timeout : Timed SentQuery _).elapsed ≤ f.timeout
    rw [Nat.zero_add]
    cases ask query with
    | reply delay octets => exact Timed.elapsed_within_le _ _
    | failure delay reason => exact Timed.elapsed_within_le _ _
    | silence => exact Nat.le_refl _

theorem elapsed_askFrom_le (f : Forwarder) (server : Nat) (host : String) (type : RecordType)
    (servers : List NameServer) (last : Except Failure (List IpAddress)) :
    (f.askFrom host type server servers last).elapsed ≤ servers.length * f.timeout := by
  induction servers generalizing server last with
  | nil => exact Nat.zero_le _
  | cons ask more ih =>
      have hfirst := elapsed_exchange_le f server ask host type
      rw [askFrom, Timed.bind, List.length_cons, Nat.succ_mul, Nat.add_comm _ f.timeout]
      refine Nat.add_le_add hfirst ?_
      split
      · exact Nat.zero_le _
      · exact ih _ _

/-- A look-up of both types takes no longer than every server in turn may. -/
theorem elapsed_lookup_both_le (f : Forwarder) (host : String) :
    (f.lookup .both host).elapsed ≤ f.servers.length * f.timeout :=
  Nat.max_le.2 ⟨elapsed_askFrom_le f 0 host .a f.servers _,
    elapsed_askFrom_le f 0 host .aaaa f.servers _⟩

/-! ## Several types -/

variable {outcomes : List (Except Failure (List IpAddress))}

/-- A look-up succeeds with all addresses found, if there are any. -/
theorem merge_eq_ok_iff {as : List IpAddress} :
    merge outcomes = .ok as ↔ found outcomes = as ∧ as ≠ [] := by
  rw [merge]
  by_cases hfound : found outcomes = []
  · rw [if_neg (by simp [hfound]), hfound]
    refine ⟨fun h => ?_, fun h => absurd h.1.symm h.2⟩
    split at h <;> contradiction
  · rw [if_pos (by simpa using hfound), Except.ok.injEq]
    refine ⟨?_, And.left⟩
    rintro rfl
    exact ⟨rfl, hfound⟩

/-- A look-up that finds nothing fails for the time being if a query did. -/
theorem exists_merge_eq_error (hfound : found outcomes = []) {e : Failure}
    (he : .error e ∈ outcomes) (hfail : e.isNotFound = false) :
    ∃ e', merge outcomes = .error e' ∧ e'.isNotFound = false := by
  rw [merge, if_neg (by simp [hfound])]
  split
  next e' hlast =>
    refine ⟨e', rfl, ?_⟩
    obtain ⟨outcome, -, houtcome⟩ := List.mem_filterMap.1 (List.mem_of_getLast? hlast)
    cases outcome with
    | ok as => contradiction
    | error e'' =>
        rw [Option.ite_none_left_eq_some, Option.some.injEq] at houtcome
        exact houtcome.2 ▸ Bool.eq_false_iff.2 houtcome.1
  next hnone =>
    rw [lastFailure, List.getLast?_eq_none_iff, List.filterMap_eq_nil_iff] at hnone
    have := hnone _ he
    simp [hfail] at this

end Forwarder

end DnsConnector
