import DnsConnector.Proofs.Failover
import DnsConnector.Proofs.Wire.Response
import Mathlib.Data.List.Forall2

/-!
# DnsConnector.Proofs.Noninterference

What cannot influence a look-up.  Two worlds are compared, in which the servers
give the same definitive replies and fail for all other queries, each in a way
of its own (`Delivery.Fails` lists the ways).  A look-up comes to the same then,
but for the kind of failure it may end with, and sends the same queries
(`lookup_alike`).

The relation between the two worlds is carried from what comes back for one
query to the outcome of one server, then to the first final outcome of all of
them, and last to what is put together from the types.
-/

namespace DnsConnector

open Wire

/-! ## What comes back for a query -/

namespace Delivery

/-- The ways in which no definitive reply comes back for the query with an
identifier in the time allowed.  A transport may report anything but that the
name does not exist. -/
inductive Fails (timeout : Nat) (id : UInt16) : Delivery → Prop
  | silent : Fails timeout id .silence
  | late {delay : Nat} {octets : Octets} (hdelay : timeout < delay) :
      Fails timeout id (.reply delay octets)
  | undecodable {delay : Nat} {octets : Octets} {e : Failure}
      (hparse : Reply.parse octets = .error e) : Fails timeout id (.reply delay octets)
  /-- The reply belongs to another query, whatever it says. -/
  | foreign {delay : Nat} {octets : Octets} {reply : Reply}
      (hparse : Reply.parse octets = .ok reply) (hid : reply.id ≠ id) :
      Fails timeout id (.reply delay octets)
  /-- The reply reports neither success nor that there is no such name, with
  whatever addresses. -/
  | otherCode {delay : Nat} {octets : Octets} {reply : Reply}
      (hparse : Reply.parse octets = .ok reply) (hok : reply.code ≠ ResponseCode.noError)
      (hnx : reply.code ≠ ResponseCode.nxDomain) : Fails timeout id (.reply delay octets)
  | transport {delay : Nat} {reason : Failure} (hreason : reason ≠ .nxDomain) :
      Fails timeout id (.failure delay reason)

/-- The same definitive reply comes back in two worlds, or both of them fail. -/
inductive SameOrFails (timeout : Nat) (id : UInt16) : Delivery → Delivery → Prop
  | same {delay delay' : Nat} {octets : Octets} (hdelay : delay ≤ timeout)
      (hdelay' : delay' ≤ timeout) (hdefinitive : Forwarder.IsDefinitive id octets) :
      SameOrFails timeout id (.reply delay octets) (.reply delay' octets)
  | fails {d d' : Delivery} (h : Fails timeout id d) (h' : Fails timeout id d') :
      SameOrFails timeout id d d'

variable {ε : Type} {timeout : Nat} {id : UInt16} {d : Delivery}

/-- Every delivery is a definitive reply in time, fails, or is a report of the
transport that the name does not exist. -/
theorem definitive_or_fails (timeout : Nat) (id : UInt16) (d : Delivery) :
    (∃ delay octets, d = .reply delay octets ∧ delay ≤ timeout ∧
        Forwarder.IsDefinitive id octets) ∨
      Fails timeout id d ∨ ∃ delay, d = .failure delay .nxDomain := by
  cases d with
  | silence => exact .inr (.inl .silent)
  | failure delay reason =>
      by_cases hreason : reason = .nxDomain
      · exact .inr (.inr ⟨delay, by rw [hreason]⟩)
      · exact .inr (.inl (.transport hreason))
  | reply delay octets =>
      by_cases hdelay : delay ≤ timeout
      · cases hparse : Reply.parse octets with
        | error e => exact .inr (.inl (.undecodable hparse))
        | ok reply =>
            by_cases hid : reply.id = id
            · by_cases hok : reply.code = ResponseCode.noError
              · exact .inl ⟨delay, octets, rfl, hdelay, reply, hparse, hid, .inl hok⟩
              · by_cases hnx : reply.code = ResponseCode.nxDomain
                · exact .inl ⟨delay, octets, rfl, hdelay, reply, hparse, hid, .inr hnx⟩
                · exact .inr (.inl (.otherCode hparse hok hnx))
            · exact .inr (.inl (.foreign hparse hid))
      · exact .inr (.inl (.late (Nat.lt_of_not_le hdelay)))

/-- What fails is no definitive reply. -/
theorem Fails.not_definitive {delay : Nat} {octets : Octets}
    (h : Fails timeout id (.reply delay octets)) (hdelay : delay ≤ timeout) :
    ¬Forwarder.IsDefinitive id octets := by
  rintro ⟨reply, hparse, hid, hcode⟩
  cases h with
  | late hlate => exact absurd hdelay (Nat.not_le.2 hlate)
  | undecodable hparse' => exact absurd (hparse.symm.trans hparse') nofun
  | foreign hparse' hid' =>
      obtain rfl := Except.ok.inj (hparse.symm.trans hparse')
      exact hid' hid
  | otherCode hparse' hok hnx =>
      obtain rfl := Except.ok.inj (hparse.symm.trans hparse')
      exact hcode.elim hok hnx

/-- What is received instead of octets does not say that there is no such name. -/
theorem Fails.received_ne (h : Fails timeout id d) :
    (d.received timeout : Timed ε _).result ≠ .error .nxDomain := by
  cases d with
  | silence =>
      intro hresult
      cases Except.error.inj hresult
  | reply delay octets =>
      rw [received, Timed.result_map, Timed.result_within]
      split <;> simp
  | failure delay reason =>
      cases h with
      | transport hreason =>
          rw [received, Timed.result_map, Timed.result_within]
          by_cases hdelay : (Timed.after delay reason : Timed ε Failure).elapsed ≤ timeout
          · rw [if_pos hdelay]
            exact fun hresult => hreason (Except.error.inj hresult)
          · rw [if_neg hdelay]
            simp

end Delivery

/-! ## Outcomes -/

namespace Forwarder

variable {f : Forwarder} {server : Nat} {ask ask' : NameServer} {host : String}
  {type : RecordType} {family : AddressFamily}
  {o o' r r' : Except Failure (List IpAddress)}

/-- Two outcomes have the same addresses, both say that there is no such name,
or both fail otherwise. -/
inductive Alike : Except Failure (List IpAddress) → Except Failure (List IpAddress) → Prop
  | found (as : List IpAddress) : Alike (.ok as) (.ok as)
  | missing : Alike (.error .nxDomain) (.error .nxDomain)
  | failed {e e' : Failure} (h : e ≠ .nxDomain) (h' : e' ≠ .nxDomain) :
      Alike (.error e) (.error e')

namespace Alike

theorem refl (o : Except Failure (List IpAddress)) : Alike o o := by
  cases o with
  | ok as => exact .found as
  | error e =>
      by_cases he : e = .nxDomain
      · rw [he]
        exact .missing
      · exact .failed he he

/-- Two outcomes that are not final are failures. -/
theorem of_not_final (h : isFinal o = false) (h' : isFinal o' = false) : Alike o o' := by
  have hfailure : ∀ {o}, isFinal o = false → ∃ e, o = .error e ∧ e ≠ .nxDomain := by
    intro o ho
    cases o with
    | ok as => contradiction
    | error e => exact ⟨e, rfl, by rintro rfl; contradiction⟩
  obtain ⟨e, rfl, he⟩ := hfailure h
  obtain ⟨e', rfl, he'⟩ := hfailure h'
  exact .failed he he'

theorem isFinal_eq (h : Alike o o') : isFinal o = isFinal o' := by
  cases h with
  | found => rfl
  | missing => rfl
  | @failed e e' he he' => cases e <;> cases e' <;> first | rfl | contradiction

theorem addressesIn_eq (h : Alike o o') : addressesIn o = addressesIn o' := by
  cases h <;> rfl

/-- Failures are seen or not in both. -/
theorem transient? (h : Alike o o') :
    Option.Rel (fun e e' => e ≠ .nxDomain ∧ e' ≠ .nxDomain) (transient? o)
      (Forwarder.transient? o') := by
  cases h with
  | found => exact .none
  | missing => exact .none
  | failed he he' =>
      rw [Forwarder.transient?, Forwarder.transient?, if_neg he, if_neg he']
      exact .some ⟨he, he'⟩

theorem preferFound {as : List IpAddress} {e? e?' : Option Failure}
    (h : Option.Rel (fun e e' => e ≠ .nxDomain ∧ e' ≠ .nxDomain) e? e?') :
    Alike (preferFound as e?) (Forwarder.preferFound as e?') := by
  rw [Forwarder.preferFound, Forwarder.preferFound]
  split
  · cases h with
    | none => exact .missing
    | some he => exact .failed he.1 he.2
  · exact .found as

theorem merge_singleton (h : Alike r r') : Alike (merge [r]) (merge [r']) := by
  rw [Forwarder.merge_singleton, Forwarder.merge_singleton, h.addressesIn_eq]
  exact .preferFound h.transient?

theorem merge_pair (ho : Alike o o') (hr : Alike r r') :
    Alike (merge [o, r]) (merge [o', r']) := by
  rw [Forwarder.merge_pair, Forwarder.merge_pair, ho.addressesIn_eq, hr.addressesIn_eq]
  have hfirst := ho.transient?
  have hsecond := hr.transient?
  generalize Forwarder.transient? r = e? at hsecond ⊢
  generalize Forwarder.transient? r' = e?' at hsecond ⊢
  -- the failure for the second type is seen, else that for the first
  refine .preferFound ?_
  cases hsecond with
  | none => simpa only [Option.none_or] using hfirst
  | some he => exact .some he

end Alike

/-! ## One server, and all of them -/

/-- A delivery that fails does not end the search. -/
theorem not_final_of_fails {d : Delivery} {timeout : Nat} {id : UInt16}
    (h : d.Fails timeout id) :
    isFinal (match (d.received timeout : Timed SentQuery _).result with
      | .error e => .error e
      | .ok octets => readReply id type octets) = false := by
  cases hreceived : (d.received timeout : Timed SentQuery _).result with
  | error e =>
      have hne := h.received_ne (ε := SentQuery)
      rw [hreceived] at hne
      change isFinal (.error e) = false
      exact Bool.eq_false_iff.2 fun hfinal =>
        (isFinal_iff.1 hfinal).elim nofun fun he => hne (Except.error.inj he ▸ rfl)
  | ok octets =>
      obtain ⟨delay, rfl, hdelay⟩ := Delivery.received_eq_ok_iff.1 hreceived
      exact Bool.eq_false_iff.2 fun hfinal =>
        h.not_definitive hdelay (isFinal_readReply_iff.1 hfinal)

/-- The outcome of a server depends on definitive replies only. -/
theorem exchange_alike
    (h : ∀ query, Lookup.ofHost (f.identifier server type) host type = .ok query →
      Delivery.SameOrFails f.timeout (f.identifier server type) (ask query) (ask' query)) :
    Alike (f.exchange server ask host type).result (f.exchange server ask' host type).result := by
  rw [exchange, exchange]
  cases hquery : Lookup.ofHost (f.identifier server type) host type with
  | error e => exact .refl _
  | ok query =>
      have hsame := h query hquery
      simp only [Timed.result_bind, Timed.result_map]
      generalize ask query = d at hsame ⊢
      generalize ask' query = d' at hsame ⊢
      cases hsame with
      | @same delay delay' octets hdelay hdelay' =>
          rw [Delivery.received_eq_ok_iff.2 ⟨delay, rfl, hdelay⟩,
            Delivery.received_eq_ok_iff.2 ⟨delay', rfl, hdelay'⟩]
          exact .refl _
      | fails hd hd' => exact .of_not_final (not_final_of_fails hd) (not_final_of_fails hd')

/-- The first final outcome among those of two worlds. -/
theorem firstFinal_alike {os os' : List (Except Failure (List IpAddress))}
    (h : List.Forall₂ Alike os os') {last last' : Except Failure (List IpAddress)}
    (hlast : Alike last last') : Alike (firstFinal os last) (firstFinal os' last') := by
  induction h generalizing last last' with
  | nil => exact hlast
  | @cons o o' more more' ho hmore ih =>
      rw [firstFinal_cons, firstFinal_cons, ← ho.isFinal_eq]
      split
      · exact ho
      · exact ih ho

/-- The search ends at the same server. -/
theorem findIdx_isFinal_alike {os os' : List (Except Failure (List IpAddress))}
    (h : List.Forall₂ Alike os os') : os.findIdx isFinal = os'.findIdx isFinal := by
  induction h with
  | nil => rfl
  | @cons o o' more more' ho hmore ih =>
      rw [List.findIdx_cons, List.findIdx_cons, ih, ho.isFinal_eq]

/-- Two lists of servers that give the same definitive replies to the queries for
the types of a look-up, and fail for the same ones of them. -/
structure SameReplies (f : Forwarder) (family : AddressFamily) (host : String)
    (servers servers' : List NameServer) : Prop where
  length_eq : servers.length = servers'.length
  sameOrFails : ∀ i ask ask', servers[i]? = some ask → servers'[i]? = some ask' →
    ∀ type ∈ typesFor family, ∀ query,
      Lookup.ofHost (f.identifier i type) host type = .ok query →
      Delivery.SameOrFails f.timeout (f.identifier i type) (ask query) (ask' query)

variable {servers : List NameServer}

theorem outcomes_alike (h : f.SameReplies family host f.servers servers)
    (htype : type ∈ typesFor family) :
    List.Forall₂ Alike (f.outcomes host type) ({ f with servers }.outcomes host type) := by
  rw [List.forall₂_iff_get]
  refine ⟨by simp [outcomes, outcomesFrom, h.length_eq], fun i hi hi' => ?_⟩
  have hask : i < f.servers.length := by simpa [outcomes, outcomesFrom] using hi
  have hask' : i < servers.length := by simpa [outcomes, outcomesFrom] using hi'
  have halike : Alike (f.exchange i f.servers[i] host type).result
      ({ f with servers }.exchange i servers[i] host type).result :=
    exchange_alike (h.sameOrFails i _ _ (List.getElem?_eq_getElem hask)
      (List.getElem?_eq_getElem hask') type htype)
  simpa [outcomes, outcomesFrom] using halike

/-- The search for one type. -/
theorem ask_alike (h : f.SameReplies family host f.servers servers)
    (htype : type ∈ typesFor family) :
    Alike (f.ask host type).result ({ f with servers }.ask host type).result ∧
      ({ f with servers }.ask host type).trace = (f.ask host type).trace := by
  have houtcomes := outcomes_alike h htype
  constructor
  · rw [(searches f host type).result_eq, (searches { f with servers } host type).result_eq]
    exact firstFinal_alike houtcomes (.refl _)
  · rw [(searches f host type).trace_eq, (searches { f with servers } host type).trace_eq,
      findIdx_isFinal_alike houtcomes, h.length_eq]
    rfl

/-- **Noninterference.**  What is no definitive reply has no influence.  Whatever
the servers do instead of giving one, a look-up finds the same addresses, or that
there is no such name, or fails otherwise, and the same queries go to the same
servers. -/
theorem lookup_alike (h : f.SameReplies family host f.servers servers) :
    Alike (f.lookup family host).result ({ f with servers }.lookup family host).result ∧
      ({ f with servers }.lookup family host).trace = (f.lookup family host).trace := by
  cases family with
  | v4 =>
      have htype : RecordType.a ∈ typesFor .v4 := by decide
      obtain ⟨hresult, htrace⟩ := ask_alike h htype
      exact ⟨hresult.merge_singleton, htrace⟩
  | v6 =>
      have htype : RecordType.aaaa ∈ typesFor .v6 := by decide
      obtain ⟨hresult, htrace⟩ := ask_alike h htype
      exact ⟨hresult.merge_singleton, htrace⟩
  | both =>
      have htypes : RecordType.a ∈ typesFor .both ∧ RecordType.aaaa ∈ typesFor .both := by decide
      obtain ⟨ha, htrace⟩ := ask_alike h htypes.1
      obtain ⟨haaaa, htrace'⟩ := ask_alike h htypes.2
      refine ⟨ha.merge_pair haaaa, ?_⟩
      rw [lookup, lookup, Timed.trace_map, Timed.trace_map, Timed.trace_both, Timed.trace_both,
        htrace, htrace']

/-! ## A forged reply -/

/-- A server whose reply, that there is no such name, belongs to another query. -/
def forging : NameServer := fun _ =>
  .reply 1 (Response.encode ⟨8, true, none⟩ (Lookup.question [[0x61]] .a) ResponseCode.nxDomain [])

/-- A server that knows the address. -/
def knowing : NameServer := fun _ =>
  .reply 1 (Response.encode ⟨7, true, none⟩ (Lookup.question [[0x61]] .a) ResponseCode.noError
    [.v4 0x01020304#32])

/-- The forged reply comes before the true one. -/
def forged : Forwarder := ⟨[forging, knowing], 5000, fun _ _ => 7⟩

theorem sameReplies_forged :
    forged.SameReplies .v4 "a." forged.servers [fun _ => .silence, knowing] where
  length_eq := rfl
  sameOrFails i ask ask' hask hask' type _ query _ := by
    match i with
    | 0 =>
        obtain rfl := Option.some.inj hask
        obtain rfl := Option.some.inj hask'
        exact .fails (.foreign (Response.parse_reply_encode ⟨by decide, by decide⟩ _ _ _)
          (show (8 : UInt16) ≠ 7 by decide)) .silent
    | 1 =>
        obtain rfl := Option.some.inj hask
        obtain rfl := Option.some.inj hask'
        exact .same (by decide) (by decide)
          ⟨_, Response.parse_reply_encode ⟨by decide, by decide⟩ _ _ _, rfl, .inl rfl⟩

/-- The forged reply does no more than silence. -/
theorem lookup_alike_of_forged :
    Alike (forged.lookup .v4 "a.").result
        ({ forged with servers := [fun _ => .silence, knowing] }.lookup .v4 "a.").result ∧
      ({ forged with servers := [fun _ => .silence, knowing] }.lookup .v4 "a.").trace =
        (forged.lookup .v4 "a.").trace :=
  lookup_alike sameReplies_forged

end Forwarder

end DnsConnector
