import DnsConnector.Proofs.Decision
import DnsConnector.Proofs.Forwarder
import DnsConnector.Proofs.Wire.Lookup

/-!
# DnsConnector.Proofs.Forwarding

What peers are told while name servers fail.  A question for addresses of one
type makes queries for both types.  If no server settles the asked type, the
question is not answered, unless the servers know addresses of the other type:
then it is answered as if there were none of the asked type
(`noData_of_not_settled`).
-/

namespace DnsConnector

open Wire Forwarder

/-- The type of a question for addresses that is looked up beside it. -/
def RecordType.sibling? : RecordType → Option RecordType
  | .a => some .aaaa
  | .aaaa => some .a
  | _ => none

/-- A datagram that asks for just this. -/
def Request.IsOf (r : Request) (datagram : Octets) : Prop :=
  ∃ query asked, Query.parse datagram = .ok query ∧ query.asked = some asked ∧
    r.domain = asked.domain ∧ r.type = RecordType.ofCode asked.question.type

/-! ## Both types -/

namespace Forwarder

variable {f : Forwarder} {host : String} {type other : RecordType} {family : AddressFamily}
  {outcomes : List (Except Failure (List IpAddress))}

/-- With one query failed for the time being, a look-up comes to what the other
one found, if it found anything. -/
theorem merge_of_failed {e : Failure} (he : .error e ∈ outcomes) (hfail : e.isNotFound = false)
    {outcome : Except Failure (List IpAddress)} (hfound : found outcomes = found [outcome]) :
    (∃ as, outcome = .ok as ∧ as ≠ [] ∧ merge outcomes = .ok as) ∨
      (¬∃ as, outcome = .ok as ∧ as ≠ []) ∧
        ∃ e', merge outcomes = .error e' ∧ e'.isNotFound = false := by
  by_cases hany : ∃ as, outcome = .ok as ∧ as ≠ []
  · obtain ⟨as, rfl, has⟩ := hany
    refine .inl ⟨as, rfl, has, merge_eq_ok_iff.2 ⟨?_, has⟩⟩
    simpa [found] using hfound
  · refine .inr ⟨hany, exists_merge_eq_error ?_ he hfail⟩
    rw [hfound]
    cases outcome with
    | error e => rfl
    | ok as =>
        by_cases has : as = []
        · rw [has]
          rfl
        · exact absurd ⟨as, rfl, has⟩ hany

/-- The two outcomes that a look-up of both types puts together. -/
theorem lookup_both_cases (f : Forwarder) (host : String) (htype : type.sibling? = some other) :
    ∃ outcomes, (f.lookup .both host).result = merge outcomes ∧
      (f.ask host type).result ∈ outcomes ∧
      ∀ e, (f.ask host type).result = .error e →
        found outcomes = found [(f.ask host other).result] := by
  refine ⟨[(f.ask host .a).result, (f.ask host .aaaa).result], rfl, ?_⟩
  cases type <;> cases htype
  · exact ⟨List.mem_cons_self, fun e he => by rw [he]; rfl⟩
  · refine ⟨List.mem_cons_of_mem _ List.mem_cons_self, fun e he => ?_⟩
    rw [he]
    simp [found]

/-- An address of the other type is not of the family that was asked for. -/
theorem not_includes_of_isOfType (htype : type.sibling? = some other)
    (hfamily : Policy.familyOf type = some family) {a : IpAddress} (ha : isOfType other a = true) :
    ¬family.includes a = true := by
  cases type <;> cases htype <;> cases hfamily <;> cases a <;> first | contradiction | nofun

/-- What a look-up of both types comes to if no server settles one of them. -/
theorem lookup_both_of_not_settled (hfail : ∀ ask ∈ f.servers, ask.FailsTransiently)
    (htype : type.sibling? = some other) (hfamily : Policy.familyOf type = some family)
    (hsettled : ¬f.Settled host type) :
    (∃ real, f.Finds host other ∧ (f.lookup .both host).result = .ok real ∧
        real.filter family.includes = []) ∨
      ¬f.Finds host other ∧
        ∃ e, (f.lookup .both host).result = .error e ∧ e.isNotFound = false := by
  obtain ⟨outcomes, hlookup, hmem, hfound⟩ := lookup_both_cases f host htype
  have hfinal : isFinal (f.ask host type).result = false :=
    Bool.eq_false_iff.2 fun h => hsettled ((isFinal_ask_iff hfail).1 h)
  cases hask : (f.ask host type).result with
  | ok as =>
      rw [hask] at hfinal
      contradiction
  | error e =>
      rw [hask] at hmem hfinal
      rw [hlookup]
      rcases merge_of_failed hmem hfinal (hfound e hask) with
        ⟨as, hother, has, hmerge⟩ | ⟨hnone, e', hmerge, he'⟩
      · refine .inl ⟨as, ⟨as, hother, has⟩, hmerge, List.filter_eq_nil_iff.2 fun a ha => ?_⟩
        exact not_includes_of_isOfType htype hfamily (isOfType_of_ask hother a ha)
      · exact .inr ⟨hnone, e', hmerge, he'⟩

end Forwarder

/-! ## What a peer is told -/

namespace Policy

variable {ε : Type} {p : Policy ε} {r : Request} {peer : PeerId} {name : Fqdn}
  {family : AddressFamily} {book : AddressBook} {now : Nat}

/-- A request is refused: it has no outcome, and nothing is sent. -/
def Refuses (p : Policy ε) (r : Request) (book : AddressBook) (now : Nat) : Prop :=
  (∃ e, (p.decide r).result.conclude book now = (book, .error e)) ∧
    ∀ datagram, r.IsOf datagram → p.respond datagram r.source book now = (book, none)

/-- A failure refuses a request. -/
theorem refuses_of_result_decide {e : Failure} (h : (p.decide r).result = .settled (.error e)) :
    p.Refuses r book now := by
  refine ⟨⟨e, by rw [h]; rfl⟩, ?_⟩
  rintro datagram ⟨query, asked, hparse, hasked, hdomain, htype⟩
  have hr : (⟨asked.domain, RecordType.ofCode asked.question.type, r.source⟩ : Request) = r := by
    rw [← hdomain, ← htype]
  simp only [respond, draft, hparse, hasked, hr, Timed.result_map, h]
  rfl

/-- A request of a known peer for addresses of a text that is no name is refused. -/
theorem refuses_of_badName (hpeer : (p.identify r.source).result = .ok peer)
    (hfamily : familyOf r.type = some family) {fault : NameFault}
    (hname : Fqdn.ofText r.domain = .error fault) (book : AddressBook) (now : Nat) :
    p.Refuses r book now := by
  refine refuses_of_result_decide (e := fault.toFailure) ?_
  simp only [decide, Timed.result_bind, hpeer, hfamily, hname, Timed.ready]

/-- A look-up that fails for the time being refuses a request. -/
theorem refuses_of_resolve (hpeer : (p.identify r.source).result = .ok peer)
    (hfamily : familyOf r.type = some family) (hname : Fqdn.ofText r.domain = .ok name)
    {e : Failure} (hresolve : (p.resolve name).result = .error e) (he : e.isNotFound = false) :
    p.Refuses r book now := by
  refine refuses_of_result_decide (e := e) ?_
  rw [result_decide hpeer hfamily hname, hresolve, judge, if_neg (by rw [he]; exact Bool.false_ne_true)]

/-- A look-up in time that finds no address of the asked family says so. -/
theorem conclude_noData_of_resolve (hpeer : (p.identify r.source).result = .ok peer)
    (hfamily : familyOf r.type = some family) (hname : Fqdn.ofText r.domain = .ok name)
    {real : List IpAddress} (hresolve : (p.resolve name).result = .ok real)
    (hreal : real.filter family.includes = []) :
    (p.decide r).result.conclude book now = (book, .ok .noData) := by
  rw [result_decide hpeer hfamily hname, hresolve]
  simp only [judge, hreal, List.isEmpty_nil, if_true]
  rfl

section Forwarding

variable {p : Policy SentQuery} {f : Forwarder} {other : RecordType}

/-- Both types that are looked up together ask for addresses. -/
theorem exists_familyOf {type other : RecordType} (htype : type.sibling? = some other) :
    ∃ family, familyOf type = some family := by
  cases type <;> cases htype <;> exact ⟨_, rfl⟩

/-- Servers find addresses of a type, and do so in the time allowed. -/
def FindsInTime (p : Policy SentQuery) (f : Forwarder) (name : Fqdn) (type : RecordType) : Prop :=
  f.Finds name.text type ∧ (f.lookup .both name.text).elapsed ≤ p.lookupTimeout

/-- What becomes of a request for a name that no server settles for its type. -/
theorem refuses_or_findsInTime (hlookup : p.lookup = f.lookup .both)
    (hfail : ∀ ask ∈ f.servers, ask.FailsTransiently)
    (hpeer : (p.identify r.source).result = .ok peer) (htype : r.type.sibling? = some other)
    (hname : Fqdn.ofText r.domain = .ok name) (hsettled : ¬f.Settled name.text r.type)
    (book : AddressBook) (now : Nat) :
    p.FindsInTime f name other ∧ (p.decide r).result.conclude book now = (book, .ok .noData) ∨
      ¬p.FindsInTime f name other ∧ p.Refuses r book now := by
  obtain ⟨family, hfamily⟩ := exists_familyOf htype
  have hresolve := result_resolve p name
  rw [hlookup] at hresolve
  by_cases htime : (f.lookup .both name.text).elapsed ≤ p.lookupTimeout
  · rw [if_pos htime] at hresolve
    rcases Forwarder.lookup_both_of_not_settled hfail htype hfamily hsettled with
      ⟨real, hfinds, hreal, hnone⟩ | ⟨hfinds, e, he, htransient⟩
    · exact .inl ⟨⟨hfinds, htime⟩,
        conclude_noData_of_resolve hpeer hfamily hname (hresolve.trans hreal) hnone⟩
    · exact .inr ⟨fun h => hfinds h.1,
        refuses_of_resolve hpeer hfamily hname (hresolve.trans he) htransient⟩
  · rw [if_neg htime] at hresolve
    exact .inr ⟨fun h => htime h.2, refuses_of_resolve hpeer hfamily hname hresolve rfl⟩

/-- **No definitive reply.**  A known peer that asks for addresses of a name is
told that there are none only if some server settles this, or if addresses of
the other type are found in time.  If no server settles it, the latter decides
between this reply and none at all. -/
theorem noData_of_not_settled (hlookup : p.lookup = f.lookup .both)
    (hfail : ∀ ask ∈ f.servers, ask.FailsTransiently)
    (hpeer : (p.identify r.source).result = .ok peer) (htype : r.type.sibling? = some other)
    (book : AddressBook) (now : Nat) :
    (∀ book', (p.decide r).result.conclude book now = (book', .ok .noData) →
        ∃ name, Fqdn.ofText r.domain = .ok name ∧
          (f.Settled name.text r.type ∨ p.FindsInTime f name other)) ∧
      (∀ name, Fqdn.ofText r.domain = .ok name → ¬f.Settled name.text r.type →
        p.FindsInTime f name other →
        (p.decide r).result.conclude book now = (book, .ok .noData)) ∧
      ((∀ name, Fqdn.ofText r.domain = .ok name →
          ¬f.Settled name.text r.type ∧ ¬p.FindsInTime f name other) →
        p.Refuses r book now) := by
  obtain ⟨family, hfamily⟩ := exists_familyOf htype
  have hcases := fun name (hname : Fqdn.ofText r.domain = .ok name) hsettled =>
    refuses_or_findsInTime hlookup hfail hpeer htype hname hsettled book now
  have hbad := fun fault (hname : Fqdn.ofText r.domain = .error fault) =>
    refuses_of_badName hpeer hfamily hname book now
  refine ⟨fun book' h => ?_, fun name hname hsettled hfinds => ?_, fun h => ?_⟩
  · cases hname : Fqdn.ofText r.domain with
    | error fault =>
        obtain ⟨⟨e, he⟩, -⟩ := hbad fault hname
        exact absurd (congrArg Prod.snd (h.symm.trans he)) nofun
    | ok name =>
        refine ⟨name, rfl, Classical.or_iff_not_imp_left.2 fun hsettled => ?_⟩
        rcases hcases name hname hsettled with ⟨hfinds, -⟩ | ⟨-, ⟨e, he⟩, -⟩
        · exact hfinds
        · exact absurd (congrArg Prod.snd (h.symm.trans he)) nofun
  · rcases hcases name hname hsettled with ⟨-, hnoData⟩ | ⟨hnone, -⟩
    · exact hnoData
    · exact absurd hfinds hnone
  · cases hname : Fqdn.ofText r.domain with
    | error fault => exact hbad fault hname
    | ok name =>
        obtain ⟨hsettled, hnone⟩ := h name hname
        rcases hcases name hname hsettled with ⟨hfinds, -⟩ | ⟨-, hrefuses⟩
        · exact absurd hfinds hnone
        · exact hrefuses

end Forwarding

/-! ## A server that fails for one type -/

/-- A server that fails for the IPv4 addresses of a name and has an IPv6 address. -/
def lame : NameServer := fun octets =>
  if octets = Lookup.encode 0 (Lookup.question [[0x61]] .a) then
    .reply 1 (Response.encode ⟨0, true, none⟩ (Lookup.question [[0x61]] .a)
      ResponseCode.serverFailure [])
  else
    .reply 1 (Response.encode ⟨0, true, none⟩ (Lookup.question [[0x61]] .aaaa)
      ResponseCode.noError [.v6 0x20010db8000000000000000000000001#128])

/-- A forwarder that has no other server. -/
def lameForwarder : Forwarder := ⟨[lame], 1000, fun _ _ => 0⟩

/-- A policy that has no other forwarder. -/
def lamePolicy : Policy SentQuery where
  whoIs := fun _ => .ready (.ok ⟨"p"⟩)
  whoIsTimeout := 1000
  lookup := lameForwarder.lookup .both
  lookupTimeout := 2000
  ignored := ∅

/-- A request for the IPv4 addresses of the name. -/
def lameRequest : Request := ⟨"a", .a, ⟨.v4 0x7f000001#32, 53, 0⟩⟩

theorem failsTransiently_lame : ∀ ask ∈ lameForwarder.servers, ask.FailsTransiently := by
  refine List.forall_mem_singleton.2 fun query delay reason h => ?_
  rw [lame] at h
  split at h <;> contradiction

/-- The server settles nothing about IPv4 addresses. -/
theorem not_settled_lame : ¬lameForwarder.Settled "a." .a := by
  rintro ⟨server, ask, hask, query, delay, octets, hquery, hreply, -, reply, hparse, -, hcode⟩
  obtain rfl := List.mem_singleton.1 (List.mem_of_getElem? hask)
  obtain rfl : Lookup.encode 0 (Lookup.question [[0x61]] .a) = query := Except.ok.inj hquery
  rw [lame, if_pos rfl] at hreply
  obtain ⟨-, rfl⟩ := Delivery.reply.inj hreply
  rw [Response.parse_reply_encode ⟨by decide, by decide⟩] at hparse
  obtain rfl := Except.ok.inj hparse
  revert hcode
  decide

/-- It finds an IPv6 address in time. -/
theorem findsInTime_lame : lamePolicy.FindsInTime lameForwarder ⟨"a."⟩ .aaaa := by
  have hne : Lookup.encode 0 (Lookup.question [[0x61]] .aaaa) ≠
      Lookup.encode 0 (Lookup.question [[0x61]] .a) := by decide
  have hexchange : (lameForwarder.exchange 0 lame "a." .aaaa).result = .ok _ :=
    result_exchange_of_reply rfl (if_neg hne) (show 1 ≤ 1000 by decide)
      (Response.parse_reply_encode ⟨by decide, by decide⟩ ⟨0, true, none⟩ _ _) rfl rfl
  have hask : (lameForwarder.ask "a." .aaaa).result =
      .ok [.v6 0x20010db8000000000000000000000001#128] := by
    rw [Forwarder.ask]
    simp only [lameForwarder, askFrom, Timed.result_bind] at hexchange ⊢
    rw [hexchange]
    rfl
  exact ⟨⟨_, hask, List.cons_ne_nil _ _⟩,
    Nat.le_trans (elapsed_lookup_both_le lameForwarder "a.") (by decide)⟩

/-- A peer that asks for an IPv4 address is told that there is none. -/
theorem noData_of_not_settled_of_lame :
    (∀ ask ∈ lameForwarder.servers, ask.FailsTransiently) ∧
      ¬lameForwarder.Settled "a." .a ∧ lamePolicy.FindsInTime lameForwarder ⟨"a."⟩ .aaaa ∧
      ∀ book now, (lamePolicy.decide lameRequest).result.conclude book now =
        (book, .ok .noData) := by
  refine ⟨failsTransiently_lame, not_settled_lame, findsInTime_lame, fun book now => ?_⟩
  have hreply := noData_of_not_settled (p := lamePolicy) (r := lameRequest) rfl
    failsTransiently_lame rfl rfl book now
  exact hreply.2.1 ⟨"a."⟩ rfl not_settled_lame findsInTime_lame

/-- Not every such reply is settled by a server, although servers fail for the
time being only: a server that fails for the asked type is passed over if it
has addresses of the other type. -/
theorem noData_not_settled :
    ¬∀ (p : Policy SentQuery) (f : Forwarder) (r : Request) (peer : PeerId) (other : RecordType)
      (book book' : AddressBook) (now : Nat), p.lookup = f.lookup .both →
      (∀ ask ∈ f.servers, ask.FailsTransiently) →
      (p.identify r.source).result = .ok peer → r.type.sibling? = some other →
      (p.decide r).result.conclude book now = (book', .ok .noData) →
      ∃ name, Fqdn.ofText r.domain = .ok name ∧ f.Settled name.text r.type := by
  intro h
  have hname : Fqdn.ofText lameRequest.domain = .ok ⟨"a."⟩ := rfl
  have hcases := refuses_or_findsInTime (p := lamePolicy) rfl failsTransiently_lame rfl rfl hname
    not_settled_lame (.empty (AddressPlan.ofRoutes ⟨0x0a000000#32, 30, by decide⟩ []).pool
      (SiteNetwork.ofSite 1) 0) 0
  rcases hcases with ⟨-, hnoData⟩ | ⟨hnone, -⟩
  · obtain ⟨name, hname', hsettled⟩ :=
      h _ _ _ _ _ _ _ _ rfl failsTransiently_lame rfl rfl hnoData
    obtain rfl := Except.ok.inj (hname.symm.trans hname')
    exact not_settled_lame hsettled
  · exact hnone findsInTime_lame

end Policy

end DnsConnector
