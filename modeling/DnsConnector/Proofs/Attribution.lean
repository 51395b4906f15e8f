import DnsConnector.Proofs.Items
import DnsConnector.Proofs.Responder
import DnsConnector.Services
import Mathlib.Data.Finset.Card

/-!
# DnsConnector.Proofs.Attribution

Which peer a datagram is from.  Addresses are compared in canonical form, which
two addresses share iff they are of one host (`canonical_eq_canonical_iff`).  An
entry of a list changes what a directory says about one host and nothing else
(`find?_addEntry`), so that the last entry for a host decides about it (`Knows`).

Nothing else about a source has a part in what is done about its datagrams.
For a host that is known, sources are identified alike and all that follows is
the same computation; for one that is not known, all that follows is the
wording of a failure, which is never sent (`handlesAlike`).
-/

namespace DnsConnector

open Wire

/-! ## Hosts -/

namespace Ipv6

/-- The address that stands for an IPv4 address: eighty zeros, sixteen ones and
the bits of the IPv4 address. -/
def ofIpv4 (a : Ipv4) : Ipv6 := 0xffff#96 ++ a

theorem toNat_ofIpv4 (a : Ipv4) : (ofIpv4 a).toNat = 0xffff00000000 + a.toNat := by
  rw [ofIpv4, BitVec.toNat_append, ← Nat.shiftLeft_add_eq_or_of_lt a.isLt, Nat.shiftLeft_eq]
  rfl

theorem mapped?_eq_some_iff {a : Ipv6} {b : Ipv4} : mapped? a = some b ↔ a = ofIpv4 b := by
  rw [mapped?, Option.ite_none_right_eq_some, Option.some.injEq, BitVec.toNat_ushiftRight,
    Nat.shiftRight_eq_div_pow, ← BitVec.toNat_inj, ← BitVec.toNat_inj, toNat_ofIpv4,
    BitVec.toNat_setWidth]
  omega

end Ipv6

namespace IpAddress

/-- Two addresses of one host: one and the same, or an IPv4 address and the IPv6
address that stands for it. -/
inductive SameHost : IpAddress → IpAddress → Prop
  | refl (a : IpAddress) : SameHost a a
  | v4_v6 (a : Ipv4) : SameHost (.v4 a) (.v6 (.ofIpv4 a))
  | v6_v4 (a : Ipv4) : SameHost (.v6 (.ofIpv4 a)) (.v4 a)

variable {a b : IpAddress}

theorem canonical_v6_ofIpv4 (a : Ipv4) : canonical (.v6 (.ofIpv4 a)) = .v4 a := by
  rw [canonical, Ipv6.mapped?_eq_some_iff.2 rfl]

/-- An address stands for another one or for itself. -/
theorem eq_or_canonical_eq (a : IpAddress) :
    (∃ b, a = .v6 (.ofIpv4 b) ∧ a.canonical = .v4 b) ∨ a.canonical = a := by
  cases a with
  | v4 a => exact .inr rfl
  | v6 a =>
      cases h : Ipv6.mapped? a with
      | some b => exact .inl ⟨b, congrArg _ (Ipv6.mapped?_eq_some_iff.1 h), by rw [canonical, h]⟩
      | none => exact .inr (by rw [canonical, h])

theorem canonical_eq_canonical_iff : a.canonical = b.canonical ↔ SameHost a b := by
  constructor
  · intro h
    rcases a.eq_or_canonical_eq with ⟨c, rfl, hc⟩ | ha <;>
      rcases b.eq_or_canonical_eq with ⟨d, rfl, hd⟩ | hb
    · rw [hc, hd] at h
      obtain rfl := IpAddress.v4.inj h
      exact .refl _
    · rw [← hb, ← h, hc]
      exact .v6_v4 c
    · rw [← ha, h, hd]
      exact .v4_v6 d
    · rw [← ha, h, hb]
      exact .refl b
  · rintro (_ | a | a)
    · rfl
    · rw [canonical_v6_ofIpv4, canonical]
    · rw [canonical_v6_ofIpv4, canonical]

end IpAddress

/-! ## The directory of a list of entries -/

theorem PeerFault.toFailure_mk (address : String) :
    toFailure ⟨address⟩ = .invalidIpAddress (address ++ ": invalid IP address syntax") := by
  rw [toFailure, String.append_assoc]
  rfl

namespace PeerEntry

/-- The host of an entry by its canonical address. -/
def host? (e : PeerEntry) : Option IpAddress :=
  (IpAddress.ofText? e.address).map IpAddress.canonical

/-- An entry for the host that has an address. -/
def IsFor (e : PeerEntry) (a : IpAddress) : Prop :=
  ∃ b, IpAddress.ofText? e.address = some b ∧ b.SameHost a

/-- An entry read: its host and its peer. -/
def read (e : PeerEntry) : Except PeerFault (IpAddress × PeerId) :=
  match e.host? with
  | some host => .ok (host, ⟨e.id⟩)
  | none => .error ⟨e.address⟩

variable {e : PeerEntry} {a host : IpAddress} {fault : PeerFault}

theorem isFor_iff : e.IsFor a ↔ e.host? = some a.canonical := by
  rw [host?, Option.map_eq_some_iff, IsFor]
  simp only [IpAddress.canonical_eq_canonical_iff]

theorem canonical_of_host? (h : e.host? = some host) : host.canonical = host := by
  obtain ⟨a, -, rfl⟩ := Option.map_eq_some_iff.1 h
  exact a.canonical_canonical

theorem host?_eq_none_iff : e.host? = none ↔ IpAddress.ofText? e.address = none :=
  Option.map_eq_none_iff

theorem exists_read_eq_ok_iff : (∃ r, e.read = .ok r) ↔ IpAddress.ofText? e.address ≠ none := by
  rw [read, ne_eq, ← host?_eq_none_iff]
  cases e.host? with
  | none => exact iff_of_false nofun (· rfl)
  | some host => exact iff_of_true ⟨_, rfl⟩ nofun

theorem read_eq_error_iff :
    e.read = .error fault ↔ IpAddress.ofText? e.address = none ∧ fault = ⟨e.address⟩ := by
  rw [read, ← host?_eq_none_iff]
  cases e.host? with
  | none => rw [Except.error.injEq, and_iff_right rfl, eq_comm]
  | some host => exact iff_of_false nofun fun h => nomatch h.1

end PeerEntry

namespace PeerDirectory

variable {d d' : PeerDirectory} {e : PeerEntry} {es : List PeerEntry} {a : IpAddress}
  {fault : PeerFault} {peer : PeerId}

theorem addEntry_eq (d : PeerDirectory) (e : PeerEntry) :
    d.addEntry e = e.read.map fun r => ⟨d.peers.insert r.1 r.2⟩ := by
  rw [addEntry, PeerEntry.read, PeerEntry.host?]
  cases IpAddress.ofText? e.address with
  | none => rfl
  | some a => rfl

theorem ofEntries_eq_error_iff :
    ofEntries es = .error fault ↔ FirstFault PeerEntry.read es fault :=
  foldlM_eq_error_iff addEntry_eq

/-- All that an entry does to a directory. -/
theorem addEntry_eq_ok_iff :
    d.addEntry e = .ok d' ↔ ∃ host, e.host? = some host ∧ ⟨d.peers.insert host ⟨e.id⟩⟩ = d' := by
  rw [addEntry_eq, map_eq_ok_iff, PeerEntry.read]
  cases e.host? with
  | none => exact iff_of_false (fun ⟨_, h, _⟩ => nomatch h) (fun ⟨_, h, _⟩ => nomatch h)
  | some host => simp only [Except.ok.injEq, Option.some.injEq, exists_eq_left']

theorem find?_addEntry (h : d.addEntry e = .ok d') (a : IpAddress) :
    d'.find? a = if e.host? = some a.canonical then some ⟨e.id⟩ else d.find? a := by
  obtain ⟨host, hhost, rfl⟩ := addEntry_eq_ok_iff.1 h
  have hiff : e.host? = some a.canonical ↔ a.canonical = host := by
    rw [hhost, Option.some.injEq, eq_comm]
  simp only [find?, Table.get?_insert, hiff]

theorem size_addEntry (h : d.addEntry e = .ok d') {host : IpAddress} (hhost : e.host? = some host) :
    d'.size = if (d.find? host).isSome then d.size else d.size + 1 := by
  obtain ⟨host', hhost', rfl⟩ := addEntry_eq_ok_iff.1 h
  obtain rfl := Option.some.inj (hhost.symm.trans hhost')
  rw [size, Table.size_insert, find?, PeerEntry.canonical_of_host? hhost]
  rfl

/-- What is found is the last entry for the host. -/
theorem find?_of_ofEntries (h : ofEntries es = .ok d) (a : IpAddress) :
    d.find? a = (es.reverse.find? fun e => e.host? = some a.canonical).map (⟨·.id⟩) := by
  induction es using List.reverseRecOn generalizing d with
  | nil =>
      obtain rfl := Except.ok.inj h
      rfl
  | append_singleton es e ih =>
      rw [ofEntries, foldlM_append_singleton] at h
      obtain ⟨d₀, h₀, hadd⟩ := bind_eq_ok_iff.1 h
      rw [find?_addEntry hadd, ih h₀, List.reverse_append, List.reverse_singleton,
        List.singleton_append, List.find?_cons]
      by_cases hhost : e.host? = some a.canonical <;> simp [hhost]

theorem find?_eq_some_iff (h : ofEntries es = .ok d) : d.find? a = some peer ↔
    ∃ before e after, es = before ++ e :: after ∧ e.IsFor a ∧ (∀ x ∈ after, ¬x.IsFor a) ∧
      peer = ⟨e.id⟩ := by
  rw [find?_of_ofEntries h, Option.map_eq_some_iff]
  simp only [find?_reverse_eq_some_iff, PeerEntry.isFor_iff, decide_eq_true_eq, decide_eq_false_iff_not]
  constructor
  · rintro ⟨e, ⟨before, after, hes, he, hafter⟩, rfl⟩
    exact ⟨before, e, after, hes, he, hafter, rfl⟩
  · rintro ⟨before, e, after, hes, he, hafter, rfl⟩
    exact ⟨e, ⟨before, after, hes, he, hafter⟩, rfl⟩

theorem find?_eq_none_iff (h : ofEntries es = .ok d) :
    d.find? a = none ↔ ∀ e ∈ es, ¬e.IsFor a := by
  rw [find?_of_ofEntries h, Option.map_eq_none_iff, List.find?_eq_none]
  simp [PeerEntry.isFor_iff]

/-- A host counts once, however many entries there are for it. -/
theorem size_of_ofEntries (h : ofEntries es = .ok d) :
    d.size = (es.filterMap PeerEntry.host?).toFinset.card := by
  induction es using List.reverseRecOn generalizing d with
  | nil =>
      obtain rfl := Except.ok.inj h
      rfl
  | append_singleton es e ih =>
      rw [ofEntries, foldlM_append_singleton] at h
      obtain ⟨d₀, h₀, hadd⟩ := bind_eq_ok_iff.1 h
      obtain ⟨host, hhost, -⟩ := addEntry_eq_ok_iff.1 hadd
      have hset : ((es ++ [e]).filterMap PeerEntry.host?).toFinset =
          insert host (es.filterMap PeerEntry.host?).toFinset := by
        ext a
        simp [hhost]
      have hmem : (d₀.find? host).isSome = true ↔ host ∈ (es.filterMap PeerEntry.host?).toFinset := by
        rw [Option.isSome_iff_ne_none, ne_eq, find?_eq_none_iff h₀]
        simp [PeerEntry.isFor_iff, PeerEntry.canonical_of_host? hhost]
      rw [size_addEntry hadd hhost, ih h₀, hset]
      by_cases hfound : (d₀.find? host).isSome = true
      · rw [if_pos hfound, Finset.card_insert_of_mem (hmem.1 hfound)]
      · rw [if_neg hfound, Finset.card_insert_of_notMem (mt hmem.2 hfound)]

/-- What a directory of some entries says about the sources of datagrams. -/
structure Knows (es : List PeerEntry) (d : PeerDirectory) : Prop where
  /-- The last entry for the source's host decides. -/
  whoIs_eq_ok_iff : ∀ source peer, d.whoIs source = .ok peer ↔
    ∃ before e after, es = before ++ e :: after ∧ e.IsFor source.ip ∧
      (∀ x ∈ after, ¬x.IsFor source.ip) ∧ peer = ⟨e.id⟩
  whoIs_eq_error_iff : ∀ source failure, d.whoIs source = .error failure ↔
    (∀ e ∈ es, ¬e.IsFor source.ip) ∧ failure = .peerNotFound source.ip.canonical.text
  size_eq : d.size = (es.filterMap PeerEntry.host?).toFinset.card

theorem whoIs_eq_ok_iff {source : SocketAddress} :
    d.whoIs source = .ok peer ↔ d.find? source.ip = some peer := by
  rw [whoIs]
  cases d.find? source.ip with
  | none => exact iff_of_false nofun nofun
  | some p => rw [Except.ok.injEq, Option.some.injEq]

theorem whoIs_eq_error_iff {source : SocketAddress} {failure : Failure} :
    d.whoIs source = .error failure ↔
      d.find? source.ip = none ∧ failure = .peerNotFound source.ip.canonical.text := by
  rw [whoIs]
  cases d.find? source.ip with
  | none => rw [Except.error.injEq, and_iff_right rfl, eq_comm]
  | some p => exact iff_of_false nofun fun h => nomatch h.1

theorem knows_of_ofEntries (h : ofEntries es = .ok d) : Knows es d where
  whoIs_eq_ok_iff _ _ := whoIs_eq_ok_iff.trans (find?_eq_some_iff h)
  whoIs_eq_error_iff _ _ := whoIs_eq_error_iff.trans (and_congr_left' (find?_eq_none_iff h))
  size_eq := size_of_ofEntries h

theorem find?_congr {b : IpAddress} (h : a.SameHost b) (d : PeerDirectory) :
    d.find? a = d.find? b := by
  rw [find?, IpAddress.canonical_eq_canonical_iff.2 h, find?]

end PeerDirectory

/-! ## What is done about a datagram -/

section

variable {ε : Type}

/-- The same policy with peers known by a directory. -/
def Policy.identifiedBy (p : Policy ε) (d : PeerDirectory) : Policy ε :=
  { p with whoIs := fun source => .ready (d.whoIs source) }

/-- So are they in a connector at work. -/
theorem Services.policy_eq_identifiedBy (v : Services) (f : Forwarder) :
    v.policy f = (v.policy f).identifiedBy v.directory := rfl

/-- Nothing that is done about a datagram tells two sources apart. -/
structure Policy.HandlesAlike (p : Policy ε) (s t : SocketAddress) : Prop where
  /-- The book afterwards and the response. -/
  respond_eq : ∀ datagram book now, p.respond datagram s book now = p.respond datagram t book now
  /-- When the response is known. -/
  elapsed_eq : ∀ datagram, (p.draft datagram s).elapsed = (p.draft datagram t).elapsed
  waits_eq : ∀ datagram, (p.draft datagram s).waits = (p.draft datagram t).waits
  /-- What is asked on the way, and when. -/
  events_eq : ∀ datagram, (p.draft datagram s).events = (p.draft datagram t).events

namespace Policy

variable {p : Policy ε} {d : PeerDirectory} {s t : SocketAddress}

theorem within_ready {α : Type} (deadline : Nat) (a : α) :
    (Timed.ready a : Timed ε α).within deadline = .ready (some a) := by
  rw [Timed.within]
  split
  · rfl
  next h =>
    obtain rfl : deadline = 0 := Nat.eq_zero_of_not_pos h
    rfl

/-- A directory takes no time, so no deadline matters to it. -/
theorem identify_identifiedBy (p : Policy ε) (d : PeerDirectory) (s : SocketAddress) :
    (p.identifiedBy d).identify s = .ready
      (match d.find? s.ip with
        | some peer => .ok peer
        | none => .error (.peerNotFound s.text)) := by
  rw [identify, identifiedBy, within_ready, PeerDirectory.whoIs]
  cases d.find? s.ip with
  | none => rfl
  | some peer => rfl

/-- What is done about a datagram depends on who is identified behind it only. -/
theorem draft_congr (h : p.identify s = p.identify t) (datagram : Octets) :
    p.draft datagram s = p.draft datagram t := by
  simp only [draft, decide, h]

/-- A datagram from an unknown source is done with at once. -/
theorem draft_of_unknown {f : Failure} (h : p.identify s = .ready (.error f)) (datagram : Octets) :
    ∃ draft, p.draft datagram s = .ready draft ∧ ∀ d ∈ draft, d.verdict = .settled (.error f) := by
  rw [draft]
  split
  · exact ⟨none, rfl, by simp⟩
  next query _ =>
    split
    · exact ⟨none, rfl, by simp⟩
    next asked _ =>
      refine ⟨some ⟨query, asked, .settled (.error f)⟩, ?_, fun d hd => Option.some.inj hd ▸ rfl⟩
      rw [decide, h]
      rfl

theorem respond_of_unknown {f : Failure} (h : p.identify s = .ready (.error f))
    (datagram : Octets) (book : AddressBook) (now : Nat) :
    p.respond datagram s book now = (book, none) := by
  obtain ⟨draft, hdraft, hverdict⟩ := draft_of_unknown h datagram
  rw [respond, hdraft]
  cases draft with
  | none => rfl
  | some d =>
      change d.finish book now = (book, none)
      rw [Draft.finish, hverdict d rfl]
      rfl

/-- The address, the port and the scope of a source have no part in what is done
about its datagrams, beyond the host that they stand for. -/
theorem handlesAlike (p : Policy ε) (d : PeerDirectory) (h : s.ip.SameHost t.ip) :
    (p.identifiedBy d).HandlesAlike s t := by
  have hs := p.identify_identifiedBy d s
  have ht := p.identify_identifiedBy d t
  rw [← PeerDirectory.find?_congr h] at ht
  cases hfind : d.find? s.ip with
  | some peer =>
      rw [hfind] at hs ht
      have hdraft := draft_congr (hs.trans ht.symm)
      refine ⟨fun datagram book now => ?_, fun datagram => ?_, fun datagram => ?_,
        fun datagram => ?_⟩
      · rw [respond, respond, hdraft]
      · rw [hdraft]
      · rw [hdraft]
      · rw [hdraft]
  | none =>
      -- the failures differ in their wording, which nobody gets to see
      rw [hfind] at hs ht
      refine ⟨fun datagram book now => ?_, fun datagram => ?_, fun datagram => ?_,
        fun datagram => ?_⟩
      · rw [respond_of_unknown hs, respond_of_unknown ht]
      all_goals
        obtain ⟨x, hx, -⟩ := draft_of_unknown hs datagram
        obtain ⟨y, hy, -⟩ := draft_of_unknown ht datagram
        rw [hx, hy]
        rfl

end Policy

/-- The same datagram at the same time from two sources of one host, to a
connector that knows peers by a directory. -/
structure Arrival.Alike (d : PeerDirectory) (x y : Arrival ε) : Prop where
  exists_policy : ∃ p : Policy ε, x.policy = p.identifiedBy d ∧ y.policy = p.identifiedBy d
  datagram_eq : x.datagram = y.datagram
  time_eq : x.time = y.time
  sameHost : x.source.ip.SameHost y.source.ip

namespace AddressBook

variable {d : PeerDirectory} {x y : Arrival ε} {xs ys : List (Arrival ε)}

/-- The responses to datagrams, one after the other. -/
def responses (b : AddressBook) : List (Arrival ε) → List (Option Octets)
  | [] => []
  | x :: xs => (b.handle x).2 :: responses (b.handle x).1 xs

theorem handle_eq_of_alike (h : x.Alike d y) (b : AddressBook) : b.handle x = b.handle y := by
  obtain ⟨p, hx, hy⟩ := h.exists_policy
  rw [handle, handle, hx, hy, h.datagram_eq, h.time_eq]
  exact (p.handlesAlike d h.sameHost).respond_eq _ _ _

/-- Over a whole run, hosts may send from whichever of their sources they like. -/
theorem run_eq_of_alike (h : List.Forall₂ (Arrival.Alike d) xs ys) (b : AddressBook) :
    b.responses xs = b.responses ys ∧ b.handleAll xs = b.handleAll ys := by
  induction h generalizing b with
  | nil => exact ⟨rfl, rfl⟩
  | @cons x y xs ys hxy _ ih =>
      have hstep := handle_eq_of_alike hxy b
      obtain ⟨hresponses, hbook⟩ := ih (b.handle x).1
      refine ⟨?_, ?_⟩
      · rw [responses, responses, hresponses, hstep]
      · rw [handleAll, List.foldl_cons, ← handleAll, hbook, hstep]
        rfl

end AddressBook

end

namespace PeerDirectory

/-- What a list of entries makes of the sources of datagrams. -/
structure Attributes (es : List PeerEntry) : Prop where
  fails_iff : (∃ fault, ofEntries es = .error fault) ↔
    ∃ e ∈ es, IpAddress.ofText? e.address = none
  /-- The first entry without an address is the one that is reported. -/
  error_iff : ∀ failure, (ofEntries es).mapError PeerFault.toFailure = .error failure ↔
    ∃ before e after, es = before ++ e :: after ∧
      (∀ x ∈ before, IpAddress.ofText? x.address ≠ none) ∧
      IpAddress.ofText? e.address = none ∧
      failure = .invalidIpAddress (e.address ++ ": invalid IP address syntax")
  knows : ∀ d, ofEntries es = .ok d → Knows es d
  handlesAlike : ∀ d, ofEntries es = .ok d → ∀ (ε : Type) (p : Policy ε) (s t : SocketAddress),
    s.ip.SameHost t.ip → (p.identifiedBy d).HandlesAlike s t

/-- **Attribution.**  A directory is made of every list of entries that all have
addresses; if one has none, the first such entry is reported.  The directory
knows a peer for the sources of the hosts in the list and for no others, for
each the one in the last entry for the host, and its size is the number of
hosts.  A connector that knows peers by it does the same about datagrams from
all sources of a host, whatever the book is and whatever name servers say. -/
theorem attributes (es : List PeerEntry) : Attributes es where
  fails_iff := by
    simp only [ofEntries_eq_error_iff, exists_firstFault_iff, PeerEntry.read_eq_error_iff,
      exists_and_left, exists_eq, and_true]
  error_iff failure := by
    rw [mapError_eq_error_iff]
    simp only [ofEntries_eq_error_iff, FirstFault, PeerEntry.exists_read_eq_ok_iff,
      PeerEntry.read_eq_error_iff]
    constructor
    · rintro ⟨_, ⟨before, e, after, hes, hbefore, he, rfl⟩, rfl⟩
      exact ⟨before, e, after, hes, hbefore, he, PeerFault.toFailure_mk e.address⟩
    · rintro ⟨before, e, after, hes, hbefore, he, rfl⟩
      exact ⟨_, ⟨before, e, after, hes, hbefore, he, rfl⟩, PeerFault.toFailure_mk e.address⟩
  knows _ := knows_of_ofEntries
  handlesAlike d _ _ p _ _ := p.handlesAlike d

/-- A peer that comes twice, the second time by the IPv6 address that stands for
its IPv4 address. -/
def twice : List PeerEntry := [⟨"192.0.2.7", "old"⟩, ⟨"::ffff:192.0.2.7", "new"⟩]

theorem attributes_twice : ∃ d, ofEntries twice = .ok d ∧ d.size = 1 ∧
    (∀ port scope, d.whoIs ⟨.v4 0xc0000207#32, port, scope⟩ = .ok ⟨"new"⟩) ∧
    ∀ (ε : Type) (p : Policy ε), (p.identifiedBy d).HandlesAlike
      ⟨.v4 0xc0000207#32, 5353, 0⟩ ⟨.v6 (.ofIpv4 0xc0000207#32), 53, 7⟩ := by
  obtain ⟨d, hd⟩ : ∃ d, ofEntries twice = .ok d := ⟨_, rfl⟩
  have hknows := (attributes twice).knows d hd
  refine ⟨d, hd, hknows.size_eq, fun port scope => ?_, fun ε p => ?_⟩
  · rw [hknows.whoIs_eq_ok_iff]
    exact ⟨[_], _, [], rfl, ⟨.v6 (.ofIpv4 0xc0000207#32), rfl, .v6_v4 _⟩, nofun, rfl⟩
  · exact (attributes twice).handlesAlike d hd ε p _ _ (.v4_v6 _)

end PeerDirectory

end DnsConnector
