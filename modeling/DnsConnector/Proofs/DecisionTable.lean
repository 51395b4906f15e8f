import DnsConnector.Proofs.AddressBook.Refusal
import DnsConnector.Proofs.AddressBook.Stability
import DnsConnector.Proofs.Decision
import DnsConnector.Proofs.Fqdn

/-!
# DnsConnector.Proofs.DecisionTable

What comes of every request.  The checks are made in the order peer, type, name,
look-up, family, filter and book, and the first one that fails decides.  The
rows before the look-up are in `DecisionTable`, those after it in `LookupTable`.

The book is touched in the last row only, and there it never leaves the asked
family out: an IPv6 address is in every record, and an IPv4 address in every one
that was requested for IPv4.  So the last row never says that there is no
address (`exists_answer_or_poolExhausted`).
-/

namespace DnsConnector

namespace Policy

variable {ε : Type}

/-- Decides about a request and does what is to be done. -/
def execute (p : Policy ε) (r : Request) (book : AddressBook) (now : Nat) :
    AddressBook × Except Failure Outcome :=
  (p.decide r).result.conclude book now

/-- The peer behind a source is identified in time. -/
def Identifies (p : Policy ε) (source : SocketAddress) (peer : PeerId) : Prop :=
  (p.whoIs source).result = .ok peer ∧ (p.whoIs source).elapsed ≤ p.whoIsTimeout

/-- The look-up of a name comes to an outcome in time. -/
def Learns (p : Policy ε) (name : Fqdn) (outcome : Except Failure (List IpAddress)) : Prop :=
  (p.lookup name.text).result = outcome ∧ (p.lookup name.text).elapsed ≤ p.lookupTimeout

/-- A decision is reached without a look-up: however look-ups go, it is the same
one, reached after the same time with the same events on the way. -/
def LooksNothingUp (p : Policy ε) (r : Request) : Prop :=
  ∀ lookup deadline,
    { p with lookup := lookup, lookupTimeout := deadline }.decide r = p.decide r

/-! ## The table -/

/-- What comes of a known peer's request for the addresses of a name. -/
structure LookupTable (p : Policy ε) (peer : PeerId) (name : Fqdn) (family : AddressFamily)
    (book : AddressBook) (now : Nat) (executed : AddressBook × Except Failure Outcome) :
    Prop where
  nxDomain_iff : executed.2 = .ok .nxDomain ↔ p.Learns name (.error .nxDomain)
  nxDomain : p.Learns name (.error .nxDomain) → executed.1 = book
  failed : ∀ e ≠ .nxDomain, p.Learns name (.error e) → executed = (book, .error e)
  late : p.lookupTimeout < (p.lookup name.text).elapsed → executed = (book, .error .queryTimeout)
  noData_iff : ∀ real, p.Learns name (.ok real) →
    (executed.2 = .ok .noData ↔ ∀ a ∈ real, family.includes a = false)
  noData : ∀ real, p.Learns name (.ok real) → (∀ a ∈ real, family.includes a = false) →
    executed.1 = book
  /-- An ignored address of either family makes the real ones the answer. -/
  real : ∀ real, p.Learns name (.ok real) → (∃ a ∈ real, family.includes a = true) →
    (∃ a ∈ real, p.ignored.lookup? a = some true) →
    executed = (book, .ok (.answer (real.filter family.includes))) ∧
      real.filter family.includes ≠ []
  /-- Otherwise the answer is the one address of the family that the book gives. -/
  synthetic : ∀ real, p.Learns name (.ok real) → (∃ a ∈ real, family.includes a = true) →
    (∀ a ∈ real, p.ignored.lookup? a ≠ some true) →
    executed.1 = (book.request peer name.text family now).1 ∧
      ((∃ addresses a, (book.request peer name.text family now).2 = .ok addresses ∧
          addresses.filter family.includes = [a] ∧ executed.2 = .ok (.answer [a])) ∨
        ∃ fault detail, (book.request peer name.text family now).2 = .error fault ∧
          fault.toFailure = .poolExhausted detail ∧ executed.2 = .error (.poolExhausted detail))

/-- What comes of a request. -/
structure DecisionTable (p : Policy ε) (r : Request) (book : AddressBook) (now : Nat) :
    Prop where
  unknown : (∀ peer, ¬p.Identifies r.source peer) →
    p.execute r book now = (book, .error (.peerNotFound r.source.text)) ∧ p.LooksNothingUp r
  otherType : ∀ peer, p.Identifies r.source peer → r.type ≠ .a → r.type ≠ .aaaa →
    p.execute r book now = (book, .ok .noData) ∧ p.LooksNothingUp r
  badName : ∀ peer family fault, p.Identifies r.source peer → familyOf r.type = some family →
    Fqdn.ofText r.domain = .error fault →
    p.execute r book now = (book, .error (.invalidDomainName fault.message)) ∧
      p.LooksNothingUp r
  lookedUp : ∀ peer family name, p.Identifies r.source peer → familyOf r.type = some family →
    Fqdn.ofText r.domain = .ok name →
    LookupTable p peer name family book now (p.execute r book now)

variable {p : Policy ε} {r : Request} {peer : PeerId} {name : Fqdn} {family : AddressFamily}
  {book : AddressBook} {now : Nat} {real : List IpAddress}

/-! ## The collaborators -/

theorem result_identify_of_identifies {source : SocketAddress} (h : p.Identifies source peer) :
    (p.identify source).result = .ok peer := by
  rw [identify, Timed.result_map, Timed.result_within, if_pos h.2, h.1]

theorem result_identify_of_unknown {source : SocketAddress}
    (h : ∀ peer, ¬p.Identifies source peer) :
    (p.identify source).result = .error (.peerNotFound source.text) := by
  cases hresult : (p.identify source).result with
  | ok peer =>
      have hwhoIs := whoIs_of_identify hresult
      rw [identify, Timed.result_map, Timed.result_within] at hresult
      split at hresult
      next hintime =>
        split at hintime
        next htime => exact absurd ⟨hwhoIs, htime⟩ (h peer)
        next => contradiction
      next => contradiction
  | error e =>
      rw [identify, Timed.result_map] at hresult
      split at hresult
      · contradiction
      · exact hresult.symm

theorem result_resolve_eq_iff {outcome : Except Failure (List IpAddress)}
    (houtcome : outcome ≠ .error .queryTimeout) :
    (p.resolve name).result = outcome ↔ p.Learns name outcome := by
  rw [result_resolve, Learns, and_comm]
  split
  next htime => exact (and_iff_right htime).symm
  next htime => exact iff_of_false houtcome.symm fun h => htime h.1

theorem result_resolve_of_learns {outcome : Except Failure (List IpAddress)}
    (h : p.Learns name outcome) : (p.resolve name).result = outcome := by
  rw [result_resolve, if_pos h.2, h.1]

/-! ## Before the look-up -/

/-- A decision that only waits for the peer, whatever look-ups there are, settles
the request without one. -/
theorem execute_of_decide {outcome : Except Failure Outcome}
    (h : ∀ lookup deadline, { p with lookup := lookup, lookupTimeout := deadline }.decide r =
      (p.identify r.source).map fun _ => .settled outcome) :
    p.execute r book now = (book, outcome) ∧ p.LooksNothingUp r := by
  have hself : p.decide r = (p.identify r.source).map fun _ => .settled outcome :=
    h p.lookup p.lookupTimeout
  refine ⟨?_, fun lookup deadline => (h lookup deadline).trans hself.symm⟩
  rw [execute, hself]
  rfl

theorem decide_of_unknown {e : Failure} (hpeer : (p.identify r.source).result = .error e) :
    p.decide r = (p.identify r.source).map fun _ => .settled (.error e) := by
  refine Timed.bind_eq_map ?_
  rw [hpeer]

theorem decide_of_otherType (hpeer : (p.identify r.source).result = .ok peer)
    (hfamily : familyOf r.type = none) :
    p.decide r = (p.identify r.source).map fun _ => .settled (.ok .noData) := by
  refine Timed.bind_eq_map ?_
  simp only [hpeer, hfamily]

theorem decide_of_badName (hpeer : (p.identify r.source).result = .ok peer)
    (hfamily : familyOf r.type = some family) {fault : NameFault}
    (hname : Fqdn.ofText r.domain = .error fault) :
    p.decide r = (p.identify r.source).map fun _ =>
      .settled (.error (.invalidDomainName fault.message)) := by
  refine Timed.bind_eq_map ?_
  simp only [hpeer, hfamily, hname]
  rfl

/-! ## After the look-up -/

theorem conclude_judge_failed {e : Failure} (he : e ≠ .nxDomain) :
    (p.judge peer name family (.error e)).conclude book now = (book, .error e) := by
  cases e <;> first | rfl | contradiction

/-- What addresses that were looked up can lead to, whatever the book. -/
theorem conclude_judge_ok_cases (p : Policy ε) (peer : PeerId) (name : Fqdn)
    (family : AddressFamily) (real : List IpAddress) (book : AddressBook) (now : Nat) :
    ((p.judge peer name family (.ok real)).conclude book now).2 = .ok .noData ∨
      (∃ addresses, ((p.judge peer name family (.ok real)).conclude book now).2 =
        .ok (.answer addresses)) ∨
      ∃ fault : AllocationFault, ((p.judge peer name family (.ok real)).conclude book now).2 =
        .error fault.toFailure := by
  simp only [judge]
  split
  · exact .inl rfl
  · split
    · exact .inr (.inl ⟨_, rfl⟩)
    · rw [Verdict.conclude]
      split
      · exact .inr (.inr ⟨_, rfl⟩)
      · split
        · exact .inr (.inl ⟨_, rfl⟩)
        · exact .inl rfl

theorem conclude_judge_eq_nxDomain_iff {outcome : Except Failure (List IpAddress)} :
    ((p.judge peer name family outcome).conclude book now).2 = .ok .nxDomain ↔
      outcome = .error .nxDomain := by
  cases outcome with
  | error e =>
      by_cases he : e = .nxDomain
      · rw [he]
        exact iff_of_true rfl rfl
      · rw [conclude_judge_failed he]
        exact iff_of_false nofun fun h => he (Except.error.inj h)
  | ok real =>
      refine iff_of_false ?_ nofun
      rcases conclude_judge_ok_cases p peer name family real book now with
        h | ⟨addresses, h⟩ | ⟨fault, h⟩ <;> rw [h] <;> nofun

theorem conclude_judge_noData (h : ∀ a ∈ real, family.includes a = false) :
    (p.judge peer name family (.ok real)).conclude book now = (book, .ok .noData) := by
  have hasked : real.filter family.includes = [] :=
    List.filter_eq_nil_iff.2 fun a ha => Bool.eq_false_iff.1 (h a ha)
  rw [judge, hasked]
  rfl

theorem filter_ne_nil (h : ∃ a ∈ real, family.includes a = true) :
    real.filter family.includes ≠ [] := by
  obtain ⟨a, ha, hfamily⟩ := h
  exact List.ne_nil_of_mem (List.mem_filter.2 ⟨ha, hfamily⟩)

theorem conclude_judge_real (hasked : ∃ a ∈ real, family.includes a = true)
    (hignored : ∃ a ∈ real, p.ignored.lookup? a = some true) :
    (p.judge peer name family (.ok real)).conclude book now =
      (book, .ok (.answer (real.filter family.includes))) := by
  have hany : p.ignored.ignoresAny real = true := by
    obtain ⟨a, ha, hflag⟩ := hignored
    exact List.any_eq_true.2 ⟨a, ha, beq_iff_eq.2 hflag⟩
  simp only [judge, List.isEmpty_iff, filter_ne_nil hasked, hany, if_false, if_true]
  rfl

theorem judge_synthetic (hasked : ∃ a ∈ real, family.includes a = true)
    (hignored : ∀ a ∈ real, p.ignored.lookup? a ≠ some true) :
    p.judge peer name family (.ok real) = .allocate peer name family := by
  have hany : p.ignored.ignoresAny real = false :=
    List.any_eq_false.2 fun a ha => fun hflag => hignored a ha (beq_iff_eq.1 hflag)
  simp only [judge, List.isEmpty_iff, filter_ne_nil hasked, hany, if_false, Bool.false_eq_true]

/-- Of the addresses that are given for one family just one belongs to it. -/
theorem filter_addresses_eq {type : RecordType} (hfamily : familyOf type = some family)
    {v4 : Option Ipv4} (v6 : Ipv6) (hneed : family.needsV4 = true → v4 ≠ none) :
    ∃ a, ((v4.map IpAddress.v4).toList ++ [IpAddress.v6 v6]).filter family.includes = [a] := by
  cases type <;> cases hfamily
  · cases v4 with
    | none => exact absurd rfl (hneed rfl)
    | some a => exact ⟨.v4 a, rfl⟩
  · cases v4 with
    | none => exact ⟨.v6 v6, rfl⟩
    | some a => exact ⟨.v6 v6, rfl⟩

/-- A book whose parts agree gives one address of the asked family or says that
there is none left. -/
theorem exists_answer_or_poolExhausted (hbook : book.Coherent) {type : RecordType}
    (hfamily : familyOf type = some family) (hname : Fqdn.ofText name.text = .ok name)
    (peer : PeerId) (now : Nat) :
    (∃ addresses a, (book.request peer name.text family now).2 = .ok addresses ∧
        addresses.filter family.includes = [a] ∧
        (Verdict.allocate peer name family).conclude book now =
          ((book.request peer name.text family now).1, .ok (.answer [a]))) ∨
      ∃ fault detail, (book.request peer name.text family now).2 = .error fault ∧
        fault.toFailure = .poolExhausted detail ∧
        (Verdict.allocate peer name family).conclude book now =
          ((book.request peer name.text family now).1, .error (.poolExhausted detail)) := by
  have hkey := AllocationKey.ofText_eq hname peer
  have hserved := AddressBook.served_request hbook.leased.recycled_eq hkey family now
  rw [Verdict.conclude]
  generalize book.request peer name.text family now = answer at hserved ⊢
  obtain ⟨book', result⟩ := answer
  cases result with
  | ok addresses =>
      obtain ⟨v6, -, heq, hneed⟩ := hserved.eq_append_v6 hbook rfl
      obtain ⟨a, ha⟩ := filter_addresses_eq hfamily v6 hneed
      rw [← heq] at ha
      refine .inl ⟨addresses, a, rfl, ha, ?_⟩
      simp only [← List.head?_filter, ha, List.head?_cons]
  | error fault =>
      obtain ⟨detail, hdetail⟩ := hserved.toFailure_eq rfl
      exact .inr ⟨fault, detail, rfl, hdetail, congrArg (fun e => (book', Except.error e)) hdetail⟩

theorem conclude_judge_eq_noData_iff (hbook : book.Coherent) {type : RecordType}
    (hfamily : familyOf type = some family) (hname : Fqdn.ofText name.text = .ok name) :
    ((p.judge peer name family (.ok real)).conclude book now).2 = .ok .noData ↔
      ∀ a ∈ real, family.includes a = false := by
  by_cases hnone : ∀ a ∈ real, family.includes a = false
  · rw [conclude_judge_noData hnone]
    exact iff_of_true rfl hnone
  · refine iff_of_false ?_ hnone
    have hasked : ∃ a ∈ real, family.includes a = true := by simpa using hnone
    by_cases hignored : ∃ a ∈ real, p.ignored.lookup? a = some true
    · rw [conclude_judge_real hasked hignored]
      nofun
    · rw [judge_synthetic hasked fun a ha hflag => hignored ⟨a, ha, hflag⟩]
      rcases exists_answer_or_poolExhausted hbook hfamily hname peer now with
        ⟨_, _, -, -, hconclude⟩ | ⟨_, _, -, -, hconclude⟩
      · rw [hconclude]
        nofun
      · rw [hconclude]
        nofun

/-! ## Every request -/

theorem execute_of_name (hpeer : p.Identifies r.source peer)
    (hfamily : familyOf r.type = some family) (hname : Fqdn.ofText r.domain = .ok name) :
    p.execute r book now =
      (p.judge peer name family (p.resolve name).result).conclude book now := by
  rw [execute, result_decide (result_identify_of_identifies hpeer) hfamily hname]

theorem lookupTable (hbook : book.Coherent) {type : RecordType}
    (hfamily : familyOf type = some family) (hname : Fqdn.ofText name.text = .ok name) :
    LookupTable p peer name family book now
      ((p.judge peer name family (p.resolve name).result).conclude book now) where
  nxDomain_iff := conclude_judge_eq_nxDomain_iff.trans (result_resolve_eq_iff nofun)
  nxDomain h := by
    rw [result_resolve_of_learns h]
    rfl
  failed e he h := by
    rw [result_resolve_of_learns h, conclude_judge_failed he]
  late h := by
    rw [result_resolve, if_neg (Nat.not_le.2 h)]
    exact conclude_judge_failed nofun
  noData_iff real h := by
    rw [result_resolve_of_learns h, conclude_judge_eq_noData_iff hbook hfamily hname]
  noData real h hasked := by
    rw [result_resolve_of_learns h, conclude_judge_noData hasked]
  real real h hasked hignored := by
    rw [result_resolve_of_learns h, conclude_judge_real hasked hignored]
    exact ⟨rfl, filter_ne_nil hasked⟩
  synthetic real h hasked hignored := by
    rw [result_resolve_of_learns h, judge_synthetic hasked hignored]
    rcases exists_answer_or_poolExhausted hbook hfamily hname peer now with
      ⟨addresses, a, hrequest, ha, hconclude⟩ | ⟨fault, detail, hrequest, hfault, hconclude⟩
    · rw [hconclude]
      exact ⟨rfl, .inl ⟨addresses, a, hrequest, ha, rfl⟩⟩
    · rw [hconclude]
      exact ⟨rfl, .inr ⟨fault, detail, hrequest, hfault, rfl⟩⟩

theorem decisionTable (hbook : book.Coherent) (p : Policy ε) (r : Request) (now : Nat) :
    DecisionTable p r book now where
  unknown h := by
    have hpeer := result_identify_of_unknown h
    exact execute_of_decide fun _ _ => decide_of_unknown (by exact hpeer)
  otherType peer h ha haaaa := by
    have hpeer := result_identify_of_identifies h
    have hfamily : familyOf r.type = none := by
      cases htype : r.type <;> first | rfl | contradiction
    exact execute_of_decide fun _ _ => decide_of_otherType (by exact hpeer) hfamily
  badName peer family fault h hfamily hname := by
    have hpeer := result_identify_of_identifies h
    exact execute_of_decide fun _ _ => decide_of_badName (by exact hpeer) hfamily hname
  lookedUp peer family name h hfamily hname := by
    rw [execute_of_name h hfamily hname]
    exact lookupTable hbook hfamily (Fqdn.ofText_text hname)

/-- **Decisions.**  After any requests to a book with the pool of a plan, whatever
is known of the peer, the name and its addresses and whatever is ignored, what
comes of a request is what the table says. -/
theorem decisionTable_run {ns : List (Network 32)} {plan : AddressPlan}
    (hplan : AddressPlan.ofNetworks ns = .ok plan) (site : Network 128) (idle : Nat)
    (calls : List Call) (p : Policy ε) (r : Request) (now : Nat) :
    DecisionTable p r ((AddressBook.empty plan.pool site idle).run calls) now :=
  decisionTable ((AddressBook.Coherent.empty (AddressPlan.nodup_pool hplan) site idle).run calls)
    p r now

/-- Every source is known, every name has an address of either family, and
nothing is ignored. -/
def openPolicy : Policy Unit where
  whoIs := fun _ => .ready (.ok ⟨"p"⟩)
  whoIsTimeout := defaultWhoIsTimeout
  lookup := fun _ => .after 20 (.ok [.v6 0x20010db8000000000000000000000001#128, .v4 0x01020304#32])
  lookupTimeout := defaultLookupTimeout
  ignored := ∅

/-- A request for the IPv4 addresses of a name. -/
def openRequest : Request := ⟨"a", .a, ⟨.v4 0x7f000001#32, 53, 0⟩⟩

/-- With the only IPv4 address of a pool in use the request fails, although the
name has a real one. -/
theorem decisionTable_run_of_exhausted :
    ∃ plan book detail, AddressPlan.ofNetworks [⟨0x0a000000#32, 30, by decide⟩] = .ok plan ∧
      book = (AddressBook.empty plan.pool (SiteNetwork.ofSite 1) 1000).run
        [⟨⟨"q"⟩, "b", .v4, 0⟩] ∧
      (openPolicy.execute openRequest book 5).2 = .error (.poolExhausted detail) := by
  have hplan : AddressPlan.ofNetworks [⟨0x0a000000#32, 30, by decide⟩] =
      .ok (.ofRoutes ⟨0x0a000000#32, 30, by decide⟩ []) := by decide
  have htable := decisionTable_run hplan (SiteNetwork.ofSite 1) 1000 [⟨⟨"q"⟩, "b", .v4, 0⟩]
    openPolicy openRequest 5
  have hrow := htable.lookedUp ⟨"p"⟩ .v4 ⟨"a."⟩ ⟨rfl, by decide⟩ rfl rfl
  obtain ⟨-, ⟨addresses, a, hrequest, -, -⟩ | ⟨fault, detail, -, -, hexecuted⟩⟩ :=
    hrow.synthetic _ ⟨rfl, by decide⟩ ⟨.v4 0x01020304#32, by decide, rfl⟩ (by decide)
  · have hrefused : Except.error (AllocationFault.noIpv4 ⟨"a."⟩) = Except.ok addresses := hrequest
    contradiction
  · exact ⟨_, _, detail, hplan, rfl, hexecuted⟩

end Policy

end DnsConnector
