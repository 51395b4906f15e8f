import DnsConnector.Decision
import DnsConnector.Responder

/-!
# DnsConnector.Proofs.Decision

Where answers come from.  A request that is answered with addresses at all is
one of a known peer for the addresses of a name that the look-up knows: with
the real addresses of the asked family if one of the real ones is ignored, and
with one address from the book if none is (`Answered`).
-/

namespace DnsConnector

namespace Policy

variable {ε : Type} {p : Policy ε}

/-! ## The collaborators -/

/-- A peer that was identified in time is the one behind the source. -/
theorem whoIs_of_identify {source : SocketAddress} {peer : PeerId}
    (h : (p.identify source).result = .ok peer) : (p.whoIs source).result = .ok peer := by
  rw [identify, Timed.result_map, Timed.result_within] at h
  split at h
  next hresult =>
    rw [Option.ite_none_right_eq_some, Option.some.injEq] at hresult
    rw [hresult.2, Except.ok.inj h]
  · contradiction

/-- The addresses of a name, if the look-up is over in time. -/
theorem result_resolve (p : Policy ε) (name : Fqdn) :
    (p.resolve name).result =
      if (p.lookup name.text).elapsed ≤ p.lookupTimeout then (p.lookup name.text).result
      else .error .queryTimeout := by
  rw [resolve, Timed.result_map, Timed.result_within]
  by_cases htime : (p.lookup name.text).elapsed ≤ p.lookupTimeout
  · rw [if_pos htime, if_pos htime]
  · rw [if_neg htime, if_neg htime]

/-- Addresses that were looked up in time are those of the name. -/
theorem lookup_of_resolve {name : Fqdn} {real : List IpAddress}
    (h : (p.resolve name).result = .ok real) : (p.lookup name.text).result = .ok real := by
  rw [result_resolve] at h
  split at h
  · exact h
  · contradiction

/-- A request of a known peer for addresses of a name is judged by the look-up. -/
theorem result_decide {r : Request} {peer : PeerId} {name : Fqdn} {family : AddressFamily}
    (hpeer : (p.identify r.source).result = .ok peer)
    (hfamily : familyOf r.type = some family) (hname : Fqdn.ofText r.domain = .ok name) :
    (p.decide r).result = p.judge peer name family (p.resolve name).result := by
  simp only [decide, Timed.result_bind, hpeer, hfamily, hname, Timed.result_map]

/-- To give a peer an address is to make one request. -/
theorem fst_conclude_allocate (peer : PeerId) (name : Fqdn) (family : AddressFamily)
    (book : AddressBook) (now : Nat) :
    ((Verdict.allocate peer name family).conclude book now).1 =
      (book.request peer name.text family now).1 := by
  rw [Verdict.conclude]
  split
  next h => rw [h]
  next h => split <;> rw [h]

/-! ## Answers -/

/-- The ways a request comes to be answered with addresses, and the book then. -/
inductive Answered (p : Policy ε) (r : Request) (book : AddressBook) (now : Nat) :
    AddressBook → List IpAddress → Prop
  /-- There is no address to answer with. -/
  | nothing (book' : AddressBook) : Answered p r book now book' []
  /-- A real address is ignored; the real addresses are answered. -/
  | real {peer : PeerId} {family : AddressFamily} {name : Fqdn} {real : List IpAddress}
      (hpeer : (p.whoIs r.source).result = .ok peer) (hfamily : familyOf r.type = some family)
      (hname : Fqdn.ofText r.domain = .ok name)
      (hreal : (p.lookup name.text).result = .ok real)
      (hignored : p.ignored.ignoresAny real = true) :
      Answered p r book now book (real.filter family.includes)
  /-- No real address is ignored; an address of the record is answered. -/
  | synthetic {peer : PeerId} {family : AddressFamily} {name : Fqdn} {real : List IpAddress}
      {book' : AddressBook} {addresses : List IpAddress} {a : IpAddress}
      (hpeer : (p.whoIs r.source).result = .ok peer) (hfamily : familyOf r.type = some family)
      (hname : Fqdn.ofText r.domain = .ok name)
      (hreal : (p.lookup name.text).result = .ok real)
      (hignored : p.ignored.ignoresAny real = false)
      (hrequest : book.request peer name.text family now = (book', .ok addresses))
      (hfind : addresses.find? family.includes = some a) :
      Answered p r book now book' [a]

/-- `answered_of_conclude` once the look-up is over. -/
theorem answered_of_judge {r : Request} {peer : PeerId} {name : Fqdn} {family : AddressFamily}
    (hpeer : (p.whoIs r.source).result = .ok peer) (hfamily : familyOf r.type = some family)
    (hname : Fqdn.ofText r.domain = .ok name) {book book' : AddressBook} {now : Nat}
    {outcome : Outcome}
    (h : (p.judge peer name family (p.resolve name).result).conclude book now =
      (book', .ok outcome)) :
    Answered p r book now book' (Draft.contents outcome).2 := by
  cases hresolve : (p.resolve name).result with
  | error f =>
      rw [hresolve, judge, Verdict.conclude] at h
      split at h
      · obtain rfl := Except.ok.inj (congrArg Prod.snd h)
        exact .nothing book'
      · exact absurd (congrArg Prod.snd h) nofun
  | ok real =>
      have hreal := lookup_of_resolve hresolve
      simp only [hresolve, judge] at h
      split at h
      · obtain rfl := Except.ok.inj (congrArg Prod.snd h)
        exact .nothing book'
      · split at h
        next hignored =>
          obtain rfl : book = book' := congrArg Prod.fst h
          obtain rfl := Except.ok.inj (congrArg Prod.snd h)
          exact .real hpeer hfamily hname hreal hignored
        next hignored =>
          rw [Verdict.conclude] at h
          cases hrequest : book.request peer name.text family now with
          | mk book₁ result =>
              rw [hrequest] at h
              cases result with
              | error fault => exact absurd (congrArg Prod.snd h) nofun
              | ok addresses =>
                  cases hfind : addresses.find? family.includes with
                  | none =>
                      simp only [hfind] at h
                      obtain rfl := Except.ok.inj (congrArg Prod.snd h)
                      exact .nothing book'
                  | some a =>
                      simp only [hfind] at h
                      obtain rfl : book₁ = book' := congrArg Prod.fst h
                      obtain rfl := Except.ok.inj (congrArg Prod.snd h)
                      exact .synthetic hpeer hfamily hname hreal (Bool.eq_false_iff.2 hignored)
                        hrequest hfind

/-- The verdict about a request, if it is carried out, answers it in one of
these ways. -/
theorem answered_of_conclude {r : Request} {book book' : AddressBook} {now : Nat}
    {outcome : Outcome} (h : (p.decide r).result.conclude book now = (book', .ok outcome)) :
    Answered p r book now book' (Draft.contents outcome).2 := by
  rw [decide, Timed.result_bind] at h
  cases hpeer : (p.identify r.source).result with
  | error f =>
      rw [hpeer] at h
      exact absurd (congrArg Prod.snd h) nofun
  | ok peer =>
      simp only [hpeer] at h
      split at h
      · obtain rfl := Except.ok.inj (congrArg Prod.snd h)
        exact .nothing book'
      next family hfamily =>
        split at h
        · exact absurd (congrArg Prod.snd h) nofun
        next name hname =>
          exact answered_of_judge (whoIs_of_identify hpeer) hfamily hname h

end Policy

end DnsConnector
