import DnsConnector.Proofs.AddressBook.LastUse

/-!
# DnsConnector.Proofs.AddressBook.Reclaim

Who may lose an IPv4 address to whom.  A request leaves the records of other
keys as they are, but for one: if nothing is available, the search may give it
the address of the holder it finds (`Served.others`).  The search looks at the
book as it was before the request (`findIdle_touch`, `findIdle_prepared`), so
the holder has been idle for as long as the limit says, and by `Recorded.run`
nobody asked for it in that time (`loses_run`).
-/

namespace DnsConnector.AddressBook

open Call

variable {b b' : AddressBook} {k k' : AllocationKey} {i now : Nat} {family : AddressFamily}
  {r : AddressBook × Except AllocationFault (List IpAddress)}

/-! ## The search of a request -/

/-- Nothing is available iff the pool is used up. -/
theorem Leased.available_eq_zero_iff {loose : List Ipv4} (hb : Leased loose b) :
    b.available = 0 ↔ b.pool.get? b.handedOut = none := by
  have hle := hb.handedOut_le
  rw [available, hb.recycled_eq, List.length_nil, HostPool.get?_eq_getElem?_toList,
    List.getElem?_eq_none_iff, HostPool.length_toList]
  omega

/-- What a search finds is idle. -/
theorem mem_queue_of_findIdle {queue : List Holder} {x : Holder}
    (h : b.findIdle now = (queue, some x)) :
    x ∈ b.queue ∧ b.idleLimit ≤ now - b.lastUsedAt x.number := by
  obtain ⟨front, rest, hqueue, -, -, -, hidle⟩ := Holder.search_eq_some_iff.1 h
  rw [hqueue]
  exact ⟨by simp, hidle⟩

/-- A search depends on the queue and the last uses of its holders. -/
theorem findIdle_congr (hqueue : b'.queue = b.queue) (hidle : b'.reclaimIdle = b.reclaimIdle)
    (hused : ∀ x ∈ b.queue, b'.lastUsedAt x.number = b.lastUsedAt x.number) :
    b'.findIdle now = b.findIdle now := by
  rw [findIdle, findIdle, idleLimit, idleLimit, hqueue, hidle]
  exact Holder.search_congr _ hused

/-- A search for a record without IPv4 address does not see that it was used. -/
theorem findIdle_touch (hb : Coherent b) (hkey : b.records.get? k = some i)
    (hv4 : b.v4At i = none) : (b.touch i now).findIdle now = b.findIdle now := by
  refine findIdle_congr rfl rfl fun x hx => ?_
  have hne : x.number ≠ i := by
    rintro rfl
    have hx4 := hb.leased.v4At_number hx
    rw [hv4] at hx4
    contradiction
  rw [lastUsedAt_touch (hb.filed.lt_length k i hkey), if_neg hne]

/-- A search for a new key does not see its allocation. -/
theorem findIdle_prepared (hb : Coherent b) (v6 : Ipv6) :
    (b.prepared v6 now).findIdle now = b.findIdle now := by
  refine findIdle_congr rfl rfl fun x hx => ?_
  have hne : x.number ≠ b.allocations.length :=
    Nat.ne_of_lt (hb.filed.lt_length x.key x.number (hb.filed.own_key x hx))
  exact (lastUsedAt_add v6 now x.number).trans (if_neg hne)

/-! ## What a request does to others -/

/-- An allocation that is granted an address gets it from the pool, and no
other key's changes, or from the one holder that is found. -/
theorem Granted.v4At_cases {own : AllocationKey → Option Nat}
    (hgranted : Granted b k i family now b') (hfiled : Filed own b) (hk : own k = some i) :
    (∀ k', k' ≠ k → (own k').bind b'.v4At = (own k').bind b.v4At) ∨
      ∃ queue x, family.needsV4 = true ∧ b.v4At i = none ∧ b.pool.get? b.handedOut = none ∧
        b.findIdle now = (queue, some x) ∧ b'.v4At i = some x.address ∧
        ∀ k', k' ≠ k →
          (own k').bind b'.v4At = if k' = x.key then none else (own k').bind b.v4At := by
  have hi : i < b.allocations.length := hfiled.lt_length k i hk
  have hother : ∀ k' j, k' ≠ k → own k' = some j → j ≠ i := by
    rintro k' j hne hj rfl
    exact hne (hfiled.injective k' k j hj hk)
  cases hgranted with
  | unneeded => exact .inl fun _ _ => rfl
  | kept => exact .inl fun _ _ => rfl
  | fresh =>
      left
      intro k' hne
      cases hj : own k' with
      | none => rfl
      | some j =>
          rw [Option.bind_some, Option.bind_some, v4At_hold k (by exact hi),
            if_neg (hother k' j hne hj)]
          rfl
  | @reclaimed queue x hneed hv4 hdry hfind =>
      have hafter : ∀ j, (({ b with queue }.release x).hold k i x.address).v4At j =
          if j = i then some x.address else if j = x.number then none else b.v4At j := by
        intro j
        rw [v4At_hold k (by simpa using hi), v4At_release]
        rfl
      have hx : own x.key = some x.number := hfiled.own_key x (mem_queue_of_findIdle hfind).1
      refine .inr ⟨queue, x, hneed, hv4, hdry, hfind, by rw [hafter, if_pos rfl], ?_⟩
      intro k' hne
      cases hj : own k' with
      | none => simp
      | some j =>
          rw [Option.bind_some, Option.bind_some, hafter, if_neg (hother k' j hne hj)]
          by_cases hk' : k' = x.key
          · subst hk'
            obtain rfl := Option.some.inj (hx.symm.trans hj)
            rw [if_pos rfl, if_pos rfl]
          · have hne' : j ≠ x.number := by
              rintro rfl
              exact hk' (hfiled.injective k' x.key _ hj hx)
            rw [if_neg hk', if_neg hne']

/-- A request for a key takes the IPv4 address of a holder: it needs one, has
none, nothing is available and the holder is found. -/
structure Reclaims (b : AddressBook) (k : AllocationKey) (family : AddressFamily) (now : Nat)
    (x : Holder) : Prop where
  need : family.needsV4 = true
  v4?_eq : b.v4? k = none
  available_eq : b.available = 0
  find : ∃ queue, b.findIdle now = (queue, some x)

/-- `Served.others` for an allocation in the book `b₀` that was made ready for
it, in which other keys have what they had before. -/
theorem Granted.others {b₀ : AddressBook} {own : AllocationKey → Option Nat} {v6 : Ipv6}
    (hgranted : Granted b₀ k i family now b') (hfiled : Filed own b₀) (hk : own k = some i)
    (hv6 : b₀.v6At i = some v6) (hbefore : ∀ k', k' ≠ k → (own k').bind b₀.v4At = b.v4? k')
    (hreclaims : ∀ queue x, family.needsV4 = true → b₀.v4At i = none →
      b₀.pool.get? b₀.handedOut = none → b₀.findIdle now = (queue, some x) →
      Reclaims b k family now x) :
    (∀ k', k' ≠ k → (own k').bind b'.v4At = b.v4? k') ∨
      ∃ x, Reclaims b k family now x ∧ b'.addressesAt i = [.v4 x.address, .v6 v6] ∧
        ∀ k', k' ≠ k → (own k').bind b'.v4At = if k' = x.key then none else b.v4? k' := by
  rcases hgranted.v4At_cases hfiled hk with
    hsame | ⟨queue, x, hneed, hv4, hdry, hfind, hgot, hlost⟩
  · exact .inl fun k' hne => (hsame k' hne).trans (hbefore k' hne)
  · refine .inr ⟨x, hreclaims queue x hneed hv4 hdry hfind, ?_, fun k' hne => ?_⟩
    · rw [addressesAt_eq ((hgranted.sameBesidesV4.v6At_eq i).trans hv6), hgot]
      rfl
    · rw [hlost k' hne, hbefore k' hne]

/-- The records of other keys keep their IPv4 addresses, or one of them loses
its own to the request. -/
theorem Served.others (h : Served b k family now r) (hb : Coherent b) :
    (∀ k', k' ≠ k → r.1.v4? k' = b.v4? k') ∨
      ∃ x v6, Reclaims b k family now x ∧ r.2 = .ok [.v4 x.address, .v6 v6] ∧
        ∀ k', k' ≠ k → r.1.v4? k' = if k' = x.key then none else b.v4? k' := by
  cases h with
  | noIpv6 => exact .inl fun _ _ => rfl
  | refusedNew => exact .inl fun _ _ => rfl
  | @created v6 b' hkey _ hgranted =>
      have hself := withKey_self b.records.get? k b.allocations.length
      have hv6 : (b.prepared v6 now).v6At b.allocations.length = some v6 :=
        (v6At_add v6 now _).trans (if_pos rfl)
      have hbefore : ∀ k', k' ≠ k →
          (withKey b.records.get? k b.allocations.length k').bind (b.prepared v6 now).v4At =
            b.v4? k' := by
        intro k' hne
        rw [withKey_of_ne hne, v4?]
        exact congrArg _ (funext (v4At_add v6 now))
      have hv4 : b.v4? k = none := by
        rw [v4?, hkey]
        rfl
      have hothers := hgranted.others (hb.filed.prepared hkey v6 now) hself hv6 hbefore
        fun queue x hneed _ hdry hfind =>
          ⟨hneed, hv4, hb.leased.available_eq_zero_iff.2 hdry, queue,
            (findIdle_prepared hb v6).symm.trans hfind⟩
      rw [← hgranted.get?_records_file] at hothers
      rcases hothers with hsame | ⟨x, hreclaims, hanswer, hlost⟩
      · exact .inl hsame
      · exact .inr ⟨x, v6, hreclaims, congrArg Except.ok hanswer, hlost⟩
  | refused hkey => exact .inl fun k' _ => congrArg _ (funext fun j => v4At_touch _ now j)
  | @renewed i b' hkey hgranted =>
      obtain ⟨v6, hv6⟩ := hb.filed.exists_v6At hkey
      have hbefore : ∀ k', k' ≠ k → (b.records.get? k').bind (b.touch i now).v4At = b.v4? k' :=
        fun k' _ => congrArg _ (funext fun j => v4At_touch i now j)
      have hothers := hgranted.others (hb.filed.touch i now) hkey
        ((v6At_touch i now i).trans hv6) hbefore
        fun queue x hneed hv4 hdry hfind => by
          rw [v4At_touch] at hv4
          have hv4' : b.v4? k = none := by rw [v4?, hkey, Option.bind_some, hv4]
          exact ⟨hneed, hv4', hb.leased.available_eq_zero_iff.2 hdry, queue,
            (findIdle_touch hb hkey hv4).symm.trans hfind⟩
      have hrecords : b'.records.get? = b.records.get? :=
        congrArg Table.get? hgranted.sameBesidesV4.records_eq
      rw [← hrecords] at hothers
      rcases hothers with hsame | ⟨x, hreclaims, hanswer, hlost⟩
      · exact .inl hsame
      · exact .inr ⟨x, v6, hreclaims, congrArg Except.ok hanswer, hlost⟩

/-- The IPv6 address of another key never changes. -/
theorem Served.v6?_of_ne (h : Served b k family now r) (hfiled : Filed b.records.get? b)
    (hne : k' ≠ k) : r.1.v6? k' = b.v6? k' := by
  cases h with
  | noIpv6 => rfl
  | refusedNew => rfl
  | created _ _ hgranted => rw [hgranted.v6?_file hfiled, if_neg hne]
  | @refused i => exact v6?_touch (b := b) i now k'
  | renewed _ hgranted => exact (hgranted.sameBesidesV4.v6?_eq k').trans (v6?_touch _ now k')

/-! ## Losing an address -/

/-- A request makes the record of another key lose its IPv4 address. -/
structure Loses (b : AddressBook) (c : Call) (k : AllocationKey) (a : Ipv4) : Prop where
  key_ne : c.key? ≠ some k
  before : b.v4? k = some a
  after : (b.answer c).1.v4? k ≠ some a

/-- A request may take an IPv4 address from a key: nothing is available, it
needs an address for a key without one and is given exactly this one, and all
requests for the loser so far were made long enough ago. -/
structure MayTake (calls : List Call) (idle : Nat) (b : AddressBook) (c : Call)
    (k : AllocationKey) (a : Ipv4) : Prop where
  available_eq : b.available = 0
  need : c.family.needsV4 = true
  v4?_eq : ∃ k', c.key? = some k' ∧ b.v4? k' = none
  answer_eq : ∃ v6, (b.answer c).2 = .ok [.v4 a, .v6 v6]
  idle : ∀ e ∈ calls, e.key? = some k → e.time + idle ≤ c.time

variable {c : Call} {calls : List Call} {a a' : Ipv4}

/-- `Served.others` for requests of any text. -/
theorem answer_others (hb : Coherent b) (c : Call) :
    (∀ k, c.key? ≠ some k → (b.answer c).1.v4? k = b.v4? k) ∨
      ∃ k' x v6, c.key? = some k' ∧ Reclaims b k' c.family c.time x ∧
        (b.answer c).2 = .ok [.v4 x.address, .v6 v6] ∧
        ∀ k, c.key? ≠ some k →
          (b.answer c).1.v4? k = if k = x.key then none else b.v4? k := by
  rcases served_answer hb.leased.recycled_eq c with ⟨k', hkey, hserved⟩ | ⟨fault, -, hsame⟩
  · have hne : ∀ k, c.key? ≠ some k → k ≠ k' := by
      rintro k hk rfl
      exact hk hkey
    rcases hserved.others hb with hothers | ⟨x, v6, hreclaims, hanswer, hothers⟩
    · exact .inl fun k hk => hothers k (hne k hk)
    · exact .inr ⟨k', x, v6, hkey, hreclaims, hanswer, fun k hk => hothers k (hne k hk)⟩
  · exact .inl fun k _ => by rw [hsame]

/-- The loser is the holder that the search finds. -/
theorem Loses.exists_reclaims (h : Loses b c k a) (hb : Coherent b) :
    ∃ k' x v6, c.key? = some k' ∧ Reclaims b k' c.family c.time x ∧ x ∈ b.queue ∧
      x.key = k ∧ x.address = a ∧ (b.answer c).2 = .ok [.v4 a, .v6 v6] ∧
      ∀ k₁, c.key? ≠ some k₁ →
        (b.answer c).1.v4? k₁ = if k₁ = k then none else b.v4? k₁ := by
  rcases answer_others hb c with hothers | ⟨k', x, v6, hkey, hreclaims, hanswer, hothers⟩
  · exact absurd ((hothers k h.key_ne).trans h.before) h.after
  · obtain ⟨queue, hfind⟩ := hreclaims.find
    have hx := (mem_queue_of_findIdle hfind).1
    have hk : k = x.key := by
      by_contra hne
      exact h.after ((hothers k h.key_ne).trans ((if_neg hne).trans h.before))
    subst hk
    have hxa : b.v4? x.key = some x.address := hb.v4?_iff.2 ⟨x, hx, rfl, rfl⟩
    obtain rfl := Option.some.inj (hxa.symm.trans h.before)
    exact ⟨k', x, v6, hkey, hreclaims, hx, rfl, rfl, hanswer, hothers⟩

/-- A request takes the address of one other key at most. -/
theorem Loses.key_eq (h : Loses b c k a) (h' : Loses b c k' a') (hb : Coherent b) : k' = k := by
  obtain ⟨-, -, -, -, -, -, -, -, -, hothers⟩ := h.exists_reclaims hb
  by_contra hne
  exact h'.after ((hothers k' h'.key_ne).trans ((if_neg hne).trans h'.before))

/-- Nobody asked for the loser for as long as the limit says. -/
theorem Loses.mayTake (h : Loses b c k a) (hb : Coherent b) (hrecorded : Recorded calls b)
    (hcalls : InOrder (calls ++ [c])) {idle : Nat} (hidle : b.idleLimit = idle) :
    MayTake calls idle b c k a := by
  obtain ⟨k', x, v6, hkey, hreclaims, hx, rfl, -, hanswer, -⟩ := h.exists_reclaims hb
  obtain ⟨horder, hlast⟩ := inOrder_append_singleton.1 hcalls
  obtain ⟨queue, hfind⟩ := hreclaims.find
  refine ⟨hreclaims.available_eq, hreclaims.need, ⟨k', hkey, hreclaims.v4?_eq⟩, ⟨v6, hanswer⟩,
    fun e he hek => ?_⟩
  have hused : b.lastUsed? x.key = some (b.lastUsedAt x.number) := by
    rw [lastUsed?, hb.filed.own_key x hx, Option.map_some]
  have hlimit := (mem_queue_of_findIdle hfind).2
  rw [hidle, hrecorded x.key _ hused] at hlimit
  have hbefore := time_le_lastRequest horder he hek
  have hnow := hlast e he
  omega

/-- Another key keeps its IPv6 address, and its IPv4 address unless it loses it. -/
theorem answer_of_key_ne (hb : Coherent b) (hk : c.key? ≠ some k) :
    (b.answer c).1.v6? k = b.v6? k ∧
      ((b.answer c).1.v4? k = b.v4? k ∨
        (b.answer c).1.v4? k = none ∧ ∃ a, Loses b c k a) := by
  constructor
  · rcases served_answer hb.leased.recycled_eq c with ⟨k', hkey, hserved⟩ | ⟨fault, -, hsame⟩
    · refine hserved.v6?_of_ne hb.filed ?_
      rintro rfl
      exact hk hkey
    · rw [hsame]
  · rcases answer_others hb c with hothers | ⟨k', x, v6, hkey, hreclaims, -, hothers⟩
    · exact .inl (hothers k hk)
    · by_cases hx : k = x.key
      · obtain ⟨queue, hfind⟩ := hreclaims.find
        have hafter : (b.answer c).1.v4? k = none := (hothers k hk).trans (if_pos hx)
        have hbefore : b.v4? k = some x.address :=
          hb.v4?_iff.2 ⟨x, (mem_queue_of_findIdle hfind).1, rfl, hx.symm⟩
        exact .inr ⟨hafter, x.address, hk, hbefore, by rw [hafter]; nofun⟩
      · exact .inl ((hothers k hk).trans (if_neg hx))

/-! ## Over a run -/

/-- A limit of 64 bits is compared as it is. -/
theorem idleLimit_eq {idle : Nat} (hidle : b.reclaimIdle = idle) (h : idle < UInt64.size) :
    b.idleLimit = idle := by
  rw [idleLimit, hidle, Nat.toUInt64, UInt64.toNat_ofNat_of_lt' h]

/-- **An address in use is never taken away.**  If a request makes another key
lose its IPv4 address, it may take it.  It does so to one key at most, and
changes nothing else about other keys. -/
theorem loses_run {ns : List (Network 32)} {plan : AddressPlan}
    (hplan : AddressPlan.ofNetworks ns = .ok plan) (site : Network 128) {idle : Nat}
    (hidle : idle < UInt64.size) {calls : List Call} {c : Call}
    (hcalls : InOrder (calls ++ [c])) :
    (∀ k a, Loses ((empty plan.pool site idle).run calls) c k a →
        MayTake calls idle ((empty plan.pool site idle).run calls) c k a) ∧
      (∀ k k' a a', Loses ((empty plan.pool site idle).run calls) c k a →
        Loses ((empty plan.pool site idle).run calls) c k' a' → k' = k) ∧
      ∀ k, c.key? ≠ some k →
        ((empty plan.pool site idle).run (calls ++ [c])).v6? k =
            ((empty plan.pool site idle).run calls).v6? k ∧
          (((empty plan.pool site idle).run (calls ++ [c])).v4? k =
              ((empty plan.pool site idle).run calls).v4? k ∨
            ((empty plan.pool site idle).run (calls ++ [c])).v4? k = none ∧
              ∃ a, Loses ((empty plan.pool site idle).run calls) c k a) := by
  have hempty := Coherent.empty (AddressPlan.nodup_pool hplan) site idle
  have hb := hempty.run calls
  have hrecorded := Recorded.run hempty rfl (inOrder_append_singleton.1 hcalls).1
  have hlimit : ((empty plan.pool site idle).run calls).reclaimIdle = idle :=
    (sameSetting_run hempty calls).reclaimIdle_eq
  refine ⟨fun k a h => ?_, fun k k' a a' h h' => h.key_eq h' hb, fun k hk => ?_⟩
  · exact h.mayTake hb hrecorded hcalls (idleLimit_eq hlimit hidle)
  · rw [run_append_singleton]
    exact answer_of_key_ne hb hk

/-- A name that nobody asked for in a second gives its address to another one. -/
theorem loses_run_of_reclaim :
    AddressPlan.ofNetworks [⟨0x0a000000#32, 30, by decide⟩] =
        .ok (.ofRoutes ⟨0x0a000000#32, 30, by decide⟩ []) ∧
      InOrder ([⟨⟨"p"⟩, "a", .v4, 0⟩] ++ [⟨⟨"q"⟩, "a", .both, 1000⟩]) ∧
      Loses ((empty (AddressPlan.ofRoutes ⟨0x0a000000#32, 30, by decide⟩ []).pool
        (SiteNetwork.ofSite 1) 1000).run [⟨⟨"p"⟩, "a", .v4, 0⟩]) ⟨⟨"q"⟩, "a", .both, 1000⟩
          ⟨⟨"p"⟩, ⟨"a."⟩⟩ 0x0a000002#32 ∧
      MayTake [⟨⟨"p"⟩, "a", .v4, 0⟩] 1000
        ((empty (AddressPlan.ofRoutes ⟨0x0a000000#32, 30, by decide⟩ []).pool
          (SiteNetwork.ofSite 1) 1000).run [⟨⟨"p"⟩, "a", .v4, 0⟩]) ⟨⟨"q"⟩, "a", .both, 1000⟩
            ⟨⟨"p"⟩, ⟨"a."⟩⟩ 0x0a000002#32 := by
  have hplan : AddressPlan.ofNetworks [⟨0x0a000000#32, 30, by decide⟩] =
      .ok (.ofRoutes ⟨0x0a000000#32, 30, by decide⟩ []) := by decide
  have horder : InOrder ([⟨⟨"p"⟩, "a", .v4, 0⟩] ++ [⟨⟨"q"⟩, "a", .both, 1000⟩]) := by decide
  have hloses : Loses ((empty (AddressPlan.ofRoutes ⟨0x0a000000#32, 30, by decide⟩ []).pool
      (SiteNetwork.ofSite 1) 1000).run [⟨⟨"p"⟩, "a", .v4, 0⟩]) ⟨⟨"q"⟩, "a", .both, 1000⟩
        ⟨⟨"p"⟩, ⟨"a."⟩⟩ 0x0a000002#32 := ⟨by decide, by decide, by decide⟩
  have hmay := (loses_run hplan (SiteNetwork.ofSite 1) (by decide) horder).1 _ _ hloses
  exact ⟨hplan, horder, hloses, hmay⟩

end DnsConnector.AddressBook
