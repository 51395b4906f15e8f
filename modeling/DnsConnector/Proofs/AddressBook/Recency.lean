import DnsConnector.Proofs.AddressBook.Reclaim

/-!
# DnsConnector.Proofs.AddressBook.Recency

How recently the record was used that loses its IPv4 address.  Holders queue in
the order in which they were given their addresses, and one that was asked for
again goes to the back when a search comes to it, however long ago that was.
So the queue is in the order of last uses only as far as holders go that nobody
asked for again (`Aligned`, `aligned_run`): of these the loser is a least
recently used one (`loses_leastRecent`), but a record that was asked for again
may outlive others that were used after it (`loses_not_leastRecent`).
-/

namespace DnsConnector

/-! ## The order of a queue -/

namespace Holder

/-- A queue in order as far as some keys go: none of their holders was used
since it was queued, and none stands behind a holder with a later stamp. -/
structure Aligned (fresh : AllocationKey → Prop) (last : AllocationKey → Nat)
    (queue : List Holder) : Prop where
  stamp_le : ∀ x ∈ queue, x.stamp ≤ last x.key
  last_le : ∀ x ∈ queue, fresh x.key → last x.key ≤ x.stamp
  pairwise : queue.Pairwise fun x y => fresh y.key → x.stamp ≤ y.stamp

namespace Aligned

variable {fresh fresh' : AllocationKey → Prop} {last last' : AllocationKey → Nat}
  {queue : List Holder}

/-- Later uses keep a queue in order as far as keys go that they do not concern. -/
theorem mono (h : Aligned fresh last queue) (hle : ∀ x ∈ queue, last x.key ≤ last' x.key)
    (hfresh : ∀ x ∈ queue, fresh' x.key → fresh x.key ∧ last' x.key = last x.key) :
    Aligned fresh' last' queue where
  stamp_le := fun x hx => Nat.le_trans (h.stamp_le x hx) (hle x hx)
  last_le := by
    intro x hx hx'
    obtain ⟨hold, hsame⟩ := hfresh x hx hx'
    exact hsame ▸ h.last_le x hx hold
  pairwise := h.pairwise.imp_of_mem fun _ hy himp hy' => himp (hfresh _ hy hy').1

/-- A holder may be queued behind others that were not used after it. -/
theorem append_singleton (h : Aligned fresh last queue) {x : Holder}
    (hstamp : x.stamp = last x.key) (hle : ∀ y ∈ queue, last y.key ≤ x.stamp) :
    Aligned fresh last (queue ++ [x]) where
  stamp_le := by
    intro y hy
    rcases List.mem_append.1 hy with hy | hy
    · exact h.stamp_le y hy
    · rw [List.mem_singleton.1 hy]
      exact Nat.le_of_eq hstamp
  last_le := by
    intro y hy hfresh
    rcases List.mem_append.1 hy with hy | hy
    · exact h.last_le y hy hfresh
    · rw [List.mem_singleton.1 hy]
      exact Nat.le_of_eq hstamp.symm
  pairwise := by
    refine List.pairwise_append.2 ⟨h.pairwise, List.pairwise_singleton _ _, ?_⟩
    intro y hy z hz _
    rw [List.mem_singleton.1 hz]
    exact Nat.le_trans (h.stamp_le y hy) (hle y hy)

variable {used : Nat → Nat} {now idle : Nat}

/-- A touched holder is none of those in order. -/
theorem not_fresh_of_touched (h : Aligned fresh last queue) {x : Holder} (hx : x ∈ queue)
    (htouched : x.stamp < last x.key) : ¬fresh x.key :=
  fun hfresh => Nat.not_lt.2 (h.last_le x hx hfresh) htouched

/-- Touched holders may go to the back of a queue. -/
theorem rotate {front rest : List Holder} (h : Aligned fresh last (front ++ rest))
    (hused : ∀ x ∈ front ++ rest, used x.number = last x.key)
    (htouched : ∀ x ∈ front, x.stamp < used x.number) :
    Aligned fresh last (rest ++ restamped used front) := by
  have hback : ∀ x ∈ restamped used front, x.stamp = last x.key ∧ ¬fresh x.key := by
    intro x hx
    obtain ⟨y, hy, rfl⟩ := List.mem_map.1 hx
    have hmem : y ∈ front ++ rest := List.mem_append_left rest hy
    have hlast := hused y hmem
    have hnot : ¬fresh y.key := h.not_fresh_of_touched hmem (hlast ▸ htouched y hy)
    exact ⟨hlast, hnot⟩
  refine ⟨fun x hx => ?_, fun x hx hfresh => ?_, ?_⟩
  · rcases List.mem_append.1 hx with hx | hx
    · exact h.stamp_le x (List.mem_append_right front hx)
    · exact Nat.le_of_eq (hback x hx).1
  · rcases List.mem_append.1 hx with hx | hx
    · exact h.last_le x (List.mem_append_right front hx) hfresh
    · exact absurd hfresh (hback x hx).2
  · refine List.pairwise_append.2 ⟨(List.pairwise_append.1 h.pairwise).2.1, ?_, ?_⟩
    · exact List.pairwise_of_forall_mem_list fun x _ y hy hfresh => absurd hfresh (hback y hy).2
    · exact fun x _ y hy hfresh => absurd hfresh (hback y hy).2

/-- A search keeps a queue in order. -/
theorem searched (h : Aligned fresh last queue)
    (hused : ∀ x ∈ queue, used x.number = last x.key) {r : List Holder × Option Holder}
    (hr : Searched used now idle queue r) : Aligned fresh last r.1 := by
  cases hr with
  | @exhausted _ htouched =>
      rw [← List.append_nil queue] at h hused
      exact h.rotate hused htouched
  | tooRecent htouched => exact h.rotate hused htouched
  | @found front rest x htouched =>
      have hrotated := h.rotate hused htouched
      rw [List.cons_append] at hrotated
      exact ⟨fun y hy => hrotated.stamp_le y (List.mem_cons_of_mem x hy),
        fun y hy => hrotated.last_le y (List.mem_cons_of_mem x hy),
        (List.pairwise_cons.1 hrotated.pairwise).2⟩

/-- The first untouched holder was used no later than any of those in order. -/
theorem last_le_last {front rest : List Holder} {x : Holder}
    (h : Aligned fresh last (front ++ x :: rest)) (htouched : ∀ y ∈ front, y.stamp < last y.key)
    (huntouched : last x.key ≤ x.stamp) {y : Holder} (hy : y ∈ front ++ x :: rest)
    (hfresh : fresh y.key) : last x.key ≤ last y.key := by
  rcases List.mem_append.1 hy with hfront | hrest
  · exact absurd hfresh (h.not_fresh_of_touched hy (htouched y hfront))
  · rcases List.mem_cons.1 hrest with rfl | hrest
    · exact Nat.le_refl _
    · have hpairs := (List.pairwise_append.1 h.pairwise).2.1
      calc last x.key ≤ x.stamp := huntouched
        _ ≤ y.stamp := (List.pairwise_cons.1 hpairs).1 y hrest hfresh
        _ ≤ last y.key := h.stamp_le y hy

end Aligned

end Holder

namespace AddressBook

open Call

variable {b b' : AddressBook} {k k' : AllocationKey} {i now : Nat} {family : AddressFamily}
  {r : AddressBook × Except AllocationFault (List IpAddress)} {calls : List Call} {c : Call}

/-! ## What a request does to the queue -/

/-- An allocation that is granted an address it did not have is put at the end
of the queue, which was searched for the address if there was no fresh one. -/
theorem Granted.queue_cases (hgranted : Granted b k i family now b') (hleased : Leased [] b) :
    b'.queue = b.queue ∨ b.v4At i = none ∧
      ∃ queue a, (queue = b.queue ∨ ∃ found, b.findIdle now = (queue, found)) ∧
        b'.queue = queue ++ [⟨a, k, i, b.lastUsedAt i⟩] := by
  cases hgranted with
  | unneeded => exact .inl rfl
  | kept => exact .inl rfl
  | fresh _ hv4 hfresh =>
      exact .inr ⟨hv4, b.queue, _, .inl rfl, (hleased.handOut hfresh).queue_hold k i⟩
  | @reclaimed queue x _ hv4 _ hfind =>
      have hloose := hleased.release (sameHolders_of_findIdle hfind)
      have hqueue := hloose.queue_hold k i
      rw [lastUsedAt_release] at hqueue
      exact .inr ⟨hv4, queue, x.address, .inr ⟨some x, hfind⟩, hqueue⟩

/-- A request changes the queue only for a key without IPv4 address: the queue
may be searched, and the key may be put at its end. -/
theorem Served.queue_cases (h : Served b k family now r) (hb : Coherent b) :
    r.1.queue = b.queue ∨ b.v4? k = none ∧
      ∃ queue, (queue = b.queue ∨ ∃ found, b.findIdle now = (queue, found)) ∧
        (r.1.queue = queue ∨
          ∃ a i s, r.1.queue = queue ++ [⟨a, k, i, s⟩] ∧ r.1.lastUsed? k = some s) := by
  have hnew : b.records.get? k = none → b.v4? k = none := by
    intro hkey
    rw [v4?, hkey]
    rfl
  have hold : ∀ i, b.records.get? k = some i → (b.touch i now).v4At i = none → b.v4? k = none := by
    intro i hkey hv4
    rwa [v4?, hkey, Option.bind_some, ← v4At_touch i now]
  cases h with
  | noIpv6 => exact .inl rfl
  | @refusedNew v6 queue hkey _ hrefused =>
      have hfind := (findIdle_prepared hb v6).symm.trans hrefused.find
      exact .inr ⟨hnew hkey, queue, .inr ⟨none, hfind⟩, .inl rfl⟩
  | @created v6 b' hkey _ hgranted =>
      rcases hgranted.queue_cases (hb.leased.draw.add v6 now) with
        hqueue | ⟨-, queue, a, hsearch, hqueue⟩
      · exact .inl hqueue
      · refine .inr ⟨hnew hkey, queue, ?_, .inr ⟨a, b.allocations.length, _, hqueue, ?_⟩⟩
        · rwa [findIdle_prepared hb v6] at hsearch
        · rw [hgranted.lastUsed?_file hb.filed, if_pos rfl]
          exact congrArg some ((lastUsedAt_add v6 now _).trans (if_pos rfl)).symm
  | @refused i queue hkey hrefused =>
      have hv4 : b.v4At i = none := (v4At_touch i now i).symm.trans hrefused.v4At_eq
      have hfind := (findIdle_touch hb hkey hv4).symm.trans hrefused.find
      exact .inr ⟨hold i hkey hrefused.v4At_eq, queue, .inr ⟨none, hfind⟩, .inl rfl⟩
  | @renewed i b' hkey hgranted =>
      rcases hgranted.queue_cases (hb.leased.touch i now) with
        hqueue | ⟨hv4, queue, a, hsearch, hqueue⟩
      · exact .inl hqueue
      · refine .inr ⟨hold i hkey hv4, queue, ?_, .inr ⟨a, i, _, hqueue, ?_⟩⟩
        · rwa [findIdle_touch hb hkey ((v4At_touch i now i).symm.trans hv4)] at hsearch
        · rw [hgranted.sameBesidesV4.lastUsed?_eq]
          exact congrArg (Option.map _) hkey

/-! ## In terms of the requests so far -/

/-- A request gives its key an IPv4 address. -/
structure Gives (b : AddressBook) (c : Call) (k : AllocationKey) : Prop where
  key_eq : c.key? = some k
  before : b.v4? k = none
  after : (b.answer c).1.v4? k ≠ none

/-- After requests to a book, nobody asked for a key again since it was given
an IPv4 address. -/
def NotAskedAgain (b : AddressBook) (calls : List Call) (k : AllocationKey) : Prop :=
  ∃ before c after, calls = before ++ c :: after ∧ Gives (b.run before) c k ∧
    ∀ e ∈ after, e.key? ≠ some k

/-- A key that has an address is not given one. -/
theorem NotAskedAgain.of_append_singleton (h : NotAskedAgain b (calls ++ [c]) k)
    (hv4 : (b.run calls).v4? k ≠ none) : c.key? ≠ some k ∧ NotAskedAgain b calls k := by
  obtain ⟨before, c', after, hcalls, hgives, hafter⟩ := h
  rcases List.eq_nil_or_concat after with rfl | ⟨after', c'', rfl⟩
  · obtain ⟨rfl, -⟩ := List.append_inj' hcalls rfl
    exact absurd hgives.before hv4
  · rw [List.concat_eq_append, ← List.cons_append, ← List.append_assoc] at hcalls
    rw [List.concat_eq_append] at hafter
    obtain ⟨rfl, hc⟩ := List.append_inj' hcalls rfl
    obtain rfl := List.singleton_inj.1 hc
    exact ⟨hafter c (by simp), before, c', after', rfl, hgives,
      fun e he => hafter e (List.mem_append_left _ he)⟩

/-- Holders stay in order under one more request, as far as it leaves them in
the queue. -/
theorem aligned_append_singleton (hlast : ∀ e ∈ calls, e.time ≤ c.time) {queue : List Holder}
    (hheld : ∀ x ∈ queue, (b.run calls).v4? x.key ≠ none)
    (h : Holder.Aligned (NotAskedAgain b calls) (lastRequest calls) queue) :
    Holder.Aligned (NotAskedAgain b (calls ++ [c])) (lastRequest (calls ++ [c])) queue := by
  refine h.mono (fun x _ => ?_) (fun x hx hfresh => ?_)
  · rw [lastRequest_append_singleton]
    split
    · exact lastRequest_le hlast
    · exact Nat.le_refl _
  · obtain ⟨hkey, hbefore⟩ := hfresh.of_append_singleton (hheld x hx)
    exact ⟨hbefore, lastRequest_append_singleton.trans (if_neg hkey)⟩

/-- Whoever is in the queue after a search was in it before. -/
theorem v4?_ne_none_of_findIdle (hb : Coherent b) {queue : List Holder} {found : Option Holder}
    (hfind : b.findIdle now = (queue, found)) {x : Holder} (hx : x ∈ queue) :
    b.v4? x.key ≠ none := by
  obtain ⟨y, hy, -, hkey, -⟩ :=
    (sameHolders_of_findIdle hfind).exists_mem (List.mem_append_right _ hx)
  rw [hb.v4?_iff.2 ⟨y, hy, rfl, hkey⟩]
  exact Option.some_ne_none _

theorem aligned_findIdle {fresh : AllocationKey → Prop} (hb : Coherent b)
    (hrecorded : Recorded calls b) (h : Holder.Aligned fresh (lastRequest calls) b.queue)
    {queue : List Holder} {found : Option Holder} (hfind : b.findIdle now = (queue, found)) :
    Holder.Aligned fresh (lastRequest calls) queue := by
  have hsearched := Holder.searched b.lastUsedAt now b.idleLimit b.queue
  rw [findIdle] at hfind
  rw [hfind] at hsearched
  exact h.searched (fun x hx => hrecorded.lastUsedAt_eq hb hx) hsearched

/-- One more request keeps the queue of a run in order. -/
theorem aligned_answer (hb : Coherent (b.run calls)) (hrecorded : Recorded calls (b.run calls))
    (hlast : ∀ e ∈ calls, e.time ≤ c.time)
    (h : Holder.Aligned (NotAskedAgain b calls) (lastRequest calls) (b.run calls).queue) :
    Holder.Aligned (NotAskedAgain b (calls ++ [c])) (lastRequest (calls ++ [c]))
      ((b.run calls).answer c).1.queue := by
  have hheld : ∀ x ∈ (b.run calls).queue, (b.run calls).v4? x.key ≠ none := by
    intro x hx
    rw [hb.v4?_iff.2 ⟨x, hx, rfl, rfl⟩]
    exact Option.some_ne_none _
  rcases served_answer hb.leased.recycled_eq c with ⟨k, hkey, hserved⟩ | ⟨fault, -, hsame⟩
  · rcases hserved.queue_cases hb with hqueue | ⟨-, queue, hsearch, hqueue⟩
    · rw [hqueue]
      exact aligned_append_singleton hlast hheld h
    · have hsearched :
          Holder.Aligned (NotAskedAgain b (calls ++ [c])) (lastRequest (calls ++ [c])) queue := by
        rcases hsearch with rfl | ⟨found, hfind⟩
        · exact aligned_append_singleton hlast hheld h
        · exact aligned_append_singleton hlast (fun x hx => v4?_ne_none_of_findIdle hb hfind hx)
            (aligned_findIdle hb hrecorded h hfind)
      rcases hqueue with hqueue | ⟨a, i, s, hqueue, hs⟩
      · rw [hqueue]
        exact hsearched
      · have hstamp : s = lastRequest (calls ++ [c]) k := hrecorded.answer hb hlast k s hs
        have hnow : lastRequest (calls ++ [c]) k = c.time :=
          lastRequest_append_singleton.trans (if_pos hkey)
        have hall : ∀ e ∈ calls ++ [c], e.time ≤ c.time := by
          simpa [or_imp, forall_and] using hlast
        rw [hqueue]
        refine hsearched.append_singleton hstamp fun y _ => ?_
        exact Nat.le_trans (lastRequest_le hall) (Nat.le_of_eq (hstamp.trans hnow).symm)
  · rw [hsame]
    exact aligned_append_singleton hlast hheld h

theorem aligned_run (hb : Coherent b) (hrecords : b.records = ∅) (hqueue : b.queue = [])
    (hcalls : InOrder calls) :
    Holder.Aligned (NotAskedAgain b calls) (lastRequest calls) (b.run calls).queue := by
  induction calls using List.reverseRecOn with
  | nil =>
      rw [run_nil, hqueue]
      exact ⟨nofun, nofun, List.Pairwise.nil⟩
  | append_singleton calls c ih =>
      obtain ⟨horder, hlast⟩ := inOrder_append_singleton.1 hcalls
      rw [run_append_singleton]
      exact aligned_answer (hb.run calls) (Recorded.run hb hrecords horder) hlast (ih horder)

/-! ## Who loses an address -/

/-- The first holder in a queue that nobody asked for since it was queued. -/
def FirstUnasked (calls : List Call) (queue : List Holder) (x : Holder) : Prop :=
  ∃ front rest, queue = front ++ x :: rest ∧
    (∀ y ∈ front, y.stamp < lastRequest calls y.key) ∧ lastRequest calls x.key ≤ x.stamp

/-- The loser is the first holder that nobody asked for since it was queued. -/
theorem Loses.exists_firstUnasked {a : Ipv4} (h : Loses b c k a) (hb : Coherent b)
    (hrecorded : Recorded calls b) :
    ∃ x, FirstUnasked calls b.queue x ∧ x.key = k ∧ x.address = a := by
  obtain ⟨k', x, v6, -, hreclaims, -, hkey, haddress, -, -⟩ := h.exists_reclaims hb
  obtain ⟨queue, hfind⟩ := hreclaims.find
  obtain ⟨front, rest, hqueue, -, htouched, huntouched, -⟩ := Holder.search_eq_some_iff.1 hfind
  refine ⟨x, ⟨front, rest, hqueue, fun y hy => ?_, ?_⟩, hkey, haddress⟩
  · rw [← hrecorded.lastUsedAt_eq hb (x := y) (by simp [hqueue, hy])]
    exact htouched y hy
  · rw [← hrecorded.lastUsedAt_eq hb (x := x) (by simp [hqueue])]
    exact huntouched

/-- **Least recently used.**  After requests in the order of time, a request
that makes another key lose its IPv4 address takes it from the first holder in
the queue that nobody asked for since it was queued.  No key with an IPv4
address that was not asked for again since it got it was last used before the
loser. -/
theorem loses_leastRecent {ns : List (Network 32)} {plan : AddressPlan}
    (hplan : AddressPlan.ofNetworks ns = .ok plan) (site : Network 128) (idle : Nat)
    {calls : List Call} {c : Call} (hcalls : InOrder (calls ++ [c])) {k : AllocationKey}
    {a : Ipv4} (h : Loses ((empty plan.pool site idle).run calls) c k a) :
    (∃ x, FirstUnasked calls ((empty plan.pool site idle).run calls).queue x ∧
        x.key = k ∧ x.address = a) ∧
      ∀ k' a', ((empty plan.pool site idle).run calls).v4? k' = some a' →
        NotAskedAgain (empty plan.pool site idle) calls k' →
        lastRequest calls k ≤ lastRequest calls k' := by
  have hempty := Coherent.empty (AddressPlan.nodup_pool hplan) site idle
  have hb := hempty.run calls
  have horder := (inOrder_append_singleton.1 hcalls).1
  have hrecorded := Recorded.run hempty rfl horder
  have haligned := aligned_run hempty rfl rfl horder
  obtain ⟨x, hfirst, rfl, rfl⟩ := h.exists_firstUnasked hb hrecorded
  refine ⟨⟨x, hfirst, rfl, rfl⟩, fun k' a' hv4 hfresh => ?_⟩
  obtain ⟨front, rest, hqueue, htouched, huntouched⟩ := hfirst
  obtain ⟨y, hy, -, rfl⟩ := hb.v4?_iff.1 hv4
  rw [hqueue] at haligned hy
  exact haligned.last_le_last htouched huntouched hy hfresh

/-- A name that is asked for again, and two names after it. -/
def repeated : List Call :=
  [⟨⟨"p"⟩, "a.", .both, 0⟩, ⟨⟨"p"⟩, "a.", .both, 1⟩, ⟨⟨"p"⟩, "b.", .both, 2⟩,
    ⟨⟨"p"⟩, "c.", .both, 3⟩]

/-- The pool of three addresses that the names share. -/
def threeHosts : AddressPlan :=
  .ofRoutes ⟨0x0a000000#32, 30, by decide⟩ [⟨0x0a000100#32, 30, by decide⟩]

theorem ofNetworks_threeHosts :
    AddressPlan.ofNetworks [⟨0x0a000000#32, 30, by decide⟩, ⟨0x0a000100#32, 30, by decide⟩] =
      .ok threeHosts := by
  decide

/-- The name that was asked for once, and before the other such name, loses. -/
theorem loses_after_repeated :
    Loses ((empty threeHosts.pool (SiteNetwork.ofSite 1) 1000).run repeated)
      ⟨⟨"p"⟩, "d.", .both, 10003⟩ ⟨⟨"p"⟩, ⟨"b."⟩⟩ 0x0a000101#32 :=
  ⟨by decide, by decide, by decide⟩

/-- Of the two names that were not asked for again the earlier one loses. -/
theorem loses_leastRecent_of_repeated :
    InOrder (repeated ++ [⟨⟨"p"⟩, "d.", .both, 10003⟩]) ∧
      Loses ((empty threeHosts.pool (SiteNetwork.ofSite 1) 1000).run repeated)
        ⟨⟨"p"⟩, "d.", .both, 10003⟩ ⟨⟨"p"⟩, ⟨"b."⟩⟩ 0x0a000101#32 ∧
      NotAskedAgain (empty threeHosts.pool (SiteNetwork.ofSite 1) 1000) repeated
        ⟨⟨"p"⟩, ⟨"c."⟩⟩ ∧
      lastRequest repeated ⟨⟨"p"⟩, ⟨"b."⟩⟩ ≤ lastRequest repeated ⟨⟨"p"⟩, ⟨"c."⟩⟩ := by
  have horder : InOrder (repeated ++ [⟨⟨"p"⟩, "d.", .both, 10003⟩]) := by decide
  have hheld : ((empty threeHosts.pool (SiteNetwork.ofSite 1) 1000).run repeated).v4?
      ⟨⟨"p"⟩, ⟨"c."⟩⟩ = some 0x0a000102#32 := by decide
  have hfresh : NotAskedAgain (empty threeHosts.pool (SiteNetwork.ofSite 1) 1000) repeated
      ⟨⟨"p"⟩, ⟨"c."⟩⟩ :=
    ⟨repeated.take 3, ⟨⟨"p"⟩, "c.", .both, 3⟩, [], rfl, ⟨by decide, by decide, by decide⟩, nofun⟩
  have hleast := (loses_leastRecent ofNetworks_threeHosts (SiteNetwork.ofSite 1) 1000 horder
    loses_after_repeated).2
  exact ⟨horder, loses_after_repeated, hfresh, hleast _ _ hheld hfresh⟩

/-- The loser is not always a least recently used one: the name that was asked
for again goes to the back, and the next one loses although it was used later. -/
theorem loses_not_leastRecent :
    ¬∀ (ns : List (Network 32)) (plan : AddressPlan) (site : Network 128) (idle : Nat)
      (calls : List Call) (c : Call) (k : AllocationKey) (a : Ipv4),
      AddressPlan.ofNetworks ns = .ok plan → InOrder (calls ++ [c]) →
      Loses ((empty plan.pool site idle).run calls) c k a →
      ∀ k' a', ((empty plan.pool site idle).run calls).v4? k' = some a' →
        lastRequest calls k ≤ lastRequest calls k' := by
  intro h
  have hle := h _ _ _ _ _ _ _ _ ofNetworks_threeHosts (by decide) loses_after_repeated
    ⟨⟨"p"⟩, ⟨"a."⟩⟩ 0x0a000002#32 (by decide)
  exact absurd hle (by decide)

end AddressBook

end DnsConnector
