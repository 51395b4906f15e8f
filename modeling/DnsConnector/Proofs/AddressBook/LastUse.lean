import DnsConnector.Proofs.AddressBook.Coherence
import Mathlib.Data.List.Induction

/-!
# DnsConnector.Proofs.AddressBook.LastUse

What a book remembers of the requests it has seen.  If these were made in the
order of time, the last use of a record is the time of the last request for its
key, for whatever family it was and whether it was refused or not
(`Recorded.run`).
-/

namespace DnsConnector

/-! ## Histories -/

namespace Call

/-- Requests in the order of time. -/
def InOrder (calls : List Call) : Prop := calls.Pairwise fun c d => c.time ≤ d.time

instance (calls : List Call) : Decidable (InOrder calls) :=
  inferInstanceAs (Decidable (calls.Pairwise fun c d => c.time ≤ d.time))

/-- The time of the last request for a key, zero if there was none. -/
def lastRequest (calls : List Call) (k : AllocationKey) : Nat :=
  calls.foldl (fun t c => if c.key? = some k then c.time else t) 0

variable {calls : List Call} {c : Call} {k : AllocationKey}

theorem inOrder_append_singleton :
    InOrder (calls ++ [c]) ↔ InOrder calls ∧ ∀ e ∈ calls, e.time ≤ c.time := by
  simp [InOrder, List.pairwise_append]

theorem lastRequest_append_singleton :
    lastRequest (calls ++ [c]) k = if c.key? = some k then c.time else lastRequest calls k := by
  simp [lastRequest]

/-- The last request was made no later than all requests were. -/
theorem lastRequest_le {t : Nat} (h : ∀ e ∈ calls, e.time ≤ t) : lastRequest calls k ≤ t := by
  induction calls using List.reverseRecOn with
  | nil => exact Nat.zero_le t
  | append_singleton calls c ih =>
      rw [lastRequest_append_singleton]
      split
      · exact h c (by simp)
      · exact ih fun e he => h e (List.mem_append_left _ he)

/-- No request was made after the last one. -/
theorem time_le_lastRequest (hcalls : InOrder calls) {e : Call} (he : e ∈ calls)
    (hkey : e.key? = some k) : e.time ≤ lastRequest calls k := by
  induction calls using List.reverseRecOn with
  | nil => simp at he
  | append_singleton calls c ih =>
      obtain ⟨horder, hlast⟩ := inOrder_append_singleton.1 hcalls
      rw [lastRequest_append_singleton]
      rcases List.mem_append.1 he with he | he
      · split
        · exact hlast e he
        · exact ih horder he
      · obtain rfl := List.mem_singleton.1 he
        exact Nat.le_of_eq (if_pos hkey).symm

end Call

namespace AddressBook

open Call

variable {b : AddressBook}

theorem run_append_singleton (b : AddressBook) (calls : List Call) (c : Call) :
    b.run (calls ++ [c]) = ((b.run calls).answer c).1 := by
  rw [run_append, run_cons, run_nil]

/-! ## What a request writes down -/

/-- The last use of the record of a key. -/
def lastUsed? (b : AddressBook) (k : AllocationKey) : Option Nat :=
  (b.records.get? k).map b.lastUsedAt

section Touching

variable {k k' : AllocationKey} {i now : Nat}

/-- A request for the record of a key is noted there. -/
theorem lastUsed?_touch_self (hfiled : Filed b.records.get? b) (hkey : b.records.get? k = some i) :
    (b.touch i now).lastUsed? k = some (max (b.lastUsedAt i) now) := by
  change (b.records.get? k).map _ = _
  rw [hkey, Option.map_some, lastUsedAt_touch (hfiled.lt_length k i hkey), if_pos rfl]

theorem lastUsed?_touch_of_ne (hfiled : Filed b.records.get? b)
    (hkey : b.records.get? k = some i) (hne : k' ≠ k) :
    (b.touch i now).lastUsed? k' = b.lastUsed? k' := by
  change (b.records.get? k').map _ = _
  rw [lastUsed?]
  cases hkey' : b.records.get? k' with
  | none => rfl
  | some j =>
      have hj : j ≠ i := by
        rintro rfl
        exact hne (hfiled.injective k' k j hkey' hkey)
      rw [Option.map_some, Option.map_some, lastUsedAt_touch (hfiled.lt_length k i hkey),
        if_neg hj]

end Touching

section Served

variable {k k' : AllocationKey} {family : AddressFamily} {now : Nat}
  {r : AddressBook × Except AllocationFault (List IpAddress)}

/-- The last uses after an IPv4 address was granted. -/
theorem SameBesidesV4.lastUsed?_eq {b' : AddressBook} (h : SameBesidesV4 b b')
    (k : AllocationKey) : b'.lastUsed? k = b.lastUsed? k := by
  simp only [lastUsed?, h.records_eq]
  exact congrArg (Option.map · _) (funext h.lastUsedAt_eq)

/-- The last uses after a new key was filed. -/
theorem Granted.lastUsed?_file (hfiled : Filed b.records.get? b) {x : Ipv6} {b' : AddressBook}
    (hgranted : Granted (b.prepared x now) k b.allocations.length family now b')
    (k' : AllocationKey) :
    (b'.file k b.allocations.length x).lastUsed? k' =
      if k' = k then some now else b.lastUsed? k' := by
  have hused : ∀ j, b'.lastUsedAt j = if j = b.allocations.length then now else b.lastUsedAt j :=
    fun j => (hgranted.sameBesidesV4.lastUsedAt_eq j).trans (lastUsedAt_add x now j)
  rw [lastUsed?, hgranted.get?_records_file]
  by_cases hk : k' = k
  · subst hk
    rw [if_pos rfl, withKey_self]
    exact congrArg some ((hused _).trans (if_pos rfl))
  · rw [if_neg hk, withKey_of_ne hk, lastUsed?]
    cases hi : b.records.get? k' with
    | none => rfl
    | some i =>
        have hne : i ≠ b.allocations.length := Nat.ne_of_lt (hfiled.lt_length k' i hi)
        exact congrArg some ((hused i).trans (if_neg hne))

/-- A request notes nothing with the records of other keys. -/
theorem Served.lastUsed?_of_ne (h : Served b k family now r) (hfiled : Filed b.records.get? b)
    (hne : k' ≠ k) : r.1.lastUsed? k' = b.lastUsed? k' := by
  cases h with
  | noIpv6 => rfl
  | refusedNew => rfl
  | created _ _ hgranted => rw [hgranted.lastUsed?_file hfiled, if_neg hne]
  | refused hkey => exact lastUsed?_touch_of_ne hfiled hkey hne
  | renewed hkey hgranted =>
      rw [hgranted.sameBesidesV4.lastUsed?_eq]
      exact lastUsed?_touch_of_ne hfiled hkey hne

/-- A request notes its time with the record of its key, if there is one then. -/
theorem Served.lastUsed?_self (h : Served b k family now r) (hfiled : Filed b.records.get? b)
    {t : Nat} (ht : r.1.lastUsed? k = some t) : t = max ((b.lastUsed? k).getD 0) now := by
  cases h with
  | noIpv6 hkey =>
      have hnone : b.draw.lastUsed? k = none := congrArg (Option.map _) hkey
      exact absurd (hnone.symm.trans ht) nofun
  | refusedNew hkey =>
      have hnone : b.lastUsed? k = none := congrArg (Option.map _) hkey
      exact absurd (hnone.symm.trans ht) nofun
  | created hkey _ hgranted =>
      rw [hgranted.lastUsed?_file hfiled, if_pos rfl] at ht
      rw [lastUsed?, hkey, Option.map_none, Option.getD_none, Nat.zero_max]
      exact (Option.some.inj ht).symm
  | refused hkey =>
      have htouch := (lastUsed?_touch_self hfiled hkey).symm.trans ht
      rw [lastUsed?, hkey, Option.map_some, Option.getD_some]
      exact (Option.some.inj htouch).symm
  | renewed hkey hgranted =>
      rw [hgranted.sameBesidesV4.lastUsed?_eq, lastUsed?_touch_self hfiled hkey] at ht
      rw [lastUsed?, hkey, Option.map_some, Option.getD_some]
      exact (Option.some.inj ht).symm

end Served

/-! ## What a run writes down -/

/-- The last use of every record is the time of the last request for its key. -/
def Recorded (calls : List Call) (b : AddressBook) : Prop :=
  ∀ k t, b.lastUsed? k = some t → t = lastRequest calls k

/-- The last use of a holder is the last request for its key. -/
theorem Recorded.lastUsedAt_eq {calls : List Call} (hrecorded : Recorded calls b)
    (hb : Coherent b) {x : Holder} (hx : x ∈ b.queue) :
    b.lastUsedAt x.number = lastRequest calls x.key := by
  apply hrecorded
  rw [lastUsed?, hb.filed.own_key x hx, Option.map_some]

/-- A request that is made after all others is written down. -/
theorem Recorded.answer {calls : List Call} (h : Recorded calls b) (hb : Coherent b) {c : Call}
    (hlast : ∀ e ∈ calls, e.time ≤ c.time) : Recorded (calls ++ [c]) (b.answer c).1 := by
  intro k' t ht
  rw [lastRequest_append_singleton]
  rcases served_answer hb.leased.recycled_eq c with ⟨k, hkey, hserved⟩ | ⟨fault, hkey, hsame⟩
  · rw [hkey]
    by_cases hk : k' = k
    · subst hk
      rw [if_pos rfl, hserved.lastUsed?_self hb.filed ht]
      refine Nat.max_eq_right ?_
      cases hused : b.lastUsed? k' with
      | none => exact Nat.zero_le _
      | some t' =>
          rw [Option.getD_some, h k' t' hused]
          exact lastRequest_le hlast
    · rw [hserved.lastUsed?_of_ne hb.filed hk] at ht
      rw [if_neg (by simpa using fun e => hk e.symm)]
      exact h k' t ht
  · rw [hsame] at ht
    rw [hkey, if_neg nofun]
    exact h k' t ht

theorem Recorded.run (hb : Coherent b) (hempty : b.records = ∅) {calls : List Call}
    (hcalls : InOrder calls) : Recorded calls (b.run calls) := by
  induction calls using List.reverseRecOn with
  | nil =>
      intro k t ht
      rw [run_nil, lastUsed?, hempty] at ht
      exact absurd ht nofun
  | append_singleton calls c ih =>
      obtain ⟨horder, hlast⟩ := inOrder_append_singleton.1 hcalls
      rw [run_append_singleton]
      exact (ih horder).answer (hb.run calls) hlast

end AddressBook

end DnsConnector
