import DnsConnector.AddressBook

/-!
# DnsConnector.Proofs.AddressBook.Search

What a search for an idle holder does to the queue.  A holder is *touched* if
it was used since it was queued.  A search that may look at every holder once
stops at the first untouched one: the touched holders before it have gone to
the back by then, restamped, and the holders behind it were not looked at
(`search_eq`).  Its step count is spent exactly when all holders were touched,
so a restamped holder is never looked at again.

`Searched` says the same as a relation, with one constructor for each way a
search ends.
-/

namespace DnsConnector.Holder

variable {lastUsed : Nat → Nat} {now idle : Nat}

/-- Whether a holder was used since it was queued. -/
def touched (lastUsed : Nat → Nat) (h : Holder) : Bool := h.stamp < lastUsed h.number

/-- A holder as it is queued again. -/
def restamp (lastUsed : Nat → Nat) (h : Holder) : Holder := { h with stamp := lastUsed h.number }

/-- Holders that went to the back of a queue. -/
abbrev restamped (lastUsed : Nat → Nat) (hs : List Holder) : List Holder :=
  hs.map (restamp lastUsed)

theorem touched_iff {h : Holder} : touched lastUsed h = true ↔ h.stamp < lastUsed h.number :=
  decide_eq_true_iff

/-- The holders in front of the first untouched one are touched. -/
theorem lt_of_mem_takeWhile {queue : List Holder} {x : Holder}
    (hx : x ∈ queue.takeWhile (touched lastUsed)) : x.stamp < lastUsed x.number := by
  have hall := List.all_takeWhile (p := touched lastUsed) (l := queue)
  exact touched_iff.1 (List.all_eq_true.1 hall x hx)

/-- The holder behind them is not. -/
theorem le_of_dropWhile_eq_cons {queue rest : List Holder} {h : Holder}
    (hrest : queue.dropWhile (touched lastUsed) = h :: rest) : lastUsed h.number ≤ h.stamp := by
  have hnot := List.head?_dropWhile_not (touched lastUsed) queue
  rw [hrest] at hnot
  simpa [touched] using hnot

/-- A holder that goes to the back joins those that went there before. -/
theorem append_restamped_append_singleton (rest front : List Holder) (h : Holder) :
    rest ++ restamped lastUsed front ++ [restamp lastUsed h] =
      rest ++ restamped lastUsed (front ++ [h]) := by
  simp

/-! ## The closed form -/

/-- What a search leaves of a queue that was cut before its first untouched
holder. -/
def settle (lastUsed : Nat → Nat) (now idle : Nat) (front : List Holder) :
    List Holder → List Holder × Option Holder
  | [] => (restamped lastUsed front, none)
  | h :: rest =>
    if now - lastUsed h.number < idle then (h :: rest ++ restamped lastUsed front, none)
    else (rest ++ restamped lastUsed front, some h)

/-- A search over the holders of `queue`, behind which there are the touched
holders of `front`, which were at the front before. -/
theorem search_append (front queue : List Holder) :
    search lastUsed now idle queue.length (queue ++ restamped lastUsed front) =
      settle lastUsed now idle (front ++ queue.takeWhile (touched lastUsed))
        (queue.dropWhile (touched lastUsed)) := by
  induction queue generalizing front with
  | nil => simp [search, settle]
  | cons h rest ih =>
      rw [List.length_cons, List.cons_append, search]
      by_cases ht : h.stamp < lastUsed h.number
      · have hb : touched lastUsed h = true := touched_iff.2 ht
        rw [if_pos ht, List.takeWhile_cons_of_pos hb, List.dropWhile_cons_of_pos hb]
        change search lastUsed now idle rest.length
          (rest ++ restamped lastUsed front ++ [restamp lastUsed h]) = _
        rw [append_restamped_append_singleton, ih (front ++ [h]), List.append_assoc,
          List.singleton_append]
      · have hb : ¬ touched lastUsed h = true := mt touched_iff.1 ht
        rw [if_neg ht, List.takeWhile_cons_of_neg hb, List.dropWhile_cons_of_neg hb]
        simp only [settle, List.append_nil, List.cons_append]

/-- A search that may look at every holder once. -/
theorem search_eq (queue : List Holder) :
    search lastUsed now idle queue.length queue =
      settle lastUsed now idle (queue.takeWhile (touched lastUsed))
        (queue.dropWhile (touched lastUsed)) := by
  simpa using @search_append lastUsed now idle [] queue

/-! ## The ways a search ends -/

/-- How a search over a queue ends, and what is left of the queue. -/
inductive Searched (lastUsed : Nat → Nat) (now idle : Nat) :
    List Holder → List Holder × Option Holder → Prop
  /-- All holders were touched. -/
  | exhausted {front : List Holder} (htouched : ∀ x ∈ front, x.stamp < lastUsed x.number) :
      Searched lastUsed now idle front (restamped lastUsed front, none)
  /-- The first untouched holder has not been idle long enough. -/
  | tooRecent {front rest : List Holder} {h : Holder}
      (htouched : ∀ x ∈ front, x.stamp < lastUsed x.number)
      (huntouched : lastUsed h.number ≤ h.stamp) (hrecent : now - lastUsed h.number < idle) :
      Searched lastUsed now idle (front ++ h :: rest)
        (h :: rest ++ restamped lastUsed front, none)
  /-- The first untouched holder gives its address. -/
  | found {front rest : List Holder} {h : Holder}
      (htouched : ∀ x ∈ front, x.stamp < lastUsed x.number)
      (huntouched : lastUsed h.number ≤ h.stamp) (hidle : idle ≤ now - lastUsed h.number) :
      Searched lastUsed now idle (front ++ h :: rest) (rest ++ restamped lastUsed front, some h)

/-- A search ends in one of these ways. -/
theorem searched (lastUsed : Nat → Nat) (now idle : Nat) (queue : List Holder) :
    Searched lastUsed now idle queue (search lastUsed now idle queue.length queue) := by
  have hfront : ∀ x ∈ queue.takeWhile (touched lastUsed), x.stamp < lastUsed x.number :=
    fun _ => lt_of_mem_takeWhile
  have hcut := List.takeWhile_append_dropWhile (p := touched lastUsed) (l := queue)
  rw [search_eq]
  cases hrest : queue.dropWhile (touched lastUsed) with
  | nil =>
      rw [hrest, List.append_nil] at hcut
      rw [settle]
      have he : Searched lastUsed now idle _ _ := .exhausted hfront
      rwa [hcut] at he ⊢
  | cons h rest =>
      have hh := le_of_dropWhile_eq_cons hrest
      rw [hrest] at hcut
      rw [settle]
      split
      next hrecent =>
        have he : Searched lastUsed now idle (_ ++ h :: rest) _ := .tooRecent hfront hh hrecent
        rwa [hcut] at he
      next hidle =>
        have he : Searched lastUsed now idle (_ ++ h :: rest) _ :=
          .found hfront hh (Nat.le_of_not_lt hidle)
        rwa [hcut] at he

/-- A search takes the address of the first untouched holder if it has been
idle long enough, and of nobody else. -/
theorem search_eq_some_iff {queue left : List Holder} {h : Holder} :
    search lastUsed now idle queue.length queue = (left, some h) ↔
      ∃ front rest, queue = front ++ h :: rest ∧ left = rest ++ restamped lastUsed front ∧
        (∀ x ∈ front, x.stamp < lastUsed x.number) ∧ lastUsed h.number ≤ h.stamp ∧
        idle ≤ now - lastUsed h.number := by
  constructor
  · intro he
    have hs := searched lastUsed now idle queue
    rw [he] at hs
    cases hs with
    | found htouched huntouched hidle =>
        exact ⟨_, _, rfl, rfl, htouched, huntouched, hidle⟩
  · rintro ⟨front, rest, rfl, rfl, htouched, huntouched, hidle⟩
    have hfront : ∀ x ∈ front, touched lastUsed x = true := by simpa [touched] using htouched
    have hh : ¬ touched lastUsed h = true := by simpa [touched] using huntouched
    rw [search_eq, List.takeWhile_append_of_pos hfront, List.dropWhile_append_of_pos hfront,
      List.takeWhile_cons_of_neg hh, List.dropWhile_cons_of_neg hh, settle,
      if_neg (Nat.not_lt.2 hidle), List.append_nil]

/-! ## What a search keeps -/

/-- A holder without its stamp, the only part of it that a search changes. -/
def unstamped (h : Holder) : Holder := { h with stamp := 0 }

/-- Two queues with the same holders, whatever their order and stamps. -/
def SameHolders (p q : List Holder) : Prop := (p.map unstamped).Perm (q.map unstamped)

@[simp] theorem address_unstamped (h : Holder) : h.unstamped.address = h.address := rfl

@[simp] theorem unstamped_restamp (h : Holder) : (restamp lastUsed h).unstamped = h.unstamped := rfl

theorem map_unstamped_restamped (hs : List Holder) :
    (restamped lastUsed hs).map unstamped = hs.map unstamped := by
  simp [restamped, Function.comp_def]

/-- A search loses no holder but the one it finds. -/
theorem Searched.sameHolders {queue : List Holder} {r : List Holder × Option Holder}
    (h : Searched lastUsed now idle queue r) : SameHolders (r.2.toList ++ r.1) queue := by
  cases h with
  | exhausted =>
      simp only [SameHolders, Option.toList_none, List.nil_append, map_unstamped_restamped]
      exact List.Perm.refl _
  | tooRecent =>
      simp only [SameHolders, Option.toList_none, List.nil_append, List.map_append,
        map_unstamped_restamped]
      exact List.perm_append_comm
  | found =>
      simp only [SameHolders, Option.toList_some, List.cons_append, List.nil_append,
        List.map_cons, List.map_append, map_unstamped_restamped]
      exact (List.perm_append_comm.cons _).trans List.perm_middle.symm

/-- Every holder of one queue is in the other one, possibly with another stamp. -/
theorem SameHolders.exists_mem {p q : List Holder} (h : SameHolders p q) {x : Holder}
    (hx : x ∈ p) :
    ∃ y ∈ q, y.address = x.address ∧ y.key = x.key ∧ y.number = x.number := by
  have hmem : x.unstamped ∈ q.map unstamped := h.mem_iff.1 (List.mem_map_of_mem hx)
  obtain ⟨y, hy, he⟩ := List.mem_map.1 hmem
  simp only [unstamped, Holder.mk.injEq] at he
  exact ⟨y, hy, he.1, he.2.1, he.2.2.1⟩

theorem SameHolders.symm {p q : List Holder} (h : SameHolders p q) : SameHolders q p :=
  List.Perm.symm h

/-- Whether there is a holder of some kind does not depend on order and stamps. -/
theorem SameHolders.exists_iff {p q : List Holder} (h : SameHolders p q)
    (P : Ipv4 → AllocationKey → Nat → Prop) :
    (∃ x ∈ p, P x.address x.key x.number) ↔ ∃ x ∈ q, P x.address x.key x.number := by
  constructor
  · rintro ⟨x, hx, hP⟩
    obtain ⟨y, hy, haddress, hkey, hnumber⟩ := h.exists_mem hx
    exact ⟨y, hy, by rwa [haddress, hkey, hnumber]⟩
  · rintro ⟨x, hx, hP⟩
    obtain ⟨y, hy, haddress, hkey, hnumber⟩ := h.symm.exists_mem hx
    exact ⟨y, hy, by rwa [haddress, hkey, hnumber]⟩

theorem SameHolders.map_address {p q : List Holder} (h : SameHolders p q) :
    (p.map (·.address)).Perm (q.map (·.address)) := by
  simpa [Function.comp_def] using h.map (·.address)

/-- A search depends on the times of the holders in the queue only. -/
theorem search_congr {f g : Nat → Nat} (steps : Nat) {queue : List Holder}
    (h : ∀ x ∈ queue, f x.number = g x.number) :
    search f now idle steps queue = search g now idle steps queue := by
  induction steps generalizing queue with
  | zero => rfl
  | succ steps ih =>
      cases queue with
      | nil => rfl
      | cons x rest =>
          have hx : f x.number = g x.number := h x List.mem_cons_self
          have hrest : ∀ y ∈ rest ++ [{ x with stamp := g x.number }],
              f y.number = g y.number := by
            intro y hy
            rcases List.mem_append.1 hy with hy | hy
            · exact h y (List.mem_cons_of_mem x hy)
            · rw [List.mem_singleton.1 hy]
              exact hx
          simp only [search, hx]
          rw [ih hrest]

end DnsConnector.Holder
