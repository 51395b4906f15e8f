import DnsConnector.Proofs.AddressBook.Coherence

/-!
# DnsConnector.Proofs.AddressBook.Rotation

Taking back an address, in closed form.  The search for an idle holder turns the
queue while it looks at it: the holders at the front that were used since they
were queued (`spared`) go to the back one by one, restamped, and the first other
one decides alone.  `reclaim_rotates` says for every queue what is left of the
book then.

It also says which holders were looked at.  For that the search is written down
once more with a log, which changes nothing about it (`searchLogged_eq`).  After
as many looks as there are holders in `front`, all of them touched, the queue is
the rest of it followed by `front` restamped; the log grows by the holder that
is first then, so it never reaches the restamped ones.
-/

namespace DnsConnector

namespace Holder

variable {lastUsed : Nat → Nat} {now idle : Nat}

/-! ## The holders that a search looks at -/

/-- A search together with the holders that it looks at, as it finds them. -/
def searchLogged (lastUsed : Nat → Nat) (now idle : Nat) :
    Nat → List Holder → List Holder × List Holder × Option Holder
  | 0, queue => ([], queue, none)
  | _ + 1, [] => ([], [], none)
  | steps + 1, h :: rest =>
    if h.stamp < lastUsed h.number then
      let r := searchLogged lastUsed now idle steps (rest ++ [restamp lastUsed h])
      (h :: r.1, r.2)
    else if now - lastUsed h.number < idle then ([h], h :: rest, none)
    else ([h], rest, some h)

/-- The log is only an addition. -/
theorem snd_searchLogged (steps : Nat) (queue : List Holder) :
    (searchLogged lastUsed now idle steps queue).2 = search lastUsed now idle steps queue := by
  induction steps generalizing queue with
  | zero => rfl
  | succ steps ih =>
      cases queue with
      | nil => rfl
      | cons h rest =>
          rw [searchLogged, search]
          split
          · exact ih (rest ++ [restamp lastUsed h])
          · split <;> rfl

/-- A search over the holders of `queue`, behind which there are the touched
holders of `front`, does not look at those again. -/
theorem fst_searchLogged_append (front queue : List Holder) :
    (searchLogged lastUsed now idle queue.length (queue ++ restamped lastUsed front)).1 =
      queue.take ((queue.takeWhile (touched lastUsed)).length + 1) := by
  induction queue generalizing front with
  | nil => rfl
  | cons h rest ih =>
      rw [List.length_cons, List.cons_append, searchLogged, List.take_succ_cons]
      by_cases ht : h.stamp < lastUsed h.number
      · have hb : touched lastUsed h = true := touched_iff.2 ht
        rw [if_pos ht, List.takeWhile_cons_of_pos hb, append_restamped_append_singleton,
          List.length_cons]
        exact congrArg (h :: ·) (ih (front ++ [h]))
      · have hb : ¬ touched lastUsed h = true := mt touched_iff.1 ht
        rw [if_neg ht, List.takeWhile_cons_of_neg hb, List.length_nil, List.take_zero]
        split <;> rfl

/-- A search that may look at every holder once looks at the touched holders at
the front and at the one behind them. -/
theorem searchLogged_eq (queue : List Holder) :
    searchLogged lastUsed now idle queue.length queue =
      (queue.take ((queue.takeWhile (touched lastUsed)).length + 1),
        search lastUsed now idle queue.length queue) := by
  refine Prod.ext ?_ (snd_searchLogged queue.length queue)
  simpa using @fst_searchLogged_append lastUsed now idle [] queue

end Holder

namespace AddressBook

open Holder

variable {b : AddressBook} {now : Nat} {h : Holder} {rest : List Holder}

/-! ## The queue of a book -/

/-- The holders at the front of the queue that were used since they were queued. -/
def spared (b : AddressBook) : List Holder := b.queue.takeWhile (touched b.lastUsedAt)

/-- The holder behind those at the front, if there is one, was not used. -/
theorem spared_eq_or (b : AddressBook) : b.spared = b.queue ∨
    ∃ h rest, b.queue = b.spared ++ h :: rest ∧ b.lastUsedAt h.number ≤ h.stamp := by
  have hcut := List.takeWhile_append_dropWhile (p := touched b.lastUsedAt) (l := b.queue)
  cases hrest : b.queue.dropWhile (touched b.lastUsedAt) with
  | nil =>
      rw [hrest, List.append_nil] at hcut
      exact .inl hcut
  | cons h rest =>
      rw [hrest] at hcut
      exact .inr ⟨h, rest, hcut.symm, le_of_dropWhile_eq_cons hrest⟩

/-- The search of a book, in closed form. -/
theorem findIdle_eq_settle (hqueue : b.queue = b.spared ++ rest) (now : Nat) :
    b.findIdle now = settle b.lastUsedAt now b.idleLimit b.spared rest := by
  have hrest : b.queue.dropWhile (touched b.lastUsedAt) = rest :=
    List.append_cancel_left (List.takeWhile_append_dropWhile.trans hqueue)
  rw [findIdle, search_eq, hrest, spared]

/-! ## What is left of a book -/

/-- A book in which the holder `h` has given up its address. -/
structure GaveUp (b : AddressBook) (h : Holder) (b' : AddressBook) : Prop where
  v4At_number : b'.v4At h.number = none
  /-- Other allocations are as they were, and so is the rest of this one. -/
  getElem?_allocations : ∀ i, b'.allocations[i]? =
    b.allocations[i]?.map fun r => if i = h.number then { r with v4 := none } else r
  owner?_eq : ∀ a, b'.owner? a = if a = .v4 h.address then none else b.owner? a
  /-- Nothing else is different but the queue. -/
  besides : { b' with allocations := b.allocations, owners := b.owners, queue := b.queue } = b

theorem gaveUp_release (queue : List Holder) (h : Holder) :
    GaveUp b h ({ b with queue }.release h) where
  v4At_number := by rw [v4At_release, if_pos rfl]
  getElem?_allocations i := by
    change ({ b with queue }.change h.number _).allocations[i]? = _
    rw [getElem?_change]
    split
    · rfl
    · exact Option.map_id'.symm
  owner?_eq a := Table.get?_erase b.owners (.v4 h.address) a
  besides := rfl

/-- What an attempt to take back an address makes of a book and returns. -/
structure Rotates (b : AddressBook) (now : Nat) (r : AddressBook × Option Ipv4) : Prop where
  /-- The queue is cut before the first holder that was not used since it was queued. -/
  cut : (∀ x ∈ b.spared, x.stamp < b.lastUsedAt x.number) ∧ (b.spared = b.queue ∨
    ∃ h rest, b.queue = b.spared ++ h :: rest ∧ b.lastUsedAt h.number ≤ h.stamp)
  /-- There is no such holder. -/
  of_allSpared : b.spared = b.queue →
    r = ({ b with queue := b.queue.map (restamp b.lastUsedAt) }, none)
  /-- It has not been idle for long enough. -/
  of_recent : ∀ h rest, b.queue = b.spared ++ h :: rest →
    now - b.lastUsedAt h.number < b.idleLimit →
    r = ({ b with queue := h :: rest ++ b.spared.map (restamp b.lastUsedAt) }, none)
  /-- It has, and gives up its address. -/
  of_idle : ∀ h rest, b.queue = b.spared ++ h :: rest →
    b.idleLimit ≤ now - b.lastUsedAt h.number →
    r.2 = some h.address ∧ GaveUp b h r.1 ∧
      r.1.queue = rest ++ b.spared.map (restamp b.lastUsedAt)
  /-- Each holder is looked at once at most, and none behind the one that decides. -/
  lookedAt : searchLogged b.lastUsedAt now b.idleLimit b.queue.length b.queue =
    (b.queue.take (b.spared.length + 1), b.findIdle now)
  nodup_lookedAt : ((b.queue.take (b.spared.length + 1)).map (·.address)).Nodup
  /-- The holders are the same but for the one that gave up its address. -/
  keeps : ∃ loser : Option Holder, r.2 = loser.map (·.address) ∧
    SameHolders (loser.toList ++ r.1.queue) b.queue
  nodup_queue : (r.1.queue.map (·.address)).Nodup

theorem queue_reclaim (b : AddressBook) (now : Nat) :
    (b.reclaim now).1.queue = (b.findIdle now).1 := by
  rw [reclaim]
  split
  next he => rw [he]
  next he => rw [he]; rfl

theorem snd_reclaim (b : AddressBook) (now : Nat) :
    (b.reclaim now).2 = (b.findIdle now).2.map (·.address) := by
  rw [reclaim]
  split
  next he => rw [he]; rfl
  next he => rw [he]; rfl

theorem reclaim_of_allSpared (hqueue : b.spared = b.queue) :
    b.reclaim now = ({ b with queue := b.queue.map (restamp b.lastUsedAt) }, none) := by
  have hwhole : b.queue = b.spared ++ [] := by rw [hqueue, List.append_nil]
  rw [reclaim, findIdle_eq_settle hwhole, settle, hqueue]

theorem reclaim_of_recent (hqueue : b.queue = b.spared ++ h :: rest)
    (hrecent : now - b.lastUsedAt h.number < b.idleLimit) :
    b.reclaim now =
      ({ b with queue := h :: rest ++ b.spared.map (restamp b.lastUsedAt) }, none) := by
  rw [reclaim, findIdle_eq_settle hqueue, settle, if_pos hrecent]

theorem reclaim_of_idle (hqueue : b.queue = b.spared ++ h :: rest)
    (hidle : b.idleLimit ≤ now - b.lastUsedAt h.number) :
    b.reclaim now =
      ({ b with queue := rest ++ b.spared.map (restamp b.lastUsedAt) }.release h,
        some h.address) := by
  rw [reclaim, findIdle_eq_settle hqueue, settle, if_neg (Nat.not_lt.2 hidle)]

/-- **Rotation.**  Of a queue without repeated addresses, the holders at the
front that were used since they were queued go to the back with new stamps.  If
the first other one has been idle long enough it gives up its address and leaves
the queue; if not, or if there is none, nothing else happens. -/
theorem reclaim_rotates (b : AddressBook) (now : Nat)
    (hnodup : (b.queue.map (·.address)).Nodup) : Rotates b now (b.reclaim now) where
  cut := ⟨fun _ => lt_of_mem_takeWhile, spared_eq_or b⟩
  of_allSpared := reclaim_of_allSpared
  of_recent _ _ := reclaim_of_recent
  of_idle h rest hqueue hidle := by
    rw [reclaim_of_idle hqueue hidle]
    exact ⟨rfl, gaveUp_release _ h, rfl⟩
  lookedAt := searchLogged_eq b.queue
  nodup_lookedAt := hnodup.sublist ((List.take_sublist _ _).map _)
  keeps := by
    refine ⟨(b.findIdle now).2, snd_reclaim b now, ?_⟩
    rw [queue_reclaim]
    exact sameHolders_of_findIdle rfl
  nodup_queue := by
    have hsame : SameHolders ((b.findIdle now).2.toList ++ (b.findIdle now).1) b.queue :=
      sameHolders_of_findIdle rfl
    have hall := hsame.map_address.nodup_iff.2 hnodup
    rw [List.map_append] at hall
    rw [queue_reclaim]
    exact (List.nodup_append.1 hall).2.1

/-! ## A queue of five -/

/-- Five names, the first two of which are asked for again. -/
def askedInTurn : List Call :=
  [⟨⟨"p"⟩, "a", .both, 0⟩, ⟨⟨"p"⟩, "b", .both, 0⟩, ⟨⟨"p"⟩, "c", .both, 0⟩,
    ⟨⟨"q"⟩, "d", .both, 0⟩, ⟨⟨"q"⟩, "e", .both, 0⟩, ⟨⟨"p"⟩, "a", .v6, 5⟩, ⟨⟨"p"⟩, "b", .v4, 5⟩]

/-- The book of a plan after these names were asked for. -/
def heldByFive (plan : AddressPlan) : AddressBook :=
  (empty plan.pool (SiteNetwork.ofSite 1) 1000).run askedInTurn

/-- The third name loses its address, and the first two go behind the others. -/
theorem reclaim_rotates_of_askedInTurn :
    ∃ plan, AddressPlan.ofNetworks [⟨0x0a000000#32, 29, by decide⟩] = .ok plan ∧
      ((heldByFive plan).queue.map (·.address)).Nodup ∧
      ((heldByFive plan).reclaim 2000).2 = some 0x0a000004#32 ∧
      ((heldByFive plan).reclaim 2000).1.queue.map (fun x => (x.address, x.stamp)) =
        [(0x0a000005#32, 0), (0x0a000006#32, 0), (0x0a000002#32, 5), (0x0a000003#32, 5)] := by
  have hplan : AddressPlan.ofNetworks [⟨0x0a000000#32, 29, by decide⟩] =
      .ok (.ofRoutes ⟨0x0a000000#32, 29, by decide⟩ []) := by decide
  have hnodup : ((heldByFive (.ofRoutes ⟨0x0a000000#32, 29, by decide⟩ [])).queue.map
      (·.address)).Nodup := by decide
  have hrotates := reclaim_rotates _ 2000 hnodup
  obtain ⟨haddress, -, hqueue⟩ := hrotates.of_idle ⟨0x0a000004#32, ⟨⟨"p"⟩, ⟨"c."⟩⟩, 2, 0⟩
    [⟨0x0a000005#32, ⟨⟨"q"⟩, ⟨"d."⟩⟩, 3, 0⟩, ⟨0x0a000006#32, ⟨⟨"q"⟩, ⟨"e."⟩⟩, 4, 0⟩]
    (by decide) (by decide)
  exact ⟨_, hplan, hnodup, haddress, by rw [hqueue]; decide⟩

end AddressBook

end DnsConnector
