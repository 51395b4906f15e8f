import DnsConnector.AddressBook

/-!
# DnsConnector.Proofs.AddressBook.Steps

What the small steps of a book do to what can be read from it: to the IPv4
address, the IPv6 address and the last use of the allocation with a number.
Every other field that a step does not mention is unchanged by definition.
-/

namespace DnsConnector.AddressBook

/-- The IPv6 address of the allocation with a number. -/
def v6At (b : AddressBook) (i : Nat) : Option Ipv6 := b.allocations[i]?.map (·.v6)

/-- The IPv4 address of the record of a key. -/
def v4? (b : AddressBook) (k : AllocationKey) : Option Ipv4 := (b.records.get? k).bind b.v4At

/-- The IPv6 address of the record of a key. -/
def v6? (b : AddressBook) (k : AllocationKey) : Option Ipv6 := (b.records.get? k).bind b.v6At

/-- The addresses of the record of a key; a key without record has none. -/
def addresses (b : AddressBook) (k : AllocationKey) : List IpAddress :=
  ((b.records.get? k).map b.addressesAt).getD []

variable {b : AddressBook}

/-! ## Fields -/

@[simp] theorem pool_hold (k : AllocationKey) (i : Nat) (a : Ipv4) :
    (b.hold k i a).pool = b.pool := rfl

@[simp] theorem handedOut_hold (k : AllocationKey) (i : Nat) (a : Ipv4) :
    (b.hold k i a).handedOut = b.handedOut := rfl

@[simp] theorem length_allocations_change (i : Nat) (f : Allocation → Allocation) :
    (b.change i f).allocations.length = b.allocations.length := by
  simp [change]

@[simp] theorem length_allocations_hold (k : AllocationKey) (i : Nat) (a : Ipv4) :
    (b.hold k i a).allocations.length = b.allocations.length := by
  simp [hold]

@[simp] theorem length_allocations_release (h : Holder) :
    (b.release h).allocations.length = b.allocations.length := by
  simp [release]

@[simp] theorem length_allocations_touch (i now : Nat) :
    (b.touch i now).allocations.length = b.allocations.length := by
  simp [touch]

/-! ## Allocations -/

theorem getElem?_change (i j : Nat) (f : Allocation → Allocation) :
    (b.change i f).allocations[j]? =
      if j = i then b.allocations[j]?.map f else b.allocations[j]? := by
  rw [change, List.getElem?_modify]
  by_cases h : j = i
  · subst h; simp
  · have hne : ¬ i = j := fun e => h e.symm
    cases b.allocations[j]? <;> simp [h, hne]

theorem getElem?_add (r : Allocation) (j : Nat) :
    (b.add r).allocations[j]? =
      if j = b.allocations.length then some r else b.allocations[j]? := by
  rw [add, List.getElem?_append]
  split
  next h => rw [if_neg (Nat.ne_of_lt h)]
  next h =>
    by_cases he : j = b.allocations.length
    · subst he; simp
    · have hlt : b.allocations.length < j := by omega
      rw [if_neg he, List.getElem?_eq_none (by simp; omega), List.getElem?_eq_none (by omega)]

/-- What a change leaves alone in every allocation can be read as before. -/
theorem bind_getElem?_change {α : Type} {f : Allocation → Allocation} {g : Allocation → Option α}
    (h : ∀ r, g (f r) = g r) (i j : Nat) :
    (b.change i f).allocations[j]?.bind g = b.allocations[j]?.bind g := by
  rw [getElem?_change]
  split
  · cases b.allocations[j]? with
    | none => rfl
    | some r => exact h r
  · rfl

theorem map_getElem?_change {α : Type} {f : Allocation → Allocation} {g : Allocation → α}
    (h : ∀ r, g (f r) = g r) (i j : Nat) :
    (b.change i f).allocations[j]?.map g = b.allocations[j]?.map g := by
  simp only [Option.map_eq_bind]
  refine bind_getElem?_change ?_ i j
  intro r
  exact congrArg some (h r)

/-- There is nothing behind the last allocation. -/
theorem getElem?_length_allocations : b.allocations[b.allocations.length]? = none :=
  List.getElem?_eq_none (Nat.le_refl _)

/-! ## IPv4 addresses -/

@[simp] theorem v4At_touch (i now j : Nat) : (b.touch i now).v4At j = b.v4At j := by
  refine bind_getElem?_change ?_ i j
  exact fun _ => rfl

@[simp] theorem v4At_add (v6 : Ipv6) (now j : Nat) :
    (b.add ⟨none, v6, now⟩).v4At j = b.v4At j := by
  rw [v4At, getElem?_add, v4At]
  split
  next h => rw [h, getElem?_length_allocations]; rfl
  next => rfl

@[simp] theorem v4?_touch (i now : Nat) (k : AllocationKey) : (b.touch i now).v4? k = b.v4? k :=
  congrArg _ (funext (v4At_touch i now))

theorem v4At_release (h : Holder) (j : Nat) :
    (b.release h).v4At j = if j = h.number then none else b.v4At j := by
  change ((b.change h.number _).allocations[j]?.bind _) = _
  rw [getElem?_change]
  split
  · cases b.allocations[j]? <;> rfl
  · rfl

theorem v4At_hold (k : AllocationKey) {i : Nat} (hi : i < b.allocations.length) (a : Ipv4)
    (j : Nat) : (b.hold k i a).v4At j = if j = i then some a else b.v4At j := by
  change ((b.change i _).allocations[j]?.bind _) = _
  rw [getElem?_change]
  split
  next h => subst h; rw [List.getElem?_eq_getElem hi]; rfl
  next => rfl

/-! ## IPv6 addresses -/

@[simp] theorem v6At_touch (i now j : Nat) : (b.touch i now).v6At j = b.v6At j := by
  refine map_getElem?_change ?_ i j
  exact fun _ => rfl

@[simp] theorem v6?_touch (i now : Nat) (k : AllocationKey) : (b.touch i now).v6? k = b.v6? k :=
  congrArg _ (funext (v6At_touch i now))

theorem v6At_add (v6 : Ipv6) (now j : Nat) :
    (b.add ⟨none, v6, now⟩).v6At j =
      if j = b.allocations.length then some v6 else b.v6At j := by
  rw [v6At, getElem?_add]
  split <;> rfl

@[simp] theorem v6At_release (h : Holder) (j : Nat) : (b.release h).v6At j = b.v6At j := by
  refine map_getElem?_change ?_ h.number j
  exact fun _ => rfl

@[simp] theorem v6At_hold (k : AllocationKey) (i : Nat) (a : Ipv4) (j : Nat) :
    (b.hold k i a).v6At j = b.v6At j := by
  refine map_getElem?_change ?_ i j
  exact fun _ => rfl

/-! ## Last uses -/

theorem lastUsedAt_touch {i : Nat} (hi : i < b.allocations.length) (now j : Nat) :
    (b.touch i now).lastUsedAt j =
      if j = i then max (b.lastUsedAt i) now else b.lastUsedAt j := by
  rw [lastUsedAt, touch, getElem?_change]
  split
  next h => subst h; simp [lastUsedAt, List.getElem?_eq_getElem hi]
  next => rfl

theorem lastUsedAt_add (v6 : Ipv6) (now j : Nat) :
    (b.add ⟨none, v6, now⟩).lastUsedAt j =
      if j = b.allocations.length then now else b.lastUsedAt j := by
  rw [lastUsedAt, getElem?_add]
  split <;> rfl

@[simp] theorem lastUsedAt_release (h : Holder) (j : Nat) :
    (b.release h).lastUsedAt j = b.lastUsedAt j := by
  refine congrArg (Option.getD · 0) (map_getElem?_change ?_ h.number j)
  exact fun _ => rfl

@[simp] theorem lastUsedAt_hold (k : AllocationKey) (i : Nat) (a : Ipv4) (j : Nat) :
    (b.hold k i a).lastUsedAt j = b.lastUsedAt j := by
  refine congrArg (Option.getD · 0) (map_getElem?_change ?_ i j)
  exact fun _ => rfl

/-! ## What is read together -/

/-- The addresses of an allocation are its IPv4 address, if it has one, and its
IPv6 address. -/
theorem addressesAt_eq {i : Nat} {x : Ipv6} (h : b.v6At i = some x) :
    b.addressesAt i = ((b.v4At i).map IpAddress.v4).toList ++ [.v6 x] := by
  obtain ⟨r, hr, rfl⟩ := Option.map_eq_some_iff.1 h
  simp [addressesAt, v4At, hr, Allocation.addresses]

theorem mem_addressesAt_v4 {i : Nat} {a : Ipv4} :
    .v4 a ∈ b.addressesAt i ↔ b.v4At i = some a := by
  cases hr : b.allocations[i]? with
  | none => simp [addressesAt, v4At, hr]
  | some r => cases hv : r.v4 <;> simp [addressesAt, v4At, hr, Allocation.addresses, hv, eq_comm]

theorem mem_addressesAt_v6 {i : Nat} {x : Ipv6} :
    .v6 x ∈ b.addressesAt i ↔ b.v6At i = some x := by
  cases hr : b.allocations[i]? with
  | none => simp [addressesAt, v6At, hr]
  | some r => cases hv : r.v4 <;> simp [addressesAt, v6At, hr, Allocation.addresses, hv, eq_comm]

theorem mem_addresses_v4 {k : AllocationKey} {a : Ipv4} :
    .v4 a ∈ b.addresses k ↔ b.v4? k = some a := by
  cases hk : b.records.get? k with
  | none => simp [addresses, v4?, hk]
  | some i => simp [addresses, v4?, hk, mem_addressesAt_v4]

theorem mem_addresses_v6 {k : AllocationKey} {x : Ipv6} :
    .v6 x ∈ b.addresses k ↔ b.v6? k = some x := by
  cases hk : b.records.get? k with
  | none => simp [addresses, v6?, hk]
  | some i => simp [addresses, v6?, hk, mem_addressesAt_v6]

end DnsConnector.AddressBook
