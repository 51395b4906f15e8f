import Mathlib.Data.List.Forall2

/-!
# DnsConnector.Proofs.Items

Lists whose items are read one after the other.  Reading ends at the first item
that cannot be read, and its fault is that of the whole list (`FirstFault`);
without such an item, the list is read item by item (`mapM_eq_ok_iff`,
`mapM_eq_error_iff`).  It makes no difference if every item is put to use as
soon as it is read (`foldlM_eq_map_mapM`).  Where the last item of some kind
counts, it is searched for from the end (`find?_reverse_eq_some_iff`).
-/

namespace DnsConnector

variable {ε α β σ : Type}

/-! ## Stages -/

/-- A chain comes to something if all its stages do. -/
theorem bind_eq_ok_iff {x : Except ε α} {g : α → Except ε β} {b : β} :
    (x >>= g) = .ok b ↔ ∃ a, x = .ok a ∧ g a = .ok b := by
  cases x with
  | error f => exact iff_of_false nofun fun ⟨_, h, _⟩ => nomatch h
  | ok a => exact ⟨fun h => ⟨a, rfl, h⟩, fun ⟨_, h, hg⟩ => Except.ok.inj h ▸ hg⟩

/-- A chain fails at the first stage that fails. -/
theorem bind_eq_error_iff {x : Except ε α} {g : α → Except ε β} {fault : ε} :
    (x >>= g) = .error fault ↔ x = .error fault ∨ ∃ a, x = .ok a ∧ g a = .error fault := by
  cases x with
  | error f =>
      have hfails : (Except.error f >>= g) = .error f := rfl
      simp [hfails]
  | ok a =>
      constructor
      · exact fun h => .inr ⟨a, rfl, h⟩
      · rintro (h | ⟨_, h, hg⟩)
        · contradiction
        · exact Except.ok.inj h ▸ hg

/-- A check that fails ends a chain. -/
theorem check_eq_ok_iff {c : Prop} [Decidable c] {fault : ε} {k : Unit → Except ε β} {b : β} :
    (if c then throw fault >>= k else k ()) = .ok b ↔ ¬c ∧ k () = .ok b := by
  by_cases h : c
  · rw [if_pos h]
    exact iff_of_false nofun fun hk => hk.1 h
  · rw [if_neg h, and_iff_right h]

theorem map_eq_ok_iff {x : Except ε α} {f : α → β} {b : β} :
    x.map f = .ok b ↔ ∃ a, x = .ok a ∧ f a = b := by
  cases x with
  | error _ => exact iff_of_false nofun fun ⟨_, h, _⟩ => nomatch h
  | ok a =>
      exact ⟨fun h => ⟨a, rfl, Except.ok.inj h⟩,
        fun ⟨_, h, hb⟩ => congrArg Except.ok ((congrArg f (Except.ok.inj h)).trans hb)⟩

theorem map_eq_error_iff {x : Except ε α} {f : α → β} {fault : ε} :
    x.map f = .error fault ↔ x = .error fault := by
  cases x with
  | error _ => rw [Except.map, Except.error.injEq, Except.error.injEq]
  | ok _ => exact iff_of_false nofun nofun

/-- Faults that are only reworded leave success alone. -/
theorem mapError_eq_ok_iff {δ : Type} {x : Except ε α} {f : ε → δ} {a : α} :
    x.mapError f = .ok a ↔ x = .ok a := by
  cases x with
  | error _ => exact iff_of_false nofun nofun
  | ok _ => rw [Except.mapError, Except.ok.injEq, Except.ok.injEq]

theorem mapError_eq_error_iff {δ : Type} {x : Except ε α} {f : ε → δ} {fault : δ} :
    x.mapError f = .error fault ↔ ∃ e, x = .error e ∧ f e = fault := by
  cases x with
  | error e => simp only [Except.mapError, Except.error.injEq, exists_eq_left']
  | ok a => exact iff_of_false nofun fun ⟨_, h, _⟩ => nomatch h

/-! ## The first item that cannot be read -/

variable {read : α → Except ε β} {x : α} {xs : List α} {ys : List β} {fault : ε}

/-- The first item that cannot be read has this fault. -/
def FirstFault (read : α → Except ε β) (xs : List α) (fault : ε) : Prop :=
  ∃ before x after, xs = before ++ x :: after ∧ (∀ y ∈ before, ∃ b, read y = .ok b) ∧
    read x = .error fault

theorem not_firstFault_nil : ¬FirstFault read [] fault := by
  rintro ⟨before, x, after, hxs, -⟩
  simp at hxs

theorem firstFault_cons : FirstFault read (x :: xs) fault ↔
    read x = .error fault ∨ (∃ b, read x = .ok b) ∧ FirstFault read xs fault := by
  constructor
  · rintro ⟨before, z, after, hxs, hbefore, hz⟩
    cases before with
    | nil =>
        obtain ⟨rfl, -⟩ := List.cons.inj hxs
        exact .inl hz
    | cons y before =>
        obtain ⟨rfl, rfl⟩ := List.cons.inj hxs
        obtain ⟨hy, hbefore⟩ := List.forall_mem_cons.1 hbefore
        exact .inr ⟨hy, before, z, after, rfl, hbefore, hz⟩
  · rintro (hx | ⟨hx, before, z, after, rfl, hbefore, hz⟩)
    · exact ⟨[], x, xs, rfl, nofun, hx⟩
    · exact ⟨x :: before, z, after, rfl, List.forall_mem_cons.2 ⟨hx, hbefore⟩, hz⟩

/-! ## Reading all items -/

theorem mapM_eq_ok_iff : xs.mapM read = .ok ys ↔ List.Forall₂ (read · = .ok ·) xs ys := by
  induction xs generalizing ys with
  | nil =>
      rw [List.mapM_nil, List.forall₂_nil_left_iff, eq_comm]
      exact ⟨Except.ok.inj, congrArg Except.ok⟩
  | cons x xs ih =>
      rw [List.mapM_cons, bind_eq_ok_iff, List.forall₂_cons_left_iff]
      refine exists_congr fun y => ?_
      rw [bind_eq_ok_iff, exists_and_left]
      refine and_congr_right fun _ => exists_congr fun zs => and_congr ih ?_
      exact ⟨fun h => (Except.ok.inj h).symm, fun h => congrArg Except.ok h.symm⟩

/-- What was read are the readings of the items. -/
theorem exists_mem_read_iff (h : List.Forall₂ (read · = .ok ·) xs ys) {p : β → Prop} :
    (∃ y ∈ ys, p y) ↔ ∃ x ∈ xs, ∃ y, read x = .ok y ∧ p y := by
  induction h with
  | nil => exact iff_of_false nofun nofun
  | @cons x y xs ys hread _ ih => simp only [List.exists_mem_cons_iff, ih, hread, Except.ok.injEq, exists_eq_left']

theorem mapM_eq_error_iff : xs.mapM read = .error fault ↔ FirstFault read xs fault := by
  induction xs with
  | nil => exact iff_of_false nofun not_firstFault_nil
  | cons x xs ih =>
      rw [List.mapM_cons, bind_eq_error_iff, firstFault_cons, ← ih]
      refine or_congr_right ?_
      simp only [bind_eq_error_iff]
      constructor
      · rintro ⟨y, hy, hxs | ⟨ys, -, h⟩⟩
        · exact ⟨⟨y, hy⟩, hxs⟩
        · contradiction
      · rintro ⟨⟨y, hy⟩, hxs⟩
        exact ⟨y, hy, .inl hxs⟩

/-- A list can be read, or has a first fault. -/
theorem exists_mapM_eq_ok_iff : (∃ ys, xs.mapM read = .ok ys) ↔ ∀ x ∈ xs, ∃ y, read x = .ok y := by
  simp only [mapM_eq_ok_iff]
  induction xs with
  | nil => exact iff_of_true ⟨[], .nil⟩ nofun
  | cons x xs ih =>
      rw [List.forall_mem_cons, ← ih]
      constructor
      · rintro ⟨_, _ | ⟨hy, hys⟩⟩
        exact ⟨⟨_, hy⟩, _, hys⟩
      · rintro ⟨⟨y, hy⟩, ys, hys⟩
        exact ⟨y :: ys, .cons hy hys⟩

theorem exists_firstFault_iff :
    (∃ fault, FirstFault read xs fault) ↔ ∃ x ∈ xs, ∃ fault, read x = .error fault := by
  constructor
  · rintro ⟨fault, before, x, after, rfl, -, hx⟩
    exact ⟨x, List.mem_append_right _ List.mem_cons_self, fault, hx⟩
  · rintro ⟨x, hx, fault, hfault⟩
    cases hread : xs.mapM read with
    | error f => exact ⟨f, mapM_eq_error_iff.1 hread⟩
    | ok ys =>
        obtain ⟨y, hy⟩ := exists_mapM_eq_ok_iff.1 ⟨ys, hread⟩ x hx
        rw [hfault] at hy
        contradiction

/-- Items that are only checked are all checked. -/
theorem forM_eq_ok_iff {check : α → Except ε Unit} :
    xs.forM check = .ok () ↔ ∀ x ∈ xs, check x = .ok () := by
  induction xs with
  | nil => exact iff_of_true rfl nofun
  | cons x xs ih =>
      rw [List.forM, bind_eq_ok_iff, List.forall_mem_cons, ← ih]
      exact ⟨fun ⟨_, h⟩ => h, fun h => ⟨(), h⟩⟩

/-- Items put to use as they are read are read like a list. -/
theorem foldlM_eq_map_mapM {step : σ → α → Except ε σ} {put : σ → β → σ}
    (h : ∀ s x, step s x = (read x).map (put s)) (xs : List α) (s : σ) :
    xs.foldlM step s = (xs.mapM read).map (·.foldl put s) := by
  induction xs generalizing s with
  | nil => rfl
  | cons x xs ih =>
      rw [List.foldlM_cons, List.mapM_cons, h]
      cases read x with
      | error f => rfl
      | ok y =>
          refine (ih (put s y)).trans ?_
          cases xs.mapM read with
          | error f => rfl
          | ok ys => rfl

variable {step : σ → α → Except ε σ} {put : σ → β → σ} {s t : σ}

theorem foldlM_eq_ok_iff (h : ∀ s x, step s x = (read x).map (put s)) :
    xs.foldlM step s = .ok t ↔ ∃ ys, List.Forall₂ (read · = .ok ·) xs ys ∧ ys.foldl put s = t := by
  rw [foldlM_eq_map_mapM h, map_eq_ok_iff]
  simp only [mapM_eq_ok_iff]

theorem foldlM_eq_error_iff (h : ∀ s x, step s x = (read x).map (put s)) :
    xs.foldlM step s = .error fault ↔ FirstFault read xs fault := by
  rw [foldlM_eq_map_mapM h, map_eq_error_iff, mapM_eq_error_iff]

theorem exists_foldlM_eq_ok_iff (h : ∀ s x, step s x = (read x).map (put s)) :
    (∃ t, xs.foldlM step s = .ok t) ↔ ∀ x ∈ xs, ∃ y, read x = .ok y := by
  rw [← exists_mapM_eq_ok_iff, foldlM_eq_map_mapM h]
  constructor
  · rintro ⟨t, ht⟩
    obtain ⟨ys, hys, -⟩ := map_eq_ok_iff.1 ht
    exact ⟨ys, hys⟩
  · rintro ⟨ys, hys⟩
    exact ⟨_, map_eq_ok_iff.2 ⟨ys, hys, rfl⟩⟩

theorem foldlM_append_singleton (step : σ → α → Except ε σ) (xs : List α) (x : α) (s : σ) :
    (xs ++ [x]).foldlM step s = xs.foldlM step s >>= (step · x) := by
  rw [List.foldlM_append]
  refine congrArg (xs.foldlM step s >>= ·) (funext fun t => ?_)
  rw [List.foldlM_cons]
  exact bind_pure _

/-! ## The last item of a kind -/

theorem find?_reverse_eq_some_iff {p : α → Bool} : xs.reverse.find? p = some x ↔
    ∃ before after, xs = before ++ x :: after ∧ p x = true ∧ ∀ y ∈ after, p y = false := by
  rw [List.find?_eq_some_iff_append]
  constructor
  · rintro ⟨hx, behind, front, hreverse, hbehind⟩
    refine ⟨front.reverse, behind.reverse, ?_, hx, by simpa using hbehind⟩
    rw [← List.reverse_reverse xs, hreverse, List.reverse_append, List.reverse_cons,
      List.append_assoc, List.singleton_append]
  · rintro ⟨before, after, rfl, hx, hafter⟩
    exact ⟨hx, after.reverse, before.reverse, by simp, by simpa using hafter⟩

end DnsConnector
