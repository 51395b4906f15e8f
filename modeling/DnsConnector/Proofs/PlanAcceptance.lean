import DnsConnector.Proofs.AddressPlan
import DnsConnector.Proofs.Items
import Mathlib.Data.List.Induction
import Mathlib.Data.Set.Basic

/-!
# DnsConnector.Proofs.PlanAcceptance

Which networks can be serviced together: those that have hosts and whose blocks
of addresses are disjoint, at least one of them (`accepts_iff_compatible`).  The
block of a network is said without the network's lowest address, as all
addresses with the same leading bits.

Networks are added one by one and each is compared with those before it, so
what is said about a list is said about its fronts first: a list is compatible
if its front is and the last network is compatible with the front
(`compatible_append_singleton`), and the fault that is reported is that of the
first network that is not compatible with its front (`FirstRejected`).
-/

namespace DnsConnector

/-! ## Blocks of addresses -/

namespace Network

variable {w : Nat}

/-- The addresses that agree with the given one in all bits that are fixed. -/
def block (n : Network w) : Set (BitVec w) :=
  { a | ∀ i < n.length, a.getMsbD i = n.address.getMsbD i }

/-- The leading bits are kept and the others are zero. -/
theorem getMsbD_keepTop {len : Nat} (h : len ≤ w) (a : BitVec w) (i : Nat) :
    (keepTop len a).getMsbD i = (decide (i < len) && a.getMsbD i) := by
  rw [keepTop, BitVec.getMsbD_shiftLeft, BitVec.getMsbD_ushiftRight, Nat.add_sub_cancel]
  by_cases hi : i < len
  · have hfits : i + (w - len) < w := by omega
    simp [hi, hfits]
  · have hbeyond : ¬i + (w - len) < w := by omega
    simp [hi, hbeyond]

theorem mem_block_iff {n : Network w} {a : BitVec w} : a ∈ n.block ↔ n.contains a = true := by
  rw [contains, beq_iff_eq, first]
  constructor
  · intro h
    refine BitVec.eq_of_getMsbD_eq fun i _ => ?_
    rw [getMsbD_keepTop n.length_le, getMsbD_keepTop n.length_le]
    by_cases hi : i < n.length
    · rw [h i hi]
    · simp [hi]
  · intro h i hi
    have hbit := congrArg (BitVec.getMsbD · i) h
    simpa [getMsbD_keepTop n.length_le, hi] using hbit

@[simp] theorem block_masked (n : Network w) : n.masked.block = n.block := by
  ext a
  rw [mem_block_iff, mem_block_iff, contains_masked]

/-- Networks overlap iff their blocks have an address in common. -/
theorem overlaps_iff_inter_nonempty (m n : Network w) :
    m.overlaps n = true ↔ (m.block ∩ n.block).Nonempty := by
  rw [overlaps_iff]
  exact exists_congr fun a => and_congr mem_block_iff.symm mem_block_iff.symm

end Network

namespace AddressPlan

/-! ## Adding a network -/

/-- Networks that have hosts and of which no two have an address in common. -/
structure Compatible (ns : List (Network 32)) : Prop where
  length_le : ∀ n ∈ ns, n.length ≤ longestLength
  disjoint : ns.Pairwise fun m n => m.block ∩ n.block = ∅

/-- What is wrong with a network that is to be added to others. -/
inductive Rejected (before : List (Network 32)) (n : Network 32) : PlanFault → Prop
  | noHost (hlength : longestLength < n.length) : Rejected before n (.noHost n)
  /-- The first of the others that it shares an address with is `earlier`. -/
  | overlap {front back : List (Network 32)} {earlier : Network 32}
      (hlength : n.length ≤ longestLength) (hbefore : before = front ++ earlier :: back)
      (hfront : ∀ m ∈ front, m.block ∩ n.block = ∅)
      (hearlier : (earlier.block ∩ n.block).Nonempty) :
      Rejected before n (.overlap n.masked earlier.masked)

variable {ns before : List (Network 32)} {n : Network 32} {fault : PlanFault}
  {routes : List (Network 32)}

theorem Compatible.nil : Compatible [] := ⟨nofun, List.Pairwise.nil⟩

theorem compatible_append_singleton :
    Compatible (before ++ [n]) ↔ Compatible before ∧ n.length ≤ longestLength ∧
      ∀ m ∈ before, m.block ∩ n.block = ∅ := by
  constructor
  · rintro ⟨hlength, hdisjoint⟩
    obtain ⟨hbefore, -, hlast⟩ := List.pairwise_append.1 hdisjoint
    exact ⟨⟨fun m hm => hlength m (List.mem_append_left _ hm), hbefore⟩,
      hlength n (by simp), fun m hm => hlast m hm n List.mem_cons_self⟩
  · rintro ⟨⟨hlengths, hbefore⟩, hlength, hlast⟩
    refine ⟨fun m hm => ?_, List.pairwise_append.2 ⟨hbefore, List.pairwise_singleton _ _, ?_⟩⟩
    · rcases List.mem_append.1 hm with hm | hm
      · exact hlengths m hm
      · exact List.mem_singleton.1 hm ▸ hlength
    · intro m hm x hx
      exact List.mem_singleton.1 hx ▸ hlast m hm

/-- The route that a network overlaps, if any, is that of the first network it
shares an address with. -/
theorem find?_overlaps_eq (before : List (Network 32)) (n : Network 32) :
    (before.map Network.masked).find? (·.overlaps n.masked) =
      (before.find? (·.overlaps n)).map Network.masked := by
  have hsame : ∀ m : Network 32, m.masked.overlaps n.masked = m.overlaps n := by
    intro m
    rw [Bool.eq_iff_iff, Network.overlaps_iff_inter_nonempty, Network.overlaps_iff_inter_nonempty,
      Network.block_masked, Network.block_masked]
  rw [List.find?_map]
  exact congrArg (fun p => (before.find? p).map Network.masked) (funext hsame)

theorem not_overlaps_iff {m : Network 32} :
    ¬m.overlaps n = true ↔ m.block ∩ n.block = ∅ := by
  rw [Network.overlaps_iff_inter_nonempty, Set.not_nonempty_iff_eq_empty]

theorem addRoute_eq_ok_iff :
    addRoute (before.map Network.masked) n = .ok routes ↔
      n.length ≤ longestLength ∧ (∀ m ∈ before, m.block ∩ n.block = ∅) ∧
        routes = (before ++ [n]).map Network.masked := by
  rw [addRoute_eq, find?_overlaps_eq]
  by_cases hlength : longestLength < n.length
  · rw [if_pos hlength]
    exact iff_of_false (by simp) fun h => Nat.not_le.2 hlength h.1
  · rw [if_neg hlength, and_iff_right (Nat.le_of_not_lt hlength)]
    cases hfind : before.find? (·.overlaps n) with
    | none =>
        have hdisjoint : ∀ m ∈ before, m.block ∩ n.block = ∅ :=
          fun m hm => not_overlaps_iff.1 (List.find?_eq_none.1 hfind m hm)
        rw [and_iff_right hdisjoint, List.map_append, List.map_singleton]
        exact ⟨fun h => (Except.ok.inj h).symm, fun h => h ▸ rfl⟩
    | some earlier =>
        refine iff_of_false (by simp) fun h => ?_
        have hdisjoint := h.1 earlier (List.mem_of_find?_eq_some hfind)
        have hover : earlier.overlaps n = true := by simpa using List.find?_some hfind
        exact not_overlaps_iff.2 hdisjoint hover

theorem addRoute_eq_error_iff :
    addRoute (before.map Network.masked) n = .error fault ↔ Rejected before n fault := by
  rw [addRoute_eq, find?_overlaps_eq]
  constructor
  · intro h
    split at h
    next hlength =>
      obtain rfl := Except.error.inj h
      exact .noHost hlength
    next hlength =>
      cases hfind : before.find? (·.overlaps n) with
      | none =>
          rw [hfind] at h
          contradiction
      | some earlier =>
          rw [hfind] at h
          obtain rfl := Except.error.inj h
          obtain ⟨hover, front, back, hbefore, hfront⟩ := List.find?_eq_some_iff_append.1 hfind
          refine .overlap (Nat.le_of_not_lt hlength) hbefore (fun m hm => ?_)
            ((Network.overlaps_iff_inter_nonempty _ _).1 hover)
          exact not_overlaps_iff.1 (by simpa using hfront m hm)
  · rintro (hlength | @⟨front, back, earlier, hlength, rfl, hfront, hearlier⟩)
    · rw [if_pos hlength]
    · have hfind : (front ++ earlier :: back).find? (·.overlaps n) = some earlier := by
        refine List.find?_eq_some_iff_append.2
          ⟨(Network.overlaps_iff_inter_nonempty _ _).2 hearlier, front, back, rfl, fun m hm => ?_⟩
        simpa using not_overlaps_iff.2 (hfront m hm)
      rw [if_neg (Nat.not_lt.2 hlength), hfind]
      rfl

/-! ## Adding one network after the other -/

/-- What is wrong with the first network that is rejected, behind compatible
ones. -/
def FirstRejected (ns : List (Network 32)) (fault : PlanFault) : Prop :=
  ∃ before n after, ns = before ++ n :: after ∧ Compatible before ∧ Rejected before n fault

theorem firstRejected_append_singleton :
    FirstRejected (ns ++ [n]) fault ↔
      FirstRejected ns fault ∨ Compatible ns ∧ Rejected ns n fault := by
  constructor
  · rintro ⟨before, m, after, hns, hbefore, hrejected⟩
    rcases List.eq_nil_or_concat after with rfl | ⟨after', x, rfl⟩
    · obtain ⟨rfl, hm⟩ := List.append_inj' hns rfl
      obtain rfl := List.singleton_inj.1 hm
      exact .inr ⟨hbefore, hrejected⟩
    · rw [List.concat_eq_append, ← List.cons_append, ← List.append_assoc] at hns
      obtain ⟨rfl, -⟩ := List.append_inj' hns rfl
      exact .inl ⟨before, m, after', rfl, hbefore, hrejected⟩
  · rintro (⟨before, m, after, rfl, hbefore, hrejected⟩ | ⟨hns, hrejected⟩)
    · exact ⟨before, m, after ++ [n], by simp, hbefore, hrejected⟩
    · exact ⟨ns, n, [], rfl, hns, hrejected⟩

theorem foldlM_addRoute_eq_ok_iff :
    ns.foldlM addRoute [] = .ok routes ↔ Compatible ns ∧ routes = ns.map Network.masked := by
  induction ns using List.reverseRecOn generalizing routes with
  | nil =>
      rw [and_iff_right Compatible.nil]
      exact ⟨fun h => (Except.ok.inj h).symm, fun h => h ▸ rfl⟩
  | append_singleton ns n ih =>
      rw [foldlM_append_singleton, bind_eq_ok_iff, compatible_append_singleton]
      simp only [ih]
      constructor
      · rintro ⟨_, ⟨hns, rfl⟩, hadd⟩
        obtain ⟨hlength, hdisjoint, hroutes⟩ := addRoute_eq_ok_iff.1 hadd
        exact ⟨⟨hns, hlength, hdisjoint⟩, hroutes⟩
      · rintro ⟨⟨hns, hlength, hdisjoint⟩, hroutes⟩
        exact ⟨_, ⟨hns, rfl⟩, addRoute_eq_ok_iff.2 ⟨hlength, hdisjoint, hroutes⟩⟩

theorem foldlM_addRoute_eq_error_iff :
    ns.foldlM addRoute [] = .error fault ↔ FirstRejected ns fault := by
  induction ns using List.reverseRecOn with
  | nil =>
      refine iff_of_false nofun ?_
      rintro ⟨before, n, after, hns, -, -⟩
      exact absurd hns.symm (List.append_ne_nil_of_right_ne_nil before (List.cons_ne_nil n after))
  | append_singleton ns n ih =>
      rw [foldlM_append_singleton, bind_eq_error_iff, firstRejected_append_singleton, ← ih]
      refine or_congr_right ?_
      simp only [foldlM_addRoute_eq_ok_iff]
      constructor
      · rintro ⟨_, ⟨hns, rfl⟩, hadd⟩
        exact ⟨hns, addRoute_eq_error_iff.1 hadd⟩
      · rintro ⟨hns, hrejected⟩
        exact ⟨_, ⟨hns, rfl⟩, addRoute_eq_error_iff.2 hrejected⟩

/-! ## All networks -/

theorem exists_ofNetworks_eq_ok_iff :
    (∃ plan, ofNetworks ns = .ok plan) ↔ ns ≠ [] ∧ Compatible ns := by
  rw [ofNetworks]
  cases hfold : ns.foldlM addRoute [] with
  | error fault =>
      refine iff_of_false (by simp) fun h => ?_
      have hok := foldlM_addRoute_eq_ok_iff.2 ⟨h.2, rfl⟩
      rw [hfold] at hok
      contradiction
  | ok routes =>
      obtain ⟨hns, rfl⟩ := foldlM_addRoute_eq_ok_iff.1 hfold
      cases ns with
      | nil => exact iff_of_false (by simp) fun h => h.1 rfl
      | cons n more => exact iff_of_true ⟨_, rfl⟩ ⟨List.cons_ne_nil n more, hns⟩

theorem ofNetworks_eq_error_iff :
    ofNetworks ns = .error fault ↔ ns = [] ∧ fault = .noNetwork ∨ FirstRejected ns fault := by
  rw [ofNetworks, ← foldlM_addRoute_eq_error_iff]
  cases hfold : ns.foldlM addRoute [] with
  | error fault' =>
      have hne : ¬(ns = [] ∧ fault = .noNetwork) := by
        rintro ⟨rfl, -⟩
        contradiction
      rw [or_iff_right hne, Except.error.injEq, Except.error.injEq]
  | ok routes =>
      obtain ⟨-, rfl⟩ := foldlM_addRoute_eq_ok_iff.1 hfold
      rw [or_iff_left (by simp)]
      cases ns with
      | nil => exact ⟨fun h => ⟨rfl, (Except.error.inj h).symm⟩, fun h => h.2 ▸ rfl⟩
      | cons n more => exact iff_of_false (by simp) (by simp)

theorem Rejected.toFailure_eq (h : Rejected before n fault) :
    fault.toFailure = .config fault.message := by
  cases h <;> rfl

/-- The networks of the routes can always be made. -/
theorem ofNetworks_ne_unmade (ns : List (Network 32)) (n : Network 32) (fault : NetworkFault) :
    ofNetworks ns ≠ .error (.unmade n fault) := by
  intro h
  obtain ⟨-, hnone⟩ | ⟨before, m, after, -, -, hrejected⟩ := ofNetworks_eq_error_iff.1 h
  · contradiction
  · cases hrejected

/-- **Accepted plans.**  Networks are accepted exactly if there is one, all have
hosts and the blocks of any two are disjoint.  Otherwise the first network that
does not go with those before it is reported, as a configuration error: the only
other check is whether a network can be made of the lowest address and the
length of a given one, and that is always so.  Two networks given by their
lowest addresses overlap in the sense of the check, which looks at these
addresses only, exactly if some address is in both blocks. -/
theorem accepts_iff_compatible (ns : List (Network 32)) :
    ((∃ plan, ofNetworks ns = .ok plan) ↔
        ns ≠ [] ∧ (∀ n ∈ ns, n.length ≤ 30) ∧
          ns.Pairwise fun m n => m.block ∩ n.block = ∅) ∧
      (∀ fault, ofNetworks ns = .error fault ↔
        ns = [] ∧ fault = .noNetwork ∨ FirstRejected ns fault) ∧
      (∀ fault, ofNetworks ns = .error fault → fault.toFailure = .config fault.message) ∧
      (∀ n ∈ ns, Network.ofLength? n.first n.length = .ok n.masked) ∧
      ∀ m n : Network 32,
        m.masked.overlaps n.masked = true ↔ ∃ a, a ∈ m.block ∧ a ∈ n.block := by
  refine ⟨?_, fun _ => ofNetworks_eq_error_iff, fun fault h => ?_, fun n _ => n.ofLength?_first,
    fun m n => ?_⟩
  · rw [exists_ofNetworks_eq_ok_iff]
    exact and_congr_right fun _ => ⟨fun h => ⟨h.length_le, h.disjoint⟩, fun h => ⟨h.1, h.2⟩⟩
  · obtain ⟨-, rfl⟩ | ⟨before, n, after, -, -, hrejected⟩ := ofNetworks_eq_error_iff.1 h
    · rfl
    · exact hrejected.toFailure_eq
  · rw [Network.overlaps_iff_inter_nonempty, Network.block_masked, Network.block_masked]
    exact Iff.rfl

example : ofNetworks [⟨0x0a000000#32, 16, by decide⟩, ⟨0x0a010000#32, 16, by decide⟩,
    ⟨0x0a000105#32, 24, by decide⟩] =
      .error (.overlap ⟨0x0a000100#32, 24, by decide⟩ ⟨0x0a000000#32, 16, by decide⟩) := by
  decide

end AddressPlan

end DnsConnector
