import DnsConnector.DestinationFilter
import DnsConnector.Proofs.Items
import Mathlib.Data.Finset.Card

/-!
# DnsConnector.Proofs.DestinationFilter

A filter against the list of what was put into it.  A table is read through
`flagOf?`, the flag set for a network, and its lengths are a sorted list of the
lengths in use (`Ordered`), so that the first hit of a look-up is the longest
network around an address with a flag (`lookup?_eq_some_iff`).  From this and
from what an insertion does to the flags, the flag found is the one of the
network that is `Decisive` among all that were put in (`longestMatch`).
-/

namespace DnsConnector

/-! ## Networks around an address -/

namespace Network

variable {w : Nat} {m n : Network w} {a : BitVec w}

theorem masked_eq_masked_iff : m.masked = n.masked ↔ m.length = n.length ∧ m.first = n.first := by
  rw [masked, masked, mk.injEq, and_comm]

theorem first_eq_of_contains (h : n.contains a = true) : n.first = keepTop n.length a :=
  (beq_iff_eq.1 h).symm

/-- Of one length there is one network around an address. -/
theorem masked_eq_of_contains (hm : m.contains a = true) (hn : n.contains a = true)
    (hlength : m.length = n.length) : m.masked = n.masked := by
  rw [masked_eq_masked_iff, first_eq_of_contains hm, first_eq_of_contains hn, hlength]
  exact ⟨rfl, rfl⟩

end Network

namespace IpNetwork

variable {m n : IpNetwork} {a : IpAddress}

/-- The number of leading bits that are fixed. -/
def length : IpNetwork → Nat
  | .v4 n => n.length
  | .v6 n => n.length

/-- The same network given by its lowest address. -/
def masked : IpNetwork → IpNetwork
  | .v4 n => .v4 n.masked
  | .v6 n => .v6 n.masked

@[simp] theorem length_masked (n : IpNetwork) : n.masked.length = n.length := by
  cases n <;> rfl

@[simp] theorem contains_masked (n : IpNetwork) (a : IpAddress) :
    n.masked.contains a = n.contains a := by
  cases n <;> cases a <;> simp [masked, contains]

theorem masked_eq_of_contains (hm : m.contains a = true) (hn : n.contains a = true)
    (hlength : m.length = n.length) : m.masked = n.masked := by
  cases a <;> cases m <;> cases n <;> first
    | contradiction
    | exact congrArg IpNetwork.v4 (Network.masked_eq_of_contains hm hn hlength)
    | exact congrArg IpNetwork.v6 (Network.masked_eq_of_contains hm hn hlength)

/-- Networks that differ in host bits only are around the same addresses. -/
theorem contains_congr (h : m.masked = n.masked) (a : IpAddress) : m.contains a = n.contains a := by
  rw [← m.contains_masked, h, n.contains_masked]

theorem length_congr (h : m.masked = n.masked) : m.length = n.length := by
  rw [← m.length_masked, h, n.length_masked]

theorem forall_iff {p : IpNetwork → Prop} :
    (∀ n, p n) ↔ (∀ n, p (.v4 n)) ∧ ∀ n, p (.v6 n) := by
  refine ⟨fun h => ⟨fun n => h _, fun n => h _⟩, fun h n => ?_⟩
  cases n with
  | v4 n => exact h.1 n
  | v6 n => exact h.2 n

theorem exists_iff {p : IpNetwork → Prop} :
    (∃ n, p n) ↔ (∃ n, p (.v4 n)) ∨ ∃ n, p (.v6 n) := by
  simpa only [not_forall, not_not, not_and_or] using not_congr (IpNetwork.forall_iff (p := (¬p ·)))

end IpNetwork

/-! ## One family -/

namespace MatchTable

variable {w : Nat} {t : MatchTable w} {n : Network w} {a : BitVec w} {flag : Bool}

/-- The flag set for a network. -/
def flagOf? (t : MatchTable w) (n : Network w) : Option Bool := t.entries.get? (n.length, n.first)

theorem flagOf?_insert (t : MatchTable w) (n m : Network w) (flag : Bool) :
    (t.insert n flag).flagOf? m = if m.masked = n.masked then some flag else t.flagOf? m := by
  rw [flagOf?, insert, Table.get?_insert]
  simp only [Prod.mk.injEq, Network.masked_eq_masked_iff]
  rfl

theorem size_insert (t : MatchTable w) (n : Network w) (flag : Bool) :
    (t.insert n flag).size = if (t.flagOf? n).isSome then t.size else t.size + 1 :=
  t.entries.size_insert (n.length, n.first) flag

/-- The lengths of a table are those of its networks, longest first. -/
structure Ordered (t : MatchTable w) : Prop where
  pairwise_lengths : t.lengths.Pairwise (· > ·)
  mem_lengths_iff : ∀ len, len ∈ t.lengths ↔ ∃ key ∈ t.entries.keys, key.1 = len
  /-- Every key is that of a network. -/
  exists_network : ∀ key ∈ t.entries.keys, ∃ n : Network w, (n.length, n.first) = key

theorem Ordered.empty : Ordered (∅ : MatchTable w) :=
  ⟨List.Pairwise.nil, fun _ => ⟨nofun, nofun⟩, nofun⟩

theorem mem_keys_insert {key : Nat × BitVec w} : key ∈ (t.insert n flag).entries.keys ↔
    key = (n.length, n.first) ∨ key ∈ t.entries.keys := by
  rw [insert, Table.keys_insert]
  split
  next h =>
    refine ⟨.inr, ?_⟩
    rintro (rfl | hkey)
    · exact h
    · exact hkey
  next => rw [List.mem_append, List.mem_singleton, or_comm]

theorem Ordered.insert (ht : Ordered t) (n : Network w) (flag : Bool) :
    Ordered (t.insert n flag) where
  pairwise_lengths := pairwise_addLength ht.pairwise_lengths n.length
  mem_lengths_iff len := by
    simp only [mem_keys_insert, exists_eq_or_imp, ← ht.mem_lengths_iff]
    rw [MatchTable.insert, mem_addLength, eq_comm]
  exists_network key hkey := by
    rcases mem_keys_insert.1 hkey with rfl | hkey
    · exact ⟨n, rfl⟩
    · exact ht.exists_network key hkey

theorem Ordered.mem_lengths_of_flagOf? (ht : Ordered t) (h : (t.flagOf? n).isSome = true) :
    n.length ∈ t.lengths :=
  (ht.mem_lengths_iff _).2 ⟨_, (Table.get?_isSome_iff _ _).1 h, rfl⟩

/-- What is found at a length in use is the flag of the network of this length
around the address. -/
theorem Ordered.exists_flagOf?_eq (ht : Ordered t) {len : Nat} (hlen : len ∈ t.lengths)
    (a : BitVec w) : ∃ n : Network w, n.length = len ∧ n.contains a = true ∧
      t.flagOf? n = t.entries.get? (len, Network.keepTop len a) := by
  obtain ⟨key, hkey, rfl⟩ := (ht.mem_lengths_iff len).1 hlen
  obtain ⟨m, rfl⟩ := ht.exists_network key hkey
  exact ⟨⟨a, m.length, m.length_le⟩, rfl, beq_self_eq_true _, rfl⟩

theorem flagOf?_eq_of_contains (h : n.contains a = true) :
    t.flagOf? n = t.entries.get? (n.length, Network.keepTop n.length a) := by
  rw [flagOf?, Network.first_eq_of_contains h]

/-- The first hit of a look-up is the longest network around the address. -/
theorem Ordered.lookup?_eq_some_iff (ht : Ordered t) : t.lookup? a = some flag ↔
    ∃ n : Network w, n.contains a = true ∧ t.flagOf? n = some flag ∧
      ∀ m : Network w, m.contains a = true → n.length < m.length → t.flagOf? m = none := by
  rw [lookup?, List.findSome?_eq_some_iff]
  constructor
  · rintro ⟨longer, len, shorter, hlengths, hget, hnone⟩
    have hlen : len ∈ t.lengths := by simp [hlengths]
    obtain ⟨n, rfl, hn, hflag⟩ := ht.exists_flagOf?_eq hlen a
    refine ⟨n, hn, hflag.trans hget, fun m hm hlt => ?_⟩
    by_contra hsome
    -- a longer network with a flag would have been met before
    have hmem := ht.mem_lengths_of_flagOf? (Option.isSome_iff_ne_none.2 hsome)
    have hsorted := ht.pairwise_lengths
    rw [hlengths] at hmem hsorted
    rw [List.pairwise_append, List.pairwise_cons] at hsorted
    rcases List.mem_append.1 hmem with hmem | hmem
    · exact hsome ((flagOf?_eq_of_contains hm).trans (hnone _ hmem))
    · rcases List.mem_cons.1 hmem with heq | hmem
      · omega
      · have := hsorted.2.1.1 _ hmem
        omega
  · rintro ⟨n, hn, hflag, hnone⟩
    obtain ⟨longer, shorter, hlengths⟩ := List.append_of_mem
      (ht.mem_lengths_of_flagOf? (by rw [hflag]; rfl))
    refine ⟨longer, n.length, shorter, hlengths, (flagOf?_eq_of_contains hn).symm.trans hflag, ?_⟩
    intro len hlen
    have hsorted := ht.pairwise_lengths
    rw [hlengths, List.pairwise_append] at hsorted
    obtain ⟨m, rfl, hm, hget⟩ := ht.exists_flagOf?_eq (hlengths ▸ List.mem_append_left _ hlen) a
    exact hget.symm.trans (hnone m hm (hsorted.2.2 _ hlen _ List.mem_cons_self))

theorem Ordered.lookup?_eq_none_iff (ht : Ordered t) : t.lookup? a = none ↔
    ∀ n : Network w, n.contains a = true → t.flagOf? n = none := by
  rw [lookup?, List.findSome?_eq_none_iff]
  constructor
  · intro h n hn
    by_contra hsome
    have hmem := ht.mem_lengths_of_flagOf? (Option.isSome_iff_ne_none.2 hsome)
    exact hsome ((flagOf?_eq_of_contains hn).trans (h _ hmem))
  · intro h len hlen
    obtain ⟨n, -, hn, hget⟩ := ht.exists_flagOf?_eq hlen a
    exact hget.symm.trans (h n hn)

end MatchTable

/-! ## Both families -/

namespace DestinationFilter

variable {f : DestinationFilter} {n : IpNetwork} {a : IpAddress} {flag : Bool}
  {ps : List (IpNetwork × Bool)}

/-- The flag set for a network. -/
def flagOf? (f : DestinationFilter) : IpNetwork → Option Bool
  | .v4 n => f.v4.flagOf? n
  | .v6 n => f.v6.flagOf? n

theorem flagOf?_insert (f : DestinationFilter) (n m : IpNetwork) (flag : Bool) :
    (f.insert n flag).flagOf? m = if m.masked = n.masked then some flag else f.flagOf? m := by
  cases n <;> cases m <;> simp [insert, flagOf?, IpNetwork.masked, MatchTable.flagOf?_insert]

theorem size_insert (f : DestinationFilter) (n : IpNetwork) (flag : Bool) :
    (f.insert n flag).size = if (f.flagOf? n).isSome then f.size else f.size + 1 := by
  cases n with
  | v4 n =>
      rw [size, insert, MatchTable.size_insert, flagOf?]
      split
      · rfl
      · exact Nat.add_right_comm _ _ _
  | v6 n =>
      rw [size, insert, MatchTable.size_insert, flagOf?]
      split <;> rfl

/-- Both tables are in order. -/
structure Ordered (f : DestinationFilter) : Prop where
  v4 : f.v4.Ordered
  v6 : f.v6.Ordered

theorem Ordered.insert (hf : Ordered f) (n : IpNetwork) (flag : Bool) :
    Ordered (f.insert n flag) := by
  cases n with
  | v4 n => exact ⟨hf.v4.insert n flag, hf.v6⟩
  | v6 n => exact ⟨hf.v4, hf.v6.insert n flag⟩

/-- The flag found is that of the longest network around the address. -/
theorem Ordered.lookup?_eq_some_iff (hf : Ordered f) : f.lookup? a = some flag ↔
    ∃ n : IpNetwork, n.contains a = true ∧ f.flagOf? n = some flag ∧
      ∀ m : IpNetwork, m.contains a = true → n.length < m.length → f.flagOf? m = none := by
  cases a with
  | v4 a =>
      rw [lookup?, hf.v4.lookup?_eq_some_iff]
      simp [IpNetwork.exists_iff, IpNetwork.forall_iff, IpNetwork.contains, IpNetwork.length,
        flagOf?]
  | v6 a =>
      rw [lookup?, hf.v6.lookup?_eq_some_iff]
      simp [IpNetwork.exists_iff, IpNetwork.forall_iff, IpNetwork.contains, IpNetwork.length,
        flagOf?]

/-- Nothing is found if no network around the address has a flag. -/
theorem Ordered.lookup?_eq_none_iff (hf : Ordered f) : f.lookup? a = none ↔
    ∀ n : IpNetwork, n.contains a = true → f.flagOf? n = none := by
  cases a with
  | v4 a =>
      rw [lookup?, hf.v4.lookup?_eq_none_iff]
      simp [IpNetwork.forall_iff, IpNetwork.contains, flagOf?]
  | v6 a =>
      rw [lookup?, hf.v6.lookup?_eq_none_iff]
      simp [IpNetwork.forall_iff, IpNetwork.contains, flagOf?]

/-! ## All that was put in -/

/-- The filter after networks were put in with their flags, one after the other. -/
def insertAll (ps : List (IpNetwork × Bool)) : DestinationFilter :=
  ps.foldl (fun f p => f.insert p.1 p.2) ∅

theorem insertAll_append_singleton (ps : List (IpNetwork × Bool)) (p : IpNetwork × Bool) :
    insertAll (ps ++ [p]) = (insertAll ps).insert p.1 p.2 := by
  rw [insertAll, List.foldl_append]
  rfl

theorem ordered_insertAll (ps : List (IpNetwork × Bool)) : Ordered (insertAll ps) := by
  induction ps using List.reverseRecOn with
  | nil => exact ⟨.empty, .empty⟩
  | append_singleton ps p ih =>
      rw [insertAll_append_singleton]
      exact ih.insert p.1 p.2

/-- A network has the flag it was put in with last, whatever its host bits then. -/
theorem flagOf?_insertAll (ps : List (IpNetwork × Bool)) (n : IpNetwork) :
    (insertAll ps).flagOf? n =
      (ps.reverse.find? fun p => n.masked = p.1.masked).map (·.2) := by
  induction ps using List.reverseRecOn with
  | nil => cases n <;> rfl
  | append_singleton ps p ih =>
      rw [insertAll_append_singleton, flagOf?_insert, ih, List.reverse_append,
        List.reverse_singleton, List.singleton_append, List.find?_cons]
      by_cases h : n.masked = p.1.masked <;> simp [h]

theorem flagOf?_insertAll_eq_none_iff : (insertAll ps).flagOf? n = none ↔
    ∀ p ∈ ps, n.masked ≠ p.1.masked := by
  simp [flagOf?_insertAll]

theorem isSome_flagOf?_insertAll_iff : ((insertAll ps).flagOf? n).isSome = true ↔
    n.masked ∈ (ps.map (·.1.masked)).toFinset := by
  rw [Option.isSome_iff_ne_none, ne_eq, flagOf?_insertAll_eq_none_iff, List.mem_toFinset,
    List.mem_map]
  simp only [not_forall, not_not, exists_prop, eq_comm]

theorem flagOf?_insertAll_eq_some_iff : (insertAll ps).flagOf? n = some flag ↔
    ∃ before m after, ps = before ++ (m, flag) :: after ∧ n.masked = m.masked ∧
      ∀ p ∈ after, n.masked ≠ p.1.masked := by
  rw [flagOf?_insertAll, Option.map_eq_some_iff]
  simp only [find?_reverse_eq_some_iff, decide_eq_true_eq, decide_eq_false_iff_not]
  constructor
  · rintro ⟨⟨m, _⟩, ⟨before, after, hps, hm, hafter⟩, rfl⟩
    exact ⟨before, m, after, hps, hm, hafter⟩
  · rintro ⟨before, m, after, hps, hm, hafter⟩
    exact ⟨(m, flag), ⟨before, after, hps, hm, hafter⟩, rfl⟩

/-- A network counts once, whatever its host bits and however often it is put in. -/
theorem size_insertAll (ps : List (IpNetwork × Bool)) :
    (insertAll ps).size = (ps.map (·.1.masked)).toFinset.card := by
  induction ps using List.reverseRecOn with
  | nil => rfl
  | append_singleton ps p ih =>
      have hset : ((ps ++ [p]).map (·.1.masked)).toFinset =
          Insert.insert p.1.masked (ps.map (·.1.masked)).toFinset := by
        ext n
        simp [eq_comm]
      rw [insertAll_append_singleton, size_insert, ih, hset]
      by_cases hmem : p.1.masked ∈ (ps.map (·.1.masked)).toFinset
      · rw [Finset.card_insert_of_mem hmem, if_pos (isSome_flagOf?_insertAll_iff.2 hmem)]
      · rw [Finset.card_insert_of_notMem hmem, if_neg (mt isSome_flagOf?_insertAll_iff.1 hmem)]

/-- A flag decides about an address: it was put in last for a network around the
address, and no longer network around it was put in. -/
def Decisive (ps : List (IpNetwork × Bool)) (a : IpAddress) (flag : Bool) : Prop :=
  ∃ before n after, ps = before ++ (n, flag) :: after ∧ n.contains a = true ∧
    (∀ p ∈ before, p.1.contains a = true → p.1.length ≤ n.length) ∧
    ∀ p ∈ after, p.1.contains a = true → p.1.length < n.length

theorem lookup?_insertAll_eq_none_iff : (insertAll ps).lookup? a = none ↔
    ∀ p ∈ ps, p.1.contains a = false := by
  rw [(ordered_insertAll ps).lookup?_eq_none_iff]
  constructor
  · intro h p hp
    by_contra hcontains
    have hnone := h p.1 (by simpa using hcontains)
    exact flagOf?_insertAll_eq_none_iff.1 hnone p hp rfl
  · intro h n hn
    refine flagOf?_insertAll_eq_none_iff.2 fun p hp heq => ?_
    rw [IpNetwork.contains_congr heq, h p hp] at hn
    contradiction

/-- The flag found is the one that decides. -/
theorem lookup?_insertAll_eq_some_iff : (insertAll ps).lookup? a = some flag ↔
    Decisive ps a flag := by
  rw [(ordered_insertAll ps).lookup?_eq_some_iff]
  constructor
  · rintro ⟨n, hn, hflag, hnone⟩
    obtain ⟨before, m, after, rfl, hm, hafter⟩ := flagOf?_insertAll_eq_some_iff.1 hflag
    have hlength : n.length = m.length := IpNetwork.length_congr hm
    have hle : ∀ p ∈ before ++ (m, flag) :: after, p.1.contains a = true →
        p.1.length ≤ m.length := by
      intro p hp hcontains
      by_contra hlt
      have := hnone p.1 hcontains (by omega)
      exact flagOf?_insertAll_eq_none_iff.1 this p hp rfl
    refine ⟨before, m, after, rfl, (IpNetwork.contains_congr hm a).symm.trans hn,
      fun p hp => hle p (List.mem_append_left _ hp), ?_⟩
    intro p hp hcontains
    have hle' := hle p (List.mem_append_right _ (List.mem_cons_of_mem _ hp)) hcontains
    have hne : p.1.length ≠ n.length := fun heq =>
      hafter p hp (IpNetwork.masked_eq_of_contains hn hcontains heq.symm)
    omega
  · rintro ⟨before, n, after, rfl, hn, hbefore, hafter⟩
    refine ⟨n, hn, flagOf?_insertAll_eq_some_iff.2 ⟨before, n, after, rfl, rfl, ?_⟩, ?_⟩
    · intro p hp heq
      have hlt := hafter p hp ((IpNetwork.contains_congr heq a).symm.trans hn)
      exact Nat.lt_irrefl _ (IpNetwork.length_congr heq ▸ hlt)
    · intro m hm hlt
      refine flagOf?_insertAll_eq_none_iff.2 fun p hp heq => ?_
      have hcontains : p.1.contains a = true := (IpNetwork.contains_congr heq a).symm.trans hm
      have hlength : m.length = p.1.length := IpNetwork.length_congr heq
      rcases List.mem_append.1 hp with hp | hp
      · have := hbefore p hp hcontains
        omega
      · rcases List.mem_cons.1 hp with rfl | hp
        · exact absurd hlength (Nat.ne_of_gt hlt)
        · have := hafter p hp hcontains
          omega

/-- **Longest match.**  Whatever networks are put into a filter, with whatever
flags and in whatever order, a look-up finds nothing if none of them is around
the address, and else the flag that was put in last for the longest one; every
network counts once; and the lengths of a table are those of its networks, the
longest first. -/
theorem longestMatch (ps : List (IpNetwork × Bool)) :
    (∀ a, (insertAll ps).lookup? a = none ↔ ∀ p ∈ ps, p.1.contains a = false) ∧
      (∀ a flag, (insertAll ps).lookup? a = some flag ↔ Decisive ps a flag) ∧
      (insertAll ps).size = (ps.map (·.1.masked)).toFinset.card ∧
      (insertAll ps).v4.Ordered ∧ (insertAll ps).v6.Ordered :=
  ⟨fun _ => lookup?_insertAll_eq_none_iff, fun _ _ => lookup?_insertAll_eq_some_iff,
    size_insertAll ps, (ordered_insertAll ps).v4, (ordered_insertAll ps).v6⟩

/-- A network is left out of a shorter one, although it was put in before. -/
example : (insertAll [(.v4 ⟨0x0a010000#32, 16, by decide⟩, false),
    (.v4 ⟨0x0a000000#32, 8, by decide⟩, true)]).lookup? (.v4 0x0a010203#32) = some false := by
  decide

end DestinationFilter

end DnsConnector
