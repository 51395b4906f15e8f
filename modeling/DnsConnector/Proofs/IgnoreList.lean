import DnsConnector.Proofs.DestinationFilter
import DnsConnector.Proofs.Items
import DnsConnector.Proofs.PlanAcceptance

/-!
# DnsConnector.Proofs.IgnoreList

The list of ignored networks as a set of addresses: those that lie in one of the
networks (`listed`).  All networks of such a list are put in with the same flag,
so it does not matter which of those around an address is the longest, and an
address is ignored iff there is one (`ignoresAny_iff`).  Two lists with the same
set are as good as each other (`replaces_of_listed_eq`), and what can be done to
a list without a change is what can be done to a union of sets.
-/

namespace DnsConnector

/-! ## Blocks of either family -/

/-- Of networks of one length, those whose addresses lie in each other's blocks
have the same block. -/
theorem Network.block_eq_of_mem {w : Nat} {m n : Network w} (hlength : m.length = n.length)
    (hmem : m.address ∈ n.block) : m.block = n.block := by
  ext a
  rw [block, block, hlength]
  exact forall₂_congr fun i hi => by rw [hmem i hi]

namespace IpNetwork

/-- The addresses of a network, all of its family. -/
def block : IpNetwork → Set IpAddress
  | .v4 n => IpAddress.v4 '' n.block
  | .v6 n => IpAddress.v6 '' n.block

/-- Networks that are given with the same length and the same leading bits; the
host bits may differ. -/
inductive SameButHost : IpNetwork → IpNetwork → Prop
  | v4 {m n : Network 32} (length_eq : m.length = n.length) (mem_block : m.address ∈ n.block) :
    SameButHost (.v4 m) (.v4 n)
  | v6 {m n : Network 128} (length_eq : m.length = n.length) (mem_block : m.address ∈ n.block) :
    SameButHost (.v6 m) (.v6 n)

variable {m n : IpNetwork} {a : IpAddress}

theorem mem_block_iff : a ∈ n.block ↔ n.contains a = true := by
  cases n <;> cases a <;> simp [block, contains, Network.mem_block_iff]

theorem SameButHost.block_eq (h : SameButHost m n) : m.block = n.block := by
  cases h with
  | v4 hlength hmem => exact congrArg (IpAddress.v4 '' ·) (Network.block_eq_of_mem hlength hmem)
  | v6 hlength hmem => exact congrArg (IpAddress.v6 '' ·) (Network.block_eq_of_mem hlength hmem)

end IpNetwork

namespace DestinationFilter

variable {f : DestinationFilter} {a : IpAddress} {ns : List IpNetwork} {texts texts' : List String}

/-! ## Networks that are all ignored -/

/-- Among networks that are all ignored, it does not matter which one decides. -/
theorem lookup?_insertAll_ignored_iff :
    (insertAll (ns.map (·, true))).lookup? a = some true ↔ ∃ n ∈ ns, n.contains a = true := by
  constructor
  · intro h
    obtain ⟨before, n, after, hns, hn, -⟩ := lookup?_insertAll_eq_some_iff.1 h
    obtain ⟨m, hm, heq⟩ := List.mem_map.1 (hns ▸ List.mem_append_right before List.mem_cons_self)
    obtain ⟨rfl, -⟩ := Prod.mk.inj heq
    exact ⟨m, hm, hn⟩
  · rintro ⟨n, hn, hcontains⟩
    cases hlookup : (insertAll (ns.map (·, true))).lookup? a with
    | none =>
        have hout := lookup?_insertAll_eq_none_iff.1 hlookup _ (List.mem_map_of_mem hn)
        rw [hcontains] at hout
        contradiction
    | some flag =>
        obtain ⟨before, m, after, hns, -⟩ := lookup?_insertAll_eq_some_iff.1 hlookup
        obtain ⟨_, -, heq⟩ := List.mem_map.1 (hns ▸ List.mem_append_right before List.mem_cons_self)
        exact congrArg some (Prod.mk.inj heq).2.symm

/-! ## Lists of texts -/

/-- A network read from a list. -/
def readNetwork (text : String) : Except CidrFault IpNetwork :=
  (IpNetwork.ofText text).mapError (⟨text, ·⟩)

theorem readNetwork_eq_ok_iff {text : String} {n : IpNetwork} :
    readNetwork text = .ok n ↔ IpNetwork.ofText text = .ok n :=
  mapError_eq_ok_iff

theorem readNetwork_eq_error_iff {text : String} {fault : CidrFault} :
    readNetwork text = .error fault ↔
      ∃ e, IpNetwork.ofText text = .error e ∧ ⟨text, e⟩ = fault :=
  mapError_eq_error_iff

theorem ignoreText_eq (f : DestinationFilter) (text : String) :
    f.ignoreText text = (readNetwork text).map (f.insert · true) := by
  rw [ignoreText, readNetwork]
  cases IpNetwork.ofText text with
  | ok n => rfl
  | error fault => rfl

/-- The addresses that lie in a network of a list. -/
def listed (texts : List String) : Set IpAddress :=
  { a | ∃ text ∈ texts, ∃ n, IpNetwork.ofText text = .ok n ∧ a ∈ n.block }

theorem listed_cons {text : String} {n : IpNetwork} (h : IpNetwork.ofText text = .ok n) :
    listed (text :: texts) = n.block ∪ listed texts := by
  ext a
  simp only [listed, Set.mem_ofPred_eq, List.exists_mem_cons_iff, h, Except.ok.injEq,
    exists_eq_left', Set.mem_union]

theorem ofTexts_eq_error_iff {fault : CidrFault} :
    ofTexts texts = .error fault ↔ FirstFault readNetwork texts fault :=
  foldlM_eq_error_iff ignoreText_eq

theorem exists_ofTexts_eq_ok_iff :
    (∃ f, ofTexts texts = .ok f) ↔ ∀ text ∈ texts, ∃ n, IpNetwork.ofText text = .ok n := by
  simp only [ofTexts, exists_foldlM_eq_ok_iff ignoreText_eq, readNetwork_eq_ok_iff]

theorem lookup?_ofTexts_iff (h : ofTexts texts = .ok f) :
    f.lookup? a = some true ↔ a ∈ listed texts := by
  obtain ⟨ns, hread, rfl⟩ := (foldlM_eq_ok_iff ignoreText_eq).1 h
  have hall : ns.foldl (·.insert · true) ∅ = insertAll (ns.map (·, true)) := by
    rw [insertAll, List.foldl_map]
  rw [hall, lookup?_insertAll_ignored_iff, exists_mem_read_iff hread]
  simp only [readNetwork_eq_ok_iff, ← IpNetwork.mem_block_iff]
  rfl

/-- Any address that is listed makes a destination ignored. -/
theorem ignoresAny_iff (h : ofTexts texts = .ok f) (as : List IpAddress) :
    f.ignoresAny as = true ↔ ∃ a ∈ as, a ∈ listed texts := by
  rw [ignoresAny, List.any_eq_true]
  simp only [beq_iff_eq, lookup?_ofTexts_iff h]

/-! ## Lists that say the same -/

/-- One list does for another: if the other makes a filter, it does so too, and
both filters ignore the same. -/
def Replaces (texts' texts : List String) : Prop :=
  ∀ f, ofTexts texts = .ok f → ∃ f', ofTexts texts' = .ok f' ∧
    ∀ as, f'.ignoresAny as = f.ignoresAny as

theorem replaces_of_listed_eq (hread : (∃ f, ofTexts texts = .ok f) → ∃ f, ofTexts texts' = .ok f)
    (hlisted : listed texts' = listed texts) : Replaces texts' texts := by
  intro f hf
  obtain ⟨f', hf'⟩ := hread ⟨f, hf⟩
  refine ⟨f', hf', fun as => ?_⟩
  rw [Bool.eq_iff_iff, ignoresAny_iff hf', ignoresAny_iff hf, hlisted]

theorem replaces_of_mem_iff (h : ∀ t, t ∈ texts' ↔ t ∈ texts) : Replaces texts' texts := by
  refine replaces_of_listed_eq ?_ ?_
  · simp only [exists_ofTexts_eq_ok_iff, h, imp_self]
  · simp only [listed, h]

theorem replaces_of_sameButHost (h : List.Forall₂ (fun t' t => ∃ n' n,
    IpNetwork.ofText t' = .ok n' ∧ IpNetwork.ofText t = .ok n ∧ n'.SameButHost n) texts' texts) :
    Replaces texts' texts := by
  have hsame : (∀ t ∈ texts', ∃ n, IpNetwork.ofText t = .ok n) ∧ listed texts' = listed texts := by
    induction h with
    | nil => exact ⟨nofun, rfl⟩
    | cons h _ ih =>
        obtain ⟨n', n, hn', hn, hblock⟩ := h
        refine ⟨List.forall_mem_cons.2 ⟨⟨n', hn'⟩, ih.1⟩, ?_⟩
        rw [listed_cons hn', listed_cons hn, hblock.block_eq, ih.2]
  exact replaces_of_listed_eq (fun _ => exists_ofTexts_eq_ok_iff.2 hsame.1) hsame.2

theorem replaces_of_subset (hsubset : texts ⊆ texts')
    (h : ∀ t ∈ texts', t ∈ texts ∨ ∃ n, IpNetwork.ofText t = .ok n ∧ n.block ⊆ listed texts) :
    Replaces texts' texts := by
  refine replaces_of_listed_eq ?_ ?_
  · simp only [exists_ofTexts_eq_ok_iff]
    intro hread t ht
    rcases h t ht with ht | ⟨n, hn, -⟩
    · exact hread t ht
    · exact ⟨n, hn⟩
  · ext a
    constructor
    · rintro ⟨t, ht, n, hn, ha⟩
      rcases h t ht with ht | ⟨m, hm, hwithin⟩
      · exact ⟨t, ht, n, hn, ha⟩
      · obtain rfl := Except.ok.inj (hm.symm.trans hn)
        exact hwithin ha
    · rintro ⟨t, ht, n, hn, ha⟩
      exact ⟨t, hsubset ht, n, hn, ha⟩

/-- What a list of networks means, and what it may be replaced by. -/
structure MeansContainment (texts : List String) : Prop where
  fails_iff : (∃ fault, ofTexts texts = .error fault) ↔
    ∃ text ∈ texts, ∃ fault, IpNetwork.ofText text = .error fault
  /-- The first text that is no network is the one that is reported. -/
  error_iff : ∀ failure, (ofTexts texts).mapError CidrFault.toFailure = .error failure ↔
    ∃ before text after fault, texts = before ++ text :: after ∧
      (∀ t ∈ before, ∃ n, IpNetwork.ofText t = .ok n) ∧ IpNetwork.ofText text = .error fault ∧
      failure = .invalidCidr (text ++ ": " ++ fault.message)
  ignoresAny_iff : ∀ f, ofTexts texts = .ok f → ∀ as, f.ignoresAny as = true ↔
    ∃ a ∈ as, ∃ text ∈ texts, ∃ n, IpNetwork.ofText text = .ok n ∧ a ∈ n.block
  /-- The same texts in another order, each as often as you like. -/
  replaces_of_mem_iff : ∀ texts', (∀ t, t ∈ texts' ↔ t ∈ texts) → Replaces texts' texts
  replaces_of_sameButHost : ∀ texts', List.Forall₂ (fun t' t => ∃ n' n,
    IpNetwork.ofText t' = .ok n' ∧ IpNetwork.ofText t = .ok n ∧ n'.SameButHost n) texts' texts →
    Replaces texts' texts
  /-- More networks, each of them within those that are listed anyway. -/
  replaces_of_subset : ∀ texts', texts ⊆ texts' →
    (∀ t ∈ texts', t ∈ texts ∨ ∃ n, IpNetwork.ofText t = .ok n ∧ n.block ⊆ listed texts) →
    Replaces texts' texts

/-- **Containment.**  A list of texts makes a filter unless one of them is no
network, and then the first such text is reported.  A filter ignores what lies
in a network of its list, among the networks of the address's own family, and
nothing else.  So the order of a list does not matter to it, nor do repetitions,
host bits and networks within others. -/
theorem meansContainment (texts : List String) : MeansContainment texts where
  fails_iff := by
    simp only [ofTexts_eq_error_iff, exists_firstFault_iff, readNetwork_eq_error_iff]
    constructor
    · rintro ⟨text, htext, _, fault, hfault, -⟩
      exact ⟨text, htext, fault, hfault⟩
    · rintro ⟨text, htext, fault, hfault⟩
      exact ⟨text, htext, _, fault, hfault, rfl⟩
  error_iff failure := by
    simp only [mapError_eq_error_iff, ofTexts_eq_error_iff, FirstFault, readNetwork_eq_ok_iff,
      readNetwork_eq_error_iff]
    constructor
    · rintro ⟨_, ⟨before, text, after, hsplit, hbefore, fault, hfault, rfl⟩, rfl⟩
      exact ⟨before, text, after, fault, hsplit, hbefore, hfault, rfl⟩
    · rintro ⟨before, text, after, fault, hsplit, hbefore, hfault, rfl⟩
      exact ⟨_, ⟨before, text, after, hsplit, hbefore, fault, hfault, rfl⟩, rfl⟩
  ignoresAny_iff _ := ignoresAny_iff
  replaces_of_mem_iff _ := replaces_of_mem_iff
  replaces_of_sameButHost _ := replaces_of_sameButHost
  replaces_of_subset _ := replaces_of_subset

theorem block_sixteen_subset :
    (IpNetwork.v4 ⟨0x0a010000#32, 16, by decide⟩).block ⊆ listed ["10.0.0.0/8"] := by
  rintro _ ⟨a, ha, rfl⟩
  refine ⟨_, List.mem_singleton_self _, .v4 ⟨0x0a000000#32, 8, by decide⟩, rfl, a, ?_, rfl⟩
  intro i hi
  have hbit : ∀ i < 8, (0x0a010000#32).getMsbD i = (0x0a000000#32).getMsbD i := by decide
  exact (ha i (Nat.lt_trans hi (by decide))).trans (hbit i hi)

/-- One address in a listed network is enough, and neither host bits nor a
longer network in the same place change anything. -/
theorem meansContainment_of_eight : ∃ f, ofTexts ["10.0.0.0/8"] = .ok f ∧
    f.ignoresAny [.v4 0x08080808#32, .v4 0x0a090909#32] = true ∧
    Replaces ["10.11.12.13/8"] ["10.0.0.0/8"] ∧
    Replaces ["10.1.0.0/16", "10.0.0.0/8"] ["10.0.0.0/8"] := by
  have h := meansContainment ["10.0.0.0/8"]
  obtain ⟨f, hf⟩ : ∃ f, ofTexts ["10.0.0.0/8"] = .ok f := ⟨_, rfl⟩
  refine ⟨f, hf, (h.ignoresAny_iff f hf _).2 ?_, h.replaces_of_sameButHost _ ?_,
    h.replaces_of_subset _ ?_ ?_⟩
  · refine ⟨.v4 0x0a090909#32, by decide, _, List.mem_singleton_self _,
      .v4 ⟨0x0a000000#32, 8, by decide⟩, rfl, IpNetwork.mem_block_iff.2 (by decide)⟩
  · exact .cons ⟨_, _, rfl, rfl, .v4 rfl (Network.mem_block_iff.2 (by decide))⟩ .nil
  · exact List.subset_cons_self _ _
  · rintro t ht
    rcases List.mem_cons.1 ht with rfl | ht
    · exact .inr ⟨_, rfl, block_sixteen_subset⟩
    · exact .inl ht

end DestinationFilter

end DnsConnector
