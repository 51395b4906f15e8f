import DnsConnector.HostName
import DnsConnector.Proofs.AllocationKey

/-!
# DnsConnector.Proofs.HostName

The name that name servers are asked about is the name that was asked for.  The
text of a name is cut into just its labels again (`cut_textOf`), and a name in
lower case is taken as written or not at all (`labels?_eq_mapM`).  So the text
stands for its own labels if each of them may be sent (`ofText?_eq_some_iff`),
and a question comes back in the query that is sent on, in lower case
(`asksOn_of_parse`).
-/

namespace DnsConnector.HostName

open Text Wire Name

variable {b : UInt8} {l : Label} {ls ns : List Label} {cs : List Char}

/-! ## Cutting the text of a name -/

/-- A plain character stands for itself. -/
theorem isVisible_charOf (h : isPlain b = true) :
    isVisible (charOf b) = true ∧ charOf b ≠ '.' ∧ charOf b ≠ '\\' := by
  obtain ⟨hlow, hhigh, -, hslash⟩ := isPlain_iff.1 h
  obtain ⟨hdot, hblank, -⟩ := charOf_of_isPlain h
  refine ⟨?_, hdot, ?_⟩
  · simp only [isVisible, hblank, toNat_charOf, Bool.not_false, Bool.true_and, Bool.and_eq_true,
      Bool.not_eq_true', Bool.and_eq_false_iff, decide_eq_true_eq, decide_eq_false_iff_not]
    omega
  · rw [ne_eq, ← Char.toNat_inj, toNat_charOf]
    exact hslash

/-- A label is read up to the dot behind it. -/
theorem cutFrom_label (h : ∀ b ∈ l, isPlain b = true) (before rest : List Char) :
    cutFrom .none before (l.map charOf ++ '.' :: rest) =
      (cutFrom .none [] rest).map ((before ++ l.map charOf) :: ·) := by
  induction l generalizing before with
  | nil => simp [cutFrom]
  | cons b l ih =>
      obtain ⟨hvisible, hdot, hslash⟩ := isVisible_charOf (h b List.mem_cons_self)
      have hmore := ih (fun b' hb' => h b' (List.mem_cons_of_mem b hb')) (before ++ [charOf b])
      rw [List.map_cons, List.cons_append, cutFrom, if_neg hdot, if_neg hslash, if_pos hvisible,
        hmore, List.append_assoc, List.singleton_append]

/-- The text of a name is cut into its labels. -/
theorem cut_textOf (h : Legible ls) (hne : ls ≠ []) :
    cut (textOf ls) = some (ls.map (List.map charOf)) := by
  have hlabels : cutFrom .none [] (ls.flatMap fun l => l.map charOf ++ ['.']) =
      some (ls.map (List.map charOf)) := by
    clear hne
    induction ls with
    | nil => rfl
    | cons l ls ih =>
        rw [List.flatMap_cons, List.append_assoc, List.singleton_append,
          cutFrom_label (h.plain l List.mem_cons_self), ih h.of_cons]
        rfl
  -- the text is not that of the root, which is a dot as well
  have hroot : textOf ls ≠ ['.'] := fun hroot => hne (textOf_injective h ⟨nofun, nofun⟩ hroot)
  rw [cut, if_neg hroot, textOf_of_ne_nil hne, hlabels]

/-! ## Labels -/

/-- An octet is a letter or a digit of ASCII or an underscore. -/
def IsWord (b : UInt8) : Prop :=
  0x41 ≤ b ∧ b ≤ 0x5a ∨ 0x61 ≤ b ∧ b ≤ 0x7a ∨ 0x30 ≤ b ∧ b ≤ 0x39 ∨ b = 0x5f

/-- A label may be sent: it starts with a letter, a digit, an underscore or an
asterisk, and goes on with letters, digits, underscores and dashes. -/
def Sendable (l : Label) : Prop :=
  ∃ b rest, l = b :: rest ∧ (IsWord b ∨ b = 0x2a) ∧ ∀ c ∈ rest, IsWord c ∨ c = 0x2d

theorem isWord_iff : IsWord b ↔ (charOf b).isAlphanum = true ∨ b = 0x5f := by
  have hval : (charOf b).val.toNat = b.toNat := toNat_charOf b
  have halphanum : (charOf b).isAlphanum =
      ((decide ('A'.val ≤ (charOf b).val ∧ (charOf b).val ≤ 'Z'.val) ||
          'a'.val ≤ (charOf b).val && (charOf b).val ≤ 'z'.val) ||
        '0'.val ≤ (charOf b).val && (charOf b).val ≤ '9'.val) := rfl
  simp only [IsWord, halphanum, Bool.or_eq_true, Bool.and_eq_true, decide_eq_true_eq,
    UInt32.le_iff_toNat_le, UInt8.le_iff_toNat_le, hval, or_assoc]
  rfl

theorem isLabelChar_charOf_iff (first : Bool) (h : isPlain b = true) :
    isLabelChar first (charOf b) = true ↔ IsWord b ∨ b = if first then 0x2a else 0x2d := by
  have hdot : charOf b ≠ '.' := (charOf_of_isPlain h).1
  have hchar : ∀ c : UInt8, charOf b = charOf c ↔ b = c := fun c =>
    ⟨charOf_injective, congrArg charOf⟩
  have hunderscore : charOf b = '_' ↔ b = 0x5f := hchar 0x5f
  have hdash : charOf b = '-' ↔ b = 0x2d := hchar 0x2d
  have hasterisk : charOf b = '*' ↔ b = 0x2a := hchar 0x2a
  simp only [isLabelChar, Bool.or_eq_true, Bool.and_eq_true, beq_iff_eq, isWord_iff, hdot,
    hunderscore, hdash, hasterisk]
  cases first <;> simp

/-- A label of plain characters is taken as written exactly if it may be sent. -/
theorem isLabel_map_charOf_iff (h : ∀ b ∈ l, isPlain b = true) (hlength : l.length ≤ maxLabel) :
    isLabel (l.map charOf) = true ↔ Sendable l := by
  cases l with
  | nil => simp [isLabel, Sendable]
  | cons b rest =>
      have hshort : rest.length < maxLabel := hlength
      have hrest : (rest.map charOf).all (isLabelChar false) = true ↔
          ∀ c ∈ rest, IsWord c ∨ c = 0x2d := by
        rw [List.all_map, List.all_eq_true]
        exact forall₂_congr fun c hc =>
          isLabelChar_charOf_iff false (h c (List.mem_cons_of_mem b hc))
      rw [List.map_cons, isLabel, Bool.and_eq_true, Bool.and_eq_true, hrest,
        isLabelChar_charOf_iff true (h b List.mem_cons_self), List.length_map, decide_eq_true_iff]
      constructor
      · rintro ⟨⟨hb, hrest⟩, -⟩
        exact ⟨b, rest, rfl, hb, hrest⟩
      · rintro ⟨b', rest', heq, hb, hrest⟩
        obtain ⟨rfl, rfl⟩ := List.cons.inj heq
        exact ⟨⟨hb, hrest⟩, hshort⟩

theorem octetsOf_map_charOf (l : Label) : octetsOf (l.map charOf) = l := by
  rw [octetsOf, List.map_map]
  refine (List.map_congr_left fun b _ => ?_).trans (List.map_id l)
  rw [Function.comp_apply, toNat_charOf, UInt8.ofNat_toNat, id]

theorem literalLabel?_map_charOf_eq_some_iff (h : ∀ b ∈ l, isPlain b = true)
    (hlength : l.length ≤ maxLabel) {l' : Label} :
    literalLabel? (l.map charOf) = some l' ↔ l' = l ∧ Sendable l := by
  rw [literalLabel?, octetsOf_map_charOf, Option.ite_none_right_eq_some, Option.some.injEq,
    isLabel_map_charOf_iff h hlength, and_comm, eq_comm]

/-! ## Names -/

/-- The labels of a name are taken as written exactly if all of them may be sent. -/
theorem mapM_literalLabel?_eq_some_iff (h : Legible ls) (hlength : ∀ l ∈ ls, l.length ≤ maxLabel) :
    (ls.map (List.map charOf)).mapM literalLabel? = some ns ↔
      ns = ls ∧ ∀ l ∈ ls, Sendable l := by
  induction ls generalizing ns with
  | nil => simp [eq_comm]
  | cons l ls ih =>
      have hmore := fun ns => @ih ns h.of_cons fun l' hl' => hlength l' (List.mem_cons_of_mem l hl')
      simp only [List.map_cons, List.mapM_cons, Option.pure_def, Option.bind_eq_bind,
        Option.bind_eq_some_iff, Option.some.injEq, hmore, List.forall_mem_cons,
        literalLabel?_map_charOf_eq_some_iff (h.plain l List.mem_cons_self)
          (hlength l List.mem_cons_self)]
      constructor
      · rintro ⟨_, ⟨rfl, hl⟩, _, ⟨rfl, hls⟩, rfl⟩
        exact ⟨rfl, hl, hls⟩
      · rintro ⟨rfl, hl, hls⟩
        exact ⟨l, ⟨rfl, hl⟩, ls, ⟨rfl, hls⟩, rfl⟩

/-- Folding a label in lower case does not change it. -/
theorem literalLabel?_of_foldedLabel? (hlower : cs.map Char.toLower = cs)
    (h : foldedLabel? cs = some l) : literalLabel? cs = some l := by
  rw [foldedLabel?] at h
  split at h
  · exact h
  · split at h
    · rwa [hlower] at h
    · contradiction

/-- A name in lower case is taken as written or not at all. -/
theorem labels?_eq_mapM {parts : List (List Char)}
    (hlower : ∀ cs ∈ parts, cs.map Char.toLower = cs) :
    labels? parts = parts.mapM literalLabel? := by
  have hfolded : ∀ ls, parts.mapM foldedLabel? = some ls → parts.mapM literalLabel? = some ls := by
    induction parts with
    | nil => exact fun _ h => h
    | cons cs parts ih =>
        intro ls h
        simp only [List.mapM_cons, Option.pure_def, Option.bind_eq_bind,
          Option.bind_eq_some_iff, Option.some.injEq] at h ⊢
        obtain ⟨l, hl, ls, hls, rfl⟩ := h
        exact ⟨l, literalLabel?_of_foldedLabel? (hlower cs List.mem_cons_self) hl, ls,
          ih (fun cs' hcs' => hlower cs' (List.mem_cons_of_mem cs hcs')) ls hls, rfl⟩
  rw [labels?]
  cases hparts : parts.mapM foldedLabel? with
  | none => rfl
  | some ls => rw [hfolded ls hparts, Option.some_or]

/-- The text of a name in lower case stands for the name itself, if every label
of it may be sent, and for no other name. -/
theorem ofText?_eq_some_iff (h : Legible ls) (hls : Valid ls) (hne : ls ≠ []) :
    ofText? (String.ofList ((textOf ls).map Char.toLower)) = some ns ↔
      ns = ls.map (List.map lowerOctet) ∧ ∀ l ∈ ls.map (List.map lowerOctet), Sendable l := by
  have hlower : ∀ cs ∈ (ls.map (List.map lowerOctet)).map (List.map charOf),
      cs.map Char.toLower = cs := by
    simp only [List.mem_map, exists_exists_and_eq_and]
    rintro cs ⟨l, hl, rfl⟩
    rw [List.map_map, List.map_map, List.map_map]
    refine List.map_congr_left fun b _ => ?_
    rw [Function.comp_apply, Function.comp_apply, Function.comp_apply, ← toLower_charOf,
      toLower_toLower]
  have hvalid := hls.lower
  rw [ofText?, String.toList_ofList, map_toLower_textOf,
    cut_textOf h.lower (mt List.map_eq_nil_iff.1 hne), Option.bind_some, labels?_eq_mapM hlower,
    Option.filter_eq_some_iff,
    mapM_literalLabel?_eq_some_iff h.lower fun l hl => (hvalid.label l hl).2, decide_eq_true_iff]
  refine ⟨And.left, fun h => ⟨h, ?_⟩⟩
  rw [h.1]
  exact hvalid.length_le

/-- Servers are asked about a name in lower case by its text, if every label may
be sent. -/
theorem ofHost_eq_ok_iff (h : Legible ls) (hls : Valid ls) (hne : ls ≠ []) {id : UInt16}
    {type : RecordType} {octets : Octets} :
    Lookup.ofHost id (String.ofList ((textOf ls).map Char.toLower)) type = .ok octets ↔
      octets = Lookup.encode id (Lookup.question (ls.map (List.map lowerOctet)) type) ∧
        ∀ l ∈ ls.map (List.map lowerOctet), Sendable l := by
  rw [Lookup.ofHost]
  cases hname : ofText? (String.ofList ((textOf ls).map Char.toLower)) with
  | none =>
      refine iff_of_false nofun fun hsent => ?_
      have hsome := (ofText?_eq_some_iff h hls hne).2 ⟨rfl, hsent.2⟩
      rw [hname] at hsome
      contradiction
  | some ns =>
      obtain ⟨rfl, hsendable⟩ := (ofText?_eq_some_iff h hls hne).1 hname
      rw [Except.ok.injEq, eq_comm, iff_self_and]
      exact fun _ => hsendable

/-- A dash may stand anywhere but in front, an asterisk only there. -/
example : (ofText? "*._a-b.c").isSome = true ∧ ofText? "-a." = none ∧ ofText? "a*." = none := by
  decide

/-! ## The name of a question -/

/-- The question that servers are asked to look up a name for a client: the name
that the client asked for, in lower case. -/
def forwarded (asked : AskedQuestion) (type : RecordType) : Question :=
  Lookup.question (asked.question.name.map (List.map lowerOctet)) type

/-- How servers are asked about the name of a question in normal form. -/
structure AsksOn (id : UInt16) (asked : AskedQuestion) (name : Fqdn) (type : RecordType) :
    Prop where
  /-- The normal form is the text of the name that is sent. -/
  text_eq : name.text = String.ofList (textOf (forwarded asked type).name)
  sent_iff : (∃ octets, Lookup.ofHost id name.text type = .ok octets) ↔
    ∀ l ∈ (forwarded asked type).name, Sendable l
  failure : ∀ e, Lookup.ofHost id name.text type = .error e →
    ∃ detail, e = .invalidDomainName detail
  /-- The query asks one question. -/
  decode_eq : ∀ octets, Lookup.ofHost id name.text type = .ok octets →
    Message.decode octets = some ⟨id, Lookup.flags, [forwarded asked type], [], [], []⟩
  /-- A connector would take the query for one that asks about this very name. -/
  parse_eq : ∀ octets, Lookup.ofHost id name.text type = .ok octets →
    Query.parse octets = .ok ⟨id, true, some ⟨forwarded asked type, name.text⟩⟩

/-- **The name is kept.**  For a name that a client asks for, the servers are asked
about the same labels in lower case, however long the name is, or are not asked
at all if there is a label among them that may not be sent. -/
theorem asksOn_of_parse {bs : Octets} {query : Query} {asked : AskedQuestion} {name : Fqdn}
    (hparse : Query.parse bs = .ok query) (hasked : query.asked = some asked)
    (hname : Fqdn.ofText asked.domain = .ok name) (id : UInt16) (type : RecordType) :
    AsksOn id asked name type := by
  obtain ⟨-, -, -, -, htext⟩ := Query.asks_of_parse hparse hasked
  have hvalid := Query.valid_of_parse hparse hasked
  obtain ⟨hlegible, hdomain⟩ := legible_of_text? hvalid htext
  have hne : asked.question.name ≠ [] := by
    intro hroot
    rw [hdomain, hroot] at hname
    contradiction
  rw [hdomain, Fqdn.ofText_textOf hlegible hvalid hne] at hname
  obtain rfl := Except.ok.inj hname
  have hsent := fun octets =>
    @ofHost_eq_ok_iff asked.question.name hlegible hvalid hne id type octets
  refine ⟨congrArg String.ofList (map_toLower_textOf _), ?_, fun e he => ?_, ?_, ?_⟩
  · simp only [hsent, exists_and_right, exists_eq, true_and]
    rfl
  · rw [Lookup.ofHost] at he
    split at he
    · contradiction
    · exact ⟨_, (Except.error.inj he).symm⟩
  · intro octets hoctets
    rw [((hsent octets).1 hoctets).1]
    exact Lookup.decode_encode hvalid.lower id
  · intro octets hoctets
    rw [((hsent octets).1 hoctets).1, map_toLower_textOf]
    exact Lookup.parse_encode hvalid.lower hlegible.lower.text?_eq id

theorem sendable_replicate (n : Nat) : Sendable (.replicate (n + 1) 0x61) := by
  have hword : IsWord 0x61 := .inr (.inl ⟨by decide, by decide⟩)
  exact ⟨0x61, .replicate n 0x61, rfl, .inl hword,
    fun c hc => .inl (List.eq_of_mem_replicate hc ▸ hword)⟩

/-- The longest name in capital letters is sent on, in small letters. -/
theorem asksOn_of_parse_of_longest :
    encodedLength (AllocationKey.longest 0x41) = 255 ∧
      ∃ name octets,
        Fqdn.ofText (String.ofList (textOf (AllocationKey.longest 0x41))) = .ok name ∧
        Lookup.ofHost 7 name.text .aaaa = .ok octets ∧
        Query.parse octets =
          .ok ⟨7, true, some ⟨⟨AllocationKey.longest 0x61, 28, 1⟩, name.text⟩⟩ := by
  have hvalid : Valid (AllocationKey.longest 0x41) := ⟨by decide, by decide⟩
  have htext : text? (AllocationKey.longest 0x41) =
      some (String.ofList (textOf (AllocationKey.longest 0x41))) := if_pos (by decide)
  have hparse := Lookup.parse_encode (q := ⟨AllocationKey.longest 0x41, 28, 1⟩) hvalid htext 0
  have hname := Fqdn.ofText_textOf (legible_of_text? hvalid htext).1 hvalid (List.cons_ne_nil _ _)
  have hasks := asksOn_of_parse hparse rfl hname 7 .aaaa
  have hlower : (AllocationKey.longest 0x41).map (List.map lowerOctet) =
      AllocationKey.longest 0x61 := by
    simp only [AllocationKey.longest, List.map_cons, List.map_replicate, List.map_nil]
    rfl
  have hsendable :
      ∀ l ∈ (AllocationKey.longest 0x41).map (List.map lowerOctet), Sendable l := by
    rw [hlower]
    simp only [AllocationKey.longest, List.forall_mem_cons]
    exact ⟨sendable_replicate 62, sendable_replicate 62, sendable_replicate 62,
      sendable_replicate 60, nofun⟩
  obtain ⟨octets, hoctets⟩ := hasks.sent_iff.2 hsendable
  refine ⟨by decide, _, octets, hname, hoctets, ?_⟩
  rw [hasks.parse_eq octets hoctets, forwarded, hlower]
  rfl

end DnsConnector.HostName
