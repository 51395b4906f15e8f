import DnsConnector.AddressBook
import DnsConnector.Proofs.Fqdn
import DnsConnector.Proofs.Wire.Lookup
import DnsConnector.Proofs.Wire.NameText
import DnsConnector.Proofs.Wire.Query
import Mathlib.Data.List.Forall2

/-!
# DnsConnector.Proofs.AllocationKey

What addresses are filed under when they are asked for on the wire.  The text
of a question's name is a name in normal form but for the case of its letters,
however long it is (`Fqdn.ofText_textOf`).  So the keys of two questions are equal
exactly if the peers are and the names are the same up to case
(`AllocationKey.ofText_eq_iff`).
-/

namespace DnsConnector

open Text Wire Name

variable {ls ls' : List Label}

/-! ## The normal form of the text of a name -/

namespace Fqdn

/-- Plain characters are counted as octets one by one. -/
theorem octetCount_eq_length {cs : List Char} (h : ∀ c ∈ cs, c.utf8Size = 1) :
    octetCount cs = cs.length := by
  induction cs with
  | nil => rfl
  | cons c cs ih =>
      rw [octetCount, ih fun c' hc' => h c' (List.mem_cons_of_mem c hc'), h c List.mem_cons_self,
        List.length_cons, Nat.add_comm]

/-- No character in the text of a legible name is blank, and each has one octet. -/
theorem of_mem_textOf (h : Legible ls) {c : Char} (hc : c ∈ textOf ls) :
    isBlank c = false ∧ c.utf8Size = 1 := by
  rw [textOf] at hc
  split at hc
  · obtain rfl := List.mem_singleton.1 hc
    decide
  · obtain ⟨l, hl, hc⟩ := List.mem_flatMap.1 hc
    rcases List.mem_append.1 hc with hc | hc
    · obtain ⟨b, hb, rfl⟩ := List.mem_map.1 hc
      exact (charOf_of_isPlain (h.plain l hl b hb)).2
    · obtain rfl := List.mem_singleton.1 hc
      decide

/-- Only the last dot is taken off the text of a legible name. -/
theorem bare_textOf (h : Legible ls) (hne : ls ≠ []) :
    textOf ls = bare (textOf ls) ++ ['.'] ∧ bare (textOf ls) ≠ [] := by
  have htrim : trim (textOf ls) = textOf ls :=
    trim_eq_self (fun c hc => (of_mem_textOf h (List.mem_of_mem_head? hc)).1)
      fun c hc => (of_mem_textOf h (List.mem_of_getLast? hc)).1
  obtain ⟨front, l, rfl⟩ := List.eq_nil_or_concat ls |>.resolve_left hne
  rw [List.concat_eq_append] at h hne htrim ⊢
  have hmem : l ∈ front ++ [l] := List.mem_append_right front List.mem_cons_self
  have hl : l.map charOf ≠ [] := mt List.map_eq_nil_iff.1 (h.ne_nil l hmem)
  have htext : textOf (front ++ [l]) =
      (front.flatMap (fun l => l.map charOf ++ ['.']) ++ l.map charOf) ++ ['.'] := by
    rw [textOf_of_ne_nil hne, List.flatMap_append, List.flatMap_singleton, List.append_assoc]
  generalize front.flatMap (fun l => l.map charOf ++ ['.']) = before at htext
  have hbare : bare (textOf (front ++ [l])) = before ++ l.map charOf := by
    rw [bare, htrim, htext, dropTrailing_append_singleton, if_pos (beq_self_eq_true '.')]
    refine dropTrailing_eq_self fun c hc => ?_
    rw [List.getLast?_append_of_ne_nil _ hl] at hc
    obtain ⟨b, hb, rfl⟩ := List.mem_map.1 (List.mem_of_getLast? hc)
    simpa using (charOf_of_isPlain (h.plain l hmem b hb)).1
  rw [hbare]
  exact ⟨htext, List.append_ne_nil_of_right_ne_nil _ hl⟩

/-- The text of a name is accepted if the name fits into a message, and its
normal form is the text in lower case. -/
theorem normalize_textOf (h : Legible ls) (hls : Valid ls) (hne : ls ≠ []) :
    normalize (textOf ls) = .ok ((textOf ls).map Char.toLower) := by
  obtain ⟨htext, hbare⟩ := bare_textOf h hne
  have hsize : ∀ c ∈ bare (textOf ls), c.utf8Size = 1 := by
    intro c hc
    refine (of_mem_textOf h ?_).2
    rw [htext]
    exact List.mem_append_left _ hc
  refine normalize_eq_ok_iff.2 ⟨hbare, ?_, ?_, ?_⟩
  · have hlength := length_textOf hne
    have hmax : Fqdn.maxLength = 254 := rfl
    have hfits : encodedLength ls ≤ 255 := hls.length_le
    rw [htext, List.length_append, List.length_singleton] at hlength
    rw [octetCount_eq_length hsize]
    omega
  · have hpieces := pieces_textOf h hne
    rw [htext, pieces_append_singleton] at hpieces
    rw [List.append_cancel_right hpieces, List.all_map]
    refine List.all_eq_true.2 fun l hl => ?_
    have hplain : ∀ c ∈ l.map charOf, c.utf8Size = 1 := by
      intro c hc
      obtain ⟨b, hb, rfl⟩ := List.mem_map.1 hc
      exact (charOf_of_isPlain (h.plain l hl b hb)).2.2
    have hlabel : l.length ≤ Fqdn.maxLabel := (hls.label l hl).2
    rw [Function.comp_apply, isLabel, octetCount_eq_length hplain, List.length_map]
    simpa [h.ne_nil l hl] using hlabel
  · conv_lhs => rw [htext]
    rw [List.map_append]
    rfl

theorem ofText_textOf (h : Legible ls) (hls : Valid ls) (hne : ls ≠ []) :
    ofText (String.ofList (textOf ls)) =
      .ok ⟨String.ofList ((textOf ls).map Char.toLower)⟩ := by
  rw [ofText, String.toList_ofList, normalize_textOf h hls hne]
  rfl

end Fqdn

/-! ## Keys of questions -/

namespace AllocationKey

/-- Two labels are the same but for the case of letters of ASCII. -/
def EqUpToCase (l l' : Label) : Prop := l.map lowerOctet = l'.map lowerOctet

/-- The texts of two names are the same in lower case exactly if the names are
the same label by label, up to case. -/
theorem map_toLower_textOf_eq_iff (h : Legible ls) (h' : Legible ls') :
    (textOf ls).map Char.toLower = (textOf ls').map Char.toLower ↔
      List.Forall₂ EqUpToCase ls ls' := by
  have hlower : List.Forall₂ EqUpToCase ls ls' ↔
      ls.map (List.map lowerOctet) = ls'.map (List.map lowerOctet) := by
    rw [← List.forall₂_eq_eq_eq, List.forall₂_map_left_iff, List.forall₂_map_right_iff]
    rfl
  rw [hlower, map_toLower_textOf, map_toLower_textOf]
  exact ⟨textOf_injective h.lower h'.lower, congrArg textOf⟩

/-- **Keys are names.**  The domains of two accepted questions are the same
text exactly if the names are the same on the wire.  The root has no key.  Any
other name has one, whose text is the domain in lower case, and two keys are
equal exactly if the peers are equal and the names are the same label by label,
up to case. -/
theorem ofText_eq_iff {bs bs' : Octets} {query query' : Query} {asked asked' : AskedQuestion}
    (hparse : Query.parse bs = .ok query) (hasked : query.asked = some asked)
    (hparse' : Query.parse bs' = .ok query') (hasked' : query'.asked = some asked')
    (peer peer' : PeerId) :
    (asked.domain = asked'.domain ↔ asked.question.name = asked'.question.name) ∧
      (asked.question.name = [] → ∃ fault detail, Fqdn.ofText asked.domain = .error fault ∧
        fault.toFailure = .invalidDomainName detail) ∧
      (asked.question.name ≠ [] → asked'.question.name ≠ [] →
        ∃ k k', ofText peer asked.domain = .ok k ∧ ofText peer' asked'.domain = .ok k' ∧
          k = ⟨peer, ⟨String.ofList (asked.domain.toList.map Char.toLower)⟩⟩ ∧
          k' = ⟨peer', ⟨String.ofList (asked'.domain.toList.map Char.toLower)⟩⟩ ∧
          (k = k' ↔ peer = peer' ∧
            List.Forall₂ EqUpToCase asked.question.name asked'.question.name)) := by
  obtain ⟨-, -, -, -, htext⟩ := Query.asks_of_parse hparse hasked
  obtain ⟨-, -, -, -, htext'⟩ := Query.asks_of_parse hparse' hasked'
  have hvalid := Query.valid_of_parse hparse hasked
  have hvalid' := Query.valid_of_parse hparse' hasked'
  obtain ⟨hlegible, hdomain⟩ := legible_of_text? hvalid htext
  obtain ⟨hlegible', hdomain'⟩ := legible_of_text? hvalid' htext'
  rw [hdomain, hdomain']
  refine ⟨⟨fun h => ?_, fun h => by rw [h]⟩, fun hroot => ?_, fun hne hne' => ?_⟩
  · exact textOf_injective hlegible hlegible' (String.ofList_injective h)
  · rw [hroot]
    exact ⟨.empty, _, rfl, rfl⟩
  · rw [ofText, ofText, Fqdn.ofText_textOf hlegible hvalid hne,
      Fqdn.ofText_textOf hlegible' hvalid' hne', String.toList_ofList, String.toList_ofList]
    refine ⟨_, _, rfl, rfl, rfl, rfl, ?_⟩
    rw [AllocationKey.mk.injEq, Fqdn.mk.injEq, String.ofList_inj,
      map_toLower_textOf_eq_iff hlegible hlegible']

/-- A name with as many octets as a message has room for. -/
def longest (b : UInt8) : List Label :=
  [.replicate 63 b, .replicate 63 b, .replicate 63 b, .replicate 61 b]

/-- The longest name has one key in capital and in small letters. -/
theorem ofText_eq_iff_of_longest :
    encodedLength (longest 0x41) = 255 ∧
      ∃ asked asked' k,
        Query.parse (Lookup.encode 0 ⟨longest 0x41, 1, 1⟩) = .ok ⟨0, true, some asked⟩ ∧
        Query.parse (Lookup.encode 0 ⟨longest 0x61, 1, 1⟩) = .ok ⟨0, true, some asked'⟩ ∧
        asked.domain ≠ asked'.domain ∧
        ofText ⟨"p"⟩ asked.domain = .ok k ∧ ofText ⟨"p"⟩ asked'.domain = .ok k := by
  have hparse := Lookup.parse_encode (q := ⟨longest 0x41, 1, 1⟩) ⟨by decide, by decide⟩
    (if_pos (by decide)) 0
  have hparse' := Lookup.parse_encode (q := ⟨longest 0x61, 1, 1⟩) ⟨by decide, by decide⟩
    (if_pos (by decide)) 0
  obtain ⟨hdomain, -, hkeys⟩ := ofText_eq_iff hparse rfl hparse' rfl ⟨"p"⟩ ⟨"p"⟩
  obtain ⟨k, k', hk, hk', -, -, heq⟩ := hkeys (List.cons_ne_nil _ _) (List.cons_ne_nil _ _)
  have hsame : k = k' := by
    refine heq.2 ⟨rfl, ?_⟩
    have hlabel : ∀ n, EqUpToCase (.replicate n 0x41) (.replicate n 0x61) := by
      intro n
      rw [EqUpToCase, List.map_replicate, List.map_replicate]
      rfl
    exact .cons (hlabel 63) (.cons (hlabel 63) (.cons (hlabel 63) (.cons (hlabel 61) .nil)))
  refine ⟨by decide, _, _, k, hparse, hparse', mt hdomain.1 (by decide), hk, ?_⟩
  rw [hsame]
  exact hk'

end AllocationKey

end DnsConnector
