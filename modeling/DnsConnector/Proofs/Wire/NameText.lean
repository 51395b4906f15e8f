import DnsConnector.Proofs.Text
import DnsConnector.Proofs.Wire.Name
import DnsConnector.Wire.Query

/-!
# DnsConnector.Proofs.Wire.NameText

The texts of names.  Cut at its dots, the text of a name gives its labels back
(`pieces_textOf`), so different names have different texts
(`textOf_injective`), and lowering the text is lowering the octets of the name
(`map_toLower_textOf`).
-/

namespace DnsConnector.Wire.Name

open Text

/-! ## Octets and their characters -/

/-- A capital letter of ASCII in lower case; any other octet stays. -/
def lowerOctet (b : UInt8) : UInt8 := if 0x41 ≤ b ∧ b ≤ 0x5a then b + 32 else b

variable {b b' : UInt8}

theorem toNat_charOf (b : UInt8) : (charOf b).toNat = b.toNat := by
  have hvalid : b.toNat.isValidChar := .inl (Nat.lt_trans b.toNat_lt (by decide))
  rw [charOf, Char.ofNat, dif_pos hvalid]
  rfl

theorem charOf_injective (h : charOf b = charOf b') : b = b' := by
  rw [← UInt8.toNat_inj, ← toNat_charOf, h, toNat_charOf]

theorem toNat_lowerOctet (b : UInt8) :
    (lowerOctet b).toNat = if 65 ≤ b.toNat ∧ b.toNat ≤ 90 then b.toNat + 32 else b.toNat := by
  rw [lowerOctet]
  simp only [UInt8.le_iff_toNat_le]
  change (if 65 ≤ b.toNat ∧ b.toNat ≤ 90 then b + 32 else b).toNat = _
  split
  · rw [UInt8.toNat_add]
    change (b.toNat + 32) % 256 = _
    omega
  · rfl

theorem toLower_charOf (b : UInt8) : (charOf b).toLower = charOf (lowerOctet b) := by
  rw [← Char.toNat_inj, toNat_toLower, toNat_charOf, toNat_charOf, toNat_lowerOctet]

theorem isPlain_iff :
    isPlain b = true ↔ 0x21 ≤ b.toNat ∧ b.toNat ≤ 0x7e ∧ b.toNat ≠ 0x2e ∧ b.toNat ≠ 0x5c := by
  simp only [isPlain, Bool.and_eq_true, decide_eq_true_eq, bne_iff_ne, ne_eq,
    UInt8.le_iff_toNat_le, ← UInt8.toNat_inj, and_assoc]
  rfl

theorem isPlain_lowerOctet (h : isPlain b = true) : isPlain (lowerOctet b) = true := by
  rw [isPlain_iff] at h ⊢
  rw [toNat_lowerOctet]
  split <;> omega

/-- A plain octet has a character of one octet that is neither blank nor a dot. -/
theorem charOf_of_isPlain (h : isPlain b = true) :
    charOf b ≠ '.' ∧ isBlank (charOf b) = false ∧ (charOf b).utf8Size = 1 := by
  have hb := isPlain_iff.1 h
  refine ⟨?_, ?_, ?_⟩
  · rw [ne_eq, ← Char.toNat_inj, toNat_charOf]
    exact hb.2.2.1
  · simp only [isBlank, blankRanges, List.any_cons, List.any_nil, Bool.or_false,
      Bool.or_eq_false_iff, Bool.and_eq_false_iff, decide_eq_false_iff_not, toNat_charOf]
    omega
  · rw [Char.utf8Size_eq_one_iff, UInt32.le_iff_toNat_le]
    change (charOf b).toNat ≤ 127
    rw [toNat_charOf]
    omega

/-! ## Labels and their texts -/

/-- Labels that can be told apart in the text of their name. -/
structure Legible (ls : List Label) : Prop where
  ne_nil : ∀ l ∈ ls, l ≠ []
  plain : ∀ l ∈ ls, ∀ b ∈ l, isPlain b = true

variable {ls ls' : List Label} {l : Label}

/-- A name that fits into a message and has a text is legible. -/
theorem legible_of_text? (hls : Valid ls) {text : String} (h : text? ls = some text) :
    Legible ls ∧ text = String.ofList (textOf ls) := by
  rw [text?, Option.ite_none_right_eq_some, Option.some.injEq] at h
  refine ⟨⟨fun l hl => List.length_pos_iff.1 (hls.label l hl).1, fun l hl b hb => ?_⟩, h.2.symm⟩
  exact List.all_eq_true.1 (List.all_eq_true.1 h.1 l hl) b hb

theorem Legible.text?_eq (h : Legible ls) : text? ls = some (String.ofList (textOf ls)) := by
  have hplain : ls.all (·.all isPlain) = true := by
    simpa only [List.all_eq_true] using h.plain
  rw [text?, if_pos hplain]

theorem Legible.of_cons (h : Legible (l :: ls)) : Legible ls :=
  ⟨fun l' hl' => h.ne_nil l' (List.mem_cons_of_mem l hl'),
    fun l' hl' => h.plain l' (List.mem_cons_of_mem l hl')⟩

/-- Lower case does not make a name illegible. -/
theorem Legible.lower (h : Legible ls) : Legible (ls.map (List.map lowerOctet)) := by
  constructor
  · intro l hl
    obtain ⟨l', hl', rfl⟩ := List.mem_map.1 hl
    exact mt List.map_eq_nil_iff.1 (h.ne_nil l' hl')
  · intro l hl b hb
    obtain ⟨l', hl', rfl⟩ := List.mem_map.1 hl
    obtain ⟨b', hb', rfl⟩ := List.mem_map.1 hb
    exact isPlain_lowerOctet (h.plain l' hl' b' hb')

theorem encodedLength_lower (ls : List Label) :
    encodedLength (ls.map (List.map lowerOctet)) = encodedLength ls := by
  induction ls with
  | nil => rfl
  | cons l ls ih => rw [List.map_cons, encodedLength, encodedLength, ih, List.length_map]

/-- A name in lower case has the room that the name has. -/
theorem Valid.lower (h : Valid ls) : Valid (ls.map (List.map lowerOctet)) := by
  refine ⟨fun l hl => ?_, (encodedLength_lower ls).symm ▸ h.length_le⟩
  obtain ⟨l', hl', rfl⟩ := List.mem_map.1 hl
  rw [List.length_map]
  exact h.label l' hl'

theorem textOf_of_ne_nil (hne : ls ≠ []) :
    textOf ls = ls.flatMap fun l => l.map charOf ++ ['.'] := by
  rw [textOf, if_neg (by simpa using hne)]

/-- The text of a name other than the root is cut into its labels and an empty rest. -/
theorem pieces_textOf (h : Legible ls) (hne : ls ≠ []) :
    pieces '.' (textOf ls) = ls.map (List.map charOf) ++ [[]] := by
  have hdot : ∀ cs ∈ ls.map (List.map charOf), '.' ∉ cs := by
    intro cs hcs hmem
    obtain ⟨l, hl, rfl⟩ := List.mem_map.1 hcs
    obtain ⟨b, hb, hdot⟩ := List.mem_map.1 hmem
    exact (charOf_of_isPlain (h.plain l hl b hb)).1 hdot
  rw [textOf_of_ne_nil hne, ← pieces_flatMap hdot, List.flatMap_map]

/-- Different legible names have different texts. -/
theorem textOf_injective (h : Legible ls) (h' : Legible ls') (heq : textOf ls = textOf ls') :
    ls = ls' := by
  have hroot : pieces '.' (textOf []) = [[], []] := rfl
  have hpieces := congrArg (pieces '.') heq
  cases ls with
  | nil =>
      cases ls' with
      | nil => rfl
      | cons l' ls' =>
          rw [hroot, pieces_textOf h' (List.cons_ne_nil _ _)] at hpieces
          exact absurd (List.map_eq_nil_iff.1 (List.cons.inj hpieces).1.symm)
            (h'.ne_nil l' List.mem_cons_self)
  | cons l ls =>
      rw [pieces_textOf h (List.cons_ne_nil _ _)] at hpieces
      cases ls' with
      | nil =>
          rw [hroot] at hpieces
          exact absurd (List.map_eq_nil_iff.1 (List.cons.inj hpieces).1)
            (h.ne_nil l List.mem_cons_self)
      | cons l' ls' =>
          rw [pieces_textOf h' (List.cons_ne_nil _ _)] at hpieces
          have hlabels := List.append_cancel_right hpieces
          have hlabel : ∀ l l' : Label, l.map charOf = l'.map charOf → l = l' :=
            fun _ _ => (List.map_inj_right fun _ _ => charOf_injective).1
          exact (List.map_inj_right hlabel).1 hlabels

/-- The text in lower case is the text of the name in lower case. -/
theorem map_toLower_textOf (ls : List Label) :
    (textOf ls).map Char.toLower = textOf (ls.map (List.map lowerOctet)) := by
  have hdot : Char.toLower '.' = '.' := by decide
  have hlabel : ∀ l : Label, (l.map charOf).map Char.toLower = (l.map lowerOctet).map charOf := by
    intro l
    rw [List.map_map, List.map_map]
    exact List.map_congr_left fun b _ => toLower_charOf b
  rw [textOf, textOf, List.isEmpty_map]
  split
  · rw [List.map_singleton, hdot]
  · rw [List.map_flatMap, List.flatMap_map]
    refine congrArg (List.flatMap · ls) (funext fun l => ?_)
    rw [List.map_append, hlabel, List.map_singleton, hdot]

/-- The text of a name has one character for each octet on the wire but one. -/
theorem length_textOf (hne : ls ≠ []) : (textOf ls).length + 1 = encodedLength ls := by
  rw [textOf_of_ne_nil hne]
  clear hne
  induction ls with
  | nil => rfl
  | cons l ls ih =>
      rw [List.flatMap_cons, List.length_append, List.length_append, List.length_map,
        encodedLength, ← ih, List.length_singleton, Nat.add_assoc]

end DnsConnector.Wire.Name
