import DnsConnector.Fqdn
import DnsConnector.Proofs.Text

/-!
# DnsConnector.Proofs.Fqdn

Names in normal form are their own normal form (`ofText_text`): what is left
of a text without blanks and trailing dots is left of its normal form too, up
to the case of its letters.
-/

namespace DnsConnector.Fqdn

open Text

/-! ## Lower case -/

@[simp] theorem octetCount_map_toLower (cs : List Char) :
    octetCount (cs.map Char.toLower) = octetCount cs := by
  induction cs with
  | nil => rfl
  | cons c cs ih => rw [List.map_cons, octetCount, octetCount, ih, utf8Size_toLower]

@[simp] theorem isLabel_map_toLower (cs : List Char) :
    isLabel (cs.map Char.toLower) = isLabel cs := by
  rw [isLabel, isLabel, octetCount_map_toLower, List.isEmpty_map]

theorem toLower_eq_dot_iff (c : Char) : c.toLower = '.' ↔ c = '.' :=
  toLower_eq_iff (.inl (by decide)) (.inl (by decide))

/-- The labels of a text in lower case are as long as those of the text. -/
theorem all_isLabel_map_toLower (cs : List Char) :
    (pieces '.' (cs.map Char.toLower)).all isLabel = (pieces '.' cs).all isLabel := by
  have hlabel : isLabel ∘ List.map Char.toLower = isLabel := funext isLabel_map_toLower
  rw [pieces_map toLower_eq_dot_iff, List.all_map, hlabel]

/-! ## Bare texts -/

/-- A bare text does not start with a blank. -/
theorem head?_bare {cs : List Char} {c : Char} (h : (bare cs).head? = some c) :
    isBlank c = false := by
  obtain ⟨rest, hrest⟩ := dropTrailing_prefix (· == '.') (trim cs)
  have hhead : (trim cs).head? = some c := by
    rw [← hrest, List.head?_append, ← bare, h, Option.some_or]
  exact head?_trim hhead

/-- A bare text does not end with a dot. -/
theorem getLast?_bare {cs : List Char} {c : Char} (h : (bare cs).getLast? = some c) : c ≠ '.' := by
  simpa using getLast?_dropTrailing h

/-- Lower case and one dot at the end are taken off again. -/
theorem bare_map_toLower {cs : List Char} (hne : bare cs ≠ []) :
    bare ((bare cs).map Char.toLower ++ ['.']) = (bare cs).map Char.toLower := by
  have htrim : trim ((bare cs).map Char.toLower ++ ['.']) =
      (bare cs).map Char.toLower ++ ['.'] := by
    refine trim_eq_self (fun c hc => ?_) (fun c hc => ?_)
    · obtain ⟨c', rest, hbare⟩ := List.exists_cons_of_ne_nil hne
      rw [hbare] at hc
      obtain rfl : c'.toLower = c := by simpa using hc
      rw [isBlank_toLower]
      exact head?_bare (by rw [hbare]; rfl)
    · obtain rfl : '.' = c := by simpa using hc
      decide
  rw [bare, htrim, dropTrailing_append_singleton, if_pos (beq_self_eq_true '.')]
  refine dropTrailing_eq_self fun c hc => ?_
  rw [List.getLast?_map] at hc
  obtain ⟨c', hc', rfl⟩ := Option.map_eq_some_iff.1 hc
  simpa [toLower_eq_dot_iff] using getLast?_bare hc'

/-! ## Normal forms -/

/-- An accepted text is bare but for blanks and dots around it, and its normal
form is what is left, in lower case and with a dot. -/
theorem normalize_eq_ok_iff {cs ds : List Char} :
    normalize cs = .ok ds ↔
      bare cs ≠ [] ∧ octetCount (bare cs) + 1 ≤ maxLength ∧
        (pieces '.' (bare cs)).all isLabel = true ∧ ds = (bare cs).map Char.toLower ++ ['.'] := by
  rw [normalize, normalizeBare]
  constructor
  · intro h
    split at h
    · contradiction
    next hne =>
      split at h
      · contradiction
      next hlength =>
        split at h
        next hlabels =>
          exact ⟨by simpa using hne, Nat.le_of_not_lt hlength, hlabels, (Except.ok.inj h).symm⟩
        · contradiction
  · rintro ⟨hne, hlength, hlabels, rfl⟩
    rw [if_neg (by simpa using hne), if_neg (Nat.not_lt.2 hlength), if_pos hlabels]

/-- A normal form is its own normal form. -/
theorem normalize_normalize {cs ds : List Char} (h : normalize cs = .ok ds) :
    normalize ds = .ok ds := by
  obtain ⟨hne, hlength, hlabels, rfl⟩ := normalize_eq_ok_iff.1 h
  have hbare := bare_map_toLower hne
  refine normalize_eq_ok_iff.2 ?_
  rw [hbare]
  refine ⟨by simpa using hne, by simpa using hlength, ?_, ?_⟩
  · rw [all_isLabel_map_toLower, hlabels]
  · have hlower : Char.toLower ∘ Char.toLower = Char.toLower := funext toLower_toLower
    rw [List.map_map, hlower]

/-- A name is named by its own text. -/
theorem ofText_text {text : String} {name : Fqdn} (h : ofText text = .ok name) :
    ofText name.text = .ok name := by
  rw [ofText] at h
  cases hcs : normalize text.toList with
  | error fault => rw [hcs] at h; contradiction
  | ok cs =>
      rw [hcs] at h
      obtain rfl := Except.ok.inj h
      rw [ofText, String.toList_ofList, normalize_normalize hcs]
      rfl

end DnsConnector.Fqdn
