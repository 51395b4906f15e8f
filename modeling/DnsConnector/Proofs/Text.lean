import DnsConnector.Text.Blank
import DnsConnector.Text.Pieces
import Mathlib.Data.List.TakeWhile

/-!
# DnsConnector.Proofs.Text

Lower case, trimming and cutting of texts.  Lowering a character keeps its
length, and whether it is blank or a dot, so it can be done before or after a
text is trimmed and cut.
-/

namespace DnsConnector.Text

/-! ## Lower case -/

/-- Lowering moves the capital letters of ASCII by 32 code points. -/
theorem toNat_toLower (c : Char) :
    c.toLower.toNat = if 65 ≤ c.toNat ∧ c.toNat ≤ 90 then c.toNat + 32 else c.toNat := by
  have hiff : (c.val ≥ 'A'.val ∧ c.val ≤ 'Z'.val) ↔ 65 ≤ c.toNat ∧ c.toNat ≤ 90 := by
    rw [ge_iff_le, UInt32.le_iff_toNat_le, UInt32.le_iff_toNat_le]
    exact Iff.rfl
  unfold Char.toLower
  split
  next h =>
    have hc := hiff.1 h
    rw [if_pos hc, ← Char.toNat_val]
    change (c.val + 32).toNat = _
    rw [UInt32.toNat_add, Char.toNat_val]
    change (c.toNat + 32) % 4294967296 = _
    omega
  next h => rw [if_neg (fun hc => h (hiff.2 hc))]

theorem toLower_toLower (c : Char) : c.toLower.toLower = c.toLower := by
  rw [← Char.toNat_inj, toNat_toLower c.toLower, if_neg]
  rw [toNat_toLower]
  split <;> omega

/-- Only a character that is no capital letter is lowered to one that is no
letter. -/
theorem toLower_eq_iff {c d : Char} (hd : d.toNat < 97 ∨ 122 < d.toNat)
    (hd' : d.toNat < 65 ∨ 90 < d.toNat) : c.toLower = d ↔ c = d := by
  rw [← Char.toNat_inj, ← Char.toNat_inj, toNat_toLower]
  split <;> omega

@[simp] theorem isBlank_toLower (c : Char) : isBlank c.toLower = isBlank c := by
  rw [Bool.eq_iff_iff]
  simp only [isBlank, blankRanges, List.any_cons, List.any_nil, Bool.or_false, Bool.or_eq_true,
    Bool.and_eq_true, decide_eq_true_eq, toNat_toLower]
  split <;> omega

@[simp] theorem utf8Size_toLower (c : Char) : c.toLower.utf8Size = c.utf8Size := by
  by_cases h : 65 ≤ c.toNat ∧ c.toNat ≤ 90
  · have hlower : c.toLower.toNat = c.toNat + 32 := by rw [toNat_toLower, if_pos h]
    have hc : c.utf8Size = 1 := by
      rw [Char.utf8Size_eq_one_iff, UInt32.le_iff_toNat_le]
      change c.toNat ≤ 127
      omega
    have hc' : c.toLower.utf8Size = 1 := by
      rw [Char.utf8Size_eq_one_iff, UInt32.le_iff_toNat_le]
      change c.toLower.toNat ≤ 127
      omega
    rw [hc, hc']
  · have hsame : c.toLower = c := by rw [← Char.toNat_inj, toNat_toLower, if_neg h]
    rw [hsame]

/-! ## Trimming -/

section Trimming

variable {α : Type} {p : α → Bool} {xs : List α}

/-- What is dropped stands at the end. -/
theorem dropTrailing_prefix (p : α → Bool) (xs : List α) : dropTrailing p xs <+: xs := by
  rw [dropTrailing, ← List.reverse_suffix, List.reverse_reverse]
  exact List.dropWhile_suffix p

/-- The last element left fails `p`. -/
theorem getLast?_dropTrailing {x : α} (h : (dropTrailing p xs).getLast? = some x) :
    p x = false := by
  rw [dropTrailing, List.getLast?_reverse] at h
  have hnot := List.head?_dropWhile_not p xs.reverse
  rw [h] at hnot
  simpa using hnot

/-- Nothing is dropped if the last element fails `p`. -/
theorem dropTrailing_eq_self (h : ∀ x ∈ xs.getLast?, p x = false) : dropTrailing p xs = xs := by
  rw [dropTrailing]
  cases hxs : xs.reverse with
  | nil => simp [List.reverse_eq_nil_iff.1 hxs]
  | cons x rest =>
      have hx : p x = false := h x (by rw [List.getLast?_eq_head?_reverse, hxs]; rfl)
      rw [List.dropWhile_cons_of_neg (by simp [hx]), ← hxs, List.reverse_reverse]

/-- What is dropped satisfies `p`. -/
theorem exists_eq_dropTrailing_append (p : α → Bool) (xs : List α) :
    ∃ ys, xs = dropTrailing p xs ++ ys ∧ ∀ y ∈ ys, p y = true := by
  refine ⟨(xs.reverse.takeWhile p).reverse, ?_, fun y hy => ?_⟩
  · rw [dropTrailing, ← List.reverse_append, List.takeWhile_append_dropWhile, List.reverse_reverse]
  · exact List.all_eq_true.1 List.all_takeWhile y (List.mem_reverse.1 hy)

/-- What satisfies `p` at the end makes no difference. -/
theorem dropTrailing_append {ys : List α} (h : ∀ y ∈ ys, p y = true) :
    dropTrailing p (xs ++ ys) = dropTrailing p xs := by
  have hreverse : ∀ y ∈ ys.reverse, p y = true := fun y hy => h y (List.mem_reverse.1 hy)
  rw [dropTrailing, List.reverse_append, List.dropWhile_append_of_pos hreverse, dropTrailing]

theorem dropTrailing_map {β : Type} (f : β → α) (ys : List β) :
    dropTrailing p (ys.map f) = (dropTrailing (p ∘ f) ys).map f := by
  rw [dropTrailing, dropTrailing, ← List.map_reverse, List.dropWhile_map, List.map_reverse]

/-- The first character of a trimmed text is not blank. -/
theorem head?_trim {cs : List Char} {c : Char} (h : (trim cs).head? = some c) :
    isBlank c = false := by
  obtain ⟨rest, hrest⟩ := dropTrailing_prefix isBlank (cs.dropWhile isBlank)
  have hhead : (cs.dropWhile isBlank).head? = some c := by
    rw [← hrest, List.head?_append, ← trim, h, Option.some_or]
  have hnot := List.head?_dropWhile_not isBlank cs
  rw [hhead] at hnot
  simpa using hnot

/-- A text that neither starts nor ends with a blank is not trimmed. -/
theorem trim_eq_self {cs : List Char} (hhead : ∀ c ∈ cs.head?, isBlank c = false)
    (hlast : ∀ c ∈ cs.getLast?, isBlank c = false) : trim cs = cs := by
  have hdrop : cs.dropWhile isBlank = cs := by
    cases cs with
    | nil => rfl
    | cons c cs => rw [List.dropWhile_cons_of_neg (by simp [hhead c rfl])]
  rw [trim, hdrop]
  exact dropTrailing_eq_self hlast

/-- Only blanks around a text are trimmed. -/
theorem exists_eq_trim (cs : List Char) :
    ∃ before after, cs = before ++ trim cs ++ after ∧ (∀ c ∈ before, isBlank c = true) ∧
      ∀ c ∈ after, isBlank c = true := by
  obtain ⟨after, hafter, hblank⟩ :=
    exists_eq_dropTrailing_append isBlank (cs.dropWhile isBlank)
  refine ⟨cs.takeWhile isBlank, after, ?_, List.all_eq_true.1 List.all_takeWhile, hblank⟩
  rw [trim, List.append_assoc, ← hafter, List.takeWhile_append_dropWhile]

/-- Blanks around a text make no difference once it is trimmed. -/
theorem trim_append {before cs after : List Char} (hbefore : ∀ c ∈ before, isBlank c = true)
    (hafter : ∀ c ∈ after, isBlank c = true) : trim (before ++ cs ++ after) = trim cs := by
  rw [trim, List.append_assoc, List.dropWhile_append_of_pos hbefore, List.dropWhile_append, trim]
  split
  next hcs =>
    rw [List.isEmpty_iff.1 hcs, List.dropWhile_eq_nil_iff.2 hafter]
  next => exact dropTrailing_append hafter

theorem trim_map_toLower (cs : List Char) :
    trim (cs.map Char.toLower) = (trim cs).map Char.toLower := by
  have hblank : isBlank ∘ Char.toLower = isBlank := funext isBlank_toLower
  rw [trim, trim, List.dropWhile_map, dropTrailing_map, hblank]

end Trimming

/-! ## Cutting -/

/-- A text may be changed before it is cut, if the separator stays apart. -/
theorem pieces_map {α : Type} [DecidableEq α] {sep : α} {f : α → α}
    (hf : ∀ x, f x = sep ↔ x = sep) (xs : List α) :
    pieces sep (xs.map f) = (pieces sep xs).map (List.map f) := by
  induction xs with
  | nil => rfl
  | cons x xs ih =>
      rw [List.map_cons, pieces, pieces, ih]
      by_cases hx : x = sep
      · rw [if_pos ((hf x).2 hx), if_pos hx]
        rfl
      · rw [if_neg fun h => hx ((hf x).1 h), if_neg hx]
        cases hp : pieces sep xs with
        | nil => exact absurd hp (pieces_ne_nil sep xs)
        | cons p ps => rfl

/-- The first piece ends at the first separator. -/
theorem pieces_append_cons {α : Type} [DecidableEq α] {sep : α} {xs : List α} (h : sep ∉ xs)
    (ys : List α) : pieces sep (xs ++ sep :: ys) = xs :: pieces sep ys := by
  induction xs with
  | nil => rw [List.nil_append, pieces, if_pos rfl]
  | cons x xs ih =>
      obtain ⟨hx, hxs⟩ := not_or.1 (mt List.mem_cons.2 h)
      rw [List.cons_append, pieces, if_neg (Ne.symm hx), ih hxs]

/-- The last piece starts after the last separator. -/
theorem pieces_append_singleton {α : Type} [DecidableEq α] (sep : α) (xs : List α) :
    pieces sep (xs ++ [sep]) = pieces sep xs ++ [[]] := by
  induction xs with
  | nil => simp [pieces]
  | cons x xs ih =>
      rw [List.cons_append, pieces, pieces, ih]
      split
      · rfl
      · cases hp : pieces sep xs with
        | nil => exact absurd hp (pieces_ne_nil sep xs)
        | cons p ps => rfl

/-- A text is its pieces with a separator behind each, but for the last one. -/
theorem flatMap_pieces {α : Type} [DecidableEq α] (sep : α) (xs : List α) :
    (pieces sep xs).flatMap (· ++ [sep]) = xs ++ [sep] := by
  induction xs with
  | nil => rfl
  | cons x xs ih =>
      rw [pieces]
      split
      next h => rw [List.flatMap_cons, ih, h]; rfl
      next =>
        cases hp : pieces sep xs with
        | nil => exact absurd hp (pieces_ne_nil sep xs)
        | cons p ps =>
            rw [hp, List.flatMap_cons] at ih
            rw [List.flatMap_cons, List.cons_append, List.cons_append, ih, List.cons_append]

/-- Pieces with a separator behind each are cut apart again. -/
theorem pieces_flatMap {α : Type} [DecidableEq α] {sep : α} {ps : List (List α)}
    (h : ∀ p ∈ ps, sep ∉ p) : pieces sep (ps.flatMap (· ++ [sep])) = ps ++ [[]] := by
  induction ps with
  | nil => rfl
  | cons p ps ih =>
      rw [List.flatMap_cons, List.append_assoc, List.singleton_append,
        pieces_append_cons (h p List.mem_cons_self),
        ih fun q hq => h q (List.mem_cons_of_mem p hq), List.cons_append]

end DnsConnector.Text
