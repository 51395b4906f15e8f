/-!
# DnsConnector.Text.Pieces

A text cut at every occurrence of a separator.  There is always one piece more
than there are separators, no piece holds the separator, and joining the
pieces gives the text back (`join_pieces`).
-/

namespace DnsConnector.Text

/-- The pieces of `xs` between the occurrences of `sep`, empty ones included. -/
def pieces [DecidableEq α] (sep : α) : List α → List (List α)
  | [] => [[]]
  | x :: xs =>
    if x = sep then
      [] :: pieces sep xs
    else
      match pieces sep xs with
      | [] => [[x]]
      | p :: ps => (x :: p) :: ps

/-- The pieces put together again with the separator between them. -/
def join (sep : α) : List (List α) → List α
  | [] => []
  | [p] => p
  | p :: ps => p ++ sep :: join sep ps

theorem pieces_ne_nil [DecidableEq α] (sep : α) (xs : List α) : pieces sep xs ≠ [] := by
  cases xs with
  | nil => simp [pieces]
  | cons x xs =>
    rw [pieces]
    split
    · simp
    · split <;> simp

/-- Nothing of the text is lost by cutting it. -/
theorem join_pieces [DecidableEq α] (sep : α) (xs : List α) :
    join sep (pieces sep xs) = xs := by
  induction xs with
  | nil => rfl
  | cons x xs ih =>
    rw [pieces]
    split
    next h =>
      cases hp : pieces sep xs with
      | nil => exact absurd hp (pieces_ne_nil sep xs)
      | cons p ps => rw [hp] at ih; simp [join, ih, h]
    next h =>
      cases hp : pieces sep xs with
      | nil => exact absurd hp (pieces_ne_nil sep xs)
      | cons p ps =>
        rw [hp] at ih
        cases ps with
        | nil => simp_all [join]
        | cons q qs => simp_all [join]

/-- No piece holds the separator. -/
theorem not_mem_of_mem_pieces [DecidableEq α] {sep : α} {xs p : List α}
    (h : p ∈ pieces sep xs) : sep ∉ p := by
  induction xs generalizing p with
  | nil => simp_all [pieces]
  | cons x xs ih =>
    rw [pieces] at h
    split at h
    next hx =>
      rcases List.mem_cons.1 h with rfl | h
      · simp
      · exact ih h
    next hx =>
      cases hp : pieces sep xs with
      | nil => exact absurd hp (pieces_ne_nil sep xs)
      | cons q qs =>
        rw [hp] at h ih
        rcases List.mem_cons.1 h with rfl | h
        · intro hm
          rcases List.mem_cons.1 hm with rfl | hm
          · exact hx rfl
          · exact ih List.mem_cons_self hm
        · exact ih (List.mem_cons_of_mem _ h)

/-- The text before the first `sep` and the text after it, if there is one. -/
def cutAt? [DecidableEq α] (sep : α) : List α → Option (List α × List α)
  | [] => none
  | x :: xs =>
    if x = sep then some ([], xs) else (cutAt? sep xs).map fun (a, b) => (x :: a, b)

/-- A cut loses exactly the separator. -/
theorem eq_append_of_cutAt? [DecidableEq α] {sep : α} {xs a b : List α}
    (h : cutAt? sep xs = some (a, b)) : xs = a ++ sep :: b := by
  induction xs generalizing a with
  | nil => simp [cutAt?] at h
  | cons x xs ih =>
    rw [cutAt?] at h
    split at h
    next hx => simp_all
    next hx =>
      obtain ⟨⟨a', b'⟩, hc, he⟩ := Option.map_eq_some_iff.1 h
      simp only [Prod.mk.injEq] at he
      obtain ⟨rfl, rfl⟩ := he
      rw [ih hc]; rfl

end DnsConnector.Text
