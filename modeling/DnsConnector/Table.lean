/-!
# DnsConnector.Table

Finite tables in the order in which their keys were first inserted.  What a
table holds is read with `get?`; `get?_insert`, `get?_erase` and `get?_modify`
say what each operation does to it, and no operation makes a key occur twice.
-/

namespace DnsConnector

/-- A finite map from keys to values, in insertion order. -/
structure Table (κ α : Type) where
  entries : List (κ × α)
deriving Repr

namespace Table

variable {κ α : Type} [DecidableEq κ]

instance : EmptyCollection (Table κ α) := ⟨⟨[]⟩⟩

instance : Inhabited (Table κ α) := ⟨∅⟩

/-! ## Operations -/

/-- The value of the first entry for `k`. -/
def findIn (k : κ) : List (κ × α) → Option α
  | [] => none
  | (k', a) :: es => if k' = k then some a else findIn k es

/-- The entries with the first one for `k` overwritten, or one more at the end. -/
def putIn (k : κ) (a : α) : List (κ × α) → List (κ × α)
  | [] => [(k, a)]
  | (k', b) :: es => if k' = k then (k, a) :: es else (k', b) :: putIn k a es

/-- The value of a key. -/
def get? (t : Table κ α) (k : κ) : Option α := findIn k t.entries

/-- The keys, oldest first. -/
def keys (t : Table κ α) : List κ := t.entries.map (·.1)

/-- The number of keys. -/
def size (t : Table κ α) : Nat := t.entries.length

/-- Whether there is no key. -/
def isEmpty (t : Table κ α) : Bool := t.entries.isEmpty

/-- Sets the value of a key, which keeps its place if it is not new. -/
def insert (t : Table κ α) (k : κ) (a : α) : Table κ α := ⟨putIn k a t.entries⟩

/-- Removes a key. -/
def erase (t : Table κ α) (k : κ) : Table κ α := ⟨t.entries.filter (·.1 ≠ k)⟩

/-- Changes the value of a key, if it has one. -/
def modify (t : Table κ α) (k : κ) (f : α → α) : Table κ α :=
  ⟨t.entries.map fun e => if e.1 = k then (e.1, f e.2) else e⟩

/-! ## What a look-up sees -/

omit [DecidableEq κ] in
@[simp] theorem keys_empty : (∅ : Table κ α).keys = [] := rfl

@[simp] theorem get?_empty (k : κ) : (∅ : Table κ α).get? k = none := rfl

theorem findIn_putIn (k k' : κ) (a : α) (es : List (κ × α)) :
    findIn k' (putIn k a es) = if k' = k then some a else findIn k' es := by
  induction es with
  | nil => by_cases h : k' = k <;> simp_all [putIn, findIn, eq_comm]
  | cons e es ih =>
    obtain ⟨q, b⟩ := e
    by_cases hq : q = k
    · subst hq
      by_cases h : k' = q <;> simp_all [putIn, findIn, eq_comm]
    · by_cases h' : q = k'
      · subst h'; simp [putIn, findIn, hq]
      · simp [putIn, findIn, hq, h', ih]

/-- An insertion is seen at its key and nowhere else. -/
theorem get?_insert (t : Table κ α) (k k' : κ) (a : α) :
    (t.insert k a).get? k' = if k' = k then some a else t.get? k' :=
  findIn_putIn k k' a t.entries

@[simp] theorem get?_insert_self (t : Table κ α) (k : κ) (a : α) :
    (t.insert k a).get? k = some a := by simp [get?_insert]

/-- A removal is seen at its key and nowhere else. -/
theorem get?_erase (t : Table κ α) (k k' : κ) :
    (t.erase k).get? k' = if k' = k then none else t.get? k' := by
  simp only [erase, get?]
  induction t.entries with
  | nil => simp [findIn]
  | cons e es ih =>
    obtain ⟨q, b⟩ := e
    by_cases hq : q = k
    · subst hq
      by_cases h : k' = q
      · subst h; simpa [findIn] using ih
      · have hne : ¬ q = k' := fun e => h e.symm
        simpa [findIn, h, hne] using ih
    · by_cases h' : q = k'
      · subst h'; simp [findIn, hq]
      · simpa [findIn, hq, h'] using ih

/-- A change is seen at its key and nowhere else. -/
theorem get?_modify (t : Table κ α) (k k' : κ) (f : α → α) :
    (t.modify k f).get? k' = if k' = k then (t.get? k').map f else t.get? k' := by
  simp only [modify, get?]
  induction t.entries with
  | nil => simp [findIn]
  | cons e es ih =>
    obtain ⟨q, b⟩ := e
    by_cases hq : q = k
    · subst hq
      by_cases h : k' = q
      · subst h; simp [findIn]
      · have hne : ¬ q = k' := fun e => h e.symm
        simpa [findIn, h, hne] using ih
    · by_cases h' : q = k'
      · subst h'; simp [findIn, hq]
      · simpa [findIn, hq, h'] using ih

/-- A key has a value iff it is among the keys. -/
theorem get?_isSome_iff (t : Table κ α) (k : κ) : (t.get? k).isSome = true ↔ k ∈ t.keys := by
  simp only [get?, keys]
  induction t.entries with
  | nil => simp [findIn]
  | cons e es ih =>
    obtain ⟨q, b⟩ := e
    by_cases h : q = k
    · simp [findIn, h]
    · have hne : ¬ k = q := fun e => h e.symm
      simp only [findIn, h, if_false, ih, List.map_cons, List.mem_cons, hne, false_or]

/-! ## Keys occur once -/

@[simp] theorem keys_modify (t : Table κ α) (k : κ) (f : α → α) : (t.modify k f).keys = t.keys := by
  simp only [modify, keys, List.map_map]
  apply List.map_congr_left
  intro e _
  by_cases h : e.1 = k <;> simp [h]

theorem map_fst_putIn (k : κ) (a : α) (es : List (κ × α)) :
    (putIn k a es).map (·.1) = if k ∈ es.map (·.1) then es.map (·.1) else es.map (·.1) ++ [k] := by
  induction es with
  | nil => simp [putIn]
  | cons e es ih =>
    obtain ⟨q, b⟩ := e
    by_cases h : q = k
    · subst h; simp [putIn]
    · have hne : ¬ k = q := fun e => h e.symm
      simp only [putIn, h, if_false, List.map_cons, ih, List.mem_cons, hne, false_or]
      split <;> simp

/-- A new key comes last, an old one keeps its place. -/
theorem keys_insert (t : Table κ α) (k : κ) (a : α) :
    (t.insert k a).keys = if k ∈ t.keys then t.keys else t.keys ++ [k] :=
  map_fst_putIn k a t.entries

omit [DecidableEq κ] in
@[simp] theorem length_keys (t : Table κ α) : t.keys.length = t.size := by simp [keys, size]

/-- A key counts once, however often its value is set. -/
theorem size_insert (t : Table κ α) (k : κ) (a : α) :
    (t.insert k a).size = if (t.get? k).isSome then t.size else t.size + 1 := by
  rw [← length_keys, keys_insert]
  by_cases h : k ∈ t.keys
  · rw [if_pos h, if_pos ((get?_isSome_iff t k).2 h), length_keys]
  · rw [if_neg h, if_neg (mt (get?_isSome_iff t k).1 h), List.length_append, length_keys,
      List.length_singleton]

theorem nodup_keys_insert {t : Table κ α} (h : t.keys.Nodup) (k : κ) (a : α) :
    (t.insert k a).keys.Nodup := by
  rw [keys_insert]
  split
  · exact h
  next hk =>
    rw [List.nodup_append]
    refine ⟨h, by simp, ?_⟩
    intro x hx y hy hxy
    simp only [List.mem_singleton] at hy
    subst hy hxy
    exact hk hx

theorem nodup_keys_erase {t : Table κ α} (h : t.keys.Nodup) (k : κ) :
    (t.erase k).keys.Nodup :=
  h.sublist (List.filter_sublist.map _)

end Table

end DnsConnector
