/-!
# DnsConnector.Text.Numeral

Unsigned numerals in a base up to sixteen.  A numeral has at least one digit
and no sign; leading zeros are digits like any other, so the formats that
forbid them say so themselves.
-/

namespace DnsConnector.Text

/-- The value of a digit of `base`, letters counting from ten in either case. -/
def digit? (base : Nat) (c : Char) : Option Nat :=
  let value :=
    if '0' ≤ c ∧ c ≤ '9' then c.toNat - '0'.toNat
    else if 'a' ≤ c ∧ c ≤ 'f' then c.toNat - 'a'.toNat + 10
    else if 'A' ≤ c ∧ c ≤ 'F' then c.toNat - 'A'.toNat + 10
    else base
  if value < base then some value else none

/-- Continues a numeral whose digits so far are worth `n`. -/
def numeralFrom? (base : Nat) : Nat → List Char → Option Nat
  | n, [] => some n
  | n, c :: cs =>
    match digit? base c with
    | some d => numeralFrom? base (n * base + d) cs
    | none => none

/-- The number a numeral spells. -/
def numeral? (base : Nat) (cs : List Char) : Option Nat :=
  if cs.isEmpty then none else numeralFrom? base 0 cs

/-- A numeral whose value is at most `most`. -/
def numeralUpTo? (base most : Nat) (cs : List Char) : Option Nat :=
  (numeral? base cs).filter (· ≤ most)

theorem digit?_lt {base d : Nat} {c : Char} (h : digit? base c = some d) : d < base := by
  simp only [digit?, Option.ite_none_right_eq_some, Option.some.injEq] at h
  exact h.2 ▸ h.1

theorem numeral?_nil (base : Nat) : numeral? base [] = none := rfl

/-- The bound of a bounded numeral holds. -/
theorem le_of_numeralUpTo? {base most n : Nat} {cs : List Char}
    (h : numeralUpTo? base most cs = some n) : n ≤ most := by
  simp only [numeralUpTo?, Option.filter_eq_some_iff] at h
  simpa using h.2

end DnsConnector.Text
