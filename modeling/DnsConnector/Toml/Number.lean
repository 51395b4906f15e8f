import DnsConnector.Text.Numeral
import DnsConnector.Text.Pieces
import DnsConnector.Toml.Value

/-!
# DnsConnector.Toml.Number

Numbers, booleans, dates and times.  They are words, and what a word stands for
is decided by the whole word; the classes do not overlap.

Whether a word is meant as an integer shows in its first characters and in the
places of its underscores.  Whether it spells one shows only when the value is
needed.
-/

namespace DnsConnector.Toml

open Text

/-- Whether a character is a blank within a line. -/
def isLineBlank (c : Char) : Bool := c == ' ' || c == '\t'

namespace Word

/-! ## Digits -/

/-- Digits of a base, with single underscores between them. -/
def isDigits (base : Nat) (cs : List Char) : Bool :=
  (pieces '_' cs).all fun p => !p.isEmpty && p.all fun c => (digit? base c).isSome

/-- The number that digits spell, underscores not counted. -/
def valueOf (base : Nat) (cs : List Char) : Nat :=
  (cs.filterMap (digit? base)).foldl (fun n d => n * base + d) 0

/-- The text without its sign, and whether the sign is a minus. -/
def unsigned : List Char → List Char × Bool
  | '+' :: cs => (cs, false)
  | '-' :: cs => (cs, true)
  | cs => (cs, false)

/-- A number split into its sign and the rest. -/
structure Signed where
  minus : Bool
  /-- Whether an underscore stands between the sign and the rest.  It is not
  counted, and zeros may follow it. -/
  spaced : Bool
  rest : List Char

/-- A number without its sign. -/
def signed : List Char → Signed
  | '+' :: '_' :: cs => ⟨false, true, cs⟩
  | '-' :: '_' :: cs => ⟨true, true, cs⟩
  | cs => ⟨(unsigned cs).2, false, (unsigned cs).1⟩

namespace Signed

/-- Whether digits may follow the sign.  They do not start with a zero unless
that is all, or an underscore comes first. -/
def isDecimal (s : Signed) (digits : List Char) : Bool :=
  isDigits 10 digits && (s.spaced || digits.head? != some '0' || digits.length == 1)

/-- A number of the sign. -/
def apply (s : Signed) (n : Nat) : Int := if s.minus then -n else n

end Signed

/-! ## Integers -/

/-- Digits of a base as a number. -/
def inBase? (base : Nat) (cs : List Char) : Option Int :=
  if isDigits base cs then some (valueOf base cs : Nat) else none

/-- The integer a word spells. -/
def integer? : List Char → Option Int
  | '0' :: 'x' :: cs => inBase? 16 cs
  | '0' :: 'o' :: cs => inBase? 8 cs
  | '0' :: 'b' :: cs => inBase? 2 cs
  | cs =>
    let s := signed cs
    if s.isDecimal s.rest then some (s.apply (valueOf 10 s.rest)) else none

/-- Whether the pieces between underscores look like digits at their ends, in
any base.  The end of the last one is not looked at. -/
def areSpaced : List (List Char) → Bool
  | [] => true
  | p :: ps =>
    let isDigit (c : Option Char) := (c.bind (digit? 16)).isSome
    isDigit p.head? && (ps.isEmpty || isDigit p.getLast?) && areSpaced ps

/-- What follows the first underscore of a word that is meant as a decimal
integer. -/
def afterUnderscore? (cs : List Char) : Option (List Char) :=
  let s := signed cs
  if s.spaced then some s.rest
  else
    match s.rest.takeWhile Char.isDigit, s.rest.dropWhile Char.isDigit with
    | c :: _, '_' :: rest => if c = '0' then none else some rest
    | _, _ => none

/-- Whether a word is spaced like an integer: a mark of a base with nothing
behind it, or something with underscores in the right places that is neither
two words nor meant as a fraction. -/
def isOutline (cs : List Char) : Bool :=
  cs = ['0', 'x'] || cs = ['0', 'o'] || cs = ['0', 'b'] ||
    match afterUnderscore? cs with
    | none => false
    | some rest =>
      rest.all (fun c => c != ' ' && c != '.' && c != 'e' && c != 'E') && areSpaced (pieces '_' rest)

/-! ## Fractions -/

/-- The parts of a number with a fraction or an exponent: the digits before and
after the point and the power of ten. -/
structure Scientific where
  whole : List Char
  fraction : List Char
  exponent : Int

/-- The word before the first letter `e`, in either case, and what follows. -/
def cutAtExponent (cs : List Char) : List Char × Option (List Char) :=
  match cutAt? 'e' (cs.map fun c => if c = 'E' then 'e' else c) with
  | some (mantissa, exponent) => (mantissa, some exponent)
  | none => (cs, none)

/-- The exponent of a number; a missing one is zero. -/
def exponent? : Option (List Char) → Option Int
  | none => some 0
  | some cs =>
    let (digits, minus) := unsigned cs
    if isDigits 10 digits then
      some (if minus then -(valueOf 10 digits : Nat) else (valueOf 10 digits : Nat))
    else
      none

/-- The parts of a number that has a fraction or an exponent. -/
def scientific? (cs : List Char) : Option Scientific := do
  let s := signed cs
  let (mantissa, power) := cutAtExponent s.rest
  let exponent ← exponent? power
  match cutAt? '.' mantissa with
  | some (whole, fraction) =>
    if s.isDecimal whole && isDigits 10 fraction then some ⟨whole, fraction, exponent⟩ else none
  | none => if s.isDecimal mantissa && power.isSome then some ⟨mantissa, [], exponent⟩ else none

/-- Whether a word stands for infinity or for no number. -/
def isSpecial (cs : List Char) : Bool :=
  let word := String.ofList (unsigned cs).1
  word == "inf" || word == "nan"

/-- Whether a word stands for a number with a fraction or an exponent. -/
def isFloat (cs : List Char) : Bool := isSpecial cs || (scientific? cs).isSome

/-- The least number that is too large for 64 bits of floating point: it lies
halfway between the largest one and the next power of two. -/
def overflowBound : Nat := Nat.pow 2 1024 - Nat.pow 2 970

/-- Whether a number is too large for 64 bits of floating point.  Numbers of
fewer than 300 or more than 320 digits are told apart by that count. -/
def overflows (s : Scientific) : Bool :=
  let digits := valueOf 10 (s.whole ++ s.fraction)
  let shown := s.fraction.filter (· != '_')
  let power := s.exponent - shown.length
  let count : Int := (Nat.toDigits 10 digits).length + power
  if digits = 0 || count < 300 then false
  else if 320 < count then true
  else if 0 ≤ power then overflowBound ≤ digits * Nat.pow 10 power.toNat
  else overflowBound * Nat.pow 10 power.natAbs ≤ digits

/-! ## Dates and times -/

/-- A field of exactly two digits. -/
def twoDigits? : List Char → Option Nat
  | [a, b] => numeral? 10 [a, b]
  | _ => none

/-- The number of days in a month. -/
def daysIn (year month : Nat) : Nat :=
  if month = 2 then
    if year % 4 = 0 ∧ (year % 100 ≠ 0 ∨ year % 400 = 0) then 29 else 28
  else if month = 4 ∨ month = 6 ∨ month = 9 ∨ month = 11 then 30
  else 31

/-- A day of the calendar, written year, month and day. -/
def isDate (cs : List Char) : Bool :=
  match pieces '-' cs with
  | [y, m, d] =>
    match y.length, numeral? 10 y, twoDigits? m, twoDigits? d with
    | 4, some year, some month, some day =>
      1 ≤ month && month ≤ 12 && 1 ≤ day && day ≤ daysIn year month
    | _, _, _, _ => false
  | _ => false

/-- Seconds with an optional fraction. -/
def isSeconds (cs : List Char) : Bool :=
  let whole? (cs : List Char) := ((twoDigits? cs).filter (· ≤ 60)).isSome
  match cutAt? '.' cs with
  | none => whole? cs
  | some (whole, fraction) => whole? whole && (numeral? 10 fraction).isSome

/-- An hour and a minute. -/
def isHourMinute (h m : List Char) (mostHour : Nat) : Bool :=
  ((twoDigits? h).filter (· ≤ mostHour)).isSome && ((twoDigits? m).filter (· ≤ 59)).isSome

/-- A time of day; the seconds may be missing. -/
def isTime (cs : List Char) : Bool :=
  match pieces ':' cs with
  | [h, m] => isHourMinute h m 23
  | [h, m, s] => isHourMinute h m 23 && isSeconds s
  | _ => false

/-- A difference from universal time behind its sign. -/
def isOffset (cs : List Char) : Bool :=
  match pieces ':' cs with
  | [h, m] => isHourMinute h m 23
  | _ => false

/-- A time of day, with the difference from universal time if there is one. -/
def isZonedTime (cs : List Char) : Bool :=
  match cs.reverse with
  | 'Z' :: r | 'z' :: r => isTime r.reverse
  | _ =>
    match cutAt? '+' cs with
    | some (time, offset) => isTime time && isOffset offset
    | none =>
      match cutAt? '-' cs with
      | some (time, offset) => isTime time && isOffset offset
      | none => isTime cs

/-- A date, a time, or both with a letter or a blank between them. -/
def isDatetime (cs : List Char) : Bool :=
  isDate cs || isTime cs ||
    (isDate (cs.take 10) &&
      match cs.drop 10 with
      | c :: time => (c == 'T' || c == 't' || c == ' ') && isZonedTime time
      | [] => false)

/-! ## Words -/

/-- Whether a character may stand in a word: all do that have no meaning for
the structure of a document, points included. -/
def isWordChar (c : Char) : Bool :=
  !(isLineBlank c || c == '\n' || c == '\x0d' || c == '#' || c == '=' || c == ',' ||
    c == '[' || c == ']' || c == '\x7b' || c == '\x7d')

/-- Whether a character may follow blanks inside a word. -/
def resumes (c : Char) : Bool := isWordChar c && c != '.' && c != '"' && c != '\''

/-- Splits a word off, and gives what follows it.  Blanks belong to the word if
it goes on behind them. -/
def split : (blanks : List Char) → List Char → List Char × List Char
  | blanks, [] => ([], blanks)
  | blanks, c :: cs =>
    if isLineBlank c then split (blanks ++ [c]) cs
    else if resumes c || (blanks.isEmpty && isWordChar c) then
      let (word, rest) := split [] cs
      (blanks ++ c :: word, rest)
    else ([], blanks ++ c :: cs)

/-- Splitting a word off loses nothing. -/
theorem split_append (blanks cs : List Char) :
    (split blanks cs).1 ++ (split blanks cs).2 = blanks ++ cs := by
  induction cs generalizing blanks with
  | nil => simp [split]
  | cons c cs ih =>
    rw [split]
    split
    · rw [ih, List.append_assoc, List.singleton_append]
    · split
      · simp only [List.append_assoc, List.cons_append, ih, List.nil_append]
      · simp

/-- The value a word stands for. -/
def value? (cs : List Char) : Option Value :=
  if cs = "true".toList then some (.boolean true)
  else if cs = "false".toList then some (.boolean false)
  else
    match integer? cs with
    | some n => some (.integer n)
    | none =>
      if isFloat cs then some (.float (String.ofList cs))
      else if isDatetime cs then some (.datetime (String.ofList cs))
      else if isOutline cs then some (.illegible (String.ofList cs))
      else none

/-- Reads a word and the value it stands for. -/
def read (cs : List Char) : Option (Value × List Char) :=
  let (word, rest) := split [] cs
  (value? word).map (·, rest)

end Word

namespace Value

/-- The least integer and the greatest one that fit 128 bits, with a sign and
without. -/
def integerRange : Int × Int :=
  (-0x80000000000000000000000000000000, 0xffffffffffffffffffffffffffffffff)

mutual

/-- Whether every number inside a value has a machine representation. -/
def isReadable : Value → Bool
  | .integer n => integerRange.1 ≤ n && n ≤ integerRange.2
  | .illegible _ => false
  | .float written => ((Word.scientific? written.toList).map Word.overflows) != some true
  | .array _ items => areReadable items
  | .table _ entries => entriesReadable entries
  | _ => true

/-- Whether all values are readable. -/
def areReadable : List Value → Bool
  | [] => true
  | v :: vs => isReadable v && areReadable vs

/-- Whether the values of all entries are readable. -/
def entriesReadable : List (String × Value) → Bool
  | [] => true
  | e :: es => isReadable e.2 && entriesReadable es

end

end Value

end DnsConnector.Toml
