import DnsConnector.Text.Numeral

/-!
# DnsConnector.Toml.Quoted

Texts in quotes.  There are four kinds: with escapes or literal, and on one
line or over several.  Each reader starts behind the opening quotes and gives
the text together with what follows the closing quotes.

Over several lines, a line break right behind the opening quotes does not
count, every other one is kept as it is written, and up to two quotes may stand
directly in front of the closing ones.
-/

namespace DnsConnector.Toml.Quoted

open DnsConnector.Text

/-- Whether a character may stand in a text as it is: a tab, or anything that is
no control character. -/
def isPlain (c : Char) : Bool := c == '\t' || (0x20 ≤ c.toNat && c.toNat != 0x7f)

/-- The character a letter behind a backslash stands for. -/
def escaped? : Char → Option Char
  | 'b' => some '\x08'
  | 't' => some '\t'
  | 'n' => some '\n'
  | 'f' => some '\x0c'
  | 'r' => some '\x0d'
  | 'e' => some '\x1b'
  | '"' => some '"'
  | '\\' => some '\\'
  | _ => none

/-- The character with a hexadecimal number, unless it is a surrogate. -/
def scalar? (digits : List Char) : Option Char :=
  (numeral? 16 digits).bind fun n => if h : n.isValidChar then some (Char.ofNatAux n h) else none

/-- How many digits follow a letter that starts a number. -/
def digitCount? : Char → Option Nat
  | 'x' => some 2
  | 'u' => some 4
  | 'U' => some 8
  | _ => none

/-- Puts a character in front of a text that was read. -/
def push (c : Char) (r : Option (List Char × List Char)) : Option (List Char × List Char) :=
  r.map fun (text, rest) => (c :: text, rest)

/-! ## One line -/

/-- A text with escapes.  `due` counts the digits of a number still to come. -/
def basicFrom : (due : Nat) → (digits : List Char) → List Char → Option (List Char × List Char)
  | _, _, [] => none
  | due + 1, digits, c :: cs =>
    if due = 0 then
      (scalar? (digits ++ [c])).bind fun d => push d (basicFrom 0 [] cs)
    else
      basicFrom due (digits ++ [c]) cs
  | 0, _, '"' :: cs => some ([], cs)
  | 0, _, '\\' :: c :: cs =>
    match digitCount? c with
    | some n => basicFrom n [] cs
    | none => (escaped? c).bind fun d => push d (basicFrom 0 [] cs)
  | 0, _, c :: cs => if isPlain c && c != '\\' then push c (basicFrom 0 [] cs) else none

/-- A text with escapes. -/
def basic (cs : List Char) : Option (List Char × List Char) := basicFrom 0 [] cs

/-- A text without escapes. -/
def literal : List Char → Option (List Char × List Char)
  | [] => none
  | '\'' :: cs => some ([], cs)
  | c :: cs => if isPlain c then push c (literal cs) else none

/-! ## Several lines -/

/-- The text without a line break at its front. -/
def dropLineBreak : List Char → List Char
  | '\n' :: cs => cs
  | '\x0d' :: '\n' :: cs => cs
  | cs => cs

/-- The quotes that belong to the text although they directly precede the
closing ones, and the rest; at most two do. -/
def spareQuotes (quote : Char) : List Char → List Char × List Char
  | a :: b :: cs =>
    if a = quote ∧ b = quote then ([a, b], cs)
    else if a = quote then ([a], b :: cs)
    else ([], a :: b :: cs)
  | [a] => if a = quote then ([a], []) else ([], [a])
  | [] => ([], [])

/-- Where a reader of several lines stands. -/
inductive Place where
  /-- In the text. -/
  | text
  /-- Behind a backslash and blanks; a line break has to come. -/
  | beforeBreak
  /-- Behind a backslash and a line break; blanks and line breaks do not count. -/
  | afterBreak
  /-- In a number of which digits are still to come. -/
  | number (due : Nat) (digits : List Char)
deriving DecidableEq

/-- A text with escapes over several lines. -/
def basicLines : Place → List Char → Option (List Char × List Char)
  | _, [] => none
  | .number due digits, c :: cs =>
    if due ≤ 1 then
      (scalar? (digits ++ [c])).bind fun d => push d (basicLines .text cs)
    else
      basicLines (.number (due - 1) (digits ++ [c])) cs
  | .beforeBreak, '\n' :: cs => basicLines .afterBreak cs
  | .beforeBreak, '\x0d' :: '\n' :: cs => basicLines .afterBreak cs
  | .beforeBreak, c :: cs => if c = ' ' ∨ c = '\t' then basicLines .beforeBreak cs else none
  | .afterBreak, '\x0d' :: '\n' :: cs => basicLines .afterBreak cs
  | .text, '\x0d' :: '\n' :: cs => push '\x0d' (push '\n' (basicLines .text cs))
  | _, '"' :: '"' :: '"' :: cs => some (spareQuotes '"' cs)
  | _, '\\' :: c :: cs =>
    if c = ' ' ∨ c = '\t' then
      basicLines .beforeBreak cs
    else if c = '\n' then
      basicLines .afterBreak cs
    else if c = '\x0d' then
      match cs with
      | '\n' :: cs => basicLines .afterBreak cs
      | _ => none
    else
      match digitCount? c with
      | some n => basicLines (.number n []) cs
      | none => (escaped? c).bind fun d => push d (basicLines .text cs)
  | place, c :: cs =>
    if place = .afterBreak ∧ (c = ' ' ∨ c = '\t' ∨ c = '\n') then basicLines .afterBreak cs
    else if (isPlain c && c != '\\') || c == '\n' then push c (basicLines .text cs)
    else none

/-- A text without escapes over several lines. -/
def literalLines : List Char → Option (List Char × List Char)
  | [] => none
  | '\'' :: '\'' :: '\'' :: cs => some (spareQuotes '\'' cs)
  | '\x0d' :: '\n' :: cs => push '\x0d' (push '\n' (literalLines cs))
  | c :: cs => if isPlain c || c == '\n' then push c (literalLines cs) else none

/-- Reads a text in quotes of any kind. -/
def read : List Char → Option (List Char × List Char)
  | '"' :: '"' :: '"' :: cs => basicLines .text (dropLineBreak cs)
  | '"' :: cs => basic cs
  | '\'' :: '\'' :: '\'' :: cs => literalLines (dropLineBreak cs)
  | '\'' :: cs => literal cs
  | _ => none

end DnsConnector.Toml.Quoted
