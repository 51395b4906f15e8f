/-!
# DnsConnector.Toml.Value

The values of a TOML document.  A table remembers how it was written and an
array whether it was written as tables, because that decides what later lines
of the document may add to them.
-/

namespace DnsConnector.Toml

/-- How a table came into a document. -/
inductive TableForm where
  /-- It has a header of its own. -/
  | header
  /-- Only headers of tables inside it name it. -/
  | implied
  /-- Dotted keys name it. -/
  | dotted
  /-- It is written in braces and therefore complete. -/
  | braces
deriving DecidableEq, Repr

/-- A value.  Numbers with a fraction, and dates and times, are kept as they
are written. -/
inductive Value where
  | text (value : String)
  | integer (value : Int)
  /-- A word that is spaced like an integer but spells none.  It may stand where
  nobody reads it. -/
  | illegible (written : String)
  | float (written : String)
  | boolean (value : Bool)
  | datetime (written : String)
  | array (ofTables : Bool) (items : List Value)
  | table (form : TableForm) (entries : List (String × Value))
deriving Repr

/-- The members of a table, in the order in which they were written. -/
abbrev Entries := List (String × Value)

namespace Value

/-- The value of a key. -/
def find? (key : String) : Entries → Option Value
  | [] => none
  | (k, v) :: es => if k = key then some v else find? key es

/-- The entries with the value of a key replaced. -/
def replace (key : String) (v : Value) (es : Entries) : Entries :=
  es.map fun e => if e.1 = key then (key, v) else e

end Value

end DnsConnector.Toml
