import DnsConnector.Toml.Number
import DnsConnector.Toml.Quoted

/-!
# DnsConnector.Toml.Document

TOML documents (version 1.1).  A document is a sequence of lines; each may name
a table or set a key of the table named last.  Keys may be dotted, values may
nest, and a table or key may not be defined twice.

Reading nested values is bounded by the length of the text, since every value
takes at least one character; nesting is limited besides.
-/

namespace DnsConnector.Toml

/-! ## Blanks, comments and line breaks -/

/-- The text behind blanks within a line. -/
def dropBlanks (cs : List Char) : List Char := cs.dropWhile isLineBlank

/-- The text behind blanks, line breaks and comments. -/
def dropTrivia : (inComment : Bool) → List Char → Option (List Char)
  | _, [] => some []
  | _, '\n' :: cs => dropTrivia false cs
  | _, '\x0d' :: '\n' :: cs => dropTrivia false cs
  | true, c :: cs => if Quoted.isPlain c then dropTrivia true cs else none
  | false, c :: cs =>
    if isLineBlank c then dropTrivia false cs
    else if c = '#' then dropTrivia true cs
    else some (c :: cs)

/-- The text behind the end of a line, which may have blanks and a comment. -/
def endLine (cs : List Char) : Option (List Char) :=
  match dropBlanks cs with
  | [] => some []
  | '\n' :: cs => some cs
  | '\x0d' :: '\n' :: cs => some cs
  | '#' :: cs => dropTrivia true cs
  | _ => none

/-! ## Keys -/

/-- Whether a character may stand in a key without quotes. -/
def isBareKeyChar (c : Char) : Bool := c.isAlphanum || c == '_' || c == '-'

/-- Reads one part of a key. -/
def readKeyPart (cs : List Char) : Option (String × List Char) :=
  match cs with
  | '"' :: cs => (Quoted.basic cs).map fun (text, rest) => (String.ofList text, rest)
  | '\'' :: cs => (Quoted.literal cs).map fun (text, rest) => (String.ofList text, rest)
  | cs =>
    match cs.takeWhile isBareKeyChar with
    | [] => none
    | word => some (String.ofList word, cs.dropWhile isBareKeyChar)

/-- How many parts a key may have, and how deep values may nest. -/
def depthLimit : Nat := 80

/-- Reads a key of at most `most` parts with dots between them, blanks allowed
around each. -/
def readKeyUpTo : (most : Nat) → List Char → Option (List String × List Char)
  | 0, _ => none
  | most + 1, cs => do
    let (part, rest) ← readKeyPart (dropBlanks cs)
    match dropBlanks rest with
    | '.' :: rest => do
      let (parts, rest) ← readKeyUpTo most rest
      some (part :: parts, rest)
    | rest => some ([part], rest)

/-- Reads a key and the blanks behind it. -/
def readKey (cs : List Char) : Option (List String × List Char) := readKeyUpTo depthLimit cs

/-! ## Tables -/

namespace Value

/-- Changes the table at a path, which is made if it does not exist.  A path in
front of a dotted key must not lead through a table with a header, and no path
leads through a table in braces or through anything that is no table; an array
of tables stands for its last one. -/
def updateAt (dotted : Bool) (change : TableForm → Entries → Option (TableForm × Entries)) :
    List String → TableForm → Entries → Option (TableForm × Entries)
  | [], form, es => change form es
  | k :: ks, form, es =>
    match find? k es with
    | none => do
      let (f, inner) ← updateAt dotted change ks (if dotted then .dotted else .implied) []
      some (form, es ++ [(k, .table f inner)])
    | some (.table f inner) =>
      if f = .braces ∨ (dotted ∧ f = .header) then
        none
      else do
        let (f, inner) ← updateAt dotted change ks f inner
        some (form, replace k (.table f inner) es)
    | some (.array true items) =>
      match items.getLast? with
      | some (.table f inner) => do
        let (f, inner) ← updateAt dotted change ks f inner
        some (form, replace k (.array true (items.dropLast ++ [.table f inner])) es)
      | _ => none
    | some _ => none

/-- Sets a new key of a table.  A simple key does not go into a table made by
dotted keys, nor the last part of a dotted key into any other table. -/
def setNew (simple : Bool) (key : String) (v : Value) (form : TableForm) (es : Entries) :
    Option (TableForm × Entries) :=
  if (form = .dotted) = simple ∨ (find? key es).isSome then none
  else some (form, es ++ [(key, v)])

/-- Sets the value of a possibly dotted key. -/
def setKey (key : List String) (v : Value) (form : TableForm) (es : Entries) :
    Option (TableForm × Entries) :=
  match key.getLast? with
  | none => none
  | some last =>
    let path := key.dropLast
    updateAt true (setNew path.isEmpty last v) path form es

/-- Opens the table that a header names. -/
def openTable (key : String) (form : TableForm) (es : Entries) : Option (TableForm × Entries) :=
  match find? key es with
  | none => some (form, es ++ [(key, .table .header [])])
  | some (.table .implied inner) => some (form, replace key (.table .header inner) es)
  | some _ => none

/-- Opens one more table of the array that a header names. -/
def openItem (key : String) (form : TableForm) (es : Entries) : Option (TableForm × Entries) :=
  match find? key es with
  | none => some (form, es ++ [(key, .array true [.table .header []])])
  | some (.array true items) =>
    some (form, replace key (.array true (items ++ [.table .header []])) es)
  | some _ => none

/-- Carries out a header with the given path. -/
def openAt (item : Bool) (path : List String) (es : Entries) : Option Entries :=
  match path.getLast? with
  | none => none
  | some last =>
    (updateAt false (if item then openItem last else openTable last) path.dropLast .header es).map
      (·.2)

/-- Sets a key below the path of the last header. -/
def setBelow (path key : List String) (v : Value) (es : Entries) : Option Entries :=
  (updateAt false (setKey key v) path .header es).map (·.2)

end Value

/-! ## Values -/

mutual

/-- Reads a value at a nesting depth. -/
def readValue : (fuel depth : Nat) → List Char → Option (Value × List Char)
  | 0, _, _ => none
  | fuel + 1, depth, cs =>
    match cs with
    | '[' :: cs =>
      if depth < depthLimit then
        (readItems fuel (depth + 1) cs).map fun (items, rest) => (.array false items, rest)
      else
        none
    | '{' :: cs =>
      if depth < depthLimit then
        (readMembers fuel (depth + 1) .header [] cs).map fun (es, rest) => (.table .braces es, rest)
      else
        none
    | '"' :: _ | '\'' :: _ =>
      (Quoted.read cs).map fun (text, rest) => (.text (String.ofList text), rest)
    | cs => Word.read cs

/-- Reads the items of an array up to its closing bracket. -/
def readItems : (fuel depth : Nat) → List Char → Option (List Value × List Char)
  | 0, _, _ => none
  | fuel + 1, depth, cs =>
    match dropTrivia false cs with
    | none => none
    | some (']' :: rest) => some ([], rest)
    | some cs =>
      match readValue fuel depth cs with
      | none => none
      | some (v, rest) =>
        match dropTrivia false rest with
        | some (',' :: rest) =>
          (readItems fuel depth rest).map fun (vs, rest) => (v :: vs, rest)
        | some (']' :: rest) => some ([v], rest)
        | _ => none

/-- Reads the members of a table up to its closing brace.  Line breaks and
comments may stand everywhere but inside a key. -/
def readMembers : (fuel depth : Nat) → TableForm → Entries → List Char →
    Option (Entries × List Char)
  | 0, _, _, _, _ => none
  | fuel + 1, depth, form, es, cs =>
    match dropTrivia false cs with
    | none => none
    | some ('}' :: rest) => some (es, rest)
    | some cs =>
      match readKey cs with
      | none => none
      | some (key, rest) =>
        match dropTrivia false rest with
        | some ('=' :: rest) =>
          match (dropTrivia false rest).bind (readValue fuel depth) with
          | none => none
          | some (v, rest) =>
            match Value.setKey key v form es, dropTrivia false rest with
            | some (form, es), some (',' :: rest) => readMembers fuel depth form es rest
            | some (_, es), some ('}' :: rest) => some (es, rest)
            | _, _ => none
        | _ => none

end

/-! ## Documents -/

/-- A document so far: its entries and the path of the last header. -/
structure Document where
  entries : Entries
  path : List String

namespace Document

/-- Reads a header behind its first bracket and the end of its line. -/
def readHeader (doc : Document) (item : Bool) (cs : List Char) :
    Option (Document × List Char) := do
  let (path, rest) ← readKey cs
  let rest ←
    match item, rest with
    | true, ']' :: ']' :: rest => some rest
    | false, ']' :: rest => some rest
    | _, _ => none
  let entries ← Value.openAt item path doc.entries
  let rest ← endLine rest
  some (⟨entries, path⟩, rest)

/-- Reads a key with its value and the end of its line. -/
def readSetting (doc : Document) (cs : List Char) : Option (Document × List Char) := do
  let (key, rest) ← readKey cs
  match rest with
  | '=' :: rest => do
    let (v, rest) ← readValue (2 * cs.length + 2) 0 (dropBlanks rest)
    let entries ← Value.setBelow doc.path key v doc.entries
    let rest ← endLine rest
    some ({ doc with entries }, rest)
  | _ => none

/-- Reads the lines of a text. -/
def readLines : (fuel : Nat) → Document → List Char → Option Document
  | 0, _, _ => none
  | fuel + 1, doc, cs => do
    let cs ← dropTrivia false cs
    match cs with
    | [] => some doc
    | '[' :: '[' :: cs => do
      let (doc, rest) ← doc.readHeader true cs
      readLines fuel doc rest
    | '[' :: cs => do
      let (doc, rest) ← doc.readHeader false cs
      readLines fuel doc rest
    | cs => do
      let (doc, rest) ← doc.readSetting cs
      readLines fuel doc rest

/-- The text without a byte order mark in front. -/
def dropMark : List Char → List Char
  | '\ufeff' :: cs => cs
  | cs => cs

end Document

/-- Reads a document: its entries, if it is one. -/
def parse? (text : String) : Option Entries :=
  let cs := Document.dropMark text.toList
  (Document.readLines (cs.length + 1) ⟨[], []⟩ cs).map (·.entries)

end DnsConnector.Toml
