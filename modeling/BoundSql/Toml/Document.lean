import BoundSql.Text.Blank
import BoundSql.Toml.Node

/-!
# TOML documents

A document keeps the text it was read from: each pair and each header has its own text and the blank
lines and comments before it, so a document prints as it was written. What it means is computed from
the same parts.

## Main definitions

* `BoundSql.Toml.Document` — pairs, then sections under headers.
* `BoundSql.Toml.Document.text` — the printed document.
* `BoundSql.Toml.Document.entries?` — what the document means, if no key is defined twice.
-/

namespace BoundSql.Toml

/-- A key with its value. -/
structure Pair where
  /-- The blanks and comments before the pair. -/
  before : String
  /-- The dotted keys in front of the last one. -/
  path : List String
  /-- The last key. -/
  key : String
  /-- The value. -/
  value : Node
  /-- The pair as written, with the comment behind it. -/
  written : String

/-- The header of a section. -/
structure Header where
  /-- The blanks and comments before the header. -/
  before : String
  /-- Whether the header opens an item of an array of tables. -/
  ofArray : Bool
  /-- The keys in front of the last one. -/
  path : List String
  /-- The last key. -/
  key : String
  /-- The header as written, with the comment behind it. -/
  written : String
deriving DecidableEq, Repr

/-- A header and the pairs below it. -/
structure Section where
  /-- The header. -/
  header : Header
  /-- The pairs. -/
  pairs : List Pair

/-- A document. -/
structure Document where
  /-- Comments above everything else. -/
  about : String := ""
  /-- The pairs above the first header. -/
  pairs : List Pair := []
  /-- The sections, in order. -/
  sections : List Section := []
  /-- The blanks and comments at the end. -/
  trailing : String := ""

/-! ## Printing -/

/-- The text of a pair. -/
def Pair.text (pair : Pair) : String := pair.before ++ pair.written ++ "\n"

/-- The text of a header. -/
def Header.text (header : Header) : String := header.before ++ header.written ++ "\n"

/-- The text of a section. -/
def Section.text (part : Section) : String :=
  part.header.text ++ String.join (part.pairs.map Pair.text)

/-- Drops carriage returns: printed lines end in a line feed alone. -/
def dropReturns (text : String) : String := String.ofList (text.toList.filter (· ≠ '\r'))

/-- The text of a document. -/
def Document.text (document : Document) : String :=
  dropReturns (document.about ++ String.join (document.pairs.map Pair.text) ++
    String.join (document.sections.map Section.text) ++ document.trailing)

/-! ## Meaning -/

/-- Adds pairs to a table. -/
def addPairs? (pairs : List Pair) (entries : Entries) : Option Entries :=
  pairs.foldlM (fun entries pair => Node.addPair? pair.key pair.value pair.path entries) entries

/-- Adds a section to a document's table. -/
def addSection? (entries : Entries) (part : Section) : Option Entries :=
  let add := if part.header.ofArray then Node.addItem? else Node.addHeader?
  Node.addTable? (add part.header.key (addPairs? part.pairs)) part.header.path entries

/-- The table that a document means. -/
def Document.entries? (document : Document) : Option Entries := do
  let entries ← addPairs? document.pairs []
  document.sections.foldlM addSection? entries

end BoundSql.Toml
