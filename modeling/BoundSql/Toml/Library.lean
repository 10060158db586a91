import BoundSql.Binary64.Decimal

/-!
# TOML

TOML says data: tables of keys, in order. A text is read as its data, or as a document for editing,
which keeps the text that it was read from: what stands in front of its keys and headers can be
changed, and what its keys hold can be taken out and put in.

Reading, writing and editing TOML is the work of a library, of which no more is fixed here than its
operations.

## Main definitions

* `BoundSql.Toml.Data`, `BoundSql.Toml.Fields` — what a text says.
* `BoundSql.Toml.Entry` — what a key of a table opens.
* `BoundSql.Toml.Library` — the operations of a library for TOML.
-/

namespace BoundSql.Toml

/-- A piece of data. -/
inductive Data where
  /-- A string. -/
  | text (s : String)
  /-- A whole number. -/
  | integer (n : Int)
  /-- A real number. -/
  | real (x : Binary64)
  /-- A truth value. -/
  | boolean (b : Bool)
  /-- A date, a time or both, as written. -/
  | moment (s : String)
  /-- Items in order. -/
  | list (items : List Data)
  /-- Keys and their data in order. -/
  | table (fields : List (String × Data))

/-- Keys and their data in order. -/
abbrev Fields := List (String × Data)

/-- What a key of a table opens, in a document with such places and tables. -/
inductive Entry (π τ : Type) where
  /-- A value, which stands behind its key. -/
  | value (place : π)
  /-- A table. -/
  | table (table : τ)
  /-- An array of tables. -/
  | tables (items : List τ)
deriving Repr

/-- A library that reads, writes and edits TOML. -/
class Library where
  /-- Documents for editing. -/
  Document : Type
  /-- The tables of a document. -/
  Table : Type
  /-- The places of a document, in front of a key or header, where text is kept. -/
  Place : Type
  /-- What a key can hold. -/
  Item : Type
  /-- The elements of an array. -/
  Element : Type
  /-- The data that a text says. -/
  read? : String → Option Fields
  /-- The text that says some data, with each table under a header. -/
  write : Fields → String
  /-- A text as a document for editing. -/
  parse? : String → Option Document
  /-- The text of a document. -/
  print : Document → String
  /-- The table of a document itself. -/
  root : Table
  /-- The keys of a table in order. -/
  entries : Document → Table → List (String × Entry Place Table)
  /-- The place in front of the header of a table, or on top of the document. -/
  decor : Table → Place
  /-- The text that is kept at a place. -/
  before : Document → Place → String
  /-- Keeps another text at a place. -/
  setBefore : Place → String → Document → Document
  /-- Takes out what a key of a table holds. -/
  remove? : Table → String → Document → Option (Item × Document)
  /-- Puts something under a key of a table that holds nothing. -/
  insert : Table → String → Item → Document → Document
  /-- The elements of an array, or the tables of an array of tables as elements. -/
  elements? : Item → Option (List Element)
  /-- Keeps another text in front of an element. -/
  setElementBefore : String → Element → Element
  /-- The array of some elements, with a comma behind each of them and a text in front of the
  closing bracket. -/
  ofElements : List Element → String → Item

end BoundSql.Toml
