import BoundSql.Text.Blank
import BoundSql.Toml.Library

/-!
# Comments that explain a document

Each key of a table for which there is an explanation gets it as comments: in front of the key if it
has a value, in front of the header of its table otherwise, and in front of the first header of an
array of tables. Nothing else of the document changes.

## Main definitions

* `BoundSql.Toml.Manual` — explanations of a table and of its keys.
* `BoundSql.Toml.addComments` — adds comments to what stands in front of a key or header.
* `BoundSql.Toml.annotateTable` — explains the keys of a table.
* `BoundSql.Toml.annotateItems` — explains the keys of the first item of an array of tables.
-/

namespace BoundSql.Toml

/-- Explanations. -/
structure Manual where
  /-- What the table is. -/
  about : String
  /-- What its keys are. -/
  keys : List (String × String)

/-- What a key is. -/
def Manual.about? (manual : Manual) (key : String) : Option String := manual.keys.lookup key

/-! ## Comments -/

/-- A line of an explanation as a comment. -/
def commentLine (line : String) : String := if line.isEmpty then "#\n" else "# " ++ line ++ "\n"

/-- An explanation as comments, one for each of its lines. -/
def comments (explanation : String) : String :=
  String.join ((Text.lines explanation).map commentLine)

/-- Adds comments to what stands in front of a key or header. An empty comment sets them off from
what was there, unless that ends in an empty line. -/
def addComments (before explanation : String) : String :=
  if before.isEmpty then comments explanation
  else if (Text.lines before).getLast? = some "" then before ++ comments explanation
  else before ++ "#\n" ++ comments explanation

/-! ## Documents -/

section Documents

variable [Library]

/-- Adds an explanation as comments at a place. -/
def explainAt (explanation : String) (place : Library.Place) (document : Library.Document) :
    Library.Document :=
  Library.setBefore place (addComments (Library.before document place) explanation) document

/-- The place at which an entry is explained: that of its key, or the one in front of its header. Of
an array of tables the first item is explained. -/
def Entry.place? : Entry Library.Place Library.Table → Option Library.Place
  | .value place => some place
  | .table opened => some (Library.decor opened)
  | .tables items => items.head?.map Library.decor

/-- Explains an entry, if there is an explanation of its key. -/
def annotateEntry (manual : Manual) (document : Library.Document)
    (entry : String × Entry Library.Place Library.Table) : Library.Document :=
  match manual.about? entry.1, entry.2.place? with
  | some explanation, some place => explainAt explanation place document
  | _, _ => document

/-- Explains the keys of a table, and the table itself above its header if `withHeader` says so. -/
def annotateTable (manual : Manual) (withHeader : Bool) (table : Library.Table)
    (document : Library.Document) : Library.Document :=
  (Library.entries document table).foldl (annotateEntry manual)
    (if withHeader then explainAt manual.about (Library.decor table) document else document)

/-- Explains the keys of the first item of an array of tables; the others have its shape. -/
def annotateItems (manual : Manual) (items : List Library.Table) (document : Library.Document) :
    Library.Document :=
  match items with
  | [] => document
  | first :: _ => annotateTable manual false first document

/-- The items of the array of tables under a key of a document, if there is one. -/
def tablesUnder (key : String) (document : Library.Document) : List Library.Table :=
  match (Library.entries document Library.root).lookup key with
  | some (.tables items) => items
  | _ => []

end Documents

end BoundSql.Toml
