import BoundSql.Schema.Basic
import BoundSql.Toml.Comments

/-!
# Writing schemas

A schema is written as a TOML document with a section for each table and a line for each of its
columns. To this end it is first written with a section for each column, as TOML has it by default.
That document is read for editing, the sections of the columns are rewritten as lines, and the first
table and the schema itself are explained by comments.

## Main definitions

* `BoundSql.Schema.manual`, `BoundSql.TableEntry.manual`, `BoundSql.ColumnEntry.manual` — the
  explanations.
* `BoundSql.Schema.toFields` — the data of a schema.
* `BoundSql.Schema.inlineColumns` — rewrites the columns of a table as lines.
* `BoundSql.Schema.toDocument` — the document with lines for columns and with comments.
* `BoundSql.Schema.toText` — its text.
-/

namespace BoundSql

open Toml

/-! ## Explanations -/

/-- What the keys of a column are. -/
def ColumnEntry.manual : Manual where
  about := "One field key → storage column pair."
  keys := [("field", "Key used by callers to refer to the column."),
    ("column", "Storage name of the column.")]

/-- What the keys of a table are. -/
def TableEntry.manual : Manual where
  about := "A table and the mapping from caller-facing field keys to its columns."
  keys := [("name", "Storage name of the table."),
    ("columns", "Field keys and the storage columns they map to.\n" ++
      "The order here is the column order of INSERT statements.")]

/-- What the keys of a schema are. -/
def Schema.manual : Manual where
  about := "Tables that statements can be compiled against."
  keys := [("tables", "Declared tables, one [[tables]] entry each.")]

/-! ## Data -/

/-- The data of a column. -/
def ColumnEntry.toData (entry : ColumnEntry) : Data :=
  .table [("field", .text entry.field), ("column", .text entry.column)]

/-- The data of a table. -/
def TableEntry.toData (entry : TableEntry) : Data :=
  .table [("name", .text entry.name), ("columns", .list (entry.columns.map ColumnEntry.toData))]

namespace Schema

/-- The data of a schema. -/
def toFields (schema : Schema) : Fields := [("tables", .list (schema.tables.map TableEntry.toData))]

/-! ## Lines for columns -/

variable [Library]

/-- Rewrites the columns of a table as a list, one column a line. -/
def inlineColumns (table : Library.Table) (document : Library.Document) : Library.Document :=
  match Library.remove? table "columns" document with
  | none => document
  | some (item, rest) =>
    match Library.elements? item with
    | some elements =>
      let lines := elements.map (Library.setElementBefore "\n  ")
      Library.insert table "columns" (Library.ofElements lines "\n") rest
    | none => Library.insert table "columns" item rest

/-- Rewrites the columns of the table at a place among the tables of a document. -/
def inlineColumnsAt (document : Library.Document) (index : Nat) : Library.Document :=
  match (tablesUnder "tables" document)[index]? with
  | some table => inlineColumns table document
  | none => document

/-- Rewrites the columns of each table of a document. -/
def inlineAllColumns (document : Library.Document) : Library.Document :=
  (List.range (tablesUnder "tables" document).length).foldl inlineColumnsAt document

/-! ## The document -/

/-- The document of a schema. -/
def toDocument (schema : Schema) : Except SchemaError Library.Document :=
  match Library.parse? (Library.write schema.toFields) with
  | none => .error .unreadable
  | some document =>
    let inlined := inlineAllColumns document
    let explained := annotateItems TableEntry.manual (tablesUnder "tables" inlined) inlined
    .ok (annotateTable manual false Library.root explained)

/-- The text of a schema. -/
def toText (schema : Schema) : Except SchemaError String := schema.toDocument.map Library.print

end Schema

end BoundSql
