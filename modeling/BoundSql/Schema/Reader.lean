import BoundSql.Schema.Basic
import BoundSql.Toml.Library

/-!
# Reading schemas

A schema file is a TOML document with an array `tables`. A table has a `name` and an array
`columns`, a column a `field` and a `column`. Tables and columns may also be written as arrays of
these in their order. Other keys are ignored.

## Main definitions

* `BoundSql.Schema.ofFields?` — the schema that some data describe.
* `BoundSql.Schema.ofText` — the schema that a text describes, if it has no defect.
-/

namespace BoundSql

/-- The text that a piece of data is. -/
def Toml.Data.text? : Toml.Data → Option String
  | .text s => some s
  | _ => none

/-- The items that a piece of data has. -/
def Toml.Data.items? : Toml.Data → Option (List Toml.Data)
  | .list items => some items
  | _ => none

/-- The two parts of an entry, written under their keys or one after the other. -/
def Toml.Data.parts? (first second : String) : Toml.Data → Option (Toml.Data × Toml.Data)
  | .table fields => return (← fields.lookup first, ← fields.lookup second)
  | .list (a :: b :: _) => some (a, b)
  | _ => none

/-- The column that a piece of data describes. -/
def ColumnEntry.ofData? (data : Toml.Data) : Option ColumnEntry := do
  let (field, column) ← data.parts? "field" "column"
  return ⟨← field.text?, ← column.text?⟩

/-- The table that a piece of data describes. -/
def TableEntry.ofData? (data : Toml.Data) : Option TableEntry := do
  let (name, columns) ← data.parts? "name" "columns"
  return ⟨← name.text?, ← (← columns.items?).mapM ColumnEntry.ofData?⟩

namespace Schema

/-- The schema that some data describe. Without an array of tables it is empty. -/
def ofFields? (fields : Toml.Fields) : Option Schema :=
  match fields.lookup "tables" with
  | none => some {}
  | some data => do return ⟨← (← data.items?).mapM TableEntry.ofData?⟩

/-- The schema that a text describes, if it has no defect. -/
def ofText [Toml.Library] (text : String) : Except SchemaError Schema := do
  match Toml.Library.read? text >>= ofFields? with
  | none => throw .malformed
  | some schema =>
    schema.resolve
    return schema

end Schema

end BoundSql
