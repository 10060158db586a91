import BoundSql.Expr.Column
import BoundSql.Table.Definition

/-!
# Scopes

A scope hands out the columns of the tables that a statement binds, the primary table first. The
columns carry the number of their table, so a condition written with one scope means the same tables
throughout the statement.

## Main definitions

* `BoundSql.Columns` — the columns of one table, bound at its number.
* `BoundSql.Scope` — the columns of every bound table.
* `BoundSql.Scope.column`, `BoundSql.Scope.field` — look-ups that say what is missing.
-/

namespace BoundSql

/-- The columns of a table bound at a number. -/
structure Columns where
  /-- The name of the table. -/
  table : String
  /-- The number of the table. -/
  index : Nat
  /-- Field keys and their columns. -/
  columns : List (String × ColumnRef)
deriving DecidableEq, Repr

namespace Columns

/-- The columns of a definition bound at a number. -/
def ofDef (index : Nat) (table : TableDef) : Columns :=
  ⟨table.name, index, table.mapping.map fun (field, column) => (field, ⟨index, column⟩)⟩

/-- The column of a field key. -/
def get? (columns : Columns) (field : String) : Option ColumnRef := columns.columns.lookup field

/-- The field keys, in the order of declaration. -/
def fields (columns : Columns) : List String := columns.columns.map Prod.fst

end Columns

/-- What a scope was asked for in vain. -/
inductive ScopeError where
  /-- The table has no such field. -/
  | noField (table field : String)
  /-- The scope has no such table. -/
  | noTable (index tables : Nat)
deriving DecidableEq, Repr

/-- The words of a scope error. -/
def ScopeError.message : ScopeError → String
  | .noField table field => s!"no field `{field}` on table `{table}`"
  | .noTable index tables => s!"index out of bounds: the len is {tables} but the index is {index}"

/-- The columns of the tables that a statement binds, in the order of their numbers. -/
structure Scope where
  /-- The tables. -/
  tables : List Columns
deriving DecidableEq, Repr

namespace Scope

/-- The scope of definitions bound at the numbers from 0 on. -/
def ofDefs (tables : List TableDef) : Scope :=
  ⟨tables.zipIdx.map fun (table, index) => .ofDef index table⟩

/-- The columns of a table number. -/
def table? (scope : Scope) (index : Nat) : Option Columns := scope.tables[index]?

/-- The column of a field key of a table number. -/
def column (scope : Scope) (index : Nat) (field : String) : Except ScopeError ColumnRef :=
  match scope.table? index with
  | none => .error (.noTable index scope.tables.length)
  | some columns =>
    match columns.get? field with
    | none => .error (.noField columns.table field)
    | some column => .ok column

/-- The column of a field key of the primary table. -/
def field (scope : Scope) (field : String) : Except ScopeError ColumnRef := scope.column 0 field

end Scope

end BoundSql
