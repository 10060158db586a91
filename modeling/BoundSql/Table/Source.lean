import BoundSql.Table.Query
import BoundSql.Table.Scope

/-!
# Sources

The tables that a chain of calls has bound so far, and the joins that bound them. A join binds its
table at the next free number and its condition may speak of every table up to that one.

## Main definitions

* `BoundSql.Source` — the tables and joins.
* `BoundSql.Source.join` — binds one more table.
* `BoundSql.Source.statement` — the read of every column of the source.
-/

namespace BoundSql

/-- Tables bound by a chain of calls. -/
structure Source where
  /-- The primary table. -/
  primary : TableDef
  /-- The joined tables, in order. -/
  joined : List TableDef := []
  /-- The joins that bound them. -/
  joins : List Join := []

namespace Source

/-- The bound tables, in the order of their numbers. -/
def tables (source : Source) : List TableDef := source.primary :: source.joined

/-- The scope of the bound tables. -/
def scope (source : Source) : Scope := .ofDefs source.tables

/-- The scope of the bound tables and one more. -/
def scopeWith (source : Source) (other : TableDef) : Scope := .ofDefs (source.tables ++ [other])

/-- Binds one more table; the condition is given the scope that includes it. -/
def join (source : Source) (other : TableDef) (condition : Scope → Predicate) : Source :=
  { source with
    joined := source.joined ++ [other]
    joins := source.joins ++
      [⟨⟨source.tables.length, other.name⟩, condition (source.scopeWith other)⟩] }

/-- The table bound at a number. -/
def table (source : Source) (index : Nat) : Except TableError TableDef :=
  match source.tables[index]? with
  | some table => .ok table
  | none => .error (.tableOutOfRange index source.tables.length)

/-- The read of every column. -/
def statement (source : Source) : SelectStatement :=
  source.joins.foldl .join (.ofTable source.primary.name)

/-- The sort key on a column of the scope. -/
def sortKey (source : Source) (column : Scope → ColumnRef) (direction : Direction) : SortKey :=
  ⟨column source.scope, direction⟩

end Source

end BoundSql
