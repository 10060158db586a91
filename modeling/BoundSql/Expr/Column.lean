import BoundSql.Expr.Compile

/-!
# Columns and tables of a statement

A statement numbers the tables it binds: the primary table is number 0 and every join adds the next
number. Table `i` has the alias `t{i + 1}`.

## Main definitions

* `BoundSql.tableAlias` — the alias of a table number.
* `BoundSql.ColumnRef` — a column of a numbered table.
* `BoundSql.TableRef` — a named table bound at a number.
-/

namespace BoundSql

/-- The alias of table number `index`. -/
def tableAlias (index : Nat) : String := s!"t{index + 1}"

/-- A column of the table bound at a number. -/
structure ColumnRef where
  /-- The number of the table. -/
  table : Nat
  /-- The name of the column in storage. -/
  name : String
deriving DecidableEq, Repr

/-- A column is written with its table's alias, or bare in a statement over one table. -/
def ColumnRef.compile (ctx : Context) (column : ColumnRef) : Compile String :=
  if column.table < ctx.bound then
    return if ctx.isQualified then s!"{tableAlias column.table}.{column.name}" else column.name
  else throw (.unboundTable column.table ctx.bound)

/-- A named table bound at a number. -/
structure TableRef where
  /-- The number of the table. -/
  index : Nat
  /-- The name of the table in storage. -/
  name : String
deriving DecidableEq, Repr

/-- The table with its alias, as it stands behind `FROM`, `UPDATE` and `INNER JOIN`. -/
def TableRef.access (table : TableRef) : String := s!"{table.name} {tableAlias table.index}"

end BoundSql
