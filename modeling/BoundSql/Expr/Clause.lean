import BoundSql.Expr.Predicate

/-!
# Sort keys, joins and assignments

The expressions that stand in only one clause of a statement.

## Main definitions

* `BoundSql.SortKey` — a key of `ORDER BY`.
* `BoundSql.Join` — a table joined in under a condition.
* `BoundSql.Assignment` — a column set to a bound value.
-/

namespace BoundSql

/-- The direction of a sort key. -/
inductive Direction where
  | ascending
  | descending
deriving DecidableEq, Repr

/-- The SQL keyword of a direction. -/
def Direction.keyword : Direction → String
  | .ascending => "ASC"
  | .descending => "DESC"

/-- A column to sort by, with its direction. -/
structure SortKey where
  /-- The column. -/
  column : ColumnRef
  /-- The direction. -/
  direction : Direction
deriving DecidableEq, Repr

/-- The text of a sort key. -/
def SortKey.compile (ctx : Context) (key : SortKey) : Compile String :=
  return s!"{← key.column.compile ctx} {key.direction.keyword}"

/-- A table joined in where a predicate holds. -/
structure Join where
  /-- The joined table, bound at the next number. -/
  other : TableRef
  /-- The condition. -/
  condition : Predicate

/-- The text of a join. -/
def Join.compile (ctx : Context) (join : Join) : Compile String := do
  let condition ← join.condition.compile ctx
  return s!"INNER JOIN {join.other.access} ON {condition}"

/-- A column set to a bound value. -/
structure Assignment where
  /-- The column. -/
  column : ColumnRef
  /-- The new value. -/
  value : Value
deriving DecidableEq

/-- The text of an assignment; the value is bound only if the column can be written. -/
def Assignment.compile (ctx : Context) (assignment : Assignment) : Compile String := do
  let column ← assignment.column.compile ctx
  let placeholder ← Compile.parameter assignment.value
  return s!"{column} = {placeholder}"

end BoundSql
