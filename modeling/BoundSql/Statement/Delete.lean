import BoundSql.Statement.Basic

/-!
# Deletions

The description of a deletion from one table, whose columns are written without an alias, and the
statement that empties a table at once.

## Main definitions

* `BoundSql.DeleteStatement`, `BoundSql.DeleteStatement.build` — deletion of the rows that match.
* `BoundSql.Statement.truncate` — removal of every row without a scan.
-/

namespace BoundSql

/-- The description of a deletion. -/
structure DeleteStatement where
  /-- The table. -/
  table : String
  /-- The condition that rows meet. -/
  where? : Option Predicate := none

namespace DeleteStatement

/-- The deletion of every row of a table. -/
def ofTable (table : String) : DeleteStatement := { table }

/-- Adds a condition to those that rows meet already. -/
def filter (s : DeleteStatement) (predicate : Predicate) : DeleteStatement :=
  { s with where? := some (Predicate.narrow s.where? predicate) }

/-- The lines of the deletion. -/
def lines (s : DeleteStatement) : Compile (List String) :=
  return s!"DELETE FROM {s.table}" :: (← whereLines .bare s.where?)

/-- The deletion. -/
def build (s : DeleteStatement) : Except CompileError Statement := Statement.ofLines s.lines

end DeleteStatement

/-- The statement that removes every row of a table without scanning it. -/
def Statement.truncate (table : String) : Statement := ⟨s!"TRUNCATE {table}", #[]⟩

end BoundSql
