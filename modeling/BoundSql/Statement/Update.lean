import BoundSql.Statement.Basic

/-!
# Updates

The description of an update over one table and its joins. Parameters follow the text: conditions of
joins, new values, filter.

## Main definitions

* `BoundSql.UpdateStatement` — the description.
* `BoundSql.UpdateStatement.build` — the statement.
-/

namespace BoundSql

/-- The description of an update. -/
structure UpdateStatement where
  /-- The primary table. -/
  table : String
  /-- The joined tables, in order. -/
  joins : List Join := []
  /-- The columns and their new values, in order. -/
  assignments : List Assignment := []
  /-- The condition that rows meet. -/
  where? : Option Predicate := none

namespace UpdateStatement

/-- An update of a table that sets nothing yet. -/
def ofTable (table : String) : UpdateStatement := { table }

/-- Adds a join. -/
def join (s : UpdateStatement) (join : Join) : UpdateStatement :=
  { s with joins := s.joins ++ [join] }

/-- Adds an assignment. -/
def assign (s : UpdateStatement) (column : ColumnRef) (value : Value) : UpdateStatement :=
  { s with assignments := s.assignments ++ [⟨column, value⟩] }

/-- Adds a condition to those that rows meet already. -/
def filter (s : UpdateStatement) (predicate : Predicate) : UpdateStatement :=
  { s with where? := some (Predicate.narrow s.where? predicate) }

/-- The context of an update: one table and one more per join. -/
def context (s : UpdateStatement) : Context := .qualified (s.joins.length + 1)

/-- The lines of the update. -/
def lines (s : UpdateStatement) : Compile (List String) := do
  let joins ← joinLines s.context s.joins
  let assignments ← listLines "SET" (s.assignments.map (·.compile s.context))
  let condition ← whereLines s.context s.where?
  return s!"UPDATE {TableRef.access ⟨0, s.table⟩}" :: joins ++ assignments ++ condition

/-- The update. -/
def build (s : UpdateStatement) : Except CompileError Statement := do
  checkJoins s.joins
  Statement.ofLines s.lines

end UpdateStatement

end BoundSql
