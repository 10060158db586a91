import BoundSql.Expr.Projection
import BoundSql.Statement.Basic

/-!
# Reads

The description of a read, and the two statements it compiles to: the read itself and the count of
its rows. The primary table is `t1` and the `k`-th join binds `t{k + 1}`.

## Main definitions

* `BoundSql.SelectStatement` — the description; every part is optional.
* `BoundSql.SelectStatement.build` — the read.
* `BoundSql.SelectStatement.buildCount` — the count of its rows. Without a window the projection is
  replaced by `COUNT(*)` and the order dropped; otherwise the windowed read of a constant is
  wrapped.
-/

namespace BoundSql

/-- The description of a read. -/
structure SelectStatement where
  /-- What is returned. -/
  projection : Option Projection := none
  /-- The primary table. -/
  table : Option String := none
  /-- The joined tables, in order. -/
  joins : List Join := []
  /-- The condition that rows meet. -/
  where? : Option Predicate := none
  /-- The keys that rows are sorted by. -/
  orderBy : List SortKey := []
  /-- How many rows are returned at most. -/
  limit? : Option Nat := none
  /-- How many rows are skipped. -/
  offset? : Option Nat := none

namespace SelectStatement

/-! ## Building up a description -/

/-- A read of every column of a table. -/
def ofTable (table : String) : SelectStatement :=
  { projection := some .wildcard, table := some table }

/-- Replaces what is returned. -/
def select (s : SelectStatement) (projection : Projection) : SelectStatement :=
  { s with projection := some projection }

/-- Adds a join. -/
def join (s : SelectStatement) (join : Join) : SelectStatement :=
  { s with joins := s.joins ++ [join] }

/-- Adds a condition to those that rows meet already. -/
def filter (s : SelectStatement) (predicate : Predicate) : SelectStatement :=
  { s with where? := some (Predicate.narrow s.where? predicate) }

/-- Adds a sort key. -/
def sortBy (s : SelectStatement) (key : SortKey) : SelectStatement :=
  { s with orderBy := s.orderBy ++ [key] }

/-- Sets the number of rows returned at most. -/
def limit (s : SelectStatement) (count : Nat) : SelectStatement := { s with limit? := some count }

/-- Sets the number of rows skipped. -/
def offset (s : SelectStatement) (count : Nat) : SelectStatement := { s with offset? := some count }

/-! ## Compiling -/

/-- The context of a read: one table and one more per join. -/
def context (s : SelectStatement) : Context := .qualified (s.joins.length + 1)

/-- The lines from `FROM` to `WHERE`. -/
def sourceLines (s : SelectStatement) : Compile (List String) := do
  let joins ← joinLines s.context s.joins
  let condition ← whereLines s.context s.where?
  return (s.table.map fun table => s!"FROM {table} t1").toList ++ joins ++ condition

/-- The lines from `ORDER BY` to `OFFSET`. -/
def windowLines (s : SelectStatement) : Compile (List String) := do
  let order ← listLines "ORDER BY" (s.orderBy.map (·.compile s.context))
  return order ++ (s.limit?.map fun count => s!"LIMIT {count}").toList ++
    (s.offset?.map fun count => s!"OFFSET {count}").toList

/-- The `SELECT` line. -/
def projectionLines (s : SelectStatement) : Compile (List String) :=
  match s.projection with
  | some projection => return [s!"SELECT {← projection.compile s.context}"]
  | none => return []

/-- The lines of the read. -/
def rowLines (s : SelectStatement) : Compile (List String) := do
  let projection ← s.projectionLines
  let source ← s.sourceLines
  let window ← s.windowLines
  return projection ++ source ++ window

/-- Whether the read returns only a window of its rows. -/
def isWindowed (s : SelectStatement) : Bool := s.limit?.isSome || s.offset?.isSome

/-- The lines of the count. -/
def countLines (s : SelectStatement) : Compile (List String) := do
  if s.isWindowed then
    let source ← s.sourceLines
    let window ← s.windowLines
    return ["SELECT COUNT(*) FROM (", "SELECT 1"] ++ source ++ window ++ [") counted"]
  else
    return "SELECT COUNT(*)" :: (← s.sourceLines)

/-- The read. -/
def build (s : SelectStatement) : Except CompileError Statement := do
  checkJoins s.joins
  Statement.ofLines s.rowLines

/-- The count of the read's rows. -/
def buildCount (s : SelectStatement) : Except CompileError Statement := do
  checkJoins s.joins
  Statement.ofLines s.countLines

end SelectStatement

end BoundSql
