import BoundSql.Statement.Basic

/-!
# Insertions

The description of an insertion of several rows that share one list of columns. Parameters are bound
row by row, each row in the order of the columns.

## Main definitions

* `BoundSql.InsertStatement` — the description.
* `BoundSql.InsertStatement.build` — the statement; every row needs one value per column.
-/

namespace BoundSql

/-- What happens to a row that is there already. -/
inductive InsertMode where
  /-- The insertion fails. -/
  | insert
  /-- The row is replaced. -/
  | replace
deriving DecidableEq, Repr

/-- The SQL keywords of a mode. -/
def InsertMode.keyword : InsertMode → String
  | .insert => "INSERT INTO"
  | .replace => "REPLACE INTO"

/-- The description of an insertion. -/
structure InsertStatement where
  /-- The table. -/
  table : String
  /-- The columns, in order. -/
  columns : List String := []
  /-- The rows, in order. -/
  rows : List (List Value) := []
  /-- What happens to rows that are there already. -/
  mode : InsertMode := .insert
deriving DecidableEq

namespace InsertStatement

/-- An insertion into a table, without columns and rows yet. -/
def ofTable (table : String) : InsertStatement := { table }

/-- Adds columns. -/
def addColumns (s : InsertStatement) (columns : List String) : InsertStatement :=
  { s with columns := s.columns ++ columns }

/-- Adds a row. -/
def addRow (s : InsertStatement) (row : List Value) : InsertStatement :=
  { s with rows := s.rows ++ [row] }

/-- Replaces rows that are there already. -/
def replace (s : InsertStatement) : InsertStatement := { s with mode := .replace }

/-- Checks that rows, the first of which has number `row`, have `expected` values each. -/
def checkRowsFrom (expected row : Nat) : List (List Value) → Except CompileError Unit
  | [] => .ok ()
  | values :: rest =>
    if values.length = expected then checkRowsFrom expected (row + 1) rest
    else .error (.rowArity row expected values.length)

/-- The placeholders of one row. -/
def rowText (values : List Value) : Compile String :=
  return s!"({commaList (← values.mapM Compile.parameter)})"

/-- The lines of the insertion. -/
def lines (s : InsertStatement) : Compile (List String) := do
  let rows ← listLines "VALUES" (s.rows.map rowText)
  return s!"{s.mode.keyword} {s.table} ({commaList s.columns})" :: rows

/-- The insertion. -/
def build (s : InsertStatement) : Except CompileError Statement := do
  checkRowsFrom s.columns.length 0 s.rows
  Statement.ofLines s.lines

end InsertStatement

end BoundSql
