import BoundSql.Expr.Compile

/-!
# Table definitions

A table definition is the name of a table in storage together with an ordered mapping from the field
keys that callers use to the columns they stand for. Records are resolved against it.

## Main definitions

* `BoundSql.TableDef` — a name and a mapping; look-ups find the first entry of a key.
* `BoundSql.TableError` — why a request to a table is refused.
* `BoundSql.TableDef.resolveRow` — a complete record as one value per column.
* `BoundSql.TableDef.resolvePartial` — a record as assignments, in the order of the record.
-/

namespace BoundSql

/-- A table and the columns its field keys stand for. -/
structure TableDef where
  /-- The name of the table in storage. -/
  name : String
  /-- Field keys and columns, in the order of declaration. -/
  mapping : List (String × String)
deriving DecidableEq, Repr

/-- Field keys and the values given for them, in the order they were given. -/
abbrev Record := List (String × Value)

/-- Why a request to a table is refused. -/
inductive TableError where
  /-- The table has no such field. -/
  | unknownField (table field : String)
  /-- A record to insert has no value for a field. -/
  | missingField (table field : String)
  /-- There is no record to insert. -/
  | emptyInsert (table : String)
  /-- There is no field to update. -/
  | emptyUpdate (table : String)
  /-- No table is bound at the number. -/
  | tableOutOfRange (index tables : Nat)
  /-- Rows cannot be deleted through a join. -/
  | joinedDelete
  /-- The statement is malformed. -/
  | compile (error : CompileError)
deriving DecidableEq, Repr

/-- The words of a table error. -/
def TableError.diagnostic : TableError → Diagnostic
  | .unknownField table field =>
    { message := s!"Unknown field `{field}` on table `{table}`"
      code := "sqlchain::unknown_field"
      help := some "Use one of the field keys declared in the table's column mapping" }
  | .missingField table field =>
    { message := s!"Missing value for field `{field}` of table `{table}`"
      code := "sqlchain::missing_field"
      help := some "Inserted records must provide a value for every mapped field" }
  | .emptyInsert table =>
    { message := s!"No records to insert into table `{table}`"
      code := "sqlchain::empty_insert"
      help := some "Provide at least one record" }
  | .emptyUpdate table =>
    { message := s!"No assignments given for table `{table}`"
      code := "sqlchain::empty_update"
      help := some "Set at least one field" }
  | .tableOutOfRange index tables =>
    { message := s!"Table index {index} is out of range for {tables} bound table(s)"
      code := "sqlchain::table_index"
      help := none }
  | .joinedDelete =>
    { message := "DELETE cannot target joined tables"
      code := "sqlchain::joined_delete"
      help := some "Filter the primary table directly before deleting" }
  | .compile error => error.diagnostic

namespace TableDef

/-- The column that a field key stands for. -/
def columnFor? (table : TableDef) (field : String) : Option String := table.mapping.lookup field

/-- The column that a field key has to stand for. -/
def columnFor (table : TableDef) (field : String) : Except TableError String :=
  match table.columnFor? field with
  | some column => .ok column
  | none => .error (.unknownField table.name field)

/-- A record as columns and their values, in the order of the record. -/
def resolvePartial (table : TableDef) (record : Record) :
    Except TableError (List (String × Value)) :=
  record.mapM fun (field, value) => return (← table.columnFor field, value)

/-- The value that a record gives last for a field. -/
def lastValue? (record : Record) (field : String) : Option Value := record.reverse.lookup field

/-- A complete record as one value per column, in the order of the mapping. Keys that the table does
not have are refused first, then fields without a value. -/
def resolveRow (table : TableDef) (record : Record) : Except TableError (List Value) := do
  record.forM fun (field, _) => discard (table.columnFor field)
  table.mapping.mapM fun (field, _) =>
    match lastValue? record field with
    | some value => .ok value
    | none => .error (.missingField table.name field)

end TableDef

end BoundSql
