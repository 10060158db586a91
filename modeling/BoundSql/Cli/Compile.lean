import BoundSql.Cli.Arguments
import BoundSql.Json.Basic
import BoundSql.Literal
import BoundSql.Schema.Basic

/-!
# Compiling commands

A command that is about rows compiles to a statement against a schema. Field keys that come from the
command line are looked up in the scope of the table. The sort key is looked up a second time, where
rows are sorted, and there the program panics if it is missing.

## Main definitions

* `BoundSql.Cli.CommandError` — why a command fails.
* `BoundSql.Cli.fieldColumn`, `BoundSql.Cli.sortColumn` — the checked and the unchecked look-up.
* `BoundSql.Cli.Filter.predicate?` — the condition that the options of a command write.
* `BoundSql.Cli.Command.compile` — the statement of a command.
-/

namespace BoundSql.Cli

/-- Why a command fails. -/
inductive CommandError where
  /-- The schema is refused or lacks a table. -/
  | schema (error : SchemaError)
  /-- A table refuses the request. -/
  | table (error : TableError)
  /-- A text is no assignment. -/
  | invalidAssignment (text : String)
  /-- A text is no JSON of records. -/
  | invalidRecord (error : Json.ReadError)
  /-- A command that changes rows is told of no rows. -/
  | missingFilter (command : String)
  /-- The program panics: a scope is asked in vain where the answer is taken for granted. -/
  | scope (error : ScopeError)
deriving DecidableEq, Repr

/-- The words of a command error, without those of the library that refuses a text. -/
def CommandError.diagnostic : CommandError → Diagnostic
  | .schema error => error.diagnostic
  | .table error => error.diagnostic
  | .invalidAssignment text =>
    { message := s!"Invalid assignment `{text}`"
      code := "sqlchain_cli::invalid_assignment"
      help := some "Write assignments as FIELD=VALUE, e.g. --where authorId=1" }
  | .invalidRecord _ =>
    { message := "Invalid record JSON"
      code := "sqlchain_cli::invalid_record"
      help := some "Pass an object of field keys to scalar values, or an array of such objects" }
  | .missingFilter command =>
    { message := s!"`{command}` requires at least one filter"
      code := "sqlchain_cli::missing_filter"
      help := some "Pass --where FIELD=VALUE or --null FIELD" }
  | .scope error => { message := error.message, code := "panic", help := none }

/-- The status with which the program ends when a command fails. -/
def CommandError.status : CommandError → Nat
  | .scope _ => 101
  | _ => 1

/-! ## Parts of commands -/

/-- An assignment of a command line. -/
def parseAssignment (text : String) : Except CommandError (String × Value) :=
  match readAssignment? text with
  | some assignment => .ok assignment
  | none => .error (.invalidAssignment text)

/-- The records of a command line. -/
def parseRecords [Json.Library] (text : String) : Except CommandError (List Record) :=
  (Record.ofJson text).mapError .invalidRecord

/-- The column of a field, looked up in the scope of the table. -/
def fieldColumn (table : Table) (field : String) : Except CommandError ColumnRef :=
  match table.scope.table? 0 with
  | none => .error (.scope (.noTable 0 table.scope.tables.length))
  | some columns =>
    match columns.get? field with
    | some column => .ok column
    | none => .error (.table (.unknownField table.name field))

/-- The column of a sort key, which is taken to be in the scope. -/
def sortColumn (scope : Scope) (field : String) : Except CommandError ColumnRef :=
  (scope.field field).mapError .scope

/-- The condition that a field has a value. -/
def condition (table : Table) (text : String) : Except CommandError Predicate := do
  let (field, value) ← parseAssignment text
  let column ← fieldColumn table field
  return if value.isNull then column.isNull else column.equals (.value value)

/-- The condition that a field is empty. -/
def nullCondition (table : Table) (field : String) : Except CommandError Predicate :=
  (fieldColumn table field).map (·.isNull)

namespace Filter

/-- The conditions of a filter, in order. -/
def leaves (filter : Filter) (table : Table) : Except CommandError (List Predicate) := do
  let conditions ← filter.conditions.mapM (condition table)
  let nulls ← filter.nulls.mapM (nullCondition table)
  return conditions ++ nulls

/-- Conditions as one. -/
def join (any : Bool) : List Predicate → Option Predicate
  | [] => none
  | [leaf] => some leaf
  | leaves => some (if any then .any leaves else .all leaves)

/-- The condition that a filter writes, if it writes any. -/
def predicate? (filter : Filter) (table : Table) : Except CommandError (Option Predicate) :=
  (filter.leaves table).map (join filter.any)

end Filter

/-- The mapping of output keys that reads the given fields, if there are any. -/
def projection? (table : Table) (fields : List String) :
    Except CommandError (Option ProjectionMap) := do
  if fields.isEmpty then return none
  return some (← fields.foldlM
    (fun map field => return map.column field (← fieldColumn table field)) .empty)

/-- A query of the given fields, if there are any, else of every column. -/
def project (mapping? : Option ProjectionMap) (map : (Scope → ProjectionMap) → Query)
    (select : Query) : Query :=
  match mapping? with
  | some mapping => map fun _ => mapping
  | none => select

/-! ## Commands -/

/-- The query of a read under a condition, sorted by a field, if there are any. -/
def readQuery (table : Table) (direction : Direction) (mapping? : Option ProjectionMap) :
    Option Predicate → Option String → Except CommandError Query
  | none, none => return project mapping? table.map table.select
  | none, some field => do
    let column ← sortColumn table.scope field
    let sorted := table.sortBy (fun _ => column) direction
    return project mapping? sorted.map sorted.select
  | some predicate, none =>
    let filtered := table.filter fun _ => predicate
    return project mapping? filtered.map filtered.select
  | some predicate, some field => do
    let filtered := table.filter fun _ => predicate
    let column ← sortColumn filtered.source.scope field
    let sorted := filtered.sortBy (fun _ => column) direction
    return project mapping? sorted.map sorted.select

/-- The query with its window. -/
def withWindow (options : ReadOptions) (query : Query) : Query :=
  let limited := options.limit?.elim query query.limit
  options.offset?.elim limited limited.offset

/-- The statement that reads rows. Its condition, its fields and its sort key are looked up in this
order. -/
def compileSelect (table : Table) (options : ReadOptions) : Except CommandError Statement := do
  let predicate? ← options.filter.predicate? table
  let mapping? ← projection? table options.columns
  options.sort?.forM fun field => discard (fieldColumn table field)
  let direction := if options.descending then .descending else .ascending
  let query ← readQuery table direction mapping? predicate? options.sort?
  (withWindow options query).generate.mapError .table

/-- The statement that counts rows. -/
def compileCount (table : Table) (filter : Filter) : Except CommandError Statement := do
  let query := match ← filter.predicate? table with
    | some predicate => (table.filter fun _ => predicate).count
    | none => table.count
  query.generate.mapError .table

/-- The statement that inserts records. -/
def compileInsert [Json.Library] (table : Table) (text : String) (replace : Bool) :
    Except CommandError Statement := do
  let records ← parseRecords text
  (if replace then table.replaceBatch records else table.insertBatch records).mapError .table

/-- The statement that updates rows. -/
def compileUpdate (table : Table) (assignments : List String) (filter : Filter) :
    Except CommandError Statement := do
  let record ← assignments.mapM parseAssignment
  match ← filter.predicate? table with
  | none => throw (.missingFilter "update")
  | some predicate => ((table.filter fun _ => predicate).update record).mapError .table

/-- The statement that deletes rows. -/
def compileDelete (table : Table) (filter : Filter) : Except CommandError Statement := do
  match ← filter.predicate? table with
  | some predicate => (table.filter fun _ => predicate).delete.mapError .table
  | none => table.deleteAll.mapError .table

namespace Command

/-- The table that a command is about. -/
def table? : Command → Option String
  | init => none
  | tables => none
  | select table _ => some table
  | count table _ => some table
  | insert table _ _ => some table
  | update table _ _ => some table
  | delete table _ => some table
  | truncate table => some table

/-- The statement of a command about a table. -/
def compileFor [Json.Library] (table : Table) : Command → Except CommandError (Option Statement)
  | init => .ok none
  | tables => .ok none
  | select _ options => (compileSelect table options).map some
  | count _ filter => (compileCount table filter).map some
  | insert _ records replace => (compileInsert table records replace).map some
  | update _ assignments filter => (compileUpdate table assignments filter).map some
  | delete _ filter => (compileDelete table filter).map some
  | truncate _ => .ok (some table.truncate)

/-- The statement of a command against a schema. Commands that are about no table have none. -/
def compile [Json.Library] (schema : Schema) (command : Command) :
    Except CommandError (Option Statement) := do
  match command.table? with
  | none => return none
  | some name =>
    let entry ← (schema.table name).mapError .schema
    command.compileFor entry.toTable

end Command

end BoundSql.Cli
