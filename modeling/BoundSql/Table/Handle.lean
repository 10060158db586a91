import BoundSql.Statement.Delete
import BoundSql.Statement.Insert
import BoundSql.Statement.Update
import BoundSql.Table.Source

/-!
# Table handles

A handle is a table, or tables joined, filtered or sorted, from which statements are made. Handles
are values: every call answers with a new one. A callback is given the scope of the bound tables and
answers with a condition, a column or a mapping over it.

## Main definitions

* `BoundSql.Table` — one table; where reads, insertions and joins start.
* `BoundSql.JoinedTables` — a table and its joins.
* `BoundSql.FilteredTable` — tables under a condition; where updates and deletions start.
* `BoundSql.SortedTable` — tables under sort keys.
-/

namespace BoundSql

/-! ## The handles -/

/-- One table. -/
structure Table where
  /-- The table. -/
  definition : TableDef
deriving DecidableEq, Repr

/-- A primary table and the tables joined to it. -/
structure JoinedTables where
  /-- The tables and joins. -/
  source : Source

/-- Tables whose rows meet a condition. -/
structure FilteredTable where
  /-- The tables and joins. -/
  source : Source
  /-- The condition. -/
  predicate : Predicate

/-- Tables whose rows are sorted. -/
structure SortedTable where
  /-- The tables and joins. -/
  source : Source
  /-- The condition that rows meet, if any. -/
  predicate? : Option Predicate
  /-- The sort keys, the first one first. -/
  keys : List SortKey

/-! ## Sorted tables -/

namespace SortedTable

/-- Adds a sort key behind the others. -/
def thenBy (handle : SortedTable) (column : Scope → ColumnRef) (direction : Direction) :
    SortedTable :=
  { handle with keys := handle.keys ++ [handle.source.sortKey column direction] }

/-- The read of every column. -/
def statement (handle : SortedTable) : SelectStatement :=
  let filtered := match handle.predicate? with
    | some predicate => handle.source.statement.filter predicate
    | none => handle.source.statement
  handle.keys.foldl .sortBy filtered

/-- Reads every column. -/
def select (handle : SortedTable) : Query := { statement := handle.statement }

/-- Reads a mapping of output keys. -/
def map (handle : SortedTable) (mapping : Scope → ProjectionMap) : Query :=
  { statement := handle.statement.select (.map (mapping handle.source.scope)) }

/-- Reads one column. -/
def get (handle : SortedTable) (column : Scope → ColumnRef) : Query :=
  { statement := handle.statement.select (.column (column handle.source.scope)) }

end SortedTable

/-! ## Filtered tables -/

namespace FilteredTable

/-- Narrows the condition. -/
def filter (handle : FilteredTable) (predicate : Scope → Predicate) : FilteredTable :=
  { handle with predicate := handle.predicate.and (predicate handle.source.scope) }

/-- Sorts by a column. -/
def sortBy (handle : FilteredTable) (column : Scope → ColumnRef) (direction : Direction) :
    SortedTable :=
  ⟨handle.source, some handle.predicate, [handle.source.sortKey column direction]⟩

/-- The read of every column. -/
def statement (handle : FilteredTable) : SelectStatement :=
  handle.source.statement.filter handle.predicate

/-- Reads every column. -/
def select (handle : FilteredTable) : Query := { statement := handle.statement }

/-- Reads a mapping of output keys. -/
def map (handle : FilteredTable) (mapping : Scope → ProjectionMap) : Query :=
  { statement := handle.statement.select (.map (mapping handle.source.scope)) }

/-- Reads one column. -/
def get (handle : FilteredTable) (column : Scope → ColumnRef) : Query :=
  { statement := handle.statement.select (.column (column handle.source.scope)) }

/-- Counts the rows. -/
def count (handle : FilteredTable) : Query := { statement := handle.statement, isCount := true }

/-- The description of an update of columns of the table bound at a number. -/
def updateStatement (handle : FilteredTable) (index : Nat) (assignments : List (String × Value)) :
    UpdateStatement :=
  let joined := handle.source.joins.foldl UpdateStatement.join (.ofTable handle.source.primary.name)
  let assigned := assignments.foldl
    (fun statement (column, value) => statement.assign ⟨index, column⟩ value) joined
  assigned.filter handle.predicate

/-- Updates the matching rows of the table bound at a number. The keys of the record are fields of
that table; assignments keep the order of the record. -/
def updateTable (handle : FilteredTable) (index : Nat) (record : Record) :
    Except TableError Statement := do
  let target ← handle.source.table index
  let assignments ← target.resolvePartial record
  if assignments.isEmpty then
    throw (.emptyUpdate target.name)
  (handle.updateStatement index assignments).build.mapError .compile

/-- Updates the matching rows of the primary table. -/
def update (handle : FilteredTable) (record : Record) : Except TableError Statement :=
  handle.updateTable 0 record

/-- Deletes the matching rows of a table without joins. -/
def delete (handle : FilteredTable) : Except TableError Statement :=
  if handle.source.joins.isEmpty then
    ((DeleteStatement.ofTable handle.source.primary.name).filter handle.predicate).build.mapError
      .compile
  else .error .joinedDelete

end FilteredTable

/-! ## Joined tables -/

namespace JoinedTables

/-- The number of bound tables. -/
def tableCount (handle : JoinedTables) : Nat := handle.source.joins.length + 1

/-- Joins one more table. -/
def innerJoin (handle : JoinedTables) (other : Table) (condition : Scope → Predicate) :
    JoinedTables :=
  ⟨handle.source.join other.definition condition⟩

/-- Restricts the rows. -/
def filter (handle : JoinedTables) (predicate : Scope → Predicate) : FilteredTable :=
  ⟨handle.source, predicate handle.source.scope⟩

/-- Sorts by a column. -/
def sortBy (handle : JoinedTables) (column : Scope → ColumnRef) (direction : Direction) :
    SortedTable :=
  ⟨handle.source, none, [handle.source.sortKey column direction]⟩

/-- Reads every column. -/
def select (handle : JoinedTables) : Query := { statement := handle.source.statement }

/-- Reads a mapping of output keys. -/
def map (handle : JoinedTables) (mapping : Scope → ProjectionMap) : Query :=
  { statement := handle.source.statement.select (.map (mapping handle.source.scope)) }

/-- Reads one column. -/
def get (handle : JoinedTables) (column : Scope → ColumnRef) : Query :=
  { statement := handle.source.statement.select (.column (column handle.source.scope)) }

/-- Counts the rows. -/
def count (handle : JoinedTables) : Query :=
  { statement := handle.source.statement, isCount := true }

end JoinedTables

/-! ## Tables -/

namespace Table

/-- The table with a name and a mapping from field keys to columns. -/
def ofMapping (name : String) (mapping : List (String × String)) : Table := ⟨⟨name, mapping⟩⟩

/-- The name of the table in storage. -/
def name (table : Table) : String := table.definition.name

/-- The table as a source. -/
def source (table : Table) : Source := { primary := table.definition }

/-- The columns of the table, bound at number 0. -/
def scope (table : Table) : Scope := table.source.scope

/-- Restricts the rows. -/
def filter (table : Table) (predicate : Scope → Predicate) : FilteredTable :=
  ⟨table.source, predicate table.scope⟩

/-- Sorts by a column. -/
def sortBy (table : Table) (column : Scope → ColumnRef) (direction : Direction) : SortedTable :=
  ⟨table.source, none, [table.source.sortKey column direction]⟩

/-- Joins another table. -/
def innerJoin (table other : Table) (condition : Scope → Predicate) : JoinedTables :=
  ⟨table.source.join other.definition condition⟩

/-- Reads every column. -/
def select (table : Table) : Query := { statement := table.source.statement }

/-- Reads a mapping of output keys. -/
def map (table : Table) (mapping : Scope → ProjectionMap) : Query :=
  { statement := table.source.statement.select (.map (mapping table.scope)) }

/-- Reads one column. -/
def get (table : Table) (column : Scope → ColumnRef) : Query :=
  { statement := table.source.statement.select (.column (column table.scope)) }

/-- Counts the rows. -/
def count (table : Table) : Query := { statement := table.source.statement, isCount := true }

/-- The description of an insertion of rows, one value per column each. -/
def insertStatement (table : Table) (rows : List (List Value)) : InsertStatement :=
  rows.foldl .addRow
    ((InsertStatement.ofTable table.name).addColumns (table.definition.mapping.map Prod.snd))

/-- Resolves the records of an insertion, of which there has to be one. -/
def resolveRows (table : Table) (records : List Record) :
    Except TableError (List (List Value)) := do
  let rows ← records.mapM table.definition.resolveRow
  if rows.isEmpty then
    throw (.emptyInsert table.name)
  return rows

/-- Inserts records as one statement. -/
def insertBatch (table : Table) (records : List Record) : Except TableError Statement := do
  let rows ← table.resolveRows records
  (table.insertStatement rows).build.mapError .compile

/-- Inserts records as one statement, replacing rows that are there already. -/
def replaceBatch (table : Table) (records : List Record) : Except TableError Statement := do
  let rows ← table.resolveRows records
  (table.insertStatement rows).replace.build.mapError .compile

/-- Inserts one record. -/
def insert (table : Table) (record : Record) : Except TableError Statement :=
  table.insertBatch [record]

/-- Inserts one record, replacing a row that is there already. -/
def replace (table : Table) (record : Record) : Except TableError Statement :=
  table.replaceBatch [record]

/-- Removes every row without scanning the table. -/
def truncate (table : Table) : Statement := .truncate table.name

/-- Deletes every row. -/
def deleteAll (table : Table) : Except TableError Statement :=
  (DeleteStatement.ofTable table.name).build.mapError .compile

end Table

end BoundSql
