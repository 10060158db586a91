import BoundSql.Proofs.Statement.Names
import BoundSql.Table.Handle
import Mathlib.Tactic.Lemma

/-!
# Chains of calls

The handles of all four kinds as one type, the calls that answer with a new handle, and the requests
that answer with a statement. Whatever a chain of calls does, it changes a handle in three ways
only: it binds one more table, it narrows the condition, or it adds a sort key.

## Main definitions

* `BoundSql.Handle`, `BoundSql.Call`, `BoundSql.Handle.call?` — handles and the calls they have.
* `BoundSql.Handle.Reachable` — the handles that chains of calls lead to.
* `BoundSql.Request`, `BoundSql.Handle.answer?` — the requests for a statement and their answers.

## Main results

* `BoundSql.Handle.call?_cases` — what a call does.
-/

namespace BoundSql

/-! ## Handles and calls -/

/-- A handle of any kind. -/
inductive Handle where
  /-- One table. -/
  | table (handle : Table)
  /-- A table and its joins. -/
  | joined (handle : JoinedTables)
  /-- Tables under a condition. -/
  | filtered (handle : FilteredTable)
  /-- Tables under sort keys. -/
  | sorted (handle : SortedTable)

/-- A call that answers with a new handle, with its callback. -/
inductive Call where
  /-- Joins another table. -/
  | innerJoin (other : Table) (condition : Scope → Predicate)
  /-- Restricts the rows. -/
  | filter (predicate : Scope → Predicate)
  /-- Sorts by a column. -/
  | sortBy (column : Scope → ColumnRef) (direction : Direction)
  /-- Sorts by one column more. -/
  | thenBy (column : Scope → ColumnRef) (direction : Direction)

/-- The scope that the callback of a call is handed. A condition of a join may speak of the table
that is joined. -/
def Call.scope (source : Source) : Call → Scope
  | innerJoin other _ => source.scopeWith other.definition
  | _ => source.scope

/-- The columns that the callback of a call uses. -/
def Call.columns (source : Source) : Call → List ColumnRef
  | innerJoin other condition => (condition (source.scopeWith other.definition)).columns
  | filter predicate => (predicate source.scope).columns
  | sortBy column _ => [column source.scope]
  | thenBy column _ => [column source.scope]

namespace Handle

/-- The tables and joins of a handle. -/
def source : Handle → Source
  | table t => t.source
  | joined j => j.source
  | filtered f => f.source
  | sorted s => s.source

/-- The condition of a handle. -/
def predicate? : Handle → Option Predicate
  | table _ => none
  | joined _ => none
  | filtered f => some f.predicate
  | sorted s => s.predicate?

/-- The sort keys of a handle. -/
def keys : Handle → List SortKey
  | table _ => []
  | joined _ => []
  | filtered _ => []
  | sorted s => s.keys

/-- The handle that a call answers with, if handles of this kind have the call. -/
def call? : Handle → Call → Option Handle
  | table t, .innerJoin other condition => some (joined (t.innerJoin other condition))
  | joined j, .innerJoin other condition => some (joined (j.innerJoin other condition))
  | table t, .filter predicate => some (filtered (t.filter predicate))
  | joined j, .filter predicate => some (filtered (j.filter predicate))
  | filtered f, .filter predicate => some (filtered (f.filter predicate))
  | table t, .sortBy column direction => some (sorted (t.sortBy column direction))
  | joined j, .sortBy column direction => some (sorted (j.sortBy column direction))
  | filtered f, .sortBy column direction => some (sorted (f.sortBy column direction))
  | sorted s, .thenBy column direction => some (sorted (s.thenBy column direction))
  | _, _ => none

/-- The handles that chains of allowed calls lead to, from a table on. -/
inductive Reachable (allowed : Source → Call → Prop) : Handle → Prop
  | start (t : Table) : Reachable allowed (table t)
  | step {h next : Handle} {call : Call} (hreach : Reachable allowed h)
    (hcall : allowed h.source call) (hnext : h.call? call = some next) : Reachable allowed next

/-- **What a call does**: it binds one more table, or it narrows the condition, or it adds a sort
key. -/
lemma call?_cases {h next : Handle} {call : Call} (hnext : h.call? call = some next) :
    (∃ other condition, call = .innerJoin other condition ∧
      next = joined ⟨h.source.join other.definition condition⟩) ∨
    (∃ predicate, call = .filter predicate ∧
      next = filtered ⟨h.source, Predicate.narrow h.predicate? (predicate h.source.scope)⟩) ∨
    (∃ column direction, call.scope h.source = h.source.scope ∧
      call.columns h.source = [column h.source.scope] ∧
      next = sorted ⟨h.source, h.predicate?, h.keys ++ [h.source.sortKey column direction]⟩) := by
  cases call with
  | innerJoin other condition =>
    cases h with
    | table _ | joined _ => exact .inl ⟨other, condition, rfl, (Option.some.inj hnext).symm⟩
    | filtered _ | sorted _ => cases hnext
  | filter predicate =>
    cases h with
    | table _ | joined _ | filtered _ =>
      exact .inr (.inl ⟨predicate, rfl, (Option.some.inj hnext).symm⟩)
    | sorted _ => cases hnext
  | sortBy column direction =>
    cases h with
    | table _ | joined _ | filtered _ =>
      exact .inr (.inr ⟨column, direction, rfl, rfl, (Option.some.inj hnext).symm⟩)
    | sorted _ => cases hnext
  | thenBy column direction =>
    cases h with
    | table _ | joined _ | filtered _ => cases hnext
    | sorted _ => exact .inr (.inr ⟨column, direction, rfl, rfl, (Option.some.inj hnext).symm⟩)

end Handle

/-! ## Requests -/

/-- A part of the rows that a read asks for. -/
inductive Window where
  /-- A number of rows at most. -/
  | limit (count : Nat)
  /-- The rows behind a number of them. -/
  | offset (count : Nat)

/-- A query for a part of its rows. -/
def Query.window (query : Query) : Window → Query
  | .limit count => query.limit count
  | .offset count => query.offset count

/-- A request for a statement. The requests for a single record are those for a list of one, and an
update of the primary table is one of table number 0. -/
inductive Request where
  /-- Every column of the rows. -/
  | select (windows : List Window)
  /-- A mapping of output keys. -/
  | map (mapping : Scope → ProjectionMap) (windows : List Window)
  /-- One column. -/
  | get (column : Scope → ColumnRef) (windows : List Window)
  /-- The number of rows. -/
  | count (windows : List Window)
  /-- An update of the table bound at a number. -/
  | updateTable (index : Nat) (record : Record)
  /-- The deletion of the rows. -/
  | delete
  /-- An insertion of records. -/
  | insertBatch (records : List Record)
  /-- An insertion of records that replace what is there. -/
  | replaceBatch (records : List Record)
  /-- The deletion of every row. -/
  | deleteAll
  /-- The removal of every row without a scan. -/
  | truncate

namespace Request

/-- Whether the statement of a request binds its tables with aliases: a read, a count or an
update. -/
def isAliased : Request → Bool
  | select _ => true
  | map _ _ => true
  | get _ _ => true
  | count _ => true
  | updateTable _ _ => true
  | _ => false

/-- The columns that the callback of a request uses, given the scope. -/
def columns (scope : Scope) : Request → List ColumnRef
  | map mapping _ => (Projection.map (mapping scope)).columns
  | get column _ => [column scope]
  | _ => []

end Request

namespace Handle

/-- The query of a request for rows or for their number. -/
def query? : Handle → Request → Option Query
  | table t, .select windows => some (windows.foldl .window t.select)
  | table t, .map mapping windows => some (windows.foldl .window (t.map mapping))
  | table t, .get column windows => some (windows.foldl .window (t.get column))
  | table t, .count windows => some (windows.foldl .window t.count)
  | joined j, .select windows => some (windows.foldl .window j.select)
  | joined j, .map mapping windows => some (windows.foldl .window (j.map mapping))
  | joined j, .get column windows => some (windows.foldl .window (j.get column))
  | joined j, .count windows => some (windows.foldl .window j.count)
  | filtered f, .select windows => some (windows.foldl .window f.select)
  | filtered f, .map mapping windows => some (windows.foldl .window (f.map mapping))
  | filtered f, .get column windows => some (windows.foldl .window (f.get column))
  | filtered f, .count windows => some (windows.foldl .window f.count)
  | sorted s, .select windows => some (windows.foldl .window s.select)
  | sorted s, .map mapping windows => some (windows.foldl .window (s.map mapping))
  | sorted s, .get column windows => some (windows.foldl .window (s.get column))
  | _, _ => none

/-- The answer to a request, if handles of this kind take it. -/
def answer? : Handle → Request → Option (Except TableError Statement)
  | filtered f, .updateTable index record => some (f.updateTable index record)
  | filtered f, .delete => some f.delete
  | table t, .insertBatch records => some (t.insertBatch records)
  | table t, .replaceBatch records => some (t.replaceBatch records)
  | table t, .deleteAll => some t.deleteAll
  | table t, .truncate => some (.ok t.truncate)
  | h, request => (h.query? request).map Query.generate

end Handle

end BoundSql
