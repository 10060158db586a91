import BoundSql.Proofs.Statement.Text

/-!
# Names in descriptions

The columns that an expression mentions, in the order in which it mentions them, and the names of
tables and columns that go into the text of a statement as they are. Output keys are no such names:
they are quoted.

## Main definitions

* `BoundSql.Predicate.columns`, `BoundSql.Projection.columns` — the columns of an expression.
* `BoundSql.Description.names` — the names of tables and columns in the text of a description.
-/

namespace BoundSql

/-- The columns of an operand. -/
def Operand.columns : Operand → List ColumnRef
  | .column c => [c]
  | .value _ => []

/-- The columns of a comparison. -/
def Comparison.columns : Comparison → List ColumnRef
  | .binary _ left right => left.columns ++ right.columns
  | .isNull c => [c]
  | .isNotNull c => [c]

namespace Predicate

mutual

/-- The columns of a predicate, from left to right. -/
def columns : Predicate → List ColumnRef
  | comparison leaf => leaf.columns
  | group _ members => memberColumns members

/-- The columns of the members of a group. -/
def memberColumns : List Predicate → List ColumnRef
  | [] => []
  | member :: rest => member.columns ++ memberColumns rest

end

/-- The columns of the members of a group, one by one. -/
lemma memberColumns_eq_flatMap (members : List Predicate) :
    memberColumns members = members.flatMap columns := by
  induction members with
  | nil => rfl
  | cons member rest ih => rw [memberColumns, ih, List.flatMap_cons]

/-- The names of the columns of a predicate. -/
def names (p : Predicate) : List String := p.columns.map (·.name)

end Predicate

/-- The columns of what stands behind `SELECT`. -/
def Projection.columns : Projection → List ColumnRef
  | .wildcard => []
  | .column c => [c]
  | .map m => m.flatten.map (·.column)

/-- The names of what stands behind `SELECT`. -/
def Projection.names (projection : Projection) : List String := projection.columns.map (·.name)

/-- The names of a join: the joined table and the columns of the condition. -/
def Join.names (join : Join) : List String := join.other.name :: join.condition.names

/-- The names of the table, the joins and the filter of a read. -/
def SelectStatement.sourceNames (s : SelectStatement) : List String :=
  s.table.toList ++ s.joins.flatMap (·.names) ++ s.where?.toList.flatMap (·.names)

/-- The names of a read. -/
def SelectStatement.names (s : SelectStatement) : List String :=
  s.projection.toList.flatMap (·.names) ++ s.sourceNames ++ s.orderBy.map (·.column.name)

/-- The names of a count. The projection is not in its text, and the sort keys are where the rows of
a window are counted. -/
def SelectStatement.countNames (s : SelectStatement) : List String :=
  s.sourceNames ++ if s.isWindowed then s.orderBy.map (·.column.name) else []

/-- The names of an update. -/
def UpdateStatement.names (s : UpdateStatement) : List String :=
  s.table :: s.joins.flatMap (·.names) ++ s.assignments.map (·.column.name) ++
    s.where?.toList.flatMap (·.names)

/-- The names of a deletion. -/
def DeleteStatement.names (s : DeleteStatement) : List String :=
  s.table :: s.where?.toList.flatMap (·.names)

/-- The names of an insertion. -/
def InsertStatement.names (s : InsertStatement) : List String := s.table :: s.columns

/-- The names of tables and columns in the text of a description. -/
def Description.names : Description → List String
  | select s => s.names
  | count s => s.countNames
  | update s => s.names
  | delete s => s.names
  | insert s => s.names

end BoundSql
