import BoundSql.Statement.Select
import BoundSql.Table.Definition

/-!
# Queries

A query is the description of a read together with what is asked of it: its rows or their number. It
is compiled only when its statement is asked for.

## Main definitions

* `BoundSql.Query` — the description and the question.
* `BoundSql.Query.generate` — the statement.
-/

namespace BoundSql

/-- A read that has not been compiled yet. -/
structure Query where
  /-- The description. -/
  statement : SelectStatement
  /-- Whether the number of rows is asked for. -/
  isCount : Bool := false

namespace Query

/-- Sets the number of rows returned at most. -/
def limit (query : Query) (count : Nat) : Query :=
  { query with statement := query.statement.limit count }

/-- Sets the number of rows skipped. -/
def offset (query : Query) (count : Nat) : Query :=
  { query with statement := query.statement.offset count }

/-- The statement of a query. -/
def generate (query : Query) : Except TableError Statement :=
  (if query.isCount then query.statement.buildCount else query.statement.build).mapError .compile

end Query

end BoundSql
