import BoundSql.Expr.Clause

/-!
# Compiled statements

A statement is SQL text with placeholders together with the values they bind, in placeholder order.
Each clause is compiled to a line of its own; clauses that a statement does not have leave no line.

## Main definitions

* `BoundSql.Statement` — text and parameters.
* `BoundSql.Statement.ofLines` — the statement whose clauses a compilation yields.
* `BoundSql.checkJoins` — the `k`-th join has to introduce table number `k + 1`.
* `BoundSql.whereLines`, `BoundSql.listLines` — clauses that may be absent.
-/

namespace BoundSql

/-- SQL text and the values bound to its placeholders. -/
structure Statement where
  /-- The text. -/
  sql : String
  /-- The values, in the order of the placeholders. -/
  params : Array Value
deriving DecidableEq

/-- The number of question marks in a statement's text. -/
def Statement.placeholders (statement : Statement) : Nat := statement.sql.toList.count '?'

/-- The statement whose clauses a compilation yields, one line each. -/
def Statement.ofLines (lines : Compile (List String)) : Except CompileError Statement :=
  match lines.run #[] with
  | .ok texts params => .ok ⟨String.intercalate "\n" texts, params⟩
  | .error e _ => .error e

/-- Checks the table numbers of joins, the first of which stands at `position`. -/
def checkJoinsFrom (position : Nat) : List Join → Except CompileError Unit
  | [] => .ok ()
  | join :: rest =>
    if join.other.index = position + 1 then checkJoinsFrom (position + 1) rest
    else .error (.joinOrder position (position + 1) join.other.index)

/-- Checks that every join introduces the next table number. -/
def checkJoins (joins : List Join) : Except CompileError Unit := checkJoinsFrom 0 joins

/-- One line per join. -/
def joinLines (ctx : Context) (joins : List Join) : Compile (List String) :=
  joins.mapM (·.compile ctx)

/-- The `WHERE` line, if there is a filter. -/
def whereLines (ctx : Context) : Option Predicate → Compile (List String)
  | some predicate => return [s!"WHERE {← predicate.compile ctx}"]
  | none => return []

/-- A keyword and a list behind it, if the list has members. -/
def listLines (keyword : String) (members : List (Compile String)) : Compile (List String) := do
  if members.isEmpty then
    return []
  let texts ← members.mapM id
  return [s!"{keyword} {commaList texts}"]

end BoundSql
