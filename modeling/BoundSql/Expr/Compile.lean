import BoundSql.Diagnostic
import BoundSql.Value

/-!
# Compiling expressions

An expression compiles to a fragment of SQL text, and on the way the values it binds are appended to
the statement's parameter list. Text and parameters grow in the same left-to-right pass, so the
`i`-th placeholder of the text binds the `i`-th parameter.

## Main definitions

* `BoundSql.Context` — how columns are written, and how many tables a statement binds.
* `BoundSql.CompileError` — why an expression or statement is malformed.
* `BoundSql.Compile` — a compilation: it appends parameters and yields a result or an error.
* `BoundSql.Compile.parameter` — the only way to bind a value.
-/

namespace BoundSql

/-- How column references are written while one statement is compiled. -/
structure Context where
  /-- Whether a column is written with the alias of its table. -/
  isQualified : Bool
  /-- The number of tables that the statement binds: the primary one and its joins. -/
  bound : Nat
deriving DecidableEq, Repr

namespace Context

/-- The context of a statement over `bound` aliased tables. -/
def qualified (bound : Nat) : Context := ⟨true, bound⟩

/-- The context of a statement over one table without an alias. -/
def bare : Context := ⟨false, 1⟩

end Context

/-- The connective that joins the members of a group. -/
inductive Connective where
  /-- Every member holds. -/
  | and
  /-- Some member holds. -/
  | or
deriving DecidableEq, Repr

/-- The SQL keyword of a connective. -/
def Connective.keyword : Connective → String
  | .and => "AND"
  | .or => "OR"

/-- Why an expression or a statement cannot be compiled. -/
inductive CompileError where
  /-- A group has fewer than two members. -/
  | logicalArity (connective : Connective) (count : Nat)
  /-- A column refers to a table that the statement does not bind. -/
  | unboundTable (index bound : Nat)
  /-- A join does not introduce the next table. -/
  | joinOrder (position expected found : Nat)
  /-- A row has not one value per column. -/
  | rowArity (row expected found : Nat)
  /-- An output key is empty or holds a question mark. -/
  | invalidAlias (key : String)
deriving DecidableEq, Repr

/-- The words of a compile error. -/
def CompileError.diagnostic : CompileError → Diagnostic
  | .logicalArity connective count =>
    { message := s!"`{connective.keyword}` needs at least two operands, found {count}"
      code := "sqlchain_core::logical_arity"
      help := some "Combine at least two predicates, or use the single predicate directly" }
  | .unboundTable index bound =>
    { message := s!"Column refers to table index {index}, but only {bound} table(s) are bound"
      code := "sqlchain_core::unbound_table"
      help := some "Join the table before referring to its columns" }
  | .joinOrder position expected found =>
    { message := s!"Join #{position} introduces table index {found}, expected {expected}"
      code := "sqlchain_core::join_order"
      help := some "Each join must introduce the next table index, starting at 1" }
  | .rowArity row expected found =>
    { message := s!"Row {row} has {found} value(s), expected {expected}"
      code := "sqlchain_core::row_arity"
      help := some "Every inserted row must provide one value per column" }
  | .invalidAlias key =>
    { message := s!"Output key `{key}` cannot be used as a column alias"
      code := "sqlchain_core::invalid_alias"
      help := some "Projection keys must not be empty or contain `?`" }

/-- A compilation: it reads and extends the parameter list, and yields a result or an error. What
was appended before an error stays appended. -/
abbrev Compile := EStateM CompileError (Array Value)

/-- Texts with commas between them. -/
def commaList (texts : List String) : String := String.intercalate ", " texts

/-- Binds a value: appends it to the parameters and yields its placeholder. -/
def Compile.parameter (value : Value) : Compile String := do
  modify (·.push value)
  return "?"

end BoundSql
