import BoundSql.Expr.Column

/-!
# Predicates

A predicate is a comparison or an ordered group of predicates under one connective. A group inside a
group is always written in parentheses, so the text keeps the tree's grouping whatever precedence
the connectives have.

## Main definitions

* `BoundSql.Operand`, `BoundSql.Comparison` — the leaves.
* `BoundSql.Predicate` — the trees.
* `BoundSql.Predicate.and`, `BoundSql.Predicate.or` — chaining, which extends a group of the same
  kind.
* `BoundSql.Predicate.compile` — the text of a predicate.
-/

namespace BoundSql

/-! ## Comparisons -/

/-- One side of a comparison. -/
inductive Operand where
  /-- A column. -/
  | column (column : ColumnRef)
  /-- A bound value. -/
  | value (value : Value)
deriving DecidableEq

/-- An operand is a column's text or a placeholder. -/
def Operand.compile (ctx : Context) : Operand → Compile String
  | .column c => c.compile ctx
  | .value v => Compile.parameter v

/-- The comparison operators. -/
inductive CompareOp where
  | equals
  | notEquals
  | lessThan
  | lessOrEqual
  | greaterThan
  | greaterOrEqual
deriving DecidableEq, Repr

/-- The SQL spelling of an operator. -/
def CompareOp.symbol : CompareOp → String
  | .equals => "="
  | .notEquals => "<>"
  | .lessThan => "<"
  | .lessOrEqual => "<="
  | .greaterThan => ">"
  | .greaterOrEqual => ">="

/-- A leaf of a predicate. -/
inductive Comparison where
  /-- A comparison of two operands. -/
  | binary (op : CompareOp) (left right : Operand)
  /-- The column holds no value. -/
  | isNull (column : ColumnRef)
  /-- The column holds a value. -/
  | isNotNull (column : ColumnRef)
deriving DecidableEq

/-- The text of a comparison; the left operand binds before the right one. -/
def Comparison.compile (ctx : Context) : Comparison → Compile String
  | .binary op left right => do
    let leftText ← left.compile ctx
    let rightText ← right.compile ctx
    return s!"{leftText} {op.symbol} {rightText}"
  | .isNull c => return s!"{← c.compile ctx} IS NULL"
  | .isNotNull c => return s!"{← c.compile ctx} IS NOT NULL"

/-! ## Trees -/

/-- A boolean expression. -/
inductive Predicate where
  /-- A single comparison. -/
  | comparison (comparison : Comparison)
  /-- Members under one connective, in order. -/
  | group (connective : Connective) (members : List Predicate)

namespace Predicate

/-- Whether a predicate is a group. -/
def isGroup : Predicate → Bool
  | group _ _ => true
  | comparison _ => false

/-- Adds `other` behind `self`: a group of the connective grows, anything else starts a new
group. -/
def combine (connective : Connective) (self other : Predicate) : Predicate :=
  match self with
  | group kind members =>
    if kind = connective then group kind (members ++ [other]) else group connective [self, other]
  | comparison _ => group connective [self, other]

/-- Both predicates hold. -/
def and (self other : Predicate) : Predicate := combine .and self other

/-- One of the predicates holds. -/
def or (self other : Predicate) : Predicate := combine .or self other

/-- Every predicate of a list holds. -/
def all (members : List Predicate) : Predicate := group .and members

/-- Some predicate of a list holds. -/
def any (members : List Predicate) : Predicate := group .or members

/-- Narrows an optional filter by a predicate. -/
def narrow (filter : Option Predicate) (predicate : Predicate) : Predicate :=
  match filter with
  | some existing => existing.and predicate
  | none => predicate

mutual

/-- The text of a predicate. The size of a group is checked before its members. -/
def compile (ctx : Context) : Predicate → Compile String
  | comparison leaf => leaf.compile ctx
  | group connective members => do
    if members.length < 2 then
      throw (.logicalArity connective members.length)
    let parts ← compileMembers ctx members
    return String.intercalate s!" {connective.keyword} " parts

/-- The texts of a group's members, groups in parentheses. -/
def compileMembers (ctx : Context) : List Predicate → Compile (List String)
  | [] => return []
  | member :: rest => do
    let text ← member.compile ctx
    let part := if member.isGroup then s!"({text})" else text
    return part :: (← compileMembers ctx rest)

end

end Predicate

/-! ## Conditions on a column -/

namespace ColumnRef

/-- Compares the column with an operand. -/
def compare (op : CompareOp) (column : ColumnRef) (right : Operand) : Predicate :=
  .comparison (.binary op (.column column) right)

/-- The column equals an operand. -/
def equals (column : ColumnRef) (right : Operand) : Predicate := column.compare .equals right

/-- The column holds no value. -/
def isNull (column : ColumnRef) : Predicate := .comparison (.isNull column)

/-- The column holds a value. -/
def isNotNull (column : ColumnRef) : Predicate := .comparison (.isNotNull column)

end ColumnRef

end BoundSql
