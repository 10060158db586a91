import BoundSql.Expr.Clause
import BoundSql.Expr.Projection
import BoundSql.Proofs.Expr.Site

/-!
# Texts and sites of expressions

The text of an expression as a function of the way in which its bound values are spelled. Spelled as
a placeholder each, this is the text that a compilation yields; spelled as literals, it is the same
text with every value written in place. Next to it stand the sites that the compilation of the
expression passes.

## Main definitions

* `BoundSql.Predicate.text`, `BoundSql.Projection.text`, … — the text of an expression, its values
  spelled as told.
* `BoundSql.Predicate.sites`, `BoundSql.Projection.sites`, … — the values it binds and the faults it
  has, in the order in which they are met.
* `BoundSql.Value.placeholder` — the spelling that hides a value.

## Main results

* `BoundSql.Predicate.compile_visits`, `BoundSql.Projection.compile_visits`, … — each compilation
  passes the sites of the expression and yields its text with placeholders.
-/

namespace BoundSql

/-- The spelling of a value in compiled text: it says nothing about the value. -/
def Value.placeholder (_ : Value) : String := "?"

open Compile

/-! ## Columns, operands and comparisons -/

section Leaves

variable (spell : Value → String) (ctx : Context)

/-- The text of a column. -/
def ColumnRef.text (column : ColumnRef) : String :=
  if ctx.isQualified then s!"{tableAlias column.table}.{column.name}" else column.name

/-- A column is a fault if its table is not bound. -/
def ColumnRef.sites (column : ColumnRef) : List Site :=
  if column.table < ctx.bound then [] else [.fault (.unboundTable column.table ctx.bound)]

/-- A column binds nothing. -/
@[simp] lemma ColumnRef.values_sites (column : ColumnRef) :
    Site.values (column.sites ctx) = [] := by
  unfold sites
  split <;> rfl

/-- A column has no fault exactly when its table is bound. -/
@[simp] lemma ColumnRef.fault?_sites_eq_none {column : ColumnRef} :
    Site.fault? (column.sites ctx) = none ↔ column.table < ctx.bound := by
  unfold sites
  split
  · next h => simp [h]
  · next h => simp [h]

/-- A column visits its one site and writes its text. -/
lemma ColumnRef.compile_visits (column : ColumnRef) :
    (column.compile ctx).Visits (column.sites ctx) (column.text ctx) := by
  unfold ColumnRef.compile ColumnRef.sites
  split
  · exact Visits.pure _
  · exact Visits.throw _ _

/-- The text of an operand. -/
def Operand.text : Operand → String
  | .column c => c.text ctx
  | .value v => spell v

/-- The sites of an operand. -/
def Operand.sites : Operand → List Site
  | .column c => c.sites ctx
  | .value v => [.value v]

/-- An operand visits its sites and writes its text. -/
lemma Operand.compile_visits (operand : Operand) :
    (operand.compile ctx).Visits (operand.sites ctx) (operand.text Value.placeholder ctx) := by
  cases operand with
  | column c => exact c.compile_visits ctx
  | value v => exact Visits.parameter v

/-- The text of a comparison. -/
def Comparison.text : Comparison → String
  | .binary op left right => s!"{left.text spell ctx} {op.symbol} {right.text spell ctx}"
  | .isNull c => s!"{c.text ctx} IS NULL"
  | .isNotNull c => s!"{c.text ctx} IS NOT NULL"

/-- The sites of a comparison: those of the left operand, then those of the right one. -/
def Comparison.sites : Comparison → List Site
  | .binary _ left right => left.sites ctx ++ right.sites ctx
  | .isNull c => c.sites ctx
  | .isNotNull c => c.sites ctx

/-- A comparison visits the sites of both sides and writes its text. -/
lemma Comparison.compile_visits (comparison : Comparison) :
    (comparison.compile ctx).Visits (comparison.sites ctx)
      (comparison.text Value.placeholder ctx) := by
  cases comparison with
  | binary op left right =>
    have hleft := left.compile_visits ctx
    have hright := right.compile_visits ctx
    exact hleft.bind (hright.map _)
  | isNull c => exact (c.compile_visits ctx).map _
  | isNotNull c => exact (c.compile_visits ctx).map _

end Leaves

/-! ## Predicates -/

namespace Predicate

/-- A group is a fault if it has fewer than two members. -/
def aritySites (connective : Connective) (count : Nat) : List Site :=
  if count < 2 then [.fault (.logicalArity connective count)] else []

/-- A check of the size of a group binds nothing. -/
@[simp] lemma values_aritySites (connective : Connective) (count : Nat) :
    Site.values (aritySites connective count) = [] := by
  unfold aritySites
  split <;> rfl

/-- A group has no fault of its own exactly when it has two or more members. -/
@[simp] lemma fault?_aritySites_eq_none {connective : Connective} {count : Nat} :
    Site.fault? (aritySites connective count) = none ↔ 2 ≤ count := by
  unfold aritySites
  split
  · next h => simp [Nat.not_le.2 h]
  · next h => simp [Nat.le_of_not_lt h]

/-- A member of a group stands in parentheses if it is a group itself. -/
def enclose (member : Predicate) (text : String) : String :=
  if member.isGroup then s!"({text})" else text

section Trees

variable (spell : Value → String) (ctx : Context)

mutual

/-- The text of a predicate. -/
def text : Predicate → String
  | comparison leaf => leaf.text spell ctx
  | group connective members =>
    String.intercalate s!" {connective.keyword} " (memberTexts members)

/-- The texts of the members of a group. -/
def memberTexts : List Predicate → List String
  | [] => []
  | member :: rest => member.enclose member.text :: memberTexts rest

end

mutual

/-- The sites of a predicate: the size of a group is looked at before its members. -/
def sites : Predicate → List Site
  | comparison leaf => leaf.sites ctx
  | group connective members => aritySites connective members.length ++ memberSites members

/-- The sites of the members of a group, from left to right. -/
def memberSites : List Predicate → List Site
  | [] => []
  | member :: rest => member.sites ++ memberSites rest

end

mutual

/-- **A predicate** compiles to its text with placeholders, past its sites. -/
theorem compile_visits (p : Predicate) :
    (p.compile ctx).Visits (p.sites ctx) (p.text Value.placeholder ctx) := by
  cases p with
  | comparison leaf =>
    rw [compile, sites, text]
    exact leaf.compile_visits ctx
  | group connective members =>
    have hmembers := compileMembers_visits members
    rw [compile, sites, text, aritySites]
    split
    · exact (Visits.throw _ ()).bind (hmembers.map _)
    · exact hmembers.map _

/-- The members of a group compile to their texts with placeholders, past their sites. -/
theorem compileMembers_visits (members : List Predicate) :
    (compileMembers ctx members).Visits (memberSites ctx members)
      (memberTexts Value.placeholder ctx members) := by
  cases members with
  | nil => exact Visits.pure _
  | cons member rest =>
    have hmember := compile_visits member
    have hrest := compileMembers_visits rest
    rw [compileMembers, memberSites, memberTexts]
    exact hmember.bind (hrest.map _)

end

/-- The texts of the members of a group, one by one. -/
lemma memberTexts_eq_map (members : List Predicate) :
    memberTexts spell ctx members = members.map fun m => m.enclose (m.text spell ctx) := by
  induction members with
  | nil => rfl
  | cons member rest ih => rw [memberTexts, ih, List.map_cons]

/-- The sites of the members of a group, one by one. -/
lemma memberSites_eq_flatMap (members : List Predicate) :
    memberSites ctx members = members.flatMap fun m => m.sites ctx := by
  induction members with
  | nil => rfl
  | cons member rest ih => rw [memberSites, ih, List.flatMap_cons]

end Trees

end Predicate

/-! ## Projections -/

section Projections

variable (ctx : Context)

/-- The text of a leaf of a mapping. -/
def FlatColumn.text (leaf : FlatColumn) : String :=
  let label := Text.doubled '"' leaf.label
  s!"{leaf.column.text ctx} AS {label}"

/-- An output key is a fault if it cannot stand as an alias. -/
def labelSites (key : String) : List Site :=
  if isLabel key then [] else [.fault (.invalidAlias key)]

/-- The sites of a leaf: the column is looked at before the key. -/
def FlatColumn.sites (leaf : FlatColumn) : List Site :=
  leaf.column.sites ctx ++ labelSites leaf.label

/-- A label visits the check of its key and writes the key with its quotes doubled. -/
lemma quoteLabel_visits (key : String) :
    (quoteLabel key).Visits (labelSites key) (Text.doubled '"' key) := by
  unfold quoteLabel labelSites
  split
  · exact Visits.pure _
  · exact Visits.throw _ _

/-- A leaf of a projection visits its column and its label. -/
lemma FlatColumn.compile_visits (leaf : FlatColumn) :
    (leaf.compile ctx).Visits (leaf.sites ctx) (leaf.text ctx) := by
  have hcolumn := leaf.column.compile_visits ctx
  have hlabel := quoteLabel_visits leaf.label
  exact hcolumn.bind (hlabel.map _)

/-- The text of a mapping. -/
def ProjectionMap.text (map : ProjectionMap) : String :=
  commaList (map.flatten.map (·.text ctx))

/-- The sites of a mapping: those of its leaves in order. -/
def ProjectionMap.sites (map : ProjectionMap) : List Site := map.flatten.flatMap (·.sites ctx)

/-- A map of columns visits its leaves in order. -/
lemma ProjectionMap.compile_visits (map : ProjectionMap) :
    (map.compile ctx).Visits (map.sites ctx) (map.text ctx) := by
  have hleaves := Visits.mapM (l := map.flatten) fun leaf _ => leaf.compile_visits ctx
  exact hleaves.map _

/-- The text behind `SELECT`. -/
def Projection.text : Projection → String
  | .wildcard => "*"
  | .column c => c.text ctx
  | .map m => m.text ctx

/-- The sites of what stands behind `SELECT`. -/
def Projection.sites : Projection → List Site
  | .wildcard => []
  | .column c => c.sites ctx
  | .map m => m.sites ctx

/-- A projection visits its columns and writes its text. -/
lemma Projection.compile_visits (projection : Projection) :
    (projection.compile ctx).Visits (projection.sites ctx) (projection.text ctx) := by
  cases projection with
  | wildcard => exact Visits.pure _
  | column c => exact c.compile_visits ctx
  | map m => exact m.compile_visits ctx

end Projections

/-! ## Sort keys, joins and assignments -/

section Clauses

variable (spell : Value → String) (ctx : Context)

/-- The text of a sort key. -/
def SortKey.text (key : SortKey) : String := s!"{key.column.text ctx} {key.direction.keyword}"

/-- The sites of a sort key. -/
def SortKey.sites (key : SortKey) : List Site := key.column.sites ctx

/-- A sort key visits its column. -/
lemma SortKey.compile_visits (key : SortKey) :
    (key.compile ctx).Visits (key.sites ctx) (key.text ctx) :=
  (key.column.compile_visits ctx).map _

/-- The text of a join. -/
def Join.text (join : Join) : String :=
  s!"INNER JOIN {join.other.access} ON {join.condition.text spell ctx}"

/-- The sites of a join. -/
def Join.sites (join : Join) : List Site := join.condition.sites ctx

/-- A join visits the sites of its condition. -/
lemma Join.compile_visits (join : Join) :
    (join.compile ctx).Visits (join.sites ctx) (join.text Value.placeholder ctx) :=
  (join.condition.compile_visits ctx).map _

/-- The text of an assignment. -/
def Assignment.text (assignment : Assignment) : String :=
  s!"{assignment.column.text ctx} = {spell assignment.value}"

/-- The sites of an assignment: the column is looked at before the value is bound. -/
def Assignment.sites (assignment : Assignment) : List Site :=
  assignment.column.sites ctx ++ [.value assignment.value]

/-- An assignment visits its column and then its value. -/
lemma Assignment.compile_visits (assignment : Assignment) :
    (assignment.compile ctx).Visits (assignment.sites ctx)
      (assignment.text Value.placeholder ctx) := by
  have hcolumn := assignment.column.compile_visits ctx
  have hvalue := Visits.parameter assignment.value
  exact hcolumn.bind (hvalue.map _)

end Clauses

end BoundSql
