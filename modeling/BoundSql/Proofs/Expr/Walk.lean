import BoundSql.Proofs.Expr.Faults
import Mathlib.Data.List.Basic

/-!
# Walks over expressions

A compilation walks over an expression from left to right. On its way it binds values and it looks
at what may be wrong. The list of these steps depends on the expression alone; how many tables a
statement binds decides only which of the steps fail.

## Main definitions

* `BoundSql.Step` — a value that is bound, or something that is looked at.
* `BoundSql.Step.fault?` — what a step finds wrong where some number of tables is bound.
* `BoundSql.Step.FirstFault` — the fault of the first step that finds one.
* `BoundSql.Selection` — a projection without the nesting of its output keys.
* `BoundSql.Predicate.walk`, `BoundSql.Selection.walk`, … — the steps of an expression.

## Main results

* `BoundSql.Step.fault?_flatMap_sites`, `BoundSql.Step.values_flatMap_sites` — the fault and the
  values of a walk.
* `BoundSql.Predicate.sites_eq_walk`, `BoundSql.Projection.sites_eq_walk`, … — a compilation passes
  the sites of its walk.
-/

namespace BoundSql

/-! ## Steps -/

/-- What a compilation does at one place of a description. -/
inductive Step where
  /-- It binds a value. -/
  | bind (value : Value)
  /-- It looks for the table of a column. -/
  | column (column : ColumnRef)
  /-- It counts the members of a group. -/
  | arity (connective : Connective) (count : Nat)
  /-- It looks at an output key. -/
  | label (key : String)
  /-- It counts the values of a row. -/
  | width (row expected found : Nat)
deriving DecidableEq

namespace Step

/-- The value that a step binds. -/
def value? : Step → Option Value
  | bind v => some v
  | _ => none

/-- The column that a step looks at. -/
def column? : Step → Option ColumnRef
  | column c => some c
  | _ => none

/-- What a step finds wrong where `tables` tables are bound: a column of another table, a group of
less than two members, an output key that is empty or has a question mark, a row of another length
than the columns. -/
def fault? (tables : Nat) : Step → Option CompileError
  | bind _ => none
  | column c => if c.table < tables then none else some (.unboundTable c.table tables)
  | arity connective count => if 2 ≤ count then none else some (.logicalArity connective count)
  | label key => if key ≠ "" ∧ '?' ∉ key.toList then none else some (.invalidAlias key)
  | width row expected found =>
    if found = expected then none else some (.rowArity row expected found)

/-- The fault is what the first step finds that finds something wrong. -/
def FirstFault (tables : Nat) (steps : List Step) (e : CompileError) : Prop :=
  ∃ front step back, steps = front ++ step :: back ∧ step.fault? tables = some e ∧
    ∀ s ∈ front, s.fault? tables = none

/-- The sites of a step. -/
def sites (tables : Nat) (step : Step) : List Site :=
  step.value?.toList.map .value ++ (step.fault? tables).toList.map .fault

variable {tables : Nat}

/-- The first fault of one site list in front of another. -/
lemma fault?_append (s t : List Site) :
    Site.fault? (s ++ t) = (Site.fault? s).or (Site.fault? t) := by
  simp [Site.fault?]

/-- A step has the fault that it finds. -/
@[simp] lemma fault?_sites (step : Step) :
    Site.fault? (step.sites tables) = step.fault? tables := by
  cases step with
  | bind v => rfl
  | column c | arity connective count | label key | width row expected found =>
    unfold sites
    cases fault? tables _ <;> rfl

/-- A step binds its value. -/
@[simp] lemma values_sites (step : Step) :
    Site.values (step.sites tables) = step.value?.toList := by
  unfold sites
  cases step.value? <;> cases step.fault? tables <;> rfl

/-- **The fault of a walk** is that of the first step that finds one. -/
theorem fault?_flatMap_sites (steps : List Step) :
    Site.fault? (steps.flatMap (sites tables)) = steps.findSome? (fault? tables) := by
  induction steps with
  | nil => rfl
  | cons step rest ih =>
    rw [List.flatMap_cons, fault?_append, fault?_sites, ih, List.findSome?_cons]
    cases step.fault? tables <;> rfl

/-- **The values of a walk** are those that its steps bind. -/
theorem values_flatMap_sites (steps : List Step) :
    Site.values (steps.flatMap (sites tables)) = steps.filterMap value? := by
  induction steps with
  | nil => rfl
  | cons step rest ih =>
    rw [List.flatMap_cons, Site.values_append, values_sites, ih, List.filterMap_cons]
    cases step.value? <;> rfl

/-- The first fault of a walk, step by step. -/
lemma findSome?_fault?_eq_some_iff {steps : List Step} {e : CompileError} :
    steps.findSome? (fault? tables) = some e ↔ FirstFault tables steps e :=
  List.findSome?_eq_some_iff

end Step

/-! ## Conditions -/

/-- The steps over an operand. -/
def Operand.walk : Operand → List Step
  | .column c => [.column c]
  | .value v => [.bind v]

/-- The steps over a comparison, the left operand first. -/
def Comparison.walk : Comparison → List Step
  | .binary _ left right => left.walk ++ right.walk
  | .isNull c => [.column c]
  | .isNotNull c => [.column c]

namespace Predicate

mutual

/-- The steps over a predicate: a group is counted before its members are looked at. -/
def walk : Predicate → List Step
  | comparison leaf => leaf.walk
  | group connective members => .arity connective members.length :: memberWalk members

/-- The steps over the members of a group, from left to right. -/
def memberWalk : List Predicate → List Step
  | [] => []
  | member :: rest => member.walk ++ memberWalk rest

end

/-- The values bound in a predicate, from left to right. -/
def values (p : Predicate) : List Value := p.walk.filterMap Step.value?

end Predicate

section Sites

variable (ctx : Context)

/-- A column is one step of the walk. -/
lemma ColumnRef.sites_eq_walk (column : ColumnRef) :
    column.sites ctx = [Step.column column].flatMap (Step.sites ctx.bound) := by
  simp only [ColumnRef.sites, Step.sites, Step.value?, Step.fault?, List.flatMap_singleton]
  split <;> rfl

/-- The sites of an operand are those of its walk. -/
lemma Operand.sites_eq_walk (operand : Operand) :
    operand.sites ctx = operand.walk.flatMap (Step.sites ctx.bound) := by
  cases operand with
  | column c => exact c.sites_eq_walk ctx
  | value v => rfl

/-- The sites of a comparison are those of its walk. -/
lemma Comparison.sites_eq_walk (comparison : Comparison) :
    comparison.sites ctx = comparison.walk.flatMap (Step.sites ctx.bound) := by
  cases comparison with
  | binary op left right =>
    rw [sites, walk, List.flatMap_append, left.sites_eq_walk, right.sites_eq_walk]
  | isNull c => exact c.sites_eq_walk ctx
  | isNotNull c => exact c.sites_eq_walk ctx

namespace Predicate

/-- The check of a group's size is one step of the walk. -/
lemma aritySites_eq_step (connective : Connective) (count : Nat) :
    aritySites connective count = Step.sites ctx.bound (.arity connective count) := by
  simp only [aritySites, Step.sites, Step.value?, Step.fault?]
  by_cases h : 2 ≤ count
  · rw [if_neg (Nat.not_lt.2 h), if_pos h]
    rfl
  · rw [if_pos (Nat.lt_of_not_le h), if_neg h]
    rfl

mutual

/-- **The compilation of a predicate** passes the sites of its walk. -/
theorem sites_eq_walk (p : Predicate) :
    p.sites ctx = p.walk.flatMap (Step.sites ctx.bound) := by
  cases p with
  | comparison leaf => exact leaf.sites_eq_walk ctx
  | group connective members =>
    rw [sites, walk, List.flatMap_cons, aritySites_eq_step ctx, memberSites_eq_walk members]

/-- The members of a group pass the sites of their walks. -/
theorem memberSites_eq_walk (members : List Predicate) :
    memberSites ctx members = (memberWalk members).flatMap (Step.sites ctx.bound) := by
  cases members with
  | nil => rfl
  | cons member rest =>
    rw [memberSites, memberWalk, List.flatMap_append, sites_eq_walk member,
      memberSites_eq_walk rest]

end

/-- The values of a predicate do not depend on how columns are written. -/
@[simp] lemma values_sites (p : Predicate) : Site.values (p.sites ctx) = p.values := by
  rw [p.sites_eq_walk, Step.values_flatMap_sites, values]

/-- A group binds the values of its members. -/
lemma values_group (connective : Connective) (members : List Predicate) :
    (group connective members).values = members.flatMap values := by
  rw [← values_sites .bare, sites, Site.values_append, values_aritySites, List.nil_append,
    memberSites_eq_flatMap, Site.values_flatMap]
  simp only [values_sites]

end Predicate

end Sites

/-! ### Columns that are looked at -/

/-- The walk of an operand meets its columns. -/
lemma Operand.filterMap_column?_walk (operand : Operand) :
    operand.walk.filterMap Step.column? = operand.columns := by
  cases operand <;> rfl

/-- The walk of a comparison meets its columns. -/
lemma Comparison.filterMap_column?_walk (comparison : Comparison) :
    comparison.walk.filterMap Step.column? = comparison.columns := by
  cases comparison with
  | binary op left right =>
    rw [walk, columns, List.filterMap_append, left.filterMap_column?_walk,
      right.filterMap_column?_walk]
  | isNull c => rfl
  | isNotNull c => rfl

namespace Predicate

mutual

/-- A walk over a predicate looks at each of its columns. -/
theorem filterMap_column?_walk (p : Predicate) :
    p.walk.filterMap Step.column? = p.columns := by
  cases p with
  | comparison leaf => exact leaf.filterMap_column?_walk
  | group connective members => exact filterMap_column?_memberWalk members

/-- A walk over the members of a group looks at each of their columns. -/
theorem filterMap_column?_memberWalk (members : List Predicate) :
    (memberWalk members).filterMap Step.column? = memberColumns members := by
  cases members with
  | nil => rfl
  | cons member rest =>
    rw [memberWalk, memberColumns, List.filterMap_append, filterMap_column?_walk member,
      filterMap_column?_memberWalk rest]

end

end Predicate

/-! ## Projections -/

/-- What a read returns, the nesting of its output keys left out. -/
inductive Selection where
  /-- Every column. -/
  | wildcard
  /-- One column. -/
  | column (column : ColumnRef)
  /-- Columns, each with the output key that labels it. -/
  | leaves (leaves : List (ColumnRef × String))
deriving DecidableEq

/-- The leaves of a mapping are its columns with the last keys of their paths. -/
def Projection.selection : Projection → Selection
  | .wildcard => .wildcard
  | .column c => .column c
  | .map m => .leaves (m.flatten.map fun leaf => (leaf.column, leaf.label))

namespace Selection

/-- The columns that are returned. -/
def columns : Selection → List ColumnRef
  | wildcard => []
  | column c => [c]
  | leaves l => l.map Prod.fst

/-- The output keys that are written as aliases. -/
def labels : Selection → List String
  | wildcard => []
  | column _ => []
  | leaves l => l.map Prod.snd

/-- The text of a column with its output key. -/
def leafText (ctx : Context) (leaf : ColumnRef × String) : String :=
  let label := Text.doubled '"' leaf.2
  s!"{leaf.1.text ctx} AS {label}"

/-- The text behind `SELECT`. -/
def text (ctx : Context) : Selection → String
  | wildcard => "*"
  | column c => c.text ctx
  | leaves l => commaList (l.map (leafText ctx))

/-- The steps over a column with its output key: the column is looked at before the key. -/
def leafWalk (leaf : ColumnRef × String) : List Step := [.column leaf.1, .label leaf.2]

/-- The steps over what stands behind `SELECT`. -/
def walk : Selection → List Step
  | wildcard => []
  | column c => [.column c]
  | leaves l => l.flatMap leafWalk

end Selection

namespace Projection

/-- What is selected has the columns of the projection. -/
lemma columns_selection (projection : Projection) :
    projection.selection.columns = projection.columns := by
  cases projection with
  | wildcard | column c => rfl
  | map m => simp [selection, Selection.columns, columns]

/-- The nesting of output keys does not show in the text. -/
lemma text_selection (ctx : Context) (projection : Projection) :
    projection.selection.text ctx = projection.text ctx := by
  cases projection with
  | wildcard | column c => rfl
  | map m =>
    rw [selection, Selection.text, text, ProjectionMap.text, List.map_map]
    rfl

end Projection

/-- The check of a label is one step of the walk. -/
lemma labelSites_eq_step (ctx : Context) (key : String) :
    labelSites key = Step.sites ctx.bound (.label key) := by
  have hlabel : isLabel key ↔ key ≠ "" ∧ '?' ∉ key.toList := by
    simp [isLabel]
  simp only [labelSites, Step.sites, Step.value?, Step.fault?]
  by_cases h : isLabel key
  · rw [if_pos h, if_pos (hlabel.1 h)]
    rfl
  · rw [if_neg h, if_neg (mt hlabel.2 h)]
    rfl

/-- The sites of a leaf are those of its walk. -/
lemma FlatColumn.sites_eq_walk (ctx : Context) (leaf : FlatColumn) :
    leaf.sites ctx =
      (Selection.leafWalk (leaf.column, leaf.label)).flatMap (Step.sites ctx.bound) := by
  rw [sites, Selection.leafWalk, List.flatMap_cons, List.flatMap_singleton,
    ColumnRef.sites_eq_walk, List.flatMap_singleton, labelSites_eq_step ctx]

/-- **The compilation of a projection** passes the sites of its walk. -/
theorem Projection.sites_eq_walk (ctx : Context) (projection : Projection) :
    projection.sites ctx = projection.selection.walk.flatMap (Step.sites ctx.bound) := by
  cases projection with
  | wildcard => rfl
  | column c => exact c.sites_eq_walk ctx
  | map m =>
    rw [sites, selection, Selection.walk, ProjectionMap.sites, List.flatMap_map,
      List.flatMap_assoc]
    exact List.flatMap_congr fun leaf _ => leaf.sites_eq_walk ctx

/-- A walk over a selection looks at each of its columns. -/
lemma Selection.filterMap_column?_walk (selection : Selection) :
    selection.walk.filterMap Step.column? = selection.columns := by
  cases selection with
  | wildcard => rfl
  | column c => rfl
  | leaves l =>
    rw [walk, columns, List.filterMap_flatMap, List.map_eq_flatMap]
    rfl

end BoundSql
