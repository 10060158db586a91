import BoundSql.Proofs.Expr.Text
import BoundSql.Proofs.Statement.Names

/-!
# Faults of expressions

When an expression compiles. Its columns have to be columns of bound tables, every group in it has
to have two members at least, and the output keys of a mapping have to be able to stand as aliases.
Nothing else is looked at.

## Main definitions

* `BoundSql.Predicate.WellGrouped` — every group of a predicate has two members at least.
* `BoundSql.Projection.labels` — the output keys that a projection writes as aliases.

## Main results

* `BoundSql.Predicate.fault?_sites_eq_none_iff` — when a predicate has no fault.
* `BoundSql.Projection.fault?_sites_eq_none_iff` — when a projection has no fault.
-/

namespace BoundSql

/-! ## Conditions -/

section Conditions

variable {ctx : Context}

/-- An operand is compiled where the table of its column is bound. -/
lemma Operand.fault?_sites_eq_none_iff {operand : Operand} :
    Site.fault? (operand.sites ctx) = none ↔ ∀ c ∈ operand.columns, c.table < ctx.bound := by
  cases operand with
  | column c => simp [sites, columns]
  | value v => simp [sites, columns]

/-- A comparison is compiled where the tables of its columns are bound. -/
lemma Comparison.fault?_sites_eq_none_iff {comparison : Comparison} :
    Site.fault? (comparison.sites ctx) = none ↔
      ∀ c ∈ comparison.columns, c.table < ctx.bound := by
  cases comparison with
  | binary op left right =>
    rw [sites, columns, Site.fault?_append_eq_none, left.fault?_sites_eq_none_iff,
      right.fault?_sites_eq_none_iff, List.forall_mem_append]
  | isNull c => simp [sites, columns]
  | isNotNull c => simp [sites, columns]

end Conditions

namespace Predicate

mutual

/-- Every group of the predicate has two members at least. -/
def WellGrouped : Predicate → Prop
  | comparison _ => True
  | group _ members => 2 ≤ members.length ∧ MembersWellGrouped members

/-- Every group below the members has two members at least. -/
def MembersWellGrouped : List Predicate → Prop
  | [] => True
  | member :: rest => member.WellGrouped ∧ MembersWellGrouped rest

end

/-- The members of a group, one by one. -/
lemma membersWellGrouped_iff {members : List Predicate} :
    MembersWellGrouped members ↔ ∀ m ∈ members, m.WellGrouped := by
  induction members with
  | nil => simp [MembersWellGrouped]
  | cons member rest ih => rw [MembersWellGrouped, ih, List.forall_mem_cons]

variable (ctx : Context)

mutual

/-- **A predicate** has no fault exactly when its columns are bound and it is well grouped. -/
theorem fault?_sites_eq_none_iff (p : Predicate) :
    Site.fault? (p.sites ctx) = none ↔ (∀ c ∈ p.columns, c.table < ctx.bound) ∧ p.WellGrouped := by
  cases p with
  | comparison leaf =>
    rw [sites, columns, WellGrouped, leaf.fault?_sites_eq_none_iff, and_true]
  | group connective members =>
    rw [sites, columns, WellGrouped, Site.fault?_append_eq_none, fault?_aritySites_eq_none,
      fault?_memberSites_eq_none_iff members, and_left_comm]

/-- The members of a group have no fault exactly when each of them has none. -/
theorem fault?_memberSites_eq_none_iff (members : List Predicate) :
    Site.fault? (memberSites ctx members) = none ↔
      (∀ c ∈ memberColumns members, c.table < ctx.bound) ∧ MembersWellGrouped members := by
  cases members with
  | nil => simp [memberSites, memberColumns, MembersWellGrouped]
  | cons member rest =>
    rw [memberSites, memberColumns, MembersWellGrouped, Site.fault?_append_eq_none,
      fault?_sites_eq_none_iff member, fault?_memberSites_eq_none_iff rest, List.forall_mem_append,
      and_and_and_comm]

end

end Predicate

/-! ## Projections -/

section Projections

variable (ctx : Context)

/-- The output keys that are written as aliases. -/
def Projection.labels : Projection → List String
  | .wildcard => []
  | .column _ => []
  | .map m => m.flatten.map (·.label)

/-- An output key has no fault exactly when it can stand as an alias. -/
lemma fault?_labelSites_eq_none_iff {key : String} :
    Site.fault? (labelSites key) = none ↔ isLabel key := by
  unfold labelSites
  split
  · next h => simp [h]
  · next h => simp [h]

/-- **A projection** has no fault exactly when its columns are bound and its output keys can stand
as aliases. -/
theorem Projection.fault?_sites_eq_none_iff (projection : Projection) :
    Site.fault? (projection.sites ctx) = none ↔
      (∀ c ∈ projection.columns, c.table < ctx.bound) ∧ ∀ key ∈ projection.labels, isLabel key := by
  cases projection with
  | wildcard => simp [sites, columns, labels]
  | column c => simp [sites, columns, labels]
  | map m =>
    simp only [sites, ProjectionMap.sites, FlatColumn.sites, columns, labels,
      Site.fault?_flatMap_eq_none, Site.fault?_append_eq_none, ColumnRef.fault?_sites_eq_none,
      fault?_labelSites_eq_none_iff, List.forall_mem_map, forall_and]

end Projections

end BoundSql
