import BoundSql.Proofs.Expr.Faults
import BoundSql.Proofs.Statement.Count
import BoundSql.Schema.Basic

/-!
# Statements over one table

A description that mentions columns of one table only, by names that are identifiers, compiles. What
is asked of it is kept by every step that builds it up, so it never has to be looked at as a whole.

## Main definitions

* `BoundSql.Predicate.IsPrimary`, `BoundSql.Projection.IsPrimary` — an expression over the columns
  of the primary table.
* `BoundSql.SelectStatement.IsPrimary`, `BoundSql.UpdateStatement.IsPrimary`, … — a description over
  the primary table.
* `BoundSql.Description.IsPrimary` — the same for any kind of description.

## Main results

* `BoundSql.Description.IsPrimary.build_eq_ok` — such a description compiles, to one parameter for
  each question mark.
-/

namespace BoundSql

open Text

/-- An identifier has no question mark. -/
lemma isPlain_of_isIdentifier {name : String} (h : isIdentifier name) : IsPlain name := by
  unfold isIdentifier at h
  unfold IsPlain
  split at h
  · exact absurd h Bool.false_ne_true
  · next c rest hname =>
    rw [hname]
    intro hmem
    simp only [Bool.and_eq_true, List.all_eq_true] at h
    cases List.mem_cons.1 hmem with
    | inl hc =>
      subst hc
      exact absurd h.1 (by decide)
    | inr hrest => exact absurd (h.2 '?' hrest) (by decide)

/-! ## Expressions -/

/-- A column of the primary table, named by an identifier. -/
def ColumnRef.IsPrimary (column : ColumnRef) : Prop :=
  column.table = 0 ∧ isIdentifier column.name

namespace Predicate

/-- A condition on columns of the primary table that is well grouped. -/
structure IsPrimary (p : Predicate) : Prop where
  /-- The columns are columns of the primary table. -/
  columns : ∀ c ∈ p.columns, c.IsPrimary
  /-- Every group has two members at least. -/
  grouped : p.WellGrouped

/-- A group of two or more conditions is as good as its members. -/
lemma isPrimary_group {connective : Connective} {members : List Predicate} :
    (group connective members).IsPrimary ↔
      2 ≤ members.length ∧ ∀ m ∈ members, m.IsPrimary := by
  constructor
  · rintro ⟨hcolumns, hlength, hgrouped⟩
    rw [Predicate.columns, memberColumns_eq_flatMap] at hcolumns
    refine ⟨hlength, ?_⟩
    intro m hm
    have hmember : ∀ c ∈ m.columns, c.IsPrimary := by
      intro c hc
      exact hcolumns c (List.mem_flatMap.2 ⟨m, hm, hc⟩)
    exact ⟨hmember, membersWellGrouped_iff.1 hgrouped m hm⟩
  · rintro ⟨hlength, hmembers⟩
    have hgrouped : ∀ m ∈ members, m.WellGrouped := by
      intro m hm
      exact (hmembers m hm).grouped
    refine ⟨?_, hlength, membersWellGrouped_iff.2 hgrouped⟩
    rw [Predicate.columns, memberColumns_eq_flatMap]
    intro c hc
    obtain ⟨m, hm, hc⟩ := List.mem_flatMap.1 hc
    exact (hmembers m hm).columns c hc

namespace IsPrimary

variable {p q : Predicate}

/-- Two conditions chained are as good as both. -/
lemma combine (connective : Connective) (hp : p.IsPrimary) (hq : q.IsPrimary) :
    (p.combine connective q).IsPrimary := by
  have hpair : (group connective [p, q]).IsPrimary :=
    isPrimary_group.2 ⟨by simp, by simp [hp, hq]⟩
  cases p with
  | comparison leaf => exact hpair
  | group kind members =>
    obtain ⟨hlength, hmembers⟩ := isPrimary_group.1 hp
    simp only [Predicate.combine]
    split
    · refine isPrimary_group.2 ⟨?_, ?_⟩
      · rw [List.length_append]
        omega
      · exact List.forall_mem_append.2 ⟨hmembers, by simp [hq]⟩
    · exact hpair

/-- A filter narrowed by a condition is as good as both. -/
lemma narrow {filter : Option Predicate} (hfilter : ∀ p ∈ filter, p.IsPrimary)
    (hp : p.IsPrimary) : (Predicate.narrow filter p).IsPrimary := by
  cases filter with
  | none => exact hp
  | some existing => exact (hfilter existing rfl).combine .and hp

/-- A condition on the primary table has no fault where a table is bound. -/
lemma fault?_sites (hp : p.IsPrimary) {ctx : Context} (hbound : ctx.bound = 1) :
    Site.fault? (p.sites ctx) = none := by
  have hcolumns : ∀ c ∈ p.columns, c.table < ctx.bound := by
    intro c hc
    have htable : c.table = 0 := (hp.columns c hc).1
    omega
  exact (fault?_sites_eq_none_iff ctx p).2 ⟨hcolumns, hp.grouped⟩

/-- A condition on the primary table has plain names. -/
lemma isPlain_names (hp : p.IsPrimary) : ∀ name ∈ p.names, IsPlain name := by
  intro name hname
  obtain ⟨c, hc, rfl⟩ := List.mem_map.1 hname
  exact isPlain_of_isIdentifier (hp.columns c hc).2

end IsPrimary

end Predicate

/-- A projection on columns of the primary table with proper output keys. -/
structure Projection.IsPrimary (projection : Projection) : Prop where
  /-- The columns are columns of the primary table. -/
  columns : ∀ c ∈ projection.columns, c.IsPrimary
  /-- The output keys can stand as aliases. -/
  labels : ∀ key ∈ projection.labels, isLabel key

/-- Every column of the primary table. -/
lemma Projection.isPrimary_wildcard : Projection.wildcard.IsPrimary :=
  ⟨fun _ hc => (nomatch hc), fun _ hkey => (nomatch hkey)⟩

/-! ## Filters -/

/-- A filter on the primary table has no fault where one table is bound. -/
lemma fault?_whereSites {filter : Option Predicate} (h : ∀ p ∈ filter, p.IsPrimary) {ctx : Context}
    (hbound : ctx.bound = 1) : Site.fault? (whereSites ctx filter) = none := by
  cases filter with
  | none => rfl
  | some p => exact (h p rfl).fault?_sites hbound

/-- A filter on the primary table has plain names. -/
lemma isPlain_whereNames {filter : Option Predicate} (h : ∀ p ∈ filter, p.IsPrimary) :
    ∀ name ∈ filter.toList.flatMap (·.names), IsPlain name := by
  intro name hname
  obtain ⟨p, hp, hname⟩ := List.mem_flatMap.1 hname
  exact (h p (Option.mem_toList.1 hp)).isPlain_names name hname

/-! ## Reads -/

namespace SelectStatement

/-- A read of the primary table. -/
structure IsPrimary (s : SelectStatement) : Prop where
  /-- The table is named by an identifier. -/
  table : ∀ name ∈ s.table, isIdentifier name
  /-- There are no joins. -/
  joins : s.joins = []
  /-- The condition is one on the primary table. -/
  filter : ∀ p ∈ s.where?, p.IsPrimary
  /-- The sort keys are columns of the primary table. -/
  order : ∀ key ∈ s.orderBy, key.column.IsPrimary
  /-- What is returned is made of columns of the primary table. -/
  projection : ∀ projection ∈ s.projection, projection.IsPrimary

/-- A read of one table mentions this table only. -/
lemma isPrimary_ofTable {table : String} (h : isIdentifier table) : (ofTable table).IsPrimary where
  table name hname := by
    obtain rfl : table = name := Option.some.inj hname
    exact h
  joins := rfl
  filter _ hp := nomatch hp
  order _ hkey := nomatch hkey
  projection projection hprojection := by
    obtain rfl : Projection.wildcard = projection := Option.some.inj hprojection
    exact Projection.isPrimary_wildcard

namespace IsPrimary

variable {s : SelectStatement} (h : s.IsPrimary)

include h

/-- A filter on the table keeps to it. -/
lemma addFilter {p : Predicate} (hp : p.IsPrimary) : (s.filter p).IsPrimary :=
  { h with
    filter := fun q hq => by
      obtain rfl : Predicate.narrow s.where? p = q := Option.some.inj hq
      exact hp.narrow h.filter }

/-- A sort key of the table keeps to it. -/
lemma addSortKey {key : SortKey} (hkey : key.column.IsPrimary) : (s.sortBy key).IsPrimary :=
  { h with order := List.forall_mem_append.2 ⟨h.order, by simpa using hkey⟩ }

/-- A projection of the table keeps to it. -/
lemma setProjection {projection : Projection} (hprojection : projection.IsPrimary) :
    (s.select projection).IsPrimary :=
  { h with
    projection := fun other hother => by
      obtain rfl : projection = other := Option.some.inj hother
      exact hprojection }

/-- A limit mentions no table. -/
lemma setLimit (count : Nat) : (s.limit count).IsPrimary := { h with }

/-- An offset mentions no table. -/
lemma setOffset (count : Nat) : (s.offset count).IsPrimary := { h with }

/-- One table is bound. -/
lemma bound_context : s.context.bound = 1 := by
  rw [context, h.joins]
  rfl

/-- A read of the primary table has no fault. -/
lemma fault?_rowSites : Site.fault? s.rowSites = none := by
  have hwhere := fault?_whereSites h.filter h.bound_context
  have hprojection : Site.fault? s.projectionSites = none := by
    apply Site.fault?_flatMap_eq_none.2
    intro projection hp
    have hprimary := h.projection projection (Option.mem_toList.1 hp)
    have hcolumns : ∀ c ∈ projection.columns, c.table < s.context.bound := by
      intro c hc
      have htable : c.table = 0 := (hprimary.columns c hc).1
      have hbound := h.bound_context
      omega
    exact (projection.fault?_sites_eq_none_iff s.context).2 ⟨hcolumns, hprimary.labels⟩
  have hwindow : Site.fault? s.windowSites = none := by
    apply Site.fault?_flatMap_eq_none.2
    intro key hkey
    have htable : key.column.table = 0 := (h.order key hkey).1
    have hbound := h.bound_context
    rw [SortKey.sites, ColumnRef.fault?_sites_eq_none]
    omega
  simp [rowSites, sourceSites, h.joins, joinOrderSites, hwhere, hprojection, hwindow]

/-- The names of the table and of the filter are plain. -/
lemma isPlain_sourceNames : ∀ name ∈ s.sourceNames, IsPlain name := by
  simp only [sourceNames, List.forall_mem_append]
  refine ⟨⟨?_, by simp [h.joins]⟩, isPlain_whereNames h.filter⟩
  intro name hname
  exact isPlain_of_isIdentifier (h.table name (Option.mem_toList.1 hname))

/-- The names of the sort keys are plain. -/
lemma isPlain_keyNames : ∀ name ∈ s.orderBy.map (·.column.name), IsPlain name := by
  intro name hname
  obtain ⟨key, hkey, rfl⟩ := List.mem_map.1 hname
  exact isPlain_of_isIdentifier (h.order key hkey).2

/-- A read of the primary table has plain names. -/
lemma isPlain_names : ∀ name ∈ s.names, IsPlain name := by
  simp only [names, List.forall_mem_append]
  refine ⟨⟨?_, h.isPlain_sourceNames⟩, h.isPlain_keyNames⟩
  intro name hname
  obtain ⟨projection, hp, hname⟩ := List.mem_flatMap.1 hname
  obtain ⟨c, hc, rfl⟩ := List.mem_map.1 hname
  have hprimary := h.projection projection (Option.mem_toList.1 hp)
  exact isPlain_of_isIdentifier (hprimary.columns c hc).2

/-- A count of the primary table has plain names. -/
lemma isPlain_countNames : ∀ name ∈ s.countNames, IsPlain name := by
  rw [countNames, List.forall_mem_append]
  refine ⟨h.isPlain_sourceNames, ?_⟩
  split
  · exact h.isPlain_keyNames
  · exact fun _ hname => absurd hname List.not_mem_nil

end IsPrimary

end SelectStatement

/-! ## Updates, deletions and insertions -/

/-- An update of the primary table. -/
structure UpdateStatement.IsPrimary (s : UpdateStatement) : Prop where
  /-- The table is named by an identifier. -/
  table : isIdentifier s.table
  /-- There are no joins. -/
  joins : s.joins = []
  /-- The assigned columns are columns of the primary table. -/
  assignments : ∀ a ∈ s.assignments, a.column.IsPrimary
  /-- The condition is one on the primary table. -/
  filter : ∀ p ∈ s.where?, p.IsPrimary

namespace UpdateStatement.IsPrimary

variable {s : UpdateStatement} (h : s.IsPrimary)

include h

/-- An update of the primary table has no fault. -/
lemma fault?_sites : Site.fault? s.sites = none := by
  have hbound : s.context.bound = 1 := by
    rw [context, h.joins]
    rfl
  have hassignments : Site.fault? (s.assignments.flatMap (·.sites s.context)) = none := by
    apply Site.fault?_flatMap_eq_none.2
    intro a ha
    have htable : a.column.table = 0 := (h.assignments a ha).1
    rw [Assignment.sites, Site.fault?_append_eq_none, ColumnRef.fault?_sites_eq_none]
    exact ⟨by omega, rfl⟩
  simp [sites, h.joins, joinOrderSites, hassignments, fault?_whereSites h.filter hbound]

/-- An update of the primary table has plain names. -/
lemma isPlain_names : ∀ name ∈ s.names, IsPlain name := by
  simp only [names, List.forall_mem_append, List.forall_mem_cons]
  refine ⟨⟨⟨isPlain_of_isIdentifier h.table, by simp [h.joins]⟩, ?_⟩, isPlain_whereNames h.filter⟩
  intro name hname
  obtain ⟨a, ha, rfl⟩ := List.mem_map.1 hname
  exact isPlain_of_isIdentifier (h.assignments a ha).2

end UpdateStatement.IsPrimary

/-- A deletion from a table. -/
structure DeleteStatement.IsPrimary (s : DeleteStatement) : Prop where
  /-- The table is named by an identifier. -/
  table : isIdentifier s.table
  /-- The condition is one on the table. -/
  filter : ∀ p ∈ s.where?, p.IsPrimary

/-- An insertion of complete rows. -/
structure InsertStatement.IsPrimary (s : InsertStatement) : Prop where
  /-- The table is named by an identifier. -/
  table : isIdentifier s.table
  /-- The columns are named by identifiers. -/
  columns : ∀ c ∈ s.columns, isIdentifier c
  /-- A row has one value for each column. -/
  rows : ∀ row ∈ s.rows, row.length = s.columns.length

/-- Complete rows have no fault. -/
lemma InsertStatement.fault?_rowAritySites {expected : Nat} {rows : List (List Value)}
    (h : ∀ row ∈ rows, row.length = expected) (position : Nat) :
    Site.fault? (rowAritySites expected position rows) = none := by
  induction rows generalizing position with
  | nil => rfl
  | cons row rest ih =>
    rw [List.forall_mem_cons] at h
    obtain ⟨hrow, hrest⟩ := h
    rw [rowAritySites, if_pos hrow]
    exact ih hrest (position + 1)

/-- An insertion of complete rows has no fault. -/
lemma InsertStatement.IsPrimary.fault?_sites {s : InsertStatement} (h : s.IsPrimary) :
    Site.fault? s.sites = none := by
  have hvalues : ∀ row : List Value, Site.fault? (row.map .value) = none := by
    intro row
    induction row with
    | nil => rfl
    | cons v row ih => exact ih
  rw [sites, Site.fault?_append_eq_none, Site.fault?_flatMap_eq_none]
  exact ⟨fault?_rowAritySites h.rows 0, fun row _ => hvalues row⟩

/-! ## Descriptions of any kind -/

namespace Description

/-- A description over the primary table. -/
def IsPrimary : Description → Prop
  | select s => s.IsPrimary
  | count s => s.IsPrimary
  | update s => s.IsPrimary
  | delete s => s.IsPrimary
  | insert s => s.IsPrimary

/-- **A description over the primary table** compiles, to one parameter for each question mark. -/
theorem IsPrimary.build_eq_ok {d : Description} (h : d.IsPrimary) :
    ∃ statement, d.build = .ok statement ∧ statement.placeholders = statement.params.size := by
  cases d with
  | select s => exact build_of_fault?_eq_none h.isPlain_names h.fault?_rowSites
  | count s =>
    exact build_of_fault?_eq_none h.isPlain_countNames
      (s.fault?_countSites_eq_none h.fault?_rowSites)
  | update s => exact build_of_fault?_eq_none h.isPlain_names h.fault?_sites
  | delete s =>
    have hnames : ∀ name ∈ s.names, IsPlain name :=
      List.forall_mem_cons.2 ⟨isPlain_of_isIdentifier h.table, isPlain_whereNames h.filter⟩
    exact build_of_fault?_eq_none hnames (fault?_whereSites h.filter rfl)
  | insert s =>
    have hcolumns : ∀ c ∈ s.columns, IsPlain c := by
      intro c hc
      exact isPlain_of_isIdentifier (h.columns c hc)
    have hnames : ∀ name ∈ s.names, IsPlain name :=
      List.forall_mem_cons.2 ⟨isPlain_of_isIdentifier h.table, hcolumns⟩
    exact build_of_fault?_eq_none hnames h.fault?_sites

end Description

end BoundSql
