import BoundSql.Proofs.Expr.Walk
import BoundSql.Proofs.Statement.Text

/-!
# Clauses of statements

A statement is a list of clauses, one on each line. A clause is kept as the part of the description
that it writes, so that questions about the lines of a statement are questions about the parts of
its description, whatever kind of statement it is.

## Main definitions

* `BoundSql.Clause` — the clauses of statements of every kind.
* `BoundSql.Clause.text`, `BoundSql.Clause.walk` — the line of a clause and the steps over it.
* `BoundSql.Description.clauses` — the clauses of a description, in order.
* `BoundSql.Description.walk` — the steps over a description behind the check of its joins.

## Main results

* `BoundSql.Description.texts_eq_clauses` — the lines of a description are those of its clauses.
* `BoundSql.Description.sites_eq_walk` — a compilation checks the order of the joins, and then
  passes the sites of the walk.
-/

namespace BoundSql

open Step (fault?_append fault?_flatMap_sites values_flatMap_sites)

/-! ## Clauses -/

/-- A line of a statement. -/
inductive Clause where
  /-- What is returned. -/
  | select (selection : Selection)
  /-- The number of rows is returned. -/
  | count
  /-- The number of rows of the read in parentheses is returned. -/
  | openCount
  /-- A constant is returned for each row. -/
  | selectOne
  /-- The end of the read in parentheses. -/
  | closeCount
  /-- The primary table of a read. -/
  | table (name : String)
  /-- A table joined in. -/
  | join (join : Join)
  /-- The condition that rows meet. -/
  | filter (predicate : Predicate)
  /-- The keys that rows are sorted by. -/
  | order (keys : List SortKey)
  /-- How many rows are returned at most. -/
  | limit (count : Nat)
  /-- How many rows are skipped. -/
  | offset (count : Nat)
  /-- The primary table of an update. -/
  | update (name : String)
  /-- The columns that are set, with their values. -/
  | set (assignments : List Assignment)
  /-- The table that rows are deleted from. -/
  | delete (name : String)
  /-- The table and the columns of an insertion. -/
  | insert (mode : InsertMode) (name : String) (columns : List String)
  /-- The rows of an insertion. -/
  | values (rows : List (List Value))

namespace Clause

/-- A clause with a list, unless the list is empty. -/
def ofList {α : Type} (clause : List α → Clause) (l : List α) : List Clause :=
  if l.isEmpty then [] else [clause l]

/-- A keyword and a list behind it. -/
def listText (keyword : String) (texts : List String) : String := s!"{keyword} {commaList texts}"

/-- The line of a clause, its values spelled as told. -/
def text (spell : Value → String) (ctx : Context) : Clause → String
  | select selection => s!"SELECT {selection.text ctx}"
  | count => "SELECT COUNT(*)"
  | openCount => "SELECT COUNT(*) FROM ("
  | selectOne => "SELECT 1"
  | closeCount => ") counted"
  | table name => s!"FROM {name} t1"
  | join j => j.text spell ctx
  | filter p => s!"WHERE {p.text spell ctx}"
  | order keys => listText "ORDER BY" (keys.map (·.text ctx))
  | limit n => s!"LIMIT {n}"
  | offset n => s!"OFFSET {n}"
  | update name => s!"UPDATE {TableRef.access ⟨0, name⟩}"
  | set assignments => listText "SET" (assignments.map (·.text spell ctx))
  | delete name => s!"DELETE FROM {name}"
  | insert mode name columns => s!"{mode.keyword} {name} ({commaList columns})"
  | values rows => listText "VALUES" (rows.map (InsertStatement.tuple spell))

/-- The steps over a clause. -/
def walk : Clause → List Step
  | select selection => selection.walk
  | join j => j.condition.walk
  | filter p => p.walk
  | order keys => keys.map fun key => .column key.column
  | set assignments => assignments.flatMap fun a => [.column a.column, .bind a.value]
  | values rows => rows.flatMap (·.map .bind)
  | _ => []

/-- The values bound in a clause. -/
def bound (clause : Clause) : List Value := clause.walk.filterMap Step.value?

/-- The columns that a clause refers to. -/
def columns : Clause → List ColumnRef
  | select selection => selection.columns
  | join j => j.condition.columns
  | filter p => p.columns
  | order keys => keys.map (·.column)
  | set assignments => assignments.map (·.column)
  | _ => []

/-- The conditions of a clause. -/
def conditions : Clause → List Predicate
  | join j => [j.condition]
  | filter p => [p]
  | _ => []

/-- The output keys of a clause. -/
def labels : Clause → List String
  | select selection => selection.labels
  | _ => []

/-- The table that a clause introduces. -/
def table? : Clause → Option TableRef
  | table name => some ⟨0, name⟩
  | update name => some ⟨0, name⟩
  | join j => some j.other
  | _ => none

/-- A walk over a clause looks at each of its columns. -/
lemma filterMap_column?_walk (clause : Clause) :
    clause.walk.filterMap Step.column? = clause.columns := by
  cases clause with
  | select selection => exact selection.filterMap_column?_walk
  | join j => exact j.condition.filterMap_column?_walk
  | filter p => exact p.filterMap_column?_walk
  | order keys => exact List.filterMap_map.trans (congrFun List.filterMap_eq_map' keys)
  | set assignments =>
    rw [walk, columns, List.filterMap_flatMap, List.map_eq_flatMap]
    rfl
  | values rows => simp [walk, columns, List.filterMap_flatMap, List.filterMap_map, Step.column?]
  | _ => rfl

section Bound

/-- What is selected binds no value. -/
@[simp] lemma bound_select (selection : Selection) : (select selection).bound = [] := by
  cases selection with
  | wildcard | column c => rfl
  | leaves l =>
    rw [bound, walk, Selection.walk, List.filterMap_flatMap]
    exact List.flatMap_eq_nil_iff.2 fun leaf _ => rfl

/-- Each assignment binds its value. -/
@[simp] lemma bound_set (assignments : List Assignment) :
    (set assignments).bound = assignments.map (·.value) := by
  rw [bound, walk, List.filterMap_flatMap, List.map_eq_flatMap]
  rfl

/-- The rows of an insertion bind their values row by row. -/
@[simp] lemma bound_values (rows : List (List Value)) : (values rows).bound = rows.flatten := by
  have hrow : ∀ row : List Value, (row.map Step.bind).filterMap Step.value? = row := by
    intro row
    rw [List.filterMap_map]
    exact List.filterMap_some
  simp only [bound, walk, List.filterMap_flatMap, hrow]
  exact List.flatMap_id

end Bound

end Clause

/-! ## Clauses of descriptions -/

/-- The clauses from the primary table to the condition. -/
def SelectStatement.sourceClauses (s : SelectStatement) : List Clause :=
  (s.table.map Clause.table).toList ++ s.joins.map .join ++ (s.where?.map Clause.filter).toList

/-- The clauses from the sort keys on. -/
def SelectStatement.windowClauses (s : SelectStatement) : List Clause :=
  Clause.ofList .order s.orderBy ++ (s.limit?.map Clause.limit).toList ++
    (s.offset?.map Clause.offset).toList

/-- The clauses of a read. -/
def SelectStatement.rowClauses (s : SelectStatement) : List Clause :=
  (s.projection.map fun projection => Clause.select projection.selection).toList ++
    s.sourceClauses ++ s.windowClauses

/-- The clauses of a count. -/
def SelectStatement.countClauses (s : SelectStatement) : List Clause :=
  if s.isWindowed then
    [.openCount, .selectOne] ++ s.sourceClauses ++ s.windowClauses ++ [.closeCount]
  else .count :: s.sourceClauses

/-- The clauses of an update. -/
def UpdateStatement.clauses (s : UpdateStatement) : List Clause :=
  .update s.table :: s.joins.map .join ++ Clause.ofList .set s.assignments ++
    (s.where?.map Clause.filter).toList

/-- The clauses of a deletion. -/
def DeleteStatement.clauses (s : DeleteStatement) : List Clause :=
  .delete s.table :: (s.where?.map Clause.filter).toList

/-- The clauses of an insertion. -/
def InsertStatement.clauses (s : InsertStatement) : List Clause :=
  .insert s.mode s.table s.columns :: Clause.ofList .values s.rows

/-! ### What the clauses contribute

A quantity that every clause contributes to, such as the columns or the values, is put together from
the parts of the description. -/

section Contributions

variable {β : Type} (f : Clause → List β)

/-- A clause that is left out when its list is empty contributes as an empty one would. -/
lemma Clause.flatMap_ofList {α : Type} {clause : List α → Clause} (h : f (clause []) = [])
    (l : List α) : (ofList clause l).flatMap f = f (clause l) := by
  cases l with
  | nil => rw [h]; rfl
  | cons x l => exact List.append_nil _

/-- A clause that may be left out contributes what its part does. -/
lemma Clause.flatMap_toList {α : Type} (clause : α → Clause) (part : Option α) :
    (part.map clause).toList.flatMap f = part.toList.flatMap fun x => f (clause x) := by
  cases part <;> rfl

namespace SelectStatement

variable (s : SelectStatement)

/-- What the clauses of a source contribute, part by part. -/
lemma flatMap_sourceClauses :
    s.sourceClauses.flatMap f =
      s.table.toList.flatMap (fun name => f (.table name)) ++
        s.joins.flatMap (fun j => f (.join j)) ++
        s.where?.toList.flatMap (fun p => f (.filter p)) := by
  rw [sourceClauses, List.flatMap_append, List.flatMap_append, Clause.flatMap_toList,
    Clause.flatMap_toList, List.flatMap_map]

/-- What the clauses of a window contribute, part by part. -/
lemma flatMap_windowClauses (horder : f (.order []) = []) :
    s.windowClauses.flatMap f =
      f (.order s.orderBy) ++ s.limit?.toList.flatMap (fun n => f (.limit n)) ++
        s.offset?.toList.flatMap (fun n => f (.offset n)) := by
  rw [windowClauses, List.flatMap_append, List.flatMap_append, Clause.flatMap_toList,
    Clause.flatMap_toList, Clause.flatMap_ofList f horder]

/-- What the clauses of a read contribute, part by part. -/
lemma flatMap_rowClauses :
    s.rowClauses.flatMap f =
      s.projection.toList.flatMap (fun p => f (.select p.selection)) ++
        s.sourceClauses.flatMap f ++ s.windowClauses.flatMap f := by
  rw [rowClauses, List.flatMap_append, List.flatMap_append, Clause.flatMap_toList]

end SelectStatement

/-- What the clauses of an update contribute, part by part. -/
lemma UpdateStatement.flatMap_clauses (hset : f (.set []) = []) (s : UpdateStatement) :
    s.clauses.flatMap f =
      f (.update s.table) ++ s.joins.flatMap (fun j => f (.join j)) ++ f (.set s.assignments) ++
        s.where?.toList.flatMap (fun p => f (.filter p)) := by
  rw [clauses, List.flatMap_append, List.flatMap_append, List.flatMap_cons, List.flatMap_map,
    Clause.flatMap_toList, Clause.flatMap_ofList f hset]

/-- What the clauses of a deletion contribute, part by part. -/
lemma DeleteStatement.flatMap_clauses (s : DeleteStatement) :
    s.clauses.flatMap f =
      f (.delete s.table) ++ s.where?.toList.flatMap (fun p => f (.filter p)) := by
  rw [clauses, List.flatMap_cons, Clause.flatMap_toList]

/-- What the clauses of an insertion contribute, part by part. -/
lemma InsertStatement.flatMap_clauses (hvalues : f (.values []) = []) (s : InsertStatement) :
    s.clauses.flatMap f = f (.insert s.mode s.table s.columns) ++ f (.values s.rows) := by
  rw [clauses, List.flatMap_cons, Clause.flatMap_ofList f hvalues]

end Contributions

namespace Description

/-- The clauses of a description. -/
def clauses : Description → List Clause
  | select s => s.rowClauses
  | count s => s.countClauses
  | update s => s.clauses
  | delete s => s.clauses
  | insert s => s.clauses

/-- How the columns of a description are written. -/
def context : Description → Context
  | select s => s.context
  | count s => s.context
  | update s => s.context
  | delete _ => .bare
  | insert _ => .bare

/-- The joins of a description. -/
def joins : Description → List Join
  | select s => s.joins
  | count s => s.joins
  | update s => s.joins
  | delete _ => []
  | insert _ => []

/-- The rows of an insertion are counted in front of all else. -/
def widths : Description → List Step
  | insert s => s.rows.zipIdx.map fun (row, number) => .width number s.columns.length row.length
  | _ => []

/-- The steps over a description. -/
def walk (d : Description) : List Step := d.widths ++ d.clauses.flatMap (·.walk)

/-- The values bound in a description, in order. -/
def bound (d : Description) : List Value := d.clauses.flatMap (·.bound)

/-- The columns that a description refers to. -/
def columns (d : Description) : List ColumnRef := d.clauses.flatMap (·.columns)

/-- The conditions of a description: those of its joins and the one that rows meet. -/
def conditions (d : Description) : List Predicate := d.clauses.flatMap (·.conditions)

/-- The output keys of a description. -/
def labels (d : Description) : List String := d.clauses.flatMap (·.labels)

end Description

/-! ### Columns -/

namespace SelectStatement

variable (s : SelectStatement)

/-- The columns of a source are those of its joins and of its filter. -/
lemma columns_sourceClauses :
    s.sourceClauses.flatMap (·.columns) =
      s.joins.flatMap (·.condition.columns) ++ s.where?.toList.flatMap (·.columns) := by
  simp [s.flatMap_sourceClauses, Clause.columns]

/-- The columns of a window are those of its sort keys. -/
lemma columns_windowClauses :
    s.windowClauses.flatMap (·.columns) = s.orderBy.map (·.column) := by
  rw [s.flatMap_windowClauses _ rfl]
  simp [Clause.columns]

end SelectStatement

namespace Description

variable (s : SelectStatement) (u : UpdateStatement)

/-- The columns of a read. -/
lemma columns_select :
    (select s).columns = s.projection.toList.flatMap (·.columns) ++
      (s.joins.flatMap (·.condition.columns) ++ s.where?.toList.flatMap (·.columns)) ++
      s.orderBy.map (·.column) := by
  rw [columns, clauses, s.flatMap_rowClauses, s.columns_sourceClauses, s.columns_windowClauses]
  simp [Clause.columns, Projection.columns_selection]

/-- The columns of a count are those of the read but for the projection, and it may leave out the
sort keys. -/
lemma columns_count_subset :
    (count s).columns ⊆ s.joins.flatMap (·.condition.columns) ++
      s.where?.toList.flatMap (·.columns) ++ s.orderBy.map (·.column) := by
  rw [columns, clauses, ← s.columns_sourceClauses, ← s.columns_windowClauses,
    SelectStatement.countClauses]
  split
  · simp [Clause.columns]
  · simp [Clause.columns]

/-- The columns of an update. -/
lemma columns_update :
    (update u).columns = u.joins.flatMap (·.condition.columns) ++ u.assignments.map (·.column) ++
      u.where?.toList.flatMap (·.columns) := by
  rw [columns, clauses, u.flatMap_clauses _ rfl]
  simp [Clause.columns]

end Description

/-! ## Lines -/

section Lines

variable (spell : Value → String)

/-- A clause that lists parts behind a keyword is one line, or none. -/
lemma Clause.map_text_ofList {α : Type} (ctx : Context) {clause : List α → Clause}
    {keyword : String} {f : α → String}
    (h : ∀ l, (clause l).text spell ctx = listText keyword (l.map f)) (l : List α) :
    (Clause.ofList clause l).map (·.text spell ctx) = listTexts keyword (l.map f) := by
  cases l with
  | nil => rfl
  | cons x l => exact congrArg (fun line => [line]) (h (x :: l))

/-- The line of a filter is the text of its clause. -/
lemma whereTexts_eq_clauses (ctx : Context) (filter : Option Predicate) :
    whereTexts spell ctx filter =
      (filter.map Clause.filter).toList.map (·.text spell ctx) := by
  cases filter <;> rfl

namespace SelectStatement

variable (s : SelectStatement)

/-- The lines of a source are the texts of its clauses. -/
lemma sourceTexts_eq_clauses :
    s.sourceTexts spell = s.sourceClauses.map (·.text spell s.context) := by
  rw [sourceTexts, sourceClauses, List.map_append, List.map_append, List.map_map,
    whereTexts_eq_clauses]
  cases s.table <;> rfl

/-- The lines of a window are the texts of its clauses. -/
lemma windowTexts_eq_clauses :
    s.windowTexts = s.windowClauses.map (·.text spell s.context) := by
  rw [windowTexts, windowClauses, List.map_append, List.map_append,
    Clause.map_text_ofList spell s.context fun _ => rfl]
  cases s.limit? <;> cases s.offset? <;> rfl

/-- The line of a projection is the text of its clause. -/
lemma projectionTexts_eq_clauses :
    s.projectionTexts =
      (s.projection.map fun projection => Clause.select projection.selection).toList.map
        (·.text spell s.context) := by
  rw [projectionTexts]
  cases s.projection with
  | none => rfl
  | some projection => simp [Clause.text, projection.text_selection]

end SelectStatement

/-- **The lines of a description** are those of its clauses. -/
theorem Description.texts_eq_clauses (d : Description) :
    d.texts spell = d.clauses.map (·.text spell d.context) := by
  cases d with
  | select s =>
    rw [texts, clauses, SelectStatement.rowTexts, SelectStatement.rowClauses, List.map_append,
      List.map_append, s.projectionTexts_eq_clauses spell, s.sourceTexts_eq_clauses,
      s.windowTexts_eq_clauses spell]
    rfl
  | count s =>
    rw [texts, clauses, SelectStatement.countTexts, SelectStatement.countClauses,
      s.sourceTexts_eq_clauses, s.windowTexts_eq_clauses spell]
    split
    · simp only [List.map_append]
      rfl
    · rfl
  | update s =>
    rw [texts, clauses, UpdateStatement.texts, UpdateStatement.clauses, whereTexts_eq_clauses,
      List.map_append, List.map_append, List.map_cons, List.map_map, context,
      Clause.map_text_ofList spell s.context fun _ => rfl]
    rfl
  | delete s =>
    rw [texts, clauses, DeleteStatement.texts, DeleteStatement.clauses, whereTexts_eq_clauses]
    rfl
  | insert s =>
    rw [texts, clauses, InsertStatement.texts, InsertStatement.clauses, List.map_cons,
      Clause.map_text_ofList spell _ fun _ => rfl]
    rfl

end Lines

/-! ## Sites -/

section Sites

/-- The sites of a clause. -/
def Clause.sites (tables : Nat) (clause : Clause) : List Site :=
  clause.walk.flatMap (Step.sites tables)

/-- The sites of a clause with a list are those of the members of the list. -/
lemma Clause.flatMap_sites_ofList {α : Type} {tables : Nat} {clause : List α → Clause}
    {f : α → List Step} (h : ∀ l, (clause l).walk = l.flatMap f) (l : List α) :
    (Clause.ofList clause l).flatMap (·.sites tables) =
      l.flatMap fun x => (f x).flatMap (Step.sites tables) := by
  cases l with
  | nil => rfl
  | cons x l =>
    rw [ofList, List.isEmpty_cons, if_neg Bool.false_ne_true, List.flatMap_singleton, sites, h,
      List.flatMap_assoc]

/-- The sites of joins are those of their clauses. -/
lemma joinSites_eq_clauses (ctx : Context) (joins : List Join) :
    joins.flatMap (·.sites ctx) = (joins.map Clause.join).flatMap (·.sites ctx.bound) := by
  rw [List.flatMap_map]
  exact List.flatMap_congr fun join _ => join.condition.sites_eq_walk ctx

/-- The sites of a filter are those of its clause. -/
lemma whereSites_eq_clauses (ctx : Context) (filter : Option Predicate) :
    whereSites ctx filter =
      (filter.map Clause.filter).toList.flatMap (·.sites ctx.bound) := by
  cases filter with
  | none => rfl
  | some p => simpa [whereSites, Clause.sites, Clause.walk] using p.sites_eq_walk ctx

namespace SelectStatement

variable (s : SelectStatement)

/-- The sites of a projection are those of its clause. -/
lemma projectionSites_eq_clauses :
    s.projectionSites =
      (s.projection.map fun projection => Clause.select projection.selection).toList.flatMap
        (·.sites s.context.bound) := by
  rw [projectionSites]
  cases s.projection with
  | none => rfl
  | some projection => simpa [Clause.sites, Clause.walk] using projection.sites_eq_walk s.context

/-- The sites of a source are those of its clauses. -/
lemma sourceSites_eq_clauses :
    s.sourceSites = s.sourceClauses.flatMap (·.sites s.context.bound) := by
  have htable : (s.table.map Clause.table).toList.flatMap (·.sites s.context.bound) = [] := by
    cases s.table <;> rfl
  rw [sourceSites, sourceClauses, joinSites_eq_clauses, whereSites_eq_clauses, List.flatMap_append,
    List.flatMap_append, htable, List.nil_append]

/-- The sites of a window are those of its clauses. -/
lemma windowSites_eq_clauses :
    s.windowSites = s.windowClauses.flatMap (·.sites s.context.bound) := by
  have hlimit : (s.limit?.map Clause.limit).toList.flatMap (·.sites s.context.bound) = [] := by
    cases s.limit? <;> rfl
  have hoffset : (s.offset?.map Clause.offset).toList.flatMap (·.sites s.context.bound) = [] := by
    cases s.offset? <;> rfl
  have horder : ∀ l : List SortKey,
      (Clause.order l).walk = l.flatMap fun key => [.column key.column] :=
    fun l => List.map_eq_flatMap
  rw [windowSites, windowClauses, List.flatMap_append, List.flatMap_append, hlimit, hoffset,
    List.append_nil, List.append_nil, Clause.flatMap_sites_ofList horder]
  exact List.flatMap_congr fun key _ => key.column.sites_eq_walk s.context

end SelectStatement

/-- The sites of assignments are those of their clause. -/
lemma assignmentSites_eq_clauses (ctx : Context) (assignments : List Assignment) :
    assignments.flatMap (·.sites ctx) =
      (Clause.ofList .set assignments).flatMap (·.sites ctx.bound) := by
  rw [Clause.flatMap_sites_ofList fun _ => rfl]
  refine List.flatMap_congr fun a _ => ?_
  rw [Assignment.sites, a.column.sites_eq_walk ctx, List.flatMap_singleton, List.flatMap_cons,
    List.flatMap_singleton]
  rfl

/-- The check of a row is a step. -/
lemma rowAritySites_eq_widths (expected row : Nat) (rows : List (List Value)) :
    InsertStatement.rowAritySites expected row rows =
      ((rows.zipIdx row).map fun (values, number) =>
        Step.width number expected values.length).flatMap (Step.sites 1) := by
  induction rows generalizing row with
  | nil => rfl
  | cons values rest ih =>
    rw [InsertStatement.rowAritySites, List.zipIdx_cons, List.map_cons, List.flatMap_cons, ih]
    simp only [Step.sites, Step.value?, Step.fault?]
    split <;> rfl

/-- **The sites of a description** are the faults in the order of its joins and, behind them, the
sites of its walk. -/
theorem Description.sites_eq_walk (d : Description) :
    d.sites = joinOrderSites 0 d.joins ++ d.walk.flatMap (Step.sites d.context.bound) := by
  have hclauses : d.walk.flatMap (Step.sites d.context.bound) =
      d.widths.flatMap (Step.sites d.context.bound) ++
        d.clauses.flatMap (·.sites d.context.bound) := by
    rw [walk, List.flatMap_append, List.flatMap_assoc]
    rfl
  rw [hclauses]
  cases d with
  | select s =>
    rw [sites, SelectStatement.rowSites, s.projectionSites_eq_clauses, s.sourceSites_eq_clauses,
      s.windowSites_eq_clauses, clauses, SelectStatement.rowClauses, List.flatMap_append,
      List.flatMap_append, List.append_assoc]
    rfl
  | count s =>
    rw [sites, SelectStatement.countSites, s.sourceSites_eq_clauses, s.windowSites_eq_clauses,
      clauses, SelectStatement.countClauses]
    split
    · simp only [List.flatMap_append, List.append_assoc]
      simp [Clause.sites, Clause.walk, widths, joins, context]
    · simp [Clause.sites, Clause.walk, widths, joins, context]
  | update s =>
    rw [sites, UpdateStatement.sites, joinSites_eq_clauses, assignmentSites_eq_clauses,
      whereSites_eq_clauses, clauses, UpdateStatement.clauses, List.flatMap_append,
      List.flatMap_append, List.flatMap_cons, List.append_assoc]
    rfl
  | delete s =>
    rw [sites, DeleteStatement.sites, whereSites_eq_clauses]
    rfl
  | insert s =>
    have hrows : s.rows.flatMap (·.map .value) =
        (Clause.ofList .values s.rows).flatMap (·.sites 1) := by
      rw [Clause.flatMap_sites_ofList fun _ => rfl]
      refine List.flatMap_congr fun row _ => ?_
      rw [List.flatMap_map, List.map_eq_flatMap]
      rfl
    rw [sites, InsertStatement.sites, rowAritySites_eq_widths, hrows]
    rfl

end Sites

namespace Description

variable (d : Description)

/-- The first fault of a description: in the order of its joins, else on its walk. -/
lemma fault?_sites :
    Site.fault? d.sites =
      (Site.fault? (joinOrderSites 0 d.joins)).or
        (d.walk.findSome? (Step.fault? d.context.bound)) := by
  rw [d.sites_eq_walk, fault?_append, fault?_flatMap_sites]

/-- The values of a description are bound in its clauses. -/
lemma values_sites : Site.values d.sites = d.bound := by
  have hwidths : d.widths.filterMap Step.value? = [] := by
    cases d with
    | insert s => simp [widths, List.filterMap_map, Step.value?]
    | _ => rfl
  rw [d.sites_eq_walk, Site.values_append, values_joinOrderSites, values_flatMap_sites, walk,
    List.filterMap_append, hwidths, List.filterMap_flatMap]
  rfl

/-- **A compilation that succeeds** yields the lines of the clauses and the values bound in them. -/
theorem eq_of_build_eq_ok {d : Description} {statement : Statement}
    (h : d.build = .ok statement) :
    statement.sql = "\n".intercalate (d.clauses.map (·.text Value.placeholder d.context)) ∧
      statement.params = d.bound.toArray := by
  obtain ⟨-, rfl⟩ := build_eq_ok_iff.1 h
  rw [text, texts_eq_clauses, values_sites]
  exact ⟨rfl, rfl⟩

end Description

end BoundSql
