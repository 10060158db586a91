import BoundSql.Proofs.Table.Answer

/-!
# The invariant of handles

A handle keeps its tables, its joins and the columns of its conditions in step, along every chain of
calls: the join at place `k` binds the table number `k + 1`, and a scope hands out the columns of
the table at place `i` with the number `i`. A condition that was built at one call stays valid when
later calls bind more tables, since these get higher numbers.

## Main definitions

* `BoundSql.Source.Aligned` — every join binds the table at the next place.
* `BoundSql.Scope.Covers` — a scope hands out the columns of tables with their numbers.
* `BoundSql.Call.InScope`, `BoundSql.Request.InScope` — a callback uses the columns it is handed.
* `BoundSql.Handle.Bounded` — conditions and sort keys refer to tables that were bound before.
* `BoundSql.Statement.Introduces` — the lines of a statement introduce the tables one by one.

## Main results

* `BoundSql.Handle.Reachable.aligned`, `BoundSql.Handle.Reachable.bounded` — the invariants.
* `BoundSql.Handle.Reachable.in_step` — what follows for scopes, answers and statements.
-/

namespace BoundSql

/-! ## Tables and joins -/

namespace Source

/-- Every join binds the table at the next place, by its name. -/
structure Aligned (source : Source) : Prop where
  /-- There is one table more than there are joins. -/
  length : source.tables.length = source.joins.length + 1
  /-- The join at place `k` binds the table at place `k + 1` at this number. -/
  joins : ∀ k join, source.joins[k]? = some join →
    ∃ table, source.tables[k + 1]? = some table ∧ join.other = ⟨k + 1, table.name⟩

/-- One table is aligned. -/
lemma aligned_single (table : TableDef) : Aligned { primary := table } :=
  ⟨rfl, nofun⟩

/-- The tables of a source and one more. -/
lemma tables_join (source : Source) (other : TableDef) (condition : Scope → Predicate) :
    (source.join other condition).tables = source.tables ++ [other] := rfl

/-- The joins of a source with one more table are those of the source and a last one. -/
lemma getElem?_joins_join {source : Source} {other : TableDef} {condition : Scope → Predicate}
    {k : Nat} {join : Join} (h : (source.join other condition).joins[k]? = some join) :
    source.joins[k]? = some join ∨ (k = source.joins.length ∧
      join = ⟨⟨source.tables.length, other.name⟩, condition (source.scopeWith other)⟩) := by
  rw [Source.join, List.getElem?_append] at h
  split at h
  · exact .inl h
  · next hk =>
    rw [List.getElem?_singleton] at h
    split at h
    · next hlast =>
      refine .inr ⟨?_, (Option.some.inj h).symm⟩
      omega
    · cases h

/-- A further join binds the next table. -/
lemma Aligned.join {source : Source} (h : source.Aligned) (other : TableDef)
    (condition : Scope → Predicate) : (source.join other condition).Aligned := by
  refine ⟨?_, ?_⟩
  · rw [tables_join, Source.join, List.length_append, List.length_append, h.length]
    rfl
  · intro k join hjoin
    rw [tables_join]
    rcases getElem?_joins_join hjoin with hold | ⟨rfl, rfl⟩
    · obtain ⟨table, htable, hother⟩ := h.joins k join hold
      refine ⟨table, ?_, hother⟩
      rw [List.getElem?_append_left (List.getElem?_eq_some_iff.1 htable).1]
      exact htable
    · refine ⟨other, ?_, by rw [h.length]⟩
      rw [← h.length, List.getElem?_concat_length]

/-- The joins of an aligned source are in order. -/
lemma Aligned.joinsInOrder {source : Source} (h : source.Aligned) : JoinsInOrder source.joins := by
  intro k join hjoin
  obtain ⟨table, -, hother⟩ := h.joins k join hjoin
  rw [hother]

end Source

/-! ## Scopes -/

/-- The columns that a scope hands out. -/
def Scope.columns (scope : Scope) : List ColumnRef :=
  scope.tables.flatMap fun table => table.columns.map Prod.snd

/-- The columns at a place of a scope are those of the table at this place, with its number. -/
lemma Scope.getElem?_ofDefs (tables : List TableDef) (i : Nat) :
    (Scope.ofDefs tables).tables[i]? = tables[i]?.map (Columns.ofDef i) := by
  rw [ofDefs, List.getElem?_map, List.getElem?_zipIdx, Option.map_map, Nat.zero_add]
  rfl

/-- A scope hands out the columns of each of the tables, bound at the number of the table, so that
they are written with its alias. -/
structure Scope.Covers (scope : Scope) (tables : List TableDef) : Prop where
  /-- There are as many tables in the scope. -/
  length : scope.tables.length = tables.length
  /-- The columns at a place are those of the table at this place. -/
  columns : ∀ (i : Nat) (columns : Columns), scope.tables[i]? = some columns →
    columns.index = i ∧ ∃ table : TableDef, tables[i]? = some table ∧ columns.table = table.name ∧
      (columns.columns.map fun (field, column) => (field, column.name)) = table.mapping
  /-- The columns at a place are written with the alias of this place. -/
  written : ∀ (i : Nat) (columns : Columns), scope.tables[i]? = some columns →
    ∀ entry ∈ columns.columns, entry.2.table = i ∧
      ∀ bound, entry.2.text (.qualified bound) = tableAlias i ++ "." ++ entry.2.name

/-- A scope of tables hands out their columns. -/
lemma Scope.covers_ofDefs (tables : List TableDef) : (ofDefs tables).Covers tables where
  length := by simp [ofDefs]
  columns i columns hcolumns := by
    rw [getElem?_ofDefs] at hcolumns
    obtain ⟨table, htable, rfl⟩ := Option.map_eq_some_iff.1 hcolumns
    exact ⟨rfl, table, htable, rfl, List.map_map.trans (List.map_id table.mapping)⟩
  written i columns hcolumns entry hentry := by
    rw [getElem?_ofDefs] at hcolumns
    obtain ⟨table, -, rfl⟩ := Option.map_eq_some_iff.1 hcolumns
    obtain ⟨field, -, rfl⟩ := List.mem_map.1 hentry
    exact ⟨rfl, fun _ => rfl⟩

/-- A column that a scope hands out is one of its tables. -/
lemma Scope.table_lt_of_mem_columns {tables : List TableDef} {c : ColumnRef}
    (hc : c ∈ (Scope.ofDefs tables).columns) : c.table < tables.length := by
  obtain ⟨columns, hcolumns, hc⟩ := List.mem_flatMap.1 hc
  obtain ⟨i, hi⟩ := List.mem_iff_getElem?.1 hcolumns
  obtain ⟨entry, hentry, rfl⟩ := List.mem_map.1 hc
  obtain ⟨-, table, htable, -⟩ := (covers_ofDefs tables).columns i columns hi
  rw [((covers_ofDefs tables).written i columns hi entry hentry).1]
  exact (List.getElem?_eq_some_iff.1 htable).1

/-- The callback of a call uses columns of the scope that it is handed. -/
def Call.InScope (source : Source) (call : Call) : Prop :=
  ∀ c ∈ call.columns source, c ∈ (call.scope source).columns

/-- The callback of a request uses columns of the scope that it is handed. -/
def Request.InScope (source : Source) (request : Request) : Prop :=
  ∀ c ∈ request.columns source.scope, c ∈ source.scope.columns

/-! ## Conditions and sort keys -/

namespace Handle

/-- Conditions and sort keys refer to tables that were bound when they were built. -/
structure Bounded (h : Handle) : Prop where
  /-- The condition of a join refers to tables up to the joined one. -/
  joins : ∀ k join, h.source.joins[k]? = some join → ∀ c ∈ join.condition.columns, c.table ≤ k + 1
  /-- The columns of the handle are columns of bound tables. -/
  columns : ∀ c ∈ h.columns, c.table < h.source.tables.length

/-- The columns of a condition narrowed by another one are those of both. -/
lemma mem_columns_narrow {filter : Option Predicate} {p : Predicate} {c : ColumnRef}
    (hc : c ∈ (Predicate.narrow filter p).columns) :
    c ∈ filter.toList.flatMap (·.columns) ∨ c ∈ p.columns := by
  cases filter with
  | none => exact .inr hc
  | some existing =>
    have hpair : c ∈ (Predicate.group .and [existing, p]).columns →
        c ∈ existing.columns ∨ c ∈ p.columns := by
      simp [Predicate.columns, Predicate.memberColumns]
    have hboth : c ∈ existing.columns ∨ c ∈ p.columns := by
      cases existing with
      | comparison leaf => exact hpair hc
      | group kind members =>
        simp only [Predicate.narrow, Predicate.and, Predicate.combine] at hc
        split at hc
        · rw [Predicate.columns, Predicate.memberColumns_eq_flatMap, List.flatMap_append,
            ← Predicate.memberColumns_eq_flatMap] at hc
          simpa [Predicate.columns] using hc
        · exact hpair hc
    simpa using hboth

/-- A joined handle refers to the columns of its joins. -/
lemma columns_joined (j : JoinedTables) :
    (joined j).columns = j.source.joins.flatMap (·.condition.columns) := by
  simp [columns, source, predicate?, keys]

/-- A filtered handle refers to the columns of its joins and of its condition. -/
lemma columns_filtered (f : FilteredTable) :
    (filtered f).columns =
      f.source.joins.flatMap (·.condition.columns) ++ f.predicate.columns := by
  simp [columns, source, predicate?, keys]

/-- A further sort key adds its column. -/
lemma columns_sorted (h : Handle) (key : SortKey) :
    (sorted ⟨h.source, h.predicate?, h.keys ++ [key]⟩).columns = h.columns ++ [key.column] := by
  rw [columns, columns, List.append_assoc _ _ [key.column]]
  exact congrArg _ List.map_append

section Bounded

variable {h : Handle} (hh : h.Bounded)

include hh

/-- A further table leaves the bounds of what is there. -/
lemma Bounded.join (haligned : h.source.Aligned) {other : Table} {condition : Scope → Predicate}
    (hcall : (Call.innerJoin other condition).InScope h.source) :
    (joined ⟨h.source.join other.definition condition⟩).Bounded := by
  have hnew : ∀ c ∈ (condition (h.source.scopeWith other.definition)).columns,
      c.table < h.source.tables.length + 1 := by
    intro c hc
    simpa using Scope.table_lt_of_mem_columns (hcall c hc)
  constructor
  · intro k join hjoin c hc
    rcases Source.getElem?_joins_join hjoin with hold | ⟨rfl, rfl⟩
    · exact hh.joins k join hold c hc
    · have hlt := hnew c hc
      rw [haligned.length] at hlt
      exact Nat.le_of_lt_succ hlt
  · intro c hc
    rw [columns_joined, Source.join, List.flatMap_append, List.flatMap_singleton,
      List.mem_append] at hc
    rw [source, Source.tables_join, List.length_append, List.length_singleton]
    rcases hc with hold | hlast
    · have hlt := hh.columns c (List.mem_append_left _ (List.mem_append_left _ hold))
      omega
    · exact hnew c hlast

/-- A narrower condition stays within the bound tables. -/
lemma Bounded.filter {predicate : Scope → Predicate}
    (hcall : (Call.filter predicate).InScope h.source) :
    (filtered ⟨h.source, .narrow h.predicate? (predicate h.source.scope)⟩).Bounded := by
  refine ⟨hh.joins, ?_⟩
  intro c hc
  rw [columns_filtered, List.mem_append] at hc
  rcases hc with hold | hnarrow
  · exact hh.columns c (List.mem_append_left _ (List.mem_append_left _ hold))
  · rcases mem_columns_narrow hnarrow with hold | hlast
    · exact hh.columns c (List.mem_append_left _ (List.mem_append_right _ hold))
    · exact Scope.table_lt_of_mem_columns (hcall c hlast)

/-- A further sort key stays within the bound tables. -/
lemma Bounded.sort {column : Scope → ColumnRef} {direction : Direction}
    (hcolumn : column h.source.scope ∈ h.source.scope.columns) :
    (sorted ⟨h.source, h.predicate?, h.keys ++ [h.source.sortKey column direction]⟩).Bounded := by
  refine ⟨hh.joins, ?_⟩
  intro c hc
  rw [columns_sorted, List.mem_append, List.mem_singleton] at hc
  rcases hc with hold | rfl
  · exact hh.columns c hold
  · exact Scope.table_lt_of_mem_columns hcolumn

end Bounded

/-- A call keeps the tables and joins in step. -/
lemma aligned_of_call? {h next : Handle} {call : Call} (hh : h.source.Aligned)
    (hnext : h.call? call = some next) : next.source.Aligned := by
  rcases call?_cases hnext with ⟨other, condition, -, rfl⟩ | ⟨predicate, -, rfl⟩ |
    ⟨column, direction, -, -, rfl⟩
  · exact hh.join other.definition condition
  · exact hh
  · exact hh

/-- A call in scope keeps conditions and sort keys within the bound tables. -/
lemma bounded_of_call? {h next : Handle} {call : Call} (hh : h.Bounded)
    (haligned : h.source.Aligned) (hcall : call.InScope h.source)
    (hnext : h.call? call = some next) : next.Bounded := by
  rcases call?_cases hnext with ⟨other, condition, rfl, rfl⟩ | ⟨predicate, rfl, rfl⟩ |
    ⟨column, direction, hscope, hcolumns, rfl⟩
  · exact hh.join haligned hcall
  · exact hh.filter hcall
  · have hcolumn : column h.source.scope ∈ (call.scope h.source).columns :=
      hcall _ (by simp [hcolumns])
    rw [hscope] at hcolumn
    exact hh.sort hcolumn

namespace Reachable

variable {allowed : Source → Call → Prop} {h : Handle}

/-- **Tables and joins are in step** after every chain of calls. -/
theorem aligned (hreach : h.Reachable allowed) : h.source.Aligned := by
  induction hreach with
  | start t => exact Source.aligned_single t.definition
  | step _ _ hnext ih => exact aligned_of_call? ih hnext

/-- **Conditions and sort keys refer to bound tables** after every chain of calls in scope. -/
theorem bounded (hreach : h.Reachable allowed)
    (hallowed : ∀ source call, allowed source call → call.InScope source) : h.Bounded := by
  induction hreach with
  | start t => exact ⟨nofun, nofun⟩
  | step hreach hcall hnext ih =>
    exact bounded_of_call? ih hreach.aligned (hallowed _ _ hcall) hnext

end Reachable

/-! ## Statements -/

section Answers

variable {h : Handle} {request : Request} {d : Description}

/-- The joins of a description are in order if those of the handle are. -/
lemma Describes.joinsInOrder (hd : h.Describes request d) (haligned : h.source.Aligned) :
    JoinsInOrder d.joins := by
  rcases hd.joins with hnone | hjoins
  · rw [hnone]
    exact nofun
  · rw [hjoins]
    exact haligned.joinsInOrder

/-- The columns of a description are bound if those of the handle and the request are. -/
lemma Describes.columns_bound (hd : h.Describes request d) (haligned : h.source.Aligned)
    (hbounded : h.Bounded) (hrequest : request.InScope h.source) :
    ∀ c ∈ d.columns, c.table < d.context.bound := by
  intro c hc
  rw [hd.bound c hc, ← haligned.length]
  rcases hd.columns c hc with hold | hnew | hlt
  · exact hbounded.columns c hold
  · exact Scope.table_lt_of_mem_columns (hrequest c hnew)
  · exact hlt

end Answers

end Handle

/-- The alias of a primary table. -/
lemma TableRef.access_zero (name : String) : access ⟨0, name⟩ = name ++ " t1" := by
  have haccess : access ⟨0, name⟩ = name ++ " " ++ tableAlias 0 := rfl
  have halias : " t1" = " " ++ tableAlias 0 := rfl
  rw [haccess, halias, String.append_assoc]

/-- The line of a read's primary table names the table and its alias. -/
lemma Clause.text_table (spell : Value → String) (ctx : Context) (name : String) :
    (table name).text spell ctx = "FROM" ++ " " ++ TableRef.access ⟨0, name⟩ := by
  rw [TableRef.access_zero, ← String.append_assoc]
  rfl

/-- The lines of a statement introduce the tables of a source, each with its name and its alias: the
first one behind `FROM` or `UPDATE` and every other one behind `INNER JOIN`, in the order of their
numbers. No other line introduces a table. -/
def Statement.Introduces (statement : Statement) (source : Source) : Prop :=
  let ctx := Context.qualified source.tables.length
  ∃ keyword ∈ ["FROM", "UPDATE"], ∃ front back : List Clause,
    (∀ clause ∈ front ++ back, clause.table? = none) ∧
    statement.sql = "\n".intercalate
      (front.map (·.text Value.placeholder ctx) ++
        [keyword ++ " " ++ TableRef.access ⟨0, source.primary.name⟩] ++
        (source.joins.map fun join => "INNER JOIN " ++ join.other.access ++ " ON " ++
          join.condition.text Value.placeholder ctx) ++
        back.map (·.text Value.placeholder ctx))

/-- A description that introduces the tables of a source compiles to a statement that does. -/
lemma Description.Introduces.statement {d : Description} {source : Source} {statement : Statement}
    (hd : d.Introduces source) (haligned : source.Aligned) (h : d.build = .ok statement) :
    statement.Introduces source := by
  obtain ⟨hcontext, first, hfirst, front, back, hclauses, hnone⟩ := hd
  obtain ⟨hsql, -⟩ := eq_of_build_eq_ok h
  rw [← haligned.length] at hcontext
  have hkeyword : ∃ keyword ∈ ["FROM", "UPDATE"],
      first.text Value.placeholder (.qualified source.tables.length) =
        keyword ++ " " ++ TableRef.access ⟨0, source.primary.name⟩ := by
    rcases List.mem_cons.1 hfirst with rfl | hupdate
    · exact ⟨"FROM", by simp, Clause.text_table _ _ _⟩
    · obtain rfl := List.mem_singleton.1 hupdate
      exact ⟨"UPDATE", by simp, rfl⟩
  obtain ⟨keyword, hmem, htext⟩ := hkeyword
  refine ⟨keyword, hmem, front, back, hnone, ?_⟩
  rw [hsql, hclauses, hcontext]
  simp only [List.map_append, List.map_cons, List.map_map, htext, List.append_assoc]
  rfl

/-! ## The invariant -/

/-- The error of a compilation, as the error of a request. -/
lemma mapError_compile_eq_error_iff {built : Except CompileError Statement} {e : CompileError} :
    built.mapError TableError.compile = .error (.compile e) ↔ built = .error e := by
  cases built with
  | ok statement => exact ⟨nofun, nofun⟩
  | error found => simp [Except.mapError]

namespace Handle

section Answers

variable {h : Handle} {request : Request} {result : Except TableError Statement}

/-- An answer that is an error of the compilation is that of a description of the handle's parts. -/
lemma exists_describes_of_answer?_eq_compile {e : CompileError}
    (hanswer : h.answer? request = some (.error (.compile e))) :
    ∃ d, h.Describes request d ∧ d.build = .error e := by
  rcases answer?_cases hanswer with ⟨refusal, heq, hne⟩ | ⟨-, statement, heq⟩ | ⟨d, hd, heq⟩
  · exact absurd (Except.error.inj heq).symm (hne e)
  · cases heq
  · exact ⟨d, hd, mapError_compile_eq_error_iff.1 heq.symm⟩

/-- No request fails for the order of the joins. -/
lemma answer?_ne_joinOrder (haligned : h.source.Aligned) (position expected found : Nat) :
    h.answer? request ≠ some (.error (.compile (.joinOrder position expected found))) := by
  intro hanswer
  obtain ⟨d, hd, hbuild⟩ := exists_describes_of_answer?_eq_compile hanswer
  exact Description.build_ne_joinOrder (hd.joinsInOrder haligned) position expected found hbuild

/-- No request in scope fails for a column of a table that is not bound. -/
lemma answer?_ne_unboundTable (haligned : h.source.Aligned) (hbounded : h.Bounded)
    (hrequest : request.InScope h.source) (index bound : Nat) :
    h.answer? request ≠ some (.error (.compile (.unboundTable index bound))) := by
  intro hanswer
  obtain ⟨d, hd, hbuild⟩ := exists_describes_of_answer?_eq_compile hanswer
  exact Description.build_ne_unboundTable (hd.joinsInOrder haligned)
    (hd.columns_bound haligned hbounded hrequest) index bound hbuild

/-- A read, a count or an update introduces the tables of the handle. -/
lemma introduces_of_answer? {statement : Statement} (haligned : h.source.Aligned)
    (haliased : request.isAliased) (hanswer : h.answer? request = some (.ok statement)) :
    statement.Introduces h.source := by
  rcases answer?_cases hanswer with ⟨refusal, heq, -⟩ | ⟨hbare, -⟩ | ⟨d, hd, heq⟩
  · cases heq
  · rw [hbare] at haliased
    cases haliased
  · exact (hd.tables haliased).statement haligned (mapError_eq_ok_iff.1 heq.symm)

end Answers

/-- **Tables, joins and scopes are in step** after every chain of calls, whatever the callbacks do:
the join at place `k` binds the table number `k + 1`, the scope hands out the columns of each table
with its number, no request fails for the order of the joins, and the statement of a read, a count
or an update introduces the tables one after the other under the aliases of their columns. If all
callbacks use columns of the scopes that they are handed, then the condition of each join speaks of
the tables up to the joined one, and no request fails for a table that is not bound.

**Proof sketch.** A call binds one more table at the next free number and leaves the other tables,
joins and columns alone. Every answer compiles a description that is made of the tables, the joins
and the columns of the handle, and a compilation fails for their order or their bounds only if these
are wrong. -/
theorem Reachable.in_step {allowed : Source → Call → Prop} {h : Handle}
    (hreach : h.Reachable allowed) :
    h.source.tables ≠ [] ∧ h.source.Aligned ∧ h.source.scope.Covers h.source.tables ∧
      (∀ request position expected found,
        h.answer? request ≠ some (.error (.compile (.joinOrder position expected found)))) ∧
      (∀ request statement, request.isAliased → h.answer? request = some (.ok statement) →
        statement.Introduces h.source) ∧
      ((∀ source call, allowed source call → call.InScope source) →
        (∀ k join, h.source.joins[k]? = some join →
          ∀ c ∈ join.condition.columns, c.table ≤ k + 1) ∧
        ∀ request index bound, request.InScope h.source →
          h.answer? request ≠ some (.error (.compile (.unboundTable index bound)))) := by
  have haligned := hreach.aligned
  refine ⟨List.cons_ne_nil _ _, haligned, Scope.covers_ofDefs _, ?_, ?_, ?_⟩
  · intro request
    exact answer?_ne_joinOrder haligned
  · intro request statement
    exact introduces_of_answer? haligned
  · intro hallowed
    have hbounded := hreach.bounded hallowed
    refine ⟨hbounded.joins, ?_⟩
    intro request index bound hrequest
    exact answer?_ne_unboundTable haligned hbounded hrequest index bound

/-- The nodes of a tree with their parents. -/
def nodes : Table := .ofMapping "node" [("id", "id"), ("parent", "parent_id")]

/-- The column of a field of the table at a number. -/
def fieldAt (index : Nat) (field : String) (scope : Scope) : ColumnRef :=
  (scope.column index field).toOption.getD ⟨0, field⟩

/-- The condition that joins a node to its parent. -/
def isChild (scope : Scope) : Predicate :=
  (fieldAt 0 "parent" scope).equals (.column (fieldAt 1 "id" scope))

/-- The nodes whose parents have no parent. -/
def children : FilteredTable :=
  (nodes.innerJoin nodes isChild).filter fun scope => (fieldAt 1 "parent" scope).isNull

/-- The statement that reads them. -/
def childrenStatement : Statement where
  sql := "SELECT *\nFROM node t1\nINNER JOIN node t2 ON t1.parent_id = t2.id\n" ++
    "WHERE t2.parent_id IS NULL"
  params := #[]

/-- Nodes joined with their parents: the read introduces both aliases, and a request in scope
reports none of them as unbound. -/
theorem Reachable.in_step_children :
    (filtered children).Reachable (fun source call => call.InScope source) ∧
      children.select.generate = .ok childrenStatement ∧
      childrenStatement.Introduces children.source ∧
      (∀ k join, children.source.joins[k]? = some join →
        ∀ c ∈ join.condition.columns, c.table ≤ k + 1) ∧
      Request.InScope children.source (.get (fieldAt 1 "id") []) ∧
      ∀ index bound, (children.get (fieldAt 1 "id")).generate ≠
        .error (.compile (.unboundTable index bound)) := by
  have hjoin : (Call.innerJoin nodes isChild).InScope nodes.source := by
    unfold Call.InScope
    decide
  have hfilter : (Call.filter fun scope => (fieldAt 1 "parent" scope).isNull).InScope
      children.source := by
    unfold Call.InScope
    decide
  have hrequest : Request.InScope children.source (.get (fieldAt 1 "id") []) := by
    unfold Request.InScope
    decide
  have hreach : (filtered children).Reachable (fun source call => call.InScope source) :=
    .step (.step (.start nodes) hjoin rfl) hfilter rfl
  have hstatement : children.select.generate = .ok childrenStatement := rfl
  obtain ⟨-, -, -, -, hintroduces, hscopes⟩ := Reachable.in_step hreach
  obtain ⟨hjoins, hbound⟩ := hscopes fun _ _ hcall => hcall
  refine ⟨hreach, hstatement, ?_, hjoins, hrequest, ?_⟩
  · exact hintroduces (.select []) _ rfl (congrArg some hstatement)
  · intro index bound herror
    exact hbound (.get (fieldAt 1 "id") []) index bound hrequest (congrArg some herror)

end Handle

end BoundSql
