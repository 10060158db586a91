import BoundSql.Proofs.Expr.Chained
import BoundSql.Proofs.Table.Invariant

/-!
# Narrowing conditions

Filtering twice narrows a condition by another one. Whether the outcome compiles can be told from
the pieces: each has to compile on its own, except that the first one may be an `AND` group of fewer
than two members, which grows with every piece behind it. What else is in a description, or in a
request to a filtered handle, plays no part in this.

## Main definitions

* `BoundSql.Description.filter` — a description under one condition more.
* `BoundSql.Handle.TakesCondition` — answers that compile one description under any condition.
* `BoundSql.Predicate.PiecesCompile` — the pieces of a condition compile.

## Main results

* `BoundSql.Description.exists_build_filter_iff` — a description compiles under a condition exactly
  when both do.
* `BoundSql.Handle.exists_answer?_filtered_iff` — the same for the answer to a request.
* `BoundSql.Predicate.compiles_narrowed` — when conditions compile that were narrowed.
-/

namespace BoundSql

/-! ## Descriptions under a condition -/

namespace Description

/-- Adds a condition to those that rows meet already. An insertion has none. -/
def filter (d : Description) (p : Predicate) : Description :=
  match d with
  | select s => select (s.filter p)
  | count s => count (s.filter p)
  | update s => update (s.filter p)
  | delete s => delete (s.filter p)
  | insert s => insert s

/-- A description of rows that may have to meet a condition, and meet none yet. -/
def Unfiltered : Description → Prop
  | select s => s.where? = none
  | count s => s.where? = none
  | update s => s.where? = none
  | delete s => s.where? = none
  | insert _ => False

variable {d : Description} (h : d.Unfiltered)

include h

/-- Two conditions are one that is narrowed. -/
lemma filter_filter (p q : Predicate) : (d.filter p).filter q = d.filter (p.and q) := by
  cases d with
  | select s | count s =>
    have hwhere : s.where? = none := h
    simp [filter, SelectStatement.filter, Predicate.narrow, hwhere]
  | update s =>
    have hwhere : s.where? = none := h
    simp [filter, UpdateStatement.filter, Predicate.narrow, hwhere]
  | delete s =>
    have hwhere : s.where? = none := h
    simp [filter, DeleteStatement.filter, Predicate.narrow, hwhere]
  | insert s => exact h.elim

/-- Any number of conditions are one that is narrowed again and again. -/
lemma foldl_filter (p : Predicate) (qs : List Predicate) :
    qs.foldl filter (d.filter p) = d.filter (qs.foldl Predicate.and p) := by
  induction qs generalizing p with
  | nil => rfl
  | cons q rest ih => rw [List.foldl_cons, List.foldl_cons, filter_filter h, ih]

/-- A condition stands with its sites between those of a description. -/
lemma exists_sites_filter :
    ∃ front back, d.sites = front ++ back ∧
      ∀ p : Predicate, (d.filter p).sites = front ++ p.sites d.context ++ back := by
  cases d with
  | select s =>
    have hwhere : s.where? = none := h
    refine ⟨joinOrderSites 0 s.joins ++ s.projectionSites ++ s.joins.flatMap (·.sites s.context),
      s.windowSites, ?_, fun p => ?_⟩
    · simp [sites, SelectStatement.rowSites, SelectStatement.sourceSites, whereSites, hwhere]
    · have hsites : (s.filter p).rowSites = joinOrderSites 0 s.joins ++ (s.projectionSites ++
          (s.joins.flatMap (·.sites s.context) ++
            whereSites s.context (some (.narrow s.where? p)) ++ s.windowSites)) := rfl
      simp [filter, sites, context, hsites, whereSites, hwhere, Predicate.narrow]
  | count s =>
    have hwhere : s.where? = none := h
    refine ⟨joinOrderSites 0 s.joins ++ s.joins.flatMap (·.sites s.context),
      if s.isWindowed then s.windowSites else [], ?_, fun p => ?_⟩
    · simp [sites, SelectStatement.countSites, SelectStatement.sourceSites, whereSites, hwhere]
    · have hsites : (s.filter p).countSites = joinOrderSites 0 s.joins ++
          (s.joins.flatMap (·.sites s.context) ++
            whereSites s.context (some (.narrow s.where? p)) ++
              if s.isWindowed then s.windowSites else []) := rfl
      simp [filter, sites, context, hsites, whereSites, hwhere, Predicate.narrow]
  | update s =>
    have hwhere : s.where? = none := h
    refine ⟨joinOrderSites 0 s.joins ++ s.joins.flatMap (·.sites s.context) ++
      s.assignments.flatMap (·.sites s.context), [], ?_, fun p => ?_⟩
    · simp [sites, UpdateStatement.sites, whereSites, hwhere]
    · have hsites : (s.filter p).sites = joinOrderSites 0 s.joins ++
          (s.joins.flatMap (·.sites s.context) ++ (s.assignments.flatMap (·.sites s.context) ++
            whereSites s.context (some (.narrow s.where? p)))) := rfl
      simp [filter, sites, context, hsites, whereSites, hwhere, Predicate.narrow]
  | delete s =>
    have hwhere : s.where? = none := h
    refine ⟨[], [], ?_, fun p => ?_⟩
    · simp [sites, DeleteStatement.sites, whereSites, hwhere]
    · simp [filter, sites, context, DeleteStatement.sites, DeleteStatement.filter, whereSites,
        hwhere, Predicate.narrow]
  | insert s => exact h.elim

/-- **A description under a condition compiles** exactly when it does without, and the condition
does on its own. -/
theorem exists_build_filter_iff (p : Predicate) :
    (∃ statement, (d.filter p).build = .ok statement) ↔
      (∃ statement, d.build = .ok statement) ∧ p.Compiles d.context := by
  obtain ⟨front, back, hwithout, hwith⟩ := exists_sites_filter h
  simp only [build_eq_ok_iff, exists_and_left, exists_eq, and_true, hwithout, hwith p,
    Site.fault?_append_eq_none, Predicate.compiles_iff]
  exact and_right_comm

end Description

/-! ## Requests to filtered handles -/

namespace Query

/-- A query for the rows that meet a condition as well. -/
def filter (query : Query) (p : Predicate) : Query :=
  { query with statement := query.statement.filter p }

/-- Filtering a query filters its description. -/
lemma description_filter (query : Query) (p : Predicate) :
    (query.filter p).description = query.description.filter p := by
  unfold description filter
  split <;> rfl

/-- A part of the rows under a condition is asked for in any order. -/
lemma foldl_window_filter (windows : List Window) (query : Query) (p : Predicate) :
    windows.foldl window (query.filter p) = (windows.foldl window query).filter p := by
  induction windows generalizing query with
  | nil => rfl
  | cons w rest ih =>
    have hwindow : (query.filter p).window w = (query.window w).filter p := by cases w <;> rfl
    rw [List.foldl_cons, List.foldl_cons, hwindow, ih]

end Query

namespace Handle

/-- Answers take a condition: whatever it is, none of them is a statement, or they compile one and
the same description of the tables of a source under the condition. -/
def TakesCondition (source : Source) (answer : Predicate → Option (Except TableError Statement)) :
    Prop :=
  (∀ p statement, answer p ≠ some (.ok statement)) ∨
    ∃ d : Description, d.Unfiltered ∧ d.context.bound = source.joins.length + 1 ∧
      ∀ p, answer p = some ((d.filter p).build.mapError .compile)

variable (source : Source)

/-- A filtered handle makes the queries of the tables without a condition, under its condition. -/
lemma query?_filtered (p : Predicate) (request : Request) :
    (filtered ⟨source, p⟩).query? request =
      ((joined ⟨source⟩).query? request).map (·.filter p) := by
  cases request with
  | select windows =>
    exact congrArg some (Query.foldl_window_filter windows (JoinedTables.select ⟨source⟩) p)
  | map mapping windows =>
    exact congrArg some (Query.foldl_window_filter windows (JoinedTables.map ⟨source⟩ mapping) p)
  | get column windows =>
    exact congrArg some (Query.foldl_window_filter windows (JoinedTables.get ⟨source⟩ column) p)
  | count windows =>
    exact congrArg some (Query.foldl_window_filter windows (JoinedTables.count ⟨source⟩) p)
  | updateTable _ _ | delete | insertBatch _ | replaceBatch _ | deleteAll | truncate => rfl

/-- A query for rows of tables without a condition is unfiltered and binds these tables. -/
lemma unfiltered_description {request : Request} {query : Query}
    (hquery : (joined ⟨source⟩).query? request = some query) :
    query.description.Unfiltered ∧
      query.description.context.bound = source.joins.length + 1 := by
  obtain ⟨projection, -, limit?, offset?, hstatement⟩ := query?_cases hquery
  unfold Query.description
  rw [hstatement]
  split <;> exact ⟨rfl, rfl⟩

/-- Queries under a condition. -/
lemma takesCondition_generate (request : Request) :
    TakesCondition source fun p => ((filtered ⟨source, p⟩).query? request).map Query.generate := by
  simp only [query?_filtered]
  cases hquery : (joined ⟨source⟩).query? request with
  | none => exact .inl nofun
  | some query =>
    obtain ⟨hunfiltered, hbound⟩ := unfiltered_description source hquery
    refine .inr ⟨query.description, hunfiltered, hbound, fun p => ?_⟩
    rw [← query.description_filter, ← Query.generate_eq]
    rfl

/-- One error under every condition is no statement. -/
lemma takesCondition_of_eq_error {answer : Predicate → Except TableError Statement} {e : TableError}
    (h : ∀ p, answer p = .error e) : TakesCondition source fun p => some (answer p) := by
  refine .inl fun p statement hanswer => ?_
  cases (h p).symm.trans (Option.some.inj hanswer)

/-- Updates under a condition. The table and the record are looked at first. -/
lemma takesCondition_updateTable (index : Nat) (record : Record) :
    TakesCondition source fun p => some (FilteredTable.updateTable ⟨source, p⟩ index record) := by
  cases htarget : source.tables[index]? with
  | none =>
    have hrefuse : ∀ p, FilteredTable.updateTable ⟨source, p⟩ index record =
        .error (.tableOutOfRange index source.tables.length) := by
      intro p
      rw [FilteredTable.updateTable, Source.table, htarget]
      rfl
    exact takesCondition_of_eq_error source hrefuse
  | some target =>
    cases hresolve : target.resolvePartial record with
    | error e =>
      have hrefuse := fun p =>
        FilteredTable.updateTable_eq_error (f := ⟨source, p⟩) htarget hresolve
      exact takesCondition_of_eq_error source hrefuse
    | ok assignments =>
      have hupdate := fun p => FilteredTable.updateTable_eq (f := ⟨source, p⟩) htarget hresolve
      cases assignments with
      | nil => exact takesCondition_of_eq_error source hupdate
      | cons a rest =>
        refine .inr ⟨.update { table := source.primary.name, joins := source.joins
                               assignments := (a :: rest).map fun entry =>
                                 ⟨⟨index, entry.1⟩, entry.2⟩ }, rfl, rfl, fun p => ?_⟩
        refine congrArg some ((hupdate p).trans ?_)
        rw [FilteredTable.updateStatement_eq]
        rfl

/-- Deletions under a condition. There is none through joins. -/
lemma takesCondition_delete :
    TakesCondition source fun p => some (FilteredTable.delete ⟨source, p⟩) := by
  cases hjoins : source.joins with
  | nil =>
    refine .inr ⟨.delete (.ofTable source.primary.name), rfl, ?_, fun p => ?_⟩
    · rw [hjoins]
      rfl
    · dsimp only
      rw [FilteredTable.delete, hjoins]
      rfl
  | cons j rest =>
    have hrefuse : ∀ p, FilteredTable.delete ⟨source, p⟩ = .error .joinedDelete := by
      intro p
      rw [FilteredTable.delete, hjoins]
      rfl
    exact takesCondition_of_eq_error source hrefuse

/-- **The answers to a request** of filtered handles take the condition. -/
theorem takesCondition_answer? (request : Request) :
    TakesCondition source fun p => (filtered ⟨source, p⟩).answer? request := by
  cases request with
  | select windows => exact takesCondition_generate source (.select windows)
  | map mapping windows => exact takesCondition_generate source (.map mapping windows)
  | get column windows => exact takesCondition_generate source (.get column windows)
  | count windows => exact takesCondition_generate source (.count windows)
  | updateTable index record => exact takesCondition_updateTable source index record
  | delete => exact takesCondition_delete source
  | insertBatch _ | replaceBatch _ | deleteAll | truncate => exact .inl nofun

/-- **A request to a filtered handle** is answered with a statement exactly when it is under some
condition, and the condition of the handle compiles on its own. -/
theorem exists_answer?_filtered_iff (p : Predicate) (request : Request) :
    (∃ statement, (filtered ⟨source, p⟩).answer? request = some (.ok statement)) ↔
      (∃ condition statement,
        (filtered ⟨source, condition⟩).answer? request = some (.ok statement)) ∧
      p.Compiles (.qualified (source.joins.length + 1)) := by
  rcases takesCondition_answer? source request with hnever | ⟨d, hunfiltered, hbound, hanswer⟩
  · simp [hnever]
  · have hbuild : ∀ condition, (∃ statement,
        (filtered ⟨source, condition⟩).answer? request = some (.ok statement)) ↔
          (∃ statement, d.build = .ok statement) ∧
            condition.Compiles (.qualified (source.joins.length + 1)) := by
      intro condition
      rw [← Predicate.compiles_congr hbound, ← Description.exists_build_filter_iff hunfiltered]
      simp only [hanswer, Option.some.injEq, mapError_eq_ok_iff]
    simp only [hbuild]
    constructor
    · rintro ⟨hd, hp⟩
      exact ⟨⟨p, hd, hp⟩, hp⟩
    · rintro ⟨⟨condition, hd, -⟩, hp⟩
      exact ⟨hd, hp⟩

end Handle

/-- A filtered handle that is narrowed again and again. -/
lemma FilteredTable.foldl_filter (f : FilteredTable) (qs : List (Scope → Predicate)) :
    qs.foldl FilteredTable.filter f =
      ⟨f.source, (qs.map (· f.source.scope)).foldl Predicate.and f.predicate⟩ := by
  induction qs generalizing f with
  | nil => rfl
  | cons q rest ih => exact ih (f.filter q)

/-! ## The pieces of a condition -/

namespace Predicate

/-- The pieces of a condition compile: every predicate behind the first one does on its own, and the
first one does too, or it is an `AND` group of too few members, all of which compile, and there are
enough predicates behind it. -/
structure PiecesCompile (ctx : Context) (first : Predicate) (others : List Predicate) : Prop where
  /-- The first piece compiles, or the others complete it. -/
  first : first.Completed .and ctx others.length
  /-- The other pieces compile. -/
  others : ∀ q ∈ others, q.Compiles ctx

/-- A narrowed condition compiles exactly when its pieces do. -/
lemma compiles_foldl_and_iff {ctx : Context} {p : Predicate} {qs : List Predicate} :
    (qs.foldl Predicate.and p).Compiles ctx ↔ PiecesCompile ctx p qs := by
  have hchain : (qs.foldl Predicate.and p).Compiles ctx ↔ _ := compiles_foldl_combine_iff
  rw [hchain]
  constructor
  · rintro ⟨hothers, hfirst⟩
    exact ⟨hfirst, hothers⟩
  · rintro ⟨hfirst, hothers⟩
    exact ⟨hothers, hfirst⟩

/-- **A narrowed condition compiles when its pieces do.** Two predicates under a connective compile
exactly when the second one does and the first one does too, or is a group of this connective with
one member that compiles. A description that is filtered first by one predicate and then by others
compiles exactly when it does without a filter and the pieces of its condition do. The same holds of
a handle: a request is answered exactly when it is answered under some condition and the pieces of
the handle's condition compile.

**Proof sketch.** A chain is one group of what its first piece contributes and the others, so it
compiles when they do and are two at least (`compiles_foldl_combine_iff`). Its sites stand between
those of the description that is filtered, so the description has a fault in its other parts or in
the chain (`exists_build_filter_iff`), and a request puts the condition into a description that does
not depend on it (`takesCondition_answer?`). -/
theorem compiles_narrowed :
    (∀ (ctx : Context) (p q : Predicate),
      ((p.and q).Compiles ctx ↔
        q.Compiles ctx ∧ (p.Compiles ctx ∨ ∃ m, p = group .and [m] ∧ m.Compiles ctx)) ∧
      ((p.or q).Compiles ctx ↔
        q.Compiles ctx ∧ (p.Compiles ctx ∨ ∃ m, p = group .or [m] ∧ m.Compiles ctx))) ∧
    (∀ d : Description, d.Unfiltered → ∀ (p : Predicate) (qs : List Predicate),
      (∃ statement, (qs.foldl Description.filter (d.filter p)).build = .ok statement) ↔
        (∃ statement, d.build = .ok statement) ∧ PiecesCompile d.context p qs) ∧
    ∀ (source : Source) (p : Scope → Predicate) (qs : List (Scope → Predicate))
      (request : Request),
      (∃ statement, (Handle.filtered (qs.foldl FilteredTable.filter
          ⟨source, p source.scope⟩)).answer? request = some (.ok statement)) ↔
        (∃ condition statement,
          (Handle.filtered ⟨source, condition⟩).answer? request = some (.ok statement)) ∧
        PiecesCompile (.qualified (source.joins.length + 1)) (p source.scope)
          (qs.map (· source.scope)) := by
  refine ⟨fun ctx p q => ⟨compiles_combine_iff, compiles_combine_iff⟩, ?_, ?_⟩
  · intro d hd p qs
    rw [Description.foldl_filter hd, Description.exists_build_filter_iff hd,
      compiles_foldl_and_iff]
  · intro source p qs request
    rw [FilteredTable.foldl_filter, Handle.exists_answer?_filtered_iff, compiles_foldl_and_iff]

/-- A group of the single predicate that a post is a draft. -/
def loneDraft (connective : Connective) : Predicate :=
  group connective [(⟨0, "draft"⟩ : ColumnRef).equals (.value (.bool true))]

/-- The predicate that a post has no author. -/
def unsigned : Predicate := (⟨0, "author"⟩ : ColumnRef).isNull

/-- **Chaining completes a group** that does not compile on its own. -/
theorem loneDraft_narrowed :
    ((loneDraft .and).compile (.qualified 1)).run #[] = .error (.logicalArity .and 1) #[] ∧
      (((loneDraft .and).and unsigned).compile (.qualified 1)).run #[] =
        .ok "t1.draft = ? AND t1.author IS NULL" #[.bool true] ∧
      ((loneDraft .or).compile (.qualified 1)).run #[] = .error (.logicalArity .or 1) #[] ∧
      (((loneDraft .or).or unsigned).compile (.qualified 1)).run #[] =
        .ok "t1.draft = ? OR t1.author IS NULL" #[.bool true] ∧
      (((DeleteStatement.ofTable "blog").filter (loneDraft .and)).filter unsigned).build =
        .ok ⟨"DELETE FROM blog\nWHERE draft = ? AND author IS NULL", #[.bool true]⟩ ∧
      ¬ ∀ (ctx : Context) (p q : Predicate), ¬ p.Compiles ctx → ¬ (p.and q).Compiles ctx := by
  have halone : ((loneDraft .and).compile (.qualified 1)).run #[] =
      .error (.logicalArity .and 1) #[] := rfl
  have hchain : (((loneDraft .and).and unsigned).compile (.qualified 1)).run #[] =
      .ok "t1.draft = ? AND t1.author IS NULL" #[.bool true] := rfl
  refine ⟨halone, hchain, rfl, rfl, rfl, ?_⟩
  intro hclaim
  have hfails : ¬ (loneDraft .and).Compiles (.qualified 1) := by
    rintro ⟨text, params, h⟩
    cases halone.symm.trans h
  exact hclaim (.qualified 1) (loneDraft .and) unsigned hfails ⟨_, _, hchain⟩

/-- A filter completes a lone conjunction, but not a lone disjunction. -/
theorem compiles_narrowed_unsigned :
    (Description.delete (.ofTable "blog")).Unfiltered ∧
      (∃ statement, ([unsigned].foldl Description.filter
        ((Description.delete (.ofTable "blog")).filter (loneDraft .and))).build = .ok statement) ∧
      ¬ ∃ statement, ([unsigned].foldl Description.filter
        ((Description.delete (.ofTable "blog")).filter (loneDraft .or))).build = .ok statement := by
  have hunfiltered : (Description.delete (.ofTable "blog")).Unfiltered := rfl
  obtain ⟨-, hdescription, -⟩ := compiles_narrowed
  have hunsigned : ∀ q ∈ [unsigned], q.Compiles .bare := by
    intro q hq
    obtain rfl := List.mem_singleton.1 hq
    exact ⟨_, _, rfl⟩
  have hmember : ((⟨0, "draft"⟩ : ColumnRef).equals (.value (.bool true))).Compiles .bare :=
    ⟨_, _, rfl⟩
  refine ⟨hunfiltered, (hdescription _ hunfiltered _ _).2 ⟨⟨_, rfl⟩, ?_, hunsigned⟩, ?_⟩
  · exact completed_one_iff.2 (.inr ⟨_, rfl, hmember⟩)
  · intro hbuild
    obtain ⟨-, hpieces⟩ := (hdescription _ hunfiltered _ _).1 hbuild
    rcases completed_one_iff.1 hpieces.first with ⟨text, params, hcompiles⟩ | ⟨m, heq, -⟩
    · cases hcompiles
    · cases heq

end Predicate

end BoundSql
