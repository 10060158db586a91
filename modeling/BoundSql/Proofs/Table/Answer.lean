import BoundSql.Proofs.Statement.Verdict
import BoundSql.Proofs.Table.Chain
import BoundSql.Proofs.Table.Records

/-!
# Answers to requests

Every answer to a request is a refusal, or it compiles a description that is made of the tables, the
joins, the condition and the sort keys of the handle and of what the request adds to them.

## Main definitions

* `BoundSql.Handle.read` — the read of a projection of a handle's rows.
* `BoundSql.Query.description` — the read or the count that a query compiles.
* `BoundSql.Handle.Describes` — what the description that a request compiles is made of.
* `BoundSql.Handle.IsRefused` — an answer without a compilation.

## Main results

* `BoundSql.Handle.query?_cases` — the query of a request reads the rows of the handle.
* `BoundSql.Handle.answer?_cases` — every answer is a refusal or compiles a description.
-/

namespace BoundSql

/-! ## Descriptions, part by part -/

/-- Joins of a read are added in order. -/
lemma SelectStatement.foldl_join (joins : List Join) (s : SelectStatement) :
    joins.foldl join s = { s with joins := s.joins ++ joins } := by
  induction joins generalizing s with
  | nil => simp
  | cons j rest ih => simp [join, ih]

/-- Sort keys are added in order. -/
lemma SelectStatement.foldl_sortBy (keys : List SortKey) (s : SelectStatement) :
    keys.foldl sortBy s = { s with orderBy := s.orderBy ++ keys } := by
  induction keys generalizing s with
  | nil => simp
  | cons key rest ih => simp [sortBy, ih]

/-- Joins of an update are added in order. -/
lemma UpdateStatement.foldl_join (joins : List Join) (s : UpdateStatement) :
    joins.foldl join s = { s with joins := s.joins ++ joins } := by
  induction joins generalizing s with
  | nil => simp
  | cons j rest ih => simp [join, ih]

/-- The columns of a record are assigned in order. -/
lemma UpdateStatement.foldl_assign (index : Nat) (record : List (String × Value))
    (s : UpdateStatement) :
    record.foldl (fun s (column, value) => s.assign ⟨index, column⟩ value) s =
      { s with assignments := s.assignments ++ record.map fun (column, value) =>
          ⟨⟨index, column⟩, value⟩ } := by
  induction record generalizing s with
  | nil => simp
  | cons entry rest ih =>
    rw [List.foldl_cons, ih]
    simp [assign]

/-- The read of every column of a source. -/
lemma Source.statement_eq (source : Source) :
    source.statement =
      { projection := some .wildcard, table := some source.primary.name
        joins := source.joins } := by
  rw [statement, SelectStatement.foldl_join]
  rfl

/-- The read of a projection of a handle's rows. -/
def Handle.read (h : Handle) (projection : Projection) : SelectStatement :=
  { projection := some projection, table := some h.source.primary.name, joins := h.source.joins
    where? := h.predicate?, orderBy := h.keys }

/-- The update of a filtered handle, part by part. -/
lemma FilteredTable.updateStatement_eq (f : FilteredTable) (index : Nat)
    (record : List (String × Value)) :
    f.updateStatement index record =
      { table := f.source.primary.name, joins := f.source.joins
        assignments := record.map fun (column, value) => ⟨⟨index, column⟩, value⟩
        where? := some f.predicate } := by
  rw [updateStatement, UpdateStatement.foldl_join, UpdateStatement.foldl_assign]
  rfl

/-- The description of the rows of a handle. -/
def Handle.statement : Handle → SelectStatement
  | table t => t.source.statement
  | joined j => j.source.statement
  | filtered f => f.statement
  | sorted s => s.statement

/-- The description of the rows of a handle, part by part. -/
lemma Handle.statement_eq (h : Handle) : h.statement = h.read .wildcard := by
  cases h with
  | table t => exact t.source.statement_eq
  | joined j => exact j.source.statement_eq
  | filtered f =>
    rw [statement, FilteredTable.statement, Source.statement_eq]
    rfl
  | sorted s =>
    rw [statement, SortedTable.statement, SelectStatement.foldl_sortBy, Source.statement_eq]
    cases hpredicate : s.predicate? with
    | none => simp [read, source, predicate?, keys, hpredicate]
    | some p =>
      simp [read, source, predicate?, keys, hpredicate, SelectStatement.filter, Predicate.narrow]

namespace Window

/-- The number of rows at most that was asked for last. -/
def lastLimit? (windows : List Window) : Option Nat :=
  (windows.filterMap fun | limit count => some count | offset _ => none).getLast?

/-- The number of rows to skip that was asked for last. -/
def lastOffset? (windows : List Window) : Option Nat :=
  (windows.filterMap fun | offset count => some count | limit _ => none).getLast?

/-- A limit counts unless another one follows. -/
lemma lastLimit?_cons_limit (count : Nat) (windows : List Window) :
    lastLimit? (limit count :: windows) = some ((lastLimit? windows).getD count) :=
  List.getLast?_cons

/-- An offset counts unless another one follows. -/
lemma lastOffset?_cons_offset (count : Nat) (windows : List Window) :
    lastOffset? (offset count :: windows) = some ((lastOffset? windows).getD count) :=
  List.getLast?_cons

end Window

/-- A query for a part of its rows is the same query with the window that was asked for last. -/
lemma Query.foldl_window (windows : List Window) (query : Query) :
    windows.foldl window query =
      { query with statement := { query.statement with
          limit? := (Window.lastLimit? windows).or query.statement.limit?
          offset? := (Window.lastOffset? windows).or query.statement.offset? } } := by
  induction windows generalizing query with
  | nil => rfl
  | cons w rest ih =>
    rw [List.foldl_cons, ih]
    cases w with
    | limit count =>
      rw [Window.lastLimit?_cons_limit]
      cases Window.lastLimit? rest <;> rfl
    | offset count =>
      rw [Window.lastOffset?_cons_offset]
      cases Window.lastOffset? rest <;> rfl

/-- The description of a query. -/
def Query.description (query : Query) : Description :=
  if query.isCount then .count query.statement else .select query.statement

/-- The statement of a query is that of its description. -/
lemma Query.generate_eq (query : Query) :
    query.generate = query.description.build.mapError .compile := by
  unfold generate description
  split <;> rfl

/-! ## Tables of descriptions -/

/-- A description introduces the tables of a source and gives each its alias: the first one behind
`FROM` or `UPDATE`, every other one in a join, and none anywhere else. -/
def Description.Introduces (d : Description) (source : Source) : Prop :=
  d.context = .qualified (source.joins.length + 1) ∧
    ∃ first ∈ [Clause.table source.primary.name, Clause.update source.primary.name],
      ∃ front back, d.clauses = front ++ first :: (source.joins.map Clause.join ++ back) ∧
        ∀ clause ∈ front ++ back, clause.table? = none

/-- The condition of a statement introduces no table. -/
lemma table?_where {filter : Option Predicate} :
    ∀ clause ∈ (filter.map Clause.filter).toList, clause.table? = none := by
  intro clause hclause
  obtain ⟨p, -, rfl⟩ := by simpa using hclause
  rfl

/-- The clauses from the sort keys on introduce no table. -/
lemma SelectStatement.table?_windowClauses (s : SelectStatement) :
    ∀ clause ∈ s.windowClauses, clause.table? = none := by
  intro clause hclause
  have hcases : (s.orderBy ≠ [] ∧ clause = .order s.orderBy) ∨
      (∃ n, s.limit? = some n ∧ Clause.limit n = clause) ∨
      ∃ n, s.offset? = some n ∧ Clause.offset n = clause := by
    simpa [windowClauses, Clause.ofList, or_assoc] using hclause
  rcases hcases with ⟨-, rfl⟩ | ⟨n, -, rfl⟩ | ⟨n, -, rfl⟩ <;> rfl

section Introduces

variable {source : Source} {s : SelectStatement}

/-- A read of the tables of a source introduces them. -/
lemma introduces_select (htable : s.table = some source.primary.name)
    (hjoins : s.joins = source.joins) : (Description.select s).Introduces source := by
  refine ⟨by rw [Description.context, SelectStatement.context, hjoins], _, List.mem_cons_self,
    (s.projection.map fun projection => .select projection.selection).toList,
    (s.where?.map Clause.filter).toList ++ s.windowClauses, ?_, ?_⟩
  · rw [Description.clauses, SelectStatement.rowClauses, SelectStatement.sourceClauses, htable,
      hjoins]
    simp
  · simp only [List.forall_mem_append]
    refine ⟨?_, table?_where, s.table?_windowClauses⟩
    intro clause hclause
    obtain ⟨projection, -, rfl⟩ := by simpa using hclause
    rfl

/-- A count of the rows of a source introduces its tables. -/
lemma introduces_count (htable : s.table = some source.primary.name)
    (hjoins : s.joins = source.joins) : (Description.count s).Introduces source := by
  refine ⟨by rw [Description.context, SelectStatement.context, hjoins], _, List.mem_cons_self, ?_⟩
  rw [Description.clauses, SelectStatement.countClauses, SelectStatement.sourceClauses, htable,
    hjoins]
  split
  · refine ⟨[.openCount, .selectOne],
      (s.where?.map Clause.filter).toList ++ s.windowClauses ++ [.closeCount], by simp, ?_⟩
    simp only [List.forall_mem_append]
    exact ⟨by simp [Clause.table?], ⟨table?_where, s.table?_windowClauses⟩, by simp [Clause.table?]⟩
  · refine ⟨[.count], (s.where?.map Clause.filter).toList, by simp, ?_⟩
    simp only [List.forall_mem_append]
    exact ⟨by simp [Clause.table?], table?_where⟩

/-- An update of the tables of a source introduces them. -/
lemma introduces_update {u : UpdateStatement} (htable : u.table = source.primary.name)
    (hjoins : u.joins = source.joins) : (Description.update u).Introduces source := by
  refine ⟨by rw [Description.context, UpdateStatement.context, hjoins], .update source.primary.name,
    by simp, [], Clause.ofList .set u.assignments ++ (u.where?.map Clause.filter).toList, ?_, ?_⟩
  · rw [Description.clauses, UpdateStatement.clauses, htable, hjoins]
    simp
  · simp only [List.nil_append, List.forall_mem_append]
    refine ⟨?_, table?_where⟩
    cases u.assignments with
    | nil => simp [Clause.ofList]
    | cons a rest => simp [Clause.ofList, Clause.table?]

end Introduces

/-! ## Descriptions of requests -/

namespace Handle

/-- A query for a part of the rows of a handle reads a projection of them. -/
lemma exists_statement_eq {h : Handle} {query : Query} {projection : Projection} {isCount : Bool}
    {windows : List Window}
    (hquery : query = windows.foldl .window { statement := h.read projection, isCount }) :
    ∃ limit? offset?, query.statement = { h.read projection with limit?, offset? } :=
  ⟨_, _, by rw [hquery, Query.foldl_window]⟩

/-- **The query of a request** reads the rows of the handle, all or a part of them. -/
lemma query?_cases {h : Handle} {request : Request} {query : Query}
    (hquery : h.query? request = some query) :
    ∃ projection, (∀ c ∈ projection.columns, c ∈ request.columns h.source.scope) ∧
      ∃ limit? offset?, query.statement = { h.read projection with limit?, offset? } := by
  cases request with
  | select windows =>
    have heq : query = windows.foldl .window { statement := h.statement } := by
      cases h with
      | table _ | joined _ | filtered _ | sorted _ => exact (Option.some.inj hquery).symm
    rw [h.statement_eq] at heq
    exact ⟨.wildcard, nofun, exists_statement_eq heq⟩
  | map mapping windows =>
    have heq : query = windows.foldl .window
        { statement := h.statement.select (.map (mapping h.source.scope)) } := by
      cases h with
      | table _ | joined _ | filtered _ | sorted _ => exact (Option.some.inj hquery).symm
    rw [h.statement_eq] at heq
    exact ⟨.map (mapping h.source.scope), fun _ hc => hc, exists_statement_eq heq⟩
  | get column windows =>
    have heq : query = windows.foldl .window
        { statement := h.statement.select (.column (column h.source.scope)) } := by
      cases h with
      | table _ | joined _ | filtered _ | sorted _ => exact (Option.some.inj hquery).symm
    rw [h.statement_eq] at heq
    exact ⟨.column (column h.source.scope), fun _ hc => hc, exists_statement_eq heq⟩
  | count windows =>
    have heq : query =
        windows.foldl .window { statement := h.statement, isCount := true } := by
      cases h with
      | table _ | joined _ | filtered _ => exact (Option.some.inj hquery).symm
      | sorted _ => cases hquery
    rw [h.statement_eq] at heq
    exact ⟨.wildcard, nofun, exists_statement_eq heq⟩
  | updateTable _ _ | delete | insertBatch _ | replaceBatch _ | deleteAll | truncate =>
    cases h <;> cases hquery

/-- The columns that a handle refers to. -/
def columns (h : Handle) : List ColumnRef :=
  h.source.joins.flatMap (·.condition.columns) ++ h.predicate?.toList.flatMap (·.columns) ++
    h.keys.map (·.column)

/-- A request to a handle compiles the description. -/
structure Describes (h : Handle) (request : Request) (d : Description) : Prop where
  /-- The joins are those of the handle, if there are any. -/
  joins : d.joins = [] ∨ d.joins = h.source.joins
  /-- As many tables are bound as the handle has. -/
  bound : ∀ c ∈ d.columns, d.context.bound = h.source.joins.length + 1
  /-- The columns are those of the handle, those of the callback, and those of bound tables. -/
  columns : ∀ c ∈ d.columns, c ∈ h.columns ∨ c ∈ request.columns h.source.scope ∨
    c.table < h.source.tables.length
  /-- A read, a count or an update introduces the tables of the handle. -/
  tables : request.isAliased → d.Introduces h.source

/-- A read of the rows of a handle. -/
lemma describes_select {h : Handle} {request : Request} {projection : Projection}
    {limit? offset? : Option Nat}
    (hcolumns : ∀ c ∈ projection.columns, c ∈ request.columns h.source.scope) :
    h.Describes request (.select { h.read projection with limit?, offset? }) where
  joins := .inr rfl
  bound _ _ := rfl
  columns c hc := by
    rw [Description.columns_select, List.append_assoc, List.mem_append] at hc
    rcases hc with hc | hc
    · exact .inr (.inl (hcolumns c (by simpa [read] using hc)))
    · exact .inl hc
  tables _ := introduces_select rfl rfl

/-- A count of the rows of a handle. -/
lemma describes_count {h : Handle} {request : Request} {projection : Projection}
    {limit? offset? : Option Nat} :
    h.Describes request (.count { h.read projection with limit?, offset? }) where
  joins := .inr rfl
  bound _ _ := rfl
  columns _ hc := .inl (Description.columns_count_subset _ hc)
  tables _ := introduces_count rfl rfl

/-- An update of a table of a filtered handle. -/
lemma describes_update {f : FilteredTable} {index : Nat} {record : Record}
    {assignments : List (String × Value)} (hindex : index < f.source.tables.length) :
    (filtered f).Describes (.updateTable index record)
      (.update (f.updateStatement index assignments)) := by
  rw [f.updateStatement_eq]
  refine ⟨.inr rfl, fun _ _ => rfl, ?_, fun _ => introduces_update rfl rfl⟩
  intro c hc
  rw [Description.columns_update, List.mem_append, List.mem_append] at hc
  rcases hc with (hc | hc) | hc
  · exact .inl (List.mem_append_left _ (List.mem_append_left _ hc))
  · obtain ⟨a, ha, rfl⟩ := List.mem_map.1 hc
    obtain ⟨entry, -, rfl⟩ := List.mem_map.1 ha
    exact .inr (.inr hindex)
  · exact .inl (List.mem_append_left _ (List.mem_append_right _ hc))

/-- A deletion of the rows of a filtered handle without joins. -/
lemma describes_delete {f : FilteredTable} (hjoins : f.source.joins = []) :
    (filtered f).Describes .delete
      (.delete ((DeleteStatement.ofTable f.source.primary.name).filter f.predicate)) where
  joins := .inl rfl
  bound _ _ := by
    have hlength : (filtered f).source.joins.length = 0 := List.length_eq_zero_iff.2 hjoins
    rw [hlength]
    rfl
  columns c hc := by
    rw [Description.columns, Description.clauses, DeleteStatement.flatMap_clauses] at hc
    have hmem : c ∈ f.predicate.columns := by
      simpa [DeleteStatement.filter, DeleteStatement.ofTable, Predicate.narrow, Clause.columns]
        using hc
    refine .inl (List.mem_append_left _ (List.mem_append_right _ ?_))
    simpa [predicate?] using hmem
  tables h := nomatch h

/-- A statement without columns. -/
lemma describes_of_columns_eq_nil {h : Handle} {request : Request} {d : Description}
    (hrequest : request.isAliased = false) (hjoins : d.joins = []) (hcolumns : d.columns = []) :
    h.Describes request d where
  joins := .inl hjoins
  bound c hc := by simp [hcolumns] at hc
  columns c hc := by simp [hcolumns] at hc
  tables haliased := by simp [hrequest] at haliased

/-- An insertion has no columns that a scope could hand out. -/
lemma columns_insert (s : InsertStatement) : (Description.insert s).columns = [] := by
  rw [Description.columns, Description.clauses, InsertStatement.flatMap_clauses _ rfl]
  rfl

end Handle

/-! ## Answers -/

namespace FilteredTable

variable {f : FilteredTable} {index : Nat} {record : Record} {target : TableDef}

/-- An update is refused where its record is. -/
lemma updateTable_eq_error {e : TableError} (htarget : f.source.tables[index]? = some target)
    (hresolve : target.resolvePartial record = .error e) :
    f.updateTable index record = .error e := by
  rw [updateTable, Source.table, htarget]
  change (target.resolvePartial record >>= _) = _
  rw [hresolve]
  rfl

/-- An update with known fields is compiled, if there is a field. -/
lemma updateTable_eq {assignments : List (String × Value)}
    (htarget : f.source.tables[index]? = some target)
    (hresolve : target.resolvePartial record = .ok assignments) :
    f.updateTable index record =
      if assignments.isEmpty then .error (.emptyUpdate target.name)
      else (Description.update (f.updateStatement index assignments)).build.mapError .compile := by
  rw [updateTable, Source.table, htarget]
  change (target.resolvePartial record >>= _) = _
  rw [hresolve]
  cases assignments <;> rfl

end FilteredTable

namespace Handle

/-- An answer that does not come from a compilation. -/
def IsRefused (result : Except TableError Statement) : Prop :=
  ∃ e, result = .error e ∧ ∀ error, e ≠ .compile error

/-- An update is refused, or it builds the description of an update of a table in scope. -/
lemma updateTable_cases (f : FilteredTable) (index : Nat) (record : Record) :
    IsRefused (f.updateTable index record) ∨ ∃ assignments, index < f.source.tables.length ∧
      f.updateTable index record =
        (Description.update (f.updateStatement index assignments)).build.mapError .compile := by
  cases htarget : f.source.tables[index]? with
  | none =>
    refine .inl ⟨.tableOutOfRange index f.source.tables.length, ?_, nofun⟩
    rw [FilteredTable.updateTable, Source.table, htarget]
    rfl
  | some target =>
    have hindex : index < f.source.tables.length := (List.getElem?_eq_some_iff.1 htarget).1
    have hyields := target.resolvePartial_yields record
    cases hresolve : target.resolvePartial record with
    | error e =>
      rw [hresolve] at hyields
      exact .inl ⟨e, f.updateTable_eq_error htarget hresolve, hyields.ne_compile⟩
    | ok assignments =>
      rw [f.updateTable_eq htarget hresolve]
      split
      · exact .inl ⟨.emptyUpdate target.name, rfl, nofun⟩
      · exact .inr ⟨assignments, hindex, rfl⟩

/-- A deletion is refused, or it builds the description of one without joins. -/
lemma delete_cases (f : FilteredTable) :
    IsRefused f.delete ∨ f.source.joins = [] ∧ f.delete =
      (Description.delete ((DeleteStatement.ofTable f.source.primary.name).filter
        f.predicate)).build.mapError .compile := by
  unfold FilteredTable.delete
  cases hjoins : f.source.joins with
  | nil => exact .inr ⟨rfl, rfl⟩
  | cons j rest => exact .inl ⟨.joinedDelete, rfl, nofun⟩

/-- An insertion is refused, or it builds the description of one. -/
lemma insertBatch_cases (t : Table) (records : List Record) :
    IsRefused (t.insertBatch records) ∨ ∃ rows, t.insertBatch records =
      (Description.insert (t.insertStatement rows)).build.mapError .compile := by
  have hyields := t.resolveRows_yields records
  unfold Table.insertBatch
  cases hrows : t.resolveRows records with
  | error e =>
    rw [hrows] at hyields
    exact .inl ⟨e, rfl, hyields.ne_compile⟩
  | ok rows => exact .inr ⟨rows, rfl⟩

/-- A replacement is refused, or it builds the description of an insertion that replaces. -/
lemma replaceBatch_cases (t : Table) (records : List Record) :
    IsRefused (t.replaceBatch records) ∨ ∃ rows, t.replaceBatch records =
      (Description.insert (t.insertStatement rows).replace).build.mapError .compile := by
  have hyields := t.resolveRows_yields records
  unfold Table.replaceBatch
  cases hrows : t.resolveRows records with
  | error e =>
    rw [hrows] at hyields
    exact .inl ⟨e, rfl, hyields.ne_compile⟩
  | ok rows => exact .inr ⟨rows, rfl⟩

/-- The answer to a request for a query compiles a read or a count of the rows of the handle. -/
lemma generate_cases {h : Handle} {request : Request} {query : Query}
    (hquery : h.query? request = some query) :
    ∃ d, h.Describes request d ∧ query.generate = d.build.mapError .compile := by
  obtain ⟨projection, hcolumns, limit?, offset?, hstatement⟩ := query?_cases hquery
  refine ⟨query.description, ?_, query.generate_eq⟩
  rw [Query.description, hstatement]
  split
  · exact describes_count
  · exact describes_select hcolumns

/-- **Every answer** is a refusal, or the request compiles a description that is made of the parts
of the handle; only the removal of every row is neither. -/
theorem answer?_cases {h : Handle} {request : Request} {result : Except TableError Statement}
    (hanswer : h.answer? request = some result) :
    IsRefused result ∨ (request.isAliased = false ∧ ∃ statement, result = .ok statement) ∨
      ∃ d, h.Describes request d ∧ result = d.build.mapError .compile := by
  have hquery : (h.query? request).map Query.generate = some result →
      ∃ d, h.Describes request d ∧ result = d.build.mapError .compile := by
    intro hgenerate
    obtain ⟨query, hquery, rfl⟩ := Option.map_eq_some_iff.1 hgenerate
    exact generate_cases hquery
  cases request with
  | select _ | map _ _ | get _ _ | count _ =>
    cases h <;> exact .inr (.inr (hquery hanswer))
  | updateTable index record =>
    cases h with
    | filtered f =>
      obtain rfl := Option.some.inj hanswer
      rcases updateTable_cases f index record with hrefused | ⟨assignments, hindex, heq⟩
      · exact .inl hrefused
      · exact .inr (.inr ⟨_, describes_update hindex, heq⟩)
    | table _ | joined _ | sorted _ => cases hanswer
  | delete =>
    cases h with
    | filtered f =>
      obtain rfl := Option.some.inj hanswer
      rcases delete_cases f with hrefused | ⟨hjoins, heq⟩
      · exact .inl hrefused
      · exact .inr (.inr ⟨_, describes_delete hjoins, heq⟩)
    | table _ | joined _ | sorted _ => cases hanswer
  | insertBatch records =>
    cases h with
    | table t =>
      obtain rfl := Option.some.inj hanswer
      rcases insertBatch_cases t records with hrefused | ⟨rows, heq⟩
      · exact .inl hrefused
      · exact .inr (.inr ⟨_, describes_of_columns_eq_nil rfl rfl (columns_insert _), heq⟩)
    | filtered _ | joined _ | sorted _ => cases hanswer
  | replaceBatch records =>
    cases h with
    | table t =>
      obtain rfl := Option.some.inj hanswer
      rcases replaceBatch_cases t records with hrefused | ⟨rows, heq⟩
      · exact .inl hrefused
      · exact .inr (.inr ⟨_, describes_of_columns_eq_nil rfl rfl (columns_insert _), heq⟩)
    | filtered _ | joined _ | sorted _ => cases hanswer
  | deleteAll =>
    cases h with
    | table t =>
      obtain rfl := Option.some.inj hanswer
      exact .inr (.inr ⟨.delete (.ofTable t.name),
        describes_of_columns_eq_nil rfl rfl rfl, rfl⟩)
    | filtered _ | joined _ | sorted _ => cases hanswer
  | truncate =>
    cases h with
    | table t =>
      obtain rfl := Option.some.inj hanswer
      exact .inr (.inl ⟨rfl, t.truncate, rfl⟩)
    | filtered _ | joined _ | sorted _ => cases hanswer

end Handle

end BoundSql
