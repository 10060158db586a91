import BoundSql.Proofs.Table.Answer

/-!
# Reads through handles

A read that is asked for through handles is the one that is described without them: every call of a
handle stands for one call that adds a part to the description, and no other way of calling handles
leads to a read. No join, condition or sort key is lost, repeated or moved where one kind of handle
gives way to another.

## Main definitions

* `BoundSql.ReadChain` — calls of handles that end with a read: joins, then filters, then sort keys.
* `BoundSql.ReadChain.statement` — the description of the read, built up without handles.
* `BoundSql.Table.query?` — what calls of handles lead to.
* `BoundSql.Call.build` — the part that a call adds to a description.

## Main results

* `BoundSql.Handle.statement_of_call?` — a call of a handle adds its part to the description.
* `BoundSql.ReadChain.query?_calls` — a chain leads to the read that is described without it.
* `BoundSql.Handle.exists_calls` — every way to a handle consists of joins, filters and sort keys.
* `BoundSql.ReadChain.refines_builder` — reads through handles are those that are described.
-/

namespace BoundSql

/-! ## Chains -/

/-- A table to join, with the callback that answers with the condition. -/
abbrev JoinCall := Table × (Scope → Predicate)

/-- A callback that answers with a column to sort by, and the direction. -/
abbrev KeyCall := (Scope → ColumnRef) × Direction

/-- What a read asks for. -/
inductive Question where
  /-- Every column of the rows. -/
  | select
  /-- A mapping of output keys. -/
  | map (mapping : Scope → ProjectionMap)
  /-- One column. -/
  | get (column : Scope → ColumnRef)
  /-- The number of rows. -/
  | count

namespace Question

/-- Whether the number of rows is asked for. -/
def isCount : Question → Bool
  | count => true
  | _ => false

/-- The request of a question for a part of the rows. -/
def request (windows : List Window) : Question → Request
  | select => .select windows
  | map mapping => .map mapping windows
  | get column => .get column windows
  | count => .count windows

/-- What a description returns to a question, given the scope. -/
def project (scope : Scope) (s : SelectStatement) : Question → SelectStatement
  | select => s
  | map mapping => s.select (.map (mapping scope))
  | get column => s.select (.column (column scope))
  | count => s

end Question

/-- Calls of handles that end with a read. -/
structure ReadChain where
  /-- The table that the calls start with. -/
  table : Table
  /-- The tables that are joined, in order. -/
  joins : List JoinCall
  /-- The conditions that are filtered by, in order. -/
  filters : List (Scope → Predicate)
  /-- The columns that are sorted by, in order. -/
  keys : List KeyCall
  /-- What is asked for. -/
  question : Question
  /-- The parts of the rows that are asked for, in order. -/
  windows : List Window
  /-- Rows are not sorted to be counted. -/
  unsorted : question.isCount → keys = []

/-- The calls that sort: the first one starts anew, the others add to it. -/
def Call.ofKeys : List KeyCall → List Call
  | [] => []
  | (column, direction) :: rest => sortBy column direction :: rest.map fun key => thenBy key.1 key.2

/-- Joins that bind their tables behind those that are bound already. The condition of a join may
speak of every table up to its own. -/
def joinsBehind (bound : List TableDef) : List JoinCall → List Join
  | [] => []
  | (other, condition) :: rest =>
    let tables := bound ++ [other.definition]
    ⟨⟨bound.length, other.name⟩, condition (.ofDefs tables)⟩ :: joinsBehind tables rest

namespace ReadChain

variable (chain : ReadChain)

/-- The calls of a chain. -/
def calls : List Call :=
  chain.joins.map (fun join => .innerJoin join.1 join.2) ++ chain.filters.map .filter ++
    Call.ofKeys chain.keys

/-- The request of a chain. -/
def request : Request := chain.question.request chain.windows

/-- The scope of the tables of a chain. -/
def scope : Scope :=
  .ofDefs (chain.table.definition :: chain.joins.map fun join => join.1.definition)

/-- The description of the rows, built up without handles: one join after the other, then one
condition after the other, then one sort key after the other. -/
def rows : SelectStatement :=
  let joined := (joinsBehind [chain.table.definition] chain.joins).foldl .join
    (.ofTable chain.table.name)
  let filtered := chain.filters.foldl (fun s predicate => s.filter (predicate chain.scope)) joined
  chain.keys.foldl (fun s key => s.sortBy ⟨key.1 chain.scope, key.2⟩) filtered

/-- **The description of a read**, built up without handles: what is returned of the rows, and the
limit and the offset that were asked for last. -/
def statement : SelectStatement :=
  { chain.question.project chain.scope chain.rows with
    limit? := Window.lastLimit? chain.windows
    offset? := Window.lastOffset? chain.windows }

/-- The query for a description. -/
def query : Query := { statement := chain.statement, isCount := chain.question.isCount }

end ReadChain

/-- The query that calls and a request lead to, from a table on. -/
def Table.query? (t : Table) (calls : List Call) (request : Request) : Option Query := do
  let handle ← calls.foldlM Handle.call? (.table t)
  handle.query? request

/-! ## Single calls -/

/-- The part that a call adds to a description of the rows of a source. -/
def Call.build (source : Source) (s : SelectStatement) : Call → SelectStatement
  | innerJoin other condition =>
    s.join ⟨⟨source.tables.length, other.name⟩, condition (source.scopeWith other.definition)⟩
  | filter predicate => s.filter (predicate source.scope)
  | sortBy column direction => s.sortBy ⟨column source.scope, direction⟩
  | thenBy column direction => s.sortBy ⟨column source.scope, direction⟩

namespace Handle

/-- Whether further tables can be joined. -/
def takesJoins : Handle → Bool
  | table _ => true
  | joined _ => true
  | filtered _ => false
  | sorted _ => false

/-- Whether the rows are sorted. -/
def isSorted : Handle → Bool
  | sorted _ => true
  | _ => false

variable {h next : Handle} {call : Call}

/-- Tables that can be joined are not sorted. -/
lemma isSorted_of_takesJoins (hjoins : h.takesJoins) : h.isSorted = false := by
  cases h with
  | table _ | joined _ | filtered _ => rfl
  | sorted _ => cases hjoins

/-- **A call of a handle** adds its part to the description. -/
lemma statement_of_call? (hnext : h.call? call = some next) :
    next.statement = call.build h.source h.statement := by
  rw [statement_eq, statement_eq]
  cases call with
  | innerJoin other condition =>
    cases h with
    | table _ | joined _ =>
      cases hnext
      rfl
    | filtered _ | sorted _ => cases hnext
  | filter predicate =>
    cases h with
    | table _ | joined _ | filtered _ =>
      cases hnext
      rfl
    | sorted _ => cases hnext
  | sortBy column direction =>
    cases h with
    | table _ | joined _ | filtered _ =>
      cases hnext
      rfl
    | sorted _ => cases hnext
  | thenBy column direction =>
    cases h with
    | table _ | joined _ | filtered _ => cases hnext
    | sorted _ =>
      cases hnext
      rfl

/-- A table is joined to a table or to joined tables. -/
lemma exists_call?_innerJoin (hjoins : h.takesJoins) (other : Table)
    (condition : Scope → Predicate) :
    ∃ next, h.call? (.innerJoin other condition) = some next ∧ next.takesJoins ∧
      next.source.tables = h.source.tables ++ [other.definition] := by
  cases h with
  | table _ | joined _ => exact ⟨_, rfl, rfl, rfl⟩
  | filtered _ | sorted _ => cases hjoins

/-- Rows are filtered that are not sorted. -/
lemma exists_call?_filter (hsorted : h.isSorted = false) (predicate : Scope → Predicate) :
    ∃ next, h.call? (.filter predicate) = some next ∧ next.isSorted = false ∧
      next.source = h.source := by
  cases h with
  | table _ | joined _ | filtered _ => exact ⟨_, rfl, rfl, rfl⟩
  | sorted _ => cases hsorted

/-- Rows are sorted that are not sorted yet. -/
lemma exists_call?_sortBy (hsorted : h.isSorted = false) (column : Scope → ColumnRef)
    (direction : Direction) :
    ∃ next, h.call? (.sortBy column direction) = some next ∧ next.isSorted ∧
      next.source = h.source := by
  cases h with
  | table _ | joined _ | filtered _ => exact ⟨_, rfl, rfl, rfl⟩
  | sorted _ => cases hsorted

/-- Rows are sorted further that are sorted. -/
lemma exists_call?_thenBy (hsorted : h.isSorted) (column : Scope → ColumnRef)
    (direction : Direction) :
    ∃ next, h.call? (.thenBy column direction) = some next ∧ next.isSorted ∧
      next.source = h.source := by
  cases h with
  | table _ | joined _ | filtered _ => cases hsorted
  | sorted _ => exact ⟨_, rfl, rfl, rfl⟩

/-- The query of a question to a handle. -/
lemma query?_request (question : Question) (windows : List Window)
    (hsorted : question.isCount → h.isSorted = false) :
    h.query? (question.request windows) = some (windows.foldl .window
      { statement := question.project h.source.scope h.statement
        isCount := question.isCount }) := by
  cases question with
  | select | map mapping | get column => cases h <;> rfl
  | count =>
    cases h with
    | table _ | joined _ | filtered _ => rfl
    | sorted _ => cases hsorted rfl

/-- A request that leads to a query is a question. -/
lemma exists_question {request : Request} {query : Query}
    (hquery : h.query? request = some query) :
    ∃ (question : Question) (windows : List Window), request = question.request windows ∧
      (question.isCount → h.isSorted = false) := by
  cases request with
  | select windows => exact ⟨.select, windows, rfl, nofun⟩
  | map mapping windows => exact ⟨.map mapping, windows, rfl, nofun⟩
  | get column windows => exact ⟨.get column, windows, rfl, nofun⟩
  | count windows =>
    refine ⟨.count, windows, rfl, fun _ => ?_⟩
    cases h with
    | table _ | joined _ | filtered _ => rfl
    | sorted _ => cases hquery
  | updateTable _ _ | delete | insertBatch _ | replaceBatch _ | deleteAll | truncate =>
    cases h <;> cases hquery

/-! ## Several calls -/

/-- Joins, one after the other. -/
lemma exists_foldlM_innerJoin (joins : List JoinCall) (hjoins : h.takesJoins) :
    ∃ next, (joins.map fun join => Call.innerJoin join.1 join.2).foldlM call? h = some next ∧
      next.takesJoins ∧
      next.source.tables = h.source.tables ++ joins.map (fun join => join.1.definition) ∧
      next.statement = (joinsBehind h.source.tables joins).foldl .join h.statement := by
  -- By induction on the joins; the tables that are bound grow with every one.
  induction joins generalizing h with
  | nil => exact ⟨h, rfl, hjoins, (List.append_nil _).symm, rfl⟩
  | cons join rest ih =>
    obtain ⟨middle, hcall, hmiddle, htables⟩ := exists_call?_innerJoin hjoins join.1 join.2
    obtain ⟨next, hrest, hnext, hnextTables, hstatement⟩ := ih hmiddle
    refine ⟨next, ?_, hnext, ?_, ?_⟩
    · rw [List.map_cons, List.foldlM_cons, hcall]
      exact hrest
    · rw [hnextTables, htables, List.append_assoc]
      rfl
    · rw [hstatement, htables, statement_of_call? hcall]
      rfl

/-- Calls of one kind that leave the tables alone, one after the other, where each of them leads to
a handle that has the next one. -/
lemma exists_foldlM_call? {α : Type} {Ready : Handle → Prop} {toCall : α → Call}
    (hstep : ∀ {h : Handle}, Ready h → ∀ a, ∃ next, h.call? (toCall a) = some next ∧ Ready next ∧
      next.source = h.source) (as : List α) (hready : Ready h) :
    ∃ next, (as.map toCall).foldlM call? h = some next ∧ Ready next ∧ next.source = h.source ∧
      next.statement = as.foldl (fun s a => (toCall a).build h.source s) h.statement := by
  induction as generalizing h with
  | nil => exact ⟨h, rfl, hready, rfl, rfl⟩
  | cons a rest ih =>
    obtain ⟨middle, hcall, hmiddle, hsource⟩ := hstep hready a
    obtain ⟨next, hrest, hnext, hnextSource, hstatement⟩ := ih hmiddle
    refine ⟨next, ?_, hnext, hnextSource.trans hsource, ?_⟩
    · rw [List.map_cons, List.foldlM_cons, hcall]
      exact hrest
    · rw [hstatement, hsource, statement_of_call? hcall]
      rfl

/-- Filters, one after the other. -/
lemma exists_foldlM_filter (filters : List (Scope → Predicate)) (hsorted : h.isSorted = false) :
    ∃ next, (filters.map Call.filter).foldlM call? h = some next ∧ next.isSorted = false ∧
      next.source = h.source ∧ next.statement =
        filters.foldl (fun s predicate => s.filter (predicate h.source.scope)) h.statement :=
  exists_foldlM_call? exists_call?_filter filters hsorted

/-- Further sort keys, one after the other. -/
lemma exists_foldlM_thenBy (keys : List KeyCall) (hsorted : h.isSorted) :
    ∃ next, (keys.map fun key => Call.thenBy key.1 key.2).foldlM call? h = some next ∧
      next.isSorted ∧ next.source = h.source ∧ next.statement =
        keys.foldl (fun s key => s.sortBy ⟨key.1 h.source.scope, key.2⟩) h.statement :=
  exists_foldlM_call? (fun hready key => exists_call?_thenBy hready key.1 key.2) keys hsorted

/-- Sort keys, one after the other. -/
lemma exists_foldlM_ofKeys (keys : List KeyCall) (hsorted : h.isSorted = false) :
    ∃ next, (Call.ofKeys keys).foldlM call? h = some next ∧ next.isSorted = !keys.isEmpty ∧
      next.source = h.source ∧ next.statement =
        keys.foldl (fun s key => s.sortBy ⟨key.1 h.source.scope, key.2⟩) h.statement := by
  cases keys with
  | nil => exact ⟨h, rfl, hsorted, rfl, rfl⟩
  | cons key rest =>
    obtain ⟨middle, hcall, hmiddle, hsource⟩ := exists_call?_sortBy hsorted key.1 key.2
    obtain ⟨next, hrest, hnext, hnextSource, hstatement⟩ := exists_foldlM_thenBy rest hmiddle
    refine ⟨next, ?_, hnext, hnextSource.trans hsource, ?_⟩
    · rw [Call.ofKeys, List.foldlM_cons, hcall]
      exact hrest
    · rw [hstatement, hsource, statement_of_call? hcall]
      rfl

/-! ## Chains and their reads -/

/-- From sorted rows, only further sort keys lead on. -/
lemma exists_calls_sorted {calls : List Call} {s : SortedTable}
    (hcalls : calls.foldlM call? (sorted s) = some h) :
    ∃ keys : List KeyCall, calls = keys.map fun key => .thenBy key.1 key.2 := by
  induction calls generalizing s with
  | nil => exact ⟨[], rfl⟩
  | cons call rest ih =>
    cases call with
    | thenBy column direction =>
      obtain ⟨keys, hkeys⟩ := ih (s := s.thenBy column direction) hcalls
      exact ⟨(column, direction) :: keys, congrArg (.thenBy column direction :: ·) hkeys⟩
    | innerJoin _ _ | filter _ | sortBy _ _ => cases hcalls

/-- From filtered rows, filters and then sort keys lead on. -/
lemma exists_calls_filtered {calls : List Call} {f : FilteredTable}
    (hcalls : calls.foldlM call? (filtered f) = some h) :
    ∃ (filters : List (Scope → Predicate)) (keys : List KeyCall),
      calls = filters.map .filter ++ Call.ofKeys keys := by
  induction calls generalizing f with
  | nil => exact ⟨[], [], rfl⟩
  | cons call rest ih =>
    cases call with
    | filter predicate =>
      obtain ⟨filters, keys, hrest⟩ := ih (f := f.filter predicate) hcalls
      exact ⟨predicate :: filters, keys, congrArg (.filter predicate :: ·) hrest⟩
    | sortBy column direction =>
      obtain ⟨keys, hrest⟩ := exists_calls_sorted (s := f.sortBy column direction) hcalls
      exact ⟨[], (column, direction) :: keys, congrArg (.sortBy column direction :: ·) hrest⟩
    | innerJoin _ _ | thenBy _ _ => cases hcalls

/-- From joined tables, joins lead on, then filters, then sort keys. -/
lemma exists_calls_joined {calls : List Call} {j : JoinedTables}
    (hcalls : calls.foldlM call? (joined j) = some h) :
    ∃ (joins : List JoinCall) (filters : List (Scope → Predicate)) (keys : List KeyCall),
      calls = joins.map (fun join => .innerJoin join.1 join.2) ++ filters.map .filter ++
        Call.ofKeys keys := by
  induction calls generalizing j with
  | nil => exact ⟨[], [], [], rfl⟩
  | cons call rest ih =>
    cases call with
    | innerJoin other condition =>
      obtain ⟨joins, filters, keys, hrest⟩ := ih (j := j.innerJoin other condition) hcalls
      exact ⟨(other, condition) :: joins, filters, keys,
        congrArg (.innerJoin other condition :: ·) hrest⟩
    | filter predicate =>
      obtain ⟨filters, keys, hrest⟩ := exists_calls_filtered (f := j.filter predicate) hcalls
      exact ⟨[], predicate :: filters, keys, congrArg (.filter predicate :: ·) hrest⟩
    | sortBy column direction =>
      obtain ⟨keys, hrest⟩ := exists_calls_sorted (s := j.sortBy column direction) hcalls
      exact ⟨[], [], (column, direction) :: keys, congrArg (.sortBy column direction :: ·) hrest⟩
    | thenBy _ _ => cases hcalls

/-- **Every way to a handle** from a table consists of joins, then filters, then sort keys. -/
theorem exists_calls {calls : List Call} {t : Table}
    (hcalls : calls.foldlM call? (table t) = some h) :
    ∃ (joins : List JoinCall) (filters : List (Scope → Predicate)) (keys : List KeyCall),
      calls = joins.map (fun join => .innerJoin join.1 join.2) ++ filters.map .filter ++
        Call.ofKeys keys := by
  -- A table has the calls of joined tables without a join.
  have hjoined : ∃ next, calls.foldlM call? (joined ⟨t.source⟩) = some next := by
    cases calls with
    | nil => exact ⟨_, rfl⟩
    | cons call rest =>
      cases call with
      | innerJoin _ _ | filter _ | sortBy _ _ => exact ⟨h, hcalls⟩
      | thenBy _ _ => cases hcalls
  obtain ⟨next, hnext⟩ := hjoined
  exact exists_calls_joined hnext

end Handle

namespace ReadChain

/-- The calls of a chain lead to its rows. -/
lemma exists_foldlM_calls (chain : ReadChain) :
    ∃ next, chain.calls.foldlM Handle.call? (.table chain.table) = some next ∧
      next.isSorted = !chain.keys.isEmpty ∧ next.source.scope = chain.scope ∧
      next.statement = chain.rows := by
  have hstart : (Handle.table chain.table).takesJoins := rfl
  obtain ⟨joined, hjoins, htakes, htables, hjoined⟩ :=
    Handle.exists_foldlM_innerJoin chain.joins hstart
  obtain ⟨filtered, hfilters, hunsorted, hfilteredSource, hfiltered⟩ :=
    Handle.exists_foldlM_filter chain.filters (Handle.isSorted_of_takesJoins htakes)
  obtain ⟨next, hkeys, hsorted, hsource, hstatement⟩ :=
    Handle.exists_foldlM_ofKeys chain.keys hunsorted
  have hscope : joined.source.scope = chain.scope := by
    rw [Source.scope, htables]
    rfl
  refine ⟨next, ?_, hsorted, ?_, ?_⟩
  · rw [calls, List.foldlM_append, List.foldlM_append, hjoins]
    exact (congrArg (· >>= _) hfilters).trans hkeys
  · rw [hsource, hfilteredSource, hscope]
  · rw [hstatement, hfilteredSource, hfiltered, hscope, hjoined]
    rfl

/-- Asking for an answer sets no window. -/
lemma project_statement (question : Question) (scope : Scope) (h : Handle) :
    (question.project scope h.statement).limit? = none ∧
      (question.project scope h.statement).offset? = none := by
  rw [h.statement_eq]
  cases question <;> exact ⟨rfl, rfl⟩

/-- **A chain leads to the read** that is described without it. -/
theorem query?_calls (chain : ReadChain) :
    chain.table.query? chain.calls chain.request = some chain.query := by
  obtain ⟨next, hcalls, hsorted, hscope, hstatement⟩ := chain.exists_foldlM_calls
  have hquestion : chain.question.isCount → next.isSorted = false := by
    intro hcount
    rw [hsorted, chain.unsorted hcount]
    rfl
  obtain ⟨hlimit, hoffset⟩ := project_statement chain.question next.source.scope next
  rw [Table.query?, hcalls]
  refine (Handle.query?_request chain.question chain.windows hquestion).trans ?_
  rw [Query.foldl_window, hlimit, hoffset, Option.or_none, Option.or_none, hscope, hstatement]
  rfl

/-- Every way to a query is a chain. -/
theorem exists_of_query? {t : Table} {calls : List Call} {request : Request} {query : Query}
    (hquery : t.query? calls request = some query) :
    ∃ chain : ReadChain, chain.table = t ∧ chain.calls = calls ∧ chain.request = request := by
  obtain ⟨handle, hcalls, hrequest⟩ := Option.bind_eq_some_iff.1 hquery
  obtain ⟨joins, filters, keys, rfl⟩ := Handle.exists_calls hcalls
  obtain ⟨question, windows, rfl, hquestion⟩ := Handle.exists_question hrequest
  -- Whether the rows are sorted does not depend on the question.
  obtain ⟨next, hnext, hsorted, -⟩ :=
    exists_foldlM_calls ⟨t, joins, filters, keys, .select, windows, nofun⟩
  obtain rfl : next = handle := Option.some.inj (hnext.symm.trans hcalls)
  refine ⟨⟨t, joins, filters, keys, question, windows, fun hcount => ?_⟩, rfl, rfl, rfl⟩
  rw [hquestion hcount] at hsorted
  simpa using hsorted.symm

/-- **Reads through handles are those that are described without them.** Calls of handles from a
table on lead to a query exactly when they are the calls of a chain and it is the query for the
description of the chain. The statement of the query is the count of the description if the number
of rows is asked for, and otherwise the read. -/
theorem refines_builder :
    (∀ (t : Table) (calls : List Call) (request : Request) (query : Query),
      t.query? calls request = some query ↔
        ∃ chain : ReadChain, chain.table = t ∧ chain.calls = calls ∧ chain.request = request ∧
          query = chain.query) ∧
    ∀ chain : ReadChain, chain.query.generate =
      (if chain.question.isCount then chain.statement.buildCount
        else chain.statement.build).mapError .compile := by
  refine ⟨fun t calls request query => ⟨fun hquery => ?_, ?_⟩, fun chain => rfl⟩
  · obtain ⟨chain, rfl, rfl, rfl⟩ := exists_of_query? hquery
    exact ⟨chain, rfl, rfl, rfl, Option.some.inj (hquery.symm.trans chain.query?_calls)⟩
  · rintro ⟨chain, rfl, rfl, rfl, rfl⟩
    exact chain.query?_calls

/-- The last limit counts, and so does the last offset, whichever comes first. -/
example (p : Scope → Predicate) :
    let blog := Table.ofMapping "blog" [("id", "id")]
    blog.query? [.filter p, .sortBy (fun _ => ⟨0, "id"⟩) .descending]
        (.select [.limit 5, .offset 2, .limit 3]) =
      some { statement := {
        projection := some .wildcard, table := some "blog", where? := some (p blog.scope)
        orderBy := [⟨⟨0, "id"⟩, .descending⟩], limit? := some 3, offset? := some 2 } } :=
  rfl

end ReadChain

end BoundSql
