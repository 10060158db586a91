import BoundSql.Proofs.Expr.Template
import BoundSql.Proofs.Table.Invariant

/-!
# Reads and writes of the same rows

The read, the count, the update and the deletion of a filtered handle are put together separately,
but they speak of the same rows: their joins and their conditions have the same lines and bind the
same values, and none of them fails where another one does not.

## Main definitions

* `BoundSql.FilteredTable.rowFault?` — what is wrong with the joins and the condition.

## Main results

* `BoundSql.FilteredTable.select_generate`, `BoundSql.FilteredTable.delete_eq`, … — each request
  fails for what is wrong with the joins and the condition, and for nothing else.
* `BoundSql.Handle.Reachable.same_rows` — reads and writes agree.
-/

namespace BoundSql

/-! ## Statements over the same rows -/

namespace FilteredTable

variable (f : FilteredTable)

/-- The context of the statements that bind the tables with aliases. -/
def context : Context := .qualified (f.source.joins.length + 1)

/-- What is wrong with the joins and the condition, whatever is done with the rows. -/
def rowFault? : Option CompileError :=
  (Site.fault? (joinOrderSites 0 f.source.joins)).or
    ((f.source.joins.flatMap (·.condition.walk) ++ f.predicate.walk).findSome?
      (Step.fault? f.context.bound))

/-- The lines of the joins. -/
def joinTexts : List String := f.source.joins.map (·.text Value.placeholder f.context)

/-- The line of the condition. -/
def whereText : String := "WHERE " ++ f.predicate.text Value.placeholder f.context

/-- The values of the joins. -/
def joinValues : List Value := f.source.joins.flatMap (·.condition.values)

/-- The answer of a request whose compilation fails for the joins and the condition alone. -/
def answer (lines : List String) (values : List Value) : Except TableError Statement :=
  match f.rowFault? with
  | some e => .error (.compile e)
  | none => .ok ⟨"\n".intercalate lines, values.toArray⟩

variable {f}

/-- A fault of the rows is the answer of every request. -/
lemma answer_eq_error {e : CompileError} (h : f.rowFault? = some e) (lines : List String)
    (values : List Value) : f.answer lines values = .error (.compile e) := by
  rw [answer, h]

/-- Without a fault of the rows the answer is the statement. -/
lemma answer_eq_ok (h : f.rowFault? = none) (lines : List String) (values : List Value) :
    f.answer lines values = .ok ⟨"\n".intercalate lines, values.toArray⟩ := by
  rw [answer, h]

/-- Without a fault every column of the condition is one of a bound table. -/
lemma table_lt_of_rowFault?_eq_none (h : f.rowFault? = none) {c : ColumnRef}
    (hc : c ∈ f.predicate.columns) : c.table < f.context.bound := by
  rw [rowFault?, Option.or_eq_none_iff, List.findSome?_eq_none_iff] at h
  rw [← f.predicate.filterMap_column?_walk] at hc
  obtain ⟨step, hstep, hcolumn⟩ := List.mem_filterMap.1 hc
  have hfault := h.2 step (List.mem_append_right _ hstep)
  cases step with
  | column found =>
    obtain rfl := Option.some.inj hcolumn
    exact Step.fault?_column_eq_none_iff.1 hfault
  | _ => cases hcolumn

/-- Clauses with the joins of a handle among them and with its condition at the end. -/
def clauses (f : FilteredTable) (head middle : List Clause) : List Clause :=
  head ++ f.source.joins.map Clause.join ++ middle ++ [Clause.filter f.predicate]

/-- What the clauses contribute, if those at the head contribute nothing. -/
lemma flatMap_clauses {β : Type} (g : Clause → List β) {head middle : List Clause}
    (hhead : ∀ clause ∈ head, g clause = []) :
    (f.clauses head middle).flatMap g =
      f.source.joins.flatMap (fun join => g (.join join)) ++ middle.flatMap g ++
        g (.filter f.predicate) := by
  rw [clauses, List.flatMap_append, List.flatMap_append, List.flatMap_append,
    List.flatMap_eq_nil_iff.2 hhead, List.flatMap_map, List.flatMap_singleton, List.nil_append]

/-- A description with the joins and the condition of a handle, and with nothing else that may be
wrong. -/
lemma build_eq_answer {d : Description} {head middle : List Clause}
    (hjoins : d.joins = f.source.joins) (hbound : d.context.bound = f.context.bound)
    (hwidths : d.widths = []) (hclauses : d.clauses = f.clauses head middle)
    (hhead : ∀ clause ∈ head, clause.walk = [])
    (hmiddle : ∀ clause ∈ middle, ∀ step ∈ clause.walk, step.fault? f.context.bound = none) :
    d.build.mapError .compile =
      f.answer ((f.clauses head middle).map (·.text Value.placeholder d.context))
        (f.joinValues ++ middle.flatMap (·.bound) ++ f.predicate.values) := by
  have hwalk : d.walk = f.source.joins.flatMap (·.condition.walk) ++ middle.flatMap (·.walk) ++
      f.predicate.walk := by
    rw [Description.walk, hwidths, hclauses, flatMap_clauses _ hhead]
    rfl
  have hnone : (middle.flatMap (·.walk)).findSome? (Step.fault? f.context.bound) = none := by
    rw [List.findSome?_eq_none_iff]
    intro step hstep
    obtain ⟨clause, hclause, hstep⟩ := List.mem_flatMap.1 hstep
    exact hmiddle clause hclause step hstep
  have hfault : Site.fault? d.sites = f.rowFault? := by
    rw [d.fault?_sites, hjoins, hbound, hwalk, rowFault?, List.findSome?_append,
      List.findSome?_append, List.findSome?_append, hnone, Option.or_none]
  have hvalues : d.bound = f.joinValues ++ middle.flatMap (·.bound) ++ f.predicate.values := by
    have hempty : ∀ clause ∈ head, clause.bound = [] := by
      intro clause hclause
      rw [Clause.bound, hhead clause hclause]
      rfl
    rw [Description.bound, hclauses, flatMap_clauses _ hempty]
    rfl
  rw [d.build_eq, answer, hfault, hvalues, hclauses]
  cases f.rowFault? <;> rfl

/-! ### The requests -/

/-- The lines of clauses where tables have aliases. -/
lemma map_text_clauses (f : FilteredTable) (head middle : List Clause) :
    (f.clauses head middle).map (·.text Value.placeholder f.context) =
      head.map (·.text Value.placeholder f.context) ++ f.joinTexts ++
        middle.map (·.text Value.placeholder f.context) ++ [f.whereText] := by
  simp only [clauses, List.map_append, List.map_map]
  rfl

/-- A read of the rows or of their number. -/
lemma build_eq_answer_of_read {d : Description} {head : List Clause}
    (hjoins : d.joins = f.source.joins) (hcontext : d.context = f.context)
    (hwidths : d.widths = []) (hclauses : d.clauses = f.clauses head [])
    (hhead : ∀ clause ∈ head, clause.walk = []) :
    d.build.mapError .compile =
      f.answer (head.map (·.text Value.placeholder f.context) ++ f.joinTexts ++ [f.whereText])
        (f.joinValues ++ f.predicate.values) := by
  rw [build_eq_answer hjoins (congrArg _ hcontext) hwidths hclauses hhead nofun, hcontext,
    map_text_clauses]
  simp only [List.map_nil, List.flatMap_nil, List.append_nil]

/-- The read of the rows. -/
lemma select_generate (f : FilteredTable) :
    f.select.generate =
      f.answer (["SELECT *", "FROM " ++ f.source.primary.name ++ " t1"] ++ f.joinTexts ++
        [f.whereText]) (f.joinValues ++ f.predicate.values) := by
  have hclauses : (Description.select ((Handle.filtered f).read .wildcard)).clauses =
      f.clauses [.select .wildcard, .table f.source.primary.name] [] := by
    simp [Description.clauses, SelectStatement.rowClauses, SelectStatement.sourceClauses,
      SelectStatement.windowClauses, Handle.read, Handle.source, Handle.predicate?, Handle.keys,
      Clause.ofList, Projection.selection, clauses]
  have hgenerate : f.select.generate =
      (Description.select ((Handle.filtered f).read .wildcard)).build.mapError .compile := by
    rw [← (Handle.filtered f).statement_eq]
    rfl
  exact hgenerate.trans
    (build_eq_answer_of_read rfl rfl rfl hclauses (by simp [Clause.walk, Selection.walk]))

/-- The count of the rows. -/
lemma count_generate (f : FilteredTable) :
    f.count.generate =
      f.answer (["SELECT COUNT(*)", "FROM " ++ f.source.primary.name ++ " t1"] ++ f.joinTexts ++
        [f.whereText]) (f.joinValues ++ f.predicate.values) := by
  have hclauses : (Description.count ((Handle.filtered f).read .wildcard)).clauses =
      f.clauses [.count, .table f.source.primary.name] [] := by
    simp [Description.clauses, SelectStatement.countClauses, SelectStatement.isWindowed,
      SelectStatement.sourceClauses, Handle.read, Handle.source, Handle.predicate?, clauses]
  have hgenerate : f.count.generate =
      (Description.count ((Handle.filtered f).read .wildcard)).build.mapError .compile := by
    rw [← (Handle.filtered f).statement_eq]
    rfl
  exact hgenerate.trans (build_eq_answer_of_read rfl rfl rfl hclauses (by simp [Clause.walk]))

/-- The clause that sets columns of the table at a number. -/
def setClause (index : Nat) (assignments : List (String × Value)) : Clause :=
  .set (assignments.map fun (column, value) => ⟨⟨index, column⟩, value⟩)

/-- Its line has the columns with the alias of the table, and a placeholder for each value. -/
def setText (index : Nat) (columns : List String) : String :=
  "SET " ++ commaList (columns.map fun column => tableAlias index ++ "." ++ column ++ " = ?")

/-- The text of the assignments does not depend on their values. -/
lemma text_setClause (index : Nat) (assignments : List (String × Value)) :
    (setClause index assignments).text Value.placeholder f.context =
      setText index (assignments.map Prod.fst) := by
  have hassignment : ∀ entry ∈ assignments,
      (⟨⟨index, entry.1⟩, entry.2⟩ : Assignment).text Value.placeholder f.context =
        tableAlias index ++ "." ++ entry.1 ++ " = ?" := by
    intro entry _
    have hmark : " = ?" = " = " ++ "?" := rfl
    rw [hmark, ← String.append_assoc]
    rfl
  rw [setClause, Clause.text, List.map_map, setText, List.map_map]
  exact congrArg (Clause.listText "SET") (List.map_congr_left hassignment)

/-- The assignments bind their values in order. -/
lemma bound_setClause (index : Nat) (assignments : List (String × Value)) :
    (setClause index assignments).bound = assignments.map Prod.snd := by
  rw [setClause, Clause.bound_set, List.map_map]
  rfl

/-- Columns of a bound table are set without a fault. -/
lemma fault?_setClause {index tables : Nat} (hindex : index < tables)
    (assignments : List (String × Value)) :
    ∀ step ∈ (setClause index assignments).walk, step.fault? tables = none := by
  intro step hstep
  simp only [setClause, Clause.walk, List.flatMap_map, List.mem_flatMap, List.mem_cons,
    List.not_mem_nil, or_false] at hstep
  obtain ⟨entry, -, rfl | rfl⟩ := hstep
  · exact Step.fault?_column_eq_none_iff.2 hindex
  · rfl

/-- An update of columns of a bound table. -/
lemma updateStatement_build {index : Nat} {assignments : List (String × Value)}
    (hindex : index < f.source.joins.length + 1) (hassignments : assignments ≠ []) :
    (Description.update (f.updateStatement index assignments)).build.mapError .compile =
      f.answer (["UPDATE " ++ f.source.primary.name ++ " t1"] ++ f.joinTexts ++
        [setText index (assignments.map Prod.fst), f.whereText])
        (f.joinValues ++ assignments.map Prod.snd ++ f.predicate.values) := by
  have hclauses : (Description.update
      { table := f.source.primary.name, joins := f.source.joins
        assignments := assignments.map fun (column, value) => ⟨⟨index, column⟩, value⟩
        where? := some f.predicate }).clauses =
      f.clauses [.update f.source.primary.name] [setClause index assignments] := by
    cases assignments with
    | nil => exact absurd rfl hassignments
    | cons a rest => rfl
  have hmiddle : ∀ clause ∈ [setClause index assignments], ∀ step ∈ clause.walk,
      step.fault? f.context.bound = none := by
    intro clause hclause
    obtain rfl := List.mem_singleton.1 hclause
    exact fault?_setClause hindex assignments
  have hupdate : (Clause.update f.source.primary.name).text Value.placeholder f.context =
      "UPDATE " ++ f.source.primary.name ++ " t1" := by
    have htext : (Clause.update f.source.primary.name).text Value.placeholder f.context =
        "UPDATE " ++ TableRef.access ⟨0, f.source.primary.name⟩ := rfl
    rw [htext, TableRef.access_zero, String.append_assoc]
  have hlines : (f.clauses [.update f.source.primary.name] [setClause index assignments]).map
      (·.text Value.placeholder f.context) =
        ["UPDATE " ++ f.source.primary.name ++ " t1"] ++ f.joinTexts ++
          [setText index (assignments.map Prod.fst), f.whereText] := by
    rw [map_text_clauses, List.map_singleton, List.map_singleton, hupdate, text_setClause,
      List.append_assoc]
    rfl
  rw [f.updateStatement_eq, build_eq_answer rfl rfl rfl hclauses (by simp [Clause.walk]) hmiddle,
    List.flatMap_singleton, bound_setClause]
  exact congrArg (f.answer · _) hlines

/-- A deletion of the rows of a table without joins. -/
lemma delete_eq (hjoins : f.source.joins = []) :
    f.delete = f.answer ["DELETE FROM " ++ f.source.primary.name,
      "WHERE " ++ f.predicate.text Value.placeholder .bare] f.predicate.values := by
  have hdelete : f.delete = (Description.delete
      ((DeleteStatement.ofTable f.source.primary.name).filter f.predicate)).build.mapError
        .compile := by
    rw [delete, hjoins]
    rfl
  have hbound : Context.bare.bound = f.context.bound := by
    rw [context, hjoins]
    rfl
  have hclauses : (Description.delete
      ((DeleteStatement.ofTable f.source.primary.name).filter f.predicate)).clauses =
      f.clauses [.delete f.source.primary.name] [] := by
    rw [clauses, hjoins]
    rfl
  have hsame : (Description.delete
      ((DeleteStatement.ofTable f.source.primary.name).filter f.predicate)).joins =
      f.source.joins := hjoins.symm
  rw [hdelete, build_eq_answer hsame hbound rfl hclauses (by simp [Clause.walk]) nofun, clauses,
    joinValues, hjoins]
  rfl

/-- There is no deletion through joins. -/
lemma delete_eq_joinedDelete (hjoins : f.source.joins ≠ []) : f.delete = .error .joinedDelete := by
  rw [delete, if_neg (by simpa using hjoins)]

/-- Without joins the line of the condition has the alias of the primary table at each column. -/
lemma whereText_eq (hjoins : f.source.joins = []) (h : f.rowFault? = none) :
    f.whereText = "WHERE " ++ Piece.fill (fun c => "t1." ++ c.name) f.predicate.pieces := by
  have hprimary : ∀ c ∈ f.predicate.columns, c.table = 0 := by
    intro c hc
    have hlt : c.table < f.source.joins.length + 1 := table_lt_of_rowFault?_eq_none h hc
    rw [hjoins] at hlt
    exact Nat.lt_one_iff.1 hlt
  rw [whereText, context, Predicate.text_qualified_eq_fill hprimary]

end FilteredTable

/-! ## Agreement -/

namespace Handle

/-- **Reads and writes of one filtered handle agree.** Take an update of a table in range by a
record that is not empty and whose fields are known. The read, the count and the update all fail for
one and the same reason, or they all succeed. If they succeed, they have the same lines for the
joins and the same line for the condition; the read and the count bind the values of the joins and
then those of the condition, and the update binds the values of the record between them. Without
joins the deletion goes along with them: it has the condition with nothing where the read has the
alias `t1`, and it binds the values of the condition. With joins there is no deletion.

**Proof sketch.** The four compilations pass the joins, the columns to set and the condition in this
order, as far as they have them. The columns to set are those of a bound table, so that the first
fault is the same for all. -/
theorem Reachable.same_rows {allowed : Source → Call → Prop} {f : FilteredTable}
    (hreach : (filtered f).Reachable allowed) {index : Nat} {target : TableDef} {record : Record}
    (htarget : f.source.tables[index]? = some target) (hrecord : record ≠ [])
    (hknown : ∀ entry ∈ record, (target.columnFor? entry.1).isSome) :
    ((∃ e, f.select.generate = .error (.compile e) ∧ f.count.generate = .error (.compile e) ∧
        f.updateTable index record = .error (.compile e) ∧
        (f.source.joins = [] → f.delete = .error (.compile e))) ∨
      (f.select.generate = .ok
          ⟨"\n".intercalate (["SELECT *", "FROM " ++ f.source.primary.name ++ " t1"] ++
            f.joinTexts ++ [f.whereText]), (f.joinValues ++ f.predicate.values).toArray⟩ ∧
        f.count.generate = .ok
          ⟨"\n".intercalate (["SELECT COUNT(*)", "FROM " ++ f.source.primary.name ++ " t1"] ++
            f.joinTexts ++ [f.whereText]), (f.joinValues ++ f.predicate.values).toArray⟩ ∧
        (∃ columns : List String,
          columns.map some = record.map (fun entry => target.columnFor? entry.1) ∧
          f.updateTable index record = .ok
            ⟨"\n".intercalate (["UPDATE " ++ f.source.primary.name ++ " t1"] ++ f.joinTexts ++
              [FilteredTable.setText index columns, f.whereText]),
            (f.joinValues ++ record.map Prod.snd ++ f.predicate.values).toArray⟩) ∧
        (f.source.joins = [] →
          f.delete = .ok
            ⟨"\n".intercalate ["DELETE FROM " ++ f.source.primary.name,
              "WHERE " ++ f.predicate.text Value.placeholder .bare],
            f.predicate.values.toArray⟩ ∧
          f.whereText = "WHERE " ++ Piece.fill (fun c => "t1." ++ c.name) f.predicate.pieces ∧
          f.predicate.text Value.placeholder .bare =
            Piece.fill (·.name) f.predicate.pieces))) ∧
      (f.source.joins ≠ [] → f.delete = .error .joinedDelete) := by
  have hlength : f.source.tables.length = f.source.joins.length + 1 := hreach.aligned.length
  have hindex : index < f.source.joins.length + 1 := by
    rw [← hlength]
    exact (List.getElem?_eq_some_iff.1 htarget).1
  obtain ⟨assignments, hresolve, hcolumns, hvalues⟩ := TableDef.resolvePartial_eq_ok hknown
  have hassignments : assignments ≠ [] := by
    rintro rfl
    exact hrecord (List.map_eq_nil_iff.1 hvalues.symm)
  have hupdate := f.updateTable_eq htarget hresolve
  rw [if_neg (by simpa using hassignments),
    FilteredTable.updateStatement_build hindex hassignments, hvalues] at hupdate
  rw [f.select_generate, f.count_generate, hupdate]
  refine ⟨?_, FilteredTable.delete_eq_joinedDelete⟩
  cases hfault : f.rowFault? with
  | some e =>
    have herror := FilteredTable.answer_eq_error hfault
    refine .inl ⟨e, herror _ _, herror _ _, herror _ _, ?_⟩
    intro hjoins
    rw [FilteredTable.delete_eq hjoins, herror]
  | none =>
    have hok := FilteredTable.answer_eq_ok hfault
    refine .inr ⟨hok _ _, hok _ _, ⟨assignments.map Prod.fst, ?_, hok _ _⟩, ?_⟩
    · rw [List.map_map, ← hcolumns]
      rfl
    · intro hjoins
      rw [FilteredTable.delete_eq hjoins]
      exact ⟨hok _ _, FilteredTable.whereText_eq hjoins hfault, f.predicate.text_bare_eq_fill⟩

/-- The condition that a node has no parent, or the first parent and a low number. -/
def isRoot (scope : Scope) : Predicate :=
  (fieldAt 0 "parent" scope).isNull.or
    (.all [(fieldAt 0 "parent" scope).equals (.value (.integer 1)),
      (fieldAt 0 "id" scope).compare .lessThan (.value (.integer 9))])

/-- Nodes without a parent, or with the first parent and a low number: a read, an update and a
deletion of them have one condition. -/
theorem Reachable.same_rows_roots :
    (filtered (nodes.filter isRoot)).Reachable (fun _ _ => True) ∧
      (nodes.filter isRoot).select.generate = .ok
        ⟨"SELECT *\nFROM node t1\nWHERE t1.parent_id IS NULL OR (t1.parent_id = ? AND t1.id < ?)",
          #[.integer 1, .integer 9]⟩ ∧
      (nodes.filter isRoot).updateTable 0 [("parent", .null), ("id", .integer 4)] = .ok
        ⟨"UPDATE node t1\nSET t1.parent_id = ?, t1.id = ?\n" ++
            "WHERE t1.parent_id IS NULL OR (t1.parent_id = ? AND t1.id < ?)",
          #[.null, .integer 4, .integer 1, .integer 9]⟩ ∧
      (nodes.filter isRoot).delete = .ok
        ⟨"DELETE FROM node\nWHERE parent_id IS NULL OR (parent_id = ? AND id < ?)",
          #[.integer 1, .integer 9]⟩ := by
  have hnext : (table nodes).call? (.filter isRoot) = some (filtered (nodes.filter isRoot)) := rfl
  have hreach : (filtered (nodes.filter isRoot)).Reachable (fun _ _ => True) :=
    .step (.start nodes) trivial hnext
  have htarget : (nodes.filter isRoot).source.tables[0]? = some nodes.definition := rfl
  have hrecord : [("parent", Value.null), ("id", .integer 4)] ≠ [] := List.cons_ne_nil _ _
  obtain ⟨⟨e, herror, -⟩ | ⟨hselect, -, ⟨columns, hcolumns, hupdate⟩, hdelete⟩, -⟩ :=
    Reachable.same_rows hreach htarget hrecord (by decide)
  · cases herror
  · obtain rfl : columns = ["parent_id", "id"] :=
      List.map_injective_iff.2 (fun _ _ => Option.some.inj) hcolumns
    exact ⟨hreach, hselect, hupdate, (hdelete rfl).1⟩

end Handle

end BoundSql
