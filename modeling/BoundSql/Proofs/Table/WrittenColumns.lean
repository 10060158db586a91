import BoundSql.Proofs.Cli.Noninterference
import BoundSql.Proofs.Schema.Verdict

/-!
# Columns of writes

Which columns a statement writes. An insertion lists the column of each field of its table; an
update assigns a column for each entry of its record. An accepted schema has no field key twice in a
table, but two field keys may stand for one column, and a record may have a key twice.

## Main definitions

* `BoundSql.TableEntry.HasOwnColumns` — no two fields of a table share a column.
* `BoundSql.TableDef.assigned` — the columns that the keys of a record stand for.
* `BoundSql.Statement.Inserts`, `BoundSql.Statement.Assigns` — the statements that insert records
  and that assign the entries of a record.

## Main results

* `BoundSql.TableEntry.WellFormed.nodup_columns_iff`, `BoundSql.TableDef.nodup_assigned_iff` — when
  no column is written twice.
* `BoundSql.Schema.written_columns` — the columns of insertions and updates of declared tables.
-/

namespace BoundSql

/-! ## Columns of a table -/

/-- Fields of a declared table with one column are one field. -/
def TableEntry.HasOwnColumns (entry : TableEntry) : Prop :=
  ∀ c ∈ entry.columns, ∀ d ∈ entry.columns, c.column = d.column → c.field = d.field

instance (entry : TableEntry) : Decidable entry.HasOwnColumns :=
  inferInstanceAs (Decidable (∀ c ∈ entry.columns, ∀ d ∈ entry.columns,
    c.column = d.column → c.field = d.field))

/-- A well-formed table declares no column twice exactly if no two of its fields share a column. -/
theorem TableEntry.WellFormed.nodup_columns_iff {entry : TableEntry} (h : entry.WellFormed) :
    (entry.columns.map (·.column)).Nodup ↔ entry.HasOwnColumns := by
  have hentries : entry.columns.Nodup := h.nodup.of_map _
  constructor
  · intro hnodup c hc d hd hcolumn
    exact congrArg ColumnEntry.field (List.inj_on_of_nodup_map hnodup hc hd hcolumn)
  · intro hown
    refine hentries.map_on ?_
    intro c hc d hd hcolumn
    exact List.inj_on_of_nodup_map h.nodup hc hd (hown c hc d hd hcolumn)

/-! ## Columns of a record -/

namespace TableDef

/-- The columns that the keys of a record stand for, entry by entry. -/
def assigned (table : TableDef) (record : Record) : List String :=
  record.filterMap fun entry => table.columnFor? entry.1

variable {table : TableDef} {record : Record}

/-- The columns of a record that is resolved are those that its keys stand for. -/
lemma eq_assigned {columns : List String}
    (h : columns.map some = record.map fun entry => table.columnFor? entry.1) :
    columns = table.assigned record := by
  have hcolumns : (record.map fun entry => table.columnFor? entry.1).filterMap id = columns := by
    rw [← h, List.filterMap_map]
    exact List.filterMap_some
  rw [← hcolumns, List.filterMap_map]
  rfl

/-- The keys of a record that is resolved are fields. -/
lemma isSome_of_map_some_eq {columns : List String}
    (h : columns.map some = record.map fun entry => table.columnFor? entry.1) :
    ∀ entry ∈ record, (table.columnFor? entry.1).isSome := by
  intro entry hentry
  have hmem : table.columnFor? entry.1 ∈ columns.map some := by
    rw [h]
    exact List.mem_map_of_mem hentry
  obtain ⟨column, -, hcolumn⟩ := List.mem_map.1 hmem
  rw [← hcolumn]
  rfl

/-- **No column is assigned twice** exactly if no two keys of the record stand for one column. -/
theorem nodup_assigned_iff (hknown : ∀ entry ∈ record, (table.columnFor? entry.1).isSome) :
    (table.assigned record).Nodup ↔
      record.Pairwise fun a b => table.columnFor? a.1 ≠ table.columnFor? b.1 := by
  rw [assigned, List.Nodup, List.pairwise_filterMap]
  refine List.Pairwise.iff_of_mem ?_
  intro a b ha hb
  obtain ⟨column, hcolumn⟩ := Option.isSome_iff_exists.1 (hknown a ha)
  simp only [hcolumn, Option.some.injEq, forall_eq']
  constructor
  · intro h hsame
    exact h column hsame.symm rfl
  · rintro h other hother rfl
    exact h hother.symm

end TableDef

/-- Where each field has a column of its own, a column is assigned twice only by a key that is
repeated. -/
theorem TableEntry.WellFormed.nodup_assigned_iff {entry : TableEntry} (h : entry.WellFormed)
    (hown : entry.HasOwnColumns) {record : Record}
    (hknown : ∀ e ∈ record, (entry.toTableDef.columnFor? e.1).isSome) :
    (entry.toTableDef.assigned record).Nodup ↔ (record.map Prod.fst).Nodup := by
  rw [TableDef.nodup_assigned_iff hknown, List.Nodup, List.pairwise_map]
  refine List.Pairwise.iff_of_mem ?_
  intro a b ha hb
  refine not_congr ⟨fun hsame => ?_, fun hkey => congrArg _ hkey⟩
  obtain ⟨column, hcolumn⟩ := Option.isSome_iff_exists.1 (hknown a ha)
  have hfirst := h.columnFor?_eq_some_iff.1 hcolumn
  have hsecond := h.columnFor?_eq_some_iff.1 (hsame.symm.trans hcolumn)
  exact hown _ hfirst _ hsecond rfl

/-! ## Statements -/

namespace Statement

/-- A statement that inserts records into a declared table. It lists the columns of all fields, in
the order of declaration. Of several values that a record has for a field it binds the last one. -/
structure Inserts (statement : Statement) (entry : TableEntry) (records : List Record) : Prop where
  /-- The columns of the text are those of the fields. -/
  sql : ∃ keyword ∈ ["INSERT INTO", "REPLACE INTO"], statement.sql =
    keyword ++ InsertStatement.tail entry.name (entry.columns.map (·.column)) records.length
  /-- The values are given for the fields of the columns. -/
  params : ∃ rows,
    List.Forall₂ (fun record : Record =>
      List.Forall₂ (fun c value => record.Gives c.field value) entry.columns) records rows ∧
    statement.params = rows.flatten.toArray

/-- A statement that assigns the entries of a record to columns of the table bound at a number, one
column for each entry, in the order of the record. -/
structure Assigns (statement : Statement) (f : FilteredTable) (index : Nat) (target : TableDef)
    (record : Record) : Prop where
  /-- The keys of the record are fields. -/
  known : ∀ entry ∈ record, (target.columnFor? entry.1).isSome
  /-- The `SET` line has the columns of the record. -/
  sql : statement.sql =
    "\n".intercalate (["UPDATE " ++ f.source.primary.name ++ " t1"] ++ f.joinTexts ++
      [FilteredTable.setText index (target.assigned record), f.whereText])
  /-- The values of the record stand between those of the joins and of the condition. -/
  params : statement.params =
    (f.joinValues ++ record.map Prod.snd ++ f.predicate.values).toArray

end Statement

/-- The statement of an insertion inserts its records. -/
lemma TableEntry.inserts_of_insertBatch {entry : TableEntry} {records : List Record}
    {statement : Statement}
    (h : entry.toTable.insertBatch records = .ok statement ∨
      entry.toTable.replaceBatch records = .ok statement) :
    statement.Inserts entry records := by
  have hcolumns : entry.toTableDef.mapping.map Prod.snd = entry.columns.map (·.column) := by
    rw [toTableDef, List.map_map]
    rfl
  have htail : entry.toTable.insertionTail records.length =
      InsertStatement.tail entry.name (entry.columns.map (·.column)) records.length := by
    rw [← hcolumns]
    rfl
  rw [Table.insertBatch_eq, Table.replaceBatch_eq, htail] at h
  cases hrows : entry.toTable.resolveRows records with
  | error e =>
    rw [hrows] at h
    obtain h | h := h <;> cases h
  | ok rows =>
    rw [hrows] at h
    have hgives : List.Forall₂ (fun record : Record =>
        List.Forall₂ (fun c value => record.Gives c.field value) entry.columns) records rows := by
      refine (Table.resolveRows_eq_ok_iff.1 hrows).1.imp ?_
      intro record row hrow
      have hcells : List.Forall₂ (fun field value => record.Gives field.1 value)
          (entry.columns.map fun c => (c.field, c.column)) row :=
        (TableDef.resolveRow_eq_ok_iff.1 hrow).2
      rwa [List.forall₂_map_left_iff] at hcells
    obtain h | h := h
    · obtain rfl := Except.ok.inj h
      exact ⟨⟨"INSERT INTO", by simp, rfl⟩, rows, hgives, rfl⟩
    · obtain rfl := Except.ok.inj h
      exact ⟨⟨"REPLACE INTO", by simp, rfl⟩, rows, hgives, rfl⟩

/-- The statement of an update of a bound table assigns the entries of its record. -/
lemma FilteredTable.assigns_of_updateTable {f : FilteredTable}
    (hlength : f.source.tables.length = f.source.joins.length + 1) {index : Nat} {target : TableDef}
    (htarget : f.source.tables[index]? = some target) {record : Record} {statement : Statement}
    (h : f.updateTable index record = .ok statement) :
    statement.Assigns f index target record := by
  have hindex : index < f.source.joins.length + 1 := by
    rw [← hlength]
    exact (List.getElem?_eq_some_iff.1 htarget).1
  cases hresolve : target.resolvePartial record with
  | error e =>
    rw [updateTable_eq_error htarget hresolve] at h
    cases h
  | ok assignments =>
    rw [updateTable_eq htarget hresolve] at h
    have hassignments : assignments ≠ [] := by
      rintro rfl
      cases h
    rw [if_neg (by simpa using hassignments), updateStatement_build hindex hassignments] at h
    cases hfault : f.rowFault? with
    | some e =>
      rw [answer_eq_error hfault] at h
      cases h
    | none =>
      rw [answer_eq_ok hfault] at h
      obtain rfl := Except.ok.inj h
      obtain ⟨hcolumns, hvalues⟩ := TableDef.of_resolvePartial_eq_ok hresolve
      have hkeys : (assignments.map Prod.fst).map some =
          record.map fun entry => target.columnFor? entry.1 := by
        rw [← hcolumns, List.map_map]
        rfl
      refine ⟨TableDef.isSome_of_map_some_eq hkeys, ?_, ?_⟩
      · rw [TableDef.eq_assigned hkeys]
      · rw [hvalues]

namespace Cli

/-- A command about a declared table is compiled for it. -/
lemma Command.compile_of_table_eq_ok [Json.Library] {schema : Schema} {name : String}
    {entry : TableEntry}
    (hentry : schema.table name = .ok entry) {command : Command}
    (hname : command.table? = some name) :
    command.compile schema = command.compileFor entry.toTable := by
  rw [compile, hname]
  change ((schema.table name).mapError CommandError.schema >>= _) = _
  rw [hentry]
  rfl

/-- An insertion of a command line inserts the records that its text tells. -/
lemma inserts_of_compileInsert [Json.Library] {entry : TableEntry} {text : String} {replace : Bool}
    {statement : Statement} (h : compileInsert entry.toTable text replace = .ok statement) :
    ∃ records, Record.ofJson text = .ok records ∧ statement.Inserts entry records := by
  obtain ⟨records, hrecords, h⟩ := bind_eq_ok_iff.1 h
  refine ⟨records, mapError_eq_ok_iff.1 hrecords, TableEntry.inserts_of_insertBatch ?_⟩
  have hbatch := mapError_eq_ok_iff.1 h
  cases replace with
  | false => exact .inl hbatch
  | true => exact .inr hbatch

/-- An update of a command line assigns the record that its assignments write. -/
lemma assigns_of_compileUpdate {table : Table} {assignments : List String} {filter : Filter}
    {statement : Statement} (h : compileUpdate table assignments filter = .ok statement) :
    ∃ (p : Predicate) (record : Record), filter.predicate? table = .ok (some p) ∧
      assignments.map readAssignment? = record.map some ∧
      statement.Assigns (table.filter fun _ => p) 0 table.definition record := by
  obtain ⟨record, hrecord, h⟩ := bind_eq_ok_iff.1 h
  obtain ⟨condition?, hcondition, h⟩ := bind_eq_ok_iff.1 h
  cases condition? with
  | none => cases h
  | some p =>
    have hupdate : (table.filter fun _ => p).updateTable 0 record = .ok statement :=
      mapError_eq_ok_iff.1 h
    exact ⟨p, record, hcondition, mapM_parseAssignment_eq_ok_iff.1 hrecord,
      FilteredTable.assigns_of_updateTable rfl rfl hupdate⟩

end Cli

/-! ## Declared tables -/

namespace Schema

/-- **The columns of writes to a declared table** of an accepted schema. An insertion or a
replacement lists the columns of all fields, once for each field, and takes the last value of a
field that is given twice; so it lists no column twice exactly if no two fields share a column. An
update through a filtered handle, by whatever number the table is bound, assigns a column for each
entry of its record, in the order of the record; so it assigns no column twice exactly if no two
keys of the record stand for one column, which means that no key is repeated where no two fields
share a column. The commands that insert and update are such insertions and updates.

**Proof sketch.** The keys of an accepted table are distinct, so a look-up finds the one column that
is declared for a key (`columnFor?_eq_some_iff`), and columns repeat only where fields share them.
-/
theorem written_columns [Json.Library] {schema : Schema} (hschema : schema.resolve = .ok ())
    {entry : TableEntry}
    (hentry : entry ∈ schema.tables) :
    (∀ records statement,
      (entry.toTable.insertBatch records = .ok statement ∨
        entry.toTable.replaceBatch records = .ok statement) →
      statement.Inserts entry records) ∧
    ((entry.columns.map (·.column)).Nodup ↔ entry.HasOwnColumns) ∧
    (∀ (f : FilteredTable) index record statement,
      (Handle.filtered f).Reachable (fun _ _ => True) →
      f.source.tables[index]? = some entry.toTableDef →
      f.updateTable index record = .ok statement →
      statement.Assigns f index entry.toTableDef record) ∧
    (∀ record : Record, (∀ e ∈ record, (entry.toTableDef.columnFor? e.1).isSome) →
      ((entry.toTableDef.assigned record).Nodup ↔ record.Pairwise fun a b =>
        entry.toTableDef.columnFor? a.1 ≠ entry.toTableDef.columnFor? b.1) ∧
      (entry.HasOwnColumns →
        ((entry.toTableDef.assigned record).Nodup ↔ (record.map Prod.fst).Nodup))) ∧
    (∀ text replace statement,
      Cli.Command.compile schema (.insert entry.name text replace) = .ok (some statement) →
      ∃ records, Record.ofJson text = .ok records ∧ statement.Inserts entry records) ∧
    (∀ assignments filter statement,
      Cli.Command.compile schema (.update entry.name assignments filter) = .ok (some statement) →
      ∃ (p : Predicate) (record : Record), filter.predicate? entry.toTable = .ok (some p) ∧
        assignments.map readAssignment? = record.map some ∧
        statement.Assigns (entry.toTable.filter fun _ => p) 0 entry.toTableDef record) := by
  have hwellFormed : schema.WellFormed := resolve_eq_ok_iff.1 hschema
  have hdeclared : entry.WellFormed := hwellFormed.tables entry hentry
  have htable : schema.table entry.name = .ok entry := hwellFormed.table_eq_ok hentry
  refine ⟨fun _ _ => TableEntry.inserts_of_insertBatch, hdeclared.nodup_columns_iff, ?_, ?_, ?_, ?_⟩
  · intro f index record statement hreach htarget hupdate
    exact FilteredTable.assigns_of_updateTable hreach.aligned.length htarget hupdate
  · intro record hknown
    exact ⟨TableDef.nodup_assigned_iff hknown, fun hown => hdeclared.nodup_assigned_iff hown hknown⟩
  · intro text replace statement h
    rw [Cli.Command.compile_of_table_eq_ok htable rfl] at h
    exact Cli.inserts_of_compileInsert (Cli.of_map_some_eq_ok h)
  · intro assignments filter statement h
    rw [Cli.Command.compile_of_table_eq_ok htable rfl] at h
    exact Cli.assigns_of_compileUpdate (Cli.of_map_some_eq_ok h)

/-- Posts, with two field keys for their author. -/
def bylines : TableEntry :=
  ⟨"post", [⟨"id", "id"⟩, ⟨"author", "author_id"⟩, ⟨"writer", "author_id"⟩]⟩

/-- A post has a number. -/
def isNumbered (scope : Scope) : Predicate := (Handle.fieldAt 0 "id" scope).isNotNull

/-- The posts with a number. -/
def numbered : FilteredTable := bylines.toTable.filter isNumbered

/-- Writers and authors of a post. -/
def newBylines : Record := [("writer", .integer 3), ("id", .null), ("author", .integer 4)]

/-- The schema of posts is accepted, and an update may assign the column of the author twice. -/
theorem written_columns_bylines :
    (⟨[bylines]⟩ : Schema).resolve = .ok () ∧ ¬ (bylines.columns.map (·.column)).Nodup ∧
      numbered.updateTable 0 newBylines =
        .ok ⟨"UPDATE post t1\nSET t1.author_id = ?, t1.id = ?, t1.author_id = ?\n" ++
          "WHERE t1.id IS NOT NULL", #[.integer 3, .null, .integer 4]⟩ ∧
      ¬ (bylines.toTableDef.assigned newBylines).Nodup := by
  have hschema : (⟨[bylines]⟩ : Schema).resolve = .ok () := by decide +kernel
  have hshared : ¬ bylines.HasOwnColumns := by decide
  have hupdate : numbered.updateTable 0 newBylines =
      .ok ⟨"UPDATE post t1\nSET t1.author_id = ?, t1.id = ?, t1.author_id = ?\n" ++
        "WHERE t1.id IS NOT NULL", #[.integer 3, .null, .integer 4]⟩ := rfl
  obtain ⟨-, hcolumns, hupdates, hrecords, -⟩ := written_columns hschema List.mem_cons_self
  have hnext : (Handle.table bylines.toTable).call? (.filter isNumbered) =
      some (.filtered numbered) := rfl
  have hreach : (Handle.filtered numbered).Reachable (fun _ _ => True) :=
    .step (.start bylines.toTable) trivial hnext
  have hassigns := hupdates numbered 0 _ _ hreach rfl hupdate
  refine ⟨hschema, mt hcolumns.1 hshared, hupdate, ?_⟩
  rw [(hrecords newBylines hassigns.known).1]
  decide

/-- Accepted schemas do not keep a column from being written twice: two fields may share it, and an
update may have a field twice. -/
theorem columns_written_twice :
    ((⟨[bylines]⟩ : Schema).resolve = .ok () ∧
      bylines.toTable.insert [("id", .integer 1), ("author", .integer 3), ("writer", .integer 4)] =
        .ok ⟨"INSERT INTO post (id, author_id, author_id)\nVALUES (?, ?, ?)",
          #[.integer 1, .integer 3, .integer 4]⟩) ∧
      sample.resolve = .ok () ∧
      Cli.Command.compile sample
          (.update "blog" ["title=a", "title=b"] { conditions := ["id=1"] }) =
        .ok (some ⟨"UPDATE blog t1\nSET t1.title = ?, t1.title = ?\nWHERE t1.id = ?",
          #[.text "a", .text "b", .integer 1]⟩) := by
  refine ⟨⟨?_, ?_⟩, ?_, ?_⟩
  · decide +kernel
  · rfl
  · decide +kernel
  · decide +kernel

end Schema

end BoundSql
