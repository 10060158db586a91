import BoundSql.Json.Reader
import BoundSql.Proofs.Cli.Parts
import BoundSql.Proofs.Table.Records

/-!
# Soundness of commands

A command against an accepted schema yields a statement with one parameter for each question mark,
or it is refused for what it asks for. It never panics, and what it asks the library for always
compiles.

## Main definitions

* `BoundSql.Statement.IsAligned` — a statement with one parameter for each question mark.

## Main results

* `BoundSql.Cli.compileSelect_yields`, `BoundSql.Cli.compileUpdate_yields`, … — the outcomes of each
  kind of command.
* `BoundSql.Cli.Command.compile_sound` — the outcomes of every command.
-/

namespace BoundSql

/-- A statement with one parameter for each question mark. -/
def Statement.IsAligned (statement : Statement) : Prop :=
  statement.placeholders = statement.params.size

/-! ## Compilations -/

/-- A description over the primary table compiles. -/
lemma Description.IsPrimary.yields {d : Description} (h : d.IsPrimary) :
    Cli.Yields TableError.IsRefusal Statement.IsAligned (d.build.mapError .compile) := by
  obtain ⟨statement, hbuild, haligned⟩ := h.build_eq_ok
  rw [hbuild]
  exact haligned

namespace Cli

/-! ## Steps of descriptions -/

/-- A query over the primary table has a statement. -/
lemma generate_yields {query : Query} (h : query.statement.IsPrimary) :
    Yields CommandError.IsRefusal Statement.IsAligned (query.generate.mapError .table) := by
  have hcount : (Description.count query.statement).IsPrimary := h
  have hselect : (Description.select query.statement).IsPrimary := h
  have hgenerate : Yields TableError.IsRefusal Statement.IsAligned query.generate := by
    unfold Query.generate
    split
    · exact hcount.yields
    · exact hselect.yields
  exact hgenerate.mapError fun e he => .table he

/-- The chosen fields are read of a query over the primary table. -/
lemma isPrimary_project {mapping? : Option ProjectionMap} {map : (Scope → ProjectionMap) → Query}
    {select : Query} (hmapping : ∀ m ∈ mapping?, (Projection.map m).IsPrimary)
    (hselect : select.statement.IsPrimary)
    (hmap : ∀ m, (map fun _ => m).statement = select.statement.select (.map m)) :
    (project mapping? map select).statement.IsPrimary := by
  cases mapping? with
  | none => exact hselect
  | some m =>
    rw [project, hmap m]
    exact hselect.setProjection (hmapping m rfl)

/-- A window keeps a query over the primary table. -/
lemma isPrimary_withWindow (options : ReadOptions) {query : Query}
    (h : query.statement.IsPrimary) : (withWindow options query).statement.IsPrimary := by
  unfold withWindow
  have hlimited : (options.limit?.elim query query.limit).statement.IsPrimary := by
    cases options.limit? with
    | none => exact h
    | some count => exact h.setLimit count
  cases options.offset? with
  | none => exact hlimited
  | some count => exact hlimited.setOffset count

/-- Assigning to columns of the primary table keeps an update of it. -/
lemma isPrimary_foldl_assign {assignments : List (String × Value)} {s : UpdateStatement}
    (hs : s.IsPrimary) (h : ∀ a ∈ assignments, isIdentifier a.1) :
    (assignments.foldl (fun statement (column, value) => statement.assign ⟨0, column⟩ value)
      s).IsPrimary := by
  induction assignments generalizing s with
  | nil => exact hs
  | cons a rest ih =>
    obtain ⟨ha, hrest⟩ := List.forall_mem_cons.1 h
    have hnew : ∀ b ∈ [(⟨⟨0, a.1⟩, a.2⟩ : Assignment)], b.column.IsPrimary := by
      intro b hb
      obtain rfl := List.mem_singleton.1 hb
      exact ⟨rfl, ha⟩
    exact ih { hs with assignments := List.forall_mem_append.2 ⟨hs.assignments, hnew⟩ } hrest

/-! ## Reads and counts -/

section Commands

variable {table : Table} (htable : table.definition.WellNamed)

include htable

/-- A read of the table. -/
lemma isPrimary_source : table.source.statement.IsPrimary :=
  SelectStatement.isPrimary_ofTable htable.name

/-- **The query of a read** is one over the table. The sort key has been looked up before, so its
second look-up does not panic. -/
lemma readQuery_yields {direction : Direction} {mapping? : Option ProjectionMap}
    {predicate? : Option Predicate} {sort? : Option String}
    (hmapping : ∀ m ∈ mapping?, (Projection.map m).IsPrimary)
    (hpredicate : ∀ p ∈ predicate?, p.IsPrimary)
    (hsort : ∀ field ∈ sort?, ∃ column, fieldColumn table field = .ok column ∧ column.IsPrimary) :
    Yields CommandError.IsRefusal (fun query => query.statement.IsPrimary)
      (readQuery table direction mapping? predicate? sort?) := by
  have hsource := isPrimary_source htable
  cases predicate? with
  | none =>
    cases sort? with
    | none => exact isPrimary_project hmapping hsource fun _ => rfl
    | some field =>
      obtain ⟨column, hcolumn, hprimary⟩ := hsort field rfl
      rw [readQuery, sortColumn_of_fieldColumn hcolumn]
      exact isPrimary_project hmapping (hsource.addSortKey hprimary) fun _ => rfl
  | some predicate =>
    have hfiltered := hsource.addFilter (hpredicate predicate rfl)
    cases sort? with
    | none => exact isPrimary_project hmapping hfiltered fun _ => rfl
    | some field =>
      obtain ⟨column, hcolumn, hprimary⟩ := hsort field rfl
      change Yields _ _ (sortColumn table.scope field >>= _)
      rw [sortColumn_of_fieldColumn hcolumn]
      exact isPrimary_project hmapping (hfiltered.addSortKey hprimary) fun _ => rfl

/-- The check of a sort key finds its column. -/
lemma sortCheck_yields (sort? : Option String) :
    Yields CommandError.IsRefusal
      (fun _ => ∀ field ∈ sort?, ∃ column, fieldColumn table field = .ok column ∧ column.IsPrimary)
      (sort?.forM fun field => discard (fieldColumn table field)) := by
  cases sort? with
  | none => exact fun _ hfield => (nomatch hfield)
  | some field =>
    have hcolumn := fieldColumn_yields htable field
    change Yields _ _ (discard (fieldColumn table field))
    cases hlookup : fieldColumn table field with
    | error e =>
      rw [hlookup] at hcolumn
      exact hcolumn
    | ok column =>
      rw [hlookup] at hcolumn
      intro other hother
      obtain rfl : field = other := Option.some.inj hother
      exact ⟨column, hlookup, hcolumn.2⟩

/-- **A read** has a statement, or it is refused. -/
theorem compileSelect_yields (options : ReadOptions) :
    Yields CommandError.IsRefusal Statement.IsAligned (compileSelect table options) := by
  apply (options.filter.predicate?_yields htable).bind
  intro predicate? hpredicate
  apply (projection?_yields htable options.columns).bind
  intro mapping? hmapping
  apply (sortCheck_yields htable options.sort?).bind
  intro _ hsort
  apply (readQuery_yields htable hmapping hpredicate hsort).bind
  intro query hquery
  exact generate_yields (isPrimary_withWindow options hquery)

/-- **A count** has a statement, or it is refused. -/
theorem compileCount_yields (filter : Filter) :
    Yields CommandError.IsRefusal Statement.IsAligned (compileCount table filter) := by
  apply (filter.predicate?_yields htable).bind
  intro predicate? hpredicate
  have hsource := isPrimary_source htable
  cases predicate? with
  | none => exact generate_yields hsource
  | some predicate => exact generate_yields (hsource.addFilter (hpredicate predicate rfl))

/-! ## Insertions -/

/-- The description of an insertion of complete rows. -/
lemma isPrimary_insertStatement {rows : List (List Value)}
    (h : ∀ row ∈ rows, row.length = table.definition.mapping.length) :
    (table.insertStatement rows).IsPrimary := by
  rw [table.insertStatement_eq]
  refine ⟨htable.name, ?_, ?_⟩
  · intro column hcolumn
    obtain ⟨entry, hentry, rfl⟩ := List.mem_map.1 hcolumn
    exact (htable.mapping entry hentry).2
  · intro row hrow
    rw [h row hrow, List.length_map]

/-- **An insertion** has a statement, or it is refused. -/
theorem compileInsert_yields [Json.Library] (text : String) (replace : Bool) :
    Yields CommandError.IsRefusal Statement.IsAligned (compileInsert table text replace) := by
  have hrecords : Yields CommandError.IsRefusal (fun _ => True) (parseRecords text) := by
    unfold parseRecords
    cases Record.ofJson text with
    | ok records => trivial
    | error e => exact .invalidRecord e
  apply hrecords.bind
  intro records _
  refine Yields.mapError ?_ fun e he => .table he
  split
  · apply (table.resolveRows_yields records).bind
    intro rows hrows
    have hprimary := isPrimary_insertStatement htable hrows
    have hreplace : (Description.insert (table.insertStatement rows).replace).IsPrimary :=
      { hprimary with }
    exact hreplace.yields
  · apply (table.resolveRows_yields records).bind
    intro rows hrows
    have hinsert : (Description.insert (table.insertStatement rows)).IsPrimary :=
      isPrimary_insertStatement htable hrows
    exact hinsert.yields

/-! ## Updates and deletions -/

/-- The description of an update of columns of the table. -/
lemma isPrimary_updateStatement {predicate : Predicate} (hpredicate : predicate.IsPrimary)
    {assignments : List (String × Value)} (h : ∀ a ∈ assignments, isIdentifier a.1) :
    ((table.filter fun _ => predicate).updateStatement 0 assignments).IsPrimary := by
  have hstart : (UpdateStatement.ofTable table.name).IsPrimary :=
    ⟨htable.name, rfl, fun _ ha => (nomatch ha), fun _ hp => (nomatch hp)⟩
  have hassigned := isPrimary_foldl_assign hstart h
  refine { hassigned with filter := ?_ }
  intro p hp
  obtain rfl : Predicate.narrow _ predicate = p := Option.some.inj hp
  exact hpredicate.narrow hassigned.filter

/-- **An update** has a statement, or it is refused. -/
theorem compileUpdate_yields (assignments : List String) (filter : Filter) :
    Yields CommandError.IsRefusal Statement.IsAligned
      (compileUpdate table assignments filter) := by
  have hrecord := Yields.mapM (l := assignments) fun text _ => parseAssignment_yields text
  apply hrecord.bind
  intro record _
  apply (filter.predicate?_yields htable).bind
  intro predicate? hpredicate
  cases predicate? with
  | none => exact .missingFilter "update"
  | some predicate =>
    have hupdate : Yields TableError.IsRefusal Statement.IsAligned
        ((table.filter fun _ => predicate).update record) := by
      apply (table.definition.resolvePartial_yields record).bind
      intro assigned hfields
      have hassigned : ∀ a ∈ assigned, isIdentifier a.1 := by
        intro a ha
        obtain ⟨field, hfield⟩ := hfields a ha
        exact (htable.columnFor? hfield).2
      have hprimary :
          (Description.update ((table.filter fun _ => predicate).updateStatement 0
            assigned)).IsPrimary :=
        isPrimary_updateStatement htable (hpredicate predicate rfl) hassigned
      split
      · exact .emptyUpdate _
      · exact hprimary.yields
    exact hupdate.mapError fun e he => .table he

/-- **A deletion** has a statement, or it is refused. -/
theorem compileDelete_yields (filter : Filter) :
    Yields CommandError.IsRefusal Statement.IsAligned (compileDelete table filter) := by
  apply (filter.predicate?_yields htable).bind
  intro predicate? hpredicate
  cases predicate? with
  | none =>
    have hall : (Description.delete (.ofTable table.name)).IsPrimary :=
      ⟨htable.name, fun _ hp => (nomatch hp)⟩
    have hdelete : Yields TableError.IsRefusal Statement.IsAligned table.deleteAll :=
      hall.yields
    exact hdelete.mapError fun e he => .table he
  | some predicate =>
    have hsome : (Description.delete
        ((DeleteStatement.ofTable table.name).filter predicate)).IsPrimary := by
      refine ⟨htable.name, ?_⟩
      intro p hp
      obtain rfl : predicate = p := Option.some.inj hp
      exact hpredicate predicate rfl
    have hdelete : Yields TableError.IsRefusal Statement.IsAligned
        (table.filter fun _ => predicate).delete := hsome.yields
    exact hdelete.mapError fun e he => .table he

/-! ## Commands -/

/-- **A command about a table** with proper names has a statement, or it is refused. -/
theorem Command.compileFor_yields [Json.Library] (command : Command) (name : String)
    (hcommand : command.table? = some name) :
    Yields CommandError.IsRefusal
      (fun statement? => ∃ statement, statement? = some statement ∧ statement.IsAligned)
      (command.compileFor table) := by
  have hsome : ∀ statement : Statement, statement.IsAligned →
      ∃ other, some statement = some other ∧ other.IsAligned := by
    intro statement haligned
    exact ⟨statement, rfl, haligned⟩
  cases command with
  | init => cases hcommand
  | tables => cases hcommand
  | select _ options => exact (compileSelect_yields htable options).map hsome
  | count _ filter => exact (compileCount_yields htable filter).map hsome
  | insert _ text replace => exact (compileInsert_yields htable text replace).map hsome
  | update _ assignments filter => exact (compileUpdate_yields htable assignments filter).map hsome
  | delete _ filter => exact (compileDelete_yields htable filter).map hsome
  | truncate _ =>
    have hplain : Text.IsPlain s!"TRUNCATE {table.name}" :=
      Text.isPlain_append.2 ⟨by decide, isPlain_of_isIdentifier htable.name⟩
    exact hsome _ (List.count_eq_zero.2 hplain)

end Commands

/-! ## Accepted schemas -/

/-- A table of an accepted schema is found with proper names, or it is unknown. -/
lemma table_yields {schema : Schema} (hresolve : schema.resolve = .ok ()) (name : String) :
    Yields CommandError.IsRefusal (fun entry => entry.toTable.definition.WellNamed)
      ((schema.table name).mapError .schema) := by
  cases hentry : schema.table name with
  | ok entry => exact (Schema.table_wellFormed hresolve hentry).wellNamed
  | error e =>
    unfold Schema.table at hentry
    split at hentry
    · cases hentry
    · obtain rfl : SchemaError.unknownTable name = e := Except.error.inj hentry
      exact .unknownTable name

/-- **Soundness of commands.** Against a schema that is accepted, a command about a table has a
statement with one parameter for each question mark, or it is refused: the table or a field is
unknown, a value is missing, there is nothing to insert or to update, a text is no assignment or no
record, or no rows are chosen. It does not fail otherwise, and it does not panic.

**Proof sketch.** The names of the table are identifiers (`Schema.table_wellFormed`). So every part
of the command yields an expression over the table (`Filter.predicate?_yields`,
`projection?_yields`), the unchecked look-up of a sort key repeats a checked one
(`sortColumn_of_fieldColumn`), and a description made of such expressions has no fault
(`Description.IsPrimary.build_eq_ok`). -/
theorem Command.compile_sound [Json.Library] {schema : Schema} (hresolve : schema.resolve = .ok ())
    {command : Command} {name : String} (hcommand : command.table? = some name) :
    (∃ statement, command.compile schema = .ok (some statement) ∧
        statement.placeholders = statement.params.size) ∨
      ∃ error, command.compile schema = .error error ∧ error.IsRefusal := by
  have hyields : Yields CommandError.IsRefusal
      (fun statement? => ∃ statement, statement? = some statement ∧ statement.IsAligned)
      (command.compile schema) := by
    rw [Command.compile, hcommand]
    apply (table_yields hresolve name).bind
    intro entry hentry
    exact command.compileFor_yields hentry name hcommand
  cases hcompile : command.compile schema with
  | ok statement? =>
    rw [hcompile] at hyields
    obtain ⟨statement, rfl, haligned⟩ := hyields
    exact .inl ⟨statement, rfl, haligned⟩
  | error e =>
    rw [hcompile] at hyields
    exact .inr ⟨e, rfl, hyields⟩

/-- A read with two conditions, chosen fields, a sort key and a window. -/
def sampleCommand : Command :=
  .select "blog"
    { filter := { conditions := ["authorId=3"], nulls := ["publishedAt"], any := true }
      sort? := some "title", descending := true, columns := ["id", "title"], limit? := some 10 }

/-- The sample command compiles against the sample schema, and binds one parameter. -/
theorem Command.compile_sound_sampleCommand :
    ∃ statement, sampleCommand.compile .sample = .ok (some statement) ∧
      statement.params = #[.integer 3] ∧ statement.placeholders = statement.params.size := by
  have hresolve : Schema.sample.resolve = .ok () := rfl
  have hcommand : sampleCommand.table? = some "blog" := rfl
  have hcompiled : (sampleCommand.compile .sample).toOption = some (some
      ⟨"SELECT t1.id AS \"id\", t1.title AS \"title\"\nFROM blog t1\n" ++
        "WHERE t1.author_id = ? OR t1.published_at IS NULL\nORDER BY t1.title DESC\nLIMIT 10",
        #[.integer 3]⟩) := by decide +kernel
  obtain ⟨statement, hcompile, haligned⟩ | ⟨error, hcompile, -⟩ :=
    Command.compile_sound hresolve hcommand
  · rw [hcompile] at hcompiled
    have hparams : statement.params = #[.integer 3] :=
      congrArg Statement.params (Option.some.inj (Option.some.inj hcompiled))
    exact ⟨statement, hcompile, hparams, haligned⟩
  · rw [hcompile] at hcompiled
    cases hcompiled

end Cli

end BoundSql
