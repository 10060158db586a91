import BoundSql.Proofs.Cli.Outcome

/-!
# Records of a table

What becomes of a record that is given to a table. Its fields are known or the record is refused;
what it is resolved to fits the columns of the table.

## Main results

* `BoundSql.TableDef.resolvePartial_yields`, `BoundSql.Table.resolveRows_yields` — the outcome of
  resolving the record of an update and the records of an insertion.
* `BoundSql.TableDef.resolvePartial_eq_ok`, `BoundSql.TableDef.of_resolvePartial_eq_ok` — a record
  with known fields is resolved, and no other one.
-/

namespace BoundSql

/-- A refusal is no error of the compilation. -/
lemma TableError.IsRefusal.ne_compile {e : TableError} (h : e.IsRefusal) (error : CompileError) :
    e ≠ .compile error := by
  cases h <;> exact nofun

section Refusals

open Cli (Yields)

/-- A field is known, or it is refused. -/
lemma TableDef.columnFor_yields (table : TableDef) (field : String) :
    Yields TableError.IsRefusal (fun column => table.columnFor? field = some column)
      (table.columnFor field) := by
  unfold columnFor
  cases hcolumn : table.columnFor? field with
  | none => exact .unknownField _ _
  | some column => exact rfl

/-- The columns of an update are those of fields, or a field is refused. -/
lemma TableDef.resolvePartial_yields (table : TableDef) (record : Record) :
    Yields TableError.IsRefusal
      (fun assignments => ∀ a ∈ assignments, ∃ field, table.columnFor? field = some a.1)
      (table.resolvePartial record) := by
  refine Yields.mono (Yields.mapM fun entry _ => ?_) fun assignments h => h.2
  apply (table.columnFor_yields entry.1).bind
  intro column hcolumn
  exact Yields.pure ⟨entry.1, hcolumn⟩

/-- A record that is resolved has one value for each column. -/
lemma TableDef.resolveRow_yields (table : TableDef) (record : Record) :
    Yields TableError.IsRefusal (fun row => row.length = table.mapping.length)
      (table.resolveRow record) := by
  have hknown : Yields TableError.IsRefusal (fun _ => True)
      (record.forM fun entry => discard (table.columnFor entry.1)) := by
    apply Yields.forM
    intro entry _
    apply (table.columnFor_yields entry.1).map
    intro _ _
    trivial
  apply hknown.bind
  intro _ _
  refine Yields.mono (?_ : Yields _ (fun row => row.length = _ ∧ ∀ value ∈ row, True) _)
    fun _ h => h.1
  apply Yields.mapM
  intro entry _
  dsimp only
  cases lastValue? record entry.1 with
  | none => exact .missingField _ _
  | some value => trivial

/-- The rows of an insertion have one value for each column. -/
lemma Table.resolveRows_yields (table : Table) (records : List Record) :
    Yields TableError.IsRefusal
      (fun rows => ∀ row ∈ rows, row.length = table.definition.mapping.length)
      (table.resolveRows records) := by
  have hresolved :=
    Yields.mapM (l := records) fun record _ => table.definition.resolveRow_yields record
  apply hresolved.bind
  intro rows hrows
  split
  · exact .emptyInsert _
  · exact hrows.2

end Refusals

/-! ## Rows of an insertion -/

/-- Adding rows one by one. -/
lemma InsertStatement.foldl_addRow (rows : List (List Value)) (s : InsertStatement) :
    rows.foldl .addRow s = { s with rows := s.rows ++ rows } := by
  induction rows generalizing s with
  | nil => simp
  | cons row rest ih => simp [ih, addRow]

/-- The description of an insertion of rows. -/
lemma Table.insertStatement_eq (table : Table) (rows : List (List Value)) :
    table.insertStatement rows =
      { table := table.name, columns := table.definition.mapping.map Prod.snd, rows } := by
  rw [insertStatement, InsertStatement.foldl_addRow]
  rfl

/-! ## Records with known fields -/

namespace TableDef

variable {table : TableDef}

/-- A record that is resolved has known fields, and keeps its values. -/
lemma of_resolvePartial_eq_ok {record : Record} {assignments : List (String × Value)}
    (h : table.resolvePartial record = .ok assignments) :
    (assignments.map fun entry => some entry.1) =
        record.map (fun entry => table.columnFor? entry.1) ∧
      assignments.map Prod.snd = record.map Prod.snd := by
  rw [resolvePartial, mapM_eq_ok_iff] at h
  induction h with
  | nil => exact ⟨rfl, rfl⟩
  | @cons entry assignment rest others hentry _ ih =>
    obtain ⟨column, hcolumn, hpair⟩ := bind_eq_ok_iff.1 hentry
    obtain rfl := Except.ok.inj hpair
    have hknown := table.columnFor_yields entry.1
    rw [hcolumn] at hknown
    rw [List.map_cons, List.map_cons, List.map_cons, List.map_cons, ih.1, ih.2, hknown]
    exact ⟨rfl, rfl⟩

/-- A record with known fields is resolved, entry by entry. -/
lemma resolvePartial_eq_ok {record : Record}
    (h : ∀ entry ∈ record, (table.columnFor? entry.1).isSome) :
    ∃ assignments, table.resolvePartial record = .ok assignments ∧
      (assignments.map fun entry => some entry.1) =
        record.map (fun entry => table.columnFor? entry.1) ∧
      assignments.map Prod.snd = record.map Prod.snd := by
  cases hresolve : table.resolvePartial record with
  | ok assignments => exact ⟨assignments, rfl, of_resolvePartial_eq_ok hresolve⟩
  | error e =>
    -- An entry that is refused has a field that is not known.
    obtain ⟨front, entry, back, rfl, -, hentry⟩ := mapM_eq_error_iff.1 hresolve
    obtain ⟨column, hcolumn⟩ := Option.isSome_iff_exists.1 (h entry (by simp))
    dsimp only at hentry
    rw [columnFor, hcolumn] at hentry
    cases hentry

end TableDef

end BoundSql
