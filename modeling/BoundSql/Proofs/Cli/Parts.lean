import BoundSql.Proofs.Cli.Outcome
import BoundSql.Proofs.Schema.Resolve
import BoundSql.Proofs.Statement.OneTable

/-!
# Parts of commands

The parts of a command over a table with proper names: its field keys are looked up, its conditions
are read and combined, and its output keys are mapped to columns. Each part yields an expression
over the table, or it is refused.

## Main definitions

* `BoundSql.TableDef.WellNamed` — a table all of whose names are identifiers.
* `BoundSql.ProjectionMap.IsFlat` — a mapping of identifiers to columns of the table.

## Main results

* `BoundSql.Cli.sortColumn_of_fieldColumn` — a look-up that was checked once succeeds unchecked.
* `BoundSql.Cli.Filter.predicate?_yields` — the options that choose rows yield a condition on the
  table.
* `BoundSql.Cli.projection?_yields` — the chosen fields yield a projection of the table.
-/

namespace BoundSql

/-! ## Tables with proper names -/

/-- A table all of whose names are identifiers. -/
structure TableDef.WellNamed (table : TableDef) : Prop where
  /-- The name of the table is an identifier. -/
  name : isIdentifier table.name
  /-- Field keys and columns are identifiers. -/
  mapping : ∀ entry ∈ table.mapping, isIdentifier entry.1 ∧ isIdentifier entry.2

/-- A well-formed declaration declares a table with proper names. -/
lemma TableEntry.WellFormed.wellNamed {entry : TableEntry} (h : entry.WellFormed) :
    entry.toTableDef.WellNamed :=
  ⟨h.name, List.forall_mem_map.2 h.columns⟩

/-- A field key that is found is declared, and so is its column. -/
lemma TableDef.WellNamed.columnFor? {table : TableDef} (h : table.WellNamed)
    {field column : String} (hcolumn : table.columnFor? field = some column) :
    isIdentifier field ∧ isIdentifier column := by
  obtain ⟨before, after, hmapping, -⟩ := List.lookup_eq_some_iff.1 hcolumn
  exact h.mapping (field, column) (by simp [hmapping])

/-- The scope of a table finds what its definition finds. -/
lemma Columns.get?_ofDef (index : Nat) (table : TableDef) (field : String) :
    (ofDef index table).get? field = (table.columnFor? field).map (⟨index, ·⟩) := by
  unfold ofDef get? TableDef.columnFor?
  induction table.mapping with
  | nil => rfl
  | cons entry rest ih =>
    rw [List.map_cons, List.lookup_cons, List.lookup_cons]
    cases field == entry.1 with
    | true => rfl
    | false => exact ih

namespace Cli

/-! ## Look-ups -/

section Lookups

variable {table : Table}

/-- A field is looked up in the definition of the table. -/
lemma fieldColumn_eq (field : String) :
    fieldColumn table field =
      match table.definition.columnFor? field with
      | some column => .ok ⟨0, column⟩
      | none => .error (.table (.unknownField table.name field)) := by
  have hscope : table.scope.table? 0 = some (.ofDef 0 table.definition) := rfl
  simp only [fieldColumn, hscope, Columns.get?_ofDef]
  cases table.definition.columnFor? field <;> rfl

/-- A field that is looked up is a column of the table, or it is unknown. -/
lemma fieldColumn_yields (htable : table.definition.WellNamed) (field : String) :
    Yields CommandError.IsRefusal (fun column => isIdentifier field ∧ column.IsPrimary)
      (fieldColumn table field) := by
  rw [fieldColumn_eq]
  cases hcolumn : table.definition.columnFor? field with
  | none => exact .table (.unknownField _ _)
  | some column =>
    obtain ⟨hfield, hname⟩ := htable.columnFor? hcolumn
    exact ⟨hfield, rfl, hname⟩

/-- **A look-up that was checked once** succeeds unchecked, with the same column. -/
theorem sortColumn_of_fieldColumn {field : String} {column : ColumnRef}
    (h : fieldColumn table field = .ok column) : sortColumn table.scope field = .ok column := by
  have hscope : table.scope.table? 0 = some (.ofDef 0 table.definition) := rfl
  simp only [fieldColumn, hscope] at h
  simp only [sortColumn, Scope.field, Scope.column, hscope]
  cases hget : (Columns.ofDef 0 table.definition).get? field with
  | none =>
    rw [hget] at h
    cases h
  | some found =>
    rw [hget] at h
    obtain rfl : found = column := Except.ok.inj h
    rfl

end Lookups

/-! ## Conditions -/

section Conditions

variable {table : Table} (htable : table.definition.WellNamed)

/-- An assignment is read, or it is none. -/
lemma parseAssignment_yields (text : String) :
    Yields CommandError.IsRefusal (fun _ => True) (parseAssignment text) := by
  unfold parseAssignment
  split
  · trivial
  · exact .invalidAssignment text

/-- A comparison with columns of the table is a condition on it. -/
lemma isPrimary_comparison {leaf : Comparison} (h : ∀ c ∈ leaf.columns, c.IsPrimary) :
    (Predicate.comparison leaf).IsPrimary :=
  ⟨h, trivial⟩

include htable

/-- A flag of one condition yields a leaf, or is refused. -/
lemma condition_yields (text : String) :
    Yields CommandError.IsRefusal Predicate.IsPrimary (condition table text) := by
  apply (parseAssignment_yields text).bind
  intro assignment _
  apply (fieldColumn_yields htable assignment.1).bind
  intro column hcolumn
  apply Yields.pure
  split
  · apply isPrimary_comparison
    simpa [Comparison.columns] using hcolumn.2
  · apply isPrimary_comparison
    simpa [Comparison.columns, Operand.columns] using hcolumn.2

/-- A flag that names a field yields a leaf, or is refused. -/
lemma nullCondition_yields (field : String) :
    Yields CommandError.IsRefusal Predicate.IsPrimary (nullCondition table field) := by
  apply (fieldColumn_yields htable field).map
  intro column hcolumn
  apply isPrimary_comparison
  simpa [Comparison.columns] using hcolumn.2

/-- The flags of a filter yield leaves, or one of them is refused. -/
lemma Filter.leaves_yields (filter : Filter) :
    Yields CommandError.IsRefusal (fun leaves => ∀ p ∈ leaves, p.IsPrimary)
      (filter.leaves table) := by
  have hconditions := Yields.mapM (l := filter.conditions)
    fun text _ => condition_yields htable text
  have hnulls := Yields.mapM (l := filter.nulls) fun field _ => nullCondition_yields htable field
  apply hconditions.bind
  intro conditions hc
  apply hnulls.bind
  intro nulls hn
  apply Yields.pure
  exact List.forall_mem_append.2 ⟨hc.2, hn.2⟩

omit htable in
/-- Conditions as one are a condition: a group is made of two or more of them only. -/
lemma Filter.isPrimary_join {any : Bool} {leaves : List Predicate}
    (h : ∀ p ∈ leaves, p.IsPrimary) : ∀ p ∈ join any leaves, p.IsPrimary := by
  intro p hp
  match leaves, hp with
  | [leaf], hp =>
    obtain rfl : leaf = p := Option.some.inj hp
    exact h leaf List.mem_cons_self
  | first :: second :: rest, hp =>
    have hlength : 2 ≤ (first :: second :: rest).length := by simp
    obtain rfl : (if any then .any (first :: second :: rest)
        else .all (first :: second :: rest)) = p := Option.some.inj hp
    split
    · exact Predicate.isPrimary_group.2 ⟨hlength, h⟩
    · exact Predicate.isPrimary_group.2 ⟨hlength, h⟩

/-- **The options that choose rows** yield a condition on the table, if any. -/
theorem Filter.predicate?_yields (filter : Filter) :
    Yields CommandError.IsRefusal (fun predicate? => ∀ p ∈ predicate?, p.IsPrimary)
      (filter.predicate? table) := by
  apply (filter.leaves_yields htable).map
  intro leaves hleaves
  exact isPrimary_join hleaves

end Conditions

end Cli

/-! ## Projections -/

/-- A mapping of identifiers to columns of the primary table. -/
def ProjectionMap.IsFlat (map : ProjectionMap) : Prop :=
  ∀ entry ∈ map.entries, isIdentifier entry.1 ∧ ∃ c : ColumnRef, entry.2 = .column c ∧ c.IsPrimary

/-- An identifier can stand as an alias. -/
lemma isLabel_of_isIdentifier {key : String} (h : isIdentifier key) : isLabel key := by
  have hplain : '?' ∉ key.toList := isPlain_of_isIdentifier h
  simp [isLabel, isEmpty_of_isIdentifier h, hplain]

namespace ProjectionMap.IsFlat

/-- One more column under an identifier. -/
lemma column {map : ProjectionMap} (h : map.IsFlat) {key : String} (hkey : isIdentifier key)
    {c : ColumnRef} (hc : c.IsPrimary) : (map.column key c).IsFlat := by
  obtain ⟨entries⟩ := map
  change ∀ entry ∈ insertEntry key (.column c) entries, _
  change ∀ entry ∈ entries, _ at h
  have hnew : isIdentifier key ∧
      ∃ d : ColumnRef, ProjectionNode.column c = .column d ∧ d.IsPrimary := ⟨hkey, c, rfl, hc⟩
  induction entries with
  | nil => exact List.forall_mem_cons.2 ⟨hnew, fun _ hentry => (nomatch hentry)⟩
  | cons entry rest ih =>
    obtain ⟨hentry, hrest⟩ := List.forall_mem_cons.1 h
    rw [insertEntry]
    split
    · next heq => exact List.forall_mem_cons.2 ⟨heq ▸ hnew, hrest⟩
    · exact List.forall_mem_cons.2 ⟨hentry, ih hrest⟩

/-- The leaves of such a mapping are its entries. -/
lemma flatten {map : ProjectionMap} (h : map.IsFlat) :
    ∀ leaf ∈ map.flatten, leaf.column.IsPrimary ∧ isLabel leaf.label := by
  obtain ⟨entries⟩ := map
  change ∀ leaf ∈ flattenEntries [] entries, _
  change ∀ entry ∈ entries, _ at h
  induction entries with
  | nil => exact fun _ hleaf => (nomatch hleaf)
  | cons entry rest ih =>
    obtain ⟨⟨hkey, c, hnode, hc⟩, hrest⟩ := List.forall_mem_cons.1 h
    obtain ⟨key, node⟩ := entry
    subst hnode
    rw [flattenEntries, flattenNode, List.singleton_append]
    exact List.forall_mem_cons.2 ⟨⟨hc, isLabel_of_isIdentifier hkey⟩, ih hrest⟩

/-- Such a mapping is a projection of the primary table. -/
lemma isPrimary {map : ProjectionMap} (h : map.IsFlat) : (Projection.map map).IsPrimary where
  columns := by
    intro c hc
    obtain ⟨leaf, hleaf, rfl⟩ := List.mem_map.1 hc
    exact (h.flatten leaf hleaf).1
  labels := by
    intro key hkey
    obtain ⟨leaf, hleaf, rfl⟩ := List.mem_map.1 hkey
    exact (h.flatten leaf hleaf).2

end ProjectionMap.IsFlat

/-- **The chosen fields** yield a projection of the table, if any are chosen. -/
theorem Cli.projection?_yields {table : Table} (htable : table.definition.WellNamed)
    (fields : List String) :
    Yields CommandError.IsRefusal (fun mapping? => ∀ m ∈ mapping?, (Projection.map m).IsPrimary)
      (projection? table fields) := by
  unfold projection?
  split
  · exact fun _ hm => (nomatch hm)
  · have hempty : ProjectionMap.empty.IsFlat := fun _ hentry => (nomatch hentry)
    have hfold : Yields CommandError.IsRefusal ProjectionMap.IsFlat (fields.foldlM
        (fun map field => return map.column field (← fieldColumn table field)) .empty) := by
      apply Yields.foldlM hempty
      intro map hmap field _
      apply (fieldColumn_yields htable field).bind
      intro column hcolumn
      exact Yields.pure (hmap.column hcolumn.1 hcolumn.2)
    apply hfold.bind
    intro map hmap
    apply Yields.pure
    intro m hm
    obtain rfl : map = m := Option.some.inj hm
    exact hmap.isPrimary

end BoundSql
