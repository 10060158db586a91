import BoundSql.Schema.Basic
import Mathlib.Tactic.Lemma

/-!
# Accepted schemas

A schema is accepted exactly when it is well formed: every name in it is an identifier, every table
has columns, and neither tables nor the field keys of a table share a name.

## Main definitions

* `BoundSql.TableEntry.WellFormed`, `BoundSql.Schema.WellFormed` — what is asked of a schema.

## Main results

* `BoundSql.Schema.resolve_eq_ok_iff` — the accepted schemas are the well-formed ones.
* `BoundSql.Schema.table_wellFormed` — a table found in an accepted schema is well formed.
-/

namespace BoundSql

/-! ## Well-formed schemas -/

/-- What is asked of a declared table. -/
structure TableEntry.WellFormed (entry : TableEntry) : Prop where
  /-- The name is an identifier. -/
  name : isIdentifier entry.name
  /-- There are columns. -/
  nonempty : entry.columns ≠ []
  /-- Field keys and columns are identifiers. -/
  columns : ∀ c ∈ entry.columns, isIdentifier c.field ∧ isIdentifier c.column
  /-- No two columns share a field key. -/
  nodup : (entry.columns.map (·.field)).Nodup

/-- What is asked of a schema. -/
structure Schema.WellFormed (schema : Schema) : Prop where
  /-- Every table is well formed. -/
  tables : ∀ entry ∈ schema.tables, entry.WellFormed
  /-- No two tables share a name. -/
  nodup : (schema.tables.map (·.name)).Nodup

/-! ## Checks -/

/-- A check in front of another one: both have to pass. -/
lemma check_bind_eq_ok_iff {ε : Type} {first second : Except ε Unit} :
    (do first; second) = .ok () ↔ first = .ok () ∧ second = .ok () := by
  cases first with
  | error e => simp [bind, Except.bind]
  | ok u => simp [bind, Except.bind]

/-- A refusal in front of a check: its reason must not apply. -/
lemma refusal_bind_eq_ok_iff {ε : Type} {p : Prop} [Decidable p] {e : ε} {f : Unit → Except ε Unit}
    {rest : Except ε Unit} :
    (if p then (throw e : Except ε Unit) >>= f else rest) = .ok () ↔ ¬ p ∧ rest = .ok () := by
  by_cases hp : p
  · simp [hp, throw, throwThe, MonadExceptOf.throw, bind, Except.bind]
  · simp [hp]

/-- A check of a list whose members must have new keys, each behind the others: the first member is
checked against the keys seen before, the others against its key too. -/
lemma forall_new_cons_iff {α : Type} (key : α → String) (valid : α → Prop)
    {seen : List String} {first : α} {rest : List α} :
    (valid first ∧ key first ∉ seen ∧ (∀ x ∈ rest, valid x) ∧ (rest.map key).Nodup ∧
        ∀ x ∈ rest, key x ∉ key first :: seen) ↔
      (∀ x ∈ first :: rest, valid x) ∧ ((first :: rest).map key).Nodup ∧
        ∀ x ∈ first :: rest, key x ∉ seen := by
  rw [List.forall_mem_cons, List.forall_mem_cons, List.map_cons, List.nodup_cons]
  simp only [List.mem_map, List.mem_cons, not_or, not_exists, not_and]
  constructor
  · rintro ⟨hfirst, hnew, hrest, hnodup, hseen⟩
    refine ⟨⟨hfirst, hrest⟩, ⟨?_, hnodup⟩, hnew, ?_⟩
    · intro x hx
      exact (hseen x hx).1
    · intro x hx
      exact (hseen x hx).2
  · rintro ⟨⟨hfirst, hrest⟩, ⟨hother, hnodup⟩, hnew, hseen⟩
    refine ⟨hfirst, hnew, hrest, hnodup, ?_⟩
    intro x hx
    exact ⟨hother x hx, hseen x hx⟩

/-- The check of a text passes on identifiers. -/
lemma checkIdentifier_eq_ok_iff {text : String} :
    checkIdentifier text = .ok () ↔ isIdentifier text := by
  unfold checkIdentifier
  split
  · next h => simp [h]
  · next h => simp [h]

/-- An identifier has at least one character. -/
lemma isEmpty_of_isIdentifier {text : String} (h : isIdentifier text) : text.isEmpty = false := by
  cases hempty : text.isEmpty with
  | false => rfl
  | true =>
    obtain rfl : text = "" := by simpa using hempty
    exact absurd h (by decide)

/-- The check of a column passes if its field and its name are identifiers. -/
lemma ColumnEntry.check_eq_ok_iff {table : String} {entry : ColumnEntry} :
    entry.check table = .ok () ↔ isIdentifier entry.field ∧ isIdentifier entry.column := by
  simp only [check, refusal_bind_eq_ok_iff, check_bind_eq_ok_iff, checkIdentifier_eq_ok_iff]
  constructor
  · rintro ⟨-, hnames⟩
    exact hnames
  · rintro ⟨hfield, hcolumn⟩
    exact ⟨by simp [isEmpty_of_isIdentifier hfield], hfield, hcolumn⟩

/-- Columns pass if their names are identifiers and their keys are new, each behind the others. -/
lemma checkColumns_eq_ok_iff {table : String} {seen : List String} {columns : List ColumnEntry} :
    checkColumns table seen columns = .ok () ↔
      (∀ c ∈ columns, isIdentifier c.field ∧ isIdentifier c.column) ∧
        (columns.map (·.field)).Nodup ∧ ∀ c ∈ columns, c.field ∉ seen := by
  induction columns generalizing seen with
  | nil => simp [checkColumns]
  | cons entry rest ih =>
    simp only [checkColumns, check_bind_eq_ok_iff, refusal_bind_eq_ok_iff, ih,
      ColumnEntry.check_eq_ok_iff]
    exact forall_new_cons_iff ColumnEntry.field fun c =>
      isIdentifier c.field ∧ isIdentifier c.column

/-- The check of a table passes if the entry is well formed. -/
lemma TableEntry.check_eq_ok_iff {entry : TableEntry} :
    entry.check = .ok () ↔ entry.WellFormed := by
  simp only [check, check_bind_eq_ok_iff, refusal_bind_eq_ok_iff, checkIdentifier_eq_ok_iff,
    checkColumns_eq_ok_iff]
  constructor
  · rintro ⟨hname, hnonempty, hcolumns, hnodup, -⟩
    exact ⟨hname, by simpa using hnonempty, hcolumns, hnodup⟩
  · rintro ⟨hname, hnonempty, hcolumns, hnodup⟩
    exact ⟨hname, by simpa using hnonempty, hcolumns, hnodup, by simp⟩

/-- Tables pass if they are well formed and their names are new, each behind the others. -/
lemma checkTables_eq_ok_iff {seen : List String} {tables : List TableEntry} :
    checkTables seen tables = .ok () ↔
      (∀ entry ∈ tables, entry.WellFormed) ∧
        (tables.map (·.name)).Nodup ∧ ∀ entry ∈ tables, entry.name ∉ seen := by
  induction tables generalizing seen with
  | nil => simp [checkTables]
  | cons entry rest ih =>
    simp only [checkTables, check_bind_eq_ok_iff, refusal_bind_eq_ok_iff, ih,
      TableEntry.check_eq_ok_iff]
    exact forall_new_cons_iff TableEntry.name TableEntry.WellFormed

namespace Schema

/-- **The accepted schemas** are the well-formed ones. -/
theorem resolve_eq_ok_iff {schema : Schema} : schema.resolve = .ok () ↔ schema.WellFormed := by
  rw [resolve, checkTables_eq_ok_iff]
  constructor
  · rintro ⟨htables, hnodup, -⟩
    exact ⟨htables, hnodup⟩
  · rintro ⟨htables, hnodup⟩
    exact ⟨htables, hnodup, by simp⟩

/-- A table that is found by its name is declared. -/
lemma mem_of_table_eq_ok {schema : Schema} {name : String} {entry : TableEntry}
    (h : schema.table name = .ok entry) : entry ∈ schema.tables := by
  unfold table at h
  split at h
  · next found hfind =>
    obtain rfl : found = entry := Except.ok.inj h
    exact List.mem_of_find?_eq_some hfind
  · cases h

/-- **A table found in an accepted schema** is well formed. -/
theorem table_wellFormed {schema : Schema} (hresolve : schema.resolve = .ok ()) {name : String}
    {entry : TableEntry} (h : schema.table name = .ok entry) : entry.WellFormed := by
  have hwellFormed : schema.WellFormed := resolve_eq_ok_iff.1 hresolve
  exact hwellFormed.tables entry (mem_of_table_eq_ok h)

end Schema

end BoundSql
