import BoundSql.Proofs.Cli.Parts
import BoundSql.Proofs.Expr.Chained
import BoundSql.Proofs.Table.SameRows

/-!
# Flags that choose rows

The options that choose rows are flags, and each of them writes one predicate about a field of the
table, or it is refused. No flag is lost on the way: the condition of a command has one leaf for
each flag, a flag that is refused refuses the command, and there is no condition only where there is
no flag. So a deletion spares no row only if it was given no flag, and an update has a condition
always.

## Main definitions

* `BoundSql.Cli.Flag`, `BoundSql.Cli.Filter.flags` — the flags of a filter in the order of reading.
* `BoundSql.Cli.Flag.Writes`, `BoundSql.Cli.Flag.Refused` — what a flag says about a table.
* `BoundSql.Cli.Filter.Combines` — the condition that leaves make together.
* `BoundSql.Cli.Filter.values` — the values that the flags of a filter give.

## Main results

* `BoundSql.Cli.Filter.predicate?_eq_ok_iff`, `BoundSql.Cli.Filter.predicate?_eq_error_iff` — the
  condition and the error of a filter.
* `BoundSql.Cli.compileDelete_eq`, `BoundSql.Cli.compileCount_eq`, … — the statements of commands,
  told from the condition.
* `BoundSql.Cli.Filter.restricts_rows` — no flag is lost.
-/

namespace BoundSql

namespace Cli

/-! ## Assignments -/

/-- An assignment is the one that its text writes. -/
lemma parseAssignment_eq_ok_iff {text : String} {assignment : String × Value} :
    parseAssignment text = .ok assignment ↔ readAssignment? text = some assignment := by
  unfold parseAssignment
  cases readAssignment? text <;> simp

/-- A text that is no assignment is named. -/
lemma parseAssignment_eq_error_iff {text : String} {e : CommandError} :
    parseAssignment text = .error e ↔
      readAssignment? text = none ∧ e = .invalidAssignment text := by
  unfold parseAssignment
  cases readAssignment? text <;> simp [eq_comm]

/-- Assignments are read one by one. -/
lemma mapM_parseAssignment_eq_ok_iff {assignments : List String} {record : Record} :
    assignments.mapM parseAssignment = .ok record ↔
      assignments.map readAssignment? = record.map some := by
  rw [mapM_eq_ok_iff, ← List.forall₂_eq_eq_eq, List.forall₂_map_left_iff,
    List.forall₂_map_right_iff]
  simp only [parseAssignment_eq_ok_iff]

/-! ## Flags -/

/-- An option that chooses rows. -/
inductive Flag where
  /-- A field has a value: an assignment. -/
  | condition (text : String)
  /-- A field is empty. -/
  | null (field : String)

/-- The flags of a filter, in the order in which they are read. -/
def Filter.flags (filter : Filter) : List Flag :=
  filter.conditions.map .condition ++ filter.nulls.map .null

namespace Flag

/-- The field that a flag names and the value that it has to have. -/
def assignment? : Flag → Option (String × Value)
  | condition text => readAssignment? text
  | null field => some (field, .null)

/-- The value that a flag gives. A missing value is none. -/
def value? (flag : Flag) : Option Value :=
  flag.assignment?.bind fun (_, value) => if value = .null then none else some value

/-- What a flag writes about a table: the field has no value, or it equals the value. -/
inductive Writes (table : TableDef) (flag : Flag) : Predicate → Prop
  | isNull {field column : String} (hflag : flag.assignment? = some (field, .null))
    (hcolumn : table.columnFor? field = some column) :
    Writes table flag (⟨0, column⟩ : ColumnRef).isNull
  | equals {field column : String} {value : Value} (hflag : flag.assignment? = some (field, value))
    (hvalue : value ≠ .null) (hcolumn : table.columnFor? field = some column) :
    Writes table flag ((⟨0, column⟩ : ColumnRef).equals (.value value))

/-- Why a flag is refused: its text is no assignment, or else its field is unknown. -/
inductive Refused (table : TableDef) : Flag → CommandError → Prop
  | invalidAssignment {text : String} (htext : readAssignment? text = none) :
    Refused table (condition text) (.invalidAssignment text)
  | unknownField {flag : Flag} {field : String} {value : Value}
    (hflag : flag.assignment? = some (field, value)) (hfield : table.columnFor? field = none) :
    Refused table flag (.table (.unknownField table.name field))

/-- The predicate of a flag. -/
def read (table : Table) : Flag → Except CommandError Predicate
  | condition text => Cli.condition table text
  | null field => nullCondition table field

variable {table : Table} {flag : Flag}

/-- A flag with an assignment looks its field up. -/
lemma read_of_assignment? {field : String} {value : Value}
    (hflag : flag.assignment? = some (field, value)) :
    flag.read table =
      match table.definition.columnFor? field with
      | some column => .ok (if value = .null then (⟨0, column⟩ : ColumnRef).isNull
          else (⟨0, column⟩ : ColumnRef).equals (.value value))
      | none => .error (.table (.unknownField table.name field)) := by
  cases flag with
  | condition text =>
    rw [read, Cli.condition, parseAssignment_eq_ok_iff.2 hflag]
    change (fieldColumn table field >>= _) = _
    rw [fieldColumn_eq]
    cases table.definition.columnFor? field with
    | none => rfl
    | some column => cases value <;> rfl
  | null name =>
    obtain ⟨rfl, rfl⟩ := Prod.mk.inj (Option.some.inj hflag)
    rw [read, nullCondition, fieldColumn_eq]
    cases table.definition.columnFor? name <;> rfl

/-- A flag without an assignment is a text that is none. -/
lemma read_of_assignment?_eq_none (table : Table) (hflag : flag.assignment? = none) :
    ∃ text, flag = condition text ∧ readAssignment? text = none ∧
      flag.read table = .error (.invalidAssignment text) := by
  cases flag with
  | condition text =>
    refine ⟨text, rfl, hflag, ?_⟩
    rw [read, Cli.condition, parseAssignment_eq_error_iff.2 ⟨hflag, rfl⟩]
    rfl
  | null field => cases hflag

/-- The predicate of a flag is what the flag writes. -/
lemma read_eq_ok_iff {p : Predicate} :
    flag.read table = .ok p ↔ flag.Writes table.definition p := by
  constructor
  · intro h
    cases hflag : flag.assignment? with
    | none =>
      obtain ⟨text, -, -, herror⟩ := read_of_assignment?_eq_none table hflag
      cases herror.symm.trans h
    | some assignment =>
      obtain ⟨field, value⟩ := assignment
      rw [read_of_assignment? hflag] at h
      cases hcolumn : table.definition.columnFor? field with
      | none =>
        rw [hcolumn] at h
        cases h
      | some column =>
        rw [hcolumn] at h
        obtain rfl := Except.ok.inj h
        split
        · next hvalue => exact .isNull (hvalue ▸ hflag) hcolumn
        · next hvalue => exact .equals hflag hvalue hcolumn
  · rintro (⟨hflag, hcolumn⟩ | ⟨hflag, hvalue, hcolumn⟩)
    · rw [read_of_assignment? hflag, hcolumn]
      rfl
    · rw [read_of_assignment? hflag, hcolumn]
      exact congrArg _ (if_neg hvalue)

/-- The error of a flag is why it is refused. -/
lemma read_eq_error_iff {e : CommandError} :
    flag.read table = .error e ↔ flag.Refused table.definition e := by
  constructor
  · intro h
    cases hflag : flag.assignment? with
    | none =>
      obtain ⟨text, rfl, htext, herror⟩ := read_of_assignment?_eq_none table hflag
      obtain rfl := Except.error.inj (herror.symm.trans h)
      exact .invalidAssignment htext
    | some assignment =>
      obtain ⟨field, value⟩ := assignment
      rw [read_of_assignment? hflag] at h
      cases hcolumn : table.definition.columnFor? field with
      | none =>
        rw [hcolumn] at h
        obtain rfl := Except.error.inj h
        exact .unknownField hflag hcolumn
      | some column =>
        rw [hcolumn] at h
        cases h
  · intro h
    cases h with
    | @invalidAssignment text htext =>
      have hflag : (condition text).assignment? = none := htext
      obtain ⟨_, heq, -, herror⟩ := read_of_assignment?_eq_none table hflag
      obtain rfl := Flag.condition.inj heq
      exact herror
    | unknownField hflag hfield =>
      rw [read_of_assignment? hflag, hfield]
      rfl

namespace Writes

variable {definition : TableDef} {p : Predicate}

/-- What a flag writes compiles where the table is bound. -/
lemma compiles (h : flag.Writes definition p) : p.Compiles (.qualified 1) := by
  rw [Predicate.compiles_iff]
  cases h with
  | isNull _ _ => rfl
  | equals _ _ _ => rfl

/-- What a flag writes binds the value that the flag gives. -/
lemma values (h : flag.Writes definition p) : p.values = flag.value?.toList := by
  cases h with
  | isNull hflag _ =>
    rw [value?, hflag]
    rfl
  | @equals field column value hflag hvalue _ =>
    have hgiven : flag.value? = some value := by
      rw [value?, hflag]
      exact if_neg hvalue
    rw [hgiven]
    rfl

end Writes

section Lists

variable {definition : TableDef} {flags : List Flag} {leaves : List Predicate}
  (h : List.Forall₂ (Writes definition) flags leaves)

include h

/-- All that flags write compiles. -/
lemma forall_compiles : ∀ leaf ∈ leaves, leaf.Compiles (.qualified 1) := by
  induction h with
  | nil => exact nofun
  | cons hleaf _ ih => exact List.forall_mem_cons.2 ⟨hleaf.compiles, ih⟩

/-- The values that flags write are those that they give. -/
lemma flatMap_values :
    leaves.flatMap Predicate.values = flags.filterMap value? := by
  induction h with
  | nil => rfl
  | @cons flag leaf _ _ hleaf _ ih =>
    rw [List.flatMap_cons, List.filterMap_cons, hleaf.values, ih]
    cases flag.value? <;> rfl

end Lists

end Flag

/-! ## The condition of a filter -/

namespace Filter

/-- The condition that leaves make together: none, a single leaf, or one group of all leaves. -/
inductive Combines (any : Bool) : List Predicate → Option Predicate → Prop
  | none : Combines any [] none
  | single (leaf : Predicate) : Combines any [leaf] (some leaf)
  | group {leaves : List Predicate} (hlength : 2 ≤ leaves.length) :
    Combines any leaves (some (.group (if any then .or else .and) leaves))

variable {table : Table} {filter : Filter}

/-- Leaves are joined to the condition that they make together. -/
lemma combines_iff {any : Bool} {leaves : List Predicate} {condition? : Option Predicate} :
    Combines any leaves condition? ↔ join any leaves = condition? := by
  have hmany : ∀ {leaves : List Predicate}, 2 ≤ leaves.length →
      join any leaves = some (.group (if any then .or else .and) leaves) := by
    intro leaves hlength
    match leaves, hlength with
    | first :: second :: rest, _ => cases any <;> rfl
  constructor
  · rintro (_ | leaf | hlength)
    · rfl
    · rfl
    · exact hmany hlength
  · rintro rfl
    match leaves with
    | [] => exact .none
    | [leaf] => exact .single leaf
    | first :: second :: rest =>
      have hlength : 2 ≤ (first :: second :: rest).length := by simp
      rw [hmany hlength]
      exact .group hlength

/-- The leaves of a filter are read flag by flag. -/
lemma leaves_eq_mapM : filter.leaves table = filter.flags.mapM (Flag.read table) := by
  rw [flags, List.mapM_append, List.mapM_map, List.mapM_map]
  rfl

/-- **The condition of a filter** is made of what its flags write, one leaf for each flag. -/
theorem predicate?_eq_ok_iff {condition? : Option Predicate} :
    filter.predicate? table = .ok condition? ↔
      ∃ leaves, List.Forall₂ (Flag.Writes table.definition) filter.flags leaves ∧
        Combines filter.any leaves condition? := by
  have hleaves : ∀ leaves, filter.leaves table = .ok leaves ↔
      List.Forall₂ (Flag.Writes table.definition) filter.flags leaves := by
    intro leaves
    simp only [leaves_eq_mapM, mapM_eq_ok_iff, Flag.read_eq_ok_iff]
  rw [predicate?]
  cases h : filter.leaves table with
  | ok leaves =>
    constructor
    · intro hjoin
      exact ⟨leaves, (hleaves leaves).1 h, combines_iff.2 (Except.ok.inj hjoin)⟩
    · rintro ⟨others, hothers, hcombines⟩
      obtain rfl : leaves = others := Except.ok.inj (h.symm.trans ((hleaves others).2 hothers))
      exact congrArg Except.ok (combines_iff.1 hcombines)
  | error e =>
    refine ⟨nofun, ?_⟩
    rintro ⟨leaves, hwrites, -⟩
    cases h.symm.trans ((hleaves leaves).2 hwrites)

/-- **The error of a filter** is why the first flag is refused that is refused. -/
theorem predicate?_eq_error_iff {e : CommandError} :
    filter.predicate? table = .error e ↔
      ∃ front flag back, filter.flags = front ++ flag :: back ∧
        (∀ earlier ∈ front, ∃ p, Flag.Writes table.definition earlier p) ∧
        Flag.Refused table.definition flag e := by
  have hleaves : filter.predicate? table = .error e ↔ filter.leaves table = .error e := by
    rw [predicate?]
    cases filter.leaves table with
    | ok leaves => exact ⟨nofun, nofun⟩
    | error _ => exact ⟨fun h => congrArg _ (Except.error.inj h), fun h => h ▸ rfl⟩
  rw [hleaves, leaves_eq_mapM, mapM_eq_error_iff]
  simp only [Flag.read_eq_ok_iff, Flag.read_eq_error_iff]

/-- **There is no condition** exactly when there is no flag. -/
theorem predicate?_eq_none_iff :
    filter.predicate? table = .ok none ↔ filter.conditions = [] ∧ filter.nulls = [] := by
  have hflags : filter.flags = [] ↔ filter.conditions = [] ∧ filter.nulls = [] := by
    simp [flags]
  rw [predicate?_eq_ok_iff, ← hflags]
  constructor
  · rintro ⟨leaves, hwrites, hcombines⟩
    cases hcombines
    exact List.forall₂_nil_right_iff.1 hwrites
  · intro h
    rw [h]
    exact ⟨[], .nil, .none⟩

/-! ## The values of a filter -/

/-- The values that the flags of a filter give: those of its conditions, in order, without the
missing ones. -/
def values (filter : Filter) : List Value :=
  filter.conditions.filterMap fun text => (Flag.condition text).value?

/-- A flag that a field is empty gives no value. -/
lemma filterMap_value?_flags : filter.flags.filterMap Flag.value? = filter.values := by
  have hnulls : filter.nulls.filterMap (Flag.value? ∘ Flag.null) = [] :=
    List.filterMap_eq_nil_iff.2 fun _ _ => rfl
  rw [flags, List.filterMap_append, List.filterMap_map, List.filterMap_map, hnulls,
    List.append_nil]
  rfl

/-- The condition of a filter binds the values that the flags give. -/
lemma values_of_predicate? {condition? : Option Predicate}
    (h : filter.predicate? table = .ok condition?) :
    condition?.toList.flatMap Predicate.values = filter.values := by
  obtain ⟨leaves, hwrites, hcombines⟩ := predicate?_eq_ok_iff.1 h
  rw [← filterMap_value?_flags, ← Flag.flatMap_values hwrites]
  cases hcombines with
  | none | single leaf => rfl
  | group hlength => simp [Predicate.values_group]

/-- The condition of a filter compiles where the table is bound. -/
lemma compiles_of_predicate? {p : Predicate} (h : filter.predicate? table = .ok (some p)) :
    p.Compiles (.qualified 1) := by
  obtain ⟨leaves, hwrites, hcombines⟩ := predicate?_eq_ok_iff.1 h
  have hleaves := Flag.forall_compiles hwrites
  cases hcombines with
  | single => exact hleaves p (List.mem_singleton_self p)
  | group hlength => exact Predicate.compiles_group_iff.2 ⟨hlength, hleaves⟩

end Filter

end Cli

/-! ## Statements about one table -/

/-- Nothing is wrong with the rows of one table if their condition compiles. -/
lemma FilteredTable.rowFault?_eq_none {f : FilteredTable} (hjoins : f.source.joins = [])
    (h : f.predicate.Compiles (.qualified 1)) : f.rowFault? = none := by
  rw [Predicate.compiles_iff, Predicate.sites_eq_walk, Step.fault?_flatMap_sites] at h
  rw [rowFault?, context, hjoins]
  exact h

namespace Cli

variable {table : Table} {filter : Filter}

section Condition

variable {p : Predicate} (h : filter.predicate? table = .ok (some p))

include h

/-- Nothing is wrong with the rows that a filter chooses. -/
lemma Filter.rowFault?_eq_none : (table.filter fun _ => p).rowFault? = none :=
  FilteredTable.rowFault?_eq_none rfl (compiles_of_predicate? h)

/-- The condition of a filter that has one binds the values that the flags give. -/
lemma Filter.values_eq : filter.values = p.values := by
  rw [← values_of_predicate? h, Option.toList_some, List.flatMap_singleton]

end Condition

/-- **A deletion** has the condition of the filter in its `WHERE` line, and no such line only if
there is no condition. Its parameters are the values of the filter. -/
theorem compileDelete_eq :
    compileDelete table filter = (filter.predicate? table).map fun condition? =>
      ⟨"\n".intercalate
          (("DELETE FROM " ++ table.name) :: whereTexts Value.placeholder .bare condition?),
        filter.values.toArray⟩ := by
  cases h : filter.predicate? table with
  | error e =>
    rw [compileDelete, h]
    rfl
  | ok condition? =>
    cases condition? with
    | none =>
      rw [compileDelete, h, ← Filter.values_of_predicate? h]
      rfl
    | some p =>
      rw [compileDelete, h, Filter.values_eq h]
      change (table.filter fun _ => p).delete.mapError CommandError.table = _
      rw [FilteredTable.delete_eq rfl, FilteredTable.answer_eq_ok (Filter.rowFault?_eq_none h)]
      rfl

/-- **A count** has the condition of the filter in its `WHERE` line, and no such line only if there
is no condition. Its parameters are the values of the filter. -/
theorem compileCount_eq :
    compileCount table filter = (filter.predicate? table).map fun condition? =>
      ⟨"\n".intercalate (["SELECT COUNT(*)", "FROM " ++ table.name ++ " t1"] ++
          whereTexts Value.placeholder (.qualified 1) condition?),
        filter.values.toArray⟩ := by
  cases h : filter.predicate? table with
  | error e =>
    rw [compileCount, h]
    rfl
  | ok condition? =>
    cases condition? with
    | none =>
      rw [compileCount, h, ← Filter.values_of_predicate? h]
      rfl
    | some p =>
      rw [compileCount, h, Filter.values_eq h]
      change (table.filter fun _ => p).count.generate.mapError CommandError.table = _
      rw [FilteredTable.count_generate, FilteredTable.answer_eq_ok (Filter.rowFault?_eq_none h)]
      rfl

/-- An update of rows with which nothing is wrong, of columns of the table to the values of a
record.
-/
lemma of_updateTable_eq_ok {p : Predicate} (hfault : (table.filter fun _ => p).rowFault? = none)
    {record : Record} {statement : Statement}
    (h : (table.filter fun _ => p).updateTable 0 record = .ok statement) :
    ∃ columns : List String,
      columns.map some = record.map (fun entry => table.definition.columnFor? entry.1) ∧
      statement = ⟨"\n".intercalate ["UPDATE " ++ table.name ++ " t1",
          FilteredTable.setText 0 columns,
          "WHERE " ++ p.text Value.placeholder (.qualified 1)],
        (record.map Prod.snd ++ p.values).toArray⟩ := by
  have htarget : (table.filter fun _ => p).source.tables[0]? = some table.definition := rfl
  cases hresolve : table.definition.resolvePartial record with
  | error e =>
    rw [FilteredTable.updateTable_eq_error htarget hresolve] at h
    cases h
  | ok assignments =>
    have hupdate := FilteredTable.updateTable_eq htarget hresolve
    have hassignments : assignments ≠ [] := by
      rintro rfl
      cases hupdate.symm.trans h
    rw [if_neg (by simpa using hassignments),
      FilteredTable.updateStatement_build Nat.one_pos hassignments,
      FilteredTable.answer_eq_ok hfault] at hupdate
    obtain ⟨hcolumns, hvalues⟩ := TableDef.of_resolvePartial_eq_ok hresolve
    refine ⟨assignments.map Prod.fst, ?_, ?_⟩
    · rw [← hcolumns, List.map_map]
      rfl
    · rw [← hvalues]
      exact (Except.ok.inj (hupdate.symm.trans h)).symm

/-- **An update** has a condition and its `WHERE` line, whatever it sets. -/
theorem of_compileUpdate_eq_ok {assignments : List String} {statement : Statement}
    (h : compileUpdate table assignments filter = .ok statement) :
    ∃ (p : Predicate) (record : Record) (columns : List String),
      filter.predicate? table = .ok (some p) ∧
      assignments.map readAssignment? = record.map some ∧
      columns.map some = record.map (fun entry => table.definition.columnFor? entry.1) ∧
      statement = ⟨"\n".intercalate ["UPDATE " ++ table.name ++ " t1",
          FilteredTable.setText 0 columns,
          "WHERE " ++ p.text Value.placeholder (.qualified 1)],
        (record.map Prod.snd ++ filter.values).toArray⟩ := by
  obtain ⟨record, hrecord, h⟩ := bind_eq_ok_iff.1 h
  obtain ⟨condition?, hcondition, h⟩ := bind_eq_ok_iff.1 h
  cases condition? with
  | none => cases h
  | some p =>
    have hupdate : (table.filter fun _ => p).updateTable 0 record = .ok statement :=
      mapError_eq_ok_iff.1 h
    obtain ⟨columns, hcolumns, hstatement⟩ :=
      of_updateTable_eq_ok (Filter.rowFault?_eq_none hcondition) hupdate
    rw [← Filter.values_eq hcondition] at hstatement
    exact ⟨p, record, columns, hcondition, mapM_parseAssignment_eq_ok_iff.1 hrecord, hcolumns,
      hstatement⟩

/-- An update is told of no rows if it has no condition. -/
lemma compileUpdate_eq_missingFilter {assignments : List String}
    (hassignments : ∀ text ∈ assignments, (readAssignment? text).isSome)
    (hcondition : filter.predicate? table = .ok none) :
    compileUpdate table assignments filter = .error (.missingFilter "update") := by
  cases hrecord : assignments.mapM parseAssignment with
  | ok record =>
    rw [compileUpdate, hrecord, hcondition]
    rfl
  | error e =>
    obtain ⟨front, text, back, rfl, -, herror⟩ := mapM_eq_error_iff.1 hrecord
    have hread := hassignments text (by simp)
    rw [(parseAssignment_eq_error_iff.1 herror).1] at hread
    cases hread

/-- **No flag is lost.** A filter fails for the first of its flags that is refused, and otherwise it
has one leaf for each flag in order: `IS NULL` for a missing value, an equality for any other. The
leaves are its condition, alone or as one group, and there is no condition exactly where there is no
flag. A deletion and a count fail as the filter does; otherwise they have the condition in a `WHERE`
line, and no such line only where there is no condition. Their parameters are the values of the
conditions in order, without the missing ones. An update has a condition always; without a flag it
fails, and says so if its assignments are in order.

**Proof sketch.** The leaves are read flag by flag (`Filter.leaves_eq_mapM`), so that they are as
many as the flags, and the first error ends the reading. All leaves are about the table itself and a
group of them has two members at least, so the condition compiles, and the statements are those that
a filtered table makes of it. -/
theorem Filter.restricts_rows (table : Table) (filter : Filter) (assignments : List String) :
    (∀ e, filter.predicate? table = .error e ↔
      ∃ front flag back, filter.flags = front ++ flag :: back ∧
        (∀ earlier ∈ front, ∃ p, Flag.Writes table.definition earlier p) ∧
        Flag.Refused table.definition flag e) ∧
    (∀ condition?, filter.predicate? table = .ok condition? ↔
      ∃ leaves, List.Forall₂ (Flag.Writes table.definition) filter.flags leaves ∧
        Combines filter.any leaves condition?) ∧
    (filter.predicate? table = .ok none ↔ filter.conditions = [] ∧ filter.nulls = []) ∧
    compileDelete table filter = (filter.predicate? table).map (fun condition? =>
      ⟨"\n".intercalate
          (("DELETE FROM " ++ table.name) :: whereTexts Value.placeholder .bare condition?),
        filter.values.toArray⟩) ∧
    compileCount table filter = (filter.predicate? table).map (fun condition? =>
      ⟨"\n".intercalate (["SELECT COUNT(*)", "FROM " ++ table.name ++ " t1"] ++
          whereTexts Value.placeholder (.qualified 1) condition?),
        filter.values.toArray⟩) ∧
    (∀ statement, compileUpdate table assignments filter = .ok statement →
      ∃ (p : Predicate) (record : Record) (columns : List String),
        filter.predicate? table = .ok (some p) ∧
        assignments.map readAssignment? = record.map some ∧
        columns.map some = record.map (fun entry => table.definition.columnFor? entry.1) ∧
        statement = ⟨"\n".intercalate ["UPDATE " ++ table.name ++ " t1",
            FilteredTable.setText 0 columns,
            "WHERE " ++ p.text Value.placeholder (.qualified 1)],
          (record.map Prod.snd ++ filter.values).toArray⟩) ∧
    ((∀ text ∈ assignments, (readAssignment? text).isSome) → filter.flags = [] →
      compileUpdate table assignments filter = .error (.missingFilter "update")) := by
  refine ⟨fun _ => predicate?_eq_error_iff, fun _ => predicate?_eq_ok_iff, predicate?_eq_none_iff,
    compileDelete_eq, compileCount_eq, fun _ => of_compileUpdate_eq_ok, ?_⟩
  intro hassignments hflags
  refine compileUpdate_eq_missingFilter hassignments (predicate?_eq_none_iff.2 ?_)
  simpa [flags] using hflags

/-- Posts with their authors. -/
def posts : Table := .ofMapping "post" [("id", "id"), ("authorId", "author_id")]

/-- The posts of an author and those without one. -/
def byAuthor : Filter := { conditions := ["authorId=3", " authorId =null"], any := true }

/-- Two conditions of which any may hold: an update and a deletion restrict the same rows by them,
and an update without a filter is refused. -/
theorem Filter.restricts_rows_byAuthor :
    (compileUpdate posts ["id=null"] byAuthor).toOption = some
        ⟨"UPDATE post t1\nSET t1.id = ?\nWHERE t1.author_id = ? OR t1.author_id IS NULL",
          #[.null, .integer 3]⟩ ∧
      (∃ p, byAuthor.predicate? posts = .ok (some p) ∧ compileDelete posts byAuthor = .ok
        ⟨"\n".intercalate ["DELETE FROM post", "WHERE " ++ p.text Value.placeholder .bare],
          #[.integer 3]⟩) ∧
      (∀ text ∈ ["id=null"], (readAssignment? text).isSome) ∧
      compileUpdate posts ["id=null"] {} = .error (.missingFilter "update") := by
  have hupdated : (compileUpdate posts ["id=null"] byAuthor).toOption = some
      ⟨"UPDATE post t1\nSET t1.id = ?\nWHERE t1.author_id = ? OR t1.author_id IS NULL",
        #[.null, .integer 3]⟩ := by decide +kernel
  have hparse : ∀ text ∈ ["id=null"], (readAssignment? text).isSome := by decide +kernel
  have hvalues : byAuthor.values = [.integer 3] := by decide +kernel
  obtain ⟨-, -, -, hdelete, -, hupdate, -⟩ := byAuthor.restricts_rows posts ["id=null"]
  obtain ⟨-, -, -, -, -, -, hmissing⟩ := Filter.restricts_rows posts {} ["id=null"]
  refine ⟨hupdated, ?_, hparse, hmissing hparse rfl⟩
  cases hcompile : compileUpdate posts ["id=null"] byAuthor with
  | error e =>
    rw [hcompile] at hupdated
    cases hupdated
  | ok statement =>
    obtain ⟨p, -, -, hp, -⟩ := hupdate statement hcompile
    have htable : "DELETE FROM " ++ posts.name = "DELETE FROM post" := rfl
    rw [hp, hvalues, htable] at hdelete
    exact ⟨p, hp, hdelete⟩

end Cli

end BoundSql
