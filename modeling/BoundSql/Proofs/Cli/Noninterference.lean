import BoundSql.Proofs.Cli.Flags
import BoundSql.Proofs.Statement.Values
import BoundSql.Proofs.Table.Insertion
import Mathlib.Data.List.TakeWhile

/-!
# Values of a command line never reach the text

What stands behind the equals signs of a command line is bound, and only bound. Two commands that
differ there have one text, as many parameters, and the same refusal, as long as they agree on which
conditions are about missing values: those alone have a syntax of their own. What an insertion is
told of its records tells its text their number.

## Main definitions

* `BoundSql.Cli.SameTarget` — two assignments that are the same up to the first equals sign.
* `BoundSql.Cli.Command.Differ` — two commands that differ in their values only.
* `BoundSql.Cli.CommandError.SameKind` — two errors that differ at most in the text that they quote.
* `BoundSql.Predicate.erased`, `BoundSql.Description.erased` — an expression without its values.

## Main results

* `BoundSql.Description.build_alike` — descriptions that are equal without their values compile to
  one text, or have one fault.
* `BoundSql.Cli.Command.compile_noninterference` — commands that differ in their values only.
-/

namespace BoundSql

/-! ## Erased values -/

/-- A predicate without its values. -/
def Predicate.erased (p : Predicate) : Predicate := p.mapValues fun _ => .null

/-- A description without its values. -/
def Description.erased (d : Description) : Description := d.mapValues fun _ => .null

/-- Two statements with one text and as many parameters. -/
structure Statement.SameText (first second : Statement) : Prop where
  /-- The text is the same. -/
  sql : second.sql = first.sql
  /-- There are as many parameters. -/
  size : second.params.size = first.params.size

/-- **Descriptions without their values** determine the text, the number of parameters and the
fault. -/
theorem Description.build_alike {d d' : Description} (h : d'.erased = d.erased) :
    Cli.Alike Eq Statement.SameText d.build d'.build := by
  have htext : ∀ e : Description, e.erased.text Value.placeholder = e.text Value.placeholder :=
    fun e => e.text_mapValues (fun _ => .null) Value.placeholder
  have hfault : ∀ e : Description, Site.fault? e.erased.sites = Site.fault? e.sites := by
    intro e
    rw [erased, sites_mapValues, Site.fault?_map_mapValue]
  have hsize : ∀ e : Description,
      (Site.values e.erased.sites).length = (Site.values e.sites).length := by
    intro e
    rw [erased, sites_mapValues, Site.values_map_mapValue, List.length_map]
  have htexts : d'.text Value.placeholder = d.text Value.placeholder := by
    rw [← htext, h, htext]
  have hfaults : Site.fault? d'.sites = Site.fault? d.sites := by
    rw [← hfault, h, hfault]
  have hsizes : (Site.values d'.sites).length = (Site.values d.sites).length := by
    rw [← hsize, h, hsize]
  rw [build_eq_assemble, build_eq_assemble, Statement.assemble, Statement.assemble, hfaults]
  cases Site.fault? d.sites with
  | none => exact .ok ⟨htexts, by simpa using hsizes⟩
  | some e => exact .error rfl

namespace Cli

/-! ## Commands that differ in their values -/

/-- Two assignments that are the same up to the first equals sign, with related values behind it. -/
inductive SameTarget (related : Value → Value → Prop) : String → String → Prop
  | value {field value other : String} (hfield : '=' ∉ field.toList)
    (hvalue : related (.ofLiteral value) (.ofLiteral other)) :
    SameTarget related (field ++ "=" ++ value) (field ++ "=" ++ other)
  | noValue {text : String} (htext : '=' ∉ text.toList) : SameTarget related text text

/-- Two values that are both missing or both given. -/
def BothNull (value other : Value) : Prop := other.isNull = value.isNull

/-- Two values of whatever kind. -/
def AnyValues (_ _ : Value) : Prop := True

/-- Two filters that differ in the values of their conditions only. -/
structure Filter.Differ (first second : Filter) : Prop where
  /-- The conditions are about the same fields, and about missing values at the same places. -/
  conditions : List.Forall₂ (SameTarget BothNull) first.conditions second.conditions
  /-- The fields that have to be empty are the same. -/
  nulls : second.nulls = first.nulls
  /-- The conditions are combined in the same way. -/
  any : second.any = first.any

/-- Two commands that differ in the values of their conditions and assignments only. -/
inductive Command.Differ : Command → Command → Prop
  | select {table : String} {options : ReadOptions} {filter : Filter}
    (hfilter : options.filter.Differ filter) :
    Differ (select table options) (select table { options with filter })
  | count {table : String} {filter other : Filter} (hfilter : filter.Differ other) :
    Differ (count table filter) (count table other)
  | update {table : String} {assignments others : List String} {filter other : Filter}
    (hassignments : List.Forall₂ (SameTarget AnyValues) assignments others)
    (hfilter : filter.Differ other) :
    Differ (update table assignments filter) (update table others other)
  | delete {table : String} {filter other : Filter} (hfilter : filter.Differ other) :
    Differ (delete table filter) (delete table other)

/-- Two errors that are the same, but for the text that is no assignment. -/
inductive CommandError.SameKind : CommandError → CommandError → Prop
  | refl (e : CommandError) : SameKind e e
  | invalidAssignment (text other : String) :
    SameKind (invalidAssignment text) (invalidAssignment other)

/-! ## Assignments -/

/-- An assignment is split at its first equals sign. -/
lemma readAssignment?_of_equals {field : String} (hfield : '=' ∉ field.toList) (value : String) :
    readAssignment? (field ++ "=" ++ value) =
      if (Text.trim field).isEmpty then none
      else some (Text.trim field, .ofLiteral value) := by
  have hchars : ∀ c ∈ field.toList, decide (c ≠ '=') = true := by
    intro c hc
    exact decide_eq_true fun heq => hfield (heq ▸ hc)
  have hsplit : (field ++ "=" ++ value).toList = field.toList ++ '=' :: value.toList := by
    simp
  rw [readAssignment?, hsplit, List.dropWhile_append_of_pos hchars,
    List.takeWhile_append_of_pos hchars]
  simp

/-- A text without an equals sign is no assignment. -/
lemma readAssignment?_eq_none {text : String} (htext : '=' ∉ text.toList) :
    readAssignment? text = none := by
  have hchars : ∀ c ∈ text.toList, decide (c ≠ '=') = true := by
    intro c hc
    exact decide_eq_true fun heq => htext (heq ▸ hc)
  rw [readAssignment?, List.dropWhile_eq_nil_iff.2 hchars]

/-- **Assignments to the same field** are read to related values, or none of them is read. -/
lemma parseAssignment_alike {related : Value → Value → Prop} {text other : String}
    (h : SameTarget related text other) :
    Alike CommandError.SameKind (fun a b => b.1 = a.1 ∧ related a.2 b.2)
      (parseAssignment text) (parseAssignment other) := by
  cases h with
  | @value field value other hfield hvalue =>
    rw [parseAssignment, parseAssignment, readAssignment?_of_equals hfield,
      readAssignment?_of_equals hfield]
    by_cases hblank : (Text.trim field).isEmpty
    · rw [if_pos hblank, if_pos hblank]
      exact .error (.invalidAssignment _ _)
    · rw [if_neg hblank, if_neg hblank]
      exact .ok ⟨rfl, hvalue⟩
  | noValue htext =>
    rw [parseAssignment, readAssignment?_eq_none htext]
    exact .error (.refl _)

/-! ## Conditions -/

section Conditions

variable {table : Table}

/-- **Conditions on the same field** are the same predicate without its value, as long as the values
are missing in both or in none. -/
lemma condition_alike {text other : String} (h : SameTarget BothNull text other) :
    Alike CommandError.SameKind (fun p q => q.erased = p.erased)
      (condition table text) (condition table other) := by
  apply (parseAssignment_alike h).bind
  rintro ⟨field, value⟩ ⟨otherField, otherValue⟩ ⟨hfield, hnull⟩
  obtain rfl : otherField = field := hfield
  have hcolumn : Alike CommandError.SameKind Eq (fieldColumn table otherField)
      (fieldColumn table otherField) := .refl .refl (fun _ => rfl) _
  apply hcolumn.bind
  rintro column _ rfl
  refine .ok ?_
  rw [show otherValue.isNull = value.isNull from hnull]
  cases value.isNull <;> rfl

/-- Predicates that are the same one by one without their values. -/
lemma map_erased_of_forall₂ {leaves others : List Predicate}
    (h : List.Forall₂ (fun p q : Predicate => q.erased = p.erased) leaves others) :
    others.map Predicate.erased = leaves.map Predicate.erased := by
  induction h with
  | nil => rfl
  | cons hleaf _ ih => rw [List.map_cons, List.map_cons, hleaf, ih]

/-- Leaves without their values are joined to a condition without its values. -/
lemma Filter.join_erased (any : Bool) (leaves : List Predicate) :
    join any (leaves.map Predicate.erased) = (join any leaves).map Predicate.erased := by
  have hgroup : ∀ connective, Predicate.group connective (leaves.map Predicate.erased) =
      (Predicate.group connective leaves).erased := by
    intro connective
    rw [Predicate.erased, Predicate.mapValues, Predicate.mapMembers_eq_map]
    rfl
  match leaves, hgroup with
  | [], _ => rfl
  | [leaf], _ => rfl
  | first :: second :: rest, hgroup =>
    cases any with
    | true => exact congrArg some (hgroup .or)
    | false => exact congrArg some (hgroup .and)

/-- **The conditions of filters** that differ in their values are the same without them. -/
theorem Filter.predicate?_alike {filter other : Filter} (h : filter.Differ other) :
    Alike CommandError.SameKind (fun p? q? => q?.map Predicate.erased = p?.map Predicate.erased)
      (filter.predicate? table) (other.predicate? table) := by
  have hconditions : Alike CommandError.SameKind
      (List.Forall₂ fun p q : Predicate => q.erased = p.erased)
      (filter.conditions.mapM (condition table)) (other.conditions.mapM (condition table)) :=
    .mapM h.conditions fun _ _ => condition_alike
  have hnulls : Alike CommandError.SameKind Eq (filter.nulls.mapM (nullCondition table))
      (other.nulls.mapM (nullCondition table)) := by
    rw [h.nulls]
    exact .refl .refl (fun _ => rfl) _
  have hleaves : Alike CommandError.SameKind
      (fun leaves others => others.map Predicate.erased = leaves.map Predicate.erased)
      (filter.leaves table) (other.leaves table) := by
    apply hconditions.bind
    intro leaves others hsame
    apply hnulls.bind
    rintro nulls _ rfl
    refine .ok ?_
    rw [List.map_append, List.map_append, map_erased_of_forall₂ hsame]
  rw [predicate?, predicate?, h.any]
  apply hleaves.map
  intro leaves others hsame
  rw [← join_erased, ← join_erased, hsame]

end Conditions

/-! ## Statements -/

section Statements

variable {table : Table}

/-- A table whose outcomes are alike, asked for a command. -/
lemma mapError_table_alike {m n : Except TableError Statement}
    (h : Alike Eq Statement.SameText m n) :
    Alike CommandError.SameKind Statement.SameText (m.mapError .table) (n.mapError .table) := by
  apply h.mapError
  rintro e _ rfl
  exact .refl _

/-- Descriptions that are the same without their values, compiled for a table. -/
lemma mapError_compile_alike {d d' : Description} (h : d'.erased = d.erased) :
    Alike Eq Statement.SameText (d.build.mapError TableError.compile)
      (d'.build.mapError TableError.compile) :=
  (Description.build_alike h).mapError fun _ _ => congrArg _

/-- A query without the values of its condition. -/
def erasedQuery (query : Query) : Query :=
  { query with statement := query.statement.mapValues fun _ => .null }

/-- Queries that are the same without their values. -/
lemma generate_alike {query other : Query} (h : erasedQuery other = erasedQuery query) :
    Alike CommandError.SameKind Statement.SameText (query.generate.mapError .table)
      (other.generate.mapError .table) := by
  have hdescription : ∀ q : Query, q.description.erased = (erasedQuery q).description := by
    intro q
    unfold Query.description erasedQuery
    split <;> rfl
  rw [Query.generate_eq, Query.generate_eq]
  apply mapError_table_alike
  apply mapError_compile_alike
  rw [hdescription, hdescription, h]

/-- A window is set whatever the values are. -/
lemma erasedQuery_withWindow (options : ReadOptions) (query : Query) :
    erasedQuery (withWindow options query) = withWindow options (erasedQuery query) := by
  unfold withWindow
  cases options.limit? <;> cases options.offset? <;> rfl

/-- Fields are chosen whatever the values are. -/
lemma erasedQuery_project (mapping? : Option ProjectionMap) (map : (Scope → ProjectionMap) → Query)
    (select : Query) :
    erasedQuery (project mapping? map select) =
      project mapping? (fun mapping => erasedQuery (map mapping)) (erasedQuery select) := by
  cases mapping? <;> rfl

/-- The query of a read takes no notice of the values of its condition. -/
lemma readQuery_erased (direction : Direction) (mapping? : Option ProjectionMap)
    (predicate? : Option Predicate) (sort? : Option String) :
    (readQuery table direction mapping? predicate? sort?).map erasedQuery =
      readQuery table direction mapping? (predicate?.map Predicate.erased) sort? := by
  have hproject : ∀ (map : (Scope → ProjectionMap) → Query) (select : Query),
      (Except.ok (project mapping? map select) : Except CommandError Query).map erasedQuery =
        .ok (project mapping? (fun mapping => erasedQuery (map mapping)) (erasedQuery select)) :=
    fun map select => congrArg _ (erasedQuery_project mapping? map select)
  have hsorted : ∀ (field : String) (map : ColumnRef → (Scope → ProjectionMap) → Query)
      (select : ColumnRef → Query),
      (sortColumn table.scope field >>= fun column =>
          Except.ok (project mapping? (map column) (select column))).map erasedQuery =
        sortColumn table.scope field >>= fun column =>
          .ok (project mapping? (fun mapping => erasedQuery (map column mapping))
            (erasedQuery (select column))) := by
    intro field map select
    cases sortColumn table.scope field with
    | error e => rfl
    | ok column => exact hproject (map column) (select column)
  match predicate?, sort? with
  | none, none => exact hproject _ _
  | none, some field => exact hsorted field _ _
  | some predicate, none => exact hproject _ _
  | some predicate, some field => exact hsorted field _ _

/-- **Reads** whose filters differ in their values. -/
theorem compileSelect_alike {options : ReadOptions} {filter : Filter}
    (h : options.filter.Differ filter) :
    Alike CommandError.SameKind Statement.SameText (compileSelect table options)
      (compileSelect table { options with filter }) := by
  apply (Filter.predicate?_alike h).bind
  intro predicate? other? hpredicate
  have hmapping : Alike CommandError.SameKind Eq (projection? table options.columns)
      (projection? table options.columns) := .refl .refl (fun _ => rfl) _
  apply hmapping.bind
  rintro mapping? _ rfl
  have hsort : Alike CommandError.SameKind Eq
      (options.sort?.forM fun field => discard (fieldColumn table field))
      (options.sort?.forM fun field => discard (fieldColumn table field)) :=
    .refl .refl (fun _ => rfl) _
  apply hsort.bind
  rintro _ _ -
  have hquery : ∀ direction, Alike CommandError.SameKind
      (fun query other => erasedQuery other = erasedQuery query)
      (readQuery table direction mapping? predicate? options.sort?)
      (readQuery table direction mapping? other? options.sort?) := by
    intro direction
    apply Alike.of_map_eq .refl
    rw [readQuery_erased, readQuery_erased, hpredicate]
  apply (hquery _).bind
  intro query other hsame
  apply generate_alike
  rw [erasedQuery_withWindow, erasedQuery_withWindow, hsame]
  rfl

/-- Two conditions that are the same without their values are there or not together. -/
lemma cases_of_map_erased {p? q? : Option Predicate}
    (h : q?.map Predicate.erased = p?.map Predicate.erased) :
    p? = none ∧ q? = none ∨ ∃ p q, p? = some p ∧ q? = some q ∧ q.erased = p.erased := by
  cases p? with
  | none => exact .inl ⟨rfl, by simpa using h⟩
  | some p =>
    obtain ⟨q, hq, hsame⟩ := Option.map_eq_some_iff.1 h
    exact .inr ⟨p, q, rfl, hq, hsame⟩

/-- **Counts** whose filters differ in their values. -/
theorem compileCount_alike {filter other : Filter} (h : filter.Differ other) :
    Alike CommandError.SameKind Statement.SameText (compileCount table filter)
      (compileCount table other) := by
  apply (Filter.predicate?_alike h).bind
  intro predicate? other? hpredicate
  obtain ⟨rfl, rfl⟩ | ⟨p, q, rfl, rfl, hsame⟩ := cases_of_map_erased hpredicate
  · exact generate_alike rfl
  · have hcount : ∀ predicate : Predicate, erasedQuery (table.filter fun _ => predicate).count =
        (table.filter fun _ => predicate.erased).count := fun _ => rfl
    apply generate_alike
    rw [hcount, hcount, hsame]

/-- **Deletions** whose filters differ in their values. -/
theorem compileDelete_alike {filter other : Filter} (h : filter.Differ other) :
    Alike CommandError.SameKind Statement.SameText (compileDelete table filter)
      (compileDelete table other) := by
  apply (Filter.predicate?_alike h).bind
  intro predicate? other? hpredicate
  obtain ⟨rfl, rfl⟩ | ⟨p, q, rfl, rfl, hsame⟩ := cases_of_map_erased hpredicate
  · exact .refl .refl (fun _ => ⟨rfl, rfl⟩) _
  · let deletion (predicate : Predicate) : Description :=
      .delete ((DeleteStatement.ofTable table.name).filter predicate)
    have herased : ∀ predicate, (deletion predicate).erased = deletion predicate.erased :=
      fun _ => rfl
    have hdeletion : (deletion q).erased = (deletion p).erased := by
      rw [herased, herased, hsame]
    exact mapError_table_alike (mapError_compile_alike hdeletion)

/-! ## Updates -/

/-- Entries of the same fields stand for the same columns. -/
lemma resolvePartial_alike {record other : Record}
    (h : List.Forall₂ (fun a b => b.1 = a.1) record other) :
    Alike Eq (List.Forall₂ fun a b => b.1 = a.1) (table.definition.resolvePartial record)
      (table.definition.resolvePartial other) := by
  apply Alike.mapM h
  rintro ⟨field, value⟩ ⟨otherField, otherValue⟩ hfield
  obtain rfl : otherField = field := hfield
  have hcolumn : Alike Eq Eq (table.definition.columnFor otherField)
      (table.definition.columnFor otherField) := .refl (fun _ => rfl) (fun _ => rfl) _
  apply hcolumn.bind
  rintro column _ rfl
  exact .ok rfl

/-- Updates of the same columns under conditions that are the same without their values. -/
lemma updateStatement_erased {p q : Predicate} (hsame : q.erased = p.erased)
    {assignments others : List (String × Value)}
    (h : List.Forall₂ (fun a b => b.1 = a.1) assignments others) :
    (Description.update ((table.filter fun _ => q).updateStatement 0 others)).erased =
      (Description.update ((table.filter fun _ => p).updateStatement 0 assignments)).erased := by
  let blank (entry : String × Value) : Assignment := ⟨⟨0, entry.1⟩, .null⟩
  have herased : ∀ (predicate : Predicate) (entries : List (String × Value)),
      (Description.update ((table.filter fun _ => predicate).updateStatement 0 entries)).erased =
        .update { table := table.name, assignments := entries.map blank,
                  where? := some predicate.erased } := by
    intro predicate entries
    rw [FilteredTable.updateStatement_eq, Description.erased, Description.mapValues,
      UpdateStatement.mapValues, List.map_map]
    rfl
  have hblank : others.map blank = assignments.map blank := by
    induction h with
    | nil => rfl
    | cons hcolumn _ ih => simp only [List.map_cons, blank, hcolumn, ih]
  rw [herased, herased, hblank, hsame]

/-- Updates of the same fields under conditions that are the same without their values. -/
lemma update_alike {p q : Predicate} (hsame : q.erased = p.erased) {record other : Record}
    (h : List.Forall₂ (fun a b => b.1 = a.1) record other) :
    Alike Eq Statement.SameText ((table.filter fun _ => p).update record)
      ((table.filter fun _ => q).update other) := by
  apply (resolvePartial_alike h).bind
  intro assignments others hcolumns
  cases hcolumns with
  | nil => exact .error rfl
  | cons hcolumn hrest =>
    exact mapError_compile_alike (updateStatement_erased hsame (.cons hcolumn hrest))

/-- **Updates** whose assignments and filters differ in their values. -/
theorem compileUpdate_alike {assignments others : List String} {filter other : Filter}
    (hassignments : List.Forall₂ (SameTarget AnyValues) assignments others)
    (hfilter : filter.Differ other) :
    Alike CommandError.SameKind Statement.SameText (compileUpdate table assignments filter)
      (compileUpdate table others other) := by
  have hrecord : Alike CommandError.SameKind
      (List.Forall₂ fun a b : String × Value => b.1 = a.1 ∧ AnyValues a.2 b.2)
      (assignments.mapM parseAssignment) (others.mapM parseAssignment) :=
    .mapM hassignments fun _ _ => parseAssignment_alike
  apply hrecord.bind
  intro record otherRecord hfields
  apply (Filter.predicate?_alike hfilter).bind
  intro predicate? other? hpredicate
  obtain ⟨rfl, rfl⟩ | ⟨p, q, rfl, rfl, hsame⟩ := cases_of_map_erased hpredicate
  · exact .error (.refl _)
  · exact mapError_table_alike (update_alike hsame (hfields.imp fun _ _ h => h.1))

/-! ## Insertions -/

/-- The text of an insertion tells the number of its records, and so does the number of its
parameters. -/
lemma of_compileInsert_eq_ok [Json.Library] {text : String} {replace : Bool} {statement : Statement}
    (h : compileInsert table text replace = .ok statement) :
    ∃ records, Record.ofJson text = .ok records ∧
      statement.sql = (if replace then "REPLACE INTO" else "INSERT INTO") ++
        table.insertionTail records.length ∧
      statement.params.size = records.length * table.definition.mapping.length := by
  obtain ⟨records, hrecords, h⟩ := bind_eq_ok_iff.1 h
  refine ⟨records, mapError_eq_ok_iff.1 hrecords, ?_⟩
  have hsize : ∀ rows, table.resolveRows records = .ok rows →
      rows.flatten.length = records.length * table.definition.mapping.length := by
    intro rows hrows
    have hwidth := table.resolveRows_yields records
    rw [hrows] at hwidth
    rw [length_flatten_of_length hwidth, (Table.resolveRows_eq_ok_iff.1 hrows).1.length_eq]
  have hbatch := mapError_eq_ok_iff.1 h
  cases hrows : table.resolveRows records with
  | error e =>
    rw [Table.insertBatch_eq, Table.replaceBatch_eq, hrows] at hbatch
    cases replace <;> cases hbatch
  | ok rows =>
    rw [Table.insertBatch_eq, Table.replaceBatch_eq, hrows] at hbatch
    cases replace with
    | false =>
      obtain rfl := Except.ok.inj hbatch
      exact ⟨rfl, hsize rows hrows⟩
    | true =>
      obtain rfl := Except.ok.inj hbatch
      exact ⟨rfl, hsize rows hrows⟩

end Statements

/-! ## Commands -/

/-- A statement of a command comes from its compilation. -/
lemma of_map_some_eq_ok {m : Except CommandError Statement} {s : Statement}
    (h : m.map some = .ok (some s)) : m = .ok s := by
  cases m with
  | error e => cases h
  | ok other =>
    obtain rfl := Option.some.inj (Except.ok.inj h)
    rfl

/-- **Commands about a table** that differ in their values. -/
theorem Command.compileFor_alike [Json.Library] {table : Table} {first second : Command}
    (h : first.Differ second) :
    Alike CommandError.SameKind
      (fun s? t? => ∃ s t, s? = some s ∧ t? = some t ∧ s.SameText t)
      (first.compileFor table) (second.compileFor table) := by
  have hsome : ∀ s t : Statement, s.SameText t →
      ∃ s' t', some s = some s' ∧ some t = some t' ∧ s'.SameText t' :=
    fun s t hsame => ⟨s, t, rfl, rfl, hsame⟩
  cases h with
  | select hfilter => exact (compileSelect_alike hfilter).map hsome
  | count hfilter => exact (compileCount_alike hfilter).map hsome
  | update hassignments hfilter => exact (compileUpdate_alike hassignments hfilter).map hsome
  | delete hfilter => exact (compileDelete_alike hfilter).map hsome

/-- Commands that differ in their values are about the same table. -/
lemma Command.Differ.table? {first second : Command} (h : first.Differ second) :
    ∃ name, first.table? = some name ∧ second.table? = some name := by
  cases h <;> exact ⟨_, rfl, rfl⟩

/-- **Values of a command line never reach the text.** Two reads, counts, updates or deletions that
differ in what stands behind the first equals signs of their conditions and assignments, and agree
on which conditions are about missing values, are refused with the same error, up to the text that
is quoted as no assignment, or they have one text and as many parameters. Two insertions, or two
replacements, of as many records into a table have one text and as many parameters, whatever the
records are. This holds against any schema, accepted or not.

**Proof sketch.** The two conditions are read flag by flag to predicates that are equal without
their values (`Filter.predicate?_alike`), and so are the descriptions that they become part of. Such
descriptions have one text and one fault (`Description.build_alike`). The text of an insertion is
made from the table and the number of rows (`of_compileInsert_eq_ok`). -/
theorem Command.compile_noninterference [Json.Library] (schema : Schema) :
    (∀ first second : Command, first.Differ second →
      (∃ e e', first.compile schema = .error e ∧ second.compile schema = .error e' ∧
          e.SameKind e') ∨
        ∃ s t, first.compile schema = .ok (some s) ∧ second.compile schema = .ok (some t) ∧
          t.sql = s.sql ∧ t.params.size = s.params.size) ∧
    ∀ (name text other : String) (replace : Bool) (s t : Statement),
      (Command.insert name text replace).compile schema = .ok (some s) →
      (Command.insert name other replace).compile schema = .ok (some t) →
      ∃ records others, Record.ofJson text = .ok records ∧ Record.ofJson other = .ok others ∧
        (records.length = others.length → t.sql = s.sql ∧ t.params.size = s.params.size) := by
  constructor
  · intro first second hdiffer
    obtain ⟨name, hfirst, hsecond⟩ := hdiffer.table?
    have halike : Alike CommandError.SameKind
        (fun s? t? => ∃ s t, s? = some s ∧ t? = some t ∧ Statement.SameText s t)
        (first.compile schema) (second.compile schema) := by
      rw [compile, compile, hfirst, hsecond]
      have htable : Alike CommandError.SameKind Eq ((schema.table name).mapError .schema)
          ((schema.table name).mapError .schema) := .refl .refl (fun _ => rfl) _
      apply htable.bind
      rintro entry _ rfl
      exact compileFor_alike hdiffer
    generalize first.compile schema = m at halike ⊢
    generalize second.compile schema = n at halike ⊢
    cases halike with
    | ok hsame =>
      obtain ⟨s, t, rfl, rfl, hsame⟩ := hsame
      exact .inr ⟨s, t, rfl, rfl, hsame.sql, hsame.size⟩
    | error hkind => exact .inl ⟨_, _, rfl, rfl, hkind⟩
  · intro name text other replace s t hs ht
    rw [compile, table?] at hs ht
    obtain ⟨entry, hentry, hs⟩ := bind_eq_ok_iff.1 hs
    obtain ⟨otherEntry, hother, ht⟩ := bind_eq_ok_iff.1 ht
    obtain rfl : otherEntry = entry := Except.ok.inj (hother.symm.trans hentry)
    obtain ⟨records, hrecords, hsql, hsize⟩ := of_compileInsert_eq_ok (of_map_some_eq_ok hs)
    obtain ⟨others, hothers, htsql, htsize⟩ := of_compileInsert_eq_ok (of_map_some_eq_ok ht)
    refine ⟨records, others, hrecords, hothers, ?_⟩
    intro hlength
    exact ⟨by rw [hsql, htsql, hlength], by rw [hsize, htsize, hlength]⟩

/-- A change of the title of a blog. -/
def retitled : Command := .update "blog" ["title=Notes"] { conditions := ["id=3"] }

/-- The same change with other values, which look like more than values. -/
def hostilelyRetitled : Command :=
  .update "blog" ["title='; DROP TABLE blog; --"] { conditions := ["id=1 OR t1.id=?"] }

/-- An author as JSON. -/
def newAuthor : String := "\x7b\"id\": 1, \"name\": \"Ada\"\x7d"

/-- Another author, whose fields stand in another order. -/
def otherAuthor : String := "\x7b\"name\": \"?); --\", \"id\": null\x7d"

/-- The two updates have one text, and so have the insertions of the two authors. -/
theorem Command.compile_noninterference_retitled :
    retitled.Differ hostilelyRetitled ∧
      (∃ t, hostilelyRetitled.compile .sample = .ok (some t) ∧
        t.sql = "UPDATE blog t1\nSET t1.title = ?\nWHERE t1.id = ?" ∧ t.params.size = 2) ∧
      ∃ s t, (insert "authors" newAuthor false).compile .sample = .ok (some s) ∧
        (insert "authors" otherAuthor false).compile .sample = .ok (some t) ∧ t.sql = s.sql := by
  have htitle : SameTarget AnyValues ("title" ++ "=" ++ "Notes")
      ("title" ++ "=" ++ "'; DROP TABLE blog; --") := .value (by decide) trivial
  have hvalues : BothNull (.ofLiteral "3") (.ofLiteral "1 OR t1.id=?") := by
    unfold BothNull
    decide +kernel
  have hid : SameTarget BothNull ("id" ++ "=" ++ "3") ("id" ++ "=" ++ "1 OR t1.id=?") :=
    .value (by decide) hvalues
  have hdiffer : retitled.Differ hostilelyRetitled :=
    .update (.cons htitle .nil) ⟨.cons hid .nil, rfl, rfl⟩
  have hretitled : (retitled.compile .sample).toOption = some (some
      ⟨"UPDATE blog t1\nSET t1.title = ?\nWHERE t1.id = ?", #[.text "Notes", .integer 3]⟩) := by
    decide +kernel
  obtain ⟨hupdates, hinserts⟩ := Command.compile_noninterference .sample
  refine ⟨hdiffer, ?_, ?_⟩
  · obtain ⟨e, -, hcompile, -⟩ | ⟨s, t, hcompile, hother, hsql, hsize⟩ := hupdates _ _ hdiffer
    · rw [hcompile] at hretitled
      cases hretitled
    · rw [hcompile] at hretitled
      obtain rfl := Option.some.inj (Option.some.inj hretitled)
      exact ⟨t, hother, hsql, hsize⟩
  · have hok : ∀ {m : Except CommandError (Option Statement)} {a}, m.toOption = some a → m = .ok a
      | .ok _, _, h => congrArg _ (Option.some.inj h)
    have hnew : (insert "authors" newAuthor false).compile .sample =
        .ok (some ⟨"INSERT INTO authors (id, name)\nVALUES (?, ?)",
          #[.integer 1, .text "Ada"]⟩) := hok (by decide +kernel)
    have hother : (insert "authors" otherAuthor false).compile .sample =
        .ok (some ⟨"INSERT INTO authors (id, name)\nVALUES (?, ?)",
          #[.null, .text "?); --"]⟩) := hok (by decide +kernel)
    have hlengths : (Record.ofJson newAuthor).toOption.map List.length =
        (Record.ofJson otherAuthor).toOption.map List.length := by decide +kernel
    obtain ⟨records, others, hrecords, hothers, hsame⟩ :=
      hinserts "authors" newAuthor otherAuthor false _ _ hnew hother
    rw [hrecords, hothers] at hlengths
    exact ⟨_, _, hnew, hother, (hsame (Option.some.inj hlengths)).1⟩

end Cli

end BoundSql
