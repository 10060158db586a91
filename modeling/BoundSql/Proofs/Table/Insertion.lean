import BoundSql.Proofs.Cli.Soundness

/-!
# Insertions

The statement of an insertion, told from its records. A record is complete if its keys are fields of
the table and each field gets a value; the first record that is not refuses the insertion. Complete
records become one tuple of placeholders each, and the parameters are their values, row by row and
in the order of the columns. Of several values for one field the last one counts.

## Main definitions

* `BoundSql.TableDef.Completes`, `BoundSql.TableDef.Rejects` — whether a record can be inserted, and
  why not.
* `BoundSql.Record.Gives` — the value that a record gives last for a field.
* `BoundSql.Table.insertionTail` — the text of an insertion behind its keywords.

## Main results

* `BoundSql.TableDef.resolveRow_eq_ok_iff`, `BoundSql.TableDef.resolveRow_eq_error_iff` — the row of
  a record and its refusal.
* `BoundSql.Table.insertBatch_eq`, `BoundSql.Table.replaceBatch_eq` — both kinds of insertion are
  made of the same rows.
* `BoundSql.Table.insertBatch_contract` — insertions from records to parameters.
-/

namespace BoundSql

/-! ## The values of a record -/

/-- What a record gives last for a field. -/
def Record.Gives (record : Record) (field : String) (value : Value) : Prop :=
  ∃ front back : Record, record = front ++ (field, value) :: back ∧
    ∀ later ∈ back, later.1 ≠ field

namespace TableDef

/-- The last value is the one that is looked up. -/
lemma lastValue?_eq_some_iff {record : Record} {field : String} {value : Value} :
    lastValue? record field = some value ↔ record.Gives field value := by
  rw [lastValue?, List.lookup_eq_some_iff]
  constructor
  · rintro ⟨back, front, hreverse, hback⟩
    refine ⟨front.reverse, back.reverse, ?_, ?_⟩
    · rw [← List.reverse_reverse record, hreverse]
      simp
    · intro later hlater
      simpa [ne_comm] using hback later (List.mem_reverse.1 hlater)
  · rintro ⟨front, back, rfl, hback⟩
    refine ⟨back.reverse, front.reverse, by simp, ?_⟩
    intro later hlater
    simpa [ne_comm] using hback later (List.mem_reverse.1 hlater)

/-- There is a last value exactly for the keys of the record. -/
lemma lastValue?_eq_none_iff {record : Record} {field : String} :
    lastValue? record field = none ↔ field ∉ record.map Prod.fst := by
  rw [lastValue?, List.lookup_eq_none_iff]
  simp [forall_comm (α := Value), imp_not_comm]

/-- Where no key is repeated, the order of a record does not matter. -/
lemma lastValue?_perm {record other : Record} (hperm : record.Perm other)
    (hkeys : (record.map Prod.fst).Nodup) (field : String) :
    lastValue? other field = lastValue? record field := by
  cases hvalue : lastValue? record field with
  | none =>
    rw [lastValue?_eq_none_iff] at hvalue ⊢
    rwa [← (hperm.map Prod.fst).mem_iff]
  | some value =>
    obtain ⟨front, back, rfl, -⟩ := lastValue?_eq_some_iff.1 hvalue
    have hmem : (field, value) ∈ other := hperm.mem_iff.1 (by simp)
    obtain ⟨ahead, behind, rfl⟩ := List.append_of_mem hmem
    refine lastValue?_eq_some_iff.2 ⟨ahead, behind, rfl, ?_⟩
    have hothers := (hperm.map Prod.fst).nodup hkeys
    rw [List.map_append, List.map_cons, List.nodup_append, List.nodup_cons] at hothers
    obtain ⟨-, ⟨hfield, -⟩, -⟩ := hothers
    intro later hlater heq
    exact hfield (List.mem_map.2 ⟨later, hlater, heq⟩)

/-! ## Rows -/

/-- A record that can be inserted: its keys are fields and there is a value for each field. -/
structure Completes (table : TableDef) (record : Record) : Prop where
  /-- The keys of the record are fields. -/
  known : ∀ entry ∈ record, (table.columnFor? entry.1).isSome
  /-- Each field has a value. -/
  given : ∀ entry ∈ table.mapping, entry.1 ∈ record.map Prod.fst

/-- Why a record cannot be inserted: for its first key that is no field, or else for the first field
without a value. -/
inductive Rejects (table : TableDef) (record : Record) : TableError → Prop
  | unknownField {front back : Record} {field : String} {value : Value}
    (hrecord : record = front ++ (field, value) :: back)
    (hfront : ∀ entry ∈ front, (table.columnFor? entry.1).isSome)
    (hfield : table.columnFor? field = none) :
    Rejects table record (.unknownField table.name field)
  | missingField {front back : List (String × String)} {field column : String}
    (hknown : ∀ entry ∈ record, (table.columnFor? entry.1).isSome)
    (hmapping : table.mapping = front ++ (field, column) :: back)
    (hfront : ∀ entry ∈ front, entry.1 ∈ record.map Prod.fst)
    (hfield : field ∉ record.map Prod.fst) :
    Rejects table record (.missingField table.name field)

variable {table : TableDef} {record : Record}

/-- A key that is a field passes. -/
lemma discard_columnFor_eq_ok_iff {field : String} :
    discard (table.columnFor field) = .ok () ↔ (table.columnFor? field).isSome := by
  unfold columnFor
  cases table.columnFor? field with
  | none => exact ⟨nofun, nofun⟩
  | some column => exact ⟨fun _ => rfl, fun _ => rfl⟩

/-- A key that is no field is refused. -/
lemma discard_columnFor_eq_error_iff {field : String} {e : TableError} :
    discard (table.columnFor field) = .error e ↔
      table.columnFor? field = none ∧ e = .unknownField table.name field := by
  unfold columnFor
  cases table.columnFor? field with
  | none => exact ⟨fun h => ⟨rfl, (Except.error.inj h).symm⟩, fun ⟨_, h⟩ => h ▸ rfl⟩
  | some column => exact ⟨nofun, nofun⟩

/-- The keys of a record pass if they are fields. -/
lemma forM_columnFor_eq_ok_iff :
    (record.forM fun entry => discard (table.columnFor entry.1)) = .ok () ↔
      ∀ entry ∈ record, (table.columnFor? entry.1).isSome := by
  simp only [forM_eq_ok_iff, discard_columnFor_eq_ok_iff]

/-- The value of a field in the row of a record. -/
def cell (table : TableDef) (record : Record) (field : String) : Except TableError Value :=
  match lastValue? record field with
  | some value => .ok value
  | none => .error (.missingField table.name field)

/-- A field with a value is filled in. -/
lemma cell_eq_ok_iff {field : String} {value : Value} :
    table.cell record field = .ok value ↔ lastValue? record field = some value := by
  unfold cell
  cases lastValue? record field <;> simp

/-- A field without a value is refused. -/
lemma cell_eq_error_iff {field : String} {e : TableError} :
    table.cell record field = .error e ↔
      field ∉ record.map Prod.fst ∧ e = .missingField table.name field := by
  rw [← lastValue?_eq_none_iff, cell]
  cases lastValue? record field <;> simp [eq_comm]

/-- A row is made of cells, behind a check of the keys. -/
lemma resolveRow_eq_bind :
    table.resolveRow record =
      ((record.forM fun entry => discard (table.columnFor entry.1)) >>= fun _ =>
        table.mapping.mapM fun entry => table.cell record entry.1) := rfl

/-- **The row of a record** whose keys are fields: the last value of each field, in the order of the
mapping. -/
theorem resolveRow_eq_ok_iff {row : List Value} :
    table.resolveRow record = .ok row ↔
      (∀ entry ∈ record, (table.columnFor? entry.1).isSome) ∧
        List.Forall₂ (fun entry value => record.Gives entry.1 value) table.mapping row := by
  have hcells : (table.mapping.mapM fun entry => table.cell record entry.1) = .ok row ↔
      List.Forall₂ (fun entry value => record.Gives entry.1 value) table.mapping row := by
    simp only [mapM_eq_ok_iff, cell_eq_ok_iff, lastValue?_eq_some_iff]
  rw [resolveRow_eq_bind, bind_eq_ok_iff, ← forM_columnFor_eq_ok_iff, ← hcells]
  exact ⟨fun ⟨_, h⟩ => h, fun h => ⟨(), h⟩⟩

/-- **The refusal of a record** names the first key that is no field, or else the first field
without a value. -/
theorem resolveRow_eq_error_iff {e : TableError} :
    table.resolveRow record = .error e ↔ table.Rejects record e := by
  rw [resolveRow_eq_bind]
  constructor
  · intro h
    cases hkeys : record.forM fun entry => discard (table.columnFor entry.1) with
    | error e' =>
      rw [hkeys] at h
      obtain rfl : e' = e := Except.error.inj h
      obtain ⟨front, entry, back, hrecord, hfront, hentry⟩ := forM_eq_error_iff.1 hkeys
      obtain ⟨hfield, rfl⟩ := discard_columnFor_eq_error_iff.1 hentry
      refine .unknownField hrecord ?_ hfield
      intro earlier hearlier
      exact discard_columnFor_eq_ok_iff.1 (hfront earlier hearlier)
    | ok _ =>
      rw [hkeys] at h
      obtain ⟨front, ⟨field, column⟩, back, hmapping, hfront, hcell⟩ := mapM_eq_error_iff.1 h
      obtain ⟨hfield, rfl⟩ := cell_eq_error_iff.1 hcell
      refine .missingField (forM_columnFor_eq_ok_iff.1 hkeys) hmapping ?_ hfield
      intro earlier hearlier
      obtain ⟨value, hvalue⟩ := hfront earlier hearlier
      by_contra hmissing
      rw [cell_eq_ok_iff, lastValue?_eq_none_iff.2 hmissing] at hvalue
      cases hvalue
  · rintro (@⟨front, back, field, value, hrecord, hfront, hfield⟩ | ⟨hknown, hmapping, hfront, hfield⟩)
    · have hkeys : (record.forM fun entry => discard (table.columnFor entry.1)) =
          .error (.unknownField table.name field) := by
        refine forM_eq_error_iff.2 ⟨_, _, _, hrecord, ?_,
          discard_columnFor_eq_error_iff.2 ⟨hfield, rfl⟩⟩
        intro earlier hearlier
        exact discard_columnFor_eq_ok_iff.2 (hfront earlier hearlier)
      rw [hkeys]
      rfl
    · rw [forM_columnFor_eq_ok_iff.2 hknown]
      refine mapM_eq_error_iff.2 ⟨_, _, _, hmapping, ?_, cell_eq_error_iff.2 ⟨hfield, rfl⟩⟩
      intro earlier hearlier
      cases hvalue : lastValue? record earlier.1 with
      | none => exact absurd (hfront earlier hearlier) (lastValue?_eq_none_iff.1 hvalue)
      | some value => exact ⟨value, cell_eq_ok_iff.2 hvalue⟩

/-- A record all of whose keys are fields is resolved cell by cell. -/
lemma resolveRow_of_known (h : ∀ entry ∈ record, (table.columnFor? entry.1).isSome) :
    table.resolveRow record = table.mapping.mapM fun entry => table.cell record entry.1 := by
  rw [resolveRow_eq_bind, forM_columnFor_eq_ok_iff.2 h]
  rfl

/-- A record with a key that is no field is refused for such a key. -/
lemma resolveRow_of_unknown (h : ¬ ∀ entry ∈ record, (table.columnFor? entry.1).isSome) :
    ∃ key, table.resolveRow record = .error (.unknownField table.name key) := by
  cases hrow : table.resolveRow record with
  | ok row => exact absurd (resolveRow_eq_ok_iff.1 hrow).1 h
  | error e =>
    rcases resolveRow_eq_error_iff.1 hrow with _ | ⟨hknown, -, -, -⟩
    · exact ⟨_, rfl⟩
    · exact absurd hknown h

/-- A record has a row exactly if it is complete. -/
lemma exists_resolveRow_iff :
    (∃ row, table.resolveRow record = .ok row) ↔ table.Completes record := by
  constructor
  · rintro ⟨row, hrow⟩
    obtain ⟨hknown, hcells⟩ := resolveRow_eq_ok_iff.1 hrow
    refine ⟨hknown, ?_⟩
    clear hrow
    generalize table.mapping = mapping at hcells
    induction hcells with
    | nil => exact nofun
    | cons hgives _ ih =>
      obtain ⟨front, back, hrecord, -⟩ := hgives
      refine List.forall_mem_cons.2 ⟨?_, ih⟩
      simp [hrecord]
  · intro hcomplete
    cases hrow : table.resolveRow record with
    | ok row => exact ⟨row, rfl⟩
    | error e =>
      exfalso
      obtain ⟨hrecord, -, hfield⟩ | ⟨-, hmapping, -, hfield⟩ := resolveRow_eq_error_iff.1 hrow
      · have hknown := hcomplete.known _ (hrecord ▸ List.mem_append_right _ List.mem_cons_self)
        rw [hfield] at hknown
        cases hknown
      · exact hfield (hcomplete.given _ (hmapping ▸ List.mem_append_right _ List.mem_cons_self))

end TableDef

/-! ## Rows of an insertion -/

/-- Members of two lists that are related one by one stand at the same places. -/
lemma exists_getElem?_of_forall₂ {α β : Type} {R : α → β → Prop} {l : List α} {l' : List β}
    (h : List.Forall₂ R l l') {i : Nat} {x : α} (hx : l[i]? = some x) :
    ∃ y, l'[i]? = some y ∧ R x y := by
  induction h generalizing i with
  | nil => cases hx
  | cons hhead _ ih =>
    cases i with
    | zero =>
      obtain rfl := Option.some.inj hx
      exact ⟨_, rfl, hhead⟩
    | succ i => exact ih hx

/-- The cells of rows of one length, row by row. -/
lemma getElem?_flatten_of_length {rows : List (List Value)} {width : Nat}
    (h : ∀ row ∈ rows, row.length = width) {r c : Nat} {row : List Value} (hrow : rows[r]? = some row)
    (hc : c < width) : rows.flatten[r * width + c]? = row[c]? := by
  induction rows generalizing r with
  | nil => cases hrow
  | cons first rest ih =>
    obtain ⟨hfirst, hrest⟩ := List.forall_mem_cons.1 h
    rw [List.flatten_cons]
    cases r with
    | zero =>
      obtain rfl : first = row := by simpa using hrow
      rw [Nat.zero_mul, Nat.zero_add, List.getElem?_append_left (by omega)]
    | succ r =>
      have hle : first.length ≤ (r + 1) * width + c := by
        rw [hfirst, Nat.succ_mul]
        omega
      have hindex : (r + 1) * width + c - first.length = r * width + c := by
        rw [hfirst, Nat.succ_mul]
        omega
      rw [List.getElem?_append_right hle, hindex]
      exact ih hrest (by simpa using hrow)

/-- Rows of one length have as many cells as rows times the length. -/
lemma length_flatten_of_length {rows : List (List Value)} {width : Nat}
    (h : ∀ row ∈ rows, row.length = width) : rows.flatten.length = rows.length * width := by
  induction rows with
  | nil => simp
  | cons first rest ih =>
    obtain ⟨hfirst, hrest⟩ := List.forall_mem_cons.1 h
    rw [List.flatten_cons, List.length_append, hfirst, ih hrest, List.length_cons, Nat.succ_mul]
    omega

namespace InsertStatement

/-- A tuple of so many placeholders. -/
def markTuple (count : Nat) : String := "(" ++ commaList (List.replicate count "?") ++ ")"

/-- The text of an insertion of complete rows behind its keywords: one tuple of placeholders for
each row. -/
def tail (table : String) (columns : List String) (count : Nat) : String :=
  let tuples := List.replicate count (markTuple columns.length)
  s!" {table} ({commaList columns})\n" ++ s!"VALUES {commaList tuples}"

/-- A row of placeholders tells its length only. -/
lemma tuple_placeholder (row : List Value) :
    tuple Value.placeholder row = markTuple row.length := by
  have hmap : row.map Value.placeholder = List.replicate row.length "?" := List.map_const'
  rw [tuple, hmap, markTuple]
  simp [toString]

/-- The lines of an insertion of complete rows. -/
lemma texts_of_rows {s : InsertStatement} (hrows : s.rows ≠ [])
    (h : ∀ row ∈ s.rows, row.length = s.columns.length) :
    "\n".intercalate (s.texts Value.placeholder) =
      s.mode.keyword ++ tail s.table s.columns s.rows.length := by
  have htuple : ∀ row ∈ s.rows, tuple Value.placeholder row = markTuple s.columns.length := by
    intro row hrow
    rw [tuple_placeholder, h row hrow]
  have htuples : s.rows.map (tuple Value.placeholder) =
      List.replicate s.rows.length (markTuple s.columns.length) := by
    rw [List.map_congr_left htuple]
    exact List.map_const'
  rw [texts, htuples, listTexts, if_neg (by simpa using hrows), String.intercalate_cons_cons,
    String.intercalate_singleton]
  simp [tail, String.append_assoc, toString]

/-- **An insertion of complete rows** binds their values row by row. -/
theorem build_of_rows {s : InsertStatement} (hrows : s.rows ≠ [])
    (h : ∀ row ∈ s.rows, row.length = s.columns.length) :
    s.build = .ok ⟨s.mode.keyword ++ tail s.table s.columns s.rows.length,
      s.rows.flatten.toArray⟩ := by
  have hvalues : ∀ row : List Value, Site.values (row.map .value) = row := by
    intro row
    induction row with
    | nil => rfl
    | cons value rest ih => rw [List.map_cons, Site.values_value_cons, ih]
  have hfaultless : ∀ row : List Value, Site.fault? (row.map .value) = none := by
    intro row
    induction row with
    | nil => rfl
    | cons value rest ih => exact ih
  have hfault : Site.fault? s.sites = none := by
    rw [sites, Site.fault?_append_eq_none, Site.fault?_flatMap_eq_none]
    exact ⟨fault?_rowAritySites h 0, fun row _ => hfaultless row⟩
  have hparams : Site.values s.sites = s.rows.flatten := by
    rw [sites, Site.values_append, values_rowAritySites, List.nil_append, Site.values_flatMap]
    simp [hvalues, List.flatMap_id']
  rw [build_eq_assemble, Statement.assemble, hfault, hparams, texts_of_rows hrows h]

end InsertStatement

/-! ## Insertions -/

namespace Table

variable {table : Table} {records : List Record}

/-- The rows of an insertion are resolved one by one, and there has to be one. -/
lemma resolveRows_eq_ok_iff {rows : List (List Value)} :
    table.resolveRows records = .ok rows ↔
      List.Forall₂ (fun record row => table.definition.resolveRow record = .ok row) records rows ∧
        rows ≠ [] := by
  rw [resolveRows, bind_eq_ok_iff]
  simp only [mapM_eq_ok_iff]
  constructor
  · rintro ⟨others, hothers, hrows⟩
    cases others with
    | nil => cases hrows
    | cons row rest =>
      obtain rfl := Except.ok.inj hrows
      exact ⟨hothers, nofun⟩
  · rintro ⟨hrows, hnonempty⟩
    refine ⟨rows, hrows, ?_⟩
    cases rows with
    | nil => exact absurd rfl hnonempty
    | cons row rest => rfl

/-- The rows of an insertion are refused for the first record that is not complete, or because there
is none. -/
lemma resolveRows_eq_error_iff {e : TableError} :
    table.resolveRows records = .error e ↔
      records = [] ∧ e = .emptyInsert table.name ∨
        ∃ front record back, records = front ++ record :: back ∧
          (∀ earlier ∈ front, table.definition.Completes earlier) ∧
          table.definition.Rejects record e := by
  simp only [← TableDef.exists_resolveRow_iff, ← TableDef.resolveRow_eq_error_iff]
  rw [← mapM_eq_error_iff, resolveRows]
  cases hrows : records.mapM table.definition.resolveRow with
  | error e' =>
    have hrecords : records ≠ [] := by
      rintro rfl
      cases hrows
    constructor
    · intro h
      exact .inr (congrArg _ (Except.error.inj h))
    · rintro (⟨hnil, -⟩ | h)
      · exact absurd hnil hrecords
      · exact congrArg _ (Except.error.inj h)
  | ok rows =>
    have hlength := (mapM_eq_ok_iff.1 hrows).length_eq
    cases records with
    | nil =>
      obtain rfl : rows = [] := by simpa using hlength.symm
      constructor
      · intro h
        exact .inl ⟨rfl, (Except.error.inj h).symm⟩
      · rintro (⟨-, rfl⟩ | h)
        · rfl
        · cases h
    | cons record rest =>
      cases rows with
      | nil => simp at hlength
      | cons row rows =>
        constructor
        · exact nofun
        · rintro (⟨h, -⟩ | h)
          · cases h
          · cases h

/-- The text of an insertion of so many records behind its keywords. -/
def insertionTail (table : Table) (count : Nat) : String :=
  InsertStatement.tail table.name (table.definition.mapping.map Prod.snd) count

/-- Rows that are resolved compile, to a parameter for each of their cells. -/
lemma build_of_resolveRows {rows : List (List Value)} (h : table.resolveRows records = .ok rows)
    (mode : InsertMode) :
    InsertStatement.build
        ⟨table.name, table.definition.mapping.map Prod.snd, rows, mode⟩ =
      .ok ⟨mode.keyword ++ table.insertionTail records.length, rows.flatten.toArray⟩ := by
  obtain ⟨hrows, hnonempty⟩ := resolveRows_eq_ok_iff.1 h
  have hwidth : ∀ row ∈ rows, row.length = (table.definition.mapping.map Prod.snd).length := by
    have hyields := table.resolveRows_yields records
    rw [h] at hyields
    intro row hrow
    rw [List.length_map]
    exact hyields row hrow
  rw [InsertStatement.build_of_rows hnonempty hwidth, hrows.length_eq]
  rfl

/-- **An insertion** has the cells of its rows as parameters, and fails as its rows do. -/
theorem insertBatch_eq (table : Table) (records : List Record) :
    table.insertBatch records = (table.resolveRows records).map fun rows =>
      ⟨"INSERT INTO" ++ table.insertionTail records.length, rows.flatten.toArray⟩ := by
  rw [insertBatch]
  cases h : table.resolveRows records with
  | error e => rfl
  | ok rows =>
    change ((table.insertStatement rows).build).mapError _ = _
    rw [insertStatement_eq, build_of_resolveRows h]
    rfl

/-- **A replacement** has the cells of its rows as parameters, and fails as its rows do. -/
theorem replaceBatch_eq (table : Table) (records : List Record) :
    table.replaceBatch records = (table.resolveRows records).map fun rows =>
      ⟨"REPLACE INTO" ++ table.insertionTail records.length, rows.flatten.toArray⟩ := by
  rw [replaceBatch]
  cases h : table.resolveRows records with
  | error e => rfl
  | ok rows =>
    change ((table.insertStatement rows).replace.build).mapError _ = _
    rw [insertStatement_eq, InsertStatement.replace, build_of_resolveRows h]
    rfl

/-! ### Reordered records -/

/-- Refusals of two insertions into a table that are the same, but for which of several unknown keys
is named. -/
inductive SameRefusal (table : String) : TableError → TableError → Prop
  | refl (e : TableError) : SameRefusal table e e
  | unknownField (key other : String) :
    SameRefusal table (.unknownField table key) (.unknownField table other)

/-- A record without repeated keys has the same row in whatever order its entries stand. -/
lemma resolveRow_alike {record other : Record} (hperm : record.Perm other)
    (hkeys : (record.map Prod.fst).Nodup) :
    Cli.Alike (SameRefusal table.name) Eq (table.definition.resolveRow record)
      (table.definition.resolveRow other) := by
  have hvalues : ∀ field, TableDef.lastValue? other field = TableDef.lastValue? record field :=
    TableDef.lastValue?_perm hperm hkeys
  have hsame : (∀ entry ∈ other, (table.definition.columnFor? entry.1).isSome) ↔
      ∀ entry ∈ record, (table.definition.columnFor? entry.1).isSome := by
    simp only [hperm.mem_iff]
  by_cases hknown : ∀ entry ∈ record, (table.definition.columnFor? entry.1).isSome
  · rw [TableDef.resolveRow_of_known hknown, TableDef.resolveRow_of_known (hsame.2 hknown)]
    simp only [TableDef.cell, hvalues]
    exact .refl .refl (fun _ => rfl) _
  · obtain ⟨key, hrecord⟩ := TableDef.resolveRow_of_unknown hknown
    obtain ⟨otherKey, hother⟩ := TableDef.resolveRow_of_unknown (mt hsame.1 hknown)
    rw [hrecord, hother]
    exact .error (.unknownField key otherKey)

/-- Records without repeated keys have the same rows in whatever order their entries stand. -/
lemma resolveRows_alike {others : List Record}
    (h : List.Forall₂ (fun record other => record.Perm other ∧ (record.map Prod.fst).Nodup)
      records others) :
    Cli.Alike (SameRefusal table.name) Eq (table.resolveRows records)
      (table.resolveRows others) := by
  have hrows : Cli.Alike (SameRefusal table.name) (List.Forall₂ Eq)
      (records.mapM table.definition.resolveRow) (others.mapM table.definition.resolveRow) :=
    .mapM h fun _ _ hentry => resolveRow_alike hentry.1 hentry.2
  apply hrows.bind
  intro rows others hsame
  rw [List.forall₂_eq_eq_eq] at hsame
  obtain rfl := hsame
  exact .refl .refl (fun _ => rfl) _

/-- **Insertions from records to parameters.** An insertion of no records is refused; otherwise it
is refused for its first record that is not complete, and for nothing else. Complete records have
one tuple of placeholders each, one placeholder for each column, and the parameter in a row and a
column is what the record of the row gives last for the field of the column. A replacement differs
in its keyword only. The order of entries does not matter where no key of a record is repeated, but
for which one of several unknown keys is named.

**Proof sketch.** A record is resolved to a row as long as the mapping (`resolveRow_eq_ok_iff`), so
the sizes of rows are right and the statement has one parameter for each cell
(`InsertStatement.build_of_rows`). Cells of rows of one length are found by multiplication
(`getElem?_flatten_of_length`). -/
theorem insertBatch_contract (table : Table) (records : List Record) :
    (∀ e, table.insertBatch records = .error e ↔
      records = [] ∧ e = .emptyInsert table.name ∨
        ∃ front record back, records = front ++ record :: back ∧
          (∀ earlier ∈ front, table.definition.Completes earlier) ∧
          table.definition.Rejects record e) ∧
    (∀ error, table.insertBatch records ≠ .error (.compile error)) ∧
    (records ≠ [] → (∀ record ∈ records, table.definition.Completes record) →
      ∃ params : Array Value,
        table.insertBatch records =
          .ok ⟨"INSERT INTO" ++ table.insertionTail records.length, params⟩ ∧
        params.size = records.length * table.definition.mapping.length ∧
        ∀ r c record field column, records[r]? = some record →
          table.definition.mapping[c]? = some (field, column) →
          ∃ value, params[r * table.definition.mapping.length + c]? = some value ∧
            record.Gives field value) ∧
    (∃ outcome : Except TableError (Array Value),
      table.insertBatch records =
          outcome.map (⟨"INSERT INTO" ++ table.insertionTail records.length, ·⟩) ∧
        table.replaceBatch records =
          outcome.map (⟨"REPLACE INTO" ++ table.insertionTail records.length, ·⟩)) ∧
    ∀ others,
      List.Forall₂ (fun record other => record.Perm other ∧ (record.map Prod.fst).Nodup)
        records others →
      Cli.Alike (SameRefusal table.name) Eq (table.insertBatch records)
        (table.insertBatch others) := by
  have herror : ∀ e, table.insertBatch records = .error e ↔
      table.resolveRows records = .error e := by
    intro e
    rw [insertBatch_eq]
    cases table.resolveRows records with
    | error _ => exact ⟨fun h => congrArg _ (Except.error.inj h), fun h => h ▸ rfl⟩
    | ok _ => exact ⟨nofun, nofun⟩
  refine ⟨fun e => (herror e).trans resolveRows_eq_error_iff, ?_, ?_, ?_, ?_⟩
  · intro error h
    have hrefusal := table.resolveRows_yields records
    rw [(herror _).1 h] at hrefusal
    exact hrefusal.ne_compile error rfl
  · intro hnonempty hcomplete
    cases hrows : table.resolveRows records with
    | error e =>
      exfalso
      obtain ⟨hnil, -⟩ | ⟨front, record, back, hrecords, -, hrejects⟩ :=
        resolveRows_eq_error_iff.1 hrows
      · exact hnonempty hnil
      · have hmem : record ∈ records := hrecords ▸ List.mem_append_right _ List.mem_cons_self
        obtain ⟨row, hrow⟩ := TableDef.exists_resolveRow_iff.2 (hcomplete record hmem)
        cases hrow.symm.trans (TableDef.resolveRow_eq_error_iff.2 hrejects)
    | ok rows =>
      have hwidth := table.resolveRows_yields records
      rw [hrows] at hwidth
      obtain ⟨hresolved, -⟩ := resolveRows_eq_ok_iff.1 hrows
      refine ⟨rows.flatten.toArray, by rw [insertBatch_eq, hrows]; rfl, ?_, ?_⟩
      · rw [List.size_toArray, length_flatten_of_length hwidth, hresolved.length_eq]
      · intro r c record field column hrecord hfield
        obtain ⟨row, hrow, hresolve⟩ := exists_getElem?_of_forall₂ hresolved hrecord
        obtain ⟨-, hcells⟩ := TableDef.resolveRow_eq_ok_iff.1 hresolve
        obtain ⟨value, hvalue, hgives⟩ := exists_getElem?_of_forall₂ hcells hfield
        have hc : c < table.definition.mapping.length := (List.getElem?_eq_some_iff.1 hfield).1
        refine ⟨value, ?_, hgives⟩
        rw [List.getElem?_toArray, getElem?_flatten_of_length hwidth hrow hc, hvalue]
  · refine ⟨(table.resolveRows records).map fun rows => rows.flatten.toArray, ?_, ?_⟩
    · rw [insertBatch_eq]
      cases table.resolveRows records <;> rfl
    · rw [replaceBatch_eq]
      cases table.resolveRows records <;> rfl
  · intro others hothers
    rw [insertBatch_eq, insertBatch_eq, ← hothers.length_eq]
    refine (resolveRows_alike hothers).map ?_
    rintro rows _ rfl
    rfl

/-- Posts with their authors. -/
def articles : Table := .ofMapping "post" [("id", "id"), ("authorId", "author_id")]

/-- Two posts, the second of which has its author given twice. -/
def newPosts : List Record :=
  [[("authorId", .integer 3), ("id", .integer 1)],
    [("authorId", .integer 4), ("id", .integer 2), ("authorId", .null)]]

/-- Of a field that is given twice the last value is bound. -/
theorem insertBatch_contract_newPosts :
    newPosts ≠ [] ∧ (∀ record ∈ newPosts, articles.definition.Completes record) ∧
      ∃ params : Array Value,
        articles.insertBatch newPosts =
          .ok ⟨"INSERT INTO post (id, author_id)\nVALUES (?, ?), (?, ?)", params⟩ ∧
        params.size = 4 ∧ params[1 * 2 + 1]? = some .null := by
  have hnonempty : newPosts ≠ [] := nofun
  have hcomplete : ∀ record ∈ newPosts, articles.definition.Completes record := by
    intro record hrecord
    have hknown : ∀ record ∈ newPosts, ∀ entry ∈ record,
        (articles.definition.columnFor? entry.1).isSome := by decide
    have hgiven : ∀ record ∈ newPosts, ∀ entry ∈ articles.definition.mapping,
        entry.1 ∈ record.map Prod.fst := by decide
    exact ⟨hknown record hrecord, hgiven record hrecord⟩
  obtain ⟨-, -, hinsert, -, -⟩ := articles.insertBatch_contract newPosts
  obtain ⟨params, hstatement, hsize, hcells⟩ := hinsert hnonempty hcomplete
  obtain ⟨value, hvalue, hgives⟩ := hcells 1 1 _ _ _ rfl rfl
  obtain rfl : value = .null :=
    Option.some.inj ((TableDef.lastValue?_eq_some_iff.2 hgives).symm.trans rfl)
  exact ⟨hnonempty, hcomplete, params, hstatement, hsize, hvalue⟩

end Table

end BoundSql
