import BoundSql.Proofs.Except
import BoundSql.Proofs.Lookup
import BoundSql.Proofs.Schema.Resolve
import Mathlib.Computability.Language
import Mathlib.Data.List.Infix

/-!
# The verdict on a schema

What a schema can have wrong, listed in the order of declaration, and how the check of a schema
relates to that list: it accepts the schema if the list is empty, and otherwise tells its first
member. An accepted schema can be looked up by the names that it declares.

The list is written without the check in mind. Every finding about a table or a column is in it,
whatever is found in front of it, and a name is repeated if it stands in the declaration before.

## Main definitions

* `BoundSql.identifiers` — the language of identifiers.
* `BoundSql.inTurn` — the members of a list looked at one by one, each with those in front of it.
* `BoundSql.Schema.defects` — all that is wrong with a schema.

## Main results

* `BoundSql.isIdentifier_iff` — the test for identifiers decides their language.
* `BoundSql.Schema.resolve_eq_firstOf` — the check tells the first defect.
* `BoundSql.Schema.resolve_verdict` — when a schema is accepted, its error otherwise, and what is
  found in it.
-/

namespace BoundSql

/-! ## The language of identifiers -/

/-- The characters that begin an identifier: `[A-Za-z_]`. -/
def initialChars : Set Char := {c | ('A' ≤ c ∧ c ≤ 'Z') ∨ ('a' ≤ c ∧ c ≤ 'z') ∨ c = '_'}

/-- The characters that continue an identifier: `[A-Za-z0-9_]`. -/
def laterChars : Set Char := initialChars ∪ {c | '0' ≤ c ∧ c ≤ '9'}

/-- The words of one character out of a class. -/
def oneOf (chars : Set Char) : Language Char := {word | ∃ c ∈ chars, word = [c]}

/-- The identifiers, `[A-Za-z_][A-Za-z0-9_]*`. -/
def identifiers : Language Char := oneOf initialChars * KStar.kstar (oneOf laterChars)

/-- A text is an identifier from its first character to its last. -/
def IsIdentifier (text : String) : Prop := text.toList ∈ identifiers

/-- An identifier begins with a letter or an underscore. -/
lemma mem_initialChars {c : Char} : c ∈ initialChars ↔ (c.isAlpha || c = '_') := by
  delta Char.isAlpha Char.isUpper Char.isLower
  simp only [initialChars, Set.mem_ofPred_eq, Char.le_def, UInt32.le_iff_toNat_le, Bool.or_eq_true,
    Bool.and_eq_true, decide_eq_true_eq, ge_iff_le, or_assoc]

/-- It goes on with letters, digits and underscores. -/
lemma mem_laterChars {c : Char} : c ∈ laterChars ↔ (c.isAlphanum || c = '_') := by
  have hdigit : c ∈ {c : Char | '0' ≤ c ∧ c ≤ '9'} ↔ c.isDigit := by
    simp only [Set.mem_ofPred_eq, Char.isDigit, Char.le_def, UInt32.le_iff_toNat_le,
      Bool.and_eq_true, decide_eq_true_eq, ge_iff_le]
  rw [laterChars, Set.mem_union, mem_initialChars, hdigit]
  simp only [Char.isAlphanum, Bool.or_eq_true]
  tauto

/-- Words over a class of characters are put together out of words of one character. -/
lemma mem_kstar_oneOf {chars : Set Char} {word : List Char} :
    word ∈ KStar.kstar (oneOf chars) ↔ ∀ c ∈ word, c ∈ chars := by
  rw [Language.mem_kstar]
  constructor
  · rintro ⟨parts, rfl, hparts⟩ c hc
    obtain ⟨part, hpart, hmem⟩ := List.mem_flatten.1 hc
    obtain ⟨d, hd, rfl⟩ := hparts part hpart
    obtain rfl : c = d := List.mem_singleton.1 hmem
    exact hd
  · intro hword
    refine ⟨word.map fun c => [c], ?_, ?_⟩
    · rw [← List.flatMap_def, List.flatMap_singleton']
    · intro part hpart
      obtain ⟨c, hc, rfl⟩ := List.mem_map.1 hpart
      exact ⟨c, hword c hc, rfl⟩

/-- **The test for identifiers** decides their language. -/
theorem isIdentifier_iff {text : String} : isIdentifier text ↔ IsIdentifier text := by
  rw [IsIdentifier, identifiers, Language.mem_mul, isIdentifier]
  cases text.toList with
  | nil =>
    constructor
    · intro h
      exact absurd h Bool.false_ne_true
    · rintro ⟨first, ⟨c, -, rfl⟩, rest, -, h⟩
      cases h
  | cons c rest =>
    simp only [Bool.and_eq_true, ← mem_initialChars, List.all_eq_true, ← mem_laterChars]
    constructor
    · rintro ⟨hc, hrest⟩
      exact ⟨[c], ⟨c, hc, rfl⟩, rest, mem_kstar_oneOf.2 hrest, rfl⟩
    · rintro ⟨first, ⟨d, hd, rfl⟩, rest', hrest', h⟩
      obtain ⟨rfl, rfl⟩ := List.cons.inj h
      exact ⟨hd, mem_kstar_oneOf.1 hrest'⟩

instance : DecidablePred IsIdentifier := fun text =>
  decidable_of_iff (isIdentifier text) isIdentifier_iff

example : IsIdentifier "_a1" ∧ ¬ IsIdentifier "a\n" ∧ ¬ IsIdentifier "é" ∧ ¬ IsIdentifier "" := by
  decide

/-! ## Defects -/

/-- What `f` tells about the members of a list, one after the other, each with the members in front
of it. -/
def inTurn {α β : Type} (f : List α → α → List β) (l : List α) : List β :=
  (l.inits.zip l).flatMap fun member => f member.1 member.2

/-- The errors of those findings that apply. -/
def applying (findings : List (Bool × SchemaError)) : List SchemaError :=
  (findings.filter (·.1)).map (·.2)

/-- What is wrong with a column of a table, given the columns in front of it. -/
def ColumnEntry.defects (table : String) (front : List ColumnEntry) (entry : ColumnEntry) :
    List SchemaError :=
  applying
    [(entry.field = "", .emptyField table),
      (¬ IsIdentifier entry.field, .invalidIdentifier entry.field),
      (¬ IsIdentifier entry.column, .invalidIdentifier entry.column),
      (entry.field ∈ front.map (·.field), .duplicateField table entry.field)]

/-- What is wrong with a table, given the tables in front of it. -/
def TableEntry.defects (front : List TableEntry) (entry : TableEntry) : List SchemaError :=
  applying
      [(¬ IsIdentifier entry.name, .invalidIdentifier entry.name),
        (entry.columns = [], .emptyTable entry.name)] ++
    inTurn (ColumnEntry.defects entry.name) entry.columns ++
    applying [(entry.name ∈ front.map (·.name), .duplicateTable entry.name)]

/-- What is wrong with a schema, in the order of declaration. -/
def Schema.defects (schema : Schema) : List SchemaError := inTurn TableEntry.defects schema.tables

/-- The answer of a check that stops at the first of these defects. -/
def firstOf : List SchemaError → Except SchemaError Unit
  | [] => .ok ()
  | defect :: _ => .error defect

/-! ## Checks and defects -/

/-- The first defect is reported. -/
lemma firstOf_eq_error_iff {defects : List SchemaError} {e : SchemaError} :
    firstOf defects = .error e ↔ defects.head? = some e := by
  cases defects with
  | nil => simp [firstOf]
  | cons defect rest => simp [firstOf]

/-- A check behind another one stops at the first defect of both. -/
lemma firstOf_append (front back : List SchemaError) :
    firstOf (front ++ back) = (do firstOf front; firstOf back) := by
  cases front with
  | nil => rfl
  | cons defect rest => rfl

/-- A refusal in front of a check. -/
lemma refusal_eq_firstOf {p : Prop} [Decidable p] {e : SchemaError}
    {f : Unit → Except SchemaError Unit} {rest : Except SchemaError Unit} :
    (if p then (throw e : Except SchemaError Unit) >>= f else rest) =
      (do firstOf (applying [(p, e)]); rest) := by
  by_cases hp : p
  · simp [hp, applying, firstOf, throw, throwThe, MonadExceptOf.throw, bind, Except.bind]
  · simp [hp, applying, firstOf, bind, Except.bind]

/-- Findings are looked at one by one. -/
lemma applying_cons (finding : Bool × SchemaError) (rest : List (Bool × SchemaError)) :
    applying (finding :: rest) = applying [finding] ++ applying rest := by
  cases h : finding.1 <;> simp [applying, h]

/-- The first member stands in front of all others. -/
lemma inTurn_cons {α β : Type} (f : List α → α → List β) (x : α) (rest : List α) :
    inTurn f (x :: rest) = f [] x ++ inTurn (fun before => f (x :: before)) rest := by
  rw [inTurn, List.inits_cons, List.zip_cons_cons, List.flatMap_cons, List.zip_map_left,
    List.flatMap_map]
  rfl

/-- The check of a text has one defect to report. -/
lemma checkIdentifier_eq_firstOf (text : String) :
    checkIdentifier text = firstOf (applying [(¬ IsIdentifier text, .invalidIdentifier text)]) := by
  by_cases h : isIdentifier text
  · simp [checkIdentifier, h, ← isIdentifier_iff, applying, firstOf]
  · simp [checkIdentifier, h, ← isIdentifier_iff, applying, firstOf]

/-- The columns of a table are checked up to the first defect, if the keys that have been seen are
those of the columns in front. -/
lemma checkColumns_eq_firstOf (table : String) {seen : List String} {front : List ColumnEntry}
    (hseen : ∀ key, key ∈ seen ↔ key ∈ front.map (·.field)) (columns : List ColumnEntry) :
    checkColumns table seen columns =
      firstOf (inTurn (fun before => ColumnEntry.defects table (front ++ before)) columns) := by
  induction columns generalizing seen front with
  | nil => rfl
  | cons column rest ih =>
    have hnext : ∀ key, key ∈ column.field :: seen ↔ key ∈ (front ++ [column]).map (·.field) := by
      intro key
      simp [hseen, or_comm]
    have hempty : column.field.isEmpty ↔ column.field = "" := by simp
    rw [inTurn_cons, checkColumns, ih hnext]
    simp only [ColumnEntry.check, refusal_eq_firstOf, checkIdentifier_eq_firstOf, hseen, hempty,
      ColumnEntry.defects, List.append_nil, applying_cons (_, _) (_ :: _), firstOf_append,
      List.append_assoc, List.singleton_append, bind_assoc]

/-- A table is checked up to its first defect; whether its name is new is asked behind that. -/
lemma TableEntry.check_eq_firstOf (entry : TableEntry) :
    entry.check =
      firstOf (applying
          [(¬ IsIdentifier entry.name, .invalidIdentifier entry.name),
            (entry.columns = [], .emptyTable entry.name)] ++
        inTurn (ColumnEntry.defects entry.name) entry.columns) := by
  have hnone : ∀ key, key ∈ ([] : List String) ↔
      key ∈ ([] : List ColumnEntry).map (·.field) := by simp
  have hempty : entry.columns.isEmpty ↔ entry.columns = [] := by simp
  simp only [check, refusal_eq_firstOf, checkIdentifier_eq_firstOf, hempty,
    checkColumns_eq_firstOf entry.name hnone, List.nil_append, applying_cons (_, _) (_ :: _),
    firstOf_append, bind_assoc]

/-- Tables are checked up to the first defect, if the names that have been seen are those of the
tables in front. -/
lemma checkTables_eq_firstOf {seen : List String} {front : List TableEntry}
    (hseen : ∀ name, name ∈ seen ↔ name ∈ front.map (·.name)) (tables : List TableEntry) :
    checkTables seen tables =
      firstOf (inTurn (fun before => TableEntry.defects (front ++ before)) tables) := by
  induction tables generalizing seen front with
  | nil => rfl
  | cons entry rest ih =>
    have hnext : ∀ name, name ∈ entry.name :: seen ↔ name ∈ (front ++ [entry]).map (·.name) := by
      intro name
      simp [hseen, or_comm]
    rw [inTurn_cons, checkTables, ih hnext]
    simp only [TableEntry.check_eq_firstOf, refusal_eq_firstOf, hseen, TableEntry.defects,
      List.append_nil, firstOf_append, List.append_assoc, List.singleton_append, bind_assoc]

/-! ## Look-ups -/

/-- The columns of a well-formed table are found by their field keys, and nothing else is. -/
lemma TableEntry.WellFormed.columnFor?_eq_some_iff {entry : TableEntry} (h : entry.WellFormed)
    {field column : String} :
    entry.toTableDef.columnFor? field = some column ↔ ⟨field, column⟩ ∈ entry.columns := by
  have hkeys : (entry.toTableDef.mapping.map (·.1)).Nodup := by
    simpa [toTableDef, Function.comp_def] using h.nodup
  rw [TableDef.columnFor?, lookup_eq_some_iff_mem hkeys]
  constructor
  · intro hmem
    obtain ⟨declared, hdeclared, heq⟩ := List.mem_map.1 hmem
    obtain ⟨rfl, rfl⟩ := Prod.mk.inj heq
    exact hdeclared
  · intro hmem
    exact List.mem_map.2 ⟨_, hmem, rfl⟩

namespace Schema

/-- The tables of a well-formed schema are found by their names. -/
lemma WellFormed.table_eq_ok {schema : Schema} (h : schema.WellFormed) {entry : TableEntry}
    (hentry : entry ∈ schema.tables) : schema.table entry.name = .ok entry := by
  obtain ⟨front, back, htables⟩ := List.append_of_mem hentry
  have hnodup := h.nodup
  have hother : ∀ other ∈ front, other.name ≠ entry.name := by
    rw [htables, List.map_append, List.nodup_append] at hnodup
    intro other hmem
    exact hnodup.2.2 _ (List.mem_map_of_mem hmem) _ (by simp)
  have hfind : schema.tables.find? (·.name = entry.name) = some entry := by
    rw [List.find?_eq_some_iff_append]
    refine ⟨by simp, front, back, htables, ?_⟩
    intro other hmem
    simp [hother other hmem]
  rw [table, hfind]

/-- **The check of a schema** tells its first defect. -/
theorem resolve_eq_firstOf (schema : Schema) : schema.resolve = firstOf schema.defects := by
  have hnone : ∀ name, name ∈ ([] : List String) ↔
      name ∈ ([] : List TableEntry).map (·.name) := by simp
  exact checkTables_eq_firstOf hnone schema.tables

/-- **The verdict on a schema.** A schema is accepted exactly when all its names are identifiers,
every table has columns, and neither the field keys of a table nor the names of the tables repeat.
If it is not accepted, the error is the first of its defects in the order of declaration. In an
accepted schema, every declared table is found by its name, and a field key of it stands for the
column that is declared with it and for no other.

**Proof sketch.** The recursive checks carry the names that they have seen, which are those of the
columns or tables in front (`checkColumns_eq_firstOf`, `checkTables_eq_firstOf`). The look-ups take
the first entry of a name, and an accepted schema has no second one. -/
theorem resolve_verdict (schema : Schema) :
    (schema.resolve = .ok () ↔
        (∀ entry ∈ schema.tables, IsIdentifier entry.name ∧ entry.columns ≠ [] ∧
          (∀ c ∈ entry.columns, IsIdentifier c.field ∧ IsIdentifier c.column) ∧
          (entry.columns.map (·.field)).Nodup) ∧
        (schema.tables.map (·.name)).Nodup) ∧
      (∀ e, schema.resolve = .error e ↔ schema.defects.head? = some e) ∧
      (schema.resolve = .ok () → ∀ entry ∈ schema.tables,
        schema.table entry.name = .ok entry ∧
          ∀ field column, entry.toTableDef.columnFor? field = some column ↔
            ⟨field, column⟩ ∈ entry.columns) := by
  refine ⟨?_, ?_, ?_⟩
  · simp only [resolve_eq_ok_iff, ← isIdentifier_iff]
    constructor
    · rintro ⟨htables, hnodup⟩
      refine ⟨?_, hnodup⟩
      intro entry hentry
      obtain ⟨hname, hnonempty, hcolumns, hfields⟩ := htables entry hentry
      exact ⟨hname, hnonempty, hcolumns, hfields⟩
    · rintro ⟨htables, hnodup⟩
      refine ⟨?_, hnodup⟩
      intro entry hentry
      obtain ⟨hname, hnonempty, hcolumns, hfields⟩ := htables entry hentry
      exact ⟨hname, hnonempty, hcolumns, hfields⟩
  · intro e
    rw [resolve_eq_firstOf, firstOf_eq_error_iff]
  · intro hresolve entry hentry
    have hschema : schema.WellFormed := resolve_eq_ok_iff.1 hresolve
    refine ⟨hschema.table_eq_ok hentry, ?_⟩
    intro field column
    exact (hschema.tables entry hentry).columnFor?_eq_some_iff

/-- Of the many defects of this schema, the repeated key stands first; the tables with one name come
behind it. The sample schema has none. -/
theorem resolve_verdict_samples :
    (⟨[⟨"a", [⟨"x", "x"⟩, ⟨"x", "y"⟩, ⟨"", "1"⟩]⟩, ⟨"a", []⟩]⟩ : Schema).resolve =
        .error (.duplicateField "a" "x") ∧
      sample.table "authors" = .ok ⟨"authors", [⟨"id", "id"⟩, ⟨"name", "name"⟩]⟩ := by
  refine ⟨?_, ?_⟩
  · exact ((resolve_verdict _).2.1 _).2 (by decide +kernel)
  · have hsample : sample.resolve = .ok () := by decide +kernel
    have hdeclared : ⟨"authors", [⟨"id", "id"⟩, ⟨"name", "name"⟩]⟩ ∈ sample.tables := by decide
    exact ((resolve_verdict sample).2.2 hsample _ hdeclared).1

end Schema

end BoundSql
