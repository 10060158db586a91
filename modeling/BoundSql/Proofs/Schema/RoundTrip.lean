import BoundSql.Proofs.Toml.Explanation
import BoundSql.Schema.Reader

/-!
# Written schemas are read back

A schema is written with a section for each column first, and that text is read for editing. The
columns of each table are then put back as lines, and comments are added. Neither changes what the
document says, so the schema is read from the text of the result.

## Main results

* `BoundSql.Schema.ofFields?_toFields` — a schema is recovered from its data.
* `BoundSql.Schema.inlineAllColumns_says` — a document with lines for columns says the same.
* `BoundSql.Schema.ofText_toDocument` — an accepted schema is read back.
-/

namespace BoundSql

open Toml

/-! ## Data -/

/-- Members are recovered one by one. -/
lemma mapM_map_eq_some {α β : Type} {f : α → β} {g : β → Option α} {l : List α}
    (h : ∀ a ∈ l, g (f a) = some a) : (l.map f).mapM g = some l := by
  induction l with
  | nil => rfl
  | cons a l ih =>
    rw [List.forall_mem_cons] at h
    rw [List.map_cons, List.mapM_cons, h.1, ih h.2]
    rfl

/-- A table is recovered from its data. -/
lemma TableEntry.ofData?_toData (entry : TableEntry) : ofData? entry.toData = some entry := by
  have hcolumns : (entry.columns.map ColumnEntry.toData).mapM ColumnEntry.ofData? =
      some entry.columns := mapM_map_eq_some fun _ _ => rfl
  change (do
    return (⟨entry.name, ← (entry.columns.map _).mapM ColumnEntry.ofData?⟩ : TableEntry)) = _
  rw [hcolumns]
  rfl

namespace Schema

/-- **A schema** is recovered from its data. -/
theorem ofFields?_toFields (schema : Schema) : ofFields? schema.toFields = some schema := by
  have htables : (schema.tables.map TableEntry.toData).mapM TableEntry.ofData? =
      some schema.tables := mapM_map_eq_some fun entry _ => entry.ofData?_toData
  change (do
    return (⟨← (schema.tables.map TableEntry.toData).mapM TableEntry.ofData?⟩ : Schema)) = _
  rw [htables]
  rfl

/-- What the columns of a table hold. -/
lemma exists_of_lookup_columns {schema : Schema} {index : ℕ} {data : Data}
    (h : (itemAt? "tables" index schema.toFields).bind (List.lookup "columns") = some data) :
    ∃ entry, schema.tables[index]? = some entry ∧
      data = .list (entry.columns.map ColumnEntry.toData) := by
  obtain ⟨entries, hitem, hcolumns⟩ := Option.bind_eq_some_iff.1 h
  have htable : (schema.tables.map TableEntry.toData)[index]? = some (.table entries) :=
    itemAt?_eq_some_iff.1 hitem
  rw [List.getElem?_map] at htable
  obtain ⟨entry, hentry, hdata⟩ := Option.map_eq_some_iff.1 htable
  obtain rfl := Data.table.inj hdata
  exact ⟨entry, hentry, (Option.some.inj hcolumns).symm⟩

/-- A change that leaves a member as it is leaves the list as it is. -/
lemma modify_eq_self_of_getElem? {α : Type} {change : α → α} {l : List α} {index : ℕ} {a : α}
    (h : l[index]? = some a) (hchange : change a = a) : l.modify index change = l := by
  refine List.ext_getElem? fun other => ?_
  by_cases hother : index = other
  · subst hother
    rw [List.getElem?_modify_eq, h, Option.map_eq_map, Option.map_some, hchange]
  · rw [List.getElem?_modify_ne _ _ hother]

/-- Columns that are put back in the table that they were taken from leave the data as they are. -/
lemma modifyItem_toFields {schema : Schema} {index : ℕ} {entry : TableEntry}
    (h : schema.tables[index]? = some entry) :
    modifyItem "tables" index (putLast "columns" (.list (entry.columns.map ColumnEntry.toData)))
      schema.toFields = schema.toFields := by
  have hentry : (schema.tables.map TableEntry.toData)[index]? = some entry.toData := by
    rw [List.getElem?_map, h]
    rfl
  change [("tables", Data.list ((schema.tables.map TableEntry.toData).modify index _))] = _
  rw [modify_eq_self_of_getElem? hentry rfl]
  rfl

/-! ## Columns on lines -/

section Library

variable [Library] [LawfulLibrary]

open LawfulLibrary

/-- A document of accepted schemas that says what a schema does. -/
def SaidBy (schema : Schema) (document : Library.Document) : Prop :=
  Relaid document ∧ fields document = schema.toFields

variable {schema : Schema} {document : Library.Document}

/-- The columns of one table as lines say what they said. -/
lemma SaidBy.inlineColumnsAt (h : schema.SaidBy document) (index : ℕ) :
    schema.SaidBy (inlineColumnsAt document index) := by
  unfold Schema.inlineColumnsAt
  split
  · next table htable =>
    unfold inlineColumns
    split
    · exact h
    · next item rest hremove =>
      -- What was taken out are the columns of a table of the schema.
      have hheld := held_of_remove? h.1 htable hremove
      rw [h.2] at hheld
      obtain ⟨entry, hentry, hcolumns⟩ := exists_of_lookup_columns hheld
      obtain ⟨elements, helements, hdata⟩ := exists_elements? hcolumns
      have hlines : (elements.map (Library.setElementBefore "\n  ")).map elementData =
          entry.columns.map ColumnEntry.toData := by
        rw [List.map_map, ← hdata]
        exact List.map_congr_left fun element _ => elementData_setElementBefore _ element
      simp only [helements]
      refine ⟨h.1.relined htable hremove helements (by decide) (by decide), ?_⟩
      rw [fields_insert h.1 htable hremove, hlines, h.2, modifyItem_toFields hentry]
  · exact h

/-- **Columns as lines** say what they said. -/
theorem inlineAllColumns_says (h : schema.SaidBy document) :
    schema.SaidBy (inlineAllColumns document) := by
  unfold inlineAllColumns
  generalize List.range _ = indices
  induction indices generalizing document with
  | nil => exact h
  | cons index indices ih => exact ih (h.inlineColumnsAt index)

/-! ## Reading back -/

/-- A sound document that says what an accepted schema does is read as the schema. -/
lemma ofText_print (h : schema.resolve = .ok ()) (hsound : Sound document)
    (hfields : fields document = schema.toFields) :
    ofText (Library.print document) = .ok schema := by
  obtain ⟨reread, hreread, hsaid⟩ := parse?_print hsound
  rw [ofText, read?_eq_of_parse? hreread, hsaid, hfields, Option.bind_eq_bind, Option.bind_some,
    ofFields?_toFields]
  simp only [h]
  rfl

/-- The document of an accepted schema is sound and says what the schema does. -/
lemma exists_toDocument (h : schema.resolve = .ok ()) :
    ∃ document, schema.toDocument = .ok document ∧ Sound document ∧
      fields document = schema.toFields := by
  have hmanuals := manuals_isPlain
  simp only [List.forall_mem_cons] at hmanuals
  obtain ⟨hschema, htable, -⟩ := hmanuals
  obtain ⟨written, hwritten, hfields⟩ := parse?_write h
  obtain ⟨hrelaid, hinlined⟩ := inlineAllColumns_says ⟨.written h hwritten, hfields⟩
  generalize hdocument : inlineAllColumns written = inlined at hrelaid hinlined
  have hitems := (Subject.commented htable (.items (tablesUnder "tables" inlined)) inlined).touched
    hrelaid.sound
  have hroot := (Subject.commented hschema (.table Library.root false) _).touched
    (hrelaid.sound.touched hitems)
  have htouched := hitems.trans hroot
  refine ⟨_, ?_, hrelaid.sound.touched htouched, htouched.fields_eq.trans hinlined⟩
  simp only [toDocument, hwritten, hdocument]
  rfl

/-- An accepted schema has a text, from which it is read back. -/
lemma exists_toText (h : schema.resolve = .ok ()) :
    ∃ text, schema.toText = .ok text ∧ ofText text = .ok schema := by
  obtain ⟨document, hdocument, hsound, hfields⟩ := exists_toDocument h
  refine ⟨Library.print document, ?_, ofText_print h hsound hfields⟩
  rw [toText, hdocument]
  rfl

/-- **An accepted schema is read back from what it is written as**, and from that with any other
blanks and comments.

**Proof sketch.** What is written for the data of the schema is read for editing as a document that
says them. Columns that are taken out of a table and put back in it say what they said, and comments
say nothing. So the document says what the schema does, and it is read again from its text. -/
theorem ofText_toDocument (h : schema.resolve = .ok ()) :
    ∃ document, schema.toDocument = .ok document ∧
      ofText (Library.print document) = .ok schema ∧
      ∀ other, Touched document other → ofText (Library.print other) = .ok schema := by
  obtain ⟨document, hdocument, hsound, hfields⟩ := exists_toDocument h
  refine ⟨document, hdocument, ofText_print h hsound hfields, fun other hother => ?_⟩
  exact ofText_print h (hsound.touched hother) (hother.fields_eq.trans hfields)

end Library

/-- The schema of a new schema file, written and edited line by line, is read back. -/
theorem ofText_toDocument_sample :
    sample.resolve = .ok () ∧ ∃ document, sample.toDocument = .ok document ∧
      ofText (Document.text document) = .ok sample := by
  have hresolve : sample.resolve = .ok () := by rfl
  obtain ⟨document, hdocument, htext, -⟩ := ofText_toDocument hresolve
  exact ⟨hresolve, document, hdocument, htext⟩

end Schema

end BoundSql
