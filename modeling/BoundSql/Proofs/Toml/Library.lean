import BoundSql.Proofs.Toml.Trivia
import BoundSql.Schema.Writer

/-!
# Lawful libraries for TOML

What can be relied on of a library that reads, writes and edits TOML, as far as schema files need
it.

A document that was not edited prints as the text that it was read from, and what is changed at one
of its places is printed there as it is. Blanks and comments may stand at every place: the document
is read again from its text, and says the same. The data of a schema are written as a text that says
them; the columns of its tables can be taken out and put back as an array.

## Main definitions

* `BoundSql.Toml.Touched` — documents that differ in blanks and comments.
* `BoundSql.Toml.Relaid` — documents of schemas, some columns of which were put back as arrays.
* `BoundSql.Toml.Sound` — documents that print texts that are read again.
* `BoundSql.Toml.LawfulLibrary` — the laws of a library.
-/

namespace BoundSql.Toml

/-! ## Texts between keys -/

/-- Blanks, line ends and comments, the last of which ends with its line. -/
def IsTrivia (text : String) : Prop := Trivia false text.toList false

/-- Blanks and line feeds. -/
def IsBlank (text : String) : Prop := ∀ c ∈ text.toList, c = ' ' ∨ c = '\t' ∨ c = '\n'

instance (text : String) : Decidable (IsBlank text) := List.decidableBAll _ text.toList

/-- A text is printed again: without the byte order mark that may stand in front, with `shown` line
ends, and with an end of its last line if there was none. -/
def Reprints (shown : String → String) (text printed : String) : Prop :=
  ∃ final, (final = "" ∨ final = "\n") ∧
    printed = shown (String.ofList (skipMark text.toList)) ++ final

/-! ## Data under keys -/

/-- The keys of the item at a place of the array of tables under a key. -/
def itemAt? (key : String) (index : ℕ) (fields : Fields) : Option Fields :=
  match fields.lookup key with
  | some (.list items) =>
    match items[index]? with
    | some (.table entries) => some entries
    | _ => none
  | _ => none

/-- The item at a place of the only array. -/
lemma itemAt?_eq_some_iff {key : String} {index : ℕ} {items : List Data} {entries : Fields} :
    itemAt? key index [(key, .list items)] = some entries ↔
      items[index]? = some (.table entries) := by
  rw [itemAt?, List.lookup_cons_self]
  dsimp only
  split
  next item heq => simp [heq]
  next hother =>
    simp only [reduceCtorEq, false_iff]
    exact hother entries

/-- Changes the keys of the item at a place of an array of tables. -/
def Data.modifyItem (index : ℕ) (change : Fields → Fields) : Data → Data
  | .list items =>
    .list <| items.modify index fun
      | .table entries => .table (change entries)
      | other => other
  | other => other

/-- Changes the keys of the item at a place of the array of tables under a key. -/
def modifyItem (key : String) (index : ℕ) (change : Fields → Fields) (fields : Fields) : Fields :=
  fields.map fun field =>
    if field.1 = key then (field.1, field.2.modifyItem index change) else field

/-- Puts a key with some data at the end, in place of what it held. -/
def putLast (key : String) (data : Data) (fields : Fields) : Fields :=
  fields.filter (fun field => field.1 ≠ key) ++ [(key, data)]

/-! ## Documents -/

section Documents

variable [Library]

/-- Documents that differ from a document in the blanks and comments at their places. -/
inductive Touched (document : Library.Document) : Library.Document → Prop
  /-- The document itself. -/
  | refl : Touched document document
  /-- Other blanks and comments at a place. -/
  | setBefore {other : Library.Document} (h : Touched document other) (place : Library.Place)
      {text : String} (htext : IsTrivia text) :
      Touched document (Library.setBefore place text other)

/-- The document of an accepted schema, and what becomes of it when the columns of one of its tables
are taken out and put back as an array, with blanks in front of the elements and of the closing
bracket. -/
inductive Relaid : Library.Document → Prop
  /-- The document of a schema. -/
  | written {schema : Schema} (h : schema.resolve = .ok ()) {document : Library.Document}
      (hread : Library.parse? (Library.write schema.toFields) = some document) : Relaid document
  /-- The columns of a table are put back. -/
  | relined {document rest : Library.Document} (h : Relaid document) {index : ℕ}
      {table : Library.Table} (htable : (tablesUnder "tables" document)[index]? = some table)
      {item : Library.Item} (hremove : Library.remove? table "columns" document = some (item, rest))
      {elements : List Library.Element} (helements : Library.elements? item = some elements)
      {before trailing : String} (hbefore : IsBlank before) (htrailing : IsBlank trailing) :
      Relaid (Library.insert table "columns"
        (Library.ofElements (elements.map (Library.setElementBefore before)) trailing) rest)

/-- Documents that were read, and documents of schemas, with any blanks and comments. -/
def Sound (document : Library.Document) : Prop :=
  ∃ base, ((∃ text, Library.parse? text = some base) ∨ Relaid base) ∧ Touched base document

/-- Texts that are set one after the other are set. -/
lemma Touched.trans {a b c : Library.Document} (hab : Touched a b) (hbc : Touched b c) :
    Touched a c := by
  induction hbc with
  | refl => exact hab
  | setBefore _ place htext ih => exact ih.setBefore place htext

/-- A document stays sound when its blanks and comments change. -/
lemma Sound.touched {document other : Library.Document} (h : Sound document)
    (hother : Touched document other) : Sound other := by
  obtain ⟨base, hbase, htouched⟩ := h
  exact ⟨base, hbase, htouched.trans hother⟩

/-- A document of a written schema is sound. -/
lemma Relaid.sound {document : Library.Document} (h : Relaid document) : Sound document :=
  ⟨document, .inr h, .refl⟩

end Documents

/-! ## The laws -/

/-- The laws of a library for TOML. -/
class LawfulLibrary [Library] where
  /-- What a document says. -/
  fields : Library.Document → Fields
  /-- The places in front of keys and headers in the order of the text, each with what is printed
  from the key or header up to the next place. -/
  pieces : Library.Document → List (Library.Place × String)
  /-- What is printed behind all of them. -/
  ending : Library.Document → String
  /-- What is printed for a text at a place: its line ends may become line feeds. -/
  shown : String → String
  /-- What something says that a key can hold. -/
  held : Library.Item → Data
  /-- What an element says. -/
  elementData : Library.Element → Data
  /-- A document prints what is kept on top, what is kept at its places and what stands behind
  them. -/
  print_eq (document : Library.Document) : Library.print document =
    shown (Library.before document (Library.decor Library.root)) ++
      String.join ((pieces document).map fun piece =>
        shown (Library.before document piece.1) ++ piece.2) ++ ending document
  /-- A text at a place is printed part by part. -/
  shown_append (a b : String) : shown (a ++ b) = shown a ++ shown b
  /-- A text without carriage returns is printed as it is. -/
  shown_eq_self {text : String} (h : '\r' ∉ text.toList) : shown text = text
  /-- A document that was read prints the text that it was read from. -/
  print_of_parse? {text : String} {document : Library.Document}
    (h : Library.parse? text = some document) : Reprints shown text (Library.print document)
  /-- What is kept at a printed place is what was put there. -/
  before_setBefore_self {document : Library.Document} {place : Library.Place}
    (h : place ∈ Library.decor Library.root :: (pieces document).map Prod.fst) (text : String) :
    Library.before (Library.setBefore place text document) place = text
  /-- The other places stay the same. -/
  before_setBefore_of_ne {place other : Library.Place} (h : other ≠ place) (text : String)
    (document : Library.Document) :
    Library.before (Library.setBefore place text document) other = Library.before document other
  /-- What stands behind the places stays the same. -/
  pieces_setBefore (place : Library.Place) (text : String) (document : Library.Document) :
    pieces (Library.setBefore place text document) = pieces document
  /-- So does what stands behind all of them. -/
  ending_setBefore (place : Library.Place) (text : String) (document : Library.Document) :
    ending (Library.setBefore place text document) = ending document
  /-- What is kept at places says nothing. -/
  fields_setBefore (place : Library.Place) (text : String) (document : Library.Document) :
    fields (Library.setBefore place text document) = fields document
  /-- Blanks and comments are kept at the places of a sound document. -/
  before_isTrivia {document : Library.Document} (h : Sound document) (place : Library.Place) :
    IsTrivia (Library.before document place)
  /-- Behind its places no blank and no comment begins. -/
  pieces_isSolid {document : Library.Document} (h : Sound document) :
    ∀ piece ∈ pieces document, ∃ c rest, piece.2.toList = c :: rest ∧ isSolid c = true
  /-- A sound document is read again from its text, and says the same. -/
  parse?_print {document : Library.Document} (h : Sound document) :
    ∃ reread, Library.parse? (Library.print document) = some reread ∧
      fields reread = fields document
  /-- A text says what the document says that is read from it. -/
  read?_eq_of_parse? {text : String} {document : Library.Document}
    (h : Library.parse? text = some document) : Library.read? text = some (fields document)
  /-- The data of an accepted schema are written as the text of a document that says them. -/
  parse?_write {schema : Schema} (h : schema.resolve = .ok ()) :
    ∃ document, Library.parse? (Library.write schema.toFields) = some document ∧
      fields document = schema.toFields
  /-- What is taken out from under a key is what the key holds. -/
  held_of_remove? {document rest : Library.Document} (h : Relaid document) {index : ℕ}
    {table : Library.Table} (htable : (tablesUnder "tables" document)[index]? = some table)
    {item : Library.Item} (hremove : Library.remove? table "columns" document = some (item, rest)) :
    (itemAt? "tables" index (fields document)).bind (List.lookup "columns") = some (held item)
  /-- An array that is put in its place is the last key. -/
  fields_insert {document rest : Library.Document} (h : Relaid document) {index : ℕ}
    {table : Library.Table} (htable : (tablesUnder "tables" document)[index]? = some table)
    {item : Library.Item} (hremove : Library.remove? table "columns" document = some (item, rest))
    (elements : List Library.Element) (trailing : String) :
    fields (Library.insert table "columns" (Library.ofElements elements trailing) rest) =
      modifyItem "tables" index (putLast "columns" (.list (elements.map elementData)))
        (fields document)
  /-- The elements of a list are its items. -/
  exists_elements? {item : Library.Item} {items : List Data} (h : held item = .list items) :
    ∃ elements, Library.elements? item = some elements ∧ elements.map elementData = items
  /-- What is kept in front of an element says nothing. -/
  elementData_setElementBefore (text : String) (element : Library.Element) :
    elementData (Library.setElementBefore text element) = elementData element

end BoundSql.Toml
