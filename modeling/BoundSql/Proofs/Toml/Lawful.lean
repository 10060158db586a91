import BoundSql.Proofs.Schema.Relining

/-!
# Editing line by line is lawful

Reading, writing and editing line by line keep the laws of a library for TOML: a document that was
read is legible, and a legible document is read again from its text, whatever blanks and comments
stand at its places; and the documents of schemas are those of their tables in some layout.

## Main results

* `BoundSql.Toml.exists_plan_of_relaid` — documents of schemas are laid out.
* `BoundSql.Toml.legible_of_sound` — sound documents are legible, and their keys are defined once.
-/

namespace BoundSql.Toml

/-! ## Data -/

/-- What a document says. -/
def Document.fields (document : Document) : Fields := entriesData (document.entries?.getD [])

/-- What something says that a key holds. -/
def Holding.data : Holding → Data
  | .line pair => pair.value.data
  | .array elements _ => .list (elements.map (·.value.data))
  | .sections parts => if opensItems parts then .list (parts.map (·.toInline.data)) else .table []

/-- The data of a document are those of its entries. -/
lemma Document.fields_eq {document : Document} {entries : Entries}
    (h : document.entries? = some entries) : document.fields = entriesData entries := by
  rw [fields, h]
  rfl

/-- What a laid out document says. -/
lemma fields_layout {plan : List Laid} (h : ∀ laid ∈ plan, laid.IsLegible) :
    (layout plan).fields = [("tables", .list (plan.map fun laid => laid.entry.toData))] := by
  obtain ⟨entries, hentries, -, hdata⟩ := exists_entries?_layout h
  rw [Document.fields_eq hentries, hdata]

/-- What has elements is a list of them. -/
lemma Holding.data_of_elements? {item : Holding} {elements : List Element}
    (h : item.elements? = some elements) : item.data = .list (elements.map (·.value.data)) := by
  cases item with
  | line pair =>
    obtain ⟨before, path, key, value, written⟩ := pair
    cases value with
    | list ofTables nodes =>
      obtain rfl := Option.some.inj h
      simp only [Holding.data, Node.data, itemsData_eq_map, List.map_map]
      rfl
    | _ => cases h
  | array elements trailing =>
    obtain rfl := Option.some.inj h
    rfl
  | sections parts =>
    rw [Holding.elements?] at h
    split at h
    · next hitems =>
      obtain rfl := Option.some.inj h
      rw [Holding.data, if_pos hitems, List.map_map]
      rfl
    · cases h

/-- A list has elements. -/
lemma Holding.exists_elements? {item : Holding} {items : List Data} (h : item.data = .list items) :
    ∃ elements, item.elements? = some elements ∧ elements.map (·.value.data) = items := by
  obtain ⟨elements, helements⟩ : ∃ elements, item.elements? = some elements := by
    cases item with
    | line pair =>
      obtain ⟨before, path, key, value, written⟩ := pair
      cases value with
      | list => exact ⟨_, rfl⟩
      | _ => cases h
    | array elements trailing => exact ⟨_, rfl⟩
    | sections parts =>
      rw [Holding.data] at h
      split at h
      · next hitems => exact ⟨_, if_pos hitems⟩
      · cases h
  rw [data_of_elements? helements] at h
  exact ⟨elements, helements, Data.list.inj h⟩

/-- What the columns of a table say. -/
lemma data_item {laid : Laid} (h : laid.entry.columns ≠ []) :
    laid.item.data = .list (laid.entry.columns.map ColumnEntry.toData) := by
  rw [Holding.data_of_elements? (elements?_item h), List.map_map]
  rfl

/-! ## Documents of schemas -/

/-- **Documents of schemas** are laid out. -/
theorem exists_plan_of_relaid {document : Document} (h : Relaid document) :
    ∃ plan, (∀ laid ∈ plan, laid.IsLegible) ∧ document = layout plan := by
  induction h with
  | @written schema hschema document hread =>
    have hwellFormed := (Schema.resolve_eq_ok_iff.1 hschema).tables
    refine ⟨layoutOf schema.tables, layoutOf_isLegible hwellFormed, ?_⟩
    have htext := ofText?_layoutOf hwellFormed
    rw [← documentOf_toFields fun entry hentry => (hwellFormed entry hentry).nonempty] at htext ⊢
    exact Option.some.inj (hread.symm.trans htext)
  | @relined document rest _ index table htable item hremove elements helements before trailing
      hbefore htrailing ih =>
    obtain ⟨plan, hplan, rfl⟩ := ih
    obtain ⟨front, laid, back, rfl, -, rfl, rfl, rfl⟩ := exists_of_remove? hplan htable hremove
    -- The layout of one table changes: its columns are in an array now.
    rw [List.forall_mem_append, List.forall_mem_cons] at hplan
    obtain ⟨hfront, hlaid, hback⟩ := hplan
    obtain rfl := Option.some.inj (helements.symm.trans (elements?_item hlaid.nonempty))
    refine ⟨front ++ { laid with blanks? := some (before, trailing) } :: back, ?_, ?_⟩
    · rw [List.forall_mem_append, List.forall_mem_cons]
      refine ⟨hfront, ⟨hlaid.entry, hlaid.nonempty, hlaid.before, ?_⟩, hback⟩
      rintro _ _ ⟨⟩
      exact ⟨hbefore, htrailing⟩
    · refine (insert_withPairs _ trailing).trans
        (Eq.trans ?_ (withPairs_columnsPair before trailing))
      rw [List.map_map]
      rfl

/-! ## Sound documents -/

/-- **Sound documents** are legible, and their keys are defined once and their numbers in range. -/
theorem legible_of_sound {document : Document} (h : Sound document) :
    document.Legible ∧ ∃ entries, document.entries? = some entries ∧
      entriesIn Int64.minValue.toInt Int64.maxValue.toInt entries = true := by
  obtain ⟨base, hbase, htouched⟩ := h
  induction htouched with
  | refl =>
    rcases hbase with ⟨text, hread⟩ | hrelaid
    · obtain ⟨hparse, hentries⟩ := Document.ofText?_eq_some_iff.1 hread
      exact ⟨(Document.parse?_reflects hparse).1.legible, hentries⟩
    · obtain ⟨plan, hplan, rfl⟩ := exists_plan_of_relaid hrelaid
      obtain ⟨entries, hentries, hrange, -⟩ := exists_entries?_layout hplan
      exact ⟨layout_legible hplan, entries, hentries, hrange _ _⟩
  | @setBefore other _ place text htext ih =>
    obtain ⟨hlegible, entries, hentries, hrange⟩ := ih
    have hcontent := Document.content_setBefore place text other
    exact ⟨hlegible.setBefore place htext, entries,
      (entries?_eq_of_content_eq hcontent).trans hentries, hrange⟩

/-- What stands at a place says nothing. -/
lemma Document.fields_setBefore (place : Spot) (text : String) (document : Document) :
    (document.setBefore place text).fields = document.fields := by
  rw [fields, entries?_eq_of_content_eq (content_setBefore place text document), fields]

/-! ### Numbers -/

mutual

/-- Numbers in a range are in a wider one. -/
lemma Node.integersIn_mono {low high low' high' : Int} (hlow : low' ≤ low) (hhigh : high ≤ high') :
    ∀ node : Node, node.integersIn low high = true → node.integersIn low' high' = true
  | .integer n, h => by
    simp only [Node.integersIn, Bool.and_eq_true, decide_eq_true_eq] at h ⊢
    omega
  | .list _ items, h => itemsIn_mono hlow hhigh items h
  | .table _ entries, h => entriesIn_mono hlow hhigh entries h
  | .text _, _ => rfl
  | .real _, _ => rfl
  | .boolean _, _ => rfl
  | .moment _, _ => rfl

/-- Items whose integers lie in a range lie in a larger one. -/
lemma itemsIn_mono {low high low' high' : Int} (hlow : low' ≤ low) (hhigh : high ≤ high') :
    ∀ items : List Node, itemsIn low high items = true → itemsIn low' high' items = true
  | [], _ => rfl
  | item :: rest, h => by
    rw [itemsIn, Bool.and_eq_true] at h ⊢
    exact ⟨item.integersIn_mono hlow hhigh h.1, itemsIn_mono hlow hhigh rest h.2⟩

/-- Entries whose integers lie in a range lie in a larger one. -/
lemma entriesIn_mono {low high low' high' : Int} (hlow : low' ≤ low) (hhigh : high ≤ high') :
    ∀ entries : List (String × Node), entriesIn low high entries = true →
      entriesIn low' high' entries = true
  | [], _ => rfl
  | (_, node) :: rest, h => by
    rw [entriesIn, Bool.and_eq_true] at h ⊢
    exact ⟨node.integersIn_mono hlow hhigh h.1, entriesIn_mono hlow hhigh rest h.2⟩

end

/-- A text that is read for editing says what its document says. -/
lemma ofText?_eq_of_ofText? {text : String} {document : Document}
    (h : Document.ofText? text = some document) :
    (Entries.ofText? text).map entriesData = some document.fields := by
  obtain ⟨hparse, entries, hentries, hrange⟩ := Document.ofText?_eq_some_iff.1 h
  have hwide : entriesIn (-Nat.pow 2 127) (Nat.pow 2 128 - 1) entries = true :=
    entriesIn_mono (by decide) (by decide) entries hrange
  have hread : Entries.ofText? text = some entries := by
    simp only [Entries.ofText?, hparse, hentries, Option.bind_eq_bind, Option.bind_some,
      if_pos hwide]
    rfl
  rw [hread, Document.fields_eq hentries]
  rfl

/-- A document that was read prints what it was read from. -/
lemma reprints_of_ofText? {text : String} {document : Document}
    (h : Document.ofText? text = some document) : Reprints dropReturns text document.text := by
  have hprints := (Document.parse?_reflects (Document.ofText?_eq_some_iff.1 h).1).1.prints
  have hshown : dropReturns (String.ofList (skipMark text.toList)) =
      String.ofList (clean (skipMark text.toList)) := by
    rw [← ofList_clean_toList, String.toList_ofList]
  rw [Reprints, hshown, ← String.ofList_toList (s := document.text)]
  rcases hprints with heq | heq
  · exact ⟨"", .inl rfl, by rw [heq, String.append_empty]⟩
  · exact ⟨"\n", .inr rfl, by rw [heq, String.ofList_append]⟩

/-! ## Columns of a table -/

/-- What a document of tables says, the keys of one of them apart. -/
lemma fields_layout_append {front back : List Laid} {laid : Laid}
    (h : ∀ laid' ∈ front ++ laid :: back, laid'.IsLegible) :
    (layout (front ++ laid :: back)).fields =
      [("tables", .list (front.map (·.entry.toData) ++ .table [("name", .text laid.entry.name),
        ("columns", .list (laid.entry.columns.map ColumnEntry.toData))] ::
          back.map (·.entry.toData)))] := by
  rw [fields_layout h, List.map_append]
  rfl

/-- The keys of an item behind others. -/
lemma itemAt?_append (front : List Data) (entries : Fields) (back : List Data) :
    itemAt? "tables" front.length [("tables", .list (front ++ .table entries :: back))] =
      some entries := by
  refine itemAt?_eq_some_iff.2 ?_
  rw [List.getElem?_append_right (Nat.le_refl _), Nat.sub_self]
  rfl

/-- An item behind others is changed. -/
lemma modifyItem_append (change : Fields → Fields) (front : List Data) (entries : Fields)
    (back : List Data) :
    modifyItem "tables" front.length change
        [("tables", .list (front ++ .table entries :: back))] =
      [("tables", .list (front ++ .table (change entries) :: back))] := by
  change [("tables", Data.list ((front ++ Data.table entries :: back).modify front.length _))] = _
  rw [modify_append_length]

variable {document rest : Document} {index : ℕ} {table : Cursor} {item : Holding}

/-- **What is taken out** is what the key holds. -/
theorem held_of_remove? (h : Relaid document)
    (htable : (tablesUnder "tables" document)[index]? = some table)
    (hremove : document.remove? table "columns" = some (item, rest)) :
    (itemAt? "tables" index document.fields).bind (List.lookup "columns") = some item.data := by
  obtain ⟨plan, hplan, rfl⟩ := exists_plan_of_relaid h
  obtain ⟨front, laid, back, rfl, rfl, rfl, rfl, rfl⟩ := exists_of_remove? hplan htable hremove
  have hlaid := hplan laid (List.mem_append_right front List.mem_cons_self)
  rw [fields_layout_append hplan, ← List.length_map (f := fun laid : Laid => laid.entry.toData),
    itemAt?_append, data_item hlaid.nonempty]
  rfl

/-- **What is put in** is the last key. -/
theorem fields_insert (h : Relaid document)
    (htable : (tablesUnder "tables" document)[index]? = some table)
    (hremove : document.remove? table "columns" = some (item, rest)) (elements : List Element)
    (trailing : String) :
    (rest.insert table "columns" (.array elements trailing)).fields =
      modifyItem "tables" index (putLast "columns" (.list (elements.map (·.value.data))))
        document.fields := by
  obtain ⟨plan, hplan, rfl⟩ := exists_plan_of_relaid h
  obtain ⟨front, laid, back, rfl, rfl, rfl, rfl, rfl⟩ := exists_of_remove? hplan htable hremove
  have hparts := hplan
  rw [List.forall_mem_append, List.forall_mem_cons] at hparts
  obtain ⟨entries, hentries, hdata⟩ :=
    exists_entries?_withPairs hparts.1 hparts.2.2 laid elements trailing
  rw [insert_withPairs, Document.fields_eq hentries, hdata, fields_layout_append hplan,
    ← List.length_map (f := fun laid : Laid => laid.entry.toData), modifyItem_append]
  rfl

/-- **The data of an accepted schema** are written as the text of a document that says them. -/
theorem exists_ofText?_write {schema : Schema} (h : schema.resolve = .ok ()) :
    ∃ document, Document.ofText? (documentOf schema.toFields).text = some document ∧
      document.fields = schema.toFields := by
  have hwellFormed := (Schema.resolve_eq_ok_iff.1 h).tables
  refine ⟨layout (layoutOf schema.tables), ?_, ?_⟩
  · rw [documentOf_toFields fun entry hentry => (hwellFormed entry hentry).nonempty]
    exact ofText?_layoutOf hwellFormed
  · have hentries : (layoutOf schema.tables).map (fun laid => laid.entry.toData) =
        schema.tables.map TableEntry.toData := by
      cases schema.tables with
      | nil => rfl
      | cons first rest =>
        rw [layoutOf, List.map_cons, List.map_map, List.map_cons]
        rfl
    rw [fields_layout (layoutOf_isLegible hwellFormed), hentries, Schema.toFields]

/-! ## The instance -/

instance : LawfulLibrary where
  fields := Document.fields
  pieces := Document.pieces
  ending document := dropReturns document.trailing
  shown := dropReturns
  held := Holding.data
  elementData element := element.value.data
  print_eq := Document.text_eq_pieces
  shown_append := dropReturns_append
  shown_eq_self := dropReturns_eq_self
  print_of_parse? := reprints_of_ofText?
  before_setBefore_self := Document.before_setBefore_self
  before_setBefore_of_ne := Document.before_setBefore_of_ne
  pieces_setBefore := Document.pieces_setBefore
  ending_setBefore place text document :=
    congrArg dropReturns (Document.trailing_setBefore place text document)
  fields_setBefore := Document.fields_setBefore
  before_isTrivia h := (legible_of_sound h).1.before_trivia
  pieces_isSolid h := (legible_of_sound h).1.pieces_isSolid
  parse?_print h := by
    obtain ⟨hlegible, entries, hentries, hrange⟩ := legible_of_sound h
    refine ⟨_, Document.ofText?_text hlegible hentries hrange, ?_⟩
    rw [Document.fields, Document.entries?_printed]
    rfl
  read?_eq_of_parse? := ofText?_eq_of_ofText?
  parse?_write := exists_ofText?_write
  held_of_remove? h _ _ htable _ hremove := held_of_remove? h htable hremove
  fields_insert h _ _ htable _ hremove elements trailing :=
    fields_insert h htable hremove elements trailing
  exists_elements? := Holding.exists_elements?
  elementData_setElementBefore _ _ := rfl

end BoundSql.Toml
