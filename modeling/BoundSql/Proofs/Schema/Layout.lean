import BoundSql.Proofs.Schema.Resolve
import BoundSql.Proofs.Schema.Written

/-!
# Documents of schemas

The document of a schema has a section for each table. The columns of a table are in sections below
it, or in an array. However they are laid out, the document is legible and says what the schema
does.

## Main definitions

* `BoundSql.Laid` — a table with its layout.
* `BoundSql.layout` — the document of some tables.
* `BoundSql.AddsItem` — sections that add an item to the array of tables.

## Main results

* `BoundSql.documentOf_toFields` — the data of a schema are written as such a document.
* `BoundSql.layout_legible` — such a document is legible.
* `BoundSql.entries?_layout`, `BoundSql.entriesData_layout` — what it means.
* `BoundSql.ofText?_layoutOf` — a document with sections for columns is read from its text as it is.
-/

namespace BoundSql

open Toml

/-! ## Layouts -/

/-- A table with its layout. -/
structure Laid where
  /-- What stands in front of its header. -/
  before : String
  /-- The table. -/
  entry : TableEntry
  /-- The blanks in front of each column and of the closing bracket, if the columns are in an array;
  otherwise they are in sections. -/
  blanks? : Option (String × String)

/-- The section of a column. -/
def ColumnEntry.toSection (entry : ColumnEntry) : Section where
  header := writtenHeader true ["tables"] "columns"
  pairs := [textPair "field" entry.field, textPair "column" entry.column]

/-- The section of a table with some pairs below its name. -/
def TableEntry.toSection (before : String) (entry : TableEntry) (pairs : List Pair) : Section where
  header := { writtenHeader true [] "tables" with before }
  pairs := textPair "name" entry.name :: pairs

namespace Laid

/-- The pairs below the name of a table. -/
def columnPairs (laid : Laid) : List Pair :=
  match laid.blanks? with
  | none => []
  | some (before, trailing) => [columnsPair before trailing laid.entry.columns]

/-- The sections below that of a table. -/
def columnSections (laid : Laid) : List Section :=
  match laid.blanks? with
  | none => laid.entry.columns.map ColumnEntry.toSection
  | some _ => []

/-- The sections of a table. -/
def sections (laid : Laid) : List Section :=
  laid.entry.toSection laid.before laid.columnPairs :: laid.columnSections

end Laid

/-- The document of some tables. -/
def layout (plan : List Laid) : Document where
  pairs := if plan.isEmpty then [emptyPair "tables"] else []
  sections := plan.flatMap Laid.sections

/-- The layout of tables that are written: an empty line stands in front of each but the first one,
and their columns are in sections. -/
def layoutOf : List TableEntry → List Laid
  | [] => []
  | first :: rest => ⟨"", first, none⟩ :: rest.map (⟨"\n", ·, none⟩)

/-! ## Writing -/

/-- The sections of columns. -/
lemma itemsSections_columns (columns : List ColumnEntry) :
    itemsSections ["tables"] "columns" (columns.map ColumnEntry.toData) =
      columns.map ColumnEntry.toSection := by
  induction columns with
  | nil => rfl
  | cons entry columns ih =>
    rw [List.map_cons, ColumnEntry.toData, itemsSections, ih]
    rfl

/-- Columns are tables. -/
lemma all_isTable_columns (columns : List ColumnEntry) :
    (columns.map ColumnEntry.toData).all Data.isTable = true := by
  rw [List.all_map, List.all_eq_true]
  exact fun _ _ => rfl

/-- The sections of tables. -/
lemma itemsSections_tables {tables : List TableEntry} (h : ∀ entry ∈ tables, entry.columns ≠ []) :
    itemsSections [] "tables" (tables.map TableEntry.toData) =
      (tables.map (⟨"\n", ·, none⟩ : TableEntry → Laid)).flatMap Laid.sections := by
  induction tables with
  | nil => rfl
  | cons entry tables ih =>
    rw [List.forall_mem_cons] at h
    have hpairs : pairsOf [("name", .text entry.name),
        ("columns", .list (entry.columns.map ColumnEntry.toData))] =
      [textPair "name" entry.name] := by
      have hheaders : (Data.list (entry.columns.map ColumnEntry.toData)).hasHeaders = true := by
        rw [Data.hasHeaders, all_isTable_columns, List.isEmpty_map]
        simpa using h.1
      simp only [pairsOf, List.filter_cons, hheaders]
      rfl
    have hsections : fieldsSections ["tables"] [("name", .text entry.name),
        ("columns", .list (entry.columns.map ColumnEntry.toData))] =
          entry.columns.map ColumnEntry.toSection := by
      have hname : (Data.text entry.name).sections ["tables"] "name" = [] := rfl
      rw [fieldsSections, fieldsSections, fieldsSections, hname, Data.sections,
        all_isTable_columns, if_pos rfl, itemsSections_columns, List.append_nil, List.nil_append]
    rw [List.map_cons, TableEntry.toData, itemsSections, ih h.2, hpairs, List.nil_append, hsections]
    rfl

/-- **The data of a schema** are written as a document with sections for columns. -/
theorem documentOf_toFields {schema : Schema} (h : ∀ entry ∈ schema.tables, entry.columns ≠ []) :
    documentOf schema.toFields = layout (layoutOf schema.tables) := by
  have htables : (schema.tables.map TableEntry.toData).all Data.isTable = true := by
    rw [List.all_map, List.all_eq_true]
    exact fun _ _ => rfl
  have hsections : fieldsSections [] schema.toFields =
      (schema.tables.map (⟨"\n", ·, none⟩ : TableEntry → Laid)).flatMap Laid.sections := by
    rw [Schema.toFields, fieldsSections, fieldsSections, Data.sections, htables, if_pos rfl,
      itemsSections_tables h, List.append_nil]
  obtain ⟨tables⟩ := schema
  cases tables with
  | nil => rfl
  | cons first rest =>
    have hpairs : pairsOf (Schema.mk (first :: rest)).toFields = [] := by
      have hheaders : (Data.list ((first :: rest).map TableEntry.toData)).hasHeaders = true :=
        htables
      simp only [pairsOf, Schema.toFields, List.filter_cons, hheaders]
      rfl
    rw [documentOf, hpairs, hsections]
    rfl

/-! ## Legible documents -/

/-- What is asked of a table so that it can be written without escapes. -/
structure TableEntry.IsWritable (entry : TableEntry) : Prop where
  /-- The name is a word. -/
  name : IsWord entry.name.toList
  /-- The columns can be written. -/
  columns : ∀ column ∈ entry.columns, column.IsWritable

/-- What is asked of a table with its layout: there are columns, and blanks and comments stand where
they may. -/
structure Laid.IsLegible (laid : Laid) : Prop where
  /-- The table can be written. -/
  entry : laid.entry.IsWritable
  /-- There are columns. -/
  nonempty : laid.entry.columns ≠ []
  /-- There are blanks in front of the header. -/
  before : IsBlank laid.before
  /-- There are blanks in an array of columns. -/
  blanks : ∀ before trailing, laid.blanks? = some (before, trailing) →
    IsBlank before ∧ IsBlank trailing

/-- The tables of an accepted schema can be written without escapes. -/
lemma TableEntry.WellFormed.isWritable {entry : TableEntry} (h : entry.WellFormed) :
    entry.IsWritable where
  name := isWord_of_isIdentifier h.name
  columns column hcolumn :=
    (h.columns column hcolumn).imp isWord_of_isIdentifier isWord_of_isIdentifier

/-- The tables of an accepted schema are laid out legibly. -/
lemma layoutOf_isLegible {tables : List TableEntry} (h : ∀ entry ∈ tables, entry.WellFormed) :
    ∀ laid ∈ layoutOf tables, laid.IsLegible := by
  have hlaid : ∀ before, IsBlank before → ∀ entry : TableEntry, entry.WellFormed →
      (⟨before, entry, none⟩ : Laid).IsLegible :=
    fun before hbefore entry hentry =>
      ⟨hentry.isWritable, hentry.nonempty, hbefore, fun _ _ heq => nomatch heq⟩
  cases tables with
  | nil => exact fun _ hmem => absurd hmem List.not_mem_nil
  | cons first rest =>
    rw [List.forall_mem_cons] at h
    refine List.forall_mem_cons.2 ⟨hlaid "" (by decide) first h.1, ?_⟩
    rw [List.forall_mem_map]
    exact fun entry hentry => hlaid "\n" (by decide) entry (h.2 entry hentry)

/-- A pair that is read again as it is. -/
def Toml.Pair.IsVerbatim (pair : Pair) : Prop := pair.Legible ∧ pair.printed = pair

/-- A section that is read again as it is. -/
def Toml.Section.IsVerbatim (part : Section) : Prop := part.Legible ∧ part.printed = part

/-- A pair without carriage returns is read again as it is. -/
lemma Toml.Pair.Legible.isVerbatim {pair : Pair} (h : pair.Legible)
    (hbefore : '\r' ∉ pair.before.toList)
    (hwritten : '\r' ∉ pair.written.toList) : pair.IsVerbatim := by
  refine ⟨h, ?_⟩
  rw [Pair.printed, dropReturns_eq_self hbefore, dropReturns_eq_self hwritten]

/-- Members that stay the same make the same list. -/
lemma map_eq_self {α : Type} {f : α → α} {l : List α} (h : ∀ a ∈ l, f a = a) : l.map f = l :=
  (List.map_congr_left h).trans (List.map_id' l)

/-- A section is read again as it is if its parts are. -/
lemma Toml.Section.isVerbatim_of {part : Section} (hheader : part.header.Legible)
    (hbefore : '\r' ∉ part.header.before.toList) (hwritten : '\r' ∉ part.header.written.toList)
    (hpairs : ∀ pair ∈ part.pairs, pair.IsVerbatim) : part.IsVerbatim := by
  refine ⟨⟨hheader, fun pair hpair => (hpairs pair hpair).1⟩, ?_⟩
  rw [Section.printed, Header.printed, dropReturns_eq_self hbefore, dropReturns_eq_self hwritten,
    map_eq_self fun pair hpair => (hpairs pair hpair).2]

/-- A text under a word is read as it is written. -/
lemma textPair_isVerbatim {key text : String} (hkey : IsWord key.toList)
    (htext : IsWord text.toList) : (textPair key text).IsVerbatim :=
  (textPair_legible hkey htext).isVerbatim List.not_mem_nil (not_mem_textPair hkey htext)

/-- The section of a column is read again as it is. -/
lemma ColumnEntry.toSection_isVerbatim {entry : ColumnEntry} (h : entry.IsWritable) :
    entry.toSection.IsVerbatim := by
  refine Section.isVerbatim_of header_legible_columns (by decide : '\r' ∉ "\n".toList)
    (by decide : '\r' ∉ (writtenHeader true ["tables"] "columns").written.toList) ?_
  rw [toSection, List.forall_mem_cons, List.forall_mem_cons]
  exact ⟨textPair_isVerbatim (by decide) h.1, textPair_isVerbatim (by decide) h.2, by simp⟩

/-- The sections of a table are read again as they are. -/
lemma Laid.IsLegible.isVerbatim {laid : Laid} (h : laid.IsLegible) :
    ∀ part ∈ laid.sections, part.IsVerbatim := by
  obtain ⟨before, entry, blanks?⟩ := laid
  have hname := textPair_isVerbatim (by decide : IsWord "name".toList) h.entry.name
  have hpairs : ∀ pair ∈ (⟨before, entry, blanks?⟩ : Laid).columnPairs, pair.IsVerbatim := by
    rcases blanks? with _ | ⟨front, trailing⟩
    · exact fun _ hpair => absurd hpair List.not_mem_nil
    · obtain ⟨hfront, htrailing⟩ := h.blanks front trailing rfl
      intro pair hpair
      rw [List.mem_singleton.1 hpair]
      refine (columnsPair_legible hfront htrailing h.entry.columns).isVerbatim List.not_mem_nil ?_
      exact not_mem_columnsPair hfront htrailing h.entry.columns
  rw [sections, List.forall_mem_cons]
  constructor
  · refine Section.isVerbatim_of (header_legible_tables h.before.isTrivia) h.before.not_mem_return
      (by decide : '\r' ∉ (writtenHeader true [] "tables").written.toList) ?_
    exact List.forall_mem_cons.2 ⟨hname, hpairs⟩
  · rcases blanks? with _ | ⟨front, trailing⟩
    · rw [columnSections, List.forall_mem_map]
      exact fun column hcolumn => column.toSection_isVerbatim (h.entry.columns column hcolumn)
    · exact fun _ hpart => absurd hpart List.not_mem_nil

/-- The parts of a document of tables are read again as they are. -/
lemma layout_isVerbatim {plan : List Laid} (h : ∀ laid ∈ plan, laid.IsLegible) :
    (∀ pair ∈ (layout plan).pairs, pair.IsVerbatim) ∧
      ∀ part ∈ (layout plan).sections, part.IsVerbatim := by
  constructor
  · rw [layout]
    split
    · intro pair hpair
      rw [List.mem_singleton.1 hpair]
      exact (emptyPair_legible (by decide)).isVerbatim List.not_mem_nil (by decide)
    · exact fun _ hpair => absurd hpair List.not_mem_nil
  · intro part hpart
    obtain ⟨laid, hlaid, hpart⟩ := List.mem_flatMap.1 hpart
    exact (h laid hlaid).isVerbatim part hpart

/-- **A document of tables** is legible. -/
theorem layout_legible {plan : List Laid} (h : ∀ laid ∈ plan, laid.IsLegible) :
    (layout plan).Legible where
  about := .nil _
  pairs pair hpair := ((layout_isVerbatim h).1 pair hpair).1
  sections part hpart := ((layout_isVerbatim h).2 part hpart).1
  trailing := ⟨false, .nil _⟩

/-- Nothing on top is part of nothing. -/
lemma Toml.Document.settled_eq_self {document : Document} (h : document.about = "") :
    document.settled = document := by
  obtain ⟨about, pairs, sections, trailing⟩ := document
  obtain rfl : about = "" := h
  rcases pairs with _ | ⟨pair, pairs⟩
  · rcases sections with _ | ⟨part, sections⟩ <;> simp only [settled, String.empty_append]
  · simp only [settled, String.empty_append]

/-- **A document of tables** is read again as it is. -/
theorem layout_printed {plan : List Laid} (h : ∀ laid ∈ plan, laid.IsLegible) :
    (layout plan).printed = layout plan := by
  obtain ⟨hpairs, hsections⟩ := layout_isVerbatim h
  rw [Document.printed, Document.settled_eq_self rfl,
    map_eq_self fun pair hpair => (hpairs pair hpair).2,
    map_eq_self fun part hpart => (hsections part hpart).2]
  rfl

/-! ## What documents of tables mean -/

/-- The data of an array of tables under a key; there is none without items. -/
def arrayOfTables (key : String) (items : List Node) : Entries :=
  if items.isEmpty then [] else [(key, .list true items)]

/-- A table is added behind those of an array. -/
lemma arrayOfTables_append (key : String) (items : List Node) (node : Node) :
    arrayOfTables key (items ++ [node]) = [(key, .list true (items ++ [node]))] := by
  rw [arrayOfTables, if_neg]
  simp

/-- An item is added at the end of an array of tables. -/
lemma addItem?_arrayOfTables (key : String) {fill : Entries → Option Entries} {filled : Entries}
    (hfill : fill [] = some filled) (items : List Node) :
    Node.addItem? key fill (arrayOfTables key items) =
      some (arrayOfTables key (items ++ [.table .header filled])) := by
  rw [arrayOfTables_append, Node.addItem?, hfill]
  cases items with
  | nil => rfl
  | cons first rest =>
    change Entries.update? key _ _ [(key, .list true (first :: rest))] = _
    rw [Entries.update?, if_pos rfl]
    rfl

/-- The last node is changed. -/
lemma updateLast?_append (change : Node → Option Node) (items : List Node) (node : Node) :
    updateLast? change (items ++ [node]) = (change node).map (items ++ [·]) := by
  induction items with
  | nil => rfl
  | cons first rest ih =>
    cases hrest : rest ++ [node] with
    | nil => simp at hrest
    | cons second others =>
      rw [List.cons_append, hrest, updateLast?, ← hrest, ih, Option.map_map]
      · rfl
      · exact List.cons_ne_nil _ _

/-- What a header below the last item of an array of tables opens is added to that item. -/
lemma addTable?_arrayOfTables (key : String) {add : Entries → Option Entries}
    {entries added : Entries} (hadd : add entries = some added) (items : List Node) :
    Node.addTable? add [key] (arrayOfTables key (items ++ [.table .header entries])) =
      some (arrayOfTables key (items ++ [.table .header added])) := by
  rw [arrayOfTables_append, arrayOfTables_append, Node.addTable?, Entries.update?, if_pos rfl]
  dsimp only
  rw [updateLast?_append]
  dsimp only
  rw [Node.addTable?, hadd]
  rfl

/-- Sections add an item to the array of tables. -/
def AddsItem (sections : List Section) (node : Node) : Prop :=
  ∀ items, sections.foldlM addSection? (arrayOfTables "tables" items) =
    some (arrayOfTables "tables" (items ++ [node]))

/-- The data of the section of a column. -/
def ColumnEntry.toNode (entry : ColumnEntry) : Node :=
  .table .header [("field", .text entry.field), ("column", .text entry.column)]

/-- The data of a table with what its columns are. -/
def TableEntry.toNode (entry : TableEntry) (columns : Node) : Node :=
  .table .header [("name", .text entry.name), ("columns", columns)]

/-- The data of the sections of a table. -/
def Laid.node (laid : Laid) : Node :=
  laid.entry.toNode <|
    match laid.blanks? with
    | none => .list true (laid.entry.columns.map ColumnEntry.toNode)
    | some _ => .list false (laid.entry.columns.map ColumnEntry.toInline)

/-- The sections of columns are added to the last table. -/
lemma foldlM_toSection (columns : List ColumnEntry) (items nodes : List Node) (name : Node) :
    (columns.map ColumnEntry.toSection).foldlM addSection?
        (arrayOfTables "tables"
          (items ++ [.table .header (("name", name) :: arrayOfTables "columns" nodes)])) =
      some (arrayOfTables "tables" (items ++ [.table .header
        (("name", name) :: arrayOfTables "columns" (nodes ++ columns.map ColumnEntry.toNode))])) := by
  induction columns generalizing nodes with
  | nil =>
    rw [List.map_nil, List.map_nil, List.append_nil]
    rfl
  | cons entry columns ih =>
    -- The path of the section goes through the last table, to the array behind its name.
    have hadd : Node.addItem? "columns" (addPairs? entry.toSection.pairs)
        (("name", name) :: arrayOfTables "columns" nodes) =
          some (("name", name) :: arrayOfTables "columns" (nodes ++ [entry.toNode])) := by
      have hitem := addItem?_arrayOfTables "columns"
        (rfl : addPairs? entry.toSection.pairs [] = some _) nodes
      rw [Node.addItem?] at hitem
      rw [Node.addItem?, Entries.update?, if_neg (by decide), hitem]
      rfl
    have hsection : addSection? (arrayOfTables "tables"
        (items ++ [.table .header (("name", name) :: arrayOfTables "columns" nodes)]))
        entry.toSection = some (arrayOfTables "tables" (items ++ [.table .header
          (("name", name) :: arrayOfTables "columns" (nodes ++ [entry.toNode]))])) :=
      addTable?_arrayOfTables "tables" hadd items
    rw [List.map_cons, List.foldlM_cons, hsection, List.map_cons,
      List.append_cons nodes entry.toNode (columns.map ColumnEntry.toNode)]
    exact ih (nodes ++ [entry.toNode])

/-- The section of a table whose pairs are known adds an item. -/
lemma addSection?_toSection (before : String) (entry : TableEntry) {pairs : List Pair}
    {filled : Entries} (hpairs : addPairs? (textPair "name" entry.name :: pairs) [] = some filled)
    (items : List Node) :
    addSection? (arrayOfTables "tables" items) (entry.toSection before pairs) =
      some (arrayOfTables "tables" (items ++ [.table .header filled])) :=
  addItem?_arrayOfTables "tables" hpairs items

/-- The section of a table with an array of columns adds an item. -/
lemma addsItem_arrayPair (before : String) (entry : TableEntry) (elements : List Element)
    (trailing : String) : AddsItem [entry.toSection before [arrayPair "columns" elements trailing]]
      (entry.toNode (.list false (elements.map Element.value))) := by
  intro items
  rw [List.foldlM_cons, addSection?_toSection before entry rfl]
  rfl

/-- **The sections of a table** add an item. -/
theorem Laid.IsLegible.addsItem {laid : Laid} (h : laid.IsLegible) :
    AddsItem laid.sections laid.node := by
  obtain ⟨before, entry, blanks?⟩ := laid
  rcases blanks? with _ | ⟨front, trailing⟩
  · intro items
    have hcolumns := foldlM_toSection entry.columns items [] (.text entry.name)
    have hnode : arrayOfTables "columns" (entry.columns.map ColumnEntry.toNode) =
        [("columns", .list true (entry.columns.map ColumnEntry.toNode))] := by
      rw [arrayOfTables, if_neg]
      rw [List.isEmpty_map, List.isEmpty_iff]
      exact h.nonempty
    rw [List.nil_append, hnode] at hcolumns
    rw [Laid.sections, List.foldlM_cons, addSection?_toSection before entry rfl]
    exact hcolumns
  · have hitem := addsItem_arrayPair before entry
      (entry.columns.map fun column => ⟨front, column.toInline⟩) trailing
    rw [List.map_map] at hitem
    exact hitem

/-- If sections add an item each, all of them add these items. -/
lemma foldlM_flatMap_addsItem {α : Type} {sections : α → List Section} {node : α → Node}
    {l : List α}
    (h : ∀ a ∈ l, AddsItem (sections a) (node a)) (items : List Node) :
    (l.flatMap sections).foldlM addSection? (arrayOfTables "tables" items) =
      some (arrayOfTables "tables" (items ++ l.map node)) := by
  induction l generalizing items with
  | nil =>
    rw [List.map_nil, List.append_nil]
    rfl
  | cons a l ih =>
    rw [List.forall_mem_cons] at h
    rw [List.flatMap_cons, List.foldlM_append, h.1, List.map_cons,
      List.append_cons items (node a) (l.map node)]
    exact ih h.2 (items ++ [node a])

/-- **What a document of tables means**: an array of tables, or an empty one. -/
theorem entries?_layout {plan : List Laid} (h : ∀ laid ∈ plan, laid.IsLegible) :
    (layout plan).entries? = some
      (if plan.isEmpty then [("tables", .list false [])]
      else arrayOfTables "tables" (plan.map Laid.node)) := by
  cases plan with
  | nil => rfl
  | cons first rest =>
    exact foldlM_flatMap_addsItem (fun laid hlaid => (h laid hlaid).addsItem) []

/-! ### Data -/

/-- The data of items are read one by one. -/
lemma itemsData_eq_map (items : List Node) : itemsData items = items.map Node.data := by
  induction items with
  | nil => rfl
  | cons item items ih => rw [itemsData, ih, List.map_cons]

/-- The data of an array of tables, and of an empty array if there are none. -/
lemma entriesData_tables (items : List Node) :
    entriesData (if items.isEmpty then [("tables", .list false [])]
      else arrayOfTables "tables" items) = [("tables", .list (items.map Node.data))] := by
  cases items with
  | nil => rfl
  | cons first rest =>
    change [("tables", Data.list (itemsData (first :: rest)))] = _
    rw [itemsData_eq_map]

/-- The data of a table, however its columns are laid out. -/
lemma Laid.data_node (laid : Laid) : laid.node.data = laid.entry.toData := by
  have hcolumns : ∀ f : ColumnEntry → Node, (∀ column, (f column).data = column.toData) →
      itemsData (laid.entry.columns.map f) = laid.entry.columns.map ColumnEntry.toData := by
    intro f hf
    rw [itemsData_eq_map, List.map_map]
    exact List.map_congr_left fun column _ => hf column
  obtain ⟨before, entry, blanks?⟩ := laid
  rcases blanks? with _ | ⟨front, trailing⟩
  · change Data.table [("name", .text entry.name),
      ("columns", .list (itemsData (entry.columns.map ColumnEntry.toNode)))] = _
    rw [hcolumns ColumnEntry.toNode fun _ => rfl]
    rfl
  · change Data.table [("name", .text entry.name),
      ("columns", .list (itemsData (entry.columns.map ColumnEntry.toInline)))] = _
    rw [hcolumns ColumnEntry.toInline fun _ => rfl]
    rfl

/-! ### Numbers -/

/-- A list of items without whole numbers out of range. -/
lemma itemsIn_map {α : Type} {low high : Int} {f : α → Node} {l : List α}
    (h : ∀ a ∈ l, (f a).integersIn low high = true) : itemsIn low high (l.map f) = true := by
  induction l with
  | nil => rfl
  | cons a l ih =>
    rw [List.forall_mem_cons] at h
    rw [List.map_cons, itemsIn, h.1, ih h.2]
    rfl

/-- The data of a table has no numbers. -/
lemma Laid.integersIn_node (low high : Int) (laid : Laid) :
    laid.node.integersIn low high = true := by
  obtain ⟨before, entry, blanks?⟩ := laid
  rcases blanks? with _ | ⟨front, trailing⟩
  · have hcolumns : itemsIn low high (entry.columns.map ColumnEntry.toNode) = true :=
      itemsIn_map fun _ _ => rfl
    rw [node, TableEntry.toNode, Node.integersIn, entriesIn, entriesIn, Node.integersIn, hcolumns]
    rfl
  · have hcolumns : itemsIn low high (entry.columns.map ColumnEntry.toInline) = true :=
      itemsIn_map fun _ _ => rfl
    rw [node, TableEntry.toNode, Node.integersIn, entriesIn, entriesIn, Node.integersIn, hcolumns]
    rfl

/-- **What a document of tables means** has no numbers out of range, and says what the tables do. -/
theorem exists_entries?_layout {plan : List Laid} (h : ∀ laid ∈ plan, laid.IsLegible) :
    ∃ entries, (layout plan).entries? = some entries ∧
      (∀ low high, entriesIn low high entries = true) ∧
      entriesData entries = [("tables", .list (plan.map fun laid => laid.entry.toData))] := by
  refine ⟨_, entries?_layout h, fun low high => ?_, ?_⟩
  · have hitems : itemsIn low high (plan.map Laid.node) = true :=
      itemsIn_map fun laid _ => laid.integersIn_node low high
    cases plan with
    | nil => rfl
    | cons first rest =>
      change (itemsIn low high ((first :: rest).map Laid.node) && true) = true
      rw [hitems]
      rfl
  · rw [← List.isEmpty_map (f := Laid.node), entriesData_tables, List.map_map]
    refine congrArg (fun items => [("tables", Data.list items)]) ?_
    exact List.map_congr_left fun laid _ => laid.data_node

/-- **The document of an accepted schema** is read from its text as it is. -/
theorem ofText?_layoutOf {tables : List TableEntry} (h : ∀ entry ∈ tables, entry.WellFormed) :
    Document.ofText? (layout (layoutOf tables)).text = some (layout (layoutOf tables)) := by
  have hplan := layoutOf_isLegible h
  obtain ⟨entries, hentries, hrange, -⟩ := exists_entries?_layout hplan
  rw [Document.ofText?_text (layout_legible hplan) hentries (hrange _ _), layout_printed hplan]

end BoundSql
