import BoundSql.Proofs.Schema.Layout

/-!
# Columns that are put back

The columns of a table in the document of a schema are taken out, wherever they are, and put back as
an array. What becomes of the document is again a document of the same tables.

## Main definitions

* `BoundSql.bare` — a document of tables in which one of them has lost its columns.

## Main results

* `BoundSql.exists_of_tablesUnder_layout` — the tables of a document and where their sections are.
* `BoundSql.remove?_layout` — what is taken out, and what is left.
* `BoundSql.insert_bare` — an array of columns that is put in.
-/

namespace BoundSql

open Toml

/-! ## The tables of a document -/

/-- Where the headers of tables are among sections that begin at a place. -/
def headersFrom (place : ℕ) (sections : List Section) : List ℕ :=
  ((sections.zipIdx place).filter fun part => part.1.header.path = []).map Prod.snd

/-- Headers are counted through both lists. -/
lemma headersFrom_append (place : ℕ) (front back : List Section) :
    headersFrom place (front ++ back) =
      headersFrom place front ++ headersFrom (place + front.length) back := by
  rw [headersFrom, List.zipIdx_append, List.filter_append, List.map_append]
  rfl

/-- Among the sections of a table only the first one is a header of a table. -/
lemma headersFrom_sections (place : ℕ) (laid : Laid) : headersFrom place laid.sections =
    [place] := by
  have hcolumns : headersFrom (place + 1) laid.columnSections = [] := by
    have hpath : ∀ part ∈ laid.columnSections, part.header.path ≠ [] := by
      obtain ⟨before, entry, blanks?⟩ := laid
      rcases blanks? with _ | _
      · rw [Laid.columnSections, List.forall_mem_map]
        exact fun _ _ => List.cons_ne_nil _ _
      · exact fun _ hpart => absurd hpart List.not_mem_nil
    rw [headersFrom, List.filter_eq_nil_iff.2, List.map_nil]
    intro part hpart
    simpa using hpath part.1 (List.fst_mem_of_mem_zipIdx hpart)
  have hsections : laid.sections =
      [laid.entry.toSection laid.before laid.columnPairs] ++ laid.columnSections := rfl
  rw [hsections, headersFrom_append, List.length_singleton, hcolumns]
  rfl

/-- A header of a table is that of a table, behind the sections of those in front of it. -/
lemma exists_of_headersFrom {plan : List Laid} {place index header : ℕ}
    (h : (headersFrom place (plan.flatMap Laid.sections))[index]? = some header) :
    ∃ front laid back, plan = front ++ laid :: back ∧ front.length = index ∧
      header = place + (front.flatMap Laid.sections).length := by
  induction plan generalizing place index with
  | nil => cases h
  | cons first rest ih =>
    rw [List.flatMap_cons, headersFrom_append, headersFrom_sections] at h
    cases index with
    | zero =>
      obtain rfl := Option.some.inj h
      exact ⟨[], first, rest, rfl, rfl, rfl⟩
    | succ index =>
      obtain ⟨front, laid, back, rfl, rfl, rfl⟩ := ih h
      refine ⟨first :: front, laid, back, rfl, rfl, ?_⟩
      rw [List.flatMap_cons, List.length_append, Nat.add_assoc]

/-- Headers of one array of tables open its items. -/
lemma headerEntries_tables (first : Section × ℕ) (rest : List (Section × ℕ))
    (h : ∀ part ∈ first :: rest, part.1.header.key = "tables" ∧ part.1.header.ofArray = true) :
    (Document.headerEntries [] (first :: rest)).lookup "tables" =
      some (.tables ((first :: rest).map fun part => .part part.2)) := by
  obtain ⟨⟨hkey, hofArray⟩, hrest⟩ := List.forall_mem_cons.1 h
  have hothers : (rest.filter fun part => part.1.header.key = first.1.header.key) = rest := by
    rw [List.filter_eq_self]
    intro part hpart
    rw [decide_eq_true_iff, hkey, (hrest part hpart).1]
  rw [Document.headerEntries, if_neg List.not_mem_nil, hothers, hofArray, hkey]
  rfl

/-- The sections of tables whose path is empty have headers of tables. -/
lemma header_of_path_eq_nil {plan : List Laid} {part : Section}
    (hpart : part ∈ plan.flatMap Laid.sections) (hpath : part.header.path = []) :
    part.header.key = "tables" ∧ part.header.ofArray = true := by
  obtain ⟨⟨before, entry, blanks?⟩, -, hpart⟩ := List.mem_flatMap.1 hpart
  rcases List.mem_cons.1 hpart with rfl | hpart
  · exact ⟨rfl, rfl⟩
  · rcases blanks? with _ | _
    · obtain ⟨column, -, rfl⟩ := List.mem_map.1 hpart
      cases hpath
    · exact absurd hpart List.not_mem_nil

/-- **The tables of a document** are those that the headers of tables open. -/
theorem tablesUnder_layout (plan : List Laid) :
    tablesUnder "tables" (layout plan) =
      (headersFrom 0 (plan.flatMap Laid.sections)).map Cursor.part := by
  cases plan with
  | nil => rfl
  | cons laid plan =>
    have hentries : (layout (laid :: plan)).entries .root =
        Document.headerEntries [] ((((laid :: plan).flatMap Laid.sections).zipIdx 0).filter
          fun part => part.1.header.path = []) := rfl
    have hheaders : ∀ part ∈ (((laid :: plan).flatMap Laid.sections).zipIdx 0).filter
        (fun part => part.1.header.path = []),
          part.1.header.key = "tables" ∧ part.1.header.ofArray = true := by
      intro part hpart
      obtain ⟨hmem, hpath⟩ := List.mem_filter.1 hpart
      exact header_of_path_eq_nil (List.fst_mem_of_mem_zipIdx hmem) (of_decide_eq_true hpath)
    have htables : (Library.entries (layout (laid :: plan)) Library.root) =
      (layout (laid :: plan)).entries .root := rfl
    rw [tablesUnder, htables, hentries, headersFrom, List.map_map]
    -- The first header opens the array, and all of the others belong to it.
    generalize List.filter _ _ = headers at hheaders ⊢
    cases headers with
    | nil => rfl
    | cons first rest =>
      rw [headerEntries_tables first rest hheaders]
      rfl

/-- The table at a place among the tables of a document, and where its section is. -/
theorem exists_of_tablesUnder_layout {plan : List Laid} {index : ℕ} {table : Cursor}
    (h : (tablesUnder "tables" (layout plan))[index]? = some table) :
    ∃ front laid back, plan = front ++ laid :: back ∧ front.length = index ∧
      table = .part (front.flatMap Laid.sections).length := by
  rw [tablesUnder_layout, List.getElem?_map] at h
  obtain ⟨header, hheader, rfl⟩ := Option.map_eq_some_iff.1 h
  obtain ⟨front, laid, back, hplan, hindex, rfl⟩ := exists_of_headersFrom hheader
  exact ⟨front, laid, back, hplan, hindex, by rw [Nat.zero_add]⟩

/-! ## A section among others -/

/-- The member of a list behind others is changed. -/
lemma modify_append_length {α : Type} (change : α → α) (front : List α) (a : α) (back : List α) :
    (front ++ a :: back).modify front.length change = front ++ change a :: back := by
  induction front with
  | nil => rfl
  | cons first front ih =>
    rw [List.cons_append, List.length_cons, List.modify_succ_cons, ih, List.cons_append]

section Part

variable (front : List Section) (part : Section) (rest : List Section)

/-- Behind the front stands the part. -/
lemma getElem?_append_length : (front ++ part :: rest)[front.length]? = some part := by
  rw [List.getElem?_append_right (Nat.le_refl _), Nat.sub_self]
  rfl

/-- The path of a table is that of its header. -/
lemma path_part : Document.path { sections := front ++ part :: rest } (.part front.length) =
    part.header.full := by
  rw [Document.path, getElem?_append_length]
  rfl

/-- The pairs of a table are those of its section. -/
lemma pairsOf_part : Document.pairsOf { sections := front ++ part :: rest } (.part front.length) =
    part.pairs := by
  rw [Document.pairsOf, getElem?_append_length]
  rfl

/-- The pairs of a table are changed in its section. -/
lemma modifyPairs_part (change : List Pair → List Pair) :
    Document.modifyPairs change { sections := front ++ part :: rest } (.part front.length) =
      { sections := front ++ { part with pairs := change part.pairs } :: rest } := by
  rw [Document.modifyPairs, modify_append_length]

/-- Around a table stand the sections in front of it and those behind. -/
lemma around_part :
    Document.around { sections := front ++ part :: rest } (.part front.length) =
      (front ++ [part], rest.takeWhile (!·.closes part.header.full),
        rest.dropWhile (!·.closes part.header.full)) := by
  have htake : (front ++ part :: rest).take (front.length + 1) = front ++ [part] := by
    rw [List.append_cons front part rest, List.take_left' (by simp)]
  have hdrop : (front ++ part :: rest).drop (front.length + 1) = rest := by
    rw [List.append_cons front part rest, List.drop_left' (by simp)]
  simp only [Document.around, path_part, htake, hdrop]

variable {key : String} {front part rest}

/-- A key with a value is taken out of a section. -/
lemma remove?_of_pair {pair : Pair}
    (h : part.pairs.find? (fun pair => pair.path.isEmpty && pair.key = key) = some pair) :
    Document.remove? (.part front.length) key { sections := front ++ part :: rest } =
      some (.line pair, { sections := front ++ { part with
        pairs := part.pairs.filter fun pair =>
          !(pair.path.isEmpty && pair.key = key) } :: rest }) := by
  rw [Document.remove?, pairsOf_part, h]
  simp only [modifyPairs_part]

/-- Sections are taken out that are inside of another one and open the same key. -/
lemma remove?_of_sections {inside behind : List Section}
    (h : part.pairs.find? (fun pair => pair.path.isEmpty && pair.key = key) = none)
    (hinside : rest.takeWhile (!·.closes part.header.full) = inside)
    (hbehind : rest.dropWhile (!·.closes part.header.full) = behind) (hne : inside ≠ [])
    (hkey : ∀ other ∈ inside, (part.header.full ++ [key]).isPrefixOf other.header.full = true) :
    Document.remove? (.part front.length) key { sections := front ++ part :: rest } =
      some (.sections inside, { sections := front ++ part :: behind }) := by
  have htaken : inside.filter (fun other =>
      (part.header.full ++ [key]).isPrefixOf other.header.full) = inside :=
    List.filter_eq_self.2 hkey
  have hrest : inside.filter (fun other =>
      !(part.header.full ++ [key]).isPrefixOf other.header.full) = [] := by
    rw [List.filter_eq_nil_iff]
    intro other hother
    rw [hkey other hother]
    exact Bool.false_ne_true
  have hempty : inside.isEmpty = false := by simpa using hne
  rw [Document.remove?, pairsOf_part, h]
  simp only [path_part, around_part, hinside, hbehind, htaken, hrest, hempty]
  rw [if_neg Bool.false_ne_true, List.nil_append, List.append_assoc, List.singleton_append]

end Part

/-! ## Taking columns out -/

/-- A document of tables, one of which has its name and some pairs. -/
def withPairs (front : List Laid) (laid : Laid) (pairs : List Pair) (back : List Laid) :
    Document where
  sections := front.flatMap Laid.sections ++
    laid.entry.toSection laid.before pairs :: back.flatMap Laid.sections

/-- What the columns of a table are when they are taken out. -/
def Laid.item (laid : Laid) : Holding :=
  match laid.blanks? with
  | none => .sections (laid.entry.columns.map ColumnEntry.toSection)
  | some (before, trailing) => .line (columnsPair before trailing laid.entry.columns)

section Edit

variable {front back : List Laid} {laid : Laid}

/-- A table among others. -/
lemma layout_append (front : List Laid) (laid : Laid) (back : List Laid) :
    layout (front ++ laid :: back) =
      { sections := front.flatMap Laid.sections ++
        laid.entry.toSection laid.before laid.columnPairs ::
          (laid.columnSections ++ back.flatMap Laid.sections) } := by
  have hempty : (front ++ laid :: back).isEmpty = false := by simp
  rw [layout, hempty, List.flatMap_append, List.flatMap_cons]
  rfl

/-- The sections behind those of the columns of a table are not inside the table. -/
lemma takeWhile_sections (columns : List ColumnEntry) (back : List Laid) :
    (columns.map ColumnEntry.toSection ++ back.flatMap Laid.sections).takeWhile
        (!·.closes ["tables"]) = columns.map ColumnEntry.toSection ∧
      (columns.map ColumnEntry.toSection ++ back.flatMap Laid.sections).dropWhile
        (!·.closes ["tables"]) = back.flatMap Laid.sections := by
  have hcolumns : ∀ part ∈ columns.map ColumnEntry.toSection,
      (!part.closes ["tables"]) = true := by
    rw [List.forall_mem_map]
    exact fun _ _ => rfl
  rw [List.takeWhile_append_of_pos hcolumns, List.dropWhile_append_of_pos hcolumns]
  cases back with
  | nil => exact ⟨List.append_nil _, rfl⟩
  | cons laid back => exact ⟨List.append_nil _, rfl⟩

/-- **The columns of a table** are taken out. -/
theorem remove?_layout (h : laid.entry.columns ≠ []) :
    (layout (front ++ laid :: back)).remove?
        (.part (front.flatMap Laid.sections).length) "columns" =
      some (laid.item, withPairs front laid [] back) := by
  obtain ⟨before, entry, blanks?⟩ := laid
  rw [layout_append]
  rcases blanks? with _ | ⟨blank, trailing⟩
  · obtain ⟨hinside, hbehind⟩ := takeWhile_sections entry.columns back
    refine remove?_of_sections rfl hinside hbehind (by simpa using h) ?_
    rw [List.forall_mem_map]
    exact fun _ _ => rfl
  · exact remove?_of_pair rfl

/-- The table whose columns are taken out, what is taken out and what is left. -/
theorem exists_of_remove? {plan : List Laid} (hplan : ∀ laid ∈ plan, laid.IsLegible) {index : ℕ}
    {table : Cursor} (htable : (tablesUnder "tables" (layout plan))[index]? = some table)
    {item : Holding} {rest : Document}
    (hremove : (layout plan).remove? table "columns" = some (item, rest)) :
    ∃ front laid back, plan = front ++ laid :: back ∧ front.length = index ∧
      table = .part (front.flatMap Laid.sections).length ∧ item = laid.item ∧
      rest = withPairs front laid [] back := by
  obtain ⟨front, laid, back, rfl, hindex, rfl⟩ := exists_of_tablesUnder_layout htable
  have hlaid : laid.IsLegible := hplan laid (List.mem_append_right front List.mem_cons_self)
  obtain ⟨rfl, rfl⟩ := Prod.mk.inj (Option.some.inj
    (hremove.symm.trans (remove?_layout hlaid.nonempty)))
  exact ⟨front, laid, back, rfl, hindex, rfl, rfl, rfl⟩

/-! ## Putting columns in -/

/-- The elements of the columns of a table that are taken out. -/
lemma elements?_item (h : laid.entry.columns ≠ []) :
    laid.item.elements? = some (laid.entry.columns.map fun column => ⟨"", column.toInline⟩) := by
  obtain ⟨before, entry, blanks?⟩ := laid
  rcases blanks? with _ | ⟨blank, trailing⟩
  · have hitems : opensItems (entry.columns.map ColumnEntry.toSection) = true := by
      obtain ⟨first, rest, hcolumns⟩ := List.exists_cons_of_ne_nil h
      change entry.columns = first :: rest at hcolumns
      rw [hcolumns, List.map_cons, opensItems, List.all_map, Bool.and_eq_true, List.all_eq_true]
      exact ⟨rfl, fun _ _ => rfl⟩
    rw [Laid.item, Holding.elements?, if_pos hitems, List.map_map]
    rfl
  · rw [Laid.item, Holding.elements?]
    simp only [columnsPair, arrayPair, List.map_map]
    rfl

/-- **An array of columns** is put in. -/
theorem insert_withPairs (elements : List Element) (trailing : String) :
    (withPairs front laid [] back).insert (.part (front.flatMap Laid.sections).length) "columns"
        (.array elements trailing) =
      withPairs front laid [arrayPair "columns" elements trailing] back := by
  rw [withPairs, Document.insert, modifyPairs_part]
  rfl

/-- The columns of a table in an array. -/
lemma withPairs_columnsPair (blank trailing : String) :
    withPairs front laid [columnsPair blank trailing laid.entry.columns] back =
      layout (front ++ { laid with blanks? := some (blank, trailing) } :: back) :=
  (layout_append front { laid with blanks? := some (blank, trailing) } back).symm

/-- **What an array of columns says.** -/
theorem exists_entries?_withPairs (hfront : ∀ laid ∈ front, laid.IsLegible)
    (hback : ∀ laid ∈ back, laid.IsLegible) (laid : Laid) (elements : List Element)
    (trailing : String) :
    ∃ entries, (withPairs front laid [arrayPair "columns" elements trailing] back).entries? =
        some entries ∧
      entriesData entries = [("tables", .list (front.map (·.entry.toData) ++
        .table [("name", .text laid.entry.name),
          ("columns", .list (elements.map (·.value.data)))] :: back.map (·.entry.toData)))] := by
  have hdata : ∀ plan : List Laid,
      (plan.map Laid.node).map Node.data = plan.map (·.entry.toData) := by
    intro plan
    rw [List.map_map]
    exact List.map_congr_left fun laid _ => laid.data_node
  have hitem := addsItem_arrayPair laid.before laid.entry elements trailing
  have hsections : (withPairs front laid [arrayPair "columns" elements trailing] back).entries? =
      some (arrayOfTables "tables" (front.map Laid.node ++
        [laid.entry.toNode (.list false (elements.map Element.value))] ++ back.map Laid.node)) := by
    change (front.flatMap Laid.sections ++
      ([laid.entry.toSection laid.before [arrayPair "columns" elements trailing]] ++
        back.flatMap Laid.sections)).foldlM addSection? (arrayOfTables "tables" []) = _
    rw [List.foldlM_append, foldlM_flatMap_addsItem fun laid hlaid => (hfront laid hlaid).addsItem,
      Option.bind_eq_bind, Option.bind_some, List.foldlM_append, hitem, Option.bind_eq_bind,
      Option.bind_some, foldlM_flatMap_addsItem fun laid hlaid => (hback laid hlaid).addsItem]
    rfl
  refine ⟨_, hsections, ?_⟩
  have hempty : (front.map Laid.node ++
      [laid.entry.toNode (.list false (elements.map Element.value))] ++
        back.map Laid.node).isEmpty = false := by simp
  have htables := entriesData_tables (front.map Laid.node ++
    [laid.entry.toNode (.list false (elements.map Element.value))] ++ back.map Laid.node)
  rw [hempty, if_neg Bool.false_ne_true] at htables
  rw [htables, List.map_append, List.map_append, hdata, hdata, List.append_assoc]
  have hcolumns : (elements.map Element.value).map Node.data = elements.map (·.value.data) :=
    List.map_map
  simp only [TableEntry.toNode, List.map_cons, List.map_nil, Node.data, entriesData,
    itemsData_eq_map, hcolumns]
  rfl

end Edit

end BoundSql
