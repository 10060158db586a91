import BoundSql.Proofs.Statement.Placeholders

/-!
# Alignment of placeholders and parameters

If no table and no column has a question mark in its name, the question marks of a compiled
statement are exactly the places of its bound values, in the order of the parameters. Output keys
may hold anything: a key with a question mark is refused.

## Main results

* `BoundSql.Predicate.text_fills`, `BoundSql.Join.text_fills`, … — filling the text of an expression
  with placeholders yields its text with the values spelled in place.
* `BoundSql.Description.texts_fill` — the same for the lines of every kind of statement.
* `BoundSql.Description.inline?_of_build` — a statement has one parameter for each question mark,
  and inlines to the text of its description.
-/

namespace BoundSql

open Text

/-! ## Expressions -/

section Expressions

variable (spell : Value → String) (ctx : Context)

/-- There is no question mark in the alias of a table. -/
lemma isPlain_tableAlias (index : Nat) : IsPlain (tableAlias index) := by
  unfold tableAlias
  rw [isPlain_append]
  exact ⟨by decide, isPlain_repr (index + 1)⟩

/-- A table is bound to its alias by a plain text. -/
lemma TableRef.isPlain_access {table : TableRef} (h : IsPlain table.name) :
    IsPlain table.access := by
  unfold access
  rw [isPlain_append, isPlain_append]
  exact ⟨⟨h, by decide⟩, isPlain_tableAlias table.index⟩

/-- The text of a column is as plain as its name. -/
lemma ColumnRef.isPlain_text {column : ColumnRef} (h : IsPlain column.name) :
    IsPlain (column.text ctx) := by
  unfold text
  split
  · rw [isPlain_append, isPlain_append]
    exact ⟨⟨isPlain_tableAlias column.table, by decide⟩, h⟩
  · exact h

/-- Values are spelled in an operand where its placeholders stand. -/
lemma Operand.text_fills {operand : Operand} (h : ∀ c ∈ operand.columns, IsPlain c.name) :
    Fills spell (operand.text Value.placeholder ctx) (Site.values (operand.sites ctx))
      (operand.text spell ctx) := by
  cases operand with
  | column c =>
    rw [sites, c.values_sites]
    exact (c.isPlain_text ctx (h c (List.mem_singleton_self c))).fills
  | value v => exact fills_placeholder v

/-- There is no question mark in an operator. -/
lemma CompareOp.isPlain_symbol (op : CompareOp) : IsPlain op.symbol := by
  cases op <;> decide

/-- Values are spelled in a comparison where its placeholders stand. -/
lemma Comparison.text_fills {comparison : Comparison}
    (h : ∀ c ∈ comparison.columns, IsPlain c.name) :
    Fills spell (comparison.text Value.placeholder ctx) (Site.values (comparison.sites ctx))
      (comparison.text spell ctx) := by
  cases comparison with
  | binary op left right =>
    rw [columns, List.forall_mem_append] at h
    obtain ⟨hleft, hright⟩ := h
    have hoperator : Fills spell
        (left.text Value.placeholder ctx ++ " " ++ op.symbol ++ " ") (Site.values (left.sites ctx))
        (left.text spell ctx ++ " " ++ op.symbol ++ " ") :=
      (((left.text_fills spell ctx hleft).append_plain (by decide)).append_plain
        op.isPlain_symbol).append_plain (by decide)
    rw [sites, Site.values_append]
    exact hoperator.append (right.text_fills spell ctx hright)
  | isNull c =>
    have hcolumn := c.isPlain_text ctx (h c (List.mem_singleton_self c))
    have htest : IsPlain s!"{c.text ctx} IS NULL" := isPlain_append.2 ⟨hcolumn, by decide⟩
    rw [sites, c.values_sites]
    exact htest.fills
  | isNotNull c =>
    have hcolumn := c.isPlain_text ctx (h c (List.mem_singleton_self c))
    have htest : IsPlain s!"{c.text ctx} IS NOT NULL" := isPlain_append.2 ⟨hcolumn, by decide⟩
    rw [sites, c.values_sites]
    exact htest.fills

namespace Predicate

/-- Parentheses around a member are plain. -/
lemma enclose_fills {member : Predicate} {a x : String} {vs : List Value}
    (h : Fills spell a vs x) : Fills spell (member.enclose a) vs (member.enclose x) := by
  unfold enclose
  split
  · exact (IsPlain.append_fills (by decide) h).append_plain (by decide)
  · exact h

mutual

/-- **The text of a predicate** with placeholders is filled by the values of its sites. -/
theorem text_fills (p : Predicate) (h : ∀ c ∈ p.columns, IsPlain c.name) :
    Fills spell (p.text Value.placeholder ctx) (Site.values (p.sites ctx)) (p.text spell ctx) := by
  cases p with
  | comparison leaf =>
    rw [columns] at h
    rw [text, text, sites]
    exact leaf.text_fills spell ctx h
  | group connective members =>
    rw [columns] at h
    have hmark : IsPlain s!" {connective.keyword} " := by cases connective <;> decide
    rw [text, text, sites, Site.values_append, values_aritySites, List.nil_append]
    exact FillsEach.intercalate hmark (memberTexts_fill members h)

/-- The texts of the members of a group are filled one by one. -/
theorem memberTexts_fill (members : List Predicate)
    (h : ∀ c ∈ memberColumns members, IsPlain c.name) :
    FillsEach spell (memberTexts Value.placeholder ctx members)
      (Site.values (memberSites ctx members)) (memberTexts spell ctx members) := by
  cases members with
  | nil => exact .nil
  | cons member rest =>
    rw [memberColumns, List.forall_mem_append] at h
    obtain ⟨hmember, hrest⟩ := h
    rw [memberTexts, memberTexts, memberSites, Site.values_append]
    apply FillsEach.cons
    · exact enclose_fills spell (text_fills member hmember)
    · exact memberTexts_fill rest hrest

end

end Predicate

/-- A leaf whose key is no fault has a plain text. -/
lemma FlatColumn.isPlain_text {leaf : FlatColumn} (h : IsPlain leaf.column.name)
    (hlabel : Site.fault? (labelSites leaf.label) = none) : IsPlain (leaf.text ctx) := by
  have hkey : IsPlain leaf.label := by
    unfold labelSites isLabel at hlabel
    split at hlabel
    · rename_i hok
      simpa [IsPlain] using (Bool.and_eq_true_iff.1 hok).2
    · simp at hlabel
  have hcolumn := leaf.column.isPlain_text ctx h
  unfold text
  rw [isPlain_append, isPlain_append]
  exact ⟨⟨hcolumn, by decide⟩, isPlain_doubled hkey⟩

/-- A key binds nothing. -/
@[simp] lemma values_labelSites (key : String) : Site.values (labelSites key) = [] := by
  unfold labelSites
  split <;> rfl

/-- A projection binds nothing. -/
@[simp] lemma Projection.values_sites (projection : Projection) :
    Site.values (projection.sites ctx) = [] := by
  cases projection with
  | wildcard => rfl
  | column c => exact c.values_sites ctx
  | map m => simp [sites, ProjectionMap.sites, FlatColumn.sites]

/-- A projection without faults has a plain text. -/
lemma Projection.isPlain_text {projection : Projection}
    (h : ∀ c ∈ projection.columns, IsPlain c.name)
    (hfault : Site.fault? (projection.sites ctx) = none) : IsPlain (projection.text ctx) := by
  cases projection with
  | wildcard => exact (by decide : IsPlain "*")
  | column c => exact c.isPlain_text ctx (h c (List.mem_singleton_self c))
  | map m =>
    apply IsPlain.intercalate (by decide)
    intro text htext
    obtain ⟨leaf, hleaf, rfl⟩ := List.mem_map.1 htext
    have hsites := Site.fault?_flatMap_eq_none.1 hfault leaf hleaf
    have hlabel : Site.fault? (labelSites leaf.label) = none :=
      (Site.fault?_append_eq_none.1 hsites).2
    exact leaf.isPlain_text ctx (h leaf.column (List.mem_map_of_mem hleaf)) hlabel

/-- The text of a sort key is as plain as the name of its column. -/
lemma SortKey.isPlain_text {key : SortKey} (h : IsPlain key.column.name) :
    IsPlain (key.text ctx) := by
  have hdirection : IsPlain key.direction.keyword := by cases key.direction <;> decide
  unfold text
  rw [isPlain_append, isPlain_append]
  exact ⟨⟨key.column.isPlain_text ctx h, by decide⟩, hdirection⟩

/-- Values are spelled in a join where the placeholders of its condition stand. -/
lemma Join.text_fills {join : Join} (h : ∀ name ∈ join.names, IsPlain name) :
    Fills spell (join.text Value.placeholder ctx) (Site.values (join.sites ctx))
      (join.text spell ctx) := by
  rw [names, List.forall_mem_cons] at h
  obtain ⟨htable, hcondition⟩ := h
  have hhead : IsPlain s!"INNER JOIN {join.other.access} ON " := by
    rw [isPlain_append, isPlain_append]
    exact ⟨⟨by decide, TableRef.isPlain_access htable⟩, by decide⟩
  exact hhead.append_fills (join.condition.text_fills spell ctx (List.forall_mem_map.1 hcondition))

/-- The value of an assignment is spelled where its placeholder stands. -/
lemma Assignment.text_fills {assignment : Assignment} (h : IsPlain assignment.column.name) :
    Fills spell (assignment.text Value.placeholder ctx) (Site.values (assignment.sites ctx))
      (assignment.text spell ctx) := by
  have hhead : IsPlain s!"{assignment.column.text ctx} = " :=
    isPlain_append.2 ⟨assignment.column.isPlain_text ctx h, by decide⟩
  rw [sites, Site.values_append, ColumnRef.values_sites]
  exact hhead.append_fills (fills_placeholder assignment.value)

end Expressions

/-! ## Clauses -/

section Clauses

variable (spell : Value → String) (ctx : Context)

/-- Values are spelled in joins, one join after the other. -/
lemma joinTexts_fill {joins : List Join} (h : ∀ name ∈ joins.flatMap (·.names), IsPlain name) :
    FillsEach spell (joins.map (·.text Value.placeholder ctx))
      (Site.values (joins.flatMap (·.sites ctx))) (joins.map (·.text spell ctx)) := by
  rw [Site.values_flatMap]
  apply FillsEach.map
  intro join hjoin
  have hnames : ∀ name ∈ join.names, IsPlain name := by
    intro name hname
    exact h name (List.mem_flatMap.2 ⟨join, hjoin, hname⟩)
  exact join.text_fills spell ctx hnames

/-- Values are spelled in the line of a filter. -/
lemma whereTexts_fill {filter : Option Predicate}
    (h : ∀ name ∈ filter.toList.flatMap (·.names), IsPlain name) :
    FillsEach spell (whereTexts Value.placeholder ctx filter)
      (Site.values (whereSites ctx filter)) (whereTexts spell ctx filter) := by
  cases filter with
  | none => exact .nil
  | some predicate =>
    have hnames : ∀ c ∈ predicate.columns, IsPlain c.name := by
      intro c hc
      apply h c.name
      simpa [Predicate.names] using ⟨c, hc, rfl⟩
    have hkeyword : IsPlain "WHERE " := by decide
    exact .single (hkeyword.append_fills (predicate.text_fills spell ctx hnames))

/-- A list behind a keyword is filled if its members are. -/
lemma listTexts_fill {keyword : String} (hkeyword : IsPlain keyword) {as xs : List String}
    {vs : List Value} (h : FillsEach spell as vs xs) :
    FillsEach spell (listTexts keyword as) vs (listTexts keyword xs) := by
  cases h with
  | nil => exact .nil
  | cons head tail =>
    have hhead : IsPlain s!"{keyword} " := isPlain_append.2 ⟨hkeyword, by decide⟩
    have hlist := FillsEach.intercalate (by decide : IsPlain ", ") (.cons head tail)
    exact .single (hhead.append_fills hlist)

/-- Plain lines bind nothing. -/
lemma fillsEach_of_isPlain {texts : List String} (h : ∀ text ∈ texts, IsPlain text) :
    FillsEach spell texts [] texts := by
  induction texts with
  | nil => exact .nil
  | cons text rest ih =>
    rw [List.forall_mem_cons] at h
    obtain ⟨htext, hrest⟩ := h
    exact FillsEach.plain_cons htext (ih hrest)

end Clauses

/-! ## Statements -/

namespace SelectStatement

variable (spell : Value → String) (s : SelectStatement)

/-- There are no placeholders in a projection. -/
lemma projectionTexts_fill (h : ∀ name ∈ s.projection.toList.flatMap (·.names), IsPlain name)
    (hfault : Site.fault? s.projectionSites = none) :
    FillsEach spell s.projectionTexts (Site.values s.projectionSites) s.projectionTexts := by
  unfold projectionTexts projectionSites at *
  cases hp : s.projection with
  | none => exact .nil
  | some projection =>
    rw [hp] at h hfault
    have hnames : ∀ c ∈ projection.columns, IsPlain c.name := by
      intro c hc
      apply h c.name
      simpa [Projection.names] using ⟨c, hc, rfl⟩
    have hplain := projection.isPlain_text s.context hnames (by simpa using hfault)
    have hline : IsPlain s!"SELECT {projection.text s.context}" :=
      isPlain_append.2 ⟨by decide, hplain⟩
    simpa using FillsEach.single hline.fills

/-- Values are spelled in the joins and the filter of a read. -/
lemma sourceTexts_fill (h : ∀ name ∈ s.sourceNames, IsPlain name) :
    FillsEach spell (s.sourceTexts Value.placeholder) (Site.values s.sourceSites)
      (s.sourceTexts spell) := by
  simp only [sourceNames, List.mem_append, or_imp, forall_and] at h
  obtain ⟨⟨htable, hjoins⟩, hfilter⟩ := h
  have hfrom : ∀ text ∈ (s.table.map fun table => s!"FROM {table} t1").toList, IsPlain text := by
    intro text htext
    obtain ⟨table, hname, rfl⟩ := Option.map_eq_some_iff.1 (Option.mem_toList.1 htext)
    rw [isPlain_append, isPlain_append]
    exact ⟨⟨by decide, htable table (Option.mem_toList.2 hname)⟩, by decide⟩
  unfold sourceTexts sourceSites
  rw [Site.values_append]
  exact ((fillsEach_of_isPlain spell hfrom).append
    (joinTexts_fill spell s.context hjoins)).append (whereTexts_fill spell s.context hfilter)

/-- There are no placeholders in the lines of a window. -/
lemma windowTexts_fill (h : ∀ name ∈ s.orderBy.map (·.column.name), IsPlain name) :
    FillsEach spell s.windowTexts (Site.values s.windowSites) s.windowTexts := by
  have hvalues : Site.values s.windowSites = [] := by
    simp [windowSites, SortKey.sites]
  have hkeys : ∀ text ∈ s.orderBy.map (·.text s.context), IsPlain text := by
    intro text htext
    obtain ⟨key, hkey, rfl⟩ := List.mem_map.1 htext
    exact key.isPlain_text s.context (h _ (List.mem_map_of_mem hkey))
  have hnumber : ∀ (keyword : String), IsPlain keyword → ∀ (count? : Option Nat),
      ∀ text ∈ (count?.map fun count => s!"{keyword} {count}").toList, IsPlain text := by
    intro keyword hkeyword count? text htext
    obtain ⟨count, -, rfl⟩ := Option.map_eq_some_iff.1 (Option.mem_toList.1 htext)
    rw [isPlain_append, isPlain_append]
    exact ⟨⟨hkeyword, by decide⟩, isPlain_repr count⟩
  rw [hvalues]
  unfold windowTexts
  exact ((listTexts_fill spell (by decide) (fillsEach_of_isPlain spell hkeys)).append
    (fillsEach_of_isPlain spell (hnumber "LIMIT" (by decide) s.limit?))).append
    (fillsEach_of_isPlain spell (hnumber "OFFSET" (by decide) s.offset?))

/-- Values are spelled in the lines of a read. -/
lemma rowTexts_fill (h : ∀ name ∈ s.names, IsPlain name)
    (hfault : Site.fault? s.rowSites = none) :
    FillsEach spell (s.rowTexts Value.placeholder) (Site.values s.rowSites)
      (s.rowTexts spell) := by
  simp only [names, List.forall_mem_append] at h
  obtain ⟨⟨hselected, hnames⟩, hkeys⟩ := h
  have hsites : Site.fault? s.projectionSites = none :=
    (Site.fault?_append_eq_none.1 (Site.fault?_append_eq_none.1 hfault).2).1
  have hprojection := s.projectionTexts_fill spell hselected hsites
  have hwindow := s.windowTexts_fill spell hkeys
  unfold rowTexts rowSites
  rw [Site.values_append, values_joinOrderSites, List.nil_append, Site.values_append,
    Site.values_append, ← List.append_assoc]
  exact (hprojection.append (s.sourceTexts_fill spell hnames)).append hwindow

/-- Values are spelled in the lines of a count. -/
lemma countTexts_fill (h : ∀ name ∈ s.countNames, IsPlain name) :
    FillsEach spell (s.countTexts Value.placeholder) (Site.values s.countSites)
      (s.countTexts spell) := by
  rw [countNames, List.forall_mem_append] at h
  obtain ⟨hnames, hkeys⟩ := h
  have hsource := s.sourceTexts_fill spell hnames
  have hhead : FillsEach spell ["SELECT COUNT(*) FROM (", "SELECT 1"] []
      ["SELECT COUNT(*) FROM (", "SELECT 1"] := fillsEach_of_isPlain spell (by decide)
  have hlast : FillsEach spell [") counted"] [] [") counted"] :=
    fillsEach_of_isPlain spell (by decide)
  unfold countTexts countSites
  rw [Site.values_append, values_joinOrderSites, List.nil_append, Site.values_append]
  split
  next hwindowed =>
    rw [if_pos hwindowed] at hkeys
    have hall := ((hhead.append hsource).append (s.windowTexts_fill spell hkeys)).append hlast
    rwa [List.append_nil, List.nil_append] at hall
  next =>
    rw [Site.values_nil, List.append_nil]
    exact FillsEach.plain_cons (by decide) hsource

end SelectStatement

/-- Values are spelled in the lines of an update. -/
lemma UpdateStatement.texts_fill (spell : Value → String) {s : UpdateStatement}
    (h : ∀ name ∈ s.names, IsPlain name) :
    FillsEach spell (s.texts Value.placeholder) (Site.values s.sites) (s.texts spell) := by
  simp only [names, List.mem_append, List.mem_cons, or_imp, forall_and, forall_eq] at h
  obtain ⟨⟨⟨htable, hjoins⟩, hcolumns⟩, hfilter⟩ := h
  have hhead : IsPlain s!"UPDATE {TableRef.access ⟨0, s.table⟩}" :=
    isPlain_append.2 ⟨by decide, TableRef.isPlain_access htable⟩
  have hassignments : FillsEach spell (s.assignments.map (·.text Value.placeholder s.context))
      (s.assignments.flatMap fun a => Site.values (a.sites s.context))
      (s.assignments.map (·.text spell s.context)) := by
    apply FillsEach.map
    intro a ha
    exact a.text_fills spell s.context (hcolumns _ (List.mem_map_of_mem ha))
  unfold texts sites
  rw [Site.values_append, values_joinOrderSites, List.nil_append, Site.values_append,
    Site.values_append, ← List.append_assoc, Site.values_flatMap (l := s.assignments)]
  exact ((FillsEach.plain_cons hhead (joinTexts_fill spell s.context hjoins)).append
    (listTexts_fill spell (by decide) hassignments)).append
    (whereTexts_fill spell s.context hfilter)

/-- Values are spelled in the lines of a deletion. -/
lemma DeleteStatement.texts_fill (spell : Value → String) {s : DeleteStatement}
    (h : ∀ name ∈ s.names, IsPlain name) :
    FillsEach spell (s.texts Value.placeholder) (Site.values s.sites) (s.texts spell) := by
  rw [names, List.forall_mem_cons] at h
  obtain ⟨htable, hfilter⟩ := h
  have hhead : IsPlain s!"DELETE FROM {s.table}" := isPlain_append.2 ⟨by decide, htable⟩
  exact FillsEach.plain_cons hhead (whereTexts_fill spell .bare hfilter)

/-- Values are spelled in the lines of an insertion. -/
lemma InsertStatement.texts_fill (spell : Value → String) {s : InsertStatement}
    (h : ∀ name ∈ s.names, IsPlain name) :
    FillsEach spell (s.texts Value.placeholder) (Site.values s.sites) (s.texts spell) := by
  rw [names, List.forall_mem_cons] at h
  obtain ⟨htable, hnames⟩ := h
  have hcolumns : IsPlain (commaList s.columns) := IsPlain.intercalate (by decide) hnames
  have hhead : IsPlain s!"{s.mode.keyword} {s.table} ({commaList s.columns})" := by
    have hkeyword : IsPlain s.mode.keyword := by cases s.mode <;> decide
    simp only [isPlain_append]
    exact ⟨⟨⟨⟨⟨hkeyword, by decide⟩, htable⟩, by decide⟩, hcolumns⟩, by decide⟩
  have htuple : ∀ values : List Value,
      Fills spell (tuple Value.placeholder values) values (tuple spell values) := by
    intro values
    have hvalues : FillsEach spell (values.map Value.placeholder)
        (values.flatMap fun v => [v]) (values.map spell) := by
      apply FillsEach.map
      intro v _
      exact fills_placeholder v
    rw [List.flatMap_singleton'] at hvalues
    have hopen : IsPlain "(" := by decide
    have hlist := FillsEach.intercalate (by decide : IsPlain ", ") hvalues
    exact (hopen.append_fills hlist).append_plain (by decide)
  have hrows : FillsEach spell (s.rows.map (tuple Value.placeholder)) (s.rows.flatMap id)
      (s.rows.map (tuple spell)) := by
    apply FillsEach.map
    intro values _
    exact htuple values
  have hsites : ∀ values : List Value, Site.values (values.map .value) = values := by
    intro values
    induction values with
    | nil => rfl
    | cons v values ih => rw [List.map_cons, Site.values_value_cons, ih]
  unfold texts sites
  rw [Site.values_append, values_rowAritySites, List.nil_append, Site.values_flatMap]
  simp only [hsites]
  exact FillsEach.plain_cons hhead (listTexts_fill spell (by decide) hrows)

namespace Description

/-- **The lines of a description** without faults are filled, each with its values. -/
theorem texts_fill (spell : Value → String) {d : Description}
    (h : ∀ name ∈ d.names, IsPlain name) (hfault : Site.fault? d.sites = none) :
    FillsEach spell (d.texts Value.placeholder) (Site.values d.sites) (d.texts spell) := by
  cases d with
  | select s => exact s.rowTexts_fill spell h hfault
  | count s => exact s.countTexts_fill spell h
  | update s => exact s.texts_fill spell h
  | delete s => exact s.texts_fill spell h
  | insert s => exact s.texts_fill spell h

/-- The text of a description without faults is filled with its values. -/
lemma text_fills (spell : Value → String) {d : Description}
    (h : ∀ name ∈ d.names, IsPlain name) (hfault : Site.fault? d.sites = none) :
    Fills spell (d.text Value.placeholder) (Site.values d.sites) (d.text spell) :=
  FillsEach.intercalate (by decide) (texts_fill spell h hfault)

/-- A description without faults compiles, to one parameter for each question mark. -/
lemma build_of_fault?_eq_none {d : Description} (h : ∀ name ∈ d.names, IsPlain name)
    (hfault : Site.fault? d.sites = none) :
    ∃ statement, d.build = .ok statement ∧ statement.placeholders = statement.params.size :=
  ⟨_, build_eq_ok_iff.2 ⟨hfault, rfl⟩,
    count_of_fill?_eq_some (text_fills Value.placeholder h hfault)⟩

/-- **Alignment.** A statement compiled from a description whose tables and columns have no question
mark in their names has one parameter for each question mark. Spelling the `i`-th parameter in place
of the `i`-th question mark, in whatever way values are spelled (`Value.display` is one), yields the
text that the description has with its values spelled where they stand. So each parameter is the
value whose own place is that question mark.

**Proof sketch.** The statement has the text with placeholders and the values of the sites
(`build_eq_ok_iff`). Line by line these values fill the text with placeholders up to the text with
the values spelled in place (`texts_fill`), and line ends are plain. -/
theorem inline?_of_build (d : Description) (h : ∀ name ∈ d.names, '?' ∉ name.toList)
    {statement : Statement} (hbuild : d.build = .ok statement) :
    statement.placeholders = statement.params.size ∧
      ∀ spell : Value → String, statement.inline? spell = some (d.text spell) := by
  obtain ⟨hfault, rfl⟩ := build_eq_ok_iff.1 hbuild
  refine ⟨?_, fun spell => ?_⟩
  · exact count_of_fill?_eq_some (text_fills Value.placeholder h hfault)
  · have hfill : fill? spell (d.text Value.placeholder).toList (Site.values d.sites) =
        some (d.text spell).toList := text_fills spell h hfault
    simp [Statement.inline?, hfill]

/-- A read with a join, nested groups, a text with a question mark, a quoted key and a window. -/
def sampleRead : SelectStatement where
  projection := some (.map ⟨[("a\"b", .column ⟨0, "id"⟩)]⟩)
  table := some "blog"
  joins :=
    [⟨⟨1, "authors"⟩, .comparison (.binary .equals (.value (.integer 7)) (.column ⟨1, "id"⟩))⟩]
  where? := some (.group .and
    [.comparison (.binary .notEquals (.column ⟨0, "title"⟩) (.value (.text "why?"))),
      .group .or [.comparison (.isNull ⟨1, "name"⟩),
        .comparison (.binary .lessThan (.column ⟨1, "rank"⟩) (.value (.bool true)))]])
  orderBy := [⟨⟨0, "id"⟩, .descending⟩]
  limit? := some 10

/-- A read with values in a join and in its filter, one of them with a question mark in it. -/
theorem inline?_of_build_sampleRead :
    ∃ statement, (select sampleRead).build = .ok statement ∧
      statement.params = #[.integer 7, .text "why?", .bool true] ∧
      statement.placeholders = statement.params.size ∧
      statement.inline? Value.display = some
        ("SELECT t1.id AS \"a\"\"b\"\nFROM blog t1\nINNER JOIN authors t2 ON 7 = t2.id\n" ++
          "WHERE t1.title <> 'why?' AND (t2.name IS NULL OR t2.rank < true)\n" ++
          "ORDER BY t1.id DESC\nLIMIT 10") :=
  have h := inline?_of_build (select sampleRead) (by decide) rfl
  ⟨_, rfl, rfl, h.1, (h.2 Value.display).trans (by decide +kernel)⟩

end Description

end BoundSql
