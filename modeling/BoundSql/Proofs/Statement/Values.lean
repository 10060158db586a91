import BoundSql.Proofs.Statement.Text

/-!
# Values never influence the text

Replacing the bound values of a description by other values, of whatever sort, changes the
parameters of its statement and nothing else: neither the text nor whether the compilation fails nor
the error with which it fails.

## Main definitions

* `BoundSql.Predicate.mapValues`, `BoundSql.Join.mapValues`, … — an expression with every bound
  value replaced.
* `BoundSql.Description.mapValues` — a description with every bound value replaced.
* `BoundSql.Statement.mapParams` — a statement with every parameter replaced.

## Main results

* `BoundSql.Predicate.text_mapValues`, `BoundSql.Predicate.sites_mapValues`, … — replacing values
  changes how the text spells them, and the values of the sites.
* `BoundSql.Description.build_mapValues` — the statement of a description with replaced values is
  its statement with replaced parameters.
-/

namespace BoundSql

/-! ## Replacing values -/

section Replace

variable (f : Value → Value)

/-- A site with its value replaced. -/
def Site.mapValue : Site → Site
  | .value v => .value (f v)
  | .fault e => .fault e

/-- A statement with every parameter replaced. -/
def Statement.mapParams (statement : Statement) : Statement :=
  { statement with params := statement.params.map f }

/-- An operand with its value replaced. -/
def Operand.mapValues : Operand → Operand
  | .column c => .column c
  | .value v => .value (f v)

/-- A comparison with every value replaced. -/
def Comparison.mapValues : Comparison → Comparison
  | .binary op left right => .binary op (left.mapValues f) (right.mapValues f)
  | .isNull c => .isNull c
  | .isNotNull c => .isNotNull c

namespace Predicate

mutual

/-- A predicate with every value replaced. -/
def mapValues : Predicate → Predicate
  | comparison leaf => comparison (leaf.mapValues f)
  | group connective members => group connective (mapMembers members)

/-- The members of a group with every value replaced. -/
def mapMembers : List Predicate → List Predicate
  | [] => []
  | member :: rest => member.mapValues :: mapMembers rest

end

/-- The members of a group are replaced one by one. -/
lemma mapMembers_eq_map (members : List Predicate) :
    mapMembers f members = members.map (mapValues f) := by
  induction members with
  | nil => rfl
  | cons member rest ih => rw [mapMembers, ih, List.map_cons]

end Predicate

/-- A join with every value replaced. -/
def Join.mapValues (join : Join) : Join := { join with condition := join.condition.mapValues f }

/-- An assignment with its value replaced. -/
def Assignment.mapValues (assignment : Assignment) : Assignment :=
  { assignment with value := f assignment.value }

/-- A read with every value replaced. -/
def SelectStatement.mapValues (s : SelectStatement) : SelectStatement :=
  { s with joins := s.joins.map (·.mapValues f), where? := s.where?.map (·.mapValues f) }

/-- An update with every value replaced. -/
def UpdateStatement.mapValues (s : UpdateStatement) : UpdateStatement :=
  { s with
    joins := s.joins.map (·.mapValues f)
    assignments := s.assignments.map (·.mapValues f)
    where? := s.where?.map (·.mapValues f) }

/-- A deletion with every value replaced. -/
def DeleteStatement.mapValues (s : DeleteStatement) : DeleteStatement :=
  { s with where? := s.where?.map (·.mapValues f) }

/-- An insertion with every value replaced. -/
def InsertStatement.mapValues (s : InsertStatement) : InsertStatement :=
  { s with rows := s.rows.map (·.map f) }

/-- A description with every bound value replaced. -/
def Description.mapValues : Description → Description
  | select s => select (s.mapValues f)
  | count s => count (s.mapValues f)
  | update s => update (s.mapValues f)
  | delete s => delete (s.mapValues f)
  | insert s => insert (s.mapValues f)

end Replace

/-! ## Sites -/

namespace Site

variable (f : Value → Value)

/-- Replacing values keeps the first fault. -/
lemma fault?_map_mapValue (sites : List Site) :
    fault? (sites.map (mapValue f)) = fault? sites := by
  induction sites with
  | nil => rfl
  | cons site sites ih => cases site <;> simp [mapValue, ih]

/-- Replacing values replaces the values of the sites. -/
lemma values_map_mapValue (sites : List Site) :
    values (sites.map (mapValue f)) = (values sites).map f := by
  induction sites with
  | nil => rfl
  | cons site sites ih => cases site <;> simp [mapValue, ih]

/-- The sites of replaced parts are the replaced sites of the parts. -/
lemma flatMap_map_mapValue {α : Type} {l : List α} {g : α → α} {s : α → List Site}
    (h : ∀ x, s (g x) = (s x).map (mapValue f)) :
    (l.map g).flatMap s = (l.flatMap s).map (mapValue f) := by
  rw [List.flatMap_map, List.map_flatMap]
  simp only [h]

end Site

/-! ## Expressions -/

section Expressions

variable (f : Value → Value) (spell : Value → String) (ctx : Context)

/-- A column has no value to replace. -/
@[simp] lemma ColumnRef.map_sites (column : ColumnRef) :
    (column.sites ctx).map (Site.mapValue f) = column.sites ctx := by
  unfold sites
  split <;> rfl

/-- Other values in an operand are other spellings in its text. -/
lemma Operand.text_mapValues (operand : Operand) :
    (operand.mapValues f).text spell ctx = operand.text (fun v => spell (f v)) ctx := by
  cases operand <;> rfl

/-- Other values in an operand are other values at its sites. -/
lemma Operand.sites_mapValues (operand : Operand) :
    (operand.mapValues f).sites ctx = (operand.sites ctx).map (Site.mapValue f) := by
  cases operand with
  | column c => exact (c.map_sites f ctx).symm
  | value v => rfl

/-- Other values in a comparison are other spellings in its text. -/
lemma Comparison.text_mapValues (comparison : Comparison) :
    (comparison.mapValues f).text spell ctx = comparison.text (fun v => spell (f v)) ctx := by
  cases comparison with
  | binary op left right =>
    rw [mapValues, text, text, left.text_mapValues, right.text_mapValues]
  | isNull c => rfl
  | isNotNull c => rfl

/-- Other values in a comparison are other values at its sites. -/
lemma Comparison.sites_mapValues (comparison : Comparison) :
    (comparison.mapValues f).sites ctx = (comparison.sites ctx).map (Site.mapValue f) := by
  cases comparison with
  | binary op left right =>
    rw [mapValues, sites, sites, left.sites_mapValues, right.sites_mapValues, List.map_append]
  | isNull c => exact (c.map_sites f ctx).symm
  | isNotNull c => exact (c.map_sites f ctx).symm

namespace Predicate

/-- Replacing values makes no group of a comparison, and no comparison of a group. -/
lemma enclose_mapValues (member : Predicate) (text : String) :
    (member.mapValues f).enclose text = member.enclose text := by
  cases member <;> rfl

mutual

/-- **The text of a predicate** changes in how it spells its values. -/
theorem text_mapValues (p : Predicate) :
    (p.mapValues f).text spell ctx = p.text (fun v => spell (f v)) ctx := by
  cases p with
  | comparison leaf => rw [mapValues, text, text, leaf.text_mapValues]
  | group connective members => rw [mapValues, text, text, memberTexts_mapMembers members]

/-- The texts of the members of a group change in how they spell their values. -/
theorem memberTexts_mapMembers (members : List Predicate) :
    memberTexts spell ctx (mapMembers f members) =
      memberTexts (fun v => spell (f v)) ctx members := by
  cases members with
  | nil => rfl
  | cons member rest =>
    rw [mapMembers, memberTexts, memberTexts, enclose_mapValues, text_mapValues member,
      memberTexts_mapMembers rest]

end

/-- A check of the size of a group has no value to replace. -/
@[simp] lemma map_aritySites (connective : Connective) (count : Nat) :
    (aritySites connective count).map (Site.mapValue f) = aritySites connective count := by
  unfold aritySites
  split <;> rfl

mutual

/-- **The sites of a predicate** change in their values. -/
theorem sites_mapValues (p : Predicate) :
    (p.mapValues f).sites ctx = (p.sites ctx).map (Site.mapValue f) := by
  cases p with
  | comparison leaf => rw [mapValues, sites, sites, leaf.sites_mapValues]
  | group connective members =>
    rw [mapValues, sites, sites, List.map_append, map_aritySites, memberSites_mapMembers members,
      mapMembers_eq_map, List.length_map]

/-- The sites of the members of a group change in their values. -/
theorem memberSites_mapMembers (members : List Predicate) :
    memberSites ctx (mapMembers f members) = (memberSites ctx members).map (Site.mapValue f) := by
  cases members with
  | nil => rfl
  | cons member rest =>
    rw [mapMembers, memberSites, memberSites, sites_mapValues member, memberSites_mapMembers rest,
      List.map_append]

end

end Predicate

/-- Replacing values keeps the joined table. -/
@[simp] lemma Join.other_mapValues (join : Join) : (join.mapValues f).other = join.other := rfl

/-- Other values in a join are other spellings in its text. -/
lemma Join.text_mapValues (join : Join) :
    (join.mapValues f).text spell ctx = join.text (fun v => spell (f v)) ctx := by
  unfold text mapValues
  rw [join.condition.text_mapValues]

/-- Other values in a join are other values at its sites. -/
lemma Join.sites_mapValues (join : Join) :
    (join.mapValues f).sites ctx = (join.sites ctx).map (Site.mapValue f) :=
  join.condition.sites_mapValues f ctx

/-- Another value in an assignment is another value at its site. -/
lemma Assignment.sites_mapValues (assignment : Assignment) :
    (assignment.mapValues f).sites ctx = (assignment.sites ctx).map (Site.mapValue f) := by
  unfold sites
  rw [List.map_append, ColumnRef.map_sites]
  rfl

/-- A projection has no value to replace. -/
lemma Projection.map_sites (projection : Projection) :
    (projection.sites ctx).map (Site.mapValue f) = projection.sites ctx := by
  have hlabel : ∀ key, (labelSites key).map (Site.mapValue f) = labelSites key := by
    intro key
    unfold labelSites
    split <;> rfl
  cases projection with
  | wildcard => rfl
  | column c => exact c.map_sites f ctx
  | map m => simp [sites, ProjectionMap.sites, FlatColumn.sites, List.map_flatMap, hlabel]

end Expressions

/-! ## Statements -/

section Clauses

variable (f : Value → Value) (spell : Value → String) (ctx : Context)

/-- Other values in a filter are other spellings in its line. -/
lemma whereTexts_mapValues (filter : Option Predicate) :
    whereTexts spell ctx (filter.map (·.mapValues f)) =
      whereTexts (fun v => spell (f v)) ctx filter := by
  cases filter with
  | none => rfl
  | some predicate => rw [Option.map_some, whereTexts, whereTexts, predicate.text_mapValues]

/-- Other values in a filter are other values at its sites. -/
lemma whereSites_mapValues (filter : Option Predicate) :
    whereSites ctx (filter.map (·.mapValues f)) =
      (whereSites ctx filter).map (Site.mapValue f) := by
  cases filter with
  | none => rfl
  | some predicate => exact predicate.sites_mapValues f ctx

/-- The order of joins does not depend on their values. -/
lemma joinOrderSites_mapValues (position : Nat) (joins : List Join) :
    joinOrderSites position (joins.map (·.mapValues f)) =
      (joinOrderSites position joins).map (Site.mapValue f) := by
  induction joins generalizing position with
  | nil => rfl
  | cons join rest ih =>
    by_cases h : join.other.index = position + 1
    · simp [joinOrderSites, h, ih]
    · simp [joinOrderSites, Site.mapValue, h, ih]

/-- Other values in joins are other spellings in their lines. -/
lemma joinTexts_mapValues (joins : List Join) :
    (joins.map (·.mapValues f)).map (·.text spell ctx) =
      joins.map (·.text (fun v => spell (f v)) ctx) := by
  rw [List.map_map]
  apply List.map_congr_left
  intro join _
  exact join.text_mapValues f spell ctx

/-- A statement assembled from replaced sites is the statement with replaced parameters. -/
lemma Statement.assemble_map (sites : List Site) (sql : String) :
    Statement.assemble (sites.map (Site.mapValue f)) sql =
      (Statement.assemble sites sql).map (Statement.mapParams f) := by
  unfold Statement.assemble
  rw [Site.fault?_map_mapValue, Site.values_map_mapValue]
  cases Site.fault? sites with
  | none => simp [Except.map, Statement.mapParams]
  | some e => rfl

end Clauses

namespace SelectStatement

variable (f : Value → Value) (spell : Value → String) (s : SelectStatement)

/-- A read with replaced values has as many joins. -/
@[simp] lemma context_mapValues : (s.mapValues f).context = s.context := by
  simp [context, mapValues]

/-- Other values in a source are other spellings in its lines. -/
lemma sourceTexts_mapValues :
    (s.mapValues f).sourceTexts spell = s.sourceTexts fun v => spell (f v) := by
  unfold sourceTexts
  rw [context_mapValues]
  simp only [mapValues, joinTexts_mapValues, whereTexts_mapValues]

/-- Other values in a source are other values at its sites. -/
lemma sourceSites_mapValues :
    (s.mapValues f).sourceSites = s.sourceSites.map (Site.mapValue f) := by
  unfold sourceSites
  rw [context_mapValues, List.map_append]
  simp only [mapValues, whereSites_mapValues]
  rw [Site.flatMap_map_mapValue f fun join => Join.sites_mapValues f s.context join]

/-- The lines of a window have no values. -/
lemma windowTexts_mapValues : (s.mapValues f).windowTexts = s.windowTexts := by
  unfold windowTexts
  rw [context_mapValues]
  rfl

/-- The sites of a window have no values. -/
lemma windowSites_mapValues :
    (s.mapValues f).windowSites = s.windowSites.map (Site.mapValue f) := by
  unfold windowSites
  rw [context_mapValues, List.map_flatMap]
  simp only [SortKey.sites, ColumnRef.map_sites]
  rfl

/-- The line of a projection has no values. -/
lemma projectionTexts_mapValues : (s.mapValues f).projectionTexts = s.projectionTexts := by
  unfold projectionTexts
  rw [context_mapValues]
  rfl

/-- The sites of a projection have no values. -/
lemma projectionSites_mapValues :
    (s.mapValues f).projectionSites = s.projectionSites.map (Site.mapValue f) := by
  unfold projectionSites
  rw [context_mapValues, List.map_flatMap]
  simp only [Projection.map_sites]
  rfl

/-- Other values in a read are other spellings in its lines. -/
lemma rowTexts_mapValues :
    (s.mapValues f).rowTexts spell = s.rowTexts fun v => spell (f v) := by
  unfold rowTexts
  rw [projectionTexts_mapValues, sourceTexts_mapValues, windowTexts_mapValues]

/-- Other values in a count are other spellings in its lines. -/
lemma countTexts_mapValues :
    (s.mapValues f).countTexts spell = s.countTexts fun v => spell (f v) := by
  have hwindowed : (s.mapValues f).isWindowed = s.isWindowed := rfl
  unfold countTexts
  rw [hwindowed, sourceTexts_mapValues, windowTexts_mapValues]

/-- Other values in a read are other values at its sites. -/
lemma rowSites_mapValues : (s.mapValues f).rowSites = s.rowSites.map (Site.mapValue f) := by
  have horder : joinOrderSites 0 (s.mapValues f).joins =
      (joinOrderSites 0 s.joins).map (Site.mapValue f) := joinOrderSites_mapValues f 0 s.joins
  unfold rowSites
  rw [horder, projectionSites_mapValues, sourceSites_mapValues, windowSites_mapValues]
  simp only [List.map_append]

/-- Other values in a count are other values at its sites. -/
lemma countSites_mapValues :
    (s.mapValues f).countSites = s.countSites.map (Site.mapValue f) := by
  have hwindowed : (s.mapValues f).isWindowed = s.isWindowed := rfl
  have horder : joinOrderSites 0 (s.mapValues f).joins =
      (joinOrderSites 0 s.joins).map (Site.mapValue f) := joinOrderSites_mapValues f 0 s.joins
  unfold countSites
  rw [horder, hwindowed, sourceSites_mapValues, windowSites_mapValues]
  split
  · simp only [List.map_append]
  · simp only [List.map_append, List.map_nil]

end SelectStatement

namespace UpdateStatement

variable (f : Value → Value) (spell : Value → String) (s : UpdateStatement)

/-- An update with replaced values has as many joins. -/
@[simp] lemma context_mapValues : (s.mapValues f).context = s.context := by
  simp [context, mapValues]

/-- Other values in an update are other spellings in its lines. -/
lemma texts_mapValues : (s.mapValues f).texts spell = s.texts fun v => spell (f v) := by
  have hassignments : (s.assignments.map (·.mapValues f)).map (·.text spell s.context) =
      s.assignments.map (·.text (fun v => spell (f v)) s.context) := by
    rw [List.map_map]
    rfl
  unfold texts
  rw [context_mapValues]
  simp only [mapValues, joinTexts_mapValues, whereTexts_mapValues, hassignments]

/-- Other values in an update are other values at its sites. -/
lemma sites_mapValues : (s.mapValues f).sites = s.sites.map (Site.mapValue f) := by
  unfold sites
  rw [context_mapValues]
  simp only [mapValues, List.map_append, joinOrderSites_mapValues, whereSites_mapValues]
  rw [Site.flatMap_map_mapValue f (Join.sites_mapValues f s.context),
    Site.flatMap_map_mapValue f (Assignment.sites_mapValues f s.context)]

end UpdateStatement

namespace DeleteStatement

variable (f : Value → Value) (spell : Value → String) (s : DeleteStatement)

/-- Other values in a deletion are other spellings in its lines. -/
lemma texts_mapValues : (s.mapValues f).texts spell = s.texts fun v => spell (f v) := by
  unfold texts mapValues
  rw [whereTexts_mapValues]

/-- Other values in a deletion are other values at its sites. -/
lemma sites_mapValues : (s.mapValues f).sites = s.sites.map (Site.mapValue f) :=
  whereSites_mapValues f .bare s.where?

end DeleteStatement

namespace InsertStatement

variable (f : Value → Value) (spell : Value → String) (s : InsertStatement)

/-- A row with replaced values is as long. -/
lemma rowAritySites_mapValues (expected row : Nat) (rows : List (List Value)) :
    rowAritySites expected row (rows.map (·.map f)) =
      (rowAritySites expected row rows).map (Site.mapValue f) := by
  induction rows generalizing row with
  | nil => rfl
  | cons values rest ih =>
    rw [List.map_cons, rowAritySites, rowAritySites, ih, List.length_map]
    split <;> rfl

/-- Other values in an insertion are other spellings in its lines. -/
lemma texts_mapValues : (s.mapValues f).texts spell = s.texts fun v => spell (f v) := by
  have hrows : (s.rows.map (·.map f)).map (tuple spell) =
      s.rows.map (tuple fun v => spell (f v)) := by
    rw [List.map_map]
    apply List.map_congr_left
    intro values _
    simp [tuple, Function.comp_def]
  unfold texts mapValues
  rw [hrows]

/-- Other values in an insertion are other values at its sites. -/
lemma sites_mapValues : (s.mapValues f).sites = s.sites.map (Site.mapValue f) := by
  have hrow : ∀ values : List Value,
      (values.map f).map Site.value = (values.map Site.value).map (Site.mapValue f) := by
    intro values
    rw [List.map_map, List.map_map]
    rfl
  unfold sites
  rw [List.map_append]
  simp only [mapValues, rowAritySites_mapValues]
  rw [Site.flatMap_map_mapValue f hrow]

end InsertStatement

namespace Description

variable (f : Value → Value)

/-- **The text of a description** changes in how it spells its values. -/
theorem text_mapValues (spell : Value → String) (d : Description) :
    (d.mapValues f).text spell = d.text fun v => spell (f v) := by
  unfold text
  congr 1
  cases d with
  | select s => exact s.rowTexts_mapValues f spell
  | count s => exact s.countTexts_mapValues f spell
  | update s => exact s.texts_mapValues f spell
  | delete s => exact s.texts_mapValues f spell
  | insert s => exact s.texts_mapValues f spell

/-- **The sites of a description** change in their values. -/
theorem sites_mapValues (d : Description) :
    (d.mapValues f).sites = d.sites.map (Site.mapValue f) := by
  cases d with
  | select s => exact s.rowSites_mapValues f
  | count s => exact s.countSites_mapValues f
  | update s => exact s.sites_mapValues f
  | delete s => exact s.sites_mapValues f
  | insert s => exact s.sites_mapValues f

/-- **Values never influence the text.** Compiling a description with its bound values replaced
fails with the error with which compiling the description itself fails, and yields the same text
otherwise, the parameters being replaced one by one and in place.

**Proof sketch.** A compilation assembles the sites and the text with placeholders
(`build_eq_assemble`). Replacing values keeps the faults among the sites and replaces their values
(`sites_mapValues`), and it keeps the text because a placeholder tells nothing about its value
(`text_mapValues`). -/
theorem build_mapValues (d : Description) :
    (d.mapValues f).build = d.build.map (Statement.mapParams f) := by
  have htext : (d.mapValues f).text Value.placeholder = d.text Value.placeholder :=
    text_mapValues f Value.placeholder d
  rw [build_eq_assemble, build_eq_assemble, sites_mapValues, htext, Statement.assemble_map]

end Description

end BoundSql
