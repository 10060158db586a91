import BoundSql.Proofs.Expr.Text
import BoundSql.Statement.Delete
import BoundSql.Statement.Insert
import BoundSql.Statement.Select
import BoundSql.Statement.Update

/-!
# Texts and sites of statements

The text of a description as a function of the way in which bound values are spelled, and the sites
that its compilation passes, for every kind of statement. The order of joins and the sizes of rows
are checked before anything is compiled, so their faults are sites in front of all others.

## Main definitions

* `BoundSql.Description` — a description of any kind of statement.
* `BoundSql.Description.build` — its compilation.
* `BoundSql.Description.text` — its text, the values spelled as told.
* `BoundSql.Description.sites` — the values it binds and the faults it has, in order.
* `BoundSql.Statement.assemble` — the statement that some sites and a text make.

## Main results

* `BoundSql.Description.build_eq_assemble` — every compilation assembles the sites and the text with
  placeholders of its description.
-/

namespace BoundSql

open Compile

/-! ## Assembling a statement -/

/-- The statement of a text and of the values bound at some sites, or the first fault of these. -/
def Statement.assemble (sites : List Site) (sql : String) : Except CompileError Statement :=
  match Site.fault? sites with
  | none => .ok ⟨sql, (Site.values sites).toArray⟩
  | some e => .error e

/-- A statement is assembled from the sites and the texts of its lines. -/
lemma Statement.ofLines_eq_assemble {lines : Compile (List String)} {sites : List Site}
    {texts : List String} (h : lines.Visits sites texts) :
    Statement.ofLines lines = Statement.assemble sites (String.intercalate "\n" texts) := by
  unfold Statement.ofLines Statement.assemble
  rw [h #[]]
  cases hfault : Site.fault? sites with
  | none => rw [outcome_of_fault?_eq_none texts hfault, Array.empty_append]
  | some e =>
    obtain ⟨after, he⟩ := outcome_of_fault?_eq_some texts hfault #[]
    rw [he]

/-- The verdict of a check that has the given faults. -/
def Site.verdict (sites : List Site) : Except CompileError Unit :=
  match Site.fault? sites with
  | none => .ok ()
  | some e => .error e

/-- A check in front of a compilation puts its sites in front of the others. -/
lemma Statement.assemble_append {checks sites : List Site} (h : Site.values checks = [])
    (sql : String) :
    (do Site.verdict checks; Statement.assemble sites sql) =
      Statement.assemble (checks ++ sites) sql := by
  unfold Site.verdict Statement.assemble
  cases hc : Site.fault? checks with
  | none =>
    have hfault : Site.fault? (checks ++ sites) = Site.fault? sites := by
      unfold Site.fault? at hc ⊢
      rw [List.findSome?_append, hc, Option.none_or]
    rw [hfault, Site.values_append, h, List.nil_append]
    rfl
  | some e =>
    have hfault : Site.fault? (checks ++ sites) = some e := by
      unfold Site.fault? at hc ⊢
      rw [List.findSome?_append, hc, Option.some_or]
    rw [hfault]
    rfl

/-! ## Clauses -/

section Clauses

variable (spell : Value → String) (ctx : Context)

/-- The faults of the order of joins, the first of which stands at `position`. -/
def joinOrderSites (position : Nat) : List Join → List Site
  | [] => []
  | join :: rest =>
    if join.other.index = position + 1 then joinOrderSites (position + 1) rest
    else .fault (.joinOrder position (position + 1) join.other.index) ::
      joinOrderSites (position + 1) rest

/-- Misplaced joins are no values. -/
lemma values_joinOrderSites (position : Nat) (joins : List Join) :
    Site.values (joinOrderSites position joins) = [] := by
  induction joins generalizing position with
  | nil => rfl
  | cons join rest ih =>
    rw [joinOrderSites]
    split <;> simp [ih]

/-- The check of the joins reports the first misplaced one. -/
lemma checkJoinsFrom_eq_verdict (position : Nat) (joins : List Join) :
    checkJoinsFrom position joins = Site.verdict (joinOrderSites position joins) := by
  induction joins generalizing position with
  | nil => rfl
  | cons join rest ih =>
    rw [checkJoinsFrom, joinOrderSites]
    split
    · exact ih (position + 1)
    · rfl

/-- The lines of joins visit the sites of their conditions. -/
lemma joinLines_visits (joins : List Join) :
    (joinLines ctx joins).Visits (joins.flatMap (·.sites ctx))
      (joins.map (·.text Value.placeholder ctx)) := by
  apply Visits.mapM
  intro join _
  exact join.compile_visits ctx

/-- The `WHERE` line, if there is a filter. -/
def whereTexts : Option Predicate → List String
  | some predicate => [s!"WHERE {predicate.text spell ctx}"]
  | none => []

/-- The sites of a filter. -/
def whereSites : Option Predicate → List Site
  | some predicate => predicate.sites ctx
  | none => []

/-- The line of a filter visits the sites of the filter. -/
lemma whereLines_visits (filter : Option Predicate) :
    (whereLines ctx filter).Visits (whereSites ctx filter)
      (whereTexts Value.placeholder ctx filter) := by
  cases filter with
  | none => exact Visits.pure _
  | some predicate => exact (predicate.compile_visits ctx).map _

/-- A keyword and a list behind it, if the list has members. -/
def listTexts (keyword : String) (texts : List String) : List String :=
  if texts.isEmpty then [] else [s!"{keyword} {commaList texts}"]

/-- A line that lists parts behind a keyword visits the sites of the parts. -/
lemma listLines_visits {α : Type} (keyword : String) {l : List α} {f : α → Compile String}
    {s : α → List Site} {g : α → String} (h : ∀ x ∈ l, (f x).Visits (s x) (g x)) :
    (listLines keyword (l.map f)).Visits (l.flatMap s) (listTexts keyword (l.map g)) := by
  cases l with
  | nil => exact Visits.pure _
  | cons x l =>
    have hall : ((x :: l).map f).mapM id = (x :: l).mapM f := List.mapM_map
    change ((((x :: l).map f).mapM id >>= fun texts => pure [s!"{keyword} {commaList texts}"]) :
      Compile (List String)).Visits _ _
    rw [hall]
    exact (Visits.mapM h).map _

end Clauses

/-! ## Reads -/

namespace SelectStatement

section Parts

variable (spell : Value → String) (s : SelectStatement)

/-- The `SELECT` line. -/
def projectionTexts : List String :=
  (s.projection.map fun projection => s!"SELECT {projection.text s.context}").toList

/-- The sites of the projection. -/
def projectionSites : List Site :=
  s.projection.toList.flatMap fun projection => projection.sites s.context

/-- The lines from `FROM` to `WHERE`. -/
def sourceTexts : List String :=
  (s.table.map fun table => s!"FROM {table} t1").toList ++
    s.joins.map (·.text spell s.context) ++ whereTexts spell s.context s.where?

/-- The sites from `FROM` to `WHERE`. -/
def sourceSites : List Site :=
  s.joins.flatMap (·.sites s.context) ++ whereSites s.context s.where?

/-- The lines from `ORDER BY` to `OFFSET`. -/
def windowTexts : List String :=
  listTexts "ORDER BY" (s.orderBy.map (·.text s.context)) ++
    (s.limit?.map fun count => s!"LIMIT {count}").toList ++
    (s.offset?.map fun count => s!"OFFSET {count}").toList

/-- The sites from `ORDER BY` to `OFFSET`. -/
def windowSites : List Site := s.orderBy.flatMap (·.sites s.context)

/-- The lines of the read. -/
def rowTexts : List String := s.projectionTexts ++ s.sourceTexts spell ++ s.windowTexts

/-- The lines of the count. -/
def countTexts : List String :=
  if s.isWindowed then
    ["SELECT COUNT(*) FROM (", "SELECT 1"] ++ s.sourceTexts spell ++ s.windowTexts ++
      [") counted"]
  else "SELECT COUNT(*)" :: s.sourceTexts spell

/-- The sites of the read. -/
def rowSites : List Site :=
  joinOrderSites 0 s.joins ++ (s.projectionSites ++ (s.sourceSites ++ s.windowSites))

/-- The sites of the count. -/
def countSites : List Site :=
  joinOrderSites 0 s.joins ++ (s.sourceSites ++ if s.isWindowed then s.windowSites else [])

end Parts

variable (s : SelectStatement)

/-- The line of a projection visits its columns and labels. -/
lemma projectionLines_visits :
    s.projectionLines.Visits s.projectionSites s.projectionTexts := by
  unfold projectionLines projectionSites projectionTexts
  cases s.projection with
  | none => exact Visits.pure _
  | some projection =>
    have h := (projection.compile_visits s.context).map fun text => [s!"SELECT {text}"]
    simpa using h

/-- The lines of a source visit its joins and its filter. -/
lemma sourceLines_visits :
    s.sourceLines.Visits s.sourceSites (s.sourceTexts Value.placeholder) := by
  have hjoins := joinLines_visits s.context s.joins
  have hfilter := whereLines_visits s.context s.where?
  exact hjoins.bind (hfilter.map _)

/-- The lines of a window visit its sort keys. -/
lemma windowLines_visits : s.windowLines.Visits s.windowSites s.windowTexts := by
  have hkeys := listLines_visits "ORDER BY" (l := s.orderBy)
    fun key _ => key.compile_visits s.context
  exact hkeys.map _

/-- **A read** assembles its sites and its lines. -/
theorem build_eq_assemble :
    s.build =
      Statement.assemble s.rowSites (String.intercalate "\n" (s.rowTexts Value.placeholder)) := by
  have hrows : s.rowLines.Visits (s.projectionSites ++ (s.sourceSites ++ s.windowSites))
      (s.rowTexts Value.placeholder) :=
    s.projectionLines_visits.bind (s.sourceLines_visits.bind (s.windowLines_visits.map _))
  rw [rowSites, ← Statement.assemble_append (values_joinOrderSites 0 s.joins),
    ← checkJoinsFrom_eq_verdict, ← Statement.ofLines_eq_assemble hrows]
  rfl

/-- **A count** assembles the sites and the lines of its source, and of its window if it has one. -/
theorem buildCount_eq_assemble :
    s.buildCount =
      Statement.assemble s.countSites
        (String.intercalate "\n" (s.countTexts Value.placeholder)) := by
  have hcount : s.countLines.Visits (s.sourceSites ++ if s.isWindowed then s.windowSites else [])
      (s.countTexts Value.placeholder) := by
    unfold countLines countTexts
    split
    · exact s.sourceLines_visits.bind (s.windowLines_visits.map _)
    · rw [List.append_nil]
      exact s.sourceLines_visits.map _
  rw [countSites, ← Statement.assemble_append (values_joinOrderSites 0 s.joins),
    ← checkJoinsFrom_eq_verdict, ← Statement.ofLines_eq_assemble hcount]
  rfl

end SelectStatement

/-! ## Updates and deletions -/

namespace UpdateStatement

section Parts

variable (spell : Value → String) (s : UpdateStatement)

/-- The lines of the update. -/
def texts : List String :=
  s!"UPDATE {TableRef.access ⟨0, s.table⟩}" :: s.joins.map (·.text spell s.context) ++
    listTexts "SET" (s.assignments.map (·.text spell s.context)) ++
    whereTexts spell s.context s.where?

/-- The sites of the update. -/
def sites : List Site :=
  joinOrderSites 0 s.joins ++ (s.joins.flatMap (·.sites s.context) ++
    (s.assignments.flatMap (·.sites s.context) ++ whereSites s.context s.where?))

end Parts

/-- **An update** assembles its sites and its lines. -/
theorem build_eq_assemble (s : UpdateStatement) :
    s.build =
      Statement.assemble s.sites (String.intercalate "\n" (s.texts Value.placeholder)) := by
  have hlines : s.lines.Visits (s.joins.flatMap (·.sites s.context) ++
      (s.assignments.flatMap (·.sites s.context) ++ whereSites s.context s.where?))
      (s.texts Value.placeholder) := by
    have hjoins := joinLines_visits s.context s.joins
    have hassignments := listLines_visits "SET" (l := s.assignments)
      fun a _ => a.compile_visits s.context
    have hfilter := whereLines_visits s.context s.where?
    exact hjoins.bind (hassignments.bind (hfilter.map _))
  rw [sites, ← Statement.assemble_append (values_joinOrderSites 0 s.joins),
    ← checkJoinsFrom_eq_verdict, ← Statement.ofLines_eq_assemble hlines]
  rfl

end UpdateStatement

namespace DeleteStatement

/-- The lines of the deletion. -/
def texts (spell : Value → String) (s : DeleteStatement) : List String :=
  s!"DELETE FROM {s.table}" :: whereTexts spell .bare s.where?

/-- The sites of the deletion. -/
def sites (s : DeleteStatement) : List Site := whereSites .bare s.where?

/-- **A deletion** assembles its sites and its lines. -/
theorem build_eq_assemble (s : DeleteStatement) :
    s.build =
      Statement.assemble s.sites (String.intercalate "\n" (s.texts Value.placeholder)) :=
  Statement.ofLines_eq_assemble ((whereLines_visits .bare s.where?).map _)

end DeleteStatement

/-! ## Insertions -/

namespace InsertStatement

/-- The text of a row. -/
def tuple (spell : Value → String) (values : List Value) : String :=
  s!"({commaList (values.map spell)})"

/-- The lines of the insertion. -/
def texts (spell : Value → String) (s : InsertStatement) : List String :=
  s!"{s.mode.keyword} {s.table} ({commaList s.columns})" ::
    listTexts "VALUES" (s.rows.map (tuple spell))

/-- The faults of the sizes of rows, the first of which has number `row`. -/
def rowAritySites (expected row : Nat) : List (List Value) → List Site
  | [] => []
  | values :: rest =>
    if values.length = expected then rowAritySites expected (row + 1) rest
    else .fault (.rowArity row expected values.length) :: rowAritySites expected (row + 1) rest

/-- The sites of the insertion: the values of the rows, row by row. -/
def sites (s : InsertStatement) : List Site :=
  rowAritySites s.columns.length 0 s.rows ++ s.rows.flatMap (·.map .value)

/-- Rows of another length are no values. -/
lemma values_rowAritySites (expected row : Nat) (rows : List (List Value)) :
    Site.values (rowAritySites expected row rows) = [] := by
  induction rows generalizing row with
  | nil => rfl
  | cons values rest ih =>
    rw [rowAritySites]
    split <;> simp [ih]

/-- The check of the rows reports the first one of another length. -/
lemma checkRowsFrom_eq_verdict (expected row : Nat) (rows : List (List Value)) :
    checkRowsFrom expected row rows = Site.verdict (rowAritySites expected row rows) := by
  induction rows generalizing row with
  | nil => rfl
  | cons values rest ih =>
    rw [checkRowsFrom, rowAritySites]
    split
    · exact ih (row + 1)
    · rfl

/-- A row visits its values. -/
lemma rowText_visits (values : List Value) :
    (rowText values).Visits (values.map .value) (tuple Value.placeholder values) := by
  have h : (values.mapM Compile.parameter).Visits (values.flatMap fun v => [.value v])
      (values.map Value.placeholder) := by
    apply Visits.mapM
    intro v _
    exact Visits.parameter v
  rw [← List.map_eq_flatMap] at h
  exact h.map _

/-- **An insertion** assembles its sites and its lines. -/
theorem build_eq_assemble (s : InsertStatement) :
    s.build =
      Statement.assemble s.sites (String.intercalate "\n" (s.texts Value.placeholder)) := by
  have hlines : s.lines.Visits (s.rows.flatMap (·.map .value)) (s.texts Value.placeholder) := by
    have hrows := listLines_visits "VALUES" (l := s.rows) fun values _ => rowText_visits values
    exact hrows.map _
  rw [sites, ← Statement.assemble_append (values_rowAritySites s.columns.length 0 s.rows),
    ← checkRowsFrom_eq_verdict, ← Statement.ofLines_eq_assemble hlines]
  rfl

end InsertStatement

/-! ## Descriptions of any kind -/

/-- A description of any kind of statement that binds values. -/
inductive Description where
  /-- Rows are read. -/
  | select (s : SelectStatement)
  /-- The rows of a read are counted. -/
  | count (s : SelectStatement)
  /-- Rows are updated. -/
  | update (s : UpdateStatement)
  /-- Rows are deleted. -/
  | delete (s : DeleteStatement)
  /-- Rows are inserted. -/
  | insert (s : InsertStatement)

namespace Description

/-- The statement of a description. -/
def build : Description → Except CompileError Statement
  | select s => s.build
  | count s => s.buildCount
  | update s => s.build
  | delete s => s.build
  | insert s => s.build

/-- The lines of a description, its values spelled as told. -/
def texts (spell : Value → String) : Description → List String
  | select s => s.rowTexts spell
  | count s => s.countTexts spell
  | update s => s.texts spell
  | delete s => s.texts spell
  | insert s => s.texts spell

/-- The text of a description, its values spelled as told. -/
def text (spell : Value → String) (d : Description) : String :=
  String.intercalate "\n" (d.texts spell)

/-- The values that a description binds and the faults that it has. -/
def sites : Description → List Site
  | select s => s.rowSites
  | count s => s.countSites
  | update s => s.sites
  | delete s => s.sites
  | insert s => s.sites

/-- **Every compilation** assembles the sites and the text with placeholders of its description. -/
theorem build_eq_assemble (d : Description) :
    d.build = Statement.assemble d.sites (d.text Value.placeholder) := by
  cases d with
  | select s => exact s.build_eq_assemble
  | count s => exact s.buildCount_eq_assemble
  | update s => exact s.build_eq_assemble
  | delete s => exact s.build_eq_assemble
  | insert s => exact s.build_eq_assemble

/-- A compilation that succeeds has no fault, and yields the text and the values. -/
lemma build_eq_ok_iff {d : Description} {statement : Statement} :
    d.build = .ok statement ↔
      Site.fault? d.sites = none ∧
        statement = ⟨d.text Value.placeholder, (Site.values d.sites).toArray⟩ := by
  rw [build_eq_assemble, Statement.assemble]
  cases Site.fault? d.sites with
  | none => simp [eq_comm]
  | some e => simp

end Description

end BoundSql
