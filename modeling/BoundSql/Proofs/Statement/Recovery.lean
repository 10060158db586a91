import BoundSql.Proofs.Statement.Decoding
import BoundSql.Proofs.Statement.Verdict

/-!
# Statements tell their descriptions apart

A statement, that is a text with its values, determines the clauses of the description that it was
compiled from, and these determine the description up to what no text shows: the nesting of output
keys, and what a count leaves out of the read. Output keys are arbitrary, so one may hold the text
of whole clauses.

## Main definitions

* `BoundSql.SelectStatement.Alike` — two reads differ at most in the nesting of their output keys.
* `BoundSql.Description.Alike` — two descriptions differ at most in what their text does not show.
* `BoundSql.Parts` — what a list of clauses says, part by part.

## Main results

* `BoundSql.Description.clauses_unique` — two descriptions of one statement have the same clauses.
* `BoundSql.Description.alike_of_build` — two descriptions of one statement are alike.
-/

namespace BoundSql

open Sql (Lexes lexes_placeholder)

/-! ## Clauses -/

namespace Description

/-- The clauses of a compilable description can be read back. -/
lemma legible {d : Description} (h : d.IsCompilable) {clause : Clause}
    (hclause : clause ∈ d.clauses) : clause.Legible d.context := by
  have hcondition : ∀ p ∈ clause.conditions, (∀ c ∈ p.columns, c ∈ clause.columns) →
      Site.fault? (p.sites d.context) = none := by
    intro p hp hcolumns
    rw [p.fault?_sites_eq_none_iff]
    constructor
    · intro c hc
      exact h.columns c (List.mem_flatMap.2 ⟨clause, hclause, hcolumns c hc⟩)
    · exact h.groups p (List.mem_flatMap.2 ⟨clause, hclause, hp⟩)
  cases clause with
  | join j => exact hcondition j.condition List.mem_cons_self fun _ hc => hc
  | filter p => exact hcondition p List.mem_cons_self fun _ hc => hc
  | select _ | order _ | set _ =>
    -- Only statements with aliases have such clauses.
    cases d with
    | select s | count s | update s => exact rfl
    | delete s => simp [clauses, DeleteStatement.clauses] at hclause
    | insert s => simp [clauses, InsertStatement.clauses, Clause.ofList] at hclause
  | _ => exact trivial

/-- A context without aliases binds one table. -/
lemma bound_context_of_not_isQualified (d : Description)
    (h : d.context.isQualified = false) : d.context.bound = 1 := by
  cases d with
  | delete s | insert s => rfl
  | select s | count s | update s => cases h

/-- **The clauses of a statement** are known from its text and values. -/
theorem clauses_unique {d d' : Description} {statement : Statement}
    (hd : ∀ name ∈ d.names, isIdentifier name) (hd' : ∀ name ∈ d'.names, isIdentifier name)
    (h : d.build = .ok statement) (h' : d'.build = .ok statement) : d.clauses = d'.clauses := by
  have hmark : ∀ v, Lexes (Value.placeholder v) [.placeholder] := by
    intro _
    exact lexes_placeholder
  obtain ⟨hfault, rfl⟩ := build_eq_ok_iff.1 h
  obtain ⟨hfault', heq⟩ := build_eq_ok_iff.1 h'
  obtain ⟨htext, hvalues⟩ := Statement.mk.inj heq
  have hlex := text_lexes hmark hd
  have hlex' := text_lexes hmark hd'
  rw [htext] at hlex
  have ht := Option.some.inj (hlex.symm.trans hlex')
  have hv : d.bound = d'.bound := by
    rw [values_sites, values_sites] at hvalues
    simpa using congrArg Array.toList hvalues
  rw [fault?_sites_eq_none_iff] at hfault hfault'
  exact Clause.flatMap_tokens_unique d.bound_context_of_not_isQualified
    d'.bound_context_of_not_isQualified (fun _ => legible hfault) (fun _ => legible hfault') ht hv

end Description

/-! ## Parts -/

/-- What a list of clauses says. -/
structure Parts where
  /-- The first clause of a count, an update, a deletion or an insertion. -/
  lead : Option Clause := none
  /-- What is returned. -/
  selection : Option Selection := none
  /-- The primary table of a read. -/
  table : Option String := none
  /-- The joins. -/
  joins : List Join := []
  /-- The condition that rows meet. -/
  where? : Option Predicate := none
  /-- The sort keys. -/
  orderBy : List SortKey := []
  /-- How many rows are returned at most. -/
  limit? : Option Nat := none
  /-- How many rows are skipped. -/
  offset? : Option Nat := none
  /-- The columns that are set. -/
  assignments : List Assignment := []
  /-- The rows of an insertion. -/
  rows : List (List Value) := []

namespace Parts

/-- Takes note of a clause. -/
def add (parts : Parts) : Clause → Parts
  | .select selection => { parts with selection := some selection }
  | .table name => { parts with table := some name }
  | .join j => { parts with joins := parts.joins ++ [j] }
  | .filter p => { parts with where? := some p }
  | .order keys => { parts with orderBy := parts.orderBy ++ keys }
  | .limit n => { parts with limit? := some n }
  | .offset n => { parts with offset? := some n }
  | .set assignments => { parts with assignments := parts.assignments ++ assignments }
  | .values rows => { parts with rows := parts.rows ++ rows }
  | .selectOne => parts
  | .closeCount => parts
  | .count => { parts with lead := some .count }
  | .openCount => { parts with lead := some .openCount }
  | .update name => { parts with lead := some (.update name) }
  | .delete name => { parts with lead := some (.delete name) }
  | .insert mode name columns => { parts with lead := some (.insert mode name columns) }

variable (parts : Parts)

/-- Joins are collected in order. -/
lemma foldl_joins (joins : List Join) :
    (joins.map Clause.join).foldl add parts = { parts with joins := parts.joins ++ joins } := by
  induction joins generalizing parts with
  | nil => simp
  | cons j rest ih => simp [add, ih]

/-- The last filter is kept. -/
lemma foldl_where (filter : Option Predicate) :
    (filter.map Clause.filter).toList.foldl add parts =
      { parts with where? := filter.or parts.where? } := by
  cases filter <;> rfl

/-- The clauses of a source give back its table, its joins and its filter. -/
lemma foldl_sourceClauses (s : SelectStatement) :
    s.sourceClauses.foldl add parts =
      { parts with
        table := s.table.or parts.table
        joins := parts.joins ++ s.joins
        where? := s.where?.or parts.where? } := by
  rw [SelectStatement.sourceClauses, List.foldl_append, List.foldl_append, foldl_joins,
    foldl_where]
  cases s.table <;> rfl

/-- The clauses of a window give back its sort keys, its limit and its offset. -/
lemma foldl_windowClauses (s : SelectStatement) :
    s.windowClauses.foldl add parts =
      { parts with
        orderBy := parts.orderBy ++ s.orderBy
        limit? := s.limit?.or parts.limit?
        offset? := s.offset?.or parts.offset? } := by
  have horder : (Clause.ofList .order s.orderBy).foldl add parts =
      { parts with orderBy := parts.orderBy ++ s.orderBy } := by
    cases s.orderBy with
    | nil => simp [Clause.ofList]
    | cons key keys => rfl
  rw [SelectStatement.windowClauses, List.foldl_append, List.foldl_append, horder]
  cases s.limit? <;> cases s.offset? <;> rfl

end Parts

namespace Description

/-- The parts of a description that show in its text. -/
def parts : Description → Parts
  | select s =>
    { selection := s.projection.map (·.selection), table := s.table, joins := s.joins
      where? := s.where?, orderBy := s.orderBy, limit? := s.limit?, offset? := s.offset? }
  | count s =>
    { lead := some (if s.isWindowed then .openCount else .count), table := s.table
      joins := s.joins, where? := s.where?, orderBy := if s.isWindowed then s.orderBy else []
      limit? := s.limit?, offset? := s.offset? }
  | update s =>
    { lead := some (.update s.table), joins := s.joins, where? := s.where?
      assignments := s.assignments }
  | delete s => { lead := some (.delete s.table), where? := s.where? }
  | insert s => { lead := some (.insert s.mode s.table s.columns), rows := s.rows }

/-- The clauses of a description say what its parts are. -/
lemma foldl_clauses (d : Description) : d.clauses.foldl Parts.add {} = d.parts := by
  cases d with
  | select s =>
    have hprojection : (s.projection.map fun projection =>
        Clause.select projection.selection).toList.foldl Parts.add {} =
          { selection := s.projection.map (·.selection) } := by
      cases s.projection <;> rfl
    rw [clauses, SelectStatement.rowClauses, List.foldl_append, List.foldl_append, hprojection,
      Parts.foldl_sourceClauses, Parts.foldl_windowClauses]
    simp [parts]
  | count s =>
    rw [clauses, SelectStatement.countClauses, parts]
    split
    · next hwindow =>
      rw [List.foldl_append, List.foldl_append, List.foldl_append, Parts.foldl_sourceClauses,
        Parts.foldl_windowClauses]
      simp [Parts.add]
    · next hwindow =>
      obtain ⟨hlimit, hoffset⟩ : s.limit? = none ∧ s.offset? = none := by
        simpa [SelectStatement.isWindowed] using hwindow
      rw [List.foldl_cons, Parts.foldl_sourceClauses, hlimit, hoffset]
      simp [Parts.add]
  | update s =>
    have hset : ∀ parts : Parts, (Clause.ofList .set s.assignments).foldl Parts.add parts =
        { parts with assignments := parts.assignments ++ s.assignments } := by
      intro parts
      cases s.assignments with
      | nil => simp [Clause.ofList]
      | cons a rest => rfl
    rw [clauses, UpdateStatement.clauses, List.foldl_append, List.foldl_append, List.foldl_cons,
      Parts.foldl_joins, hset, Parts.foldl_where]
    simp [parts, Parts.add]
  | delete s =>
    rw [clauses, DeleteStatement.clauses, List.foldl_cons, Parts.foldl_where]
    simp [parts, Parts.add]
  | insert s =>
    rw [clauses, InsertStatement.clauses, List.foldl_cons]
    cases hrows : s.rows <;> simp [parts, Parts.add, Clause.ofList, hrows]

end Description

/-! ## Descriptions -/

/-- Two reads differ at most in the nesting of their output keys. -/
structure SelectStatement.Alike (s s' : SelectStatement) : Prop where
  /-- Both return the same, the nesting of output keys left out. -/
  projection : s.projection.map (·.selection) = s'.projection.map (·.selection)
  /-- Both read the same table. -/
  table : s.table = s'.table
  /-- Both have the same joins. -/
  joins : s.joins = s'.joins
  /-- Both have the same condition. -/
  where? : s.where? = s'.where?
  /-- Both sort by the same keys. -/
  orderBy : s.orderBy = s'.orderBy
  /-- Both return the same number of rows at most. -/
  limit? : s.limit? = s'.limit?
  /-- Both skip the same number of rows. -/
  offset? : s.offset? = s'.offset?

/-- Two reads whose rows are counted differ at most in what is returned, and in the sort keys if all
rows are counted. -/
structure SelectStatement.CountAlike (s s' : SelectStatement) : Prop where
  /-- Both read the same table. -/
  table : s.table = s'.table
  /-- Both have the same joins. -/
  joins : s.joins = s'.joins
  /-- Both have the same condition. -/
  where? : s.where? = s'.where?
  /-- Both sort by the same keys, if they return a window of the rows. -/
  orderBy : s.isWindowed → s.orderBy = s'.orderBy
  /-- Both return the same number of rows at most. -/
  limit? : s.limit? = s'.limit?
  /-- Both skip the same number of rows. -/
  offset? : s.offset? = s'.offset?

namespace Description

/-- Two descriptions are of one kind and differ at most in what their text does not show. -/
def Alike : Description → Description → Prop
  | select s, select s' => s.Alike s'
  | count s, count s' => s.CountAlike s'
  | update s, update s' => s = s'
  | delete s, delete s' => s = s'
  | insert s, insert s' => s = s'
  | _, _ => False

/-- Descriptions with the same parts are alike. -/
lemma alike_of_parts_eq {d d' : Description} (h : d.parts = d'.parts) : d.Alike d' := by
  have hcount : ∀ s : SelectStatement,
      (if s.isWindowed then Clause.openCount else .count) = .openCount ∨
        (if s.isWindowed then Clause.openCount else .count) = .count := by
    intro s
    split
    · exact .inl rfl
    · exact .inr rfl
  cases d with
  | select s =>
    cases d' with
    | select s' =>
      simp only [parts, Parts.mk.injEq, true_and, and_true] at h
      obtain ⟨hprojection, htable, hjoins, hwhere, horder, hlimit, hoffset⟩ := h
      exact ⟨hprojection, htable, hjoins, hwhere, horder, hlimit, hoffset⟩
    | _ => simp [parts] at h
  | count s =>
    cases d' with
    | count s' =>
      simp only [parts, Parts.mk.injEq, true_and, and_true] at h
      obtain ⟨-, htable, hjoins, hwhere, horder, hlimit, hoffset⟩ := h
      have hwindowed : s.isWindowed = s'.isWindowed := by
        rw [SelectStatement.isWindowed, SelectStatement.isWindowed, hlimit, hoffset]
      refine ⟨htable, hjoins, hwhere, ?_, hlimit, hoffset⟩
      intro hwindow
      rwa [← hwindowed, if_pos hwindow, if_pos hwindow] at horder
    | _ => rcases hcount s with hs | hs <;> simp [parts, hs] at h
  | update s =>
    cases d' with
    | update s' =>
      obtain ⟨table, joins, assignments, where?⟩ := s
      obtain ⟨table', joins', assignments', where?'⟩ := s'
      simp only [parts, Parts.mk.injEq, Option.some.injEq, Clause.update.injEq, true_and,
        and_true] at h
      obtain ⟨rfl, rfl, rfl, rfl⟩ := h
      exact rfl
    | count s' => rcases hcount s' with hs | hs <;> simp [parts, hs] at h
    | _ => simp [parts] at h
  | delete s =>
    cases d' with
    | delete s' =>
      obtain ⟨table, where?⟩ := s
      obtain ⟨table', where?'⟩ := s'
      simp only [parts, Parts.mk.injEq, Option.some.injEq, Clause.delete.injEq, true_and,
        and_true] at h
      obtain ⟨rfl, rfl⟩ := h
      exact rfl
    | count s' => rcases hcount s' with hs | hs <;> simp [parts, hs] at h
    | _ => simp [parts] at h
  | insert s =>
    cases d' with
    | insert s' =>
      obtain ⟨table, columns, rows, mode⟩ := s
      obtain ⟨table', columns', rows', mode'⟩ := s'
      simp only [parts, Parts.mk.injEq, Option.some.injEq, Clause.insert.injEq, true_and] at h
      obtain ⟨⟨rfl, rfl, rfl⟩, rfl⟩ := h
      exact rfl
    | count s' => rcases hcount s' with hs | hs <;> simp [parts, hs] at h
    | _ => simp [parts] at h

/-- **A statement tells its description.** Two descriptions whose tables and columns are named by
identifiers and that compile to the same text and the same values are of one kind and are alike:
reads have the same table, joins, condition, sort keys and window, and return the same up to the
nesting of output keys; updates, deletions and insertions are equal.

**Proof sketch.** The text is split into the tokens of the clauses, each output key being one token
(`text_lexes`). Tokens and values have one list of clauses (`clauses_unique`), and the parts of the
description are read off the clauses (`foldl_clauses`). -/
theorem alike_of_build {d d' : Description} {statement : Statement}
    (hd : ∀ name ∈ d.names, isIdentifier name) (hd' : ∀ name ∈ d'.names, isIdentifier name)
    (h : d.build = .ok statement) (h' : d'.build = .ok statement) : d.Alike d' := by
  apply alike_of_parts_eq
  rw [← foldl_clauses, ← foldl_clauses, clauses_unique hd hd' h h']

/-- A read with an output key that holds the text of a clause, nested or not. -/
def quotedRead (isNested : Bool) : SelectStatement :=
  let leaf := ProjectionMap.ofList [("a\"\nFROM x t1", ⟨0, "id"⟩)]
  { projection := some (.map (if isNested then ProjectionMap.empty.nested "outer" leaf else leaf))
    table := some "FROM"
    where? := some ((⟨0, "rank"⟩ : ColumnRef).equals (.value (.text "WHERE")))
    offset? := some 1 }

/-- The statement of this read. -/
def quotedStatement : Statement where
  sql := "SELECT t1.id AS \"a\"\"\nFROM x t1\"\nFROM FROM t1\nWHERE t1.rank = ?\nOFFSET 1"
  params := #[.text "WHERE"]

/-- Two reads whose projections differ in their nesting only have one statement. -/
theorem alike_of_build_quotedRead :
    (select (quotedRead true)).build = .ok quotedStatement ∧
      (select (quotedRead false)).build = .ok quotedStatement ∧
      (select (quotedRead true)).Alike (select (quotedRead false)) := by
  have hnested : (select (quotedRead true)).build = .ok quotedStatement := rfl
  have hflat : (select (quotedRead false)).build = .ok quotedStatement := rfl
  exact ⟨hnested, hflat, alike_of_build (by decide) (by decide) hnested hflat⟩

end Description

end BoundSql
