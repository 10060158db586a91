import BoundSql.Statement.Insert
import BoundSql.Statement.Select
import BoundSql.Statement.Update
import Mathlib.Logic.Function.Basic
import Mathlib.Tactic.Lemma

/-!
# Building descriptions step by step

A description is built up by steps, each of which is for one of its parts. No step looks at a part
that it is not for, and none is refused, so steps for different parts can be taken in any order.
What a description comes to is decided by what the steps add to each part: the last one counts where
a part is replaced, and all of them count in their order where a part grows.

## Main definitions

* `BoundSql.BuildStep` — a step, as the part that it is for and what it adds there.
* `BoundSql.BuildStep.arguments` — what the steps of a sequence add to a part.
* `BoundSql.BuildStep.SameByPart` — two sequences have the same steps for each part.
* `BoundSql.SelectStatement.extend`, `BoundSql.UpdateStatement.extend`,
  `BoundSql.InsertStatement.extend` — a description with something added to each of its parts.

## Main results

* `BoundSql.BuildStep.Builds.foldl_eq` — a sequence of steps adds to each part what its steps add.
* `BoundSql.BuildStep.order_free` — sequences with the same steps for each part build the same.
-/

namespace BoundSql

/-- A step that builds up a description: the part that it is for, and what it adds there. -/
abbrev BuildStep {Part : Type} (Argument : Part → Type) : Type := Σ part, Argument part

namespace BuildStep

/-! ## Sequences of steps -/

section Sequences

variable {Part : Type} [DecidableEq Part] {Argument : Part → Type}

/-- What the steps for a part add to it, in order. -/
def arguments (steps : List (BuildStep Argument)) (part : Part) : List (Argument part) :=
  steps.filterMap fun step => if h : step.1 = part then some (h ▸ step.2) else none

/-- Two sequences have the same steps for each part, in the same order. -/
def SameByPart (steps others : List (BuildStep Argument)) : Prop :=
  ∀ part, steps.filter (·.1 = part) = others.filter (·.1 = part)

/-- The first step adds to its part in front of the others. -/
lemma arguments_cons (part : Part) (argument : Argument part) (steps : List (BuildStep Argument)) :
    arguments (⟨part, argument⟩ :: steps) =
      Function.update (arguments steps) part (argument :: arguments steps part) := by
  funext other
  by_cases h : part = other
  · subst h
    rw [Function.update_self, arguments, List.filterMap_cons_some (dif_pos rfl)]
    rfl
  · rw [Function.update_of_ne (Ne.symm h), arguments, List.filterMap_cons_none (dif_neg h)]
    rfl

/-- The steps for other parts add nothing. -/
lemma arguments_filter (steps : List (BuildStep Argument)) (part : Part) :
    arguments (steps.filter (·.1 = part)) part = arguments steps part := by
  rw [arguments, List.filterMap_filter, arguments]
  congr 1
  funext step
  by_cases h : step.1 = part <;> simp [h]

/-- Sequences with the same steps for each part add the same to each. -/
lemma SameByPart.arguments_eq {steps others : List (BuildStep Argument)}
    (h : SameByPart steps others) : arguments steps = arguments others := by
  funext part
  rw [← arguments_filter steps, h part, arguments_filter]

variable {Description : Type}

/-- Steps add to descriptions part by part: `extend` says what a description is with lists of
arguments added to its parts, and a step puts its argument in front of those for its part. -/
structure Builds (step : Description → BuildStep Argument → Description)
    (extend : Description → (∀ part, List (Argument part)) → Description) : Prop where
  /-- Nothing is added by no argument. -/
  extend_nil : ∀ d, extend d (fun _ => []) = d
  /-- A step adds its argument to its part. -/
  extend_step : ∀ d part argument added, extend (step d ⟨part, argument⟩) added =
    extend d (Function.update added part (argument :: added part))

/-- **A sequence of steps** adds to each part what its steps add there. -/
theorem Builds.foldl_eq {step : Description → BuildStep Argument → Description}
    {extend : Description → (∀ part, List (Argument part)) → Description}
    (h : Builds step extend) (d : Description) (steps : List (BuildStep Argument)) :
    steps.foldl step d = extend d (arguments steps) := by
  induction steps generalizing d with
  | nil => exact (h.extend_nil d).symm
  | cons first rest ih =>
    obtain ⟨part, argument⟩ := first
    rw [List.foldl_cons, ih, h.extend_step, arguments_cons]

/-- **Sequences with the same steps for each part** lead to the same description. -/
theorem Builds.foldl_eq_foldl {step : Description → BuildStep Argument → Description}
    {extend : Description → (∀ part, List (Argument part)) → Description}
    (h : Builds step extend) (d : Description) {steps others : List (BuildStep Argument)}
    (hsame : SameByPart steps others) : steps.foldl step d = others.foldl step d := by
  rw [h.foldl_eq, h.foldl_eq, hsame.arguments_eq]

end Sequences

end BuildStep

/-- Of the values for a part that is replaced, the last one counts. -/
lemma getLast?_cons_or {α : Type} (a : α) (l : List α) (part : Option α) :
    (a :: l).getLast?.or part = l.getLast?.or (some a) := by
  rw [List.getLast?_cons]
  cases l.getLast? <;> rfl

/-! ## Reads -/

/-- The parts of a read that steps are for. -/
inductive SelectPart where
  | projection
  | join
  | filter
  | sortKey
  | limit
  | offset
deriving DecidableEq

/-- What a step for a part of a read adds. -/
abbrev SelectPart.Argument : SelectPart → Type
  | projection => Projection
  | join => Join
  | filter => Predicate
  | sortKey => SortKey
  | limit => Nat
  | offset => Nat

namespace SelectStatement

/-- A step that builds up a read. -/
def step (s : SelectStatement) : BuildStep SelectPart.Argument → SelectStatement
  | ⟨.projection, projection⟩ => s.select projection
  | ⟨.join, join⟩ => s.join join
  | ⟨.filter, predicate⟩ => s.filter predicate
  | ⟨.sortKey, key⟩ => s.sortBy key
  | ⟨.limit, count⟩ => s.limit count
  | ⟨.offset, count⟩ => s.offset count

/-- A read with something added to each of its parts: the last projection, limit and offset replace
those that it has, joins and sort keys go behind those that it has, and predicates narrow its
condition one after the other. -/
def extend (s : SelectStatement) (added : (part : SelectPart) → List part.Argument) :
    SelectStatement where
  projection := (added .projection).getLast?.or s.projection
  table := s.table
  joins := s.joins ++ added .join
  where? := (added .filter).foldl (fun condition p => some (.narrow condition p)) s.where?
  orderBy := s.orderBy ++ added .sortKey
  limit? := (added .limit).getLast?.or s.limit?
  offset? := (added .offset).getLast?.or s.offset?

/-- Steps add to a read part by part. -/
lemma builds : BuildStep.Builds step extend where
  extend_nil s := by simp [extend]
  extend_step s part argument added := by
    cases part <;> simp [extend, step, select, join, filter, sortBy, limit, offset,
      getLast?_cons_or]

end SelectStatement

/-! ## Updates -/

/-- The parts of an update that steps are for. -/
inductive UpdatePart where
  | join
  | assignment
  | filter
deriving DecidableEq

/-- What a step for a part of an update adds. -/
abbrev UpdatePart.Argument : UpdatePart → Type
  | join => Join
  | assignment => Assignment
  | filter => Predicate

namespace UpdateStatement

/-- A step that builds up an update. -/
def step (s : UpdateStatement) : BuildStep UpdatePart.Argument → UpdateStatement
  | ⟨.join, join⟩ => s.join join
  | ⟨.assignment, assignment⟩ => s.assign assignment.column assignment.value
  | ⟨.filter, predicate⟩ => s.filter predicate

/-- An update with something added to each of its parts: joins and assignments go behind those that
it has, and predicates narrow its condition one after the other. -/
def extend (s : UpdateStatement) (added : (part : UpdatePart) → List part.Argument) :
    UpdateStatement where
  table := s.table
  joins := s.joins ++ added .join
  assignments := s.assignments ++ added .assignment
  where? := (added .filter).foldl (fun condition p => some (.narrow condition p)) s.where?

/-- Steps add to an update part by part. -/
lemma builds : BuildStep.Builds step extend where
  extend_nil s := by simp [extend]
  extend_step s part argument added := by
    cases part <;> simp [extend, step, join, assign, filter]

end UpdateStatement

/-! ## Insertions -/

/-- The parts of an insertion that steps are for. -/
inductive InsertPart where
  | columns
  | row
  | mode
deriving DecidableEq

/-- What a step for a part of an insertion adds; the step for the mode only ever replaces rows. -/
abbrev InsertPart.Argument : InsertPart → Type
  | columns => List String
  | row => List Value
  | mode => Unit

namespace InsertStatement

/-- A step that builds up an insertion. -/
def step (s : InsertStatement) : BuildStep InsertPart.Argument → InsertStatement
  | ⟨.columns, columns⟩ => s.addColumns columns
  | ⟨.row, row⟩ => s.addRow row
  | ⟨.mode, ()⟩ => s.replace

/-- An insertion with something added to each of its parts: columns and rows go behind those that it
has, and rows that are there already are replaced if that was asked for at all. -/
def extend (s : InsertStatement) (added : (part : InsertPart) → List part.Argument) :
    InsertStatement where
  table := s.table
  columns := s.columns ++ (added .columns).flatten
  rows := s.rows ++ added .row
  mode := if (added .mode).isEmpty then s.mode else .replace

/-- Steps add to an insertion part by part. -/
lemma builds : BuildStep.Builds step extend where
  extend_nil s := by simp [extend]
  extend_step s part argument added := by
    cases part <;> simp [extend, step, addColumns, addRow, replace]

end InsertStatement

/-! ## Order of steps -/

namespace BuildStep

/-- **The order of steps for different parts does not matter.** A sequence of steps that builds up a
read, an update or an insertion, from whatever it starts with, leads to the description that has
added to each part what the steps for this part add. Two sequences with the same steps for each part
lead to the same description however the steps are mixed, so they compile alike, and the rows of two
such reads are counted alike.

**Proof sketch.** A step puts its argument in front of what the later steps add to its part and
leaves the other parts alone (`Builds`), so a sequence adds up part by part (`Builds.foldl_eq`).
What it adds to a part can be read off the steps for this part (`SameByPart.arguments_eq`). -/
theorem order_free :
    (∀ (s : SelectStatement) (steps others : List (BuildStep SelectPart.Argument)),
      steps.foldl .step s = s.extend (arguments steps) ∧
      (SameByPart steps others →
        steps.foldl .step s = others.foldl .step s ∧
        (steps.foldl .step s).build = (others.foldl .step s).build ∧
        (steps.foldl .step s).buildCount = (others.foldl .step s).buildCount)) ∧
    (∀ (s : UpdateStatement) (steps others : List (BuildStep UpdatePart.Argument)),
      steps.foldl .step s = s.extend (arguments steps) ∧
      (SameByPart steps others →
        steps.foldl .step s = others.foldl .step s ∧
        (steps.foldl .step s).build = (others.foldl .step s).build)) ∧
    ∀ (s : InsertStatement) (steps others : List (BuildStep InsertPart.Argument)),
      steps.foldl .step s = s.extend (arguments steps) ∧
      (SameByPart steps others →
        steps.foldl .step s = others.foldl .step s ∧
        (steps.foldl .step s).build = (others.foldl .step s).build) := by
  refine ⟨fun s steps others => ?_, fun s steps others => ?_, fun s steps others => ?_⟩
  · refine ⟨SelectStatement.builds.foldl_eq s steps, fun h => ?_⟩
    have hsame := SelectStatement.builds.foldl_eq_foldl s h
    exact ⟨hsame, congrArg _ hsame, congrArg _ hsame⟩
  · refine ⟨UpdateStatement.builds.foldl_eq s steps, fun h => ?_⟩
    have hsame := UpdateStatement.builds.foldl_eq_foldl s h
    exact ⟨hsame, congrArg _ hsame⟩
  · refine ⟨InsertStatement.builds.foldl_eq s steps, fun h => ?_⟩
    have hsame := InsertStatement.builds.foldl_eq_foldl s h
    exact ⟨hsame, congrArg _ hsame⟩

/-- A read whose limit is set twice and whose predicate is there before the table that it is
about. -/
def windowFirst : List (BuildStep SelectPart.Argument) :=
  [⟨.limit, 5⟩, ⟨.filter, (⟨1, "name"⟩ : ColumnRef).isNotNull⟩, ⟨.sortKey, ⟨⟨0, "id"⟩, .ascending⟩⟩,
    ⟨.limit, 10⟩, ⟨.join, ⟨⟨1, "authors"⟩, (⟨0, "author"⟩ : ColumnRef).equals (.column ⟨1, "id"⟩)⟩⟩]

/-- The same read from its join on. -/
def joinFirst : List (BuildStep SelectPart.Argument) :=
  [⟨.join, ⟨⟨1, "authors"⟩, (⟨0, "author"⟩ : ColumnRef).equals (.column ⟨1, "id"⟩)⟩⟩, ⟨.limit, 5⟩,
    ⟨.limit, 10⟩, ⟨.sortKey, ⟨⟨0, "id"⟩, .ascending⟩⟩, ⟨.filter, (⟨1, "name"⟩ : ColumnRef).isNotNull⟩]

/-- An update whose predicates stand on both sides of what it sets. -/
def filterFirst : List (BuildStep UpdatePart.Argument) :=
  [⟨.filter, (⟨0, "id"⟩ : ColumnRef).isNotNull⟩, ⟨.assignment, ⟨⟨0, "draft"⟩, .bool false⟩⟩,
    ⟨.filter, (⟨0, "title"⟩ : ColumnRef).equals (.value (.text "On"))⟩]

/-- The same update from what it sets on. -/
def assignmentFirst : List (BuildStep UpdatePart.Argument) :=
  [⟨.assignment, ⟨⟨0, "draft"⟩, .bool false⟩⟩, ⟨.filter, (⟨0, "id"⟩ : ColumnRef).isNotNull⟩,
    ⟨.filter, (⟨0, "title"⟩ : ColumnRef).equals (.value (.text "On"))⟩]

/-- An insertion whose rows are there before the columns that they match. -/
def rowsFirst : List (BuildStep InsertPart.Argument) :=
  [⟨.row, [.integer 1]⟩, ⟨.mode, ()⟩, ⟨.row, [.integer 2]⟩, ⟨.columns, ["id"]⟩]

/-- The same insertion from its columns on. -/
def columnsFirst : List (BuildStep InsertPart.Argument) :=
  [⟨.columns, ["id"]⟩, ⟨.row, [.integer 1]⟩, ⟨.row, [.integer 2]⟩, ⟨.mode, ()⟩]

/-- Steps in two orders, for each kind of description. -/
theorem order_free_mixed :
    (SameByPart windowFirst joinFirst ∧
      windowFirst.foldl .step (.ofTable "posts") =
        joinFirst.foldl .step (SelectStatement.ofTable "posts") ∧
      (windowFirst.foldl .step (SelectStatement.ofTable "posts")).limit? = some 10) ∧
    (SameByPart filterFirst assignmentFirst ∧
      filterFirst.foldl .step (.ofTable "posts") =
        assignmentFirst.foldl .step (UpdateStatement.ofTable "posts") ∧
      ((filterFirst.foldl .step (UpdateStatement.ofTable "posts")).build.map (·.params)) =
        .ok #[.bool false, .text "On"]) ∧
    SameByPart rowsFirst columnsFirst ∧
      rowsFirst.foldl .step (.ofTable "posts") =
        columnsFirst.foldl .step (InsertStatement.ofTable "posts") ∧
      (rowsFirst.foldl .step (InsertStatement.ofTable "posts")).build =
        .ok ⟨"REPLACE INTO posts (id)\nVALUES (?), (?)", #[.integer 1, .integer 2]⟩ := by
  have hread : SameByPart windowFirst joinFirst := fun part => by cases part <;> rfl
  have hupdate : SameByPart filterFirst assignmentFirst := fun part => by cases part <;> rfl
  have hinsert : SameByPart rowsFirst columnsFirst := fun part => by cases part <;> rfl
  obtain ⟨hreads, hupdates, hinserts⟩ := order_free
  exact ⟨⟨hread, ((hreads _ _ _).2 hread).1, rfl⟩, ⟨hupdate, ((hupdates _ _ _).2 hupdate).1, rfl⟩,
    hinsert, ((hinserts _ _ _).2 hinsert).1, rfl⟩

end BuildStep

end BoundSql
