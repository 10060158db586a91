import BoundSql.Proofs.Statement.Clause

/-!
# The verdict of a compilation

When a description compiles, and with which error it fails otherwise. Four things are asked of a
description: its joins introduce the tables in order, its columns are columns of bound tables, its
groups have two members at least, and its output keys can stand as aliases; the rows of an insertion
also have one value for each column. The joins are looked at first. Behind them the error is that of
the first step of the walk over the description that finds something wrong.

## Main definitions

* `BoundSql.JoinsInOrder` — every join introduces the next table number.
* `BoundSql.FirstMisplacedJoin` — the error for the first join that does not.
* `BoundSql.Description.IsCompilable` — what is asked of a description.

## Main results

* `BoundSql.Description.fault?_sites_eq_none_iff` — a description has no fault exactly when it is
  compilable.
* `BoundSql.Description.build_verdict` — when a description compiles, and its error otherwise.
-/

namespace BoundSql

/-! ## The order of joins -/

/-- Every join introduces the next table number: the `k`-th one introduces number `k + 1`. -/
def JoinsInOrder (joins : List Join) : Prop :=
  ∀ k join, joins[k]? = some join → join.other.index = k + 1

/-- The error for the first join that does not introduce the next table number. -/
def FirstMisplacedJoin (joins : List Join) (e : CompileError) : Prop :=
  ∃ k join, joins[k]? = some join ∧ join.other.index ≠ k + 1 ∧
    (∀ j < k, ∀ earlier, joins[j]? = some earlier → earlier.other.index = j + 1) ∧
    e = .joinOrder k (k + 1) join.other.index

section Order

variable {position : Nat} {joins : List Join}

/-- Joins have no fault in their order exactly when they introduce one number after the other. -/
lemma fault?_joinOrderSites_eq_none_iff :
    Site.fault? (joinOrderSites position joins) = none ↔
      ∀ k join, joins[k]? = some join → join.other.index = position + k + 1 := by
  induction joins generalizing position with
  | nil => simp [joinOrderSites]
  | cons join rest ih =>
    rw [joinOrderSites]
    split
    · next hjoin =>
      rw [ih]
      constructor
      · intro hrest k other hother
        cases k with
        | zero =>
          obtain rfl : join = other := by simpa using hother
          exact hjoin
        | succ k =>
          have hindex := hrest k other (by simpa using hother)
          omega
      · intro hall k other hother
        have hindex := hall (k + 1) other (by simpa using hother)
        omega
    · next hjoin =>
      refine ⟨fun h => absurd h (by simp), fun hall => ?_⟩
      exact absurd (hall 0 join rfl) hjoin

/-- The first fault in the order of joins. -/
lemma fault?_joinOrderSites_eq_some_iff {e : CompileError} :
    Site.fault? (joinOrderSites position joins) = some e ↔
      ∃ k join, joins[k]? = some join ∧ join.other.index ≠ position + k + 1 ∧
        (∀ j < k, ∀ earlier, joins[j]? = some earlier →
          earlier.other.index = position + j + 1) ∧
        e = .joinOrder (position + k) (position + k + 1) join.other.index := by
  induction joins generalizing position with
  | nil => simp [joinOrderSites]
  | cons join rest ih =>
    rw [joinOrderSites]
    split
    · next hjoin =>
      rw [ih]
      constructor
      · rintro ⟨k, other, hother, hwrong, hearlier, rfl⟩
        refine ⟨k + 1, other, by simpa using hother, by omega, ?_, ?_⟩
        · intro j hj earlier hat
          cases j with
          | zero =>
            obtain rfl : join = earlier := by simpa using hat
            exact hjoin
          | succ j =>
            have hindex := hearlier j (by omega) earlier (by simpa using hat)
            omega
        · rw [Nat.add_right_comm position 1 k, Nat.add_assoc position k 1]
      · rintro ⟨k, other, hother, hwrong, hearlier, rfl⟩
        cases k with
        | zero =>
          obtain rfl : join = other := by simpa using hother
          exact absurd hjoin hwrong
        | succ k =>
          refine ⟨k, other, by simpa using hother, by omega, ?_, ?_⟩
          · intro j hj earlier hat
            have hindex := hearlier (j + 1) (by omega) earlier (by simpa using hat)
            omega
          · rw [Nat.add_right_comm position 1 k, Nat.add_assoc position k 1]
    · next hjoin =>
      rw [Site.fault?_fault_cons]
      constructor
      · intro h
        obtain rfl := Option.some.inj h
        exact ⟨0, join, rfl, hjoin, fun j hj => absurd hj (Nat.not_lt_zero j), rfl⟩
      · rintro ⟨k, other, hother, hwrong, hearlier, rfl⟩
        cases k with
        | zero =>
          obtain rfl : join = other := by simpa using hother
          rfl
        | succ k => exact absurd (hearlier 0 (by omega) join rfl) hjoin

/-- Joins in order, as a condition on their sites. -/
lemma fault?_joinOrderSites_zero_eq_none_iff :
    Site.fault? (joinOrderSites 0 joins) = none ↔ JoinsInOrder joins := by
  simp only [fault?_joinOrderSites_eq_none_iff, JoinsInOrder, Nat.zero_add]

/-- The first misplaced join, as a condition on the sites of joins. -/
lemma fault?_joinOrderSites_zero_eq_some_iff {e : CompileError} :
    Site.fault? (joinOrderSites 0 joins) = some e ↔ FirstMisplacedJoin joins e := by
  simp only [fault?_joinOrderSites_eq_some_iff, FirstMisplacedJoin, Nat.zero_add]

end Order

/-! ## Clauses without faults -/

/-- Nothing is wrong where a value is bound. -/
lemma Step.fault?_bind {tables : Nat} (v : Value) : (Step.bind v).fault? tables = none := rfl

/-- A column has no fault exactly when its table is bound. -/
lemma Step.fault?_column_eq_none_iff {tables : Nat} {c : ColumnRef} :
    (Step.column c).fault? tables = none ↔ c.table < tables := by
  simp [fault?]

/-- An output key has no fault exactly when it is not empty and has no question mark. -/
lemma Step.fault?_label_eq_none_iff {tables : Nat} {key : String} :
    (Step.label key).fault? tables = none ↔ key ≠ "" ∧ '?' ∉ key.toList := by
  simp [fault?]

/-- A walk over a predicate has no fault exactly when its columns are bound and it is well
grouped. -/
lemma Predicate.fault?_walk_eq_none_iff {tables : Nat} (p : Predicate) :
    (∀ step ∈ p.walk, step.fault? tables = none) ↔
      (∀ c ∈ p.columns, c.table < tables) ∧ p.WellGrouped := by
  have hsites := p.fault?_sites_eq_none_iff (.qualified tables)
  rw [p.sites_eq_walk, Step.fault?_flatMap_sites, List.findSome?_eq_none_iff] at hsites
  exact hsites

/-- **A clause** has no fault exactly when its columns are bound, its conditions are well grouped
and its output keys can stand as aliases. -/
theorem Clause.fault?_walk_eq_none_iff {tables : Nat} (clause : Clause) :
    (∀ step ∈ clause.walk, step.fault? tables = none) ↔
      (∀ c ∈ clause.columns, c.table < tables) ∧ (∀ p ∈ clause.conditions, p.WellGrouped) ∧
        ∀ key ∈ clause.labels, key ≠ "" ∧ '?' ∉ key.toList := by
  cases clause with
  | select selection =>
    cases selection with
    | wildcard =>
      simp [walk, columns, conditions, labels, Selection.walk, Selection.columns, Selection.labels]
    | column c =>
      simp [walk, columns, conditions, labels, Selection.walk, Selection.columns, Selection.labels,
        Step.fault?_column_eq_none_iff]
    | leaves l =>
      simp only [walk, columns, conditions, labels, Selection.walk, Selection.columns,
        Selection.labels, Selection.leafWalk, List.forall_mem_flatMap, List.forall_mem_cons,
        List.forall_mem_map, Step.fault?_column_eq_none_iff, Step.fault?_label_eq_none_iff,
        List.not_mem_nil, false_imp_iff, implies_true, and_true, true_and, forall_and]
  | join j =>
    simpa [walk, columns, conditions, labels] using j.condition.fault?_walk_eq_none_iff
  | filter p => simpa [walk, columns, conditions, labels] using p.fault?_walk_eq_none_iff
  | order keys =>
    simp [walk, columns, conditions, labels, Step.fault?_column_eq_none_iff]
  | set assignments =>
    simp only [walk, columns, conditions, labels, List.forall_mem_flatMap, List.forall_mem_cons,
      List.forall_mem_map, Step.fault?_column_eq_none_iff, Step.fault?_bind, List.not_mem_nil,
      false_imp_iff, implies_true, and_true]
  | values rows =>
    simp only [walk, columns, conditions, labels, List.forall_mem_flatMap, List.forall_mem_map,
      Step.fault?_bind, List.not_mem_nil, false_imp_iff, implies_true, and_true]
  | _ => simp [walk, columns, conditions, labels]

namespace Description

/-! ## Compilable descriptions -/

/-- What is asked of a description. -/
structure IsCompilable (d : Description) : Prop where
  /-- The joins introduce one table after the other. -/
  joins : JoinsInOrder d.joins
  /-- Every column is one of a bound table. -/
  columns : ∀ c ∈ d.columns, c.table < d.context.bound
  /-- Every group in a condition has two members at least. -/
  groups : ∀ p ∈ d.conditions, p.WellGrouped
  /-- Every output key is not empty and has no question mark. -/
  labels : ∀ key ∈ d.labels, key ≠ "" ∧ '?' ∉ key.toList
  /-- Every row of an insertion has one value for each column. -/
  rows : ∀ s, d = insert s → ∀ row ∈ s.rows, row.length = s.columns.length

/-- The rows of an insertion have no fault exactly when each is as long as the list of columns. -/
lemma fault?_widths_eq_none_iff {d : Description} {tables : Nat} :
    (∀ step ∈ d.widths, step.fault? tables = none) ↔
      ∀ s, d = insert s → ∀ row ∈ s.rows, row.length = s.columns.length := by
  cases d with
  | insert s =>
    have hrows : (∀ step ∈ (insert s).widths, step.fault? tables = none) ↔
        ∀ row ∈ s.rows, row.length = s.columns.length := by
      rw [widths, List.forall_mem_map]
      constructor
      · intro h row hrow
        obtain ⟨number, hnumber⟩ := List.mem_iff_getElem?.1 hrow
        have hstep := h (row, number) (List.mk_mem_zipIdx_iff_getElem?.2 hnumber)
        simpa [Step.fault?] using hstep
      · rintro h ⟨row, number⟩ hmem
        have hrow := List.mem_of_getElem? (List.mk_mem_zipIdx_iff_getElem?.1 hmem)
        simp [Step.fault?, h row hrow]
    rw [hrows]
    constructor
    · rintro h other heq
      obtain rfl := Description.insert.inj heq
      exact h
    · intro h
      exact h s rfl
  | _ => simp [widths]

/-- **A description has no fault** exactly when it is compilable. -/
theorem fault?_sites_eq_none_iff (d : Description) :
    Site.fault? d.sites = none ↔ d.IsCompilable := by
  have hwalk : (∀ step ∈ d.walk, step.fault? d.context.bound = none) ↔
      (∀ s, d = insert s → ∀ row ∈ s.rows, row.length = s.columns.length) ∧
        (∀ c ∈ d.columns, c.table < d.context.bound) ∧ (∀ p ∈ d.conditions, p.WellGrouped) ∧
          ∀ key ∈ d.labels, key ≠ "" ∧ '?' ∉ key.toList := by
    simp only [walk, columns, conditions, labels, List.forall_mem_append,
      List.forall_mem_flatMap, fault?_widths_eq_none_iff, Clause.fault?_walk_eq_none_iff,
      forall_and]
  rw [fault?_sites, Option.or_eq_none_iff, fault?_joinOrderSites_zero_eq_none_iff,
    List.findSome?_eq_none_iff, hwalk]
  constructor
  · rintro ⟨hjoins, hrows, hcolumns, hgroups, hlabels⟩
    exact ⟨hjoins, hcolumns, hgroups, hlabels, hrows⟩
  · rintro ⟨hjoins, hcolumns, hgroups, hlabels, hrows⟩
    exact ⟨hjoins, hrows, hcolumns, hgroups, hlabels⟩

/-- A compilation fails with the first fault of its description. -/
lemma build_eq_error_iff {d : Description} {e : CompileError} :
    d.build = .error e ↔ Site.fault? d.sites = some e := by
  rw [build_eq_assemble, Statement.assemble]
  cases Site.fault? d.sites <;> simp

/-- A compilation fails for the first fault, or it yields the lines of the clauses and the values
bound in them. -/
lemma build_eq (d : Description) :
    d.build =
      match Site.fault? d.sites with
      | some e => .error e
      | none => .ok ⟨"\n".intercalate (d.clauses.map (·.text Value.placeholder d.context)),
          d.bound.toArray⟩ := by
  cases hfault : Site.fault? d.sites with
  | some e => exact build_eq_error_iff.2 hfault
  | none =>
    refine build_eq_ok_iff.2 ⟨hfault, ?_⟩
    rw [text, texts_eq_clauses, values_sites]

/-- The first fault of a description: a misplaced join, or else what the walk finds. -/
lemma fault?_sites_eq_some_iff {d : Description} {e : CompileError} :
    Site.fault? d.sites = some e ↔ FirstMisplacedJoin d.joins e ∨
      (JoinsInOrder d.joins ∧ Step.FirstFault d.context.bound d.walk e) := by
  rw [fault?_sites, Option.or_eq_some_iff, fault?_joinOrderSites_zero_eq_none_iff,
    fault?_joinOrderSites_zero_eq_some_iff, Step.findSome?_fault?_eq_some_iff]

/-- **The verdict of a compilation.** A description compiles exactly when it is compilable. If it
does not, the error is that of the first misplaced join, if there is one, and otherwise that of the
first step of the walk that finds something wrong. The walk goes over what is returned, leaf by leaf
and each column before its key, then over the joins, the assignments of an update, the condition and
the sort keys; it counts a group before it goes over its members from left to right.

**Proof sketch.** The compilation assembles the sites of the description, and these are the faults
of the joins followed by the sites of the walk (`sites_eq_walk`). So the first fault is found in the
one list or else in the other, and there is none exactly when no step of either finds one. -/
theorem build_verdict (d : Description) :
    ((∃ statement, d.build = .ok statement) ↔ d.IsCompilable) ∧
      ∀ e, d.build = .error e ↔ FirstMisplacedJoin d.joins e ∨
        (JoinsInOrder d.joins ∧ Step.FirstFault d.context.bound d.walk e) := by
  constructor
  · rw [← fault?_sites_eq_none_iff]
    constructor
    · rintro ⟨statement, h⟩
      exact (build_eq_ok_iff.1 h).1
    · intro h
      exact ⟨_, build_eq_ok_iff.2 ⟨h, rfl⟩⟩
  · intro e
    rw [build_eq_error_iff, fault?_sites_eq_some_iff]

/-- The column of a join is refused in front of the group in the condition of the read. -/
example : (select {
      table := some "blog"
      joins := [⟨⟨1, "authors"⟩, (⟨2, "id"⟩ : ColumnRef).isNull⟩]
      where? := some (.all [])
    }).build = .error (.unboundTable 2 2) := rfl

/-! ## Errors that do not occur -/

/-- A walk over a description looks at each of its columns. -/
lemma filterMap_column?_walk (d : Description) : d.walk.filterMap Step.column? = d.columns := by
  have hwidths : d.widths.filterMap Step.column? = [] := by
    cases d with
    | insert s => simp [widths, List.filterMap_map, Step.column?]
    | _ => rfl
  rw [walk, List.filterMap_append, hwidths, List.nil_append, List.filterMap_flatMap, columns]
  exact List.flatMap_congr fun clause _ => clause.filterMap_column?_walk

/-- Joins in order are not misplaced. -/
lemma not_firstMisplacedJoin {joins : List Join} (h : JoinsInOrder joins) (e : CompileError) :
    ¬ FirstMisplacedJoin joins e := by
  rintro ⟨k, join, hjoin, hwrong, -⟩
  exact hwrong (h k join hjoin)

/-- A description whose joins are in order fails for another reason, if it fails. -/
lemma build_ne_joinOrder {d : Description} (hjoins : JoinsInOrder d.joins)
    (position expected found : Nat) : d.build ≠ .error (.joinOrder position expected found) := by
  intro herror
  rw [build_eq_error_iff, fault?_sites_eq_some_iff] at herror
  rcases herror with hmisplaced | ⟨-, -, step, -, -, hfault, -⟩
  · exact not_firstMisplacedJoin hjoins _ hmisplaced
  · cases step <;> simp [Step.fault?] at hfault

/-- A description whose columns are bound fails for another reason, if it fails. -/
lemma build_ne_unboundTable {d : Description} (hjoins : JoinsInOrder d.joins)
    (hcolumns : ∀ c ∈ d.columns, c.table < d.context.bound) (index bound : Nat) :
    d.build ≠ .error (.unboundTable index bound) := by
  intro herror
  rw [build_eq_error_iff, fault?_sites_eq_some_iff] at herror
  rcases herror with hmisplaced | ⟨-, front, step, back, hwalk, hfault, -⟩
  · exact not_firstMisplacedJoin hjoins _ hmisplaced
  · cases step with
    | column c =>
      have hmem : c ∈ d.columns := by
        rw [← filterMap_column?_walk, hwalk]
        simp [Step.column?]
      rw [(Step.fault?_column_eq_none_iff).2 (hcolumns c hmem)] at hfault
      cases hfault
    | _ => simp [Step.fault?] at hfault

end Description

end BoundSql
