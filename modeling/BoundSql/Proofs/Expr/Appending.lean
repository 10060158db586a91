import BoundSql.Proofs.Expr.Walk

/-!
# Compilations only append

Compiling an expression appends values to the parameters and does nothing else with them: neither
the result nor what is appended depends on what was bound before. If the expression compiles, all of
its values are appended, in the order of the walk over it. If it does not, the walk ends at the
first step that finds something wrong, and exactly the values in front of this step are appended;
they stay where they are.

## Main definitions

* `BoundSql.Compile.Appends` — a compilation has one result and appends the same values, whatever is
  bound already.
* `BoundSql.Expression` — an expression of any kind, with `BoundSql.Expression.compile`,
  `BoundSql.Expression.walk` and `BoundSql.Expression.values`.

## Main results

* `BoundSql.Compile.Visits.appends` — what a compilation appends that passes the sites of a walk.
* `BoundSql.Expression.compile_appends` — what the compilation of an expression appends.
-/

namespace BoundSql

/-! ## Compilations that append -/

section Appends

variable {α : Type} {tables : Nat}

/-- A step that finds something wrong binds nothing. -/
lemma Step.value?_eq_none {step : Step} {e : CompileError} (h : step.fault? tables = some e) :
    step.value? = none := by
  cases step with
  | bind v => cases h
  | column c | arity connective count | label key | width row expected found => rfl

/-- A step that finds something wrong is a fault. -/
lemma Step.sites_eq_fault {step : Step} {e : CompileError} (h : step.fault? tables = some e) :
    step.sites tables = [.fault e] := by
  rw [sites, value?_eq_none h, h]
  rfl

namespace Compile

/-- A compilation has the given result and appends the given values, whatever is bound already. -/
def Appends (m : Compile α) (result : Except CompileError α) (appended : List Value) : Prop :=
  ∀ params : Array Value, m.run params =
    match result with
    | .ok a => .ok a (params ++ appended.toArray)
    | .error e => .error e (params ++ appended.toArray)

/-- Sites up to the first fault: the values in front of it are appended. -/
lemma outcome_append_fault (a : α) {front : List Site} (hfront : Site.fault? front = none)
    (e : CompileError) (back : List Site) (params : Array Value) :
    outcome a (front ++ .fault e :: back) params =
      .error e (params ++ (Site.values front).toArray) := by
  rw [outcome_append a, outcome_of_fault?_eq_none a hfront]
  rfl

/-- **A compilation that passes the sites of a walk** appends the values of the walk if no step of
it finds something wrong, and otherwise the values in front of the first step that does. -/
theorem Visits.appends {m : Compile α} {walk : List Step} {a : α}
    (hm : m.Visits (walk.flatMap (Step.sites tables)) a) :
    m.Appends (.ok a) (walk.filterMap Step.value?) ∨
      ∃ front step back e, walk = front ++ step :: back ∧
        (∀ s ∈ front, s.fault? tables = none) ∧ step.fault? tables = some e ∧
          m.Appends (.error e) (front.filterMap Step.value?) := by
  cases hfault : walk.findSome? (Step.fault? tables) with
  | none =>
    left
    intro params
    have hsites : Site.fault? (walk.flatMap (Step.sites tables)) = none := by
      rw [Step.fault?_flatMap_sites, hfault]
    rw [hm params, outcome_of_fault?_eq_none a hsites, Step.values_flatMap_sites]
  | some e =>
    -- The sites of the steps in front hold no fault, and those of the step itself nothing else.
    right
    obtain ⟨front, step, back, rfl, hstep, hfront⟩ := Step.findSome?_fault?_eq_some_iff.1 hfault
    refine ⟨front, step, back, e, rfl, hfront, hstep, fun params => ?_⟩
    have hsites : Site.fault? (front.flatMap (Step.sites tables)) = none := by
      rw [Step.fault?_flatMap_sites]
      exact List.findSome?_eq_none_iff.2 hfront
    rw [hm params, List.flatMap_append, List.flatMap_cons, Step.sites_eq_fault hstep,
      List.singleton_append, outcome_append_fault a hsites, Step.values_flatMap_sites]

end Compile

end Appends

/-! ## Steps over expressions -/

/-- Whether a step looks at a column, a group or an output key. -/
def Step.isCheck : Step → Bool
  | column _ | arity _ _ | label _ => true
  | bind _ | width _ _ _ => false

/-- Of an operand only its value is no check. -/
lemma Operand.isCheck_walk (operand : Operand) :
    ∀ step ∈ operand.walk, step.value? = none → step.isCheck = true := by
  cases operand <;> simp [walk, Step.value?, Step.isCheck]

/-- Of a comparison only its values are no checks. -/
lemma Comparison.isCheck_walk (comparison : Comparison) :
    ∀ step ∈ comparison.walk, step.value? = none → step.isCheck = true := by
  cases comparison with
  | binary op left right => exact List.forall_mem_append.2 ⟨left.isCheck_walk, right.isCheck_walk⟩
  | isNull c | isNotNull c => simp [walk, Step.isCheck]

namespace Predicate

mutual

/-- A step over a predicate binds a value, or it looks at a column or a group. -/
theorem isCheck_walk (p : Predicate) :
    ∀ step ∈ p.walk, step.value? = none → step.isCheck = true := by
  cases p with
  | comparison leaf => exact leaf.isCheck_walk
  | group connective members =>
    exact List.forall_mem_cons.2 ⟨fun _ => rfl, isCheck_memberWalk members⟩

/-- So does every step over the members of a group. -/
theorem isCheck_memberWalk (members : List Predicate) :
    ∀ step ∈ memberWalk members, step.value? = none → step.isCheck = true := by
  cases members with
  | nil => simp [memberWalk]
  | cons member rest =>
    exact List.forall_mem_append.2 ⟨isCheck_walk member, isCheck_memberWalk rest⟩

end

end Predicate

/-- A step over a selection looks at a column or an output key. -/
lemma Selection.isCheck_walk (selection : Selection) :
    ∀ step ∈ selection.walk, step.isCheck = true := by
  cases selection with
  | wildcard | column c => simp [walk, Step.isCheck]
  | leaves l =>
    refine List.forall_mem_flatMap.2 fun leaf _ => ?_
    simp [leafWalk, Step.isCheck]

/-! ## Expressions of every kind -/

/-- An expression of any kind. -/
inductive Expression where
  /-- A column. -/
  | column (column : ColumnRef)
  /-- One side of a comparison. -/
  | operand (operand : Operand)
  /-- A leaf of a predicate. -/
  | comparison (comparison : Comparison)
  /-- A predicate. -/
  | predicate (predicate : Predicate)
  /-- What a read returns; a mapping of output keys is one of the cases. -/
  | projection (projection : Projection)
  /-- A sort key. -/
  | sortKey (key : SortKey)
  /-- A join. -/
  | join (join : Join)
  /-- An assignment. -/
  | assignment (assignment : Assignment)

namespace Expression

/-- The text of an expression; its values are bound on the way. -/
def compile (ctx : Context) : Expression → Compile String
  | column c => c.compile ctx
  | operand o => o.compile ctx
  | comparison c => c.compile ctx
  | predicate p => p.compile ctx
  | projection p => p.compile ctx
  | sortKey k => k.compile ctx
  | join j => j.compile ctx
  | assignment a => a.compile ctx

/-- The steps over an expression, depth first and from left to right. -/
def walk : Expression → List Step
  | column c => [.column c]
  | operand o => o.walk
  | comparison c => c.walk
  | predicate p => p.walk
  | projection p => p.selection.walk
  | sortKey k => [.column k.column]
  | join j => j.condition.walk
  | assignment a => [.column a.column, .bind a.value]

/-- The values bound in an expression, depth first and from left to right. -/
def values (expression : Expression) : List Value := expression.walk.filterMap Step.value?

/-- A step over an expression binds a value, or it looks at a column, a group or an output key. -/
lemma isCheck_walk (expression : Expression) :
    ∀ step ∈ expression.walk, step.value? = none → step.isCheck = true := by
  cases expression with
  | operand o => exact o.isCheck_walk
  | comparison c => exact c.isCheck_walk
  | predicate p => exact p.isCheck_walk
  | projection p => exact fun step hstep _ => p.selection.isCheck_walk step hstep
  | join j => exact j.condition.isCheck_walk
  | column c | sortKey k => simp [walk, Step.isCheck]
  | assignment a => simp [walk, Step.value?, Step.isCheck]

/-- The compilation of an expression passes the sites of its walk. -/
lemma exists_visits (ctx : Context) (expression : Expression) :
    ∃ text, (expression.compile ctx).Visits
      (expression.walk.flatMap (Step.sites ctx.bound)) text := by
  cases expression with
  | column c => exact ⟨_, c.sites_eq_walk ctx ▸ c.compile_visits ctx⟩
  | operand o => exact ⟨_, o.sites_eq_walk ctx ▸ o.compile_visits ctx⟩
  | comparison c => exact ⟨_, c.sites_eq_walk ctx ▸ c.compile_visits ctx⟩
  | predicate p => exact ⟨_, p.sites_eq_walk ctx ▸ p.compile_visits ctx⟩
  | projection p => exact ⟨_, p.sites_eq_walk ctx ▸ p.compile_visits ctx⟩
  | sortKey k =>
    have hsites : k.sites ctx = _ := k.column.sites_eq_walk ctx
    exact ⟨_, hsites ▸ k.compile_visits ctx⟩
  | join j =>
    have hsites : j.sites ctx = _ := j.condition.sites_eq_walk ctx
    exact ⟨_, hsites ▸ j.compile_visits ctx⟩
  | assignment a =>
    have hsites : a.sites ctx = (assignment a).walk.flatMap (Step.sites ctx.bound) := by
      rw [Assignment.sites, a.column.sites_eq_walk ctx, walk, List.flatMap_singleton,
        List.flatMap_cons, List.flatMap_singleton]
      rfl
    exact ⟨_, hsites ▸ a.compile_visits ctx⟩

/-- **Expressions only append.** Compiling an expression has the same result and appends the same
values behind the parameters, whatever these are. If it yields a text, all values of the expression
are appended. If it fails, then at the first column, group or output key on the walk over the
expression that is wrong, and exactly the values in front of it are appended.

**Proof sketch.** The compilation passes the sites of the walk (`exists_visits`). Values are
appended one by one until a step is at fault, and such a step binds nothing itself
(`Visits.appends`). -/
theorem compile_appends (expression : Expression) (ctx : Context) :
    ∃ result appended, (expression.compile ctx).Appends result appended ∧
      (∀ text, result = .ok text → appended = expression.values) ∧
      ∀ e, result = .error e → ∃ front step back, expression.walk = front ++ step :: back ∧
        (∀ s ∈ front, s.fault? ctx.bound = none) ∧ step.isCheck = true ∧
          step.fault? ctx.bound = some e ∧ appended = front.filterMap Step.value? := by
  obtain ⟨text, hvisits⟩ := expression.exists_visits ctx
  rcases hvisits.appends with happends | ⟨front, step, back, e, hwalk, hfront, hstep, happends⟩
  · exact ⟨.ok text, _, happends, fun _ _ => rfl, nofun⟩
  · refine ⟨.error e, _, happends, nofun, fun e' he => ?_⟩
    obtain rfl := Except.error.inj he
    have hmem : step ∈ expression.walk := hwalk ▸ List.mem_append_right _ List.mem_cons_self
    have hcheck := expression.isCheck_walk step hmem (Step.value?_eq_none hstep)
    exact ⟨front, step, back, hwalk, hfront, hcheck, hstep, rfl⟩

/-- The value on the left stays bound where the column on the right is refused. -/
example : ((comparison (.binary .equals (.value (.bool true)) (.column ⟨1, "draft"⟩))).compile
    (.qualified 1)).run #[.null] = .error (.unboundTable 1 1) #[.null, .bool true] := rfl

end Expression

end BoundSql
