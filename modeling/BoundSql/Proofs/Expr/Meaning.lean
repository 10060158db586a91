import BoundSql.Proofs.Expr.Chained
import BoundSql.Proofs.Expr.Walk
import Mathlib.Data.List.Forall2

/-!
# What predicates mean

Whether a row meets a comparison can be unknown, as when a value is missing. So a predicate has one
of three truths, given those of its comparisons: the members of a group are taken together two by
two. What a chain of predicates means does not depend on the shape of the first one, though the tree
of the chain does: extending a group and wrapping anything else come to the same.

## Main definitions

* `BoundSql.Truth` — the three truths.
* `BoundSql.Truth.conjunction`, `BoundSql.Truth.disjunction` — the truth of several conditions.
* `BoundSql.Predicate.eval` — the truth of a predicate, given those of its comparisons.
* `BoundSql.Predicate.CompilesWith` — a predicate compiles and binds some values.

## Main results

* `BoundSql.Connective.foldr_apply` — taking truths together two by two is taking all at once.
* `BoundSql.Predicate.eval_foldl_combine` — what a chain means.
* `BoundSql.Predicate.compilesWith_foldl_combine` — the values that a chain binds.
-/

namespace BoundSql

/-! ## Truths -/

/-- Whether a row meets a condition. -/
inductive Truth where
  /-- It does not. -/
  | false
  /-- It cannot be told. -/
  | unknown
  /-- It does. -/
  | true
deriving DecidableEq, Repr

namespace Truth

/-- The truth of two conditions that both have to be met. -/
protected def and : Truth → Truth → Truth
  | .true, .true => .true
  | .false, _ => .false
  | _, .false => .false
  | _, _ => .unknown

/-- The truth of two conditions one of which has to be met. -/
protected def or : Truth → Truth → Truth
  | .false, .false => .false
  | .true, _ => .true
  | _, .true => .true
  | _, _ => .unknown

/-- The truth of conditions that all have to be met: one that is not met decides. -/
def conjunction (truths : List Truth) : Truth :=
  if .false ∈ truths then .false else if .unknown ∈ truths then .unknown else .true

/-- The truth of conditions one of which has to be met: one that is met decides. -/
def disjunction (truths : List Truth) : Truth :=
  if .true ∈ truths then .true else if .unknown ∈ truths then .unknown else .false

end Truth

namespace Connective

/-- The truth of two conditions under a connective. -/
def apply : Connective → Truth → Truth → Truth
  | .and => Truth.and
  | .or => Truth.or

/-- The truth that changes no other one under a connective. -/
def neutral : Connective → Truth
  | .and => .true
  | .or => .false

/-- The truth of several conditions under a connective. -/
def overall : Connective → List Truth → Truth
  | .and => Truth.conjunction
  | .or => Truth.disjunction

variable (connective : Connective)

/-- The neutral truth value changes nothing. -/
lemma neutral_apply (t : Truth) : connective.apply connective.neutral t = t := by
  cases connective <;> cases t <;> rfl

/-- Connectives are associative, with an unknown operand too. -/
lemma apply_assoc (r s t : Truth) :
    connective.apply (connective.apply r s) t = connective.apply r (connective.apply s t) := by
  cases connective <;> cases r <;> cases s <;> cases t <;> rfl

/-- One condition more. -/
lemma overall_cons (t : Truth) (truths : List Truth) :
    connective.overall (t :: truths) = connective.apply t (connective.overall truths) := by
  cases connective with
  | and =>
    simp only [overall, apply, Truth.conjunction, List.mem_cons]
    cases t <;> by_cases hfalse : Truth.false ∈ truths <;>
      by_cases hunknown : Truth.unknown ∈ truths <;> simp [hfalse, hunknown, Truth.and]
  | or =>
    simp only [overall, apply, Truth.disjunction, List.mem_cons]
    cases t <;> by_cases htrue : Truth.true ∈ truths <;>
      by_cases hunknown : Truth.unknown ∈ truths <;> simp [htrue, hunknown, Truth.or]

/-- **Taking truths together two by two** is taking all of them at once. -/
theorem foldr_apply (truths : List Truth) :
    truths.foldr connective.apply connective.neutral = connective.overall truths := by
  induction truths with
  | nil => cases connective <;> rfl
  | cons t rest ih => rw [List.foldr_cons, ih, overall_cons]

/-- The truth of conditions in two parts. -/
lemma overall_append (front back : List Truth) :
    connective.overall (front ++ back) =
      connective.apply (connective.overall front) (connective.overall back) := by
  induction front with
  | nil => rw [← foldr_apply connective [], List.foldr_nil, neutral_apply, List.nil_append]
  | cons t rest ih => rw [List.cons_append, overall_cons, overall_cons, ih, apply_assoc]

/-- The truth of a single condition. -/
@[simp] lemma overall_singleton (t : Truth) : connective.overall [t] = t := by
  cases connective <;> cases t <;> rfl

end Connective

/-! ## Predicates -/

namespace Predicate

section Eval

variable (truth : Comparison → Truth)

mutual

/-- The truth of a predicate, given those of the comparisons. -/
def eval : Predicate → Truth
  | comparison leaf => truth leaf
  | group connective members => evalMembers connective members

/-- The truth of members under a connective, taken together two by two. -/
def evalMembers (connective : Connective) : List Predicate → Truth
  | [] => connective.neutral
  | member :: rest => connective.apply member.eval (evalMembers connective rest)

end

/-- A group is as true as its members are together. -/
lemma eval_group (connective : Connective) (members : List Predicate) :
    (group connective members).eval truth = connective.overall (members.map (eval truth)) := by
  have hmembers : evalMembers truth connective members =
      connective.overall (members.map (eval truth)) := by
    rw [← connective.foldr_apply]
    induction members with
    | nil => rfl
    | cons member rest ih => rw [evalMembers, ih, List.map_cons, List.foldr_cons]
  rw [eval, hmembers]

variable {connective : Connective}

/-- What a predicate contributes to a chain means what the predicate does. -/
lemma overall_spread (p : Predicate) :
    connective.overall ((p.spread connective).map (eval truth)) = p.eval truth := by
  rcases p.spread_cases connective with hitself | ⟨members, rfl⟩
  · rw [hitself, List.map_singleton, Connective.overall_singleton]
  · rw [spread_group, eval_group]

/-- **What a chain means**: it is as true as its pieces are together.

**Proof sketch.** A chain of two pieces at least is one group of what the first piece contributes
and the others (`foldl_combine`). A piece that contributes its members can be told apart from one
that contributes itself by the tree, but not by its truth (`overall_spread`). -/
theorem eval_foldl_combine (p : Predicate) (qs : List Predicate) :
    (qs.foldl (combine connective) p).eval truth =
      connective.overall ((p :: qs).map (eval truth)) := by
  cases qs with
  | nil => exact (connective.overall_singleton _).symm
  | cons q rest =>
    rw [foldl_combine, eval_group, List.map_append, Connective.overall_append, overall_spread,
      ← Connective.overall_cons, ← List.map_cons]

end Eval

/-! ## Values -/

variable {ctx : Context} {connective : Connective}

/-- A predicate compiles on its own and binds the values. -/
def CompilesWith (ctx : Context) (p : Predicate) (values : List Value) : Prop :=
  ∃ text, (p.compile ctx).run #[] = .ok text values.toArray

/-- A predicate that compiles binds its values. -/
lemma compilesWith_iff {p : Predicate} {values : List Value} :
    p.CompilesWith ctx values ↔ p.Compiles ctx ∧ values = p.values := by
  constructor
  · rintro ⟨text, h⟩
    obtain ⟨-, -, hvalues⟩ := (p.compile_visits ctx).eq_of_run_eq_ok h
    refine ⟨⟨text, _, h⟩, ?_⟩
    rw [values_sites, Array.empty_append] at hvalues
    exact List.toArray_inj hvalues
  · rintro ⟨⟨text, params, h⟩, rfl⟩
    obtain ⟨-, -, hparams⟩ := (p.compile_visits ctx).eq_of_run_eq_ok h
    refine ⟨text, h.trans ?_⟩
    rw [hparams, values_sites, Array.empty_append]

/-- What a predicate contributes to a chain binds what the predicate does. -/
lemma values_spread (p : Predicate) : (p.spread connective).flatMap values = p.values := by
  rcases p.spread_cases connective with hitself | ⟨members, rfl⟩
  · rw [hitself, List.flatMap_singleton]
  · rw [spread_group, values_group]

/-- The values of a chain are those of its pieces in order. -/
lemma values_foldl_combine (p : Predicate) (qs : List Predicate) :
    (qs.foldl (combine connective) p).values = (p :: qs).flatMap values := by
  cases qs with
  | nil => exact (List.append_nil _).symm
  | cons q rest =>
    rw [foldl_combine, values_group, List.flatMap_append, values_spread, ← List.flatMap_cons]

/-- Several predicates compile and bind their values. -/
lemma forall₂_compilesWith_iff {ps : List Predicate} {valueLists : List (List Value)} :
    List.Forall₂ (CompilesWith ctx) ps valueLists ↔
      (∀ p ∈ ps, p.Compiles ctx) ∧ valueLists = ps.map values := by
  induction ps generalizing valueLists with
  | nil => simp
  | cons p rest ih =>
    simp only [List.forall₂_cons_left_iff, ih, compilesWith_iff, List.forall_mem_cons,
      List.map_cons]
    constructor
    · rintro ⟨_, _, ⟨hp, rfl⟩, ⟨hrest, rfl⟩, rfl⟩
      exact ⟨⟨hp, hrest⟩, rfl⟩
    · rintro ⟨⟨hp, hrest⟩, rfl⟩
      exact ⟨_, _, ⟨hp, rfl⟩, ⟨hrest, rfl⟩, rfl⟩

/-- **The values that a chain binds**: if its pieces compile, so does the chain, and it binds the
values of the pieces one after the other. -/
theorem compilesWith_foldl_combine {p : Predicate} {qs : List Predicate}
    {valueLists : List (List Value)}
    (h : List.Forall₂ (CompilesWith ctx) (p :: qs) valueLists) :
    (qs.foldl (combine connective) p).CompilesWith ctx valueLists.flatten := by
  obtain ⟨hcompile, rfl⟩ := forall₂_compilesWith_iff.1 h
  obtain ⟨hp, hqs⟩ := List.forall_mem_cons.1 hcompile
  refine compilesWith_iff.2 ⟨compiles_foldl_combine_iff.2 ⟨hqs, .inl hp⟩, ?_⟩
  rw [values_foldl_combine, List.flatMap_def]

end Predicate

end BoundSql
