import BoundSql.Proofs.Expr.Faults

/-!
# Chained predicates

Chaining extends a group of the same connective and wraps anything else. So the members of a chain
are those of its first piece, if that is a group of the connective, followed by the other pieces,
and the size of a group counts when the chain is compiled: a first piece that is too small a group
is completed by the pieces behind it.

## Main definitions

* `BoundSql.Predicate.Compiles` — a predicate compiles on its own.
* `BoundSql.Predicate.spread` — what a predicate contributes at the front of a chain.
* `BoundSql.Predicate.Completed` — a predicate compiles, or the pieces behind it complete it.

## Main results

* `BoundSql.Predicate.compiles_group_iff` — a group compiles exactly when it has two members at
  least and all of them compile.
* `BoundSql.Predicate.foldl_combine` — the members of a chain.
* `BoundSql.Predicate.compiles_foldl_combine_iff` — when a chain compiles.
-/

namespace BoundSql

namespace Predicate

variable {ctx : Context}

/-! ## Predicates that compile -/

/-- A predicate compiles on its own. -/
def Compiles (ctx : Context) (p : Predicate) : Prop :=
  ∃ text params, (p.compile ctx).run #[] = .ok text params

/-- A predicate compiles exactly when it has no fault. -/
lemma compiles_iff {p : Predicate} : p.Compiles ctx ↔ Site.fault? (p.sites ctx) = none := by
  constructor
  · rintro ⟨text, params, h⟩
    exact ((p.compile_visits ctx).eq_of_run_eq_ok h).1
  · intro h
    refine ⟨p.text Value.placeholder ctx, #[] ++ (Site.values (p.sites ctx)).toArray, ?_⟩
    rw [p.compile_visits ctx #[], Compile.outcome_of_fault?_eq_none _ h]

/-- Whether a predicate compiles depends on the number of tables alone. -/
lemma compiles_congr {other : Context} (h : ctx.bound = other.bound) (p : Predicate) :
    p.Compiles ctx ↔ p.Compiles other := by
  rw [compiles_iff, compiles_iff, fault?_sites_eq_none_iff, fault?_sites_eq_none_iff, h]

/-- **A group** compiles exactly when it has two members at least and all of them compile. -/
theorem compiles_group_iff {connective : Connective} {members : List Predicate} :
    (group connective members).Compiles ctx ↔
      2 ≤ members.length ∧ ∀ m ∈ members, m.Compiles ctx := by
  simp only [compiles_iff, sites, Site.fault?_append_eq_none, fault?_aritySites_eq_none,
    memberSites_eq_flatMap, Site.fault?_flatMap_eq_none]

/-! ## The members of a chain -/

variable {connective : Connective}

/-- What a predicate contributes at the front of a chain: its members, if it is a group of the
chain's connective, and otherwise itself. -/
def spread (connective : Connective) : Predicate → List Predicate
  | comparison leaf => [comparison leaf]
  | group kind members => if kind = connective then members else [group kind members]

/-- A chain of two pieces is the group of what the first one contributes and the other. -/
lemma combine_eq_group (p q : Predicate) :
    p.combine connective q = group connective (p.spread connective ++ [q]) := by
  cases p with
  | comparison leaf => rfl
  | group kind members => by_cases h : kind = connective <;> simp [combine, spread, h]

/-- A group of the connective contributes its members. -/
@[simp] lemma spread_group (members : List Predicate) :
    (group connective members).spread connective = members := if_pos rfl

/-- A predicate contributes itself, or it is a group of the connective. -/
lemma spread_cases (connective : Connective) (p : Predicate) :
    p.spread connective = [p] ∨ ∃ members, p = group connective members := by
  cases p with
  | comparison leaf => exact .inl rfl
  | group kind members =>
    by_cases h : kind = connective
    · exact .inr ⟨members, by rw [h]⟩
    · exact .inl (if_neg h)

/-- **The members of a chain** of two pieces at least: what the first one contributes, and the
others. -/
theorem foldl_combine (p q : Predicate) (qs : List Predicate) :
    (q :: qs).foldl (combine connective) p =
      group connective (p.spread connective ++ q :: qs) := by
  -- Each piece is added to the group that the pieces in front of it have become.
  induction qs generalizing p q with
  | nil => exact combine_eq_group p q
  | cons next rest ih =>
    rw [List.foldl_cons, ih, combine_eq_group, spread_group, List.append_assoc]
    rfl

/-! ## Chains that compile -/

/-- The first piece of a chain compiles, or it is a group of the connective that has too few
members, all of which compile, and the `more` pieces behind it supply those that are missing. -/
def Completed (connective : Connective) (ctx : Context) (more : Nat) (p : Predicate) : Prop :=
  p.Compiles ctx ∨ ∃ members, p = group connective members ∧ members.length < 2 ∧
    2 ≤ members.length + more ∧ ∀ m ∈ members, m.Compiles ctx

/-- Without a piece behind it, nothing is completed. -/
lemma completed_zero_iff {p : Predicate} : p.Completed connective ctx 0 ↔ p.Compiles ctx := by
  constructor
  · rintro (h | ⟨members, -, hfew, henough, -⟩)
    · exact h
    · omega
  · exact .inl

/-- With one piece behind it, a group of one member is completed. -/
lemma completed_one_iff {p : Predicate} :
    p.Completed connective ctx 1 ↔
      p.Compiles ctx ∨ ∃ m, p = group connective [m] ∧ m.Compiles ctx := by
  refine or_congr_right ⟨?_, ?_⟩
  · rintro ⟨members, rfl, hfew, henough, hmembers⟩
    obtain ⟨m, rfl⟩ := List.length_eq_one_iff.1 (by omega : members.length = 1)
    exact ⟨m, rfl, hmembers m (List.mem_singleton_self m)⟩
  · rintro ⟨m, rfl, hm⟩
    exact ⟨[m], rfl, by simp, by simp, by simpa using hm⟩

/-- A piece with others behind it is completed exactly when what it contributes compiles and is
enough together with them. -/
lemma completed_iff_spread {p : Predicate} {more : Nat} (hmore : 0 < more) :
    p.Completed connective ctx more ↔
      2 ≤ (p.spread connective).length + more ∧ ∀ m ∈ p.spread connective, m.Compiles ctx := by
  -- A predicate that contributes itself is no group of the connective, so only its own compilation
  -- counts.
  have hitself : p.spread connective = [p] → (∀ members, p ≠ group connective members) →
      (p.Completed connective ctx more ↔ 2 ≤ (p.spread connective).length + more ∧
        ∀ m ∈ p.spread connective, m.Compiles ctx) := by
    intro hspread hother
    rw [hspread, List.forall_mem_singleton, List.length_singleton]
    constructor
    · rintro (h | ⟨members, heq, -⟩)
      · exact ⟨by omega, h⟩
      · exact absurd heq (hother members)
    · exact fun h => .inl h.2
  cases p with
  | comparison leaf => exact hitself rfl nofun
  | group kind members =>
    by_cases hkind : kind = connective
    · subst hkind
      rw [Completed, compiles_group_iff, spread_group]
      constructor
      · rintro (⟨htwo, hmembers⟩ | ⟨_, heq, -, henough, hmembers⟩)
        · exact ⟨by omega, hmembers⟩
        · obtain ⟨-, rfl⟩ := Predicate.group.inj heq
          exact ⟨henough, hmembers⟩
      · rintro ⟨henough, hmembers⟩
        by_cases htwo : 2 ≤ members.length
        · exact .inl ⟨htwo, hmembers⟩
        · exact .inr ⟨members, rfl, by omega, henough, hmembers⟩
    · refine hitself (if_neg hkind) ?_
      rintro others heq
      exact hkind (Predicate.group.inj heq).1

/-- **A chain compiles** exactly when every piece behind the first one does, and the first one does
too or is completed by them.

**Proof sketch.** A chain of two pieces at least is one group of what the first piece contributes
and the others (`foldl_combine`), and a group compiles when it is large enough and its members
compile. -/
theorem compiles_foldl_combine_iff {p : Predicate} {qs : List Predicate} :
    (qs.foldl (combine connective) p).Compiles ctx ↔
      (∀ q ∈ qs, q.Compiles ctx) ∧ p.Completed connective ctx qs.length := by
  cases qs with
  | nil => simp [completed_zero_iff]
  | cons q rest =>
    rw [foldl_combine, compiles_group_iff, completed_iff_spread (by simp), List.length_append,
      List.forall_mem_append, ← and_assoc, and_comm]

/-- A chain of two pieces. -/
lemma compiles_combine_iff {p q : Predicate} :
    (p.combine connective q).Compiles ctx ↔
      q.Compiles ctx ∧ (p.Compiles ctx ∨ ∃ m, p = group connective [m] ∧ m.Compiles ctx) := by
  have h : ([q].foldl (combine connective) p).Compiles ctx ↔ _ := compiles_foldl_combine_iff
  rwa [List.forall_mem_singleton, List.length_singleton, completed_one_iff] at h

end Predicate

end BoundSql
