import BoundSql.Proofs.Expr.Tokens
import BoundSql.Proofs.Sql.Condition

/-!
# Grouping of conditions

A condition reads back as it was built. Its text is split into tokens that have exactly one reading,
the condition itself, and this reading does not depend on the precedence of the connectives: where
it could matter, there are parentheses.

## Main results

* `BoundSql.Predicate.tokens_read` — the tokens and the values of a condition are read as the
  condition.
* `BoundSql.Predicate.reads_iff_of_compile` — no other condition is read from its text.
-/

namespace BoundSql

open Sql

/-! ## Comparisons -/

section Leaves

variable {ctx : Context} (hbare : ctx.isQualified = false → ctx.bound = 1)

include hbare

/-- A column is read back: without an alias, it can only be one of the first table. -/
lemma ColumnRef.tokens_read {column : ColumnRef}
    (hfault : Site.fault? (column.sites ctx) = none) :
    ReadsColumn (column.tokens ctx) column := by
  unfold tokens
  split
  · exact .qualified column.table column.name
  · next hqualified =>
    have hbound : ctx.bound = 1 := hbare (by simpa using hqualified)
    have htable : column.table = 0 := by
      rw [column.fault?_sites_eq_none] at hfault
      omega
    obtain ⟨table, name⟩ := column
    subst htable
    exact .bare name

/-- The tokens of a compiled operand read as the operand. -/
lemma Operand.tokens_read {operand : Operand}
    (hfault : Site.fault? (operand.sites ctx) = none) :
    ReadsOperand (operand.tokens (fun _ => .placeholder) ctx) (Site.values (operand.sites ctx))
      operand := by
  cases operand with
  | column c =>
    rw [sites, c.values_sites]
    exact .column (c.tokens_read hbare hfault)
  | value v => exact .value v

/-- The tokens of a compiled comparison read as the comparison. -/
lemma Comparison.tokens_read {comparison : Comparison}
    (hfault : Site.fault? (comparison.sites ctx) = none) :
    ReadsComparison (comparison.tokens (fun _ => .placeholder) ctx)
      (Site.values (comparison.sites ctx)) comparison := by
  cases comparison with
  | binary op left right =>
    rw [sites, Site.fault?_append_eq_none] at hfault
    obtain ⟨hleft, hright⟩ := hfault
    rw [sites, Site.values_append]
    exact .binary op (left.tokens_read hbare hleft) (right.tokens_read hbare hright)
  | isNull c =>
    rw [sites, c.values_sites]
    exact .test (c.tokens_read hbare hfault) (.isNull (by decide +kernel) (by decide +kernel))
  | isNotNull c =>
    rw [sites, c.values_sites]
    exact .test (c.tokens_read hbare hfault)
      (.isNotNull (by decide +kernel) (by decide +kernel) (by decide +kernel))

end Leaves

/-! ## Trees -/

namespace Predicate

section Trees

variable {ctx : Context} (precedence : Precedence)

/-- A group is read back once each of its members is, in its parentheses if it has some. -/
lemma group_tokens_read {connective : Connective} {members : List Predicate}
    (hfault : Site.fault? ((group connective members).sites ctx) = none)
    (h : ∀ m ∈ members, Reads precedence []
      (m.encloseTokens (m.tokens (fun _ => .placeholder) ctx)) (Site.values (m.sites ctx)) m) :
    Reads precedence precedence.order
      ((group connective members).tokens (fun _ => .placeholder) ctx)
      (Site.values ((group connective members).sites ctx)) (group connective members) := by
  have hlength : 2 ≤ members.length := by
    rw [sites, Site.fault?_append_eq_none, fault?_aritySites_eq_none] at hfault
    exact hfault.1
  have hne : members ≠ [] := by
    rintro rfl
    simp at hlength
  rw [tokens, memberTokens_eq_map, sites, Site.values_append, values_aritySites, List.nil_append,
    memberSites_eq_flatMap, Site.values_flatMap]
  exact Reads.group hlength (fun tighter => ReadsRun.of_members hne h tighter)
    (precedence.complete connective)

/-- The members of a group without faults have no faults. -/
lemma fault?_memberSites {connective : Connective} {members : List Predicate}
    (hfault : Site.fault? ((group connective members).sites ctx) = none) :
    Site.fault? (memberSites ctx members) = none := by
  rw [sites, Site.fault?_append_eq_none] at hfault
  exact hfault.2

mutual

/-- A member of a group is read back without a look at the connectives around it. -/
theorem encloseTokens_read (hbare : ctx.isQualified = false → ctx.bound = 1) (p : Predicate)
    (hfault : Site.fault? (p.sites ctx) = none) :
    Reads precedence [] (p.encloseTokens (p.tokens (fun _ => .placeholder) ctx))
      (Site.values (p.sites ctx)) p := by
  cases p with
  | comparison leaf =>
    rw [sites] at hfault
    rw [tokens, sites]
    exact .comparison (leaf.tokens_read hbare hfault)
  | group connective members =>
    have hmembers := memberTokens_read hbare members (fault?_memberSites hfault)
    exact .enclosed (group_tokens_read precedence hfault hmembers)

/-- The members of a group are read back one by one. -/
theorem memberTokens_read (hbare : ctx.isQualified = false → ctx.bound = 1)
    (members : List Predicate) (hfault : Site.fault? (memberSites ctx members) = none) :
    ∀ m ∈ members, Reads precedence []
      (m.encloseTokens (m.tokens (fun _ => .placeholder) ctx)) (Site.values (m.sites ctx)) m := by
  cases members with
  | nil =>
    intro m hm
    cases hm
  | cons member rest =>
    rw [memberSites, Site.fault?_append_eq_none] at hfault
    obtain ⟨hmember, hrest⟩ := hfault
    rw [List.forall_mem_cons]
    constructor
    · exact encloseTokens_read hbare member hmember
    · exact memberTokens_read hbare rest hrest

end

/-- **The tokens and the values of a condition** are read as the condition. -/
theorem tokens_read (hbare : ctx.isQualified = false → ctx.bound = 1) (p : Predicate)
    (hfault : Site.fault? (p.sites ctx) = none) :
    Reads precedence precedence.order (p.tokens (fun _ => .placeholder) ctx)
      (Site.values (p.sites ctx)) p := by
  cases p with
  | comparison leaf =>
    exact (encloseTokens_read precedence hbare (comparison leaf) hfault).of_nil precedence.order
  | group connective members =>
    have hmembers := memberTokens_read precedence hbare members (fault?_memberSites hfault)
    exact group_tokens_read precedence hfault hmembers

end Trees

/-! ## Compiled conditions -/

section Compiled

variable {p : Predicate} {ctx : Context} {before after : Array Value} {text : String}

/-- A condition that compiles is read back from the tokens of its text and the values it appends,
whatever precedence the connectives have. -/
lemma reads_of_compile (hctx : ctx = .bare ∨ ∃ bound, ctx = .qualified bound)
    (hnames : ∀ name ∈ p.names, isIdentifier name)
    (h : (p.compile ctx).run before = .ok text after) :
    ∃ (values : List Value) (tokens : List Token), after = before ++ values.toArray ∧
      lex text = some tokens ∧
      ∀ precedence : Precedence, Reads precedence precedence.order tokens values p := by
  obtain ⟨hfault, rfl, rfl⟩ := (p.compile_visits ctx).eq_of_run_eq_ok h
  have hbare : ctx.isQualified = false → ctx.bound = 1 := by
    intro hqualified
    rcases hctx with rfl | ⟨bound, rfl⟩
    · rfl
    · cases hqualified
  have hmark : ∀ v, Lexes (Value.placeholder v) [.placeholder] := by
    intro _
    exact lexes_placeholder
  have hcolumns : ∀ c ∈ p.columns, isIdentifier c.name := by
    intro c hc
    exact hnames c.name (List.mem_map_of_mem hc)
  have hlex := p.text_lexes ctx hmark hcolumns
  exact ⟨_, _, rfl, hlex, fun precedence => p.tokens_read precedence hbare hfault⟩

/-- **A compiled condition has one reading.** In a statement over tables with aliases or over one
table without, if the names of its columns are identifiers, the text of a condition is split into
tokens that are read, with the appended values, as this condition and as no other, whatever
precedence the connectives have. So two conditions never have both the text and the values in
common.

**Proof sketch.** The tokens of the text follow the structure of the condition (`text_lexes`), and
they are read as the condition (`tokens_read`). A reading is unique (`Sql.Reads.eq`), for a token
behind a comparison, a connective or a parenthesis tells what comes next. -/
theorem reads_iff_of_compile (hctx : ctx = .bare ∨ ∃ bound, ctx = .qualified bound)
    (hnames : ∀ name ∈ p.names, isIdentifier name)
    (h : (p.compile ctx).run before = .ok text after) :
    ∃ (values : List Value) (tokens : List Token), after = before ++ values.toArray ∧
      lex text = some tokens ∧
      (∀ (precedence : Precedence) (q : Predicate),
        Reads precedence precedence.order tokens values q ↔ q = p) ∧
      ∀ (q : Predicate) (other : Context) (start : Array Value),
        (other = .bare ∨ ∃ bound, other = .qualified bound) →
        (∀ name ∈ q.names, isIdentifier name) →
        (q.compile other).run start = .ok text (start ++ values.toArray) → q = p := by
  obtain ⟨values, tokens, hafter, hlex, hreads⟩ := reads_of_compile hctx hnames h
  refine ⟨values, tokens, hafter, hlex, ?_, ?_⟩
  · intro precedence q
    constructor
    · intro hread
      exact hread.eq (hreads precedence)
    · rintro rfl
      exact hreads precedence
  · intro q other start ho hq hcompile
    obtain ⟨values', tokens', hafter', hlex', hreads'⟩ := reads_of_compile ho hq hcompile
    obtain rfl : values = values' := by simpa using congrArg Array.toList hafter'
    obtain rfl : tokens = tokens' := Option.some.inj (hlex.symm.trans hlex')
    exact (hreads' .standard).eq (hreads .standard)

/-- A condition on columns that are named like keywords, with groups of one kind inside each
other. -/
def sampleCondition : Predicate :=
  .group .and
    [.comparison (.isNotNull ⟨0, "AND"⟩),
      .group .and [.comparison (.binary .lessOrEqual (.column ⟨0, "IS"⟩) (.value (.integer 3))),
        .group .or [.comparison (.isNull ⟨0, "NULL"⟩),
          .comparison (.binary .lessThan (.value (.text "OR")) (.column ⟨0, "or"⟩))]]]

/-- Columns with the names of operators, a value that spells one, and a group inside a group: the
text has one reading still. -/
theorem reads_iff_of_compile_sampleCondition :
    ∃ tokens,
      (sampleCondition.compile .bare).run #[] =
        .ok "AND IS NOT NULL AND (IS <= ? AND (NULL IS NULL OR ? < or))" #[.integer 3, .text "OR"] ∧
      lex "AND IS NOT NULL AND (IS <= ? AND (NULL IS NULL OR ? < or))" = some tokens ∧
      ∀ q, Reads .standard Precedence.standard.order tokens [.integer 3, .text "OR"] q ↔
        q = sampleCondition := by
  have hcompile : (sampleCondition.compile .bare).run #[] =
      .ok "AND IS NOT NULL AND (IS <= ? AND (NULL IS NULL OR ? < or))"
        #[.integer 3, .text "OR"] := rfl
  obtain ⟨values, tokens, hafter, hlex, hreads, -⟩ :=
    reads_iff_of_compile (.inl rfl) (by decide) hcompile
  obtain rfl : values = [.integer 3, .text "OR"] := by simpa using hafter.symm
  exact ⟨tokens, hcompile, hlex, hreads .standard⟩

end Compiled

end Predicate

end BoundSql
