import BoundSql.Proofs.Statement.Verdict

/-!
# The scope of conditions of joins

One context holds for a whole statement, so that the condition of a join may speak of every table
that the statement binds. These are the primary table and all joined tables, those of later joins
among them: the place of a join plays no part.

## Main definitions

* `BoundSql.Description.withJoins` — a description with other joins.

## Main results

* `BoundSql.Description.IsCompilable.withJoins` — joins of the same tables under conditions that
  were accepted anywhere in the statement are accepted.
* `BoundSql.Description.tables_of_joins` — the tables that conditions of joins speak of.
-/

namespace BoundSql

namespace Description

/-! ## Descriptions with other joins -/

/-- A description with other joins. Deletions and insertions have none. -/
def withJoins (joins : List Join) : Description → Description
  | select s => select { s with joins }
  | count s => count { s with joins }
  | update s => update { s with joins }
  | delete s => delete s
  | insert s => insert s

/-- The joins of a description stand among clauses that do not depend on them. -/
lemma exists_clauses_withJoins {d : Description} (h : d.joins ≠ []) :
    ∃ front back, ∀ joins,
      (d.withJoins joins).clauses = front ++ joins.map Clause.join ++ back := by
  cases d with
  | select s =>
    refine ⟨(s.projection.map fun projection => Clause.select projection.selection).toList ++
      (s.table.map Clause.table).toList, (s.where?.map Clause.filter).toList ++ s.windowClauses, ?_⟩
    intro joins
    simp [withJoins, clauses, SelectStatement.rowClauses, SelectStatement.sourceClauses,
      SelectStatement.windowClauses]
  | count s =>
    by_cases hwindow : s.isWindowed
    · refine ⟨[.openCount, .selectOne] ++ (s.table.map Clause.table).toList,
        (s.where?.map Clause.filter).toList ++ s.windowClauses ++ [.closeCount], ?_⟩
      intro joins
      have hsame : ({ s with joins } : SelectStatement).isWindowed := hwindow
      simp [withJoins, clauses, SelectStatement.countClauses, SelectStatement.sourceClauses,
        SelectStatement.windowClauses, hsame]
    · refine ⟨.count :: (s.table.map Clause.table).toList, (s.where?.map Clause.filter).toList, ?_⟩
      intro joins
      have hsame : ¬ ({ s with joins } : SelectStatement).isWindowed := hwindow
      simp [withJoins, clauses, SelectStatement.countClauses, SelectStatement.sourceClauses, hsame]
  | update s =>
    refine ⟨[.update s.table],
      Clause.ofList .set s.assignments ++ (s.where?.map Clause.filter).toList, ?_⟩
    intro joins
    simp [withJoins, clauses, UpdateStatement.clauses]
  | delete s => exact absurd rfl h
  | insert s => exact absurd rfl h

section WithJoins

variable {d : Description} (hne : d.joins ≠ [])

/-- A description has its own joins. -/
lemma withJoins_joins (d : Description) : d.withJoins d.joins = d := by
  cases d <;> rfl

include hne

/-- A description that has joins takes other ones. -/
lemma joins_withJoins (joins : List Join) : (d.withJoins joins).joins = joins := by
  cases d with
  | select s | count s | update s => rfl
  | delete s | insert s => exact absurd rfl hne

/-- A description that has joins aliases its tables. -/
lemma context_eq_qualified : d.context = .qualified (d.joins.length + 1) := by
  cases d with
  | select s | count s | update s => rfl
  | delete s | insert s => exact absurd rfl hne

/-- A description with as many other joins binds as many tables. -/
lemma bound_context_withJoins {joins : List Join} (hlength : joins.length = d.joins.length) :
    (d.withJoins joins).context.bound = d.context.bound := by
  cases d with
  | select s | count s | update s => exact congrArg (· + 1) hlength
  | delete s | insert s => exact absurd rfl hne

/-- **Other joins are accepted** if they introduce the same tables under conditions that the
statement has in some place. -/
theorem IsCompilable.withJoins (hd : d.IsCompilable) {joins : List Join}
    (hother : joins.map (·.other) = d.joins.map (·.other))
    (hconditions : ∀ join ∈ joins, ∃ accepted ∈ d.joins, join.condition = accepted.condition) :
    (d.withJoins joins).IsCompilable := by
  have hlength : joins.length = d.joins.length := by
    simpa using congrArg List.length hother
  obtain ⟨front, back, hclauses⟩ := exists_clauses_withJoins hne
  have hsame : d.clauses = front ++ d.joins.map Clause.join ++ back := by
    rw [← hclauses, withJoins_joins]
  -- whatever the clauses of the joins contribute depends on their conditions alone
  have hcontributed : ∀ {β : Type} (f : Clause → List β),
      (∀ a b : Join, a.condition = b.condition → f (.join a) = f (.join b)) →
      ∀ x ∈ (d.withJoins joins).clauses.flatMap f, x ∈ d.clauses.flatMap f := by
    intro β f hf x hx
    rw [hclauses] at hx
    rw [hsame]
    simp only [List.flatMap_append, List.flatMap_map, List.mem_append, List.mem_flatMap] at hx ⊢
    rcases hx with (hfront | ⟨join, hjoin, hx⟩) | hback
    · exact .inl (.inl hfront)
    · obtain ⟨accepted, haccepted, hcondition⟩ := hconditions join hjoin
      exact .inl (.inr ⟨accepted, haccepted, hf join accepted hcondition ▸ hx⟩)
    · exact .inr hback
  refine ⟨?_, ?_, ?_, ?_, ?_⟩
  · intro k join hjoin
    rw [joins_withJoins hne] at hjoin
    have hat : (d.joins.map (·.other))[k]? = some join.other := by
      rw [← hother, List.getElem?_map, hjoin]
      rfl
    obtain ⟨accepted, haccepted, heq⟩ := by simpa using hat
    rw [← heq]
    exact hd.joins k accepted haccepted
  · intro c hc
    rw [bound_context_withJoins hne hlength]
    exact hd.columns c (hcontributed (·.columns) (fun a b h => congrArg Predicate.columns h) c hc)
  · intro p hp
    have hwhole := hcontributed (·.conditions) (fun a b h => congrArg (fun q => [q]) h) p hp
    exact hd.groups p hwhole
  · intro key hkey
    exact hd.labels key (hcontributed (·.labels) (fun _ _ _ => rfl) key hkey)
  · intro s hs
    cases d with
    | select _ | count _ | update _ => cases hs
    | delete _ | insert _ => exact absurd rfl hne

end WithJoins

/-! ## Conditions of joins -/

/-- The line of a join in order gives the joined table the next alias. -/
lemma text_join_of_joinsInOrder {joins : List Join} (h : JoinsInOrder joins) {k : Nat} {join : Join}
    (hjoin : joins[k]? = some join) (ctx : Context) :
    join.text Value.placeholder ctx = "INNER JOIN " ++ join.other.name ++ " " ++
      tableAlias (k + 1) ++ " ON " ++ join.condition.text Value.placeholder ctx := by
  have hline : join.text Value.placeholder ctx = "INNER JOIN " ++ (join.other.name ++ " " ++
      tableAlias join.other.index) ++ " ON " ++ join.condition.text Value.placeholder ctx := rfl
  rw [hline, h k join hjoin]
  simp only [String.append_assoc]

/-- The lines of the joins stand next to each other in a statement. -/
lemma exists_lines_of_build {d : Description} {statement : Statement}
    (h : d.build = .ok statement) :
    ∃ front back : List String, statement.sql = "\n".intercalate
      (front ++ d.joins.map (·.text Value.placeholder d.context) ++ back) := by
  obtain ⟨hsql, -⟩ := eq_of_build_eq_ok h
  by_cases hne : d.joins = []
  · refine ⟨d.clauses.map (·.text Value.placeholder d.context), [], ?_⟩
    simp [hsql, hne]
  · obtain ⟨front, back, hclauses⟩ := exists_clauses_withJoins hne
    have hsame : d.clauses = front ++ d.joins.map Clause.join ++ back := by
      rw [← hclauses, withJoins_joins]
    refine ⟨front.map (·.text Value.placeholder d.context),
      back.map (·.text Value.placeholder d.context), ?_⟩
    rw [hsql, hsame, List.map_append, List.map_append, List.map_map]
    rfl

/-- The columns in the conditions of joins are columns of the description. -/
lemma mem_columns_of_mem_joins {d : Description} {join : Join} (hjoin : join ∈ d.joins)
    {c : ColumnRef} (hc : c ∈ join.condition.columns) : c ∈ d.columns := by
  obtain ⟨front, back, hclauses⟩ := exists_clauses_withJoins (List.ne_nil_of_mem hjoin)
  have hsame : d.clauses = front ++ d.joins.map Clause.join ++ back := by
    rw [← hclauses, withJoins_joins]
  have hmem : Clause.join join ∈ d.clauses := by
    rw [hsame]
    simp [hjoin]
  exact List.mem_flatMap.2 ⟨.join join, hmem, hc⟩

/-- A condition that is accepted at one join is accepted at every other one. -/
lemma IsCompilable.exchange {d : Description} (hd : d.IsCompilable) {i j : Nat} {one other : Join}
    (hone : d.joins[i]? = some one) (hother : d.joins[j]? = some other) :
    (d.withJoins (d.joins.set j ⟨other.other, one.condition⟩)).IsCompilable := by
  refine hd.withJoins (List.ne_nil_of_mem (List.mem_of_getElem? hone)) ?_ ?_
  · apply List.ext_getElem?
    intro k
    rw [List.getElem?_map, List.getElem?_map, List.getElem?_set]
    by_cases hk : j = k
    · subst hk
      rw [if_pos rfl, if_pos (List.getElem?_eq_some_iff.1 hother).1, hother]
      rfl
    · rw [if_neg hk]
  · intro join hjoin
    rcases List.mem_or_eq_of_mem_set hjoin with hold | rfl
    · exact ⟨join, hold, rfl⟩
    · exact ⟨one, List.mem_of_getElem? hone, rfl⟩

/-- **The condition of a join** speaks of the primary table and of the tables that the joins of the
statement introduce, whether in front of it or behind it. For each join there is a line that
introduces its table, and a column is written with the alias of its table. The bound is the same for
all joins: a condition that is accepted at one of them is accepted at every other one.

**Proof sketch.** A description that compiles is compilable, so every column in it is bound by the
context that all its clauses share. Putting one accepted condition in the place of another one adds
no column and no group that were not accepted before. -/
theorem tables_of_joins {d : Description} {statement : Statement} (h : d.build = .ok statement) :
    (∃ front back : List String, statement.sql = "\n".intercalate
      (front ++ d.joins.map (·.text Value.placeholder d.context) ++ back)) ∧
    (∀ (k : Nat) (join : Join), d.joins[k]? = some join →
      join.text Value.placeholder d.context = "INNER JOIN " ++ join.other.name ++ " " ++
        tableAlias (k + 1) ++ " ON " ++ join.condition.text Value.placeholder d.context ∧
      ∀ c ∈ join.condition.columns, c.table ≤ d.joins.length ∧
        c.text d.context = tableAlias c.table ++ "." ++ c.name) ∧
    ∀ (i j : Nat) (one other : Join), d.joins[i]? = some one → d.joins[j]? = some other →
      ∃ exchanged, (d.withJoins (d.joins.set j ⟨other.other, one.condition⟩)).build =
        .ok exchanged := by
  have hd : d.IsCompilable := d.build_verdict.1.1 ⟨statement, h⟩
  refine ⟨exists_lines_of_build h, ?_, ?_⟩
  · intro k join hjoin
    refine ⟨text_join_of_joinsInOrder hd.joins hjoin d.context, ?_⟩
    intro c hc
    have hmem : join ∈ d.joins := List.mem_of_getElem? hjoin
    have hbound := hd.columns c (mem_columns_of_mem_joins hmem hc)
    rw [context_eq_qualified (List.ne_nil_of_mem hmem)] at hbound ⊢
    exact ⟨Nat.le_of_lt_succ hbound, rfl⟩
  · intro i j one other hone hother
    exact (Description.build_verdict _).1.2 (hd.exchange hone hother)

/-- Authors are joined under a condition on the table that the join behind them introduces. -/
def forwardJoins : List Join :=
  [⟨⟨1, "authors"⟩, (⟨1, "category_id"⟩ : ColumnRef).equals (.column ⟨2, "id"⟩)⟩,
    ⟨⟨2, "categories"⟩, (⟨0, "category_id"⟩ : ColumnRef).equals (.column ⟨2, "id"⟩)⟩]

/-- A read with these joins. -/
def forwardRead : SelectStatement := { SelectStatement.ofTable "blog" with joins := forwardJoins }

/-- An update with these joins. -/
def forwardUpdate : UpdateStatement := { table := "blog", joins := forwardJoins }

/-- **A condition may speak of a table that a later join introduces**, in a read and in an
update. -/
theorem build_forwardJoins :
    forwardRead.build =
        .ok ⟨"SELECT *\nFROM blog t1\nINNER JOIN authors t2 ON t2.category_id = t3.id\n" ++
          "INNER JOIN categories t3 ON t1.category_id = t3.id", #[]⟩ ∧
      forwardUpdate.build =
        .ok ⟨"UPDATE blog t1\nINNER JOIN authors t2 ON t2.category_id = t3.id\n" ++
          "INNER JOIN categories t3 ON t1.category_id = t3.id", #[]⟩ ∧
      ¬ ∀ (k : Nat) (join : Join), forwardJoins[k]? = some join →
        ∀ c ∈ join.condition.columns, c.table ≤ k + 1 := by
  refine ⟨rfl, rfl, ?_⟩
  intro hall
  have hbound : 2 ≤ 0 + 1 := hall 0 _ rfl ⟨2, "id"⟩ (by decide)
  omega

/-- A join of an update may mention the table of a later join. -/
theorem tables_of_joins_forwardUpdate :
    (∃ statement, (update forwardUpdate).build = .ok statement) ∧
      (∀ (k : Nat) (join : Join), forwardJoins[k]? = some join →
        ∀ c ∈ join.condition.columns, c.table ≤ 2) ∧
      ∃ exchanged, ((update forwardUpdate).withJoins (forwardJoins.set 1
        ⟨⟨2, "categories"⟩, (⟨1, "category_id"⟩ : ColumnRef).equals (.column ⟨2, "id"⟩)⟩)).build =
          .ok exchanged := by
  have hbuild : (update forwardUpdate).build =
      .ok ⟨"UPDATE blog t1\nINNER JOIN authors t2 ON t2.category_id = t3.id\n" ++
        "INNER JOIN categories t3 ON t1.category_id = t3.id", #[]⟩ := rfl
  obtain ⟨-, hbound, hexchange⟩ := tables_of_joins hbuild
  refine ⟨⟨_, hbuild⟩, ?_, ?_⟩
  · intro k join hjoin c hc
    exact ((hbound k join hjoin).2 c hc).1
  · exact hexchange 0 1 _ _ rfl rfl

end Description

end BoundSql
