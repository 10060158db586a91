import BoundSql.Proofs.Expr.Meaning
import BoundSql.Proofs.Table.Narrowing

/-!
# Conditions one after the other

Filtering by several predicates, one after the other, gives the same tree wherever it is done. The
tree depends on the shape of the first predicate, but a row meets it exactly when it meets all of
the predicates, and it binds their values in order. Alternatives behave alike.

## Main definitions

* `BoundSql.Predicate.FiltersTo` — the condition to which several filters lead everywhere.

## Main results

* `BoundSql.Predicate.filtersTo_foldl_and` — all filters lead to the same condition.
* `BoundSql.Predicate.chain_meaning` — what the condition means and binds.
-/

namespace BoundSql

namespace Predicate

/-- Filtering by some predicates, the `first` one first, leads to one condition, be it a read, an
update or a deletion that is filtered, or a handle whose callbacks answer with the predicates. -/
structure FiltersTo (first : Predicate) (others : List Predicate) (condition : Predicate) :
    Prop where
  /-- Filters of a read. -/
  select : ∀ s : SelectStatement, s.where? = none →
    (first :: others).foldl .filter s = { s with where? := some condition }
  /-- Filters of an update. -/
  update : ∀ s : UpdateStatement, s.where? = none →
    (first :: others).foldl .filter s = { s with where? := some condition }
  /-- Filters of a deletion. -/
  delete : ∀ s : DeleteStatement, s.where? = none →
    (first :: others).foldl .filter s = { s with where? := some condition }
  /-- Filters of a table. -/
  table : ∀ (t : Table) (p : Scope → Predicate) (qs : List (Scope → Predicate)),
    p t.scope = first → qs.map (· t.scope) = others →
      qs.foldl .filter (t.filter p) = ⟨t.source, condition⟩
  /-- Filters of joined tables. -/
  joined : ∀ (j : JoinedTables) (p : Scope → Predicate) (qs : List (Scope → Predicate)),
    p j.source.scope = first → qs.map (· j.source.scope) = others →
      qs.foldl .filter (j.filter p) = ⟨j.source, condition⟩

/-- **All filters lead to the same condition**: the predicates chained by `AND`. -/
theorem filtersTo_foldl_and (first : Predicate) (others : List Predicate) :
    FiltersTo first others (others.foldl Predicate.and first) where
  select s h := by
    have hfold := Description.foldl_filter (d := .select s) h first others
    have hselect := (List.foldl_hom Description.select fun _ _ => rfl).symm.trans hfold
    rw [List.foldl_cons, Description.select.inj hselect, SelectStatement.filter, h]
    rfl
  update s h := by
    have hfold := Description.foldl_filter (d := .update s) h first others
    have hupdate := (List.foldl_hom Description.update fun _ _ => rfl).symm.trans hfold
    rw [List.foldl_cons, Description.update.inj hupdate, UpdateStatement.filter, h]
    rfl
  delete s h := by
    have hfold := Description.foldl_filter (d := .delete s) h first others
    have hdelete := (List.foldl_hom Description.delete fun _ _ => rfl).symm.trans hfold
    rw [List.foldl_cons, Description.delete.inj hdelete, DeleteStatement.filter, h]
    rfl
  table t p qs := by
    rintro rfl rfl
    exact FilteredTable.foldl_filter (t.filter p) qs
  joined j p qs := by
    rintro rfl rfl
    exact FilteredTable.foldl_filter (j.filter p) qs

/-- **What conditions mean that are added one after the other.** Filtering leads to the same tree
everywhere, and the tree is as true as all of its predicates together, whatever the truths of the
comparisons are. If each of the predicates compiles, so does the tree, and it binds their values in
order. Predicates that are chained by `OR` are as true as the truest of them, and bind their values
in order too.

**Proof sketch.** A chain is one group of what its first piece contributes and the others, and what
a piece contributes means and binds what the piece does (`eval_foldl_combine`,
`compilesWith_foldl_combine`). -/
theorem chain_meaning (first : Predicate) (others : List Predicate) :
    FiltersTo first others (others.foldl Predicate.and first) ∧
    (∀ truth : Comparison → Truth,
      (others.foldl Predicate.and first).eval truth =
        Truth.conjunction ((first :: others).map (eval truth)) ∧
      (others.foldl Predicate.or first).eval truth =
        Truth.disjunction ((first :: others).map (eval truth))) ∧
    ∀ (ctx : Context) (valueLists : List (List Value)),
      List.Forall₂ (CompilesWith ctx) (first :: others) valueLists →
        (others.foldl Predicate.and first).CompilesWith ctx valueLists.flatten ∧
        (others.foldl Predicate.or first).CompilesWith ctx valueLists.flatten := by
  refine ⟨filtersTo_foldl_and first others, fun truth => ⟨?_, ?_⟩, fun ctx valueLists h => ⟨?_, ?_⟩⟩
  · exact eval_foldl_combine truth first others
  · exact eval_foldl_combine truth first others
  · exact compilesWith_foldl_combine h
  · exact compilesWith_foldl_combine h

/-- The predicate that a post is a draft or has no author. -/
def draftOrUnsigned : Predicate :=
  any [(⟨0, "draft"⟩ : ColumnRef).equals (.value (.bool true)), (⟨0, "author"⟩ : ColumnRef).isNull]

/-- The predicate that a post has a title. -/
def titled (title : String) : Predicate :=
  (⟨0, "title"⟩ : ColumnRef).equals (.value (.text title))

/-- Alternatives are wrapped by `AND` and extended by `OR`. -/
theorem chain_meaning_draftOrUnsigned :
    (DeleteStatement.ofTable "blog").where? = none ∧
      List.Forall₂ (CompilesWith .bare) [draftOrUnsigned, titled "On"]
        [[.bool true], [.text "On"]] ∧
      [draftOrUnsigned, titled "On"].foldl .filter (DeleteStatement.ofTable "blog") =
        ⟨"blog", some (group .and [draftOrUnsigned, titled "On"])⟩ ∧
      (draftOrUnsigned.and (titled "On")).CompilesWith .bare [.bool true, .text "On"] ∧
      (draftOrUnsigned.or (titled "On")).CompilesWith .bare [.bool true, .text "On"] ∧
      (draftOrUnsigned.and (titled "On")).eval (fun _ => .unknown) = .unknown := by
  have hunfiltered : (DeleteStatement.ofTable "blog").where? = none := rfl
  have hcompile : List.Forall₂ (CompilesWith .bare) [draftOrUnsigned, titled "On"]
      [[.bool true], [.text "On"]] :=
    .cons ⟨_, rfl⟩ (.cons ⟨_, rfl⟩ .nil)
  obtain ⟨hfilters, htruth, hvalues⟩ := chain_meaning draftOrUnsigned [titled "On"]
  obtain ⟨hand, hor⟩ := hvalues .bare _ hcompile
  exact ⟨hunfiltered, hcompile, hfilters.delete _ hunfiltered, hand, hor, (htruth _).1⟩

end Predicate

end BoundSql
