import BoundSql.Proofs.Expr.Grouping
import BoundSql.Proofs.Statement.Tokens

/-!
# Clauses are told apart

Tokens and values determine the clauses that they belong to. A clause begins with a keyword, and
where a clause could go on, with another item or another connective, none of these keywords may
stand. The names of tables and columns may be keywords themselves: they stand in fixed places,
behind an alias or in parentheses.

## Main definitions

* `BoundSql.Clause.Follows` — the tokens that may stand behind a clause.
* `BoundSql.Clause.Legible` — what is asked of a clause so that it can be read back.

## Main results

* `BoundSql.Clause.tokens_unique` — tokens and values that begin with a clause begin with no other.
* `BoundSql.Clause.flatMap_tokens_unique` — lists of clauses are told apart.
-/

namespace BoundSql

open Sql (Token SelfDelimiting Stops Precedence commaTokens tupleTokens tableAlias_injective)

/-! ## What follows a clause -/

namespace Clause

/-- The words that clauses begin with. -/
def firstWords : List String :=
  ["SELECT", "FROM", "INNER", "WHERE", "ORDER", "LIMIT", "OFFSET", "UPDATE", "SET", "DELETE",
    "INSERT", "REPLACE", "VALUES"]

/-- The tokens that clauses begin with. -/
def openings : List Token := .symbol ")" :: firstWords.map .word

/-- A word that opens a clause is a first word. -/
lemma mem_firstWords {word : String} (h : .word word ∈ openings) : word ∈ firstWords := by
  simpa [openings] using h

/-- The alias of a table begins with a small letter, and so it is no keyword. -/
lemma tableAlias_ne (index : Nat) {word : String} (h : word.toList.head? ≠ some 't') :
    tableAlias index ≠ word := by
  rintro rfl
  apply h
  rw [tableAlias]
  exact congrArg List.head? String.toList_append

/-- No clause begins with the alias of a table. -/
lemma alias_not_mem_openings (index : Nat) : .word (tableAlias index) ∉ openings := by
  have hwords : ∀ word ∈ firstWords, word.toList.head? ≠ some 't' := by decide
  intro hmem
  exact tableAlias_ne index (hwords _ (mem_firstWords hmem)) rfl

/-- The keyword of a clause. The two modes of an insertion share theirs. -/
def keyword : Clause → String
  | select _ => "SELECT"
  | count => "SELECT"
  | openCount => "SELECT"
  | selectOne => "SELECT"
  | closeCount => ")"
  | table _ => "FROM"
  | join _ => "INNER"
  | filter _ => "WHERE"
  | order _ => "ORDER"
  | limit _ => "LIMIT"
  | offset _ => "OFFSET"
  | update _ => "UPDATE"
  | set _ => "SET"
  | delete _ => "DELETE"
  | insert _ _ _ => "INSERT"
  | values _ => "VALUES"

/-- The keyword that a token stands for at the beginning of a clause. -/
def keywordOf : Token → String
  | .word "REPLACE" => "INSERT"
  | .word text => text
  | .symbol text => text
  | _ => ""

/-- A clause begins with a token that stands for its keyword. -/
lemma tokens_eq_cons (mark : Value → Token) (ctx : Context) (clause : Clause) :
    ∃ token rest, clause.tokens mark ctx = token :: rest ∧ token ∈ openings ∧
      keywordOf token = clause.keyword := by
  cases clause with
  | insert mode name columns =>
    cases mode with
    | insert => exact ⟨_, _, rfl, by decide, rfl⟩
    | replace => exact ⟨_, _, rfl, by decide, rfl⟩
  | _ => exact ⟨_, _, rfl, by decide, rfl⟩

/-- What may stand behind a clause: nothing, or another clause. -/
def Follows (rest : List Token) : Prop :=
  rest = [] ∨ ∃ (clause : Clause) (ctx : Context) (others : List Token),
    rest = clause.tokens (fun _ => .placeholder) ctx ++ others

namespace Follows

variable {rest : List Token}

/-- A token that begins no clause does not stand behind one. -/
lemma head_ne (h : Follows rest) {token : Token} (htoken : token ∉ openings) :
    rest.head? ≠ some token := by
  rcases h with rfl | ⟨clause, ctx, others, rfl⟩
  · simp
  · obtain ⟨first, tail, htokens, hfirst, -⟩ := clause.tokens_eq_cons (fun _ => .placeholder) ctx
    rw [htokens]
    rintro heq
    obtain rfl : first = token := Option.some.inj heq
    exact htoken hfirst

/-- What stands behind a clause does not continue a condition. -/
lemma stops (h : Follows rest) (connectives : List Connective) : Stops connectives rest := by
  refine ⟨h.head_ne (by decide), ?_⟩
  intro connective _ word hword
  apply h.head_ne
  intro hmem
  have hwords : ∀ word ∈ firstWords, word.toUpper = word ∧ word ≠ "AND" ∧ word ≠ "OR" := by
    decide +kernel
  obtain ⟨hupper, hand, hor⟩ := hwords word (mem_firstWords hmem)
  have hkeyword : word = connective.keyword := hupper.symm.trans hword
  cases connective with
  | and => exact hand hkeyword
  | or => exact hor hkeyword

/-- A read in parentheses is no clause. -/
lemma not_parenthesis : ¬ Follows (.word "FROM" :: .symbol "(" :: rest) := by
  rintro (h | ⟨clause, ctx, others, h⟩)
  · cases h
  · obtain ⟨token, tail, htokens, -, hkeyword⟩ := clause.tokens_eq_cons (fun _ => .placeholder) ctx
    obtain rfl : .word "FROM" = token := (List.cons.inj (htokens ▸ h)).1
    cases clause with
    | table name => simp [tokens] at h
    | _ => simp [keyword, keywordOf] at hkeyword

/-- A list of clauses may stand behind a clause. -/
lemma flatMap_tokens (clauses : List Clause) (ctx : Context) :
    Follows (clauses.flatMap (·.tokens (fun _ => .placeholder) ctx)) := by
  cases clauses with
  | nil => exact .inl rfl
  | cons clause rest => exact .inr ⟨clause, ctx, _, List.flatMap_cons⟩

end Follows

end Clause

/-! ## Items of lists -/

section Items

variable {ctx ctx' : Context}

/-- A qualified column is its alias, a point and its name. -/
lemma ColumnRef.tokens_of_isQualified (h : ctx.isQualified) (column : ColumnRef) :
    column.tokens ctx = [.word (tableAlias column.table), .symbol ".", .word column.name] := by
  rw [tokens, if_pos h]

/-- No clause begins like a column with its alias. -/
lemma ColumnRef.not_follows (h : ctx.isQualified) (column : ColumnRef) (rest : List Token) :
    ¬ Clause.Follows (column.tokens ctx ++ rest) := by
  intro hfollows
  apply hfollows.head_ne (Clause.alias_not_mem_openings column.table)
  rw [column.tokens_of_isQualified h]
  rfl

/-- A qualified sort key opens no clause. -/
lemma SortKey.not_follows (h : ctx.isQualified) (key : SortKey) (rest : List Token) :
    ¬ Clause.Follows (key.tokens ctx ++ rest) := by
  rw [tokens, List.append_assoc]
  exact key.column.not_follows h _

/-- A qualified assignment opens no clause. -/
lemma Assignment.not_follows (h : ctx.isQualified) (assignment : Assignment) (rest : List Token) :
    ¬ Clause.Follows (assignment.tokens (fun _ => .placeholder) ctx ++ rest) := by
  rw [tokens, List.append_assoc]
  exact assignment.column.not_follows h _

/-- Two modes have two first words. -/
lemma InsertMode.word_injective {x y : InsertMode} (h : x.word = y.word) : x = y := by
  cases x <;> cases y <;> first | rfl | exact absurd h (by decide)

/-- The columns of an insertion are told apart by their tokens, whatever follows. -/
lemma columnNames_unique {l l' : List String} {a b : List Token}
    (h : tupleTokens (l.map fun c => [.word c]) ++ a =
      tupleTokens (l'.map fun c => [.word c]) ++ b) : l = l' ∧ a = b := by
  have hword : Function.Injective Token.word := fun _ _ heq => Token.word.inj heq
  have hfresh : ∀ (c : String) (rest : List Token),
      ([Token.word c] ++ rest).head? ≠ some (.symbol ")") := by
    simp
  have hcolumns := (SelfDelimiting.singleton hword).tuple hfresh hfresh
  have hnone : l.flatMap (fun _ => ([] : List Value)) ++ [] = l'.flatMap (fun _ => []) ++ [] := by
    rw [SelfDelimiting.flatMap_valueless l, SelfDelimiting.flatMap_valueless l']
  obtain ⟨rfl, rfl, -⟩ := hcolumns h hnone
  exact ⟨rfl, rfl⟩

/-- Two directions have two keywords. -/
lemma Direction.keyword_injective {x y : Direction} (h : x.keyword = y.keyword) : x = y := by
  cases x <;> cases y <;> first | rfl | exact absurd h (by decide)

variable (h : ctx.isQualified) (h' : ctx'.isQualified)

include h h'

/-- A column with its alias ends by itself. -/
lemma ColumnRef.selfDelimiting :
    SelfDelimiting (fun c : ColumnRef => c.tokens ctx) (·.tokens ctx') (fun _ => []) := by
  intro c d a b m n ht hv
  simp only [tokens_of_isQualified h, tokens_of_isQualified h', List.cons_append,
    List.nil_append, List.cons.injEq, Token.word.injEq, true_and] at ht
  obtain ⟨halias, hname, hab⟩ := ht
  have hcd : c = d := by
    cases c
    cases d
    cases hname
    cases tableAlias_injective halias
    rfl
  exact ⟨hcd, hab, hv⟩

/-- A column with its output key ends by itself. -/
lemma Selection.leaf_selfDelimiting :
    SelfDelimiting (leafTokens ctx) (leafTokens ctx') (fun _ => []) := by
  intro x y a b m n ht hv
  simp only [leafTokens, List.append_assoc] at ht
  obtain ⟨hcolumn, ht', -⟩ := ColumnRef.selfDelimiting h h' ht hv
  simp only [List.cons_append, List.nil_append, List.cons.injEq, Token.quoted.injEq,
    true_and] at ht'
  obtain ⟨hlabel, hab⟩ := ht'
  exact ⟨Prod.ext hcolumn hlabel, hab, hv⟩

/-- A sort key ends by itself. -/
lemma SortKey.selfDelimiting :
    SelfDelimiting (fun key : SortKey => key.tokens ctx) (·.tokens ctx') (fun _ => []) := by
  intro x y a b m n ht hv
  simp only [tokens, List.append_assoc] at ht
  obtain ⟨hcolumn, ht', -⟩ := ColumnRef.selfDelimiting h h' ht hv
  simp only [List.cons_append, List.nil_append, List.cons.injEq, Token.word.injEq] at ht'
  obtain ⟨hkeyword, hab⟩ := ht'
  obtain ⟨c, direction⟩ := x
  obtain ⟨d, direction'⟩ := y
  have hdirection : direction = direction' := Direction.keyword_injective hkeyword
  exact ⟨by rw [show c = d from hcolumn, hdirection], hab, hv⟩

/-- An assignment ends by itself. -/
lemma Assignment.selfDelimiting :
    SelfDelimiting (fun a : Assignment => a.tokens (fun _ => .placeholder) ctx)
      (·.tokens (fun _ => .placeholder) ctx') (fun a => [a.value]) := by
  intro x y a b m n ht hv
  simp only [tokens, List.append_assoc] at ht
  obtain ⟨hcolumn, ht', -⟩ := ColumnRef.selfDelimiting h h' ht (rfl : [] ++ m = [] ++ m)
  simp only [List.cons_append, List.nil_append, List.cons.injEq, true_and] at ht' hv
  obtain ⟨hvalue, hmn⟩ := hv
  obtain ⟨c, v⟩ := x
  obtain ⟨d, w⟩ := y
  exact ⟨by rw [show c = d from hcolumn, show v = w from hvalue], ht', hmn⟩

/-- A selected column is not a star, and no column with an output key. -/
lemma Selection.column_tokens_ne {s : Selection} {c : ColumnRef} {a b : List Token}
    (hs : ∀ d, s ≠ column d) (ha : Clause.Follows a) (hb : Clause.Follows b) :
    c.tokens ctx ++ a ≠ s.tokens ctx' ++ b := by
  intro ht
  match s with
  | wildcard => simp [tokens, c.tokens_of_isQualified h] at ht
  | column d => exact hs d rfl
  | leaves [] =>
    obtain rfl : _ = b := ht
    exact c.not_follows h a hb
  | leaves (leaf :: rest) =>
    rw [tokens, List.map_cons, Sql.commaTokens_cons, leafTokens, List.append_assoc,
      List.append_assoc] at ht
    obtain ⟨-, ha', -⟩ := ColumnRef.selfDelimiting h h' ht (rfl : [] ++ [] = [] ++ [])
    refine ha.head_ne (by decide : .word "AS" ∉ Clause.openings) ?_
    rw [ha']
    rfl

omit h h' in
/-- A star is no list of columns with output keys. -/
lemma Selection.wildcard_tokens_ne (h' : ctx'.isQualified) {l : List (ColumnRef × String)}
    {a b : List Token} (hb : Clause.Follows b) :
    wildcard.tokens ctx ++ a ≠ (leaves l).tokens ctx' ++ b := by
  intro ht
  match l with
  | [] =>
    obtain rfl : _ = b := ht
    exact hb.head_ne (by decide : .symbol "*" ∉ Clause.openings) rfl
  | leaf :: rest =>
    simp [tokens, Sql.commaTokens_cons, leafTokens, leaf.1.tokens_of_isQualified h'] at ht

/-- **What stands behind `SELECT`** is told apart by its tokens. -/
lemma Selection.tokens_unique {s s' : Selection} {a b : List Token} (ha : Clause.Follows a)
    (hb : Clause.Follows b) (ht : s.tokens ctx ++ a = s'.tokens ctx' ++ b) : s = s' ∧ a = b := by
  have hnone : ([] : List Value) ++ [] = [] ++ [] := rfl
  match s, s' with
  | wildcard, wildcard => exact ⟨rfl, List.append_cancel_left ht⟩
  | column c, column d =>
    obtain ⟨rfl, rfl, -⟩ := ColumnRef.selfDelimiting h h' ht hnone
    exact ⟨rfl, rfl⟩
  | leaves l, leaves l' =>
    have hfresh {ctx : Context} (h : ctx.isQualified) (leaf : ColumnRef × String)
        (rest : List Token) : ¬ Clause.Follows (leafTokens ctx leaf ++ rest) := by
      rw [leafTokens, List.append_assoc]
      exact leaf.1.not_follows h _
    obtain ⟨rfl, rfl⟩ := (leaf_selfDelimiting h h').commaTokens_unique_of_valueless
      (fun rest hrest => hrest.head_ne (by decide)) (hfresh h) (hfresh h') ha hb ht
    exact ⟨rfl, rfl⟩
  | column c, wildcard => exact absurd ht (column_tokens_ne h h' nofun ha hb)
  | column c, leaves l => exact absurd ht (column_tokens_ne h h' nofun ha hb)
  | wildcard, column d => exact absurd ht.symm (column_tokens_ne h' h nofun hb ha)
  | leaves l, column d => exact absurd ht.symm (column_tokens_ne h' h nofun hb ha)
  | wildcard, leaves l => exact absurd ht (wildcard_tokens_ne h' hb)
  | leaves l, wildcard => exact absurd ht.symm (wildcard_tokens_ne h ha)

omit h' in
/-- What stands behind `SELECT` is neither a count nor a constant. -/
lemma Selection.tokens_ne {s : Selection} {a b : List Token} {token : Token}
    (ha : Clause.Follows a) (htoken : token ∈ [.word "COUNT", .integer 1]) :
    s.tokens ctx ++ a ≠ token :: b := by
  have hfresh : token ∉ Clause.openings ∧ token ≠ .symbol "*" := by
    revert token
    decide
  have halias : ∀ index, .word (tableAlias index) ≠ token := by
    rintro index rfl
    have hcount : tableAlias index = "COUNT" := by simpa using htoken
    exact Clause.tableAlias_ne index (by decide) hcount
  intro ht
  match s with
  | wildcard => exact hfresh.2 (List.cons.inj ht).1.symm
  | column c =>
    rw [tokens, c.tokens_of_isQualified h] at ht
    exact halias c.table (List.cons.inj ht).1
  | leaves [] =>
    obtain rfl : a = _ := ht
    exact ha.head_ne hfresh.1 rfl
  | leaves (leaf :: rest) =>
    rw [tokens, List.map_cons, Sql.commaTokens_cons, leafTokens,
      leaf.1.tokens_of_isQualified h] at ht
    exact halias leaf.1.table (List.cons.inj ht).1

omit h h' in
/-- A row ends by itself. -/
lemma rowTokens_selfDelimiting :
    SelfDelimiting (rowTokens fun _ => .placeholder) (rowTokens fun _ => .placeholder) id := by
  have hfresh : ∀ (v : Value) (rest : List Token),
      ((fun _ => [Token.placeholder]) v ++ rest).head? ≠ some (.symbol ")") := by
    intro v rest
    simp [Token.placeholder]
  have hrow := SelfDelimiting.placeholder.tuple hfresh hfresh
  intro x y a b m n ht hv
  simp only [id_eq] at hv
  exact hrow ht (by simpa using hv)

end Items

/-! ## Clauses -/

/-- **A condition** is told apart by its tokens and values. -/
lemma Predicate.tokens_unique {ctx ctx' : Context} {p q : Predicate}
    (hbare : ctx.isQualified = false → ctx.bound = 1)
    (hbare' : ctx'.isQualified = false → ctx'.bound = 1)
    (hp : Site.fault? (p.sites ctx) = none) (hq : Site.fault? (q.sites ctx') = none)
    {a b : List Token} {m n : List Value} (ha : Clause.Follows a) (hb : Clause.Follows b)
    (ht : p.tokens (fun _ => .placeholder) ctx ++ a = q.tokens (fun _ => .placeholder) ctx' ++ b)
    (hv : p.values ++ m = q.values ++ n) : p = q ∧ a = b ∧ m = n := by
  have hreadp := p.tokens_read Precedence.standard hbare hp
  have hreadq := q.tokens_read Precedence.standard hbare' hq
  rw [values_sites] at hreadp hreadq
  obtain ⟨htokens, hvalues, rfl⟩ := hreadp.unique hreadq Precedence.standard.nodup ht hv
    (ha.stops _) (hb.stops _)
  rw [htokens] at ht
  exact ⟨rfl, List.append_cancel_left ht, List.append_cancel_left hv⟩

namespace Clause

/-- What is asked of a clause so that it can be read back: a condition has no fault, and a column
outside of conditions is written with its alias. -/
def Legible (ctx : Context) : Clause → Prop
  | select _ => ctx.isQualified
  | order _ => ctx.isQualified
  | set _ => ctx.isQualified
  | join j => Site.fault? (j.condition.sites ctx) = none
  | filter p => Site.fault? (p.sites ctx) = none
  | _ => True

section Unique

variable {ctx ctx' : Context}

/-- A count, a constant and a selection are told apart behind `SELECT`. -/
lemma tokens_unique_of_select {c d : Clause} (hkc : c.keyword = "SELECT")
    (hkd : d.keyword = "SELECT") (hc : c.Legible ctx) (hd : d.Legible ctx') {a b : List Token}
    (ha : Follows a) (hb : Follows b)
    (ht : c.tokens (fun _ => .placeholder) ctx ++ a =
      d.tokens (fun _ => .placeholder) ctx' ++ b) : c = d ∧ a = b := by
  cases c with
  | select s =>
    cases d with
    | select s' =>
      obtain ⟨rfl, rfl⟩ := Selection.tokens_unique hc hd ha hb (List.cons.inj ht).2
      exact ⟨rfl, rfl⟩
    | count | openCount | selectOne =>
      exact absurd (List.cons.inj ht).2 (Selection.tokens_ne hc ha (by decide))
    | _ => simp [keyword] at hkd
  | count =>
    cases d with
    | select s' => exact absurd (List.cons.inj ht).2.symm (Selection.tokens_ne hd hb (by decide))
    | count => exact ⟨rfl, List.append_cancel_left ht⟩
    | openCount =>
      obtain rfl : a = .word "FROM" :: .symbol "(" :: b := by simpa [tokens] using ht
      exact absurd ha Follows.not_parenthesis
    | selectOne => simp [tokens] at ht
    | _ => simp [keyword] at hkd
  | openCount =>
    cases d with
    | select s' => exact absurd (List.cons.inj ht).2.symm (Selection.tokens_ne hd hb (by decide))
    | count =>
      obtain rfl : .word "FROM" :: .symbol "(" :: a = b := by simpa [tokens] using ht
      exact absurd hb Follows.not_parenthesis
    | openCount => exact ⟨rfl, List.append_cancel_left ht⟩
    | selectOne => simp [tokens] at ht
    | _ => simp [keyword] at hkd
  | selectOne =>
    cases d with
    | select s' => exact absurd (List.cons.inj ht).2.symm (Selection.tokens_ne hd hb (by decide))
    | count | openCount => simp [tokens] at ht
    | selectOne => exact ⟨rfl, List.append_cancel_left ht⟩
    | _ => simp [keyword] at hkd
  | _ => simp [keyword] at hkc

/-- No value is bound behind `SELECT`. -/
lemma bound_of_select {c : Clause} (h : c.keyword = "SELECT") : c.bound = [] := by
  cases c with
  | select s => exact bound_select s
  | count | openCount | selectOne => rfl
  | _ => simp [keyword] at h

section Contents

variable {a b : List Token} {m n : List Value} (ha : Follows a) (hb : Follows b)

include ha hb

/-- Joins are told apart by their names, their aliases and their conditions. -/
lemma tokens_unique_of_join (hbare : ctx.isQualified = false → ctx.bound = 1)
    (hbare' : ctx'.isQualified = false → ctx'.bound = 1) {j k : Join}
    (hj : (join j).Legible ctx) (hk : (join k).Legible ctx')
    (ht : (join j).tokens (fun _ => .placeholder) ctx ++ a =
      (join k).tokens (fun _ => .placeholder) ctx' ++ b)
    (hv : (join j).bound ++ m = (join k).bound ++ n) : j = k ∧ a = b ∧ m = n := by
  obtain ⟨⟨index, name⟩, p⟩ := j
  obtain ⟨⟨index', name'⟩, q⟩ := k
  simp only [tokens, Join.tokens, List.cons_append, List.nil_append, List.cons.injEq,
    Token.word.injEq, true_and] at ht
  obtain ⟨rfl, halias, ht'⟩ := ht
  obtain rfl := tableAlias_injective halias
  obtain ⟨rfl, hrests⟩ := Predicate.tokens_unique hbare hbare' hj hk ha hb ht' hv
  exact ⟨rfl, hrests⟩

/-- Sort keys are told apart one by one. -/
lemma tokens_unique_of_order {keys keys' : List SortKey} (hkeys : (order keys).Legible ctx)
    (hkeys' : (order keys').Legible ctx')
    (ht : (order keys).tokens (fun _ => .placeholder) ctx ++ a =
      (order keys').tokens (fun _ => .placeholder) ctx' ++ b) : keys = keys' ∧ a = b := by
  simp only [tokens, List.cons_append, List.cons.injEq, true_and] at ht
  exact (SortKey.selfDelimiting hkeys hkeys').commaTokens_unique_of_valueless
    (fun rest hrest => hrest.head_ne (by decide)) (SortKey.not_follows hkeys)
    (SortKey.not_follows hkeys') ha hb ht

/-- Assignments are told apart one by one, their values included. -/
lemma tokens_unique_of_set {l l' : List Assignment} (hl : (set l).Legible ctx)
    (hl' : (set l').Legible ctx')
    (ht : (set l).tokens (fun _ => .placeholder) ctx ++ a =
      (set l').tokens (fun _ => .placeholder) ctx' ++ b)
    (hv : (set l).bound ++ m = (set l').bound ++ n) : l = l' ∧ a = b ∧ m = n := by
  rw [bound_set, bound_set, List.map_eq_flatMap, List.map_eq_flatMap] at hv
  exact (Assignment.selfDelimiting hl hl').commaTokens_unique
    (fun rest hrest => hrest.head_ne (by decide)) (Assignment.not_follows hl)
    (Assignment.not_follows hl') ha hb (List.cons.inj ht).2 hv

/-- The rows of an insertion are told apart one by one. -/
lemma tokens_unique_of_values {rows rows' : List (List Value)}
    (ht : (values rows).tokens (fun _ => .placeholder) ctx ++ a =
      (values rows').tokens (fun _ => .placeholder) ctx' ++ b)
    (hv : (values rows).bound ++ m = (values rows').bound ++ n) :
    rows = rows' ∧ a = b ∧ m = n := by
  have hfresh : ∀ (row : List Value) (rest : List Token),
      ¬ Follows (rowTokens (fun _ => .placeholder) row ++ rest) :=
    fun row rest hrest => hrest.head_ne (by decide : .symbol "(" ∉ openings) rfl
  rw [bound_values, bound_values, ← List.flatMap_id, ← List.flatMap_id] at hv
  exact rowTokens_selfDelimiting.commaTokens_unique (fun rest hrest => hrest.head_ne (by decide))
    hfresh hfresh ha hb (List.cons.inj ht).2 hv

end Contents

/-- **Tokens and values that begin with a clause** begin with no other, if another clause or nothing
follows. -/
theorem tokens_unique (hbare : ctx.isQualified = false → ctx.bound = 1)
    (hbare' : ctx'.isQualified = false → ctx'.bound = 1) {c d : Clause} (hc : c.Legible ctx)
    (hd : d.Legible ctx') {a b : List Token} {m n : List Value} (ha : Follows a) (hb : Follows b)
    (ht : c.tokens (fun _ => .placeholder) ctx ++ a = d.tokens (fun _ => .placeholder) ctx' ++ b)
    (hv : c.bound ++ m = d.bound ++ n) : c = d ∧ a = b ∧ m = n := by
  have hkeyword : c.keyword = d.keyword := by
    obtain ⟨token, rest, htokens, -, hc⟩ := c.tokens_eq_cons (fun _ => .placeholder) ctx
    obtain ⟨token', rest', htokens', -, hd⟩ := d.tokens_eq_cons (fun _ => .placeholder) ctx'
    rw [htokens, htokens'] at ht
    rw [← hc, ← hd, (List.cons.inj ht).1]
  cases c with
  | select _ | count | openCount | selectOne =>
    obtain ⟨hcd, hab⟩ := tokens_unique_of_select rfl hkeyword.symm hc hd ha hb ht
    rw [bound_of_select rfl, bound_of_select hkeyword.symm] at hv
    exact ⟨hcd, hab, hv⟩
  | closeCount =>
    cases d with
    | closeCount => exact ⟨rfl, List.append_cancel_left ht, hv⟩
    | _ => simp [keyword] at hkeyword
  | table name =>
    cases d with
    | table name' =>
      obtain ⟨rfl, rfl⟩ : name = name' ∧ a = b := by simpa [tokens] using ht
      exact ⟨rfl, rfl, hv⟩
    | _ => simp [keyword] at hkeyword
  | join j =>
    cases d with
    | join k =>
      obtain ⟨rfl, hrests⟩ := tokens_unique_of_join ha hb hbare hbare' hc hd ht hv
      exact ⟨rfl, hrests⟩
    | _ => simp [keyword] at hkeyword
  | filter p =>
    cases d with
    | filter q =>
      obtain ⟨rfl, hrests⟩ :=
        Predicate.tokens_unique hbare hbare' hc hd ha hb (List.cons.inj ht).2 hv
      exact ⟨rfl, hrests⟩
    | _ => simp [keyword] at hkeyword
  | order keys =>
    cases d with
    | order keys' =>
      obtain ⟨rfl, rfl⟩ := tokens_unique_of_order ha hb hc hd ht
      exact ⟨rfl, rfl, List.append_cancel_left hv⟩
    | _ => simp [keyword] at hkeyword
  | limit k =>
    cases d with
    | limit k' =>
      obtain ⟨rfl, rfl⟩ : k = k' ∧ a = b := by simpa [tokens, Int.natCast_inj] using ht
      exact ⟨rfl, rfl, hv⟩
    | _ => simp [keyword] at hkeyword
  | offset k =>
    cases d with
    | offset k' =>
      obtain ⟨rfl, rfl⟩ : k = k' ∧ a = b := by simpa [tokens, Int.natCast_inj] using ht
      exact ⟨rfl, rfl, hv⟩
    | _ => simp [keyword] at hkeyword
  | update name =>
    cases d with
    | update name' =>
      obtain ⟨rfl, rfl⟩ : name = name' ∧ a = b := by simpa [tokens] using ht
      exact ⟨rfl, rfl, hv⟩
    | _ => simp [keyword] at hkeyword
  | set assignments =>
    cases d with
    | set assignments' =>
      obtain ⟨rfl, hrests⟩ := tokens_unique_of_set ha hb hc hd ht hv
      exact ⟨rfl, hrests⟩
    | _ => simp [keyword] at hkeyword
  | delete name =>
    cases d with
    | delete name' =>
      obtain ⟨rfl, rfl⟩ : name = name' ∧ a = b := by simpa [tokens] using ht
      exact ⟨rfl, rfl, hv⟩
    | _ => simp [keyword] at hkeyword
  | insert mode name columns =>
    cases d with
    | insert mode' name' columns' =>
      simp only [tokens, List.cons_append, List.cons.injEq, Token.word.injEq, true_and] at ht
      obtain ⟨hmode, rfl, ht'⟩ := ht
      obtain rfl := InsertMode.word_injective hmode
      obtain ⟨rfl, rfl⟩ := columnNames_unique ht'
      exact ⟨rfl, rfl, hv⟩
    | _ => simp [keyword] at hkeyword
  | values rows =>
    cases d with
    | values rows' =>
      obtain ⟨rfl, hrests⟩ := tokens_unique_of_values ha hb ht hv
      exact ⟨rfl, hrests⟩
    | _ => simp [keyword] at hkeyword

/-- **Lists of clauses** are told apart by their tokens and values.

**Proof sketch.** Induction on the one list. Its first clause and the first one of the other list
begin the same tokens, and clauses or nothing follow them, so they are the same
(`tokens_unique`). -/
theorem flatMap_tokens_unique (hbare : ctx.isQualified = false → ctx.bound = 1)
    (hbare' : ctx'.isQualified = false → ctx'.bound = 1) {cs ds : List Clause}
    (hcs : ∀ c ∈ cs, c.Legible ctx) (hds : ∀ d ∈ ds, d.Legible ctx')
    (ht : cs.flatMap (·.tokens (fun _ => .placeholder) ctx) =
      ds.flatMap (·.tokens (fun _ => .placeholder) ctx'))
    (hv : cs.flatMap (·.bound) = ds.flatMap (·.bound)) : cs = ds := by
  induction cs generalizing ds with
  | nil =>
    cases ds with
    | nil => rfl
    | cons d ds =>
      obtain ⟨token, rest, htokens, -⟩ := d.tokens_eq_cons (fun _ => .placeholder) ctx'
      simp [htokens] at ht
  | cons c cs ih =>
    cases ds with
    | nil =>
      obtain ⟨token, rest, htokens, -⟩ := c.tokens_eq_cons (fun _ => .placeholder) ctx
      simp [htokens] at ht
    | cons d ds =>
      rw [List.forall_mem_cons] at hcs hds
      rw [List.flatMap_cons, List.flatMap_cons] at ht hv
      obtain ⟨rfl, ht', hv'⟩ := tokens_unique hbare hbare' hcs.1 hds.1
        (Follows.flatMap_tokens cs ctx) (Follows.flatMap_tokens ds ctx') ht hv
      rw [ih hcs.2 hds.2 ht' hv']

end Unique

end Clause

end BoundSql
