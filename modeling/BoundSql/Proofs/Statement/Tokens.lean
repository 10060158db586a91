import BoundSql.Proofs.Expr.Tokens
import BoundSql.Proofs.Sql.Delimited
import BoundSql.Proofs.Statement.Clause

/-!
# Tokens of statements

The tokens that the text of a statement is split into, clause by clause. If the names of tables and
columns are identifiers, then no token spans two clauses, and an output key is one token whatever it
holds.

## Main definitions

* `BoundSql.Clause.tokens` — the tokens of a clause, each bound value being the token that it is
  told to be.
* `BoundSql.Clause.names` — the names in a clause that go into its text as they are.

## Main results

* `BoundSql.Clause.text_lexes` — the line of a clause is split into its tokens.
* `BoundSql.Description.text_lexes` — the text of a description is split into the tokens of its
  clauses.
-/

namespace BoundSql

open Sql (Token Lexes commaTokens tupleTokens lex_identifier lexes_doubled lexes_number
  isIdentifier_tableAlias)

/-! ## Tokens -/

section Tokens

variable (mark : Value → Token) (ctx : Context)

/-- The tokens of a column with its output key. -/
def Selection.leafTokens (leaf : ColumnRef × String) : List Token :=
  leaf.1.tokens ctx ++ [.word "AS", .quoted .name leaf.2]

/-- The tokens behind `SELECT`. -/
def Selection.tokens : Selection → List Token
  | wildcard => [.symbol "*"]
  | column c => c.tokens ctx
  | leaves l => commaTokens (l.map (leafTokens ctx))

/-- The tokens of a sort key. -/
def SortKey.tokens (key : SortKey) : List Token :=
  key.column.tokens ctx ++ [.word key.direction.keyword]

/-- The tokens of an assignment. -/
def Assignment.tokens (assignment : Assignment) : List Token :=
  assignment.column.tokens ctx ++ [.symbol "=", mark assignment.value]

/-- The tokens of a join. -/
def Join.tokens (join : Join) : List Token :=
  [.word "INNER", .word "JOIN", .word join.other.name, .word (tableAlias join.other.index),
    .word "ON"] ++ join.condition.tokens mark ctx

/-- The first word of a mode. -/
def InsertMode.word : InsertMode → String
  | .insert => "INSERT"
  | .replace => "REPLACE"

/-- The tokens of one row. -/
def rowTokens (row : List Value) : List Token := tupleTokens (row.map fun v => [mark v])

namespace Clause

/-- The tokens of a clause. -/
def tokens : Clause → List Token
  | select selection => .word "SELECT" :: selection.tokens ctx
  | count => [.word "SELECT", .word "COUNT", .symbol "(", .symbol "*", .symbol ")"]
  | openCount =>
    [.word "SELECT", .word "COUNT", .symbol "(", .symbol "*", .symbol ")", .word "FROM",
      .symbol "("]
  | selectOne => [.word "SELECT", .integer 1]
  | closeCount => [.symbol ")", .word "counted"]
  | table name => [.word "FROM", .word name, .word (tableAlias 0)]
  | join j => j.tokens mark ctx
  | filter p => .word "WHERE" :: p.tokens mark ctx
  | order keys => .word "ORDER" :: .word "BY" :: commaTokens (keys.map (·.tokens ctx))
  | limit n => [.word "LIMIT", .integer n]
  | offset n => [.word "OFFSET", .integer n]
  | update name => [.word "UPDATE", .word name, .word (tableAlias 0)]
  | set assignments => .word "SET" :: commaTokens (assignments.map (·.tokens mark ctx))
  | delete name => [.word "DELETE", .word "FROM", .word name]
  | insert mode name columns =>
    .word mode.word :: .word "INTO" :: .word name :: tupleTokens (columns.map fun c => [.word c])
  | values rows => .word "VALUES" :: commaTokens (rows.map (rowTokens mark))

/-- The names of tables and columns in a clause. -/
def names : Clause → List String
  | select selection => selection.columns.map (·.name)
  | table name => [name]
  | join j => j.names
  | filter p => p.names
  | order keys => keys.map (·.column.name)
  | update name => [name]
  | set assignments => assignments.map (·.column.name)
  | delete name => [name]
  | insert _ name columns => name :: columns
  | _ => []

end Clause

end Tokens

/-! ## Names -/

namespace SelectStatement

variable (s : SelectStatement)

/-- The names of a source are those of its clauses. -/
lemma flatMap_names_sourceClauses : s.sourceClauses.flatMap (·.names) = s.sourceNames := by
  rw [s.flatMap_sourceClauses, sourceNames]
  simp [Clause.names, List.flatMap_singleton']

/-- The names of a window are those of its sort keys. -/
lemma flatMap_names_windowClauses :
    s.windowClauses.flatMap (·.names) = s.orderBy.map (·.column.name) := by
  rw [s.flatMap_windowClauses _ rfl]
  simp [Clause.names]

/-- The names of a read are those of its clauses. -/
lemma flatMap_names_rowClauses : s.rowClauses.flatMap (·.names) = s.names := by
  rw [s.flatMap_rowClauses, flatMap_names_sourceClauses, flatMap_names_windowClauses]
  simp [names, Clause.names, Projection.names, Projection.columns_selection]

/-- The names of a count are those of its clauses. -/
lemma flatMap_names_countClauses : s.countClauses.flatMap (·.names) = s.countNames := by
  rw [countClauses, countNames, ← flatMap_names_sourceClauses, ← flatMap_names_windowClauses]
  split
  · simp [Clause.names]
  · simp [Clause.names]

end SelectStatement

/-- The names of a description are those of its clauses. -/
lemma Description.flatMap_names_clauses (d : Description) :
    d.clauses.flatMap (·.names) = d.names := by
  cases d with
  | select s => exact s.flatMap_names_rowClauses
  | count s => exact s.flatMap_names_countClauses
  | update s =>
    rw [clauses, s.flatMap_clauses _ rfl]
    rfl
  | delete s =>
    rw [clauses, s.flatMap_clauses]
    rfl
  | insert s =>
    have hvalues : (Clause.values s.rows).names = [] := rfl
    rw [clauses, s.flatMap_clauses _ rfl, hvalues, List.append_nil]
    rfl

/-- The names in a clause of a description are names of the description. -/
lemma Description.mem_names {d : Description} {clause : Clause} {name : String}
    (hclause : clause ∈ d.clauses) (hname : name ∈ clause.names) : name ∈ d.names := by
  rw [← d.flatMap_names_clauses]
  exact List.mem_flatMap.2 ⟨clause, hclause, hname⟩

/-! ## Splitting texts -/

section Splitting

variable {spell : Value → String} {mark : Value → Token} (ctx : Context)

/-- A column with its output key is split into its tokens, whatever the key is. -/
lemma Selection.leafText_lexes {leaf : ColumnRef × String} (hname : isIdentifier leaf.1.name) :
    Lexes (leafText ctx leaf) (leafTokens ctx leaf) := by
  have hcolumn : Lexes (leaf.1.text ctx) (leaf.1.tokens ctx) := leaf.1.text_lexes ctx hname
  have hlabel : Lexes (Text.doubled '"' leaf.2) [.quoted .name leaf.2] :=
    lexes_doubled .name leaf.2
  have has : Lexes "AS" [.word "AS"] := rfl
  have hleaf := hcolumn.between has hlabel
  rw [List.append_assoc] at hleaf
  exact hleaf

/-- What is selected is read as its tokens. -/
lemma Selection.text_lexes {selection : Selection}
    (hnames : ∀ c ∈ selection.columns, isIdentifier c.name) :
    Lexes (selection.text ctx) (selection.tokens ctx) := by
  cases selection with
  | wildcard =>
    have hstar : Lexes "*" [.symbol "*"] := rfl
    exact hstar
  | column c => exact c.text_lexes ctx (hnames c List.mem_cons_self)
  | leaves l =>
    rw [columns, List.forall_mem_map] at hnames
    exact Lexes.commaList fun leaf hleaf => leafText_lexes ctx (hnames leaf hleaf)

/-- A sort key is read as its tokens. -/
lemma SortKey.text_lexes {key : SortKey} (hname : isIdentifier key.column.name) :
    Lexes (key.text ctx) (key.tokens ctx) := by
  have hdirection : Lexes key.direction.keyword [.word key.direction.keyword] := by
    cases key.direction <;> rfl
  exact (key.column.text_lexes ctx hname).spaced hdirection

/-- An assignment is read as its tokens, however its value is spelled. -/
lemma Assignment.text_lexes {assignment : Assignment} (hmark : ∀ v, Lexes (spell v) [mark v])
    (hname : isIdentifier assignment.column.name) :
    Lexes (assignment.text spell ctx) (assignment.tokens mark ctx) := by
  have hcolumn := assignment.column.text_lexes ctx hname
  have hequals : Lexes "=" [.symbol "="] := rfl
  have hassignment := hcolumn.between hequals (hmark assignment.value)
  rw [List.append_assoc] at hassignment
  exact hassignment

/-- A table with its alias is two words. -/
lemma TableRef.access_lexes (table : TableRef) (hname : isIdentifier table.name) :
    Lexes table.access [.word table.name, .word (tableAlias table.index)] :=
  Lexes.spaced (lex_identifier hname) (lex_identifier (isIdentifier_tableAlias table.index))

/-- A join is read as its tokens, however values are spelled. -/
lemma Join.text_lexes {join : Join} (hmark : ∀ v, Lexes (spell v) [mark v])
    (hnames : ∀ name ∈ join.names, isIdentifier name) :
    Lexes (join.text spell ctx) (join.tokens mark ctx) := by
  rw [names, List.forall_mem_cons, Predicate.names, List.forall_mem_map] at hnames
  obtain ⟨hname, hcolumns⟩ := hnames
  have hkeyword : Lexes "INNER JOIN" [.word "INNER", .word "JOIN"] := rfl
  have haccess : Lexes join.other.access _ := join.other.access_lexes hname
  have hon : Lexes "ON" [.word "ON"] := rfl
  have hcondition := join.condition.text_lexes ctx hmark hcolumns
  have hjoin := (hkeyword.spaced haccess).between hon hcondition
  exact hjoin

/-- A list in parentheses is split item by item. -/
lemma tuple_lexes {α : Type} {text : α → String} {tokens : α → List Token} {l : List α}
    (h : ∀ m ∈ l, Lexes (text m) (tokens m)) :
    Lexes ("(" ++ commaList (l.map text) ++ ")") (tupleTokens (l.map tokens)) :=
  (Lexes.commaList h).enclosed

namespace Clause

/-- A keyword and a list behind it are split item by item. -/
lemma listText_lexes {α : Type} {keyword : String} {words : List Token} {text : α → String}
    {tokens : α → List Token} {l : List α} (hkeyword : Lexes keyword words)
    (h : ∀ m ∈ l, Lexes (text m) (tokens m)) :
    Lexes (listText keyword (l.map text)) (words ++ commaTokens (l.map tokens)) :=
  hkeyword.spaced (Lexes.commaList h)

/-- **The line of a clause** is split into its tokens, if the names in it are identifiers. -/
theorem text_lexes (hmark : ∀ v, Lexes (spell v) [mark v]) {clause : Clause}
    (hnames : ∀ name ∈ clause.names, isIdentifier name) :
    Lexes (clause.text spell ctx) (clause.tokens mark ctx) := by
  cases clause with
  | select selection =>
    rw [names, List.forall_mem_map] at hnames
    have hkeyword : Lexes "SELECT" [.word "SELECT"] := rfl
    exact hkeyword.spaced (selection.text_lexes ctx hnames)
  | count => exact (rfl : Lexes "SELECT COUNT(*)" _)
  | openCount => exact (rfl : Lexes "SELECT COUNT(*) FROM (" _)
  | selectOne => exact (rfl : Lexes "SELECT 1" _)
  | closeCount => exact (rfl : Lexes ") counted" _)
  | table name =>
    have hname : Lexes name [.word name] := lex_identifier (hnames name List.mem_cons_self)
    have hkeyword : Lexes "FROM" [.word "FROM"] := rfl
    exact (hkeyword.spaced hname).append (by decide) rfl
  | join j => exact j.text_lexes ctx hmark hnames
  | filter p =>
    have hkeyword : Lexes "WHERE" [.word "WHERE"] := rfl
    rw [names, Predicate.names, List.forall_mem_map] at hnames
    exact hkeyword.spaced (p.text_lexes ctx hmark hnames)
  | order keys =>
    rw [names, List.forall_mem_map] at hnames
    have hkeyword : Lexes "ORDER BY" [.word "ORDER", .word "BY"] := rfl
    exact listText_lexes hkeyword fun key hkey => key.text_lexes ctx (hnames key hkey)
  | limit n =>
    have hkeyword : Lexes "LIMIT" [.word "LIMIT"] := rfl
    exact hkeyword.spaced (lexes_number n)
  | offset n =>
    have hkeyword : Lexes "OFFSET" [.word "OFFSET"] := rfl
    exact hkeyword.spaced (lexes_number n)
  | update name =>
    have hkeyword : Lexes "UPDATE" [.word "UPDATE"] := rfl
    exact hkeyword.spaced (TableRef.access_lexes ⟨0, name⟩ (hnames name List.mem_cons_self))
  | set assignments =>
    rw [names, List.forall_mem_map] at hnames
    have hkeyword : Lexes "SET" [.word "SET"] := rfl
    exact listText_lexes hkeyword fun a ha => a.text_lexes ctx hmark (hnames a ha)
  | delete name =>
    have hname : Lexes name [.word name] := lex_identifier (hnames name List.mem_cons_self)
    have hkeyword : Lexes "DELETE FROM" [.word "DELETE", .word "FROM"] := rfl
    exact hkeyword.spaced hname
  | insert mode name columns =>
    rw [names, List.forall_mem_cons] at hnames
    obtain ⟨hname, hcolumns⟩ := hnames
    have hmode : Lexes mode.keyword [.word mode.word, .word "INTO"] := by
      cases mode <;> rfl
    have hlist : Lexes ("(" ++ commaList (columns.map id) ++ ")")
        (tupleTokens (columns.map fun c => [.word c])) :=
      tuple_lexes fun c hc => lex_identifier (hcolumns c hc)
    have hline := (hmode.spaced (lex_identifier hname)).spaced hlist
    change Lexes (mode.keyword ++ " " ++ name ++ (" " ++ "(") ++ commaList columns ++ ")") _
    simp only [List.map_id, String.append_assoc] at hline ⊢
    exact hline
  | values rows =>
    have hkeyword : Lexes "VALUES" [.word "VALUES"] := rfl
    exact listText_lexes hkeyword fun row _ => tuple_lexes fun v _ => hmark v

end Clause

/-- **The text of a description** is split into the tokens of its clauses, one after the other. -/
theorem Description.text_lexes (hmark : ∀ v, Lexes (spell v) [mark v]) {d : Description}
    (hnames : ∀ name ∈ d.names, isIdentifier name) :
    Lexes (d.text spell) (d.clauses.flatMap (·.tokens mark d.context)) := by
  rw [text, texts_eq_clauses]
  apply Lexes.lines
  intro clause hclause
  apply clause.text_lexes d.context hmark
  intro name hname
  exact hnames name (mem_names hclause hname)

end Splitting

end BoundSql
