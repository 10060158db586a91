import BoundSql.Proofs.Expr.Text
import BoundSql.Proofs.Sql.Token
import BoundSql.Proofs.Statement.Names

/-!
# Tokens of expressions

The tokens that the text of a condition is split into, as a function of the condition. They follow
its structure: no token spans two parts of the condition, and the names in it may even spell
keywords.

## Main definitions

* `BoundSql.Comparison.tokens`, `BoundSql.Predicate.tokens` — the tokens of a condition, each bound
  value being the token that it is told to be.

## Main results

* `BoundSql.Predicate.text_lexes` — the text of a condition is split into its tokens.
-/

namespace BoundSql

open Sql (Token Lexes lex_identifier isIdentifier_tableAlias)

/-! ## Tokens -/

section Tokens

variable (mark : Value → Token) (ctx : Context)

/-- The tokens of a column. -/
def ColumnRef.tokens (column : ColumnRef) : List Token :=
  if ctx.isQualified then [.word (tableAlias column.table), .symbol ".", .word column.name]
  else [.word column.name]

/-- The tokens of an operand. -/
def Operand.tokens : Operand → List Token
  | .column c => c.tokens ctx
  | .value v => [mark v]

/-- The tokens of a comparison. -/
def Comparison.tokens : Comparison → List Token
  | .binary op left right => left.tokens mark ctx ++ .symbol op.symbol :: right.tokens mark ctx
  | .isNull c => c.tokens ctx ++ [.word "IS", .word "NULL"]
  | .isNotNull c => c.tokens ctx ++ [.word "IS", .word "NOT", .word "NULL"]

namespace Predicate

/-- The tokens of a member of a group: a group stands in parentheses. -/
def encloseTokens (member : Predicate) (tokens : List Token) : List Token :=
  if member.isGroup then .symbol "(" :: (tokens ++ [.symbol ")"]) else tokens

mutual

/-- The tokens of a predicate. -/
def tokens : Predicate → List Token
  | comparison leaf => leaf.tokens mark ctx
  | group connective members => [.word connective.keyword].intercalate (memberTokens members)

/-- The tokens of the members of a group. -/
def memberTokens : List Predicate → List (List Token)
  | [] => []
  | member :: rest => member.encloseTokens member.tokens :: memberTokens rest

end

/-- The tokens of the members of a group, one by one. -/
lemma memberTokens_eq_map (members : List Predicate) :
    memberTokens mark ctx members = members.map fun m => m.encloseTokens (m.tokens mark ctx) := by
  induction members with
  | nil => rfl
  | cons member rest ih => rw [memberTokens, ih, List.map_cons]

end Predicate

end Tokens

/-! ## Splitting texts -/

section Splitting

variable {spell : Value → String} {mark : Value → Token} (ctx : Context)

/-- A column of a plain name is read as its tokens. -/
lemma ColumnRef.text_lexes {column : ColumnRef} (hname : isIdentifier column.name) :
    Lexes (column.text ctx) (column.tokens ctx) := by
  unfold ColumnRef.text ColumnRef.tokens
  split
  · have halias := lex_identifier (isIdentifier_tableAlias column.table)
    exact Lexes.dotted halias (lex_identifier hname)
  · exact lex_identifier hname

/-- An operand is read as its tokens, however values are spelled. -/
lemma Operand.text_lexes {operand : Operand} (hmark : ∀ v, Lexes (spell v) [mark v])
    (hnames : ∀ c ∈ operand.columns, isIdentifier c.name) :
    Lexes (operand.text spell ctx) (operand.tokens mark ctx) := by
  cases operand with
  | column c => exact c.text_lexes ctx (hnames c List.mem_cons_self)
  | value v => exact hmark v

/-- An operator is one symbol. -/
lemma CompareOp.symbol_lexes (op : CompareOp) : Lexes op.symbol [.symbol op.symbol] := by
  cases op <;> rfl

/-- A comparison is read as its tokens, however values are spelled. -/
lemma Comparison.text_lexes {comparison : Comparison} (hmark : ∀ v, Lexes (spell v) [mark v])
    (hnames : ∀ c ∈ comparison.columns, isIdentifier c.name) :
    Lexes (comparison.text spell ctx) (comparison.tokens mark ctx) := by
  cases comparison with
  | binary op left right =>
    rw [columns, List.forall_mem_append] at hnames
    obtain ⟨hleftNames, hrightNames⟩ := hnames
    have hleft : Lexes (left.text spell ctx) (left.tokens mark ctx) :=
      left.text_lexes ctx hmark hleftNames
    have hright : Lexes (right.text spell ctx) (right.tokens mark ctx) :=
      right.text_lexes ctx hmark hrightNames
    have h := (hleft.spaced op.symbol_lexes).spaced hright
    rwa [List.append_assoc, List.singleton_append] at h
  | isNull c =>
    have hcolumn := c.text_lexes ctx (hnames c List.mem_cons_self)
    exact hcolumn.append (by decide) rfl
  | isNotNull c =>
    have hcolumn := c.text_lexes ctx (hnames c List.mem_cons_self)
    exact hcolumn.append (by decide) rfl

namespace Predicate

/-- A member of a group is split like the predicate, with its parentheses. -/
lemma enclose_lexes (member : Predicate) {text : String} {tokens : List Token}
    (h : Lexes text tokens) : Lexes (member.enclose text) (member.encloseTokens tokens) := by
  unfold enclose encloseTokens
  split
  · exact h.enclosed
  · exact h

/-- The keywords of the connectives are words. -/
lemma isIdentifier_keyword (connective : Connective) : isIdentifier connective.keyword := by
  cases connective <;> rfl

mutual

/-- **The text of a predicate** is split into its tokens. -/
theorem text_lexes (hmark : ∀ v, Lexes (spell v) [mark v]) (p : Predicate)
    (hnames : ∀ c ∈ p.columns, isIdentifier c.name) :
    Lexes (p.text spell ctx) (p.tokens mark ctx) := by
  cases p with
  | comparison leaf =>
    rw [text, tokens]
    exact leaf.text_lexes ctx hmark hnames
  | group connective members =>
    rw [text, tokens, memberTexts_eq_map, memberTokens_eq_map]
    exact Lexes.intercalate (isIdentifier_keyword connective)
      (memberTexts_lex hmark members hnames)

/-- The texts of the members of a group are split into their tokens. -/
theorem memberTexts_lex (hmark : ∀ v, Lexes (spell v) [mark v]) (members : List Predicate)
    (hnames : ∀ c ∈ memberColumns members, isIdentifier c.name) :
    ∀ m ∈ members, Lexes (m.enclose (m.text spell ctx)) (m.encloseTokens (m.tokens mark ctx)) := by
  cases members with
  | nil =>
    intro m hm
    cases hm
  | cons member rest =>
    rw [memberColumns, List.forall_mem_append] at hnames
    obtain ⟨hmember, hrest⟩ := hnames
    rw [List.forall_mem_cons]
    constructor
    · exact enclose_lexes member (text_lexes hmark member hmember)
    · exact memberTexts_lex hmark rest hrest

end

end Predicate

end Splitting

end BoundSql
