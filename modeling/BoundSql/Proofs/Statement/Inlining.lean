import BoundSql.Proofs.Statement.Alignment
import BoundSql.Proofs.Statement.OneTable
import BoundSql.Proofs.Statement.Tokens

/-!
# Tokens of inlined statements

Where a statement is shown with its parameters in place, each parameter is one token, and no other
token changes: what a text holds never ends its literal early, and no literal runs into what stands
beside it. Reals are left out, since a real is shown as digits with a point between them.

## Main definitions

* `BoundSql.Value.literal?` — the token that a value is shown as.
* `BoundSql.Sql.Token.Fills` — tokens with literals in place of the placeholders.
* `BoundSql.Statement.CompiledFrom` — the statements that are compiled, with the names in them.

## Main results

* `BoundSql.Value.display_lexes` — the text that a value is shown as is its token.
* `BoundSql.Description.tokens_fill` — the tokens of a description, with its values in place.
* `BoundSql.Statement.inlined_tokens` — an inlined statement has the tokens of the statement, with a
  literal for each placeholder.
-/

namespace BoundSql

open Sql (Token Lexes commaTokens tupleTokens lex_identifier lexes_doubled lexes_integer
  lexes_placeholder)

/-! ## Literals -/

namespace Value

/-- The token that a value is shown as, unless it is a real. -/
def literal? : Value → Option Token
  | null => some (.word "NULL")
  | bool true => some (.word "true")
  | bool false => some (.word "false")
  | integer n => some (.integer n.toInt)
  | real _ => none
  | text s => some (.quoted .text s)

/-- **The text that a value is shown as** is its token. -/
theorem display_lexes {v : Value} {literal : Token} (h : v.literal? = some literal) :
    Lexes v.display [literal] := by
  cases v with
  | null =>
    obtain rfl := Option.some.inj h
    exact lex_identifier (by decide)
  | bool b =>
    cases b with
    | true | false =>
      obtain rfl := Option.some.inj h
      exact lex_identifier (by decide)
  | integer n =>
    obtain rfl := Option.some.inj h
    exact lexes_integer n.toInt
  | real x => cases h
  | text s =>
    obtain rfl := Option.some.inj h
    exact lexes_doubled .text s

/-- The token of a value tells which value it is. -/
lemma literal?_injective {v w : Value} {literal : Token} (hv : v.literal? = some literal)
    (hw : w.literal? = some literal) : v = w := by
  have hsame : v.literal? = w.literal? := hv.trans hw.symm
  rw [hv] at hsame
  unfold literal? at hv hsame
  split at hv <;> split at hsame <;> simp_all [Int64.toInt_inj]

end Value

/-! ## Tokens in place of placeholders -/

namespace Sql.Token

/-- Tokens with others in place of the placeholders: the one in place of the `i`-th placeholder
carries the `i`-th value, and what is no placeholder stays as it is. -/
inductive Fills (carries : Token → Value → Prop) : List Token → List Value → List Token → Prop
  /-- Nothing is left. -/
  | nil : Fills carries [] [] []
  /-- A token stays. -/
  | keep {token : Token} {tokens filled : List Token} {values : List Value}
      (htoken : token ≠ placeholder) (hrest : Fills carries tokens values filled) :
      Fills carries (token :: tokens) values (token :: filled)
  /-- A placeholder gives way. -/
  | fill {token : Token} {v : Value} {tokens filled : List Token} {values : List Value}
      (htoken : carries token v) (hrest : Fills carries tokens values filled) :
      Fills carries (placeholder :: tokens) (v :: values) (token :: filled)

/-- A token that shows a value. -/
def Shows (token : Token) (v : Value) : Prop := v.literal? = some token

namespace Fills

variable {carries other : Token → Value → Prop} {a b x y : List Token} {vs ws : List Value}

/-- Tokens are filled one after the other. -/
lemma append (ha : Fills carries a vs x) (hb : Fills carries b ws y) :
    Fills carries (a ++ b) (vs ++ ws) (x ++ y) := by
  induction ha with
  | nil => exact hb
  | keep htoken _ ih => exact .keep htoken ih
  | fill htoken _ ih => exact .fill htoken ih

/-- Tokens without a placeholder stay as they are. -/
lemma of_not_mem (h : placeholder ∉ a) : Fills carries a [] a := by
  induction a with
  | nil => exact .nil
  | cons token rest ih =>
    rw [List.mem_cons, not_or] at h
    exact .keep (Ne.symm h.1) (ih h.2)

/-- Tokens without a placeholder in front bind nothing. -/
lemma plain_append (ha : placeholder ∉ a) (hb : Fills carries b ws y) :
    Fills carries (a ++ b) ws (a ++ y) := (of_not_mem ha).append hb

/-- Tokens without a placeholder behind bind nothing. -/
lemma append_plain (ha : Fills carries a vs x) (hb : placeholder ∉ b) :
    Fills carries (a ++ b) vs (x ++ b) := by
  have h := ha.append (of_not_mem hb)
  rwa [List.append_nil] at h

/-- What carries a value may be told otherwise, value by value. -/
lemma mono (h : Fills carries a vs x)
    (hcarries : ∀ v ∈ vs, ∀ token, carries token v → other token v) : Fills other a vs x := by
  induction h with
  | nil => exact .nil
  | keep htoken _ ih => exact .keep htoken (ih hcarries)
  | fill htoken _ ih =>
    rw [List.forall_mem_cons] at hcarries
    exact .fill (hcarries.1 _ htoken) (ih hcarries.2)

/-- The tokens in place of the placeholders tell the values. -/
lemma values_unique (h : Fills Shows a vs x) (h' : Fills Shows a ws x) : vs = ws := by
  induction h generalizing ws with
  | nil =>
    cases h' with
    | nil => rfl
  | keep htoken _ ih =>
    cases h' with
    | keep _ hrest => exact ih hrest
    | fill _ _ => exact absurd rfl htoken
  | fill htoken _ ih =>
    cases h' with
    | keep hkeep _ => exact absurd rfl hkeep
    | fill htoken' hrest => rw [Value.literal?_injective htoken htoken', ih hrest]

/-- Lists of tokens with a plain separator between them are filled one by one. -/
lemma intercalate {α : Type} {separator : List Token} (hseparator : placeholder ∉ separator)
    {f g : α → List Token} {values : α → List Value} {l : List α}
    (h : ∀ m ∈ l, Fills carries (f m) (values m) (g m)) :
    Fills carries (separator.intercalate (l.map f)) (l.flatMap values)
      (separator.intercalate (l.map g)) := by
  match l with
  | [] => exact .nil
  | [m] => simpa using h m List.mem_cons_self
  | m :: n :: rest =>
    rw [List.forall_mem_cons] at h
    obtain ⟨hm, hothers⟩ := h
    have hrest := intercalate hseparator hothers
    simp only [List.map_cons, List.flatMap_cons] at hrest ⊢
    rw [List.intercalate_cons_cons, List.intercalate_cons_cons]
    exact (hm.append_plain hseparator).append hrest

/-- Lists of tokens are filled one by one. -/
lemma flatMap {α : Type} {f g : α → List Token} {values : α → List Value} {l : List α}
    (h : ∀ m ∈ l, Fills carries (f m) (values m) (g m)) :
    Fills carries (l.flatMap f) (l.flatMap values) (l.flatMap g) := by
  have hnothing : placeholder ∉ ([] : List Token) := List.not_mem_nil
  have hall := intercalate hnothing h
  rwa [Sql.Lexes.intercalate_nothing, Sql.Lexes.intercalate_nothing, ← List.flatMap_def,
    ← List.flatMap_def] at hall

end Fills

end Sql.Token

open Sql.Token (Fills placeholder)

/-! ## Tokens of descriptions -/

section Parts

variable (mark : Value → Token) (ctx : Context)

/-- A column is no placeholder. -/
lemma ColumnRef.placeholder_not_mem_tokens (column : ColumnRef) :
    placeholder ∉ column.tokens ctx := by
  unfold tokens
  split <;> simp [placeholder]

/-- Tokens of an operand are filled where it has a value. -/
lemma Operand.tokens_fill (operand : Operand) :
    Fills (· = mark ·) (operand.tokens (fun _ => placeholder) ctx)
      (operand.walk.filterMap Step.value?) (operand.tokens mark ctx) := by
  cases operand with
  | column c => exact .of_not_mem (c.placeholder_not_mem_tokens ctx)
  | value v => exact .fill rfl .nil

/-- Tokens of a comparison are filled where it has values. -/
lemma Comparison.tokens_fill (comparison : Comparison) :
    Fills (· = mark ·) (comparison.tokens (fun _ => placeholder) ctx)
      (comparison.walk.filterMap Step.value?) (comparison.tokens mark ctx) := by
  cases comparison with
  | binary op left right =>
    have hop : Token.symbol op.symbol ≠ placeholder := by cases op <;> decide
    rw [walk, List.filterMap_append]
    exact (left.tokens_fill mark ctx).append (.keep hop (right.tokens_fill mark ctx))
  | isNull c | isNotNull c =>
    have hcolumn := c.placeholder_not_mem_tokens ctx
    exact .of_not_mem (List.not_mem_append hcolumn (by decide))

namespace Predicate

/-- Parentheses are no placeholders. -/
lemma encloseTokens_fill (member : Predicate) {a x : List Token} {vs : List Value}
    (h : Fills (· = mark ·) a vs x) :
    Fills (· = mark ·) (member.encloseTokens a) vs (member.encloseTokens x) := by
  unfold encloseTokens
  split
  · exact .keep (by decide) (h.append_plain (by decide))
  · exact h

mutual

/-- **The tokens of a predicate**, with its values in place. -/
theorem tokens_fill (p : Predicate) :
    Fills (· = mark ·) (p.tokens (fun _ => placeholder) ctx) p.values (p.tokens mark ctx) := by
  cases p with
  | comparison leaf =>
    rw [tokens, tokens]
    exact leaf.tokens_fill mark ctx
  | group connective members =>
    have hkeyword : placeholder ∉ [Token.word connective.keyword] := by simp [placeholder]
    rw [tokens, tokens, values_group, memberTokens_eq_map, memberTokens_eq_map]
    exact .intercalate hkeyword (memberTokens_fill members)

/-- The tokens of the members of a group, with their values in place. -/
theorem memberTokens_fill (members : List Predicate) :
    ∀ m ∈ members, Fills (· = mark ·) (m.encloseTokens (m.tokens (fun _ => placeholder) ctx))
      m.values (m.encloseTokens (m.tokens mark ctx)) := by
  cases members with
  | nil =>
    intro m hm
    cases hm
  | cons member rest =>
    rw [List.forall_mem_cons]
    exact ⟨member.encloseTokens_fill mark (tokens_fill member), memberTokens_fill rest⟩

end

end Predicate

/-- Commas between lists of tokens are no placeholders. -/
lemma commaTokens_fill {α : Type} {f g : α → List Token} {values : α → List Value} {l : List α}
    (h : ∀ m ∈ l, Fills (· = mark ·) (f m) (values m) (g m)) :
    Fills (· = mark ·) (commaTokens (l.map f)) (l.flatMap values) (commaTokens (l.map g)) :=
  .intercalate (by decide) h

/-- A list whose members have no placeholders binds nothing. -/
lemma commaTokens_plain {α : Type} {f : α → List Token} {l : List α}
    (h : ∀ m ∈ l, placeholder ∉ f m) :
    Fills (· = mark ·) (commaTokens (l.map f)) [] (commaTokens (l.map f)) := by
  have hlist : Fills (· = mark ·) (commaTokens (l.map f)) (l.flatMap fun _ => [])
      (commaTokens (l.map f)) := commaTokens_fill mark fun m hm => .of_not_mem (h m hm)
  rwa [Sql.SelfDelimiting.flatMap_valueless] at hlist

/-- There are no placeholders in what is selected. -/
lemma Selection.tokens_fill (selection : Selection) :
    Fills (· = mark ·) (selection.tokens ctx) [] (selection.tokens ctx) := by
  cases selection with
  | wildcard => exact .of_not_mem (by simp [tokens, placeholder])
  | column c => exact .of_not_mem (c.placeholder_not_mem_tokens ctx)
  | leaves l =>
    refine commaTokens_plain mark fun leaf _ => ?_
    exact List.not_mem_append (leaf.1.placeholder_not_mem_tokens ctx) (by simp [placeholder])

/-- Tokens of an assignment are filled at its value. -/
lemma Assignment.tokens_fill (assignment : Assignment) :
    Fills (· = mark ·) (assignment.tokens (fun _ => placeholder) ctx) [assignment.value]
      (assignment.tokens mark ctx) :=
  .plain_append (assignment.column.placeholder_not_mem_tokens ctx)
    (.keep (by decide) (.fill rfl .nil))

/-- A row is a list of placeholders, with its values in place. -/
lemma rowTokens_fill (row : List Value) :
    Fills (· = mark ·) (rowTokens (fun _ => placeholder) row) row (rowTokens mark row) := by
  have hcells : Fills (· = mark ·) (commaTokens (row.map fun _ => [placeholder]))
      (row.flatMap fun v => [v]) (commaTokens (row.map fun v => [mark v])) :=
    commaTokens_fill mark fun v _ => .fill rfl .nil
  rw [List.flatMap_singleton'] at hcells
  exact .keep (by decide) (hcells.append_plain (by decide))

/-- **The tokens of a clause**, with its values in place. -/
theorem Clause.tokens_fill (clause : Clause) :
    Fills (· = mark ·) (clause.tokens (fun _ => placeholder) ctx) clause.bound
      (clause.tokens mark ctx) := by
  cases clause with
  | select selection =>
    rw [bound_select]
    exact .keep (by simp [placeholder]) (selection.tokens_fill mark ctx)
  | join j => exact .plain_append (by simp [placeholder]) (j.condition.tokens_fill mark ctx)
  | filter p => exact .keep (by simp [placeholder]) (p.tokens_fill mark ctx)
  | order keys =>
    have hkeys : Fills (· = mark ·) (commaTokens (keys.map (·.tokens ctx))) []
        (commaTokens (keys.map (·.tokens ctx))) := by
      refine commaTokens_plain mark fun key _ => ?_
      exact List.not_mem_append (key.column.placeholder_not_mem_tokens ctx) (by simp [placeholder])
    have hbound : (order keys).bound = [] := by simp [bound, walk, Step.value?]
    rw [hbound]
    exact .keep (by simp [placeholder]) (.keep (by simp [placeholder]) hkeys)
  | set assignments =>
    rw [bound_set, List.map_eq_flatMap]
    exact .keep (by simp [placeholder]) (commaTokens_fill mark fun a _ => a.tokens_fill mark ctx)
  | insert mode name columns =>
    have hcolumns : Fills (· = mark ·) (commaTokens (columns.map fun c => [Token.word c])) []
        (commaTokens (columns.map fun c => [Token.word c])) :=
      commaTokens_plain mark fun c _ => by simp [placeholder]
    have htuple := hcolumns.append_plain (b := [.symbol ")"]) (by decide)
    exact .plain_append (a := [.word mode.word, .word "INTO", .word name, .symbol "("])
      (by simp [placeholder]) htuple
  | values rows =>
    rw [bound_values, ← List.flatMap_id]
    exact .keep (by simp [placeholder]) (commaTokens_fill mark fun row _ => rowTokens_fill mark row)
  | _ => exact .of_not_mem (by simp [tokens, placeholder])

end Parts

/-- **The tokens of a description**, with its values in place. -/
theorem Description.tokens_fill (mark : Value → Token) (d : Description) :
    Fills (· = mark ·) (d.clauses.flatMap (·.tokens (fun _ => placeholder) d.context)) d.bound
      (d.clauses.flatMap (·.tokens mark d.context)) :=
  .flatMap fun clause _ => clause.tokens_fill mark d.context

/-! ## Inlined statements -/

/-- The token that a value is shown as; a real keeps its placeholder. -/
def Value.shownToken (v : Value) : Token := v.literal?.getD .placeholder

/-- The text that a value is shown as; a real keeps its placeholder. -/
def Value.shownText (v : Value) : String := if v.literal?.isSome then v.display else "?"

/-- What a value is shown as is one token, whatever the value is. -/
lemma Value.shownText_lexes (v : Value) : Lexes v.shownText [v.shownToken] := by
  unfold shownText shownToken
  cases hliteral : v.literal? with
  | none => exact lexes_placeholder
  | some literal => exact v.display_lexes hliteral

/-- A value that is no real has a token. -/
lemma Value.exists_literal? {v : Value} (h : ∀ x, v ≠ .real x) :
    ∃ literal, v.literal? = some literal := by
  unfold literal?
  split
  · exact ⟨_, rfl⟩
  · exact ⟨_, rfl⟩
  · exact ⟨_, rfl⟩
  · exact ⟨_, rfl⟩
  · exact absurd rfl (h _)
  · exact ⟨_, rfl⟩

/-- Values that are spelled alike fill a text alike. -/
lemma Text.fill?_congr {spell spell' : Value → String} {values : List Value}
    (h : ∀ v ∈ values, spell v = spell' v) (chars : List Char) :
    fill? spell chars values = fill? spell' chars values := by
  induction chars generalizing values with
  | nil => cases values <;> rfl
  | cons c rest ih =>
    by_cases hc : c = '?'
    · subst hc
      cases values with
      | nil => rw [fill?_mark_nil, fill?_mark_nil]
      | cons v values =>
        rw [List.forall_mem_cons] at h
        rw [fill?_mark_cons, fill?_mark_cons, h.1, ih h.2]
    · rw [fill?_cons_of_ne hc, fill?_cons_of_ne hc, ih h]

/-- A statement that is compiled, and the names of tables and columns that go into its text. -/
inductive Statement.CompiledFrom : List String → Statement → Prop
  /-- The statement of a description. -/
  | build {d : Description} {statement : Statement} (h : d.build = .ok statement) :
      CompiledFrom d.names statement
  /-- The removal of every row of a table. -/
  | truncate (table : String) : CompiledFrom [table] (.truncate table)

/-- A description whose names are identifiers is inlined to a text that is split like its statement,
the tokens of the values being in place of the placeholders. -/
lemma Description.exists_tokens {d : Description} (hnames : ∀ name ∈ d.names, isIdentifier name)
    {statement : Statement} (hbuild : d.build = .ok statement)
    (hparams : ∀ v ∈ statement.params, ∀ x, v ≠ .real x) :
    ∃ text tokens filled, statement.inline? Value.display = some text ∧
      Sql.lex statement.sql = some tokens ∧ Sql.lex text = some filled ∧
      Fills Token.Shows tokens statement.params.toList filled := by
  obtain ⟨hfault, rfl⟩ := build_eq_ok_iff.1 hbuild
  have hvalues : ∀ v ∈ d.bound, ∀ x, v ≠ .real x := by
    intro v hv
    rw [← d.values_sites] at hv
    exact hparams v (by simpa using hv)
  refine ⟨d.text Value.shownText, _, _, ?_, text_lexes (fun _ => lexes_placeholder) hnames,
    text_lexes Value.shownText_lexes hnames, ?_⟩
  · have hplain : ∀ name ∈ d.names, Text.IsPlain name :=
      fun name hname => isPlain_of_isIdentifier (hnames name hname)
    have hfill : Text.fill? Value.shownText (d.text Value.placeholder).toList
        (Site.values d.sites) = some (d.text Value.shownText).toList :=
      text_fills Value.shownText hplain hfault
    have hcongr : ∀ v ∈ Site.values d.sites, v.display = v.shownText := by
      intro v hv
      rw [d.values_sites] at hv
      obtain ⟨literal, hliteral⟩ := Value.exists_literal? (hvalues v hv)
      rw [Value.shownText, hliteral]
      rfl
    rw [Statement.inline?, Text.fill?_congr hcongr, hfill]
    simp
  · rw [List.toList_toArray, d.values_sites]
    refine (d.tokens_fill Value.shownToken).mono fun v hv token htoken => ?_
    obtain ⟨literal, hliteral⟩ := Value.exists_literal? (hvalues v hv)
    rw [htoken, Token.Shows, Value.shownToken, hliteral]
    rfl

/-- The removal of every row of a table binds nothing. -/
lemma Statement.exists_tokens_truncate {table : String} (htable : isIdentifier table) :
    ∃ text tokens filled, (truncate table).inline? Value.display = some text ∧
      Sql.lex (truncate table).sql = some tokens ∧ Sql.lex text = some filled ∧
      Fills Token.Shows tokens (truncate table).params.toList filled := by
  have hkeyword : Lexes "TRUNCATE" [.word "TRUNCATE"] := lex_identifier (by decide)
  have htokens : Sql.lex (truncate table).sql = some [.word "TRUNCATE", .word table] :=
    hkeyword.spaced (lex_identifier htable)
  have hplain : Text.IsPlain (truncate table).sql :=
    Text.isPlain_append.2 ⟨by decide, isPlain_of_isIdentifier htable⟩
  have hfill : Text.fill? Value.display (truncate table).sql.toList [] =
      some (truncate table).sql.toList := hplain.fills
  refine ⟨(truncate table).sql, _, _, ?_, htokens, htokens, .of_not_mem (by simp [placeholder])⟩
  have hparams : (truncate table).params.toList = [] := rfl
  rw [inline?, hparams, hfill, Option.map_some, String.ofList_toList]

/-- **An inlined statement has the tokens of the statement**, with a literal in place of each
placeholder, if the names in the statement are identifiers and no parameter is a real. So no text
ends its literal early or runs into what stands beside it, whatever it holds; and each literal tells
which parameter it shows.

**Proof sketch.** The text that a description has with its values shown where they stand is split
clause by clause, each value being one token (`Description.text_lexes`). These are the tokens of the
text with placeholders, with the tokens of the values in place (`Description.tokens_fill`). The
removal of every row of a table binds nothing. -/
theorem Statement.inlined_tokens {names : List String} {statement : Statement}
    (h : statement.CompiledFrom names) (hnames : ∀ name ∈ names, isIdentifier name)
    (hparams : ∀ v ∈ statement.params, ∀ x, v ≠ .real x) :
    ∃ text tokens filled, statement.inline? Value.display = some text ∧
      Sql.lex statement.sql = some tokens ∧ Sql.lex text = some filled ∧
      Fills Token.Shows tokens statement.params.toList filled ∧
      ∀ values, Fills Token.Shows tokens values filled → values = statement.params.toList := by
  obtain ⟨text, tokens, filled, hinline, htokens, hfilled, hfills⟩ :
      ∃ text tokens filled, statement.inline? Value.display = some text ∧
        Sql.lex statement.sql = some tokens ∧ Sql.lex text = some filled ∧
        Fills Token.Shows tokens statement.params.toList filled := by
    cases h with
    | build hbuild => exact Description.exists_tokens hnames hbuild hparams
    | truncate table => exact Statement.exists_tokens_truncate (hnames table List.mem_cons_self)
  exact ⟨text, tokens, filled, hinline, htokens, hfilled, hfills,
    fun values hvalues => hvalues.values_unique hfills⟩

/-- A row with a text that holds quotes, a question mark, a comment mark and a line end. -/
def hostileRow : InsertStatement where
  table := "blog"
  columns := ["id", "title", "draft", "rank"]
  rows := [[.integer (-7), .text "it's --?\n');", .bool true, .null]]

/-- The statement of the row is split into the same tokens as the row shown in place, with four
literals for the four placeholders. -/
theorem Statement.inlined_tokens_hostileRow :
    ∃ statement, (Description.insert hostileRow).build = .ok statement ∧
      (∀ name ∈ (Description.insert hostileRow).names, isIdentifier name) ∧
      (∀ v ∈ statement.params, ∀ x, v ≠ .real x) ∧
      statement.inline? Value.display = some ("INSERT INTO blog (id, title, draft, rank)\n" ++
        "VALUES (-7, 'it''s --?\n'');', true, NULL)") ∧
      ∃ tokens filled, Sql.lex statement.sql = some tokens ∧
        filled.drop 13 = [.symbol "(", .integer (-7), .symbol ",", .quoted .text "it's --?\n');",
          .symbol ",", .word "true", .symbol ",", .word "NULL", .symbol ")"] ∧
        Fills Token.Shows tokens statement.params.toList filled := by
  have hbuild : (Description.insert hostileRow).build =
      .ok ⟨"INSERT INTO blog (id, title, draft, rank)\nVALUES (?, ?, ?, ?)",
        #[.integer (-7), .text "it's --?\n');", .bool true, .null]⟩ := rfl
  have hnames : ∀ name ∈ (Description.insert hostileRow).names, isIdentifier name := by decide
  have hparams : ∀ v ∈ #[Value.integer (-7), .text "it's --?\n');", .bool true, .null],
      ∀ x, v ≠ .real x := by simp
  obtain ⟨text, tokens, filled, hinline, htokens, hfilled, hfills, -⟩ :=
    inlined_tokens (.build hbuild) hnames hparams
  obtain rfl : "INSERT INTO blog (id, title, draft, rank)\n" ++
      "VALUES (-7, 'it''s --?\n'');', true, NULL)" = text :=
    Option.some.inj (Eq.trans (by decide +kernel) hinline)
  refine ⟨_, hbuild, hnames, hparams, hinline, tokens, filled, htokens, ?_, hfills⟩
  have hdrop := congrArg (Option.map (List.drop 13)) hfilled
  exact Option.some.inj (hdrop.symm.trans (by decide +kernel))

end BoundSql
