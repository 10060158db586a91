import BoundSql.Proofs.Expr.Mapping
import BoundSql.Proofs.Statement.Tokens

/-!
# Select lists

How the list behind `SELECT` is read when it was written for a mapping of output keys. A key may be
any text; it stands between double quotes, and a quote inside it is written twice. So a reader of
SQL meets one item for each leaf, with the key as one token, and what it reads outside of quotes
does not depend on the keys at all.

## Main definitions

* `BoundSql.Sql.items` — the items of a list of tokens.
* `BoundSql.Sql.outside` — a text without its names in double quotes.

## Main results

* `BoundSql.Sql.items_commaTokens` — a list that was put together is taken apart again.
* `BoundSql.Sql.insideChars_double` — a name in double quotes ends at its closing quote.
* `BoundSql.ProjectionMap.compile_reads` — the select list of a mapping has one item for each leaf.
-/

namespace BoundSql

namespace Sql

/-! ## Items -/

/-- The items of a list: its tokens split at the commas. Without tokens there are no items. -/
def items (tokens : List Token) : List (List Token) :=
  if tokens.isEmpty then [] else tokens.splitOn (.symbol ",")

/-- **A list** is split into the items that it was put together from, if no item is empty or holds
a comma itself. -/
theorem items_commaTokens {parts : List (List Token)}
    (h : ∀ part ∈ parts, part ≠ [] ∧ .symbol "," ∉ part) : items (commaTokens parts) = parts := by
  cases parts with
  | nil => rfl
  | cons part rest =>
    have hpart : part ≠ [] := (h part List.mem_cons_self).1
    have hsome : (commaTokens (part :: rest)).isEmpty = false := by
      rw [commaTokens_cons]
      simp [hpart]
    rw [items, hsome]
    exact List.splitOn_intercalate _ (fun part hmem => (h part hmem).2) (List.cons_ne_nil _ _)

/-! ## Outside of quotes -/

mutual

/-- What stands outside of names in double quotes, where the text begins outside. -/
def outsideChars : List Char → List Char
  | [] => []
  | c :: rest => if c = '"' then insideChars rest else c :: outsideChars rest

/-- What stands outside of names in double quotes, where the text begins inside of one. The name
ends at the first quote that no second one follows. -/
def insideChars : List Char → List Char
  | [] => []
  | [_] => []
  | c :: d :: rest =>
    if c = '"' then if d = '"' then insideChars rest else outsideChars (d :: rest)
    else insideChars (d :: rest)

end

/-- A text without its names in double quotes. -/
def outside (text : String) : String := String.ofList (outsideChars text.toList)

/-- Characters in front of the first quote stand outside. -/
lemma outsideChars_append {front : List Char} (h : '"' ∉ front) (rest : List Char) :
    outsideChars (front ++ rest) = front ++ outsideChars rest := by
  induction front with
  | nil => rfl
  | cons c front ih =>
    rw [List.mem_cons, not_or] at h
    obtain ⟨hc, hfront⟩ := h
    rw [List.cons_append, outsideChars, if_neg (Ne.symm hc), ih hfront, List.cons_append]

/-- Inside a name, other characters than quotes are passed over. -/
lemma insideChars_cons_of_ne {c : Char} (hc : c ≠ '"') (rest : List Char) :
    insideChars (c :: rest) = insideChars rest := by
  cases rest with
  | nil => rfl
  | cons d rest => rw [insideChars, if_neg hc]

/-- **A name in double quotes** ends at its closing quote, whatever it holds: the quotes inside come
in pairs, and none of these pairs takes part of the closing quote. -/
theorem insideChars_double (content : List Char) {rest : List Char}
    (hrest : rest.head? ≠ some '"') :
    insideChars (Text.double '"' content ++ '"' :: rest) = outsideChars rest := by
  induction content with
  | nil =>
    cases rest with
    | nil => rfl
    | cons d rest =>
      have hd : d ≠ '"' := by
        rintro rfl
        exact hrest rfl
      rw [Text.double, List.nil_append, insideChars, if_pos rfl, if_neg hd]
  | cons c content ih =>
    rw [Text.double]
    split
    · next hc =>
      rw [List.cons_append, List.cons_append, insideChars, if_pos rfl, if_pos rfl]
      exact ih
    · next hc =>
      rw [List.cons_append, insideChars_cons_of_ne hc]
      exact ih

/-- A name in double quotes leaves nothing outside. -/
lemma outsideChars_doubled (content : String) {rest : List Char} (hrest : rest.head? ≠ some '"') :
    outsideChars ((Text.doubled '"' content).toList ++ rest) = outsideChars rest := by
  rw [Text.doubled, String.toList_ofList, List.cons_append, List.cons_append, outsideChars,
    if_pos rfl, List.append_assoc]
  exact insideChars_double content.toList hrest

/-- A text without quotes stays outside, and the quoted name behind it does not. -/
lemma outsideChars_named {front : String} (hfront : '"' ∉ front.toList) (name : String)
    {rest : List Char} (hrest : rest.head? ≠ some '"') :
    outsideChars ((front ++ Text.doubled '"' name).toList ++ rest) =
      front.toList ++ outsideChars rest := by
  rw [String.toList_append, List.append_assoc, outsideChars_append hfront,
    outsideChars_doubled name hrest]

/-- The characters of a list, the first member of which is followed by another one. -/
lemma toList_commaList_cons_cons (first second : String) (rest : List String) :
    (commaList (first :: second :: rest)).toList =
      first.toList ++ ([',', ' '] ++ (commaList (second :: rest)).toList) := by
  rw [commaList, String.intercalate_cons_cons, String.toList_append, String.toList_append,
    List.append_assoc]
  rfl

/-- The characters of a list outside of the quoted names in it. -/
lemma outsideChars_commaList {α : Type} {front : α → String} (name : α → String) {l : List α}
    (h : ∀ x ∈ l, '"' ∉ (front x).toList) :
    outsideChars (commaList (l.map fun x => front x ++ Text.doubled '"' (name x))).toList =
      (commaList (l.map front)).toList := by
  match l with
  | [] => rfl
  | [x] =>
    have hend : ([] : List Char).head? ≠ some '"' := by simp
    have hx := outsideChars_named (h x List.mem_cons_self) (name x) hend
    simpa [commaList, outsideChars] using hx
  | x :: y :: rest =>
    rw [List.forall_mem_cons] at h
    obtain ⟨hx, hothers⟩ := h
    have hrest := outsideChars_commaList name hothers
    simp only [List.map_cons] at hrest ⊢
    rw [toList_commaList_cons_cons, toList_commaList_cons_cons,
      outsideChars_named hx (name x) (by simp), outsideChars_append (by decide), hrest]

/-- **A list of quoted names**, each with a text without quotes in front of it, keeps nothing but
these texts outside of quotes. -/
theorem outside_commaList {α : Type} {front name : α → String} {l : List α}
    (h : ∀ x ∈ l, '"' ∉ (front x).toList) :
    outside (commaList (l.map fun x => front x ++ Text.doubled '"' (name x))) =
      commaList (l.map front) := by
  rw [outside, outsideChars_commaList name h, String.ofList_toList]

/-- A character of a list belongs to what stands between its members, or to a member. -/
lemma mem_commaList {texts : List String} {c : Char} (h : c ∈ (commaList texts).toList) :
    c ∈ [',', ' '] ∨ ∃ text ∈ texts, c ∈ text.toList := by
  match texts with
  | [] => cases h
  | [text] => exact .inr ⟨text, List.mem_cons_self, by simpa [commaList] using h⟩
  | text :: next :: rest =>
    rw [toList_commaList_cons_cons, List.mem_append, List.mem_append] at h
    rcases h with htext | hseam | hrest
    · exact .inr ⟨text, List.mem_cons_self, htext⟩
    · exact .inl hseam
    · rcases mem_commaList hrest with hseam | ⟨other, hother, hmem⟩
      · exact .inl hseam
      · exact .inr ⟨other, List.mem_cons_of_mem _ hother, hmem⟩

/-- The characters of an identifier are letters, digits and underscores. -/
lemma isWordPart_of_isIdentifier {name : String} (h : isIdentifier name) :
    ∀ c ∈ name.toList, isWordPart c := by
  rw [isIdentifier] at h
  split at h
  · exact absurd h Bool.false_ne_true
  · next first rest hname =>
    rw [hname]
    simp only [Bool.and_eq_true, List.all_eq_true] at h
    obtain ⟨hfirst, hrest⟩ := h
    intro c hc
    rcases List.mem_cons.1 hc with rfl | hmem
    · simp only [Bool.or_eq_true, decide_eq_true_eq] at hfirst
      rcases hfirst with halpha | rfl
      · simp [isWordPart, Char.isAlphanum, halpha]
      · rfl
    · exact hrest c hmem

end Sql

/-! ## The list of a mapping -/

open Sql (Token commaTokens isWordPart isWordPart_of_isIdentifier isIdentifier_tableAlias)

/-- The characters of a column are those of identifiers, and a dot. -/
lemma ColumnRef.mem_text {ctx : Context} {column : ColumnRef} (hname : isIdentifier column.name)
    {c : Char} (hc : c ∈ (column.text ctx).toList) : isWordPart c ∨ c = '.' := by
  unfold ColumnRef.text at hc
  split at hc
  · simp only [String.toList_append, List.mem_append] at hc
    rcases hc with (halias | hdot) | hcolumn
    · exact .inl (isWordPart_of_isIdentifier (isIdentifier_tableAlias _) c halias)
    · exact .inr (List.mem_singleton.1 hdot)
    · exact .inl (isWordPart_of_isIdentifier hname c hcolumn)
  · exact .inl (isWordPart_of_isIdentifier hname c hc)

/-- A column is no empty list of tokens, and there is no comma in it. -/
lemma Selection.leafTokens_isItem (ctx : Context) (leaf : ColumnRef × String) :
    leafTokens ctx leaf ≠ [] ∧ .symbol "," ∉ leafTokens ctx leaf := by
  unfold leafTokens ColumnRef.tokens
  split <;> simp

/-- The last key of the path to a leaf labels it. -/
lemma ProjectionMap.getLast?_path {map : ProjectionMap} {leaf : FlatColumn}
    (h : leaf ∈ map.flatten) : leaf.path.getLast? = some leaf.label := by
  obtain ⟨key, -, path, hpath⟩ := exists_of_mem_entryLeaves (mem_flatten.1 h)
  have hpath' : leaf.path = key :: path := hpath
  rw [FlatColumn.label, hpath', List.getLast?_cons]
  rfl

namespace ProjectionMap

section Reading

variable {map : ProjectionMap} {ctx : Context}
  (hnames : ∀ leaf ∈ map.flatten, isIdentifier leaf.column.name)

include hnames

/-- The select list of a mapping is split leaf by leaf. -/
lemma items_text : (Sql.lex (map.text ctx)).map Sql.items = some (map.flatten.map fun leaf =>
    leaf.column.tokens ctx ++ [.word "AS", .quoted .name leaf.label]) := by
  have hleaf : ∀ leaf ∈ map.flatten, Sql.Lexes (leaf.text ctx)
      (leaf.column.tokens ctx ++ [.word "AS", .quoted .name leaf.label]) := by
    intro leaf hleaf
    have hpair : Sql.Lexes (Selection.leafText ctx (leaf.column, leaf.label)) _ :=
      Selection.leafText_lexes ctx (hnames leaf hleaf)
    exact hpair
  have htext : Sql.lex (map.text ctx) = some (commaTokens (map.flatten.map fun leaf =>
      leaf.column.tokens ctx ++ [.word "AS", .quoted .name leaf.label])) :=
    Sql.Lexes.commaList hleaf
  rw [htext, Option.map_some, Sql.items_commaTokens]
  intro part hpart
  obtain ⟨leaf, -, rfl⟩ := List.mem_map.1 hpart
  exact Selection.leafTokens_isItem ctx (leaf.column, leaf.label)

/-- Outside of quoted names the select list of a mapping has its columns. -/
lemma outside_text : Sql.outside (map.text ctx) =
    commaList (map.flatten.map fun leaf => leaf.column.text ctx ++ " AS ") := by
  apply Sql.outside_commaList
  intro leaf hleaf hquote
  rw [String.toList_append, List.mem_append] at hquote
  rcases hquote with hcolumn | has
  · rcases ColumnRef.mem_text (hnames leaf hleaf) hcolumn with hword | hdot
    · exact absurd hword (by decide)
    · exact absurd hdot (by decide)
  · exact absurd has (by decide)

/-- There are no other marks than dots and commas outside of quoted names. -/
lemma mem_outside_text {c : Char} (hc : c ∈ (Sql.outside (map.text ctx)).toList) :
    isWordPart c ∨ c ∈ ['.', ',', ' '] := by
  rw [outside_text hnames] at hc
  rcases Sql.mem_commaList hc with hseam | ⟨part, hpart, hmem⟩
  · exact .inr (List.mem_cons_of_mem _ hseam)
  · obtain ⟨leaf, hleaf, rfl⟩ := List.mem_map.1 hpart
    rw [String.toList_append, List.mem_append] at hmem
    rcases hmem with hcolumn | has
    · rcases ColumnRef.mem_text (hnames leaf hleaf) hcolumn with hword | rfl
      · exact .inl hword
      · exact .inr (by decide)
    · have hall : " AS ".toList.all (fun d => isWordPart d ∨ d ∈ ['.', ',', ' ']) = true := by
        decide
      exact of_decide_eq_true (List.all_eq_true.1 hall c has)

end Reading

/-- **The select list of a mapping** has one item for each leaf. If the names of the columns are
identifiers and the mapping compiles, then a reader of SQL splits the list at its commas into one
item for each leaf, in order: the tokens of the column as it is written on its own, the word `AS`
and a quoted name that holds the last key of the leaf. Outside of quoted names it reads nothing but
the columns, the word `AS`, commas, dots and blanks, whatever the keys are: what stands there is
written without looking at a key.

**Proof sketch.** Each leaf is split into its tokens (`leafText_lexes`), because a key between
quotes is one token (`lexes_doubled`), and the commas between the leaves are the only ones that are
tokens. A quote in a key is written twice, so it never takes part of the closing quote
(`insideChars_double`). -/
theorem compile_reads {map : ProjectionMap} {ctx : Context} {params after : Array Value}
    {text : String} (hnames : ∀ leaf ∈ map.flatten, isIdentifier leaf.column.name)
    (h : (map.compile ctx).run params = .ok text after) :
    (Sql.lex text).map Sql.items = some (map.flatten.map fun leaf =>
        leaf.column.tokens ctx ++ [.word "AS", .quoted .name leaf.label]) ∧
      (∀ leaf ∈ map.flatten, leaf.path.getLast? = some leaf.label ∧
        (leaf.column.compile ctx).run params = .ok (leaf.column.text ctx) params ∧
        Sql.lex (leaf.column.text ctx) = some (leaf.column.tokens ctx)) ∧
      Sql.outside text =
        commaList (map.flatten.map fun leaf => leaf.column.text ctx ++ " AS ") ∧
      ∀ c ∈ (Sql.outside text).toList, isWordPart c ∨ c ∈ ['.', ',', ' '] := by
  obtain ⟨hfault, rfl, -⟩ := (map.compile_visits ctx).eq_of_run_eq_ok h
  refine ⟨items_text hnames, ?_, outside_text hnames, fun c => mem_outside_text hnames⟩
  intro leaf hleaf
  have hsites : Site.fault? (leaf.sites ctx) = none :=
    Site.fault?_flatMap_eq_none.1 hfault leaf hleaf
  have hcolumn : Site.fault? (leaf.column.sites ctx) = none :=
    (Site.fault?_append_eq_none.1 hsites).1
  refine ⟨getLast?_path hleaf, ?_, leaf.column.text_lexes ctx (hnames leaf hleaf)⟩
  rw [leaf.column.compile_visits ctx params, Compile.outcome_of_fault?_eq_none _ hcolumn,
    ColumnRef.values_sites]
  simp

/-- A mapping with keys that try to leave their quotes. -/
def hostile : ProjectionMap :=
  (ProjectionMap.empty.column "\"\", t1.secret AS \"x" ⟨0, "id"⟩).nested "author"
    (.ofList [("\" --\n'\"", ⟨1, "name"⟩)])

/-- The keys of this mapping stay inside their quotes. -/
theorem compile_reads_hostile :
    (hostile.compile (.qualified 2)).run #[] =
        .ok "t1.id AS \"\"\"\"\", t1.secret AS \"\"x\", t2.name AS \"\"\" --\n'\"\"\"" #[] ∧
      (Sql.lex "t1.id AS \"\"\"\"\", t1.secret AS \"\"x\", t2.name AS \"\"\" --\n'\"\"\"").map Sql.items =
        some [[.word "t1", .symbol ".", .word "id", .word "AS",
            .quoted .name "\"\", t1.secret AS \"x"],
          [.word "t2", .symbol ".", .word "name", .word "AS", .quoted .name "\" --\n'\""]] := by
  have hcompile : (hostile.compile (.qualified 2)).run #[] =
      .ok "t1.id AS \"\"\"\"\", t1.secret AS \"\"x\", t2.name AS \"\"\" --\n'\"\"\"" #[] := rfl
  have hnames : ∀ leaf ∈ hostile.flatten, isIdentifier leaf.column.name := by decide +kernel
  exact ⟨hcompile, (compile_reads hnames hcompile).1⟩

end ProjectionMap

end BoundSql
