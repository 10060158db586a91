import BoundSql.Schema.Basic
import Mathlib.Tactic.Lemma

/-!
# Tokens of SQL text

How a reader of SQL splits a text into tokens. The reader takes the longest token it can, so two
texts that stand side by side are split at the seam only if the second one begins with a character
that no token takes as its continuation.

## Main definitions

* `BoundSql.Sql.Token` — words, numbers, quoted names and texts, and symbols.
* `BoundSql.Sql.Scan` — the token that is being read, with the rules that extend and finish it.
* `BoundSql.Sql.lex` — the tokens of a text.
* `BoundSql.Sql.breaks` — a text that ends whatever token stands in front of it.

## Main results

* `BoundSql.Sql.lex_append` — texts with a break between them are split one by one.
* `BoundSql.Sql.lex_identifier` — an identifier is one word.
-/

namespace BoundSql

namespace Sql

/-! ## Tokens -/

/-- The two kinds of quoted tokens. -/
inductive Quote where
  /-- A name in double quotes. -/
  | name
  /-- A text in single quotes. -/
  | text
deriving DecidableEq, Repr

/-- The character that opens and closes a quoted token. -/
def Quote.mark : Quote → Char
  | name => '"'
  | text => '\''

/-- A token of SQL text. -/
inductive Token where
  /-- A keyword or a name without quotes. -/
  | word (text : String)
  /-- A whole number with its sign. -/
  | integer (value : Int)
  /-- A name or a text in quotes, without the quotes. -/
  | quoted (quote : Quote) (content : String)
  /-- An operator, a punctuation mark or a placeholder. -/
  | symbol (text : String)
deriving DecidableEq, Repr

/-- The placeholder of a value. -/
def Token.placeholder : Token := symbol "?"

/-- The characters that begin a word. -/
def isWordStart (c : Char) : Bool := c.isAlpha || c = '_'

/-- The characters that continue a word. -/
def isWordPart (c : Char) : Bool := c.isAlphanum || c = '_'

/-- The symbols that stand alone, whatever follows. -/
def loneSymbols : List Char := ['?', '=', '(', ')', ',', '.', '*']

/-- The characters that are symbols of their own unless what follows continues them. -/
def openSymbols : List Char := ['<', '>', '-']

/-- The symbols of two characters. -/
def longSymbols : List (List Char) := [['<', '='], ['<', '>'], ['>', '=']]

/-! ## Reading -/

/-- What has been read of the token that is being read. -/
inductive Scan where
  /-- No token is being read. -/
  | blank
  /-- A word. -/
  | word (read : List Char)
  /-- A number. -/
  | integer (isNegative : Bool) (digits : List Char)
  /-- A quoted token whose closing mark has not been met. -/
  | quoted (quote : Quote) (read : List Char)
  /-- A quoted token behind a mark: the closing one, or the first one of a doubled one. -/
  | closed (quote : Quote) (read : List Char)
  /-- A symbol. -/
  | symbol (read : List Char)
deriving DecidableEq

namespace Scan

/-- The token goes on with the character, if it can. -/
def extend? : Scan → Char → Option Scan
  | blank, _ => none
  | word read, c => if isWordPart c then some (word (read ++ [c])) else none
  | integer isNegative digits, c =>
    if c.isDigit then some (integer isNegative (digits ++ [c])) else none
  | quoted quote read, c =>
    some (if c = quote.mark then closed quote read else quoted quote (read ++ [c]))
  | closed quote read, c => if c = quote.mark then some (quoted quote (read ++ [c])) else none
  | symbol read, c =>
    if read ++ [c] ∈ longSymbols then some (symbol (read ++ [c]))
    else if read = ['-'] ∧ c.isDigit then some (integer true [c])
    else none

/-- The token that has been read, unless a closing mark is missing. -/
def finish? : Scan → Option (List Token)
  | blank => some []
  | word read => some [.word (String.ofList read)]
  | integer isNegative digits =>
    let value : Int := Nat.ofDigitChars 10 digits 0
    some [.integer (if isNegative then -value else value)]
  | quoted _ _ => none
  | closed quote read => some [.quoted quote (String.ofList read)]
  | symbol read => some [.symbol (String.ofList read)]

/-- What is being read behind the first character of a token. -/
def begin? (c : Char) : Option Scan :=
  if c = ' ' ∨ c = '\n' then some blank
  else if isWordStart c then some (word [c])
  else if c.isDigit then some (integer false [c])
  else if c = Quote.name.mark then some (quoted .name [])
  else if c = Quote.text.mark then some (quoted .text [])
  else if c ∈ loneSymbols ∨ c ∈ openSymbols then some (symbol [c])
  else none

/-- The tokens of a text, the first one of which is being read already. -/
def tokens? (scan : Scan) : List Char → Option (List Token)
  | [] => scan.finish?
  | c :: rest =>
    match scan.extend? c with
    | some next => tokens? next rest
    | none => do
      let done ← scan.finish?
      let next ← begin? c
      let others ← tokens? next rest
      return done ++ others

end Scan

/-- The tokens of a text. -/
def lex (text : String) : Option (List Token) := Scan.blank.tokens? text.toList

/-! ## Breaks between tokens -/

/-- The characters that continue no token but a quoted one. -/
def isBreak (c : Char) : Bool :=
  !isWordPart c && c ≠ '=' && c ≠ '>' && c ≠ Quote.name.mark && c ≠ Quote.text.mark

/-- A text that ends whatever token stands in front of it. -/
def breaks (text : String) : Bool := text.toList.head?.all isBreak

namespace Scan

/-- A break does not continue a token that may end. -/
lemma extend?_of_isBreak {scan : Scan} {done : List Token} {c : Char}
    (hscan : scan.finish? = some done) (hc : isBreak c) : scan.extend? c = none := by
  simp only [isBreak, Bool.and_eq_true, Bool.not_eq_true', decide_eq_true_eq, ne_eq] at hc
  obtain ⟨⟨⟨⟨hword, heq⟩, hgreater⟩, hname⟩, htext⟩ := hc
  have hdigit : c.isDigit = false := by
    simp only [isWordPart, Char.isAlphanum, Bool.or_eq_false_iff] at hword
    exact hword.1.2
  cases scan with
  | blank => rfl
  | word read => simp [extend?, hword]
  | integer isNegative digits => simp [extend?, hdigit]
  | quoted quote read => simp [finish?] at hscan
  | closed quote read => cases quote <;> simp [extend?, hname, htext]
  | symbol read =>
    have hlong : read ++ [c] ∉ longSymbols := by
      intro hmem
      have hlast : ∀ long ∈ longSymbols, long.getLast? = some '=' ∨ long.getLast? = some '>' := by
        decide
      simpa [heq, hgreater] using hlast _ hmem
    simp [extend?, hlong, hdigit]

/-- Between tokens a character begins the next one. -/
lemma tokens?_blank_cons {c : Char} {next : Scan} (hc : begin? c = some next) (rest : List Char) :
    blank.tokens? (c :: rest) = next.tokens? rest := by
  rw [tokens?]
  cases htokens : next.tokens? rest <;> simp [extend?, finish?, hc, htokens]

/-- What follows a finished token is split on its own. -/
lemma tokens?_of_extend?_eq_none {scan : Scan} {done : List Token} {rest : List Char}
    (hscan : scan.finish? = some done) (hrest : ∀ c ∈ rest.head?, scan.extend? c = none) :
    scan.tokens? rest = (blank.tokens? rest).map (done ++ ·) := by
  cases rest with
  | nil =>
    rw [tokens?, hscan]
    simp [tokens?, finish?]
  | cons c rest =>
    have hc : scan.extend? c = none := hrest c rfl
    have hblank : blank.extend? c = none := rfl
    rw [tokens?, tokens?, hc, hblank, hscan]
    cases hbegin : begin? c with
    | none => rfl
    | some next => cases htokens : next.tokens? rest <;> simp [finish?, htokens]

/-- **A text in front of a break** is split on its own.

**Proof sketch.** Induction on the text. Only at its end does the break matter: there the token that
is being read may end, and so the break does not continue it. -/
lemma tokens?_append {scan : Scan} {done : List Token} {front rest : List Char}
    (hfront : scan.tokens? front = some done) (hrest : ∀ c ∈ rest.head?, isBreak c) :
    scan.tokens? (front ++ rest) = (blank.tokens? rest).map (done ++ ·) := by
  induction front generalizing scan done with
  | nil =>
    apply tokens?_of_extend?_eq_none hfront
    intro c hc
    exact extend?_of_isBreak hfront (hrest c hc)
  | cons c front ih =>
    rw [List.cons_append, tokens?]
    rw [tokens?] at hfront
    cases hnext : scan.extend? c with
    | some next =>
      simp only [hnext] at hfront ⊢
      exact ih hfront
    | none =>
      simp only [hnext, Option.bind_eq_bind, Option.bind_eq_some_iff, Option.pure_def,
        Option.some.injEq] at hfront
      obtain ⟨before, hbefore, next, hbegin, others, hothers, rfl⟩ := hfront
      rw [hbefore, hbegin]
      cases hrest' : blank.tokens? rest <;> simp [ih hothers, hrest']

end Scan

/-- **Texts with a break between them** are split one by one. -/
theorem lex_append {a b : String} {x : List Token} (ha : lex a = some x) (hb : breaks b) :
    lex (a ++ b) = (lex b).map (x ++ ·) := by
  rw [lex, String.toList_append]
  exact Scan.tokens?_append ha ((Option.all_eq_true _ _).1 hb)

example : lex "t1.rank<=? AND NOT 'it''s' = -7" = some
    [.word "t1", .symbol ".", .word "rank", .symbol "<=", .placeholder, .word "AND", .word "NOT",
      .quoted .text "it's", .symbol "=", .integer (-7)] := by decide +kernel

/-- A blank stands between tokens and is none itself. -/
lemma lex_blank_append (b : String) : lex (" " ++ b) = lex b := by
  rw [lex, String.toList_append]
  exact Scan.tokens?_blank_cons rfl b.toList

/-- A symbol that stands alone is a token, whatever follows. -/
lemma lex_symbol_append {c : Char} {symbol : String} (hsymbol : symbol.toList = [c])
    (hc : c ∈ loneSymbols) (b : String) :
    lex (symbol ++ b) = (lex b).map (.symbol symbol :: ·) := by
  have hbegin : Scan.begin? c = some (.symbol [c]) := by
    have hall : loneSymbols.all fun c => Scan.begin? c = some (.symbol [c]) := by decide
    simpa using List.all_eq_true.1 hall c hc
  have halone : ∀ d, (Scan.symbol [c]).extend? d = none := by
    intro d
    have hall : loneSymbols.all fun c =>
        c ≠ '-' && longSymbols.all fun long => long.head? ≠ some c := by decide
    have hnew : c ≠ '-' ∧ ∀ long ∈ longSymbols, long.head? ≠ some c := by
      simpa using List.all_eq_true.1 hall c hc
    obtain ⟨hminus, hlong⟩ := hnew
    have hd : [c] ++ [d] ∉ longSymbols := by
      intro hmem
      exact hlong _ hmem rfl
    simp only [Scan.extend?, hd, hminus, if_false, List.cons.injEq, false_and]
  have hrest : (Scan.symbol [c]).tokens? b.toList =
      (Scan.blank.tokens? b.toList).map ([.symbol (String.ofList [c])] ++ ·) := by
    apply Scan.tokens?_of_extend?_eq_none rfl
    intro d _
    exact halone d
  rw [lex, String.toList_append, hsymbol, List.singleton_append,
    Scan.tokens?_blank_cons hbegin, hrest, ← hsymbol, String.ofList_toList]
  rfl

/-! ## Words -/

/-- The characters of a word are read one after the other. -/
lemma Scan.tokens?_word (read rest : List Char) (h : rest.all isWordPart) :
    (Scan.word read).tokens? rest = some [.word (String.ofList (read ++ rest))] := by
  induction rest generalizing read with
  | nil => rw [List.append_nil]; rfl
  | cons c rest ih =>
    obtain ⟨hc, hrest⟩ : isWordPart c ∧ rest.all isWordPart := by simpa using h
    have happend : read ++ c :: rest = (read ++ [c]) ++ rest := by simp
    rw [tokens?, extend?, if_pos hc, happend]
    exact ih (read ++ [c]) hrest

/-- **An identifier** is one word. -/
theorem lex_identifier {name : String} (h : isIdentifier name) : lex name = some [.word name] := by
  rw [isIdentifier] at h
  split at h
  · exact absurd h Bool.false_ne_true
  · next c rest hname =>
    obtain ⟨hstart, hrest⟩ : isWordStart c ∧ rest.all isWordPart := by
      simpa [isWordStart, isWordPart] using h
    have hblank : ¬ (c = ' ' ∨ c = '\n') := by
      rintro (rfl | rfl)
      all_goals exact absurd hstart (by decide)
    have hbegin : Scan.begin? c = some (.word [c]) := by
      rw [Scan.begin?, if_neg hblank, if_pos hstart]
    rw [lex, hname, Scan.tokens?_blank_cons hbegin, Scan.tokens?_word [c] rest hrest,
      List.singleton_append, ← hname, String.ofList_toList]

/-- The alias of a table is an identifier. -/
lemma isIdentifier_tableAlias (index : Nat) : isIdentifier (tableAlias index) := by
  have hchars : (tableAlias index).toList = 't' :: Nat.toDigits 10 (index + 1) := by
    rw [tableAlias]
    exact (String.toList_append).trans (congrArg ('t' :: ·) Nat.toList_repr)
  rw [isIdentifier, hchars]
  simp only [Bool.and_eq_true, List.all_eq_true]
  refine ⟨by decide, ?_⟩
  intro c hc
  have hdigit : c.isDigit := Nat.isDigit_of_mem_toDigits (by decide) (by decide) hc
  simp [Char.isAlphanum, hdigit]

/-- Two tables have two aliases. -/
lemma tableAlias_injective {i j : Nat} (h : tableAlias i = tableAlias j) : i = j := by
  have hdigits : Nat.toDigits 10 (i + 1) = Nat.toDigits 10 (j + 1) := by
    have hchars := congrArg String.toList h
    simpa [tableAlias, Nat.toList_repr] using hchars
  have hvalue := congrArg (Nat.ofDigitChars 10 · 0) hdigits
  simpa [Nat.ofDigitChars_ten_toDigits] using hvalue

/-! ## Texts put together -/

/-- A text that is split into the given tokens. -/
def Lexes (text : String) (tokens : List Token) : Prop := lex text = some tokens

/-- A question mark is a placeholder. -/
lemma lexes_placeholder : Lexes "?" [.placeholder] := rfl

namespace Lexes

variable {a b : String} {x y : List Token}

/-- Texts with a break between them have the tokens of both. -/
lemma append (ha : Lexes a x) (hbreaks : breaks b) (hb : Lexes b y) : Lexes (a ++ b) (x ++ y) := by
  rw [Lexes, lex_append ha hbreaks, hb]
  rfl

/-- Texts with a blank between them have the tokens of both. -/
lemma spaced (ha : Lexes a x) (hb : Lexes b y) : Lexes (a ++ " " ++ b) (x ++ y) := by
  rw [String.append_assoc]
  refine ha.append ?_ ((lex_blank_append b).trans hb)
  rw [breaks, String.toList_append]
  rfl

/-- Texts with a dot between them. -/
lemma dotted (ha : Lexes a x) (hb : Lexes b y) :
    Lexes (a ++ "." ++ b) (x ++ .symbol "." :: y) := by
  have hdot : Lexes ("." ++ b) (.symbol "." :: y) := by
    rw [Lexes, lex_symbol_append rfl (by decide), hb]
    rfl
  rw [String.append_assoc]
  refine ha.append ?_ hdot
  rw [breaks, String.toList_append]
  rfl

/-- A text in parentheses. -/
lemma enclosed (ha : Lexes a x) :
    Lexes ("(" ++ a ++ ")") (.symbol "(" :: (x ++ [.symbol ")"])) := by
  have hclose : Lexes (a ++ ")") (x ++ [.symbol ")"]) := ha.append (by decide) rfl
  rw [String.append_assoc, Lexes, lex_symbol_append rfl (by decide), hclose]
  rfl

/-- Texts with a word between each two of them. -/
lemma intercalate {α : Type} {word : String} (hword : isIdentifier word) {text : α → String}
    {tokens : α → List Token} {l : List α} (h : ∀ m ∈ l, Lexes (text m) (tokens m)) :
    Lexes (String.intercalate (" " ++ word ++ " ") (l.map text))
      ([.word word].intercalate (l.map tokens)) := by
  match l with
  | [] => exact rfl
  | [m] => simpa using h m List.mem_cons_self
  | m :: n :: rest =>
    rw [List.forall_mem_cons] at h
    obtain ⟨hm, hothers⟩ := h
    have hrest := intercalate hword hothers
    simp only [List.map_cons] at hrest ⊢
    rw [String.intercalate_cons_cons, List.intercalate_cons_cons]
    have hspaced := (hm.spaced (lex_identifier hword)).spaced hrest
    simpa [String.append_assoc] using hspaced

end Lexes

end Sql

end BoundSql
