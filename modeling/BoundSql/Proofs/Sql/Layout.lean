import BoundSql.Expr.Compile
import BoundSql.Proofs.Sql.Token
import BoundSql.Text.Doubled
import Mathlib.Data.List.Basic

/-!
# Numbers, quoted names, lists and lines

Tokens of the larger parts of a statement. A number is one token, and so is a text between quotes,
whatever it holds: a quote inside is written twice, so none of them ends the token. Texts that are
put together with commas or line ends between them are split one by one.

## Main definitions

* `BoundSql.Sql.commaTokens` — tokens with commas between them.

## Main results

* `BoundSql.Sql.lexes_doubled` — a text between quotes is one token.
* `BoundSql.Sql.lexes_number`, `BoundSql.Sql.lexes_integer` — a number is one token.
* `BoundSql.Sql.Lexes.commaList`, `BoundSql.Sql.Lexes.lines` — lists and lines are split one by one.
-/

namespace BoundSql

namespace Sql

/-! ## Quoted names and texts -/

/-- What stands between the quotes is read character by character, a doubled quote as one. -/
lemma Scan.tokens?_double (quote : Quote) (read content : List Char) :
    (Scan.quoted quote read).tokens? (Text.double quote.mark content ++ [quote.mark]) =
      some [.quoted quote (String.ofList (read ++ content))] := by
  induction content generalizing read with
  | nil => simp [Text.double, tokens?, extend?, finish?]
  | cons c rest ih =>
    have happend : read ++ c :: rest = (read ++ [c]) ++ rest := by simp
    rw [Text.double]
    split
    · next hc =>
      -- The first quote seems to close the token, and the second one opens it again.
      subst hc
      simp only [List.cons_append, tokens?, extend?, if_true, happend]
      exact ih (read ++ [quote.mark])
    · next hc =>
      rw [List.cons_append, tokens?, extend?, if_neg hc, happend]
      exact ih (read ++ [c])

/-- **A text between quotes** is one token that holds the text, whatever the text is. -/
theorem lexes_doubled (quote : Quote) (text : String) :
    Lexes (Text.doubled quote.mark text) [.quoted quote text] := by
  have hbegin : Scan.begin? quote.mark = some (.quoted quote []) := by
    cases quote <;> rfl
  rw [Lexes, lex, Text.doubled, String.toList_ofList, List.cons_append,
    Scan.tokens?_blank_cons hbegin, Scan.tokens?_double, List.nil_append, String.ofList_toList]

example : Lexes (Text.doubled '"' "a\" AS \"b\nFROM c") [.quoted .name "a\" AS \"b\nFROM c"] :=
  rfl

/-! ## Numbers -/

/-- The digits of a number are read one after the other. -/
lemma Scan.tokens?_digits (isNegative : Bool) (read rest : List Char) (h : ∀ c ∈ rest, c.isDigit) :
    (Scan.integer isNegative read).tokens? rest =
      (Scan.integer isNegative (read ++ rest)).finish? := by
  induction rest generalizing read with
  | nil => rw [tokens?, List.append_nil]
  | cons c rest ih =>
    rw [List.forall_mem_cons] at h
    obtain ⟨hc, hrest⟩ := h
    have happend : read ++ c :: rest = (read ++ [c]) ++ rest := by simp
    rw [tokens?, extend?, if_pos hc, happend]
    exact ih (read ++ [c]) hrest

/-- A digit begins a number. -/
lemma Scan.begin?_digit {c : Char} (hc : c.isDigit) : begin? c = some (.integer false [c]) := by
  have hblank : ¬ (c = ' ' ∨ c = '\n') := by
    rintro (rfl | rfl)
    all_goals exact absurd hc (by decide)
  have hword : ¬ isWordStart c := by
    simp only [Char.isDigit, Bool.and_eq_true, decide_eq_true_eq] at hc
    delta isWordStart Char.isAlpha Char.isUpper Char.isLower
    simp only [Bool.or_eq_true, Bool.and_eq_true, decide_eq_true_eq]
    rintro ((⟨h, -⟩ | ⟨h, -⟩) | rfl)
    all_goals grind
  rw [begin?, if_neg hblank, if_neg hword, if_pos hc]

/-- A number begins with a digit, and has digits only. -/
lemma exists_isDigit_cons (n : Nat) :
    ∃ first rest, Nat.toDigits 10 n = first :: rest ∧ first.isDigit ∧ ∀ c ∈ rest, c.isDigit := by
  have hdigits : ∀ c ∈ Nat.toDigits 10 n, c.isDigit := by
    intro c hc
    exact Nat.isDigit_of_mem_toDigits (by decide) (by decide) hc
  obtain ⟨first, rest, hcons⟩ := List.exists_cons_of_ne_nil (Nat.toDigits_ne_nil (b := 10) (n := n))
  rw [hcons, List.forall_mem_cons] at hdigits
  exact ⟨first, rest, hcons, hdigits⟩

/-- **A number** is one token. -/
theorem lexes_number (n : Nat) : Lexes (toString n) [.integer n] := by
  have hchars : (toString n).toList = Nat.toDigits 10 n := Nat.toList_repr
  have hvalue : Nat.ofDigitChars 10 (Nat.toDigits 10 n) 0 = n := Nat.ofDigitChars_ten_toDigits
  obtain ⟨first, rest, hcons, hfirst, hrest⟩ := exists_isDigit_cons n
  rw [Lexes, lex, hchars, hcons, Scan.tokens?_blank_cons (Scan.begin?_digit hfirst),
    Scan.tokens?_digits false [first] rest hrest, List.singleton_append, ← hcons]
  simp [Scan.finish?, hvalue]

/-- **A number with its sign** is one token. -/
theorem lexes_integer (n : Int) : Lexes (toString n) [.integer n] := by
  cases n with
  | ofNat n => exact lexes_number n
  | negSucc n =>
    have hchars : (toString (Int.negSucc n)).toList = '-' :: Nat.toDigits 10 (n + 1) := by
      rw [← Nat.toList_repr]
      exact String.toList_append
    have hvalue : Nat.ofDigitChars 10 (Nat.toDigits 10 (n + 1)) 0 = n + 1 :=
      Nat.ofDigitChars_ten_toDigits
    obtain ⟨first, rest, hcons, hfirst, hrest⟩ := exists_isDigit_cons (n + 1)
    -- The sign is a symbol until the first digit shows that it is none.
    have hsign : (Scan.symbol ['-']).extend? first = some (.integer true [first]) := by
      have hlong : ['-', first] ∉ longSymbols := by simp [longSymbols]
      simp [Scan.extend?, hlong, hfirst]
    rw [Lexes, lex, hchars, Scan.tokens?_blank_cons rfl, hcons, Scan.tokens?, hsign]
    dsimp only
    rw [Scan.tokens?_digits true [first] rest hrest, List.singleton_append, ← hcons]
    simp [Scan.finish?, hvalue, Int.negSucc_eq]

/-! ## Lists and lines -/

/-- Tokens with commas between them. -/
def commaTokens (parts : List (List Token)) : List Token := [.symbol ","].intercalate parts

/-- A line end stands between tokens and is none itself. -/
lemma lex_newline_append (b : String) : lex ("\n" ++ b) = lex b := by
  rw [lex, String.toList_append]
  exact Scan.tokens?_blank_cons rfl b.toList

namespace Lexes

variable {a b : String} {x y : List Token}

/-- Texts with a line end between them have the tokens of both. -/
lemma lined (ha : Lexes a x) (hb : Lexes b y) : Lexes (a ++ "\n" ++ b) (x ++ y) := by
  rw [String.append_assoc]
  refine ha.append ?_ ((lex_newline_append b).trans hb)
  rw [breaks, String.toList_append]
  rfl

/-- Texts with another text between them, set off by blanks. -/
lemma between {mid : String} {words : List Token} (ha : Lexes a x) (hmid : Lexes mid words)
    (hb : Lexes b y) : Lexes (a ++ (" " ++ mid ++ " ") ++ b) (x ++ words ++ y) := by
  have h := (ha.spaced hmid).spaced hb
  simpa only [String.append_assoc] using h

/-- Texts with a comma and a blank between them. -/
lemma listed (ha : Lexes a x) (hb : Lexes b y) :
    Lexes (a ++ ", " ++ b) (x ++ [.symbol ","] ++ y) := by
  have hcomma : Lexes ("," ++ (" " ++ b)) (.symbol "," :: y) := by
    rw [Lexes, lex_symbol_append rfl (by decide), lex_blank_append, hb]
    rfl
  have hseam : ", " = "," ++ " " := rfl
  rw [hseam, String.append_assoc, String.append_assoc, List.append_assoc]
  refine ha.append ?_ hcomma
  rw [breaks, String.toList_append]
  rfl

/-- Texts with a seam between each two of them, if the tokens of the seam are known. -/
lemma seamed {α : Type} {seam : String} {mid : List Token}
    (hseam : ∀ {a b : String} {x y : List Token}, Lexes a x → Lexes b y →
      Lexes (a ++ seam ++ b) (x ++ mid ++ y))
    {text : α → String} {tokens : α → List Token} {l : List α}
    (h : ∀ m ∈ l, Lexes (text m) (tokens m)) :
    Lexes (seam.intercalate (l.map text)) (mid.intercalate (l.map tokens)) := by
  match l with
  | [] => exact rfl
  | [m] => simpa using h m List.mem_cons_self
  | m :: n :: rest =>
    rw [List.forall_mem_cons] at h
    obtain ⟨hm, hothers⟩ := h
    have hrest := seamed hseam hothers
    simp only [List.map_cons] at hrest ⊢
    rw [String.intercalate_cons_cons, List.intercalate_cons_cons]
    exact hseam hm hrest

/-- **A list** is split item by item. -/
theorem commaList {α : Type} {text : α → String} {tokens : α → List Token} {l : List α}
    (h : ∀ m ∈ l, Lexes (text m) (tokens m)) :
    Lexes (commaList (l.map text)) (commaTokens (l.map tokens)) :=
  seamed listed h

/-- Nothing stands between the parts. -/
lemma intercalate_nothing (parts : List (List Token)) :
    List.intercalate [] parts = parts.flatten := by
  match parts with
  | [] => rfl
  | [part] => simp
  | part :: next :: rest =>
    rw [List.intercalate_cons_cons, intercalate_nothing (next :: rest), List.append_nil]
    rfl

/-- **Lines** are split line by line. -/
theorem lines {α : Type} {text : α → String} {tokens : α → List Token} {l : List α}
    (h : ∀ m ∈ l, Lexes (text m) (tokens m)) :
    Lexes ("\n".intercalate (l.map text)) (l.flatMap tokens) := by
  have hlined : ∀ {a b : String} {x y : List Token}, Lexes a x → Lexes b y →
      Lexes (a ++ "\n" ++ b) (x ++ [] ++ y) := by
    intro a b x y ha hb
    rw [List.append_nil]
    exact ha.lined hb
  have hlines := seamed hlined h
  rwa [intercalate_nothing, ← List.flatMap_def] at hlines

end Lexes

end Sql

end BoundSql
