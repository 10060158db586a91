import BoundSql.Json.Basic
import BoundSql.Json.Character
import BoundSql.Proofs.Signs

/-!
# The grammar of JSON texts

Which texts write which documents, told without a reader: words, strings with escapes, number
literals, and arrays and objects with blanks around their parts. Every text of the grammar has a
meaning, so a code unit that is a surrogate stands in a pair, and a number literal is converted to a
number. How literals are converted is left open; if each stands for itself, nothing about a text is
lost but its blanks and its escapes.

## Main definitions

* `BoundSql.Json.Number.WellFormed` — the number literals that can be written.
* `BoundSql.Json.StringText` — the texts between the quotes of a string.
* `BoundSql.Json.NumberText` — the texts of number literals.
* `BoundSql.Json.ScalarText` — the texts of documents that are no containers.
* `BoundSql.Json.ListText` — lists of texts with commas between them.
* `BoundSql.Json.DocumentText` — the texts of documents with a bound on their nesting.
-/

namespace BoundSql.Json

/-- Blanks between the parts of a document. -/
def Blank (chars : List Char) : Prop := ∀ c ∈ chars, isSpace c = true

/-- The empty text is blank. -/
lemma blank_nil : Blank [] := nofun

/-! ## Scalars -/

/-- The texts between the quotes of a string, with the characters that they write. -/
inductive StringText : List Char → List Char → Prop
  /-- Nothing. -/
  | nil : StringText [] []
  /-- A character that stands for itself. -/
  | plain {c : Char} {body text : List Char} (hcode : 0x20 ≤ c.toNat) (hquote : c ≠ '"')
      (hslash : c ≠ '\\') (hrest : StringText body text) : StringText (c :: body) (c :: text)
  /-- A character that a letter names. -/
  | named {letter c : Char} {body text : List Char} (hletter : escaped? letter = some c)
      (hrest : StringText body text) : StringText ('\\' :: letter :: body) (c :: text)
  /-- A character given by its code. -/
  | unit {a b c d : Char} {n : ℕ} {body text : List Char}
      (hdigits : hexNumber? [a, b, c, d] = some n)
      (hhigh : isHighSurrogate n = false) (hlow : isLowSurrogate n = false)
      (hrest : StringText body text) :
      StringText ('\\' :: 'u' :: a :: b :: c :: d :: body) (Char.ofNat n :: text)
  /-- A character given by a pair of surrogates. -/
  | pair {a b c d a' b' c' d' : Char} {n m : ℕ} {body text : List Char}
      (hdigits : hexNumber? [a, b, c, d] = some n)
      (hdigits' : hexNumber? [a', b', c', d'] = some m)
      (hhigh : isHighSurrogate n = true) (hlow : isLowSurrogate m = true)
      (hrest : StringText body text) :
      StringText
        ('\\' :: 'u' :: a :: b :: c :: d :: '\\' :: 'u' :: a' :: b' :: c' :: d' :: body)
        (Char.ofNat (0x10000 + (n - 0xD800) * 0x400 + (m - 0xDC00)) :: text)

/-- The texts of powers of ten: nothing, or a letter, a sign and digits. -/
inductive ExponentText : List Char → Option ℤ → Prop
  /-- Nothing. -/
  | absent : ExponentText [] none
  /-- A power of ten. -/
  | power {letter : Char} {sign digits : List Char} (hletter : letter = 'e' ∨ letter = 'E')
      (hsign : sign ∈ signs) (hnonempty : digits ≠ []) (hdigits : ∀ c ∈ digits, isDigit c = true) :
      ExponentText (letter :: (sign ++ digits))
        (some (signedInt (sign = ['-']) (digitsValue 0 digits)))

/-- The literals that can be written: made of digits, the whole part a zero alone or without a zero
in front. -/
structure Number.WellFormed (number : Number) : Prop where
  /-- The whole part. -/
  whole : number.whole = ['0'] ∨ ∃ first rest, number.whole = first :: rest ∧ first ≠ '0'
  /-- All digits are digits. -/
  digits : ∀ c ∈ number.whole ++ number.fraction, isDigit c = true

/-- The whole part begins with a digit. -/
lemma Number.WellFormed.exists_whole_eq_cons {number : Number} (h : number.WellFormed) :
    ∃ first rest, number.whole = first :: rest ∧ BoundSql.isDigit first = true := by
  obtain ⟨first, rest, hwhole⟩ : ∃ first rest, number.whole = first :: rest := by
    obtain hzero | ⟨first, rest, hwhole, -⟩ := h.whole
    · exact ⟨'0', [], hzero⟩
    · exact ⟨first, rest, hwhole⟩
  exact ⟨first, rest, hwhole,
    h.digits first (List.mem_append_left _ (hwhole ▸ List.mem_cons_self))⟩

/-- The literal of a whole number. -/
def Number.ofInt (n : ℤ) : Number := ⟨n < 0, Nat.toDigits 10 n.natAbs, [], none⟩

/-- The texts of number literals. -/
def NumberText (chars : List Char) (number : Number) : Prop :=
  number.WellFormed ∧ ∃ exponent, ExponentText exponent number.exponent? ∧
    chars = Binary64.signChars number.negative ++
      (number.whole ++ (fractionChars number.fraction ++ exponent))

section Scalars

variable {ν : Type}

/-- The words, with what they stand for. -/
def words : List (String × Scalar ν) :=
  [("null", .null), ("true", .bool true), ("false", .bool false)]

/-- The texts of scalars. -/
inductive ScalarText (convert : Number → Option ν) : List Char → Scalar ν → Prop
  /-- A word. -/
  | word {word : String} {s : Scalar ν} (hword : (word, s) ∈ words) :
      ScalarText convert word.toList s
  /-- A string. -/
  | text {body text : List Char} (hbody : StringText body text) :
      ScalarText convert ('"' :: (body ++ ['"'])) (.text (String.ofList text))
  /-- A literal that is converted to a number. -/
  | number {chars : List Char} {literal : Number} {n : ν} (hchars : NumberText chars literal)
      (hnumber : convert literal = some n) : ScalarText convert chars (.number n)

end Scalars

/-! ## Containers -/

section Containers

variable {α : Type} (P : List Char → α → Prop)

/-- One text or more, with commas between them and blanks around them. -/
inductive ListText : List Char → List α → Prop
  /-- The last text. -/
  | last {front text back : List Char} {a : α} (hfront : Blank front) (htext : P text a)
      (hback : Blank back) : ListText (front ++ (text ++ back)) [a]
  /-- A text in front of others. -/
  | cons {front text back rest : List Char} {a : α} {as : List α} (hfront : Blank front)
      (htext : P text a) (hback : Blank back) (hrest : ListText rest as) :
      ListText (front ++ (text ++ (back ++ ',' :: rest))) (a :: as)

/-- What stands between two brackets: blanks only, or a list. -/
def InnerText (chars : List Char) (as : List α) : Prop :=
  Blank chars ∧ as = [] ∨ ListText P chars as

/-- A key, a colon and a text. -/
inductive MemberText : List Char → String × α → Prop
  | mk {body key between front text : List Char} {a : α} (hkey : StringText body key)
      (hbetween : Blank between) (hfront : Blank front) (htext : P text a) :
      MemberText ('"' :: (body ++ '"' :: (between ++ ':' :: (front ++ text))))
        (String.ofList key, a)

end Containers

section Documents

variable {ν : Type} (convert : Number → Option ν)

/-- The texts of documents in which containers are nested at most so deep, without blanks around
them. -/
def DocumentText : ℕ → List Char → Json (Scalar ν) → Prop
  | 0, chars, document => ∃ s, ScalarText convert chars s ∧ document = .scalar s
  | depth + 1, chars, document =>
    (∃ s, ScalarText convert chars s ∧ document = .scalar s) ∨
    (∃ inner items, InnerText (DocumentText depth) inner items ∧ chars = '[' :: (inner ++ [']']) ∧
      document = .array items) ∨
    ∃ inner members, InnerText (MemberText (DocumentText depth)) inner members ∧
      chars = '\x7b' :: (inner ++ ['\x7d']) ∧ document = .object members

/-- A text is one document in which containers are nested at most so deep, with blanks around it. -/
def Writes (depth : ℕ) (chars : List Char) (document : Json (Scalar ν)) : Prop :=
  ∃ front text back, Blank front ∧ DocumentText convert depth text document ∧ Blank back ∧
    chars = front ++ (text ++ back)

variable {convert}

/-- The text of a document is one without blanks around it. -/
lemma DocumentText.writes {depth : ℕ} {chars : List Char} {document : Json (Scalar ν)}
    (h : DocumentText convert depth chars document) : Writes convert depth chars document :=
  ⟨[], chars, [], blank_nil, h, blank_nil, by simp⟩

/-- The texts of scalars are texts of documents at every depth. -/
lemma ScalarText.document {chars : List Char} {s : Scalar ν} (h : ScalarText convert chars s)
    (depth : ℕ) : DocumentText convert depth chars (.scalar s) := by
  cases depth with
  | zero => exact ⟨s, h, rfl⟩
  | succ depth => exact .inl ⟨s, h, rfl⟩

end Documents

/-! ## First characters -/

/-- A number literal begins with its sign or a digit. -/
lemma NumberText.exists_eq_cons {chars : List Char} {number : Number}
    (h : NumberText chars number) :
    ∃ first rest, chars = first :: rest ∧ (first = '-' ∨ isDigit first = true) := by
  obtain ⟨hnumber, exponent, -, rfl⟩ := h
  obtain ⟨first, rest, hwhole, hfirst⟩ := hnumber.exists_whole_eq_cons
  cases number.negative with
  | true => exact ⟨'-', _, rfl, .inl rfl⟩
  | false => exact ⟨first, _, by rw [hwhole]; rfl, .inr hfirst⟩

end BoundSql.Json
