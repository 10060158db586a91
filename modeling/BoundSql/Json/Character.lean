import BoundSql.Text.Hexadecimal

/-!
# Characters of JSON texts

The characters that have a meaning in the text of a document: the blanks between its parts, the
escapes inside its strings, and the points of its number literals.

## Main definitions

* `BoundSql.Json.isSpace` — the blanks.
* `BoundSql.Json.escaped?` — what the letter of an escape names.
* `BoundSql.Json.isHighSurrogate`, `BoundSql.Json.isLowSurrogate` — the halves of a character that
  is escaped as two code units.
* `BoundSql.Json.fractionChars` — a point with its digits.
-/

namespace BoundSql.Json

/-- Whether a character may stand between the parts of a document. -/
def isSpace (c : Char) : Bool := c = ' ' || c = '\t' || c = '\n' || c = '\r'

/-- Whether a code unit opens a surrogate pair. -/
def isHighSurrogate (n : Nat) : Bool := 0xD800 ≤ n && n < 0xDC00

/-- Whether a code unit closes a surrogate pair. -/
def isLowSurrogate (n : Nat) : Bool := 0xDC00 ≤ n && n < 0xE000

/-- The character that a letter behind a backslash names. -/
def escaped? : Char → Option Char
  | '"' => some '"'
  | '\\' => some '\\'
  | '/' => some '/'
  | 'b' => some '\x08'
  | 'f' => some '\x0c'
  | 'n' => some '\n'
  | 'r' => some '\r'
  | 't' => some '\t'
  | _ => none

/-- The characters behind the whole part of a literal: a point and digits, if there are any. -/
def fractionChars (digits : List Char) : List Char :=
  if digits.isEmpty then [] else '.' :: digits

/-- How deep containers may be nested. -/
def maxDepth : Nat := 127

end BoundSql.Json
