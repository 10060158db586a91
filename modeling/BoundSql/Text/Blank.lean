import BoundSql.Text.Split

/-!
# Blank characters and lines

The characters with the Unicode property `White_Space`, trimming by them, and the lines of a text.

## Main definitions

* `BoundSql.Text.isBlank` — the property.
* `BoundSql.Text.trim` — a text without the blanks at its ends.
* `BoundSql.Text.lines` — the lines of a text, each without its line end.
-/

namespace BoundSql.Text

/-- Whether a character has the Unicode property `White_Space`. -/
def isBlank (c : Char) : Bool :=
  let n := c.toNat
  (0x09 ≤ n && n ≤ 0x0d) || n = 0x20 || n = 0x85 || n = 0xa0 || n = 0x1680 ||
    (0x2000 ≤ n && n ≤ 0x200a) || n = 0x2028 || n = 0x2029 || n = 0x202f || n = 0x205f || n = 0x3000

/-- Drops the blanks at both ends. -/
def trimChars (chars : List Char) : List Char :=
  ((chars.dropWhile isBlank).reverse.dropWhile isBlank).reverse

/-- A text without the blanks at its ends. -/
def trim (text : String) : String := String.ofList (trimChars text.toList)

/-- Drops the carriage return that ends a line, if there is one. -/
def dropReturn (line : List Char) : List Char :=
  if line.getLast? = some '\r' then line.dropLast else line

/-- The lines that the parts between line feeds make. A line feed ends a line, so nothing follows
the last one; a carriage return is part of a line end only before a line feed. -/
def linesOfParts : List (List Char) → List (List Char)
  | [] => []
  | [last] => if last.isEmpty then [] else [last]
  | line :: rest => dropReturn line :: linesOfParts rest

/-- The lines of a text, without line feeds and the carriage returns before them. -/
def lines (text : String) : List String :=
  (linesOfParts (splitChars '\n' text.toList)).map String.ofList

end BoundSql.Text
