/-!
# TOML strings as they are written

A string is written in the plainest of four forms that needs no escapes: between double quotes,
between single quotes, or one of the two over several lines. Where none does without escapes, double
quotes are used with them.

## Main definitions

* `BoundSql.Toml.quote` — a text as a TOML string.
-/

namespace BoundSql.Toml

/-- The length of the longest run of a character, and of the run at the front. -/
def runLengths (c : Char) : List Char → Nat × Nat
  | [] => (0, 0)
  | d :: rest =>
    let (longest, front) := runLengths c rest
    if d = c then (max longest (front + 1), front + 1) else (longest, 0)

/-- The length of the longest run of a character. -/
def longestRun (c : Char) (text : List Char) : Nat := (runLengths c text).1

/-- Whether a character can only be written as an escape. -/
def needsEscape (c : Char) : Bool :=
  (c.toNat < 0x20 && c ≠ '\t' && c ≠ '\n') || c.toNat = 0x7f

/-- The upper-case hexadecimal digit of a number below 16. -/
def upperHexDigit (n : Nat) : Char := (Nat.digitChar n).toUpper

/-- A character between double quotes, other than a double quote. -/
def escape (long : Bool) (c : Char) : List Char :=
  if c = '\x08' then ['\\', 'b']
  else if c = '\t' then ['\\', 't']
  else if c = '\n' then if long then ['\n'] else ['\\', 'n']
  else if c = '\x0c' then ['\\', 'f']
  else if c = '\r' then ['\\', 'r']
  else if c = '\\' then ['\\', '\\']
  else if needsEscape c then
    ['\\', 'u', '0', '0', upperHexDigit (c.toNat / 16), upperHexDigit (c.toNat % 16)]
  else [c]

/-- The content of a string between double quotes. At most `free` double quotes in a row stand
unescaped, and `row` of them stand in front. -/
def escapeAll (long : Bool) (free row : Nat) : List Char → List Char
  | [] => []
  | c :: rest =>
    if c = '"' then
      if row < free then '"' :: escapeAll long free (row + 1) rest
      else '\\' :: '"' :: escapeAll long free 0 rest
    else escape long c ++ escapeAll long free 0 rest

/-- The line feed behind the opening quotes of a string over several lines, which is not
part of it. -/
def leadingBreak (text : List Char) : List Char := if text.contains '\n' then ['\n'] else []

/-- A text as a TOML string. -/
def quoteChars (text : List Char) : List Char :=
  let hasCodes := text.any needsEscape
  let hasBackslash := text.contains '\\'
  let hasBreak := text.contains '\n'
  let double := longestRun '"' text
  let single := longestRun '\'' text
  let longQuotes := ['"', '"', '"']
  let longSingles := ['\'', '\'', '\'']
  if !hasCodes && !hasBackslash && double = 0 && !hasBreak then
    '"' :: escapeAll false 0 0 text ++ ['"']
  else if !hasCodes && single = 0 && !hasBreak then '\'' :: text ++ ['\'']
  else if !hasCodes && !hasBackslash && double ≤ 2 then
    longQuotes ++ leadingBreak text ++ escapeAll true 2 0 text ++ longQuotes
  else if !hasCodes && single ≤ 2 then longSingles ++ leadingBreak text ++ text ++ longSingles
  else if hasBreak then longQuotes ++ leadingBreak text ++ escapeAll true 2 0 text ++ longQuotes
  else '"' :: escapeAll false 0 0 text ++ ['"']

/-- A text as a TOML string. -/
def quote (text : String) : String := String.ofList (quoteChars text.toList)

end BoundSql.Toml
