import BoundSql.Text.Hexadecimal
import BoundSql.Toml.Node

/-!
# TOML scalars

Reading strings, numbers, truth values, dates and times.

## Main definitions

* `BoundSql.Toml.readBasic?`, `BoundSql.Toml.readLiteral?` — strings behind their opening quotes.
* `BoundSql.Toml.readText?` — a string of any form.
* `BoundSql.Toml.Node.ofToken?` — a scalar that is no string.
-/

namespace BoundSql.Toml

/-! ## Strings -/

/-- Whether a character may stand in comments and, on one line, in strings. -/
def isPlain (c : Char) : Bool := c = '\t' || (0x20 ≤ c.toNat && c.toNat ≠ 0x7f)

/-- Whether a character is a blank within a line. -/
def isSpace (c : Char) : Bool := c = ' ' || c = '\t'

/-- A text without the blanks in front. -/
def skipSpace (chars : List Char) : List Char := chars.dropWhile isSpace

/-- Whether a line ends here. -/
def startsBreak : List Char → Bool
  | '\n' :: _ => true
  | '\r' :: '\n' :: _ => true
  | _ => false

/-- The character of a code point; surrogates are none. -/
def charOfCode? (n : Nat) : Option Char :=
  if n < 0xD800 || (0xDFFF < n && n < 0x110000) then some (Char.ofNat n) else none

/-- The character that a letter behind a backslash names. -/
def escaped? : Char → Option Char
  | '"' => some '"'
  | '\\' => some '\\'
  | 'b' => some '\x08'
  | 'e' => some '\x1b'
  | 'f' => some '\x0c'
  | 'n' => some '\n'
  | 'r' => some '\r'
  | 't' => some '\t'
  | _ => none

/-- Puts a character in front of what was read. -/
def withChar (c : Option Char) (read : Option (List Char × List Char)) :
    Option (List Char × List Char) := do
  let c ← c
  let (text, rest) ← read
  return (c :: text, rest)

/-- The end of a string over several lines behind a quote: the quotes that still belong to it, two
at most, and what follows the closing ones. The string goes on if two more quotes do not follow. -/
def closeLong? (quote : Char) (chars : List Char) : Option (List Char × List Char) :=
  let run := (chars.takeWhile (· = quote)).length
  let inside := min 2 (run - 2)
  if run < 2 then none else some (List.replicate inside quote, chars.drop (inside + 2))

/-- A string in double quotes behind its opening ones: the text and what follows the closing ones.
`long` says whether it may go over several lines, and `skipping` whether blanks and line ends are
skipped because a backslash stood at the end of a line. -/
def readBasic? (long skipping : Bool) : List Char → Option (List Char × List Char)
  | [] => none
  | '"' :: rest =>
    if long then
      match closeLong? '"' rest with
      | some closed => some closed
      | none => withChar (some '"') (readBasic? long false rest)
    else some ([], rest)
  | '\\' :: 'x' :: a :: b :: rest =>
    withChar (hexNumber? [a, b] >>= charOfCode?) (readBasic? long false rest)
  | '\\' :: 'u' :: a :: b :: c :: d :: rest =>
    withChar (hexNumber? [a, b, c, d] >>= charOfCode?) (readBasic? long false rest)
  | '\\' :: 'U' :: a :: b :: c :: d :: e :: f :: g :: h :: rest =>
    withChar (hexNumber? [a, b, c, d, e, f, g, h] >>= charOfCode?) (readBasic? long false rest)
  | '\\' :: c :: rest =>
    if long && startsBreak (skipSpace (c :: rest)) then readBasic? long true rest
    else withChar (escaped? c) (readBasic? long false rest)
  | '\r' :: '\n' :: rest =>
    if !long then none
    else if skipping then readBasic? long true rest
    else withChar (some '\n') (readBasic? long false rest)
  | c :: rest =>
    if skipping && (isSpace c || c = '\n') then readBasic? long true rest
    else if (long && c = '\n') || (isPlain c && c ≠ '\\') then
      withChar (some c) (readBasic? long false rest)
    else none

/-- A string in single quotes behind its opening ones, in which nothing is escaped. -/
def readLiteral? (long : Bool) : List Char → Option (List Char × List Char)
  | [] => none
  | '\'' :: rest =>
    if long then
      match closeLong? '\'' rest with
      | some closed => some closed
      | none => withChar (some '\'') (readLiteral? long rest)
    else some ([], rest)
  | '\r' :: '\n' :: rest =>
    if long then withChar (some '\n') (readLiteral? long rest) else none
  | c :: rest =>
    if (long && c = '\n') || isPlain c then withChar (some c) (readLiteral? long rest) else none

/-- The text behind the line end that may follow opening quotes. -/
def skipBreak : List Char → List Char
  | '\n' :: rest => rest
  | '\r' :: '\n' :: rest => rest
  | chars => chars

/-- A string on one line. -/
def readShortText? : List Char → Option (List Char × List Char)
  | '"' :: rest => readBasic? false false rest
  | '\'' :: rest => readLiteral? false rest
  | _ => none

/-- A string of any form. -/
def readText? : List Char → Option (List Char × List Char)
  | '"' :: '"' :: '"' :: rest => readBasic? true false (skipBreak rest)
  | '\'' :: '\'' :: '\'' :: rest => readLiteral? true (skipBreak rest)
  | chars => readShortText? chars

/-! ## Numbers -/

/-- Whether characters are digits of a class with single underscores between them. -/
def isDigitRun (digit : Char → Bool) : List Char → Bool
  | [] => false
  | [c] => digit c
  | c :: '_' :: rest => digit c && isDigitRun digit rest
  | c :: rest => digit c && isDigitRun digit rest

/-- Whether characters write a whole decimal number without superfluous zeros. -/
def isWhole (chars : List Char) : Bool :=
  isDigitRun isDigit chars && (chars.head? ≠ some '0' || chars.length = 1)

/-- Drops underscores. -/
def dropUnderscores (chars : List Char) : List Char := chars.filter (· ≠ '_')

/-- The number that digits of a base write. -/
def digitsInBase (base : Nat) (chars : List Char) : Nat :=
  (dropUnderscores chars).foldl (fun n c => base * n + (hexValue? c).getD 0) 0

/-- Whether a character is a digit of a base up to 16. -/
def isDigitOf (base : Nat) (c : Char) : Bool := (hexValue? c).any (· < base)

/-- A whole number in a base. -/
def inBase? (base : Nat) (chars : List Char) : Option Int :=
  if isDigitRun (isDigitOf base) chars then some (digitsInBase base chars) else none

/-- A whole number. -/
def integer? : List Char → Option Int
  | '0' :: 'x' :: digits => inBase? 16 digits
  | '0' :: 'o' :: digits => inBase? 8 digits
  | '0' :: 'b' :: digits => inBase? 2 digits
  | chars =>
    let (negative, digits) := splitSign chars
    let value : Int := digitsInBase 10 digits
    if isWhole digits then some (if negative then -value else value) else none

/-- Whether characters write the exponent of a real number. -/
def isExponent : List Char → Bool
  | c :: rest => (c = 'e' || c = 'E') && isDigitRun isDigit (splitSign rest).2
  | [] => false

/-- Whether characters write what makes a number real: a fraction, an exponent or both. -/
def isRealTail : List Char → Bool
  | '.' :: rest =>
    let fraction := rest.takeWhile fun c => isDigit c || c = '_'
    let exponent := rest.dropWhile fun c => isDigit c || c = '_'
    isDigitRun isDigit fraction && (exponent.isEmpty || isExponent exponent)
  | chars => isExponent chars

/-- A real number. One whose magnitude is too large is none, unless it is written as an infinity. -/
def real? (chars : List Char) : Option Binary64 :=
  let (negative, unsigned) := splitSign chars
  if unsigned = "inf".toList then some (.infinite negative)
  else if unsigned = "nan".toList then some .nan
  else
    let whole := unsigned.takeWhile fun c => isDigit c || c = '_'
    let tail := unsigned.dropWhile fun c => isDigit c || c = '_'
    if isWhole whole && isRealTail tail then
      ((Decimal.ofChars? (dropUnderscores chars)).map Decimal.toBinary64).filter Binary64.isFinite
    else none

/-! ## Dates and times -/

/-- The number of a fixed count of digits at the front. -/
def readFixed? (count : Nat) (chars : List Char) : Option (Nat × List Char) :=
  let digits := chars.take count
  if digits.length = count && digits.all isDigit then some (digitsValue 0 digits, chars.drop count)
  else none

/-- The text behind a character. -/
def behind? (c : Char) : List Char → Option (List Char)
  | d :: rest => if d = c then some rest else none
  | [] => none

/-- The number of days of a month. -/
def daysInMonth (year month : Nat) : Nat :=
  if month = 2 then
    if year % 4 = 0 && (year % 100 ≠ 0 || year % 400 = 0) then 29 else 28
  else if month = 4 || month = 6 || month = 9 || month = 11 then 30
  else 31

/-- The text behind a date. -/
def readDate? (chars : List Char) : Option (List Char) := do
  let (year, rest) ← readFixed? 4 chars
  let (month, rest) ← readFixed? 2 (← behind? '-' rest)
  let (day, rest) ← readFixed? 2 (← behind? '-' rest)
  if 1 ≤ month && month ≤ 12 && 1 ≤ day && day ≤ daysInMonth year month then return rest else none

/-- The text behind the fraction of a second, if there is one. -/
def readFraction? : List Char → Option (List Char)
  | '.' :: rest => if rest.head?.any isDigit then some (rest.dropWhile isDigit) else none
  | chars => some chars

/-- The text behind the seconds of a time, if there are any. -/
def readSeconds? : List Char → Option (List Char)
  | ':' :: rest => do
    let (second, rest) ← readFixed? 2 rest
    if second ≤ 60 then readFraction? rest else none
  | chars => some chars

/-- The text behind a time of day. -/
def readTime? (chars : List Char) : Option (List Char) := do
  let (hour, rest) ← readFixed? 2 chars
  let (minute, rest) ← readFixed? 2 (← behind? ':' rest)
  if hour ≤ 23 && minute ≤ 59 then readSeconds? rest else none

/-- Whether characters write the offset of a time from the universal one, or nothing. -/
def isOffset : List Char → Bool
  | [] => true
  | [c] => c = 'Z' || c = 'z'
  | sign :: rest =>
    (sign = '+' || sign = '-') &&
      (do
        let (hour, rest) ← readFixed? 2 rest
        let (minute, rest) ← readFixed? 2 (← behind? ':' rest)
        return hour ≤ 23 && minute ≤ 59 && rest.isEmpty : Option Bool).getD false

/-- Whether characters write a date, a time or both. -/
def isMoment (chars : List Char) : Bool :=
  match readDate? chars with
  | some [] => true
  | some (c :: rest) =>
    (c = 'T' || c = 't' || c = ' ') && ((readTime? rest).map isOffset).getD false
  | none => readTime? chars = some []

/-! ## Tokens -/

/-- Whether a character may stand in a scalar that is no string. -/
def isTokenChar (c : Char) : Bool :=
  c.isAlphanum || c = '+' || c = '-' || c = '_' || c = '.' || c = ':'

/-- A scalar without quotes. A blank may stand between a date and a time. -/
def readToken (chars : List Char) : List Char × List Char :=
  let token := chars.takeWhile isTokenChar
  match chars.dropWhile isTokenChar with
  | ' ' :: c :: rest =>
    if isDigit c && readDate? token = some [] then
      (token ++ ' ' :: (c :: rest).takeWhile isTokenChar, (c :: rest).dropWhile isTokenChar)
    else (token, ' ' :: c :: rest)
  | rest => (token, rest)

/-- The data that a scalar without quotes writes. -/
def Node.ofToken? (token : List Char) : Option Node :=
  if token = "true".toList then some (.boolean true)
  else if token = "false".toList then some (.boolean false)
  else
    match integer? token, real? token with
    | some n, _ => some (.integer n)
    | none, some x => some (.real x)
    | none, none => if isMoment token then some (.moment (String.ofList token)) else none

end BoundSql.Toml
