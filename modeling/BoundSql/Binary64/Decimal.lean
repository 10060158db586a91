import BoundSql.Binary64

/-!
# Decimal literals

A decimal literal is a sign, a whole number of digits and a power of ten. Its double-precision value
is the number of the format nearest to it, computed exactly.

## Main definitions

* `BoundSql.Decimal` — a literal.
* `BoundSql.Decimal.ofChars?` — the literal a text spells.
* `BoundSql.Decimal.toBinary64`, `BoundSql.Decimal.toSingle` — its nearest double and single.
* `BoundSql.Binary64.ofText?` — a number spelled in digits or as an infinity or not-a-number.
-/

namespace BoundSql

/-! ## Digits -/

/-- Whether a character is one of the ten ASCII digits. -/
def isDigit (c : Char) : Bool := '0' ≤ c && c ≤ '9'

/-- The value of a digit character. -/
def digitValue (c : Char) : Nat := c.toNat - '0'.toNat

/-- The number that a run of digits writes, read on from `start`. -/
def digitsValue (start : Nat) (digits : List Char) : Nat :=
  digits.foldl (fun n c => 10 * n + digitValue c) start

/-- The number of decimal digits of a natural number; zero has none. -/
def decimalLength (n : Nat) : Nat := if n = 0 then 0 else (Nat.toDigits 10 n).length

/-- Splits off a sign; the flag says whether it is a minus. -/
def splitSign : List Char → Bool × List Char
  | '-' :: rest => (true, rest)
  | '+' :: rest => (false, rest)
  | chars => (false, chars)

/-- The value `± digits * 10 ^ exponent`. -/
structure Decimal where
  /-- Whether a minus sign stands in front. -/
  negative : Bool
  /-- The digits, read as one whole number. -/
  digits : Nat
  /-- The power of ten that the last digit counts. -/
  exponent : Int
deriving DecidableEq, Repr

namespace Decimal

/-- The exponent part of a literal: nothing, or `e`, an optional sign and digits. -/
def exponentOfChars? : List Char → Option Int
  | [] => some 0
  | c :: rest =>
    let (negative, digits) := splitSign rest
    if (c = 'e' || c = 'E') && !digits.isEmpty && digits.all isDigit then
      let value : Int := digitsValue 0 digits
      some (if negative then -value else value)
    else none

/-- The fraction and exponent that follow the whole part of a literal. -/
def tailOfChars? : List Char → Option (List Char × Int)
  | '.' :: rest =>
    (exponentOfChars? (rest.dropWhile isDigit)).map (rest.takeWhile isDigit, ·)
  | chars => (exponentOfChars? chars).map ([], ·)

/-- Reads digits with an optional sign, point and exponent. A digit must stand before or after the
point, and nothing may follow. -/
def ofChars? (chars : List Char) : Option Decimal :=
  let (negative, unsigned) := splitSign chars
  let whole := unsigned.takeWhile isDigit
  match tailOfChars? (unsigned.dropWhile isDigit) with
  | some (fraction, exponent) =>
    if whole.isEmpty && fraction.isEmpty then none
    else some ⟨negative, digitsValue (digitsValue 0 whole) fraction, exponent - fraction.length⟩
  | none => none

/-- The nearest number under `round`, which rounds an exact ratio. Literals far outside the range of
either format are decided by their decimal length, so no huge power of ten is formed. -/
def roundWith (round : Bool → Nat → Nat → Binary64) (d : Decimal) : Binary64 :=
  let magnitude := decimalLength d.digits + d.exponent
  if d.digits = 0 || magnitude < -400 then .zero d.negative
  else if 400 < magnitude then .infinite d.negative
  else if d.exponent < 0 then round d.negative d.digits (Nat.pow 10 d.exponent.natAbs)
  else round d.negative (d.digits * Nat.pow 10 d.exponent.natAbs) 1

/-- The nearest double. -/
def toBinary64 (d : Decimal) : Binary64 := d.roundWith .ofRatio

/-- The nearest single, as a double. -/
def toSingle (d : Decimal) : Binary64 := d.roundWith .ofRatioSingle

end Decimal

namespace Binary64

/-- The numbers that are spelled as words, in any mixture of cases. -/
def ofWord? (chars : List Char) : Option Binary64 :=
  let (negative, unsigned) := splitSign chars
  let word := String.ofList (unsigned.map Char.toLower)
  if word = "inf" || word = "infinity" then some (.infinite negative)
  else if word = "nan" then some .nan
  else none

/-- Reads a number; `round` is the rounding of the format that is read. -/
def ofTextWith? (round : Decimal → Binary64) (text : String) : Option Binary64 :=
  (ofWord? text.toList).or ((Decimal.ofChars? text.toList).map round)

/-- The double that a text spells. -/
def ofText? (text : String) : Option Binary64 := ofTextWith? Decimal.toBinary64 text

/-- The single that a text spells, as a double. -/
def singleOfText? (text : String) : Option Binary64 := ofTextWith? Decimal.toSingle text

end Binary64

end BoundSql
