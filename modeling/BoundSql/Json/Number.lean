import BoundSql.Json.Basic

/-!
# Reading JSON numbers

A JSON number is read as a significand of at most 64 bits and a power of ten. A literal without
point and exponent that fits 64 bits is a whole number; anything else is a real, whose value is the
significand as a real, scaled by rounded powers of ten.

## Main definitions

* `BoundSql.Json.readNumber?` — splits a literal off a text.
* `BoundSql.Json.Number.toNumeral?` — the number of a literal, if its magnitude is in range.
-/

namespace BoundSql.Json

/-! ## Splitting a literal off -/

/-- The digits before the point: a zero alone, or digits that start with another one. -/
def readWhole? : List Char → Option (List Char × List Char)
  | '0' :: rest => if (rest.head?.any isDigit) then none else some (['0'], rest)
  | chars =>
    let digits := chars.takeWhile isDigit
    if digits.isEmpty then none else some (digits, chars.dropWhile isDigit)

/-- The digits behind a point, of which there has to be one. -/
def readFraction? : List Char → Option (List Char × List Char)
  | '.' :: rest =>
    let digits := rest.takeWhile isDigit
    if digits.isEmpty then none else some (digits, rest.dropWhile isDigit)
  | chars => some ([], chars)

/-- The power of ten behind `e`, of which there has to be a digit. -/
def readExponent? : List Char → Option (Option Int × List Char)
  | [] => some (none, [])
  | c :: rest =>
    if c = 'e' || c = 'E' then
      let (negative, unsigned) := splitSign rest
      let digits := unsigned.takeWhile isDigit
      let value : Int := digitsValue 0 digits
      if digits.isEmpty then none
      else some (some (if negative then -value else value), unsigned.dropWhile isDigit)
    else some (none, c :: rest)

/-- A minus sign, if there is one. -/
def readMinus : List Char → Bool × List Char
  | '-' :: rest => (true, rest)
  | chars => (false, chars)

/-- Splits a literal off the front of a text. -/
def readNumber? (chars : List Char) : Option (Number × List Char) := do
  let (negative, unsigned) := readMinus chars
  let (whole, rest) ← readWhole? unsigned
  let (fraction, rest) ← readFraction? rest
  let (exponent?, rest) ← readExponent? rest
  return (⟨negative, whole, fraction, exponent?⟩, rest)

/-! ## Conversion -/

/-- Appends digits to a significand as long as it has at most 64 bits; the second component is how
many were appended. -/
def absorb : Nat → List Char → Nat × Nat
  | n, [] => (n, 0)
  | n, d :: rest =>
    let next := 10 * n + digitValue d
    if next < Nat.pow 2 64 then
      let (significand, count) := absorb next rest
      (significand, count + 1)
    else (n, 0)

/-- A power of ten as a real. -/
def tenTo (k : Nat) : Binary64 := Decimal.toBinary64 ⟨false, 1, k⟩

/-- Scales a real by a power of ten. Powers below the smallest of the table are reached in steps of
308, and after two of them nothing is left of a 64-bit significand; a magnitude that is too large
has no value. -/
def scaleByTen : Nat → Binary64 → Int → Option Binary64
  | 0, x, _ => some x
  | steps + 1, x, exponent =>
    if exponent.natAbs ≤ 308 then
      if exponent < 0 then some (x.div (tenTo exponent.natAbs))
      else
        let scaled := x.mul (tenTo exponent.natAbs)
        if scaled.isFinite then some scaled else none
    else if x.equal (.zero false) then some x
    else if 0 ≤ exponent then none
    else scaleByTen steps (x.div (tenTo 308)) (exponent + 308)

namespace Number

/-- A literal without point and exponent, given its significand. Negative zero and negative
magnitudes outside the signed range are reals. -/
def wholeNumeral (negative : Bool) (significand : Nat) : Numeral :=
  if negative then
    if significand = 0 || Nat.pow 2 63 < significand then .real (Binary64.ofNat significand).neg
    else .signed (Int64.ofInt (-significand))
  else .unsigned (UInt64.ofNat significand)

/-- The number of a literal. Digits before the point that do not fit the significand count as powers
of ten; digits behind the point that do not fit are dropped. -/
def toNumeral? (number : Number) : Option Numeral :=
  let (integral, absorbed) := absorb 0 number.whole
  let skipped := number.whole.length - absorbed
  if number.fraction.isEmpty && number.exponent?.isNone && skipped = 0 then
    some (wholeNumeral number.negative integral)
  else
    let (significand, places) := absorb integral number.fraction
    let exponent : Int := skipped - places + number.exponent?.getD 0
    (scaleByTen 4 (Binary64.ofNat significand) exponent).map fun x =>
      .real (if number.negative then x.neg else x)

end Number

end BoundSql.Json
