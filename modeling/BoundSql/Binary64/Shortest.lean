import BoundSql.Binary64.Decimal

/-!
# Shortest decimal texts

The text of a number has as few digits as still read back to the same number, and among those the
nearest ones. The search walks over decimal grids from coarse to fine: the first grid with a point
inside the interval of reals that round to the number decides how many digits there are.

## Main definitions

* `BoundSql.Binary64.shortest` — the fewest digits that read back, and their power of ten.
* `BoundSql.Binary64.plainText` — digits without an exponent, however long.
-/

namespace BoundSql.Binary64

/-! ## Digits -/

/-- Which point of a grid is taken when the number lies exactly between two. -/
inductive TieRule where
  /-- The larger one. -/
  | up
  /-- The one whose last digit is even. -/
  | even
deriving DecidableEq, Repr

/-- The reals that round to a magnitude, in quarters of a unit: both ends, and whether they
belong. -/
structure Interval where
  /-- Lower end. -/
  low : Nat
  /-- Upper end. -/
  high : Nat
  /-- Whether the ends round to the magnitude as well. -/
  closed : Bool

/-- The interval of a rank. Below a power of two the gap to the neighbour is half as wide. -/
def interval (rank : Nat) : Interval :=
  let gap := Nat.pow 2 (scale rank)
  let below := if significand rank = Nat.pow 2 52 && 0 < scale rank then gap else 2 * gap
  ⟨4 * units rank - below, 4 * units rank + 2 * gap, significand rank % 2 = 0⟩

/-- Whether `num / den` quarters lie in an interval. -/
def Interval.contains (i : Interval) (num den : Nat) : Bool :=
  if i.closed then i.low * den ≤ num && num ≤ i.high * den
  else i.low * den < num && num < i.high * den

/-- `10 ^ k` as a ratio. -/
def powerOfTen : Int → Nat × Nat
  | .ofNat k => (Nat.pow 10 k, 1)
  | .negSucc k => (1, Nat.pow 10 (k + 1))

/-- The least number of decimal places `k`, from `k` on, at which `num * 10 ^ k` reaches `den`. -/
def leadingPlaces (num den : Nat) : Nat → Nat → Nat
  | 0, k => k
  | fuel + 1, k => if den ≤ num * Nat.pow 10 k then k else leadingPlaces num den fuel (k + 1)

/-- The power of ten of the first digit of a positive magnitude. -/
def leadingExponent (rank : Nat) : Int :=
  let whole := units rank / Nat.pow 2 unitExponent
  if whole = 0 then -(leadingPlaces (units rank) (Nat.pow 2 unitExponent) 400 0 : Int)
  else decimalLength whole - 1

/-- The point of the grid with spacing `10 ^ k` that stands for the magnitude: inside its interval,
and the nearer one if two are. -/
def gridPoint? (tie : TieRule) (rank : Nat) (k : Int) : Option Nat :=
  let (num, den) := powerOfTen k
  -- the spacing of the grid is `step / den` units
  let step := num * Nat.pow 2 unitExponent
  let value := units rank * den
  let lower := value / step
  let inside (n : Nat) := (interval rank).contains (4 * n * step) den
  let twice := 2 * (value % step)
  let upper :=
    if twice = step then
      match tie with
      | .up => true
      | .even => lower % 2 = 1
    else decide (step < twice)
  match inside lower, inside (lower + 1) with
  | true, true => some (if upper then lower + 1 else lower)
  | true, false => some lower
  | false, true => some (lower + 1)
  | false, false => none

/-- The first grid with a point, from spacing `10 ^ k` on toward finer ones. -/
def firstGrid (tie : TieRule) (rank : Nat) : Nat → Int → Nat × Int
  | 0, k => (0, k)
  | fuel + 1, k =>
    match gridPoint? tie rank k with
    | some digits => (digits, k)
    | none => firstGrid tie rank fuel (k - 1)

/-- Moves the zeros at the end of the digits into the power of ten. -/
def dropTrailingZeros : Nat → Nat → Int → Nat × Int
  | 0, digits, k => (digits, k)
  | fuel + 1, digits, k =>
    if digits ≠ 0 && digits % 10 = 0 then dropTrailingZeros fuel (digits / 10) (k + 1)
    else (digits, k)

/-- The fewest digits that read back to a positive magnitude, and the power of ten of the last one.
Seventeen digits always suffice; eighteen grids are tried because the first may lie one place too
high. -/
def shortest (tie : TieRule) (rank : Nat) : Nat × Int :=
  let (digits, k) := firstGrid tie rank 18 (leadingExponent rank)
  dropTrailingZeros 18 digits k

/-! ## Layouts -/

/-- A run of zeros. -/
def zeros (n : Nat) : List Char := List.replicate n '0'

/-- The minus sign, if there is one. -/
def signChars (negative : Bool) : List Char := if negative then ['-'] else []

/-- Digits with their point, `digits * 10 ^ k`; whole numbers have no point. -/
def positional (digits : List Char) (k : Int) : List Char :=
  if 0 ≤ k then digits ++ zeros k.natAbs
  else
    let places := k.natAbs
    if places < digits.length then
      digits.take (digits.length - places) ++ '.' :: digits.drop (digits.length - places)
    else '0' :: '.' :: zeros (places - digits.length) ++ digits

/-- The text without an exponent: the shortest digits, no point on whole numbers. -/
def plainText : Binary64 → String
  | .nan => "NaN"
  | .infinite negative => String.ofList (signChars negative ++ "inf".toList)
  | .finite negative rank =>
    if rank.val = 0 then String.ofList (signChars negative ++ ['0'])
    else
      let (digits, k) := shortest .up rank
      String.ofList (signChars negative ++ positional (Nat.toDigits 10 digits) k)

end BoundSql.Binary64
