/-!
# Double-precision numbers

The reals that a statement binds are the numbers of the binary format with a 53-bit significand and
exponents down to `2 ^ -1074`. Every finite magnitude of that format is a whole number of *units*,
the smallest positive magnitude being one unit, so all arithmetic on them is exact arithmetic on
natural numbers.

A finite number is stored as a sign and the *rank* of its magnitude: the position among all finite
magnitudes, counted upward from zero. No pair of ranks stands for the same magnitude and no
invariant has to be kept beside the bound.

## Main definitions

* `BoundSql.Binary64` — the numbers: finite ones by sign and rank, the two infinities, not-a-number.
* `BoundSql.Binary64.units` — the magnitude of a rank in units.
* `BoundSql.Binary64.roundUnits` — the number nearest to a ratio of units.
* `BoundSql.Binary64.equal` — equality as arithmetic has it.
-/

namespace BoundSql

/-- How many finite magnitudes the format has. -/
def Binary64.finiteCount : Nat := 2047 * Nat.pow 2 52

/-- A number of the double-precision format. -/
inductive Binary64 where
  /-- The result that is no number. -/
  | nan
  /-- An infinity of the given sign. -/
  | infinite (negative : Bool)
  /-- A finite number, zero included, by sign and rank of its magnitude. -/
  | finite (negative : Bool) (rank : Fin Binary64.finiteCount)
deriving DecidableEq, Repr

namespace Binary64

/-! ## Magnitudes -/

/-- The binary exponent of a rank, counted from the smallest unit. -/
def scale (rank : Nat) : Nat := rank / Nat.pow 2 52 - 1

/-- The significand of a rank: 53 bits long except below the smallest normal magnitude. -/
def significand (rank : Nat) : Nat :=
  if rank < Nat.pow 2 52 then rank else Nat.pow 2 52 + rank % Nat.pow 2 52

/-- The magnitude of a rank in units. -/
def units (rank : Nat) : Nat := significand rank * Nat.pow 2 (scale rank)

/-- The exponent of the unit: one unit is `2 ^ -1074`. -/
def unitExponent : Nat := 1074

/-- Positive or negative zero. -/
def zero (negative : Bool) : Binary64 := .finite negative ⟨0, by decide⟩

/-- Whether a number is neither infinite nor the result that is no number. -/
def isFinite : Binary64 → Bool
  | .finite _ _ => true
  | _ => false

/-- Whether a number carries a minus sign. -/
def isNegative : Binary64 → Bool
  | .nan => false
  | .infinite negative => negative
  | .finite negative _ => negative

/-- Equality of values: the two zeros are equal, and not-a-number equals nothing. -/
def equal : Binary64 → Binary64 → Bool
  | .finite s a, .finite t b => a = b && (s = t || a.val = 0)
  | .infinite s, .infinite t => s = t
  | _, _ => false

/-! ## Rounding -/

/-- The number of binary digits of a natural number; zero has none. -/
def bitLength (n : Nat) : Nat := if n = 0 then 0 else n.log2 + 1

/-- The whole number nearest to `num / den`; a tie goes to the even neighbour. -/
def roundQuotient (num den : Nat) : Nat :=
  let quotient := num / den
  let twice := 2 * (num % den)
  if twice < den then quotient
  else if den < twice then quotient + 1
  else quotient + quotient % 2

/-- A ratio of units rounded to a significand of `digits` bits whose exponent is at least `lowest`:
the significand and its exponent. The significand may come out as `2 ^ digits`. -/
def roundSignificand (digits lowest num den : Nat) : Nat × Nat :=
  let exponent := max lowest (bitLength (num / den) - digits)
  (roundQuotient num (den * Nat.pow 2 exponent), exponent)

/-- The number of rank `rank`, or an infinity when there is no such rank. -/
def ofRank (negative : Bool) (rank : Nat) : Binary64 :=
  if h : rank < finiteCount then .finite negative ⟨rank, h⟩ else .infinite negative

/-- The number nearest to `num / den` units. Ranks count magnitudes upward, so a significand that
rounds up to the next power of two lands on the right rank, and one too large on an infinity. -/
def roundUnits (negative : Bool) (num den : Nat) : Binary64 :=
  let (significand, exponent) := roundSignificand 53 0 num den
  ofRank negative (exponent * Nat.pow 2 52 + significand)

/-- The number nearest to `num / den`. -/
def ofRatio (negative : Bool) (num den : Nat) : Binary64 :=
  roundUnits negative (num * Nat.pow 2 unitExponent) den

/-- The number nearest to `num / den` among those of the single-precision format, whose significands
have 24 bits and whose exponents start at `2 ^ -149`. -/
def ofRatioSingle (negative : Bool) (num den : Nat) : Binary64 :=
  let (significand, exponent) :=
    roundSignificand 24 (unitExponent - 149) (num * Nat.pow 2 unitExponent) den
  let magnitude := significand * Nat.pow 2 exponent
  if magnitude < Nat.pow 2 (unitExponent + 128) then roundUnits negative magnitude 1
  else .infinite negative

/-- The number nearest to a natural number. -/
def ofNat (n : Nat) : Binary64 := ofRatio false n 1

/-- The rounded product. -/
def mul : Binary64 → Binary64 → Binary64
  | .finite s a, .finite t b =>
    roundUnits (s != t) (units a * units b) (Nat.pow 2 unitExponent)
  | .nan, _ => .nan
  | _, .nan => .nan
  | .infinite s, .infinite t => .infinite (s != t)
  | .infinite s, .finite t b => if b.val = 0 then .nan else .infinite (s != t)
  | .finite s a, .infinite t => if a.val = 0 then .nan else .infinite (s != t)

/-- The rounded quotient of finite numbers by a finite number other than zero; every other division
answers not-a-number, since no caller divides so. -/
def div : Binary64 → Binary64 → Binary64
  | .finite s a, .finite t b =>
    if b.val = 0 then .nan
    else roundUnits (s != t) (units a * Nat.pow 2 unitExponent) (units b)
  | _, _ => .nan

/-- The number with the opposite sign. -/
def neg : Binary64 → Binary64
  | .nan => .nan
  | .infinite s => .infinite !s
  | .finite s a => .finite (!s) a

end Binary64

end BoundSql
