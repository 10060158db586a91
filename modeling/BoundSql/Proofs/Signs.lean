import BoundSql.Binary64.Decimal
import Mathlib.Data.Int.Notation
import Mathlib.Data.Nat.Notation
import Mathlib.Tactic.Lemma

/-!
# Signs in front of digits

Whole numbers are written with an optional plus or minus sign, which is split off before the digits
are read.

## Main definitions

* `BoundSql.signedInt` — the whole number with a sign and a magnitude.

## Main results

* `BoundSql.splitSign_append` — a sign in front of a digit is split off.
* `BoundSql.exists_sign` — what is split off is a sign, or nothing.
-/

namespace BoundSql

/-- The signs, and no sign. -/
def signs : List (List Char) := [[], ['+'], ['-']]

/-- The whole number with a sign and a magnitude. -/
def signedInt (negative : Bool) (magnitude : ℕ) : ℤ := if negative then -magnitude else magnitude

/-- A sign in front does not change the magnitude. -/
lemma natAbs_signedInt (negative : Bool) (magnitude : ℕ) :
    (signedInt negative magnitude).natAbs = magnitude := by
  cases negative with
  | false => exact Int.natAbs_natCast magnitude
  | true => exact (Int.natAbs_neg _).trans (Int.natAbs_natCast magnitude)

/-- An integer is its magnitude with its sign in front. -/
lemma signedInt_natAbs (n : ℤ) : signedInt (n < 0) n.natAbs = n := by
  unfold signedInt
  by_cases hn : n < 0
  · rw [if_pos (by simpa using hn)]
    omega
  · rw [if_neg (by simpa using hn)]
    omega

/-- A sign is split off in front of a digit. -/
lemma splitSign_append {sign chars : List Char} (hsign : sign ∈ signs)
    (hchars : ∀ c ∈ chars.head?, isDigit c = true) :
    splitSign (sign ++ chars) = (decide (sign = ['-']), chars) := by
  simp only [signs, List.mem_cons, List.not_mem_nil, or_false] at hsign
  obtain rfl | rfl | rfl := hsign
  · rw [List.nil_append]
    unfold splitSign
    split
    next => exact absurd (hchars '-' rfl) (by decide)
    next => exact absurd (hchars '+' rfl) (by decide)
    next => rfl
  · rfl
  · rfl

/-- What is split off in front of the rest is a sign, or nothing. -/
lemma exists_sign (chars : List Char) :
    ∃ sign ∈ signs, chars = sign ++ (splitSign chars).2 ∧
      (splitSign chars).1 = decide (sign = ['-']) := by
  unfold splitSign
  split
  next rest => exact ⟨['-'], by decide, rfl, rfl⟩
  next rest => exact ⟨['+'], by decide, rfl, rfl⟩
  next => exact ⟨[], by decide, rfl, rfl⟩

end BoundSql
