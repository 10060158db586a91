import BoundSql.Proofs.Binary64.Shortest
import BoundSql.Proofs.Binary64.Rounding

/-!
# Nearest numbers and overflow

A magnitude that rounds to a rank lies nearer to it than to any other rank, since the ends of its
interval are half way to its neighbours. Whole numbers from `2 ^ 1024 - 2 ^ 970` on round to no
finite number, and they exceed all of them.

## Main definitions

* `BoundSql.Binary64.toRat` — the value of a finite number.
* `BoundSql.Binary64.IsNearest` — a finite number that no other one is nearer than.
* `BoundSql.Binary64.overflowLimit` — where the whole numbers begin that are rounded to infinity.

## Main results

* `BoundSql.Binary64.isNearest_of_mem_cell` — rounding yields a nearest number.
* `BoundSql.Binary64.natRank_lt_finiteCount_iff` — whole numbers below the limit stay finite, and no
  other ones.
* `BoundSql.Binary64.abs_toRat_lt` — finite numbers lie below the limit.
* `BoundSql.Decimal.toBinary64_eq_ofRank` — the number of a literal of digits.
-/

namespace BoundSql

namespace Binary64

variable {r s : ℕ} {m : ℚ}

/-! ## Distances -/

/-- The upper end of an interval lies half way to the next magnitude. -/
lemma high_eq_two_mul (rank : ℕ) :
    (interval rank).high = 2 * (units rank + units (rank + 1)) := by
  rw [units_succ]
  simp only [interval, Nat.pow_eq]
  ring

/-- Magnitudes of a cell lie below the middle to any higher rank. -/
lemma four_mul_le_of_mem_cell (hm : m ∈ cell r) (h : r < s) :
    4 * unitsPerOne * m ≤ 2 * (units r + units s) := by
  have hnext : units (r + 1) ≤ units s := strictMono_units.monotone h
  have hhigh : ((interval r).high : ℚ) ≤ 2 * (units r + units s) := by
    rw [high_eq_two_mul]
    exact_mod_cast Nat.mul_le_mul_left 2 (Nat.add_le_add_left hnext (units r))
  exact (Interval.mem_Icc hm).2.trans hhigh

/-- Magnitudes of a cell lie above the middle to any lower rank. -/
lemma le_four_mul_of_mem_cell (hm : m ∈ cell r) (h : s < r) :
    2 * (units r + units s) ≤ 4 * unitsPerOne * m := by
  obtain ⟨below, rfl⟩ : ∃ below, r = below + 1 := ⟨r - 1, by omega⟩
  have hlower : units s ≤ units below := strictMono_units.monotone (Nat.le_of_lt_succ h)
  have hlow : (2 * (units (below + 1) + units s) : ℚ) ≤ (interval (below + 1)).low := by
    rw [interval_low_succ, high_eq_two_mul, Nat.add_comm (units below)]
    exact_mod_cast Nat.mul_le_mul_left 2 (Nat.add_le_add_left hlower (units (below + 1)))
  exact hlow.trans (Interval.mem_Icc hm).1

/-- Magnitudes are not negative. -/
lemma nonneg_of_mem_cell (hm : m ∈ cell r) : 0 ≤ m := by
  have hone : (0 : ℚ) < unitsPerOne := Nat.cast_pos.2 unitsPerOne_pos
  have hlow : (0 : ℚ) ≤ 4 * unitsPerOne * m :=
    le_trans (Nat.cast_nonneg _) (Interval.mem_Icc hm).1
  exact nonneg_of_mul_nonneg_right hlow (by linarith)

/-- A magnitude is not farther from the rank that it rounds to than from any other rank. -/
lemma abs_sub_le_of_mem_cell (hm : m ∈ cell r) (s : ℕ) :
    |(units r / unitsPerOne : ℚ) - m| ≤ |(units s / unitsPerOne : ℚ) - m| := by
  have hone : (0 : ℚ) < unitsPerOne := Nat.cast_pos.2 unitsPerOne_pos
  have hcast : ∀ t, (units t / unitsPerOne : ℚ) * unitsPerOne = units t :=
    fun t => div_mul_cancel₀ _ hone.ne'
  obtain hlower | rfl | hhigher := Nat.lt_trichotomy s r
  · have hmiddle := le_four_mul_of_mem_cell hm hlower
    have hle : (units s / unitsPerOne : ℚ) ≤ units r / unitsPerOne :=
      div_le_div_of_nonneg_right (by exact_mod_cast (strictMono_units hlower).le) hone.le
    have hhalf : (units r / unitsPerOne + units s / unitsPerOne : ℚ) ≤ 2 * m := by
      rw [← add_div, div_le_iff₀ hone]
      linarith
    have habs := neg_le_abs (units s / unitsPerOne - m : ℚ)
    exact abs_le.2 ⟨by linarith, by linarith⟩
  · exact le_refl _
  · have hmiddle := four_mul_le_of_mem_cell hm hhigher
    have hle : (units r / unitsPerOne : ℚ) ≤ units s / unitsPerOne :=
      div_le_div_of_nonneg_right (by exact_mod_cast (strictMono_units hhigher).le) hone.le
    have hhalf : 2 * m ≤ (units r / unitsPerOne + units s / unitsPerOne : ℚ) := by
      rw [← add_div, le_div_iff₀ hone]
      linarith
    have habs := le_abs_self (units s / unitsPerOne - m : ℚ)
    exact abs_le.2 ⟨by linarith, by linarith⟩

/-! ## Values -/

/-- The value with a sign and a magnitude. -/
def withSign (negative : Bool) (m : ℚ) : ℚ := if negative then -m else m

/-- The value of a finite number. -/
def toRat : Binary64 → ℚ
  | finite negative rank => withSign negative (units rank / unitsPerOne)
  | _ => 0

/-- A finite number is nearest to a value if no other finite number is nearer to it. -/
structure IsNearest (x : Binary64) (q : ℚ) : Prop where
  /-- The number is finite. -/
  isFinite : x.isFinite = true
  /-- The others are at least as far. -/
  le (y : Binary64) (hy : y.isFinite = true) : |x.toRat - q| ≤ |y.toRat - q|

/-- The distance from a magnitude does not grow if a sign is given to both. -/
lemma abs_withSign_sub (negative : Bool) (a b : ℚ) :
    |withSign negative a - withSign negative b| = |a - b| := by
  cases negative with
  | false => rfl
  | true =>
    have hneg : withSign true a - withSign true b = -(a - b) := by
      simp only [withSign, if_true]
      ring
    rw [hneg, abs_neg]

/-- A magnitude with another sign is farther away. -/
lemma abs_sub_le_abs_withSign_sub (negative other : Bool) {a b : ℚ} (ha : 0 ≤ a) (hb : 0 ≤ b) :
    |a - b| ≤ |withSign other a - withSign negative b| := by
  have hsum : |a - b| ≤ a + b := abs_le.2 ⟨by linarith, by linarith⟩
  cases negative <;> cases other <;> simp only [withSign, if_true, Bool.false_eq_true, if_false]
  · exact le_refl _
  · have hneg : -a - b = -(a + b) := by ring
    rw [hneg, abs_neg]
    exact hsum.trans (le_abs_self _)
  · rw [sub_neg_eq_add]
    exact hsum.trans (le_abs_self _)
  · have hneg : -a - -b = -(a - b) := by ring
    rw [hneg, abs_neg]

/-- **Rounding yields a nearest number**: a magnitude is nearest to the rank in whose cell it lies,
with either sign. -/
theorem isNearest_of_mem_cell {rank : Fin finiteCount} (hm : m ∈ cell rank) (negative : Bool) :
    (finite negative rank).IsNearest (withSign negative m) where
  isFinite := rfl
  le y hy := by
    cases y with
    | nan => cases hy
    | infinite => cases hy
    | finite other s =>
      have hmagnitude : (0 : ℚ) ≤ units s / unitsPerOne :=
        div_nonneg (Nat.cast_nonneg _) (Nat.cast_nonneg _)
      rw [toRat, toRat, abs_withSign_sub]
      exact (abs_sub_le_of_mem_cell hm s).trans
        (abs_sub_le_abs_withSign_sub negative other hmagnitude (nonneg_of_mem_cell hm))

/-! ## Overflow -/

/-- Where the whole numbers begin that are rounded to infinity. Sealed, as `unitsPerOne` is. -/
@[irreducible] def overflowLimit : ℕ := Nat.pow 2 1024 - Nat.pow 2 970

/-- The last interval ends at the limit. -/
lemma high_last : (interval (finiteCount - 1)).high = 4 * (overflowLimit * unitsPerOne) := by
  delta overflowLimit unitsPerOne
  decide +kernel

/-- **Whole numbers below the limit** are rounded to finite numbers, and no other ones are. -/
theorem natRank_lt_finiteCount_iff {n : ℕ} : natRank n < finiteCount ↔ n < overflowLimit := by
  have hlast : natRank n < finiteCount ↔ natRank n ≤ finiteCount - 1 := by
    have hpos : 0 < finiteCount := by decide
    omega
  have hodd : ¬ (finiteCount - 1) % 2 = 0 := by decide
  rw [hlast, natRank, roundRank_le_iff Nat.one_pos, high_last, pow_unitExponent, Nat.mul_one]
  constructor
  · rintro (hlt | ⟨-, heven⟩)
    · exact Nat.lt_of_mul_lt_mul_right (Nat.lt_of_mul_lt_mul_left hlt)
    · exact absurd heven hodd
  · intro hlt
    exact .inl (Nat.mul_lt_mul_of_pos_left (Nat.mul_lt_mul_of_pos_right hlt unitsPerOne_pos)
      (by decide))

/-- **Finite numbers lie below the limit.** -/
theorem abs_toRat_lt {x : Binary64} (hx : x.isFinite = true) : |x.toRat| < overflowLimit := by
  cases x with
  | nan => cases hx
  | infinite => cases hx
  | finite negative rank =>
    have hone : (0 : ℚ) < unitsPerOne := Nat.cast_pos.2 unitsPerOne_pos
    have hlast : units (finiteCount - 1) < overflowLimit * unitsPerOne := by
      delta overflowLimit unitsPerOne
      decide +kernel
    have hunits : units rank < overflowLimit * unitsPerOne :=
      (strictMono_units.monotone (Nat.le_sub_one_of_lt rank.isLt)).trans_lt hlast
    have habs : |(finite negative rank).toRat| = units rank / unitsPerOne := by
      have hzero : withSign negative 0 = 0 := by cases negative <;> simp [withSign]
      have hdistance := abs_withSign_sub negative (units rank / unitsPerOne) 0
      rw [hzero, sub_zero, sub_zero] at hdistance
      rw [toRat, hdistance, abs_of_nonneg (div_nonneg (Nat.cast_nonneg _) hone.le)]
    rw [habs, div_lt_iff₀ hone]
    exact_mod_cast hunits

end Binary64

open Binary64 in
/-- **The number of a literal of digits** is the one that its whole number rounds to. Literals that
are too long to be looked at round to an infinity as well. -/
theorem Decimal.toBinary64_eq_ofRank (negative : Bool) {n : ℕ} (hn : 0 < n) :
    (⟨negative, n, 0⟩ : Decimal).toBinary64 = ofRank negative (natRank n) := by
  have hpower : n * Nat.pow 10 (0 : ℤ).natAbs = n := Nat.mul_one n
  rw [toBinary64, roundWith]
  dsimp only
  rw [if_neg (by simp [hn.ne']), if_neg (by decide : ¬ (0 : ℤ) < 0), hpower]
  split
  next hlong =>
    have hlimit : overflowLimit ≤ 10 ^ 400 := by
      delta overflowLimit
      decide +kernel
    have hlength : 400 ≤ decimalLength n - 1 := by omega
    have hlarge : 10 ^ 400 ≤ n :=
      (pow_le_pow_right₀ (by decide) hlength).trans (ten_pow_decimalLength_le hn)
    have hinfinite : ¬ natRank n < finiteCount := by
      rw [natRank_lt_finiteCount_iff, Nat.not_lt]
      exact hlimit.trans hlarge
    rw [ofRank, dif_neg hinfinite]
  next => exact roundUnits_eq negative

end BoundSql
