import BoundSql.Json.Reader
import BoundSql.Proofs.Json.Reals

/-!
# Where the printer and the reader of numbers agree

The printer writes the shortest literal that rounds to a real. The reader does not round the literal
once: it rounds its digits and a power of ten, and then their product or quotient. The two agree
where only the last of these roundings changes anything, which is so for every literal of less than
`2 ^ 53` whose last digit counts a power of ten up to the twenty-second.

## Main results

* `BoundSql.Binary64.units_natRank` — natural numbers below `2 ^ 53` are not rounded.
* `BoundSql.Json.scaleByTen_eq` — scaling by an exact power of ten rounds once.
* `BoundSql.Json.agreeOn_of_lt` — the two agree on reals with short literals.
-/

namespace BoundSql

namespace Binary64

/-! ## Exact numbers -/

/-- A magnitude rounds to its own rank. -/
lemma units_div_mem_cell (rank : ℕ) : (units rank / unitsPerOne : ℚ) ∈ cell rank := by
  obtain rfl | hpos := Nat.eq_zero_or_pos rank
  · have hzero : units 0 = 0 := by decide
    rw [hzero, Nat.cast_zero, zero_div]
    exact zero_mem_cell
  · have hone : (unitsPerOne : ℚ) ≠ 0 := Nat.cast_ne_zero.2 unitsPerOne_pos.ne'
    have hquarters : 4 * unitsPerOne * (units rank / unitsPerOne : ℚ) = 4 * units rank := by
      field_simp
    have hgap : (0 : ℚ) < 2 ^ scale rank := by positivity
    have hlow := low_le hpos
    rw [mem_cell_iff, hquarters]
    exact Interval.mem_points_of_mem_Ioo ⟨by linarith, lt_high⟩

/-- The first ranks are their own magnitudes. -/
lemma units_eq_self {rank : ℕ} (h : rank < 2 ^ 53) : units rank = rank := by
  have hscale : scale rank = 0 := by
    simp only [scale, Nat.pow_eq]
    omega
  have hsignificand := scale_mul_add_significand rank
  rw [hscale, Nat.zero_mul, Nat.zero_add] at hsignificand
  rw [units, hscale, hsignificand]
  exact Nat.mul_one rank

/-- Twice a magnitude is a magnitude. -/
lemma exists_units_eq_two_mul (rank : ℕ) : ∃ double, units double = 2 * units rank := by
  by_cases hsmall : rank < 2 ^ 52
  · exact ⟨2 * rank, by rw [units_eq_self (by omega), units_eq_self (by omega)]⟩
  · refine ⟨rank + 2 ^ 52, ?_⟩
    have hscale : scale (rank + 2 ^ 52) = scale rank + 1 := by
      simp only [scale, Nat.pow_eq]
      omega
    have hsignificand : significand (rank + 2 ^ 52) = significand rank := by
      simp only [significand, Nat.pow_eq]
      split_ifs <;> omega
    simp only [units, Nat.pow_eq, hscale, hsignificand]
    ring

/-- A number of 53 bits with zeros behind it is a magnitude. -/
lemma exists_units_eq {n : ℕ} (h : n < 2 ^ 53) (p : ℕ) :
    ∃ rank, units rank = n * Nat.pow 2 p := by
  induction p with
  | zero => exact ⟨n, (units_eq_self h).trans (Nat.mul_one n).symm⟩
  | succ p ih =>
    obtain ⟨rank, hrank⟩ := ih
    obtain ⟨double, hdouble⟩ := exists_units_eq_two_mul rank
    refine ⟨double, ?_⟩
    rw [hdouble, hrank, Nat.pow_eq, Nat.pow_eq, pow_succ]
    ring

/-- Natural numbers below `2 ^ 53` are not rounded. -/
theorem units_natRank {n : ℕ} (h : n < 2 ^ 53) : units (natRank n) = n * unitsPerOne := by
  obtain ⟨rank, hrank⟩ := exists_units_eq h unitExponent
  rw [pow_unitExponent] at hrank
  have hone : (unitsPerOne : ℚ) ≠ 0 := Nat.cast_ne_zero.2 unitsPerOne_pos.ne'
  have hcell := units_div_mem_cell rank
  rw [hrank, Nat.cast_mul, mul_div_cancel_right₀ _ hone] at hcell
  rw [natRank_eq_iff.2 hcell, hrank]

end Binary64

namespace Json

open Binary64

variable {n k rank : ℕ}

/-- Powers of ten are not rounded up to the twenty-second, the last one with a factor `5 ^ k` below
`2 ^ 53`. -/
lemma units_natRank_pow (hk : k ≤ 22) : units (natRank (10 ^ k)) = 10 ^ k * unitsPerOne := by
  have htable : ∀ k < 23, units (natRank (10 ^ k)) = 10 ^ k * unitsPerOne := by
    delta unitsPerOne
    decide +kernel
  exact htable k (by omega)

/-! ## One rounding -/

/-- A product of numbers that are not rounded is rounded once. -/
lemma mul_tenTo_eq (hn : n < 2 ^ 53) (hk : k ≤ 22) (hrank : rank < finiteCount)
    (hcell : (n * 10 ^ k : ℚ) ∈ cell rank) :
    (ofNat n).mul (tenTo k) = .finite false ⟨rank, hrank⟩ := by
  have hone : (unitsPerOne : ℚ) ≠ 0 := Nat.cast_ne_zero.2 unitsPerOne_pos.ne'
  have hproduct : ((n * unitsPerOne * (10 ^ k * unitsPerOne) : ℕ) /
      ((unitsPerOne : ℕ) * unitsPerOne) : ℚ) = n * 10 ^ k := by
    push_cast
    field_simp
  have hround : roundRank (n * unitsPerOne * (10 ^ k * unitsPerOne)) unitsPerOne = rank :=
    (roundRank_eq_iff unitsPerOne_pos).2 (by rwa [hproduct])
  rw [ofNat_eq_finite (by decide) (le_of_lt_two_pow (by omega)), tenTo_eq_finite (by omega), mul,
    units_natRank hn, units_natRank_pow hk, pow_unitExponent, roundUnits_eq, hround]
  exact dif_pos hrank

/-- A quotient of numbers that are not rounded is rounded once. -/
lemma div_tenTo_eq (hn : n < 2 ^ 53) (hk : k ≤ 22) (hrank : rank < finiteCount)
    (hcell : (n / 10 ^ k : ℚ) ∈ cell rank) :
    (ofNat n).div (tenTo k) = .finite false ⟨rank, hrank⟩ := by
  have hone : (unitsPerOne : ℚ) ≠ 0 := Nat.cast_ne_zero.2 unitsPerOne_pos.ne'
  have hpower : 0 < 10 ^ k * unitsPerOne := Nat.mul_pos (Nat.pow_pos (by decide)) unitsPerOne_pos
  have hquotient : ((n * unitsPerOne * unitsPerOne : ℕ) /
      ((10 ^ k * unitsPerOne : ℕ) * unitsPerOne) : ℚ) = n / 10 ^ k := by
    push_cast
    field_simp
  have hround : roundRank (n * unitsPerOne * unitsPerOne) (10 ^ k * unitsPerOne) = rank :=
    (roundRank_eq_iff hpower).2 (by rwa [hquotient])
  have hdivisor : natRank (10 ^ k) ≠ 0 := by
    intro hzero
    have hunits := units_natRank_pow hk
    rw [hzero] at hunits
    exact hpower.ne' hunits.symm
  rw [ofNat_eq_finite (by decide) (le_of_lt_two_pow (by omega)), tenTo_eq_finite (by omega), div,
    if_neg hdivisor, units_natRank hn, units_natRank_pow hk, pow_unitExponent, roundUnits_eq,
    hround]
  exact dif_pos hrank

/-- **Scaling by an exact power of ten rounds once**: the result is the real in whose cell the exact
magnitude lies. -/
theorem scaleByTen_eq {e : ℤ} (hn : n < 2 ^ 53) (he : e.natAbs ≤ 22) (hrank : rank < finiteCount)
    (hcell : (n * 10 ^ e : ℚ) ∈ cell rank) (steps : ℕ) :
    scaleByTen (steps + 1) (ofNat n) e = some (.finite false ⟨rank, hrank⟩) := by
  unfold scaleByTen
  rw [if_pos (he.trans (by decide))]
  by_cases hneg : e < 0
  · have hcell' : (n / 10 ^ e.natAbs : ℚ) ∈ cell rank := by
      have hsign : e = -(e.natAbs : ℤ) := by omega
      rwa [hsign, zpow_neg, zpow_natCast, ← div_eq_mul_inv] at hcell
    rw [if_pos hneg, div_tenTo_eq hn he hrank hcell']
  · have hcell' : (n * 10 ^ e.natAbs : ℚ) ∈ cell rank := by
      rwa [← Int.natAbs_of_nonneg (not_lt.1 hneg), zpow_natCast] at hcell
    rw [if_neg hneg, mul_tenTo_eq hn he hrank hcell']
    exact if_pos rfl

/-! ## Agreement -/

/-- **The printer and the reader of numbers agree on the reals with short literals.** The digits of
such a literal all fit the significand, and neither they nor the power of ten of the last one are
rounded. -/
theorem agreeOn_of_lt {negative : Bool} {rank : Fin finiteCount} {number : Number}
    (hnumber : Number.ofRank negative rank = number)
    (hdigits : digitsValue 0 (number.whole ++ number.fraction) < 2 ^ 53)
    (hplace : number.lastPlace.natAbs ≤ 22) : AgreeOn (.finite negative rank) := by
  intro _
  obtain ⟨m, hcell, hdenotes⟩ := Number.exists_denotes_ofRank negative rank
  have hwhole := Number.length_whole_ofRank negative rank
  rw [hnumber] at hdenotes hwhole
  have habsorb : absorb (digitsValue 0 number.whole) number.fraction =
      (digitsValue 0 (number.whole ++ number.fraction), number.fraction.length) := by
    rw [digitsValue_append] at hdigits ⊢
    exact absorb_eq_of_lt _ _ (hdigits.trans (by decide))
  rw [← hdenotes.magnitude] at hcell
  have hscaled := scaleByTen_eq hdigits hplace rank.isLt hcell 3
  rw [Number.lastPlace] at hscaled
  change (Number.ofRank negative rank).toNumeral? = _
  rw [hnumber, hdenotes.toNumeral?_eq hwhole habsorb, hscaled]
  cases negative <;> rfl

/-- Behind the twenty-second place the power is rounded as well: `1e-28` is read as the next
real. -/
example : ¬ AgreeOn (.finite false ⟨0x3A1FB0F6BE506019, by decide⟩) := by
  rw [AgreeOn]
  decide +kernel

end Json

end BoundSql
