import BoundSql.Proofs.Binary64.Ranks
import Mathlib.Algebra.Order.Field.Power
import Mathlib.Tactic.Positivity

/-!
# The shortest digits stand for their number

The search for the shortest digits always ends at a point of the cell it searches: a grid whose
spacing is a quarter of the gap to the next magnitude has a point there, and the eighteenth grid is
that fine. The digits that are printed therefore determine the magnitude.

## Main results

* `BoundSql.Binary64.shortest_mem_cell` — the digits of a positive magnitude round to it.
* `BoundSql.Binary64.shortest_pos` — they are not zero.
-/

namespace BoundSql.Binary64

/-! ## Grids -/

/-- The two numbers of a power of ten have it as their ratio. -/
lemma powerOfTen_spec (k : ℤ) :
    0 < (powerOfTen k).2 ∧ ((powerOfTen k).1 : ℚ) = 10 ^ k * (powerOfTen k).2 := by
  cases k with
  | ofNat n => exact ⟨Nat.one_pos, by simp [powerOfTen]⟩
  | negSucc n =>
    refine ⟨Nat.pow_pos (by decide), ?_⟩
    simp only [powerOfTen, Nat.pow_eq, zpow_negSucc, Nat.cast_pow, Nat.cast_ofNat, Nat.cast_one]
    exact (inv_mul_cancel₀ (by positivity)).symm

variable {tie : TieRule} {rank : ℕ} {k : ℤ} {digits n : ℕ}

/-- The test on a grid point is membership in the cell. -/
lemma contains_grid_iff :
    (interval rank).contains (4 * n * ((powerOfTen k).1 * unitsPerOne)) (powerOfTen k).2 = true ↔
      (n * 10 ^ k : ℚ) ∈ cell rank := by
  obtain ⟨hpos, hnum⟩ := powerOfTen_spec k
  have hden : ((powerOfTen k).2 : ℚ) ≠ 0 := Nat.cast_ne_zero.2 hpos.ne'
  have hratio : ((4 * n * ((powerOfTen k).1 * unitsPerOne) : ℕ) : ℚ) / (powerOfTen k).2 =
      4 * unitsPerOne * (n * 10 ^ k) := by
    push_cast
    rw [hnum]
    field_simp
  rw [Interval.contains_iff hpos, hratio, mem_cell_iff]

/-- A choice between two numbers is one of them. -/
lemma eq_or_eq_of_ite_eq {p : Prop} [Decidable p] {a b c : ℕ} (h : (if p then a else b) = c) :
    c = a ∨ c = b := by
  rw [← h]
  exact ite_eq_or_eq p a b

/-- A point of a grid lies in the cell. -/
lemma mem_cell_of_gridPoint? (h : gridPoint? tie rank k = some digits) :
    (digits * 10 ^ k : ℚ) ∈ cell rank := by
  rw [← contains_grid_iff]
  unfold gridPoint? at h
  rw [pow_unitExponent] at h
  dsimp only at h
  split at h
  next hlower hupper =>
    obtain hchoice | hchoice := eq_or_eq_of_ite_eq (Option.some.inj h)
    · rw [hchoice]
      exact hupper
    · rw [hchoice]
      exact hlower
  next hlower _ =>
    obtain rfl := Option.some.inj h
    exact hlower
  next _ hupper =>
    obtain rfl := Option.some.inj h
    exact hupper
  next => cases h

/-- Units are a significand times the gap, and the gap is not larger. -/
lemma two_pow_scale_le_units (h : 0 < rank) : 2 ^ scale rank ≤ units rank := by
  have hsignificand : 0 < significand rank := by
    simp only [significand, Nat.pow_eq]
    split <;> omega
  exact Nat.le_mul_of_pos_left _ hsignificand

/-- From a magnitude a quarter of the gap can be taken away. -/
lemma low_le (h : 0 < rank) : ((interval rank).low : ℚ) ≤ 4 * units rank - 2 ^ scale rank := by
  have hunits := two_pow_scale_le_units h
  have hnat : (interval rank).low + 2 ^ scale rank ≤ 4 * units rank := by
    simp only [interval, Nat.pow_eq]
    split <;> omega
  have hcast : ((interval rank).low : ℚ) + 2 ^ scale rank ≤ 4 * units rank := by
    exact_mod_cast hnat
  linarith

/-- The upper end lies above the magnitude. -/
lemma lt_high : (4 * units rank : ℚ) < (interval rank).high := by
  have hgap : 0 < 2 ^ scale rank := Nat.two_pow_pos _
  have hnat : 4 * units rank < (interval rank).high := by
    simp only [interval, Nat.pow_eq]
    omega
  exact_mod_cast hnat

/-- A grid whose spacing is a quarter of the gap has a point in the cell: the one below the
magnitude. -/
lemma gridPoint?_isSome (h : 0 < rank) (hfine : (4 * unitsPerOne * 10 ^ k : ℚ) ≤ 2 ^ scale rank) :
    (gridPoint? tie rank k).isSome := by
  obtain ⟨hpos, hnum⟩ := powerOfTen_spec k
  have hden : (0 : ℚ) < (powerOfTen k).2 := Nat.cast_pos.2 hpos
  obtain ⟨step, hstep_eq⟩ : ∃ step, (powerOfTen k).1 * unitsPerOne = step := ⟨_, rfl⟩
  obtain ⟨lower, hlower_eq⟩ : ∃ lower, units rank * (powerOfTen k).2 / step = lower := ⟨_, rfl⟩
  have hstep : (step : ℚ) = unitsPerOne * 10 ^ k * (powerOfTen k).2 := by
    rw [← hstep_eq, Nat.cast_mul, hnum]
    ring
  have hone : (0 : ℚ) < unitsPerOne := Nat.cast_pos.2 unitsPerOne_pos
  have hstep_pos : 0 < step := by
    have hcast : (0 : ℚ) < step := by
      rw [hstep]
      positivity
    exact_mod_cast hcast
  have hbelow : (unitsPerOne * (lower * 10 ^ k) : ℚ) ≤ units rank := by
    have hnat : lower * step ≤ units rank * (powerOfTen k).2 := by
      rw [← hlower_eq]
      exact Nat.div_mul_le_self _ _
    have hcast : (lower : ℚ) * step ≤ units rank * (powerOfTen k).2 := by exact_mod_cast hnat
    rw [hstep] at hcast
    exact le_of_mul_le_mul_right (by linarith) hden
  have habove : (units rank : ℚ) < unitsPerOne * (lower * 10 ^ k) + unitsPerOne * 10 ^ k := by
    have hnat : units rank * (powerOfTen k).2 < (lower + 1) * step := by
      rw [← hlower_eq, Nat.mul_comm _ step]
      exact Nat.lt_mul_div_succ _ hstep_pos
    have hcast : (units rank * (powerOfTen k).2 : ℚ) < (lower + 1) * step := by exact_mod_cast hnat
    rw [hstep] at hcast
    exact lt_of_mul_lt_mul_right (by linarith) hden.le
  have hmem : (interval rank).contains (4 * lower * step) (powerOfTen k).2 = true := by
    rw [← hstep_eq]
    refine contains_grid_iff.2 (Interval.mem_points_of_mem_Ioo ⟨?_, ?_⟩)
    · exact lt_of_le_of_lt (low_le h) (by linarith)
    · exact lt_of_le_of_lt (by linarith) lt_high
  unfold gridPoint?
  rw [pow_unitExponent]
  dsimp only
  rw [hstep_eq, hlower_eq, hmem]
  split
  next => rfl
  next => rfl
  next hfalse _ => cases hfalse
  next hfalse _ => cases hfalse

/-- The search ends at a point if one of the grids it looks at has one. -/
lemma gridPoint?_firstGrid : ∀ (fuel : ℕ) (k : ℤ),
    (∃ j < fuel, (gridPoint? tie rank (k - j)).isSome) →
    gridPoint? tie rank (firstGrid tie rank fuel k).2 = some (firstGrid tie rank fuel k).1
  | 0, _, h => by
    obtain ⟨j, hj, -⟩ := h
    exact absurd hj (Nat.not_lt_zero j)
  | fuel + 1, k, h => by
    unfold firstGrid
    split
    next digits hpoint => exact hpoint
    next hnone =>
      obtain ⟨j, hj, hsome⟩ := h
      cases j with
      | zero =>
        rw [Nat.cast_zero, sub_zero, hnone] at hsome
        cases hsome
      | succ i =>
        refine gridPoint?_firstGrid fuel (k - 1) ⟨i, by omega, ?_⟩
        rwa [show k - 1 - (i : ℤ) = k - (i + 1 : ℕ) by push_cast; ring]

/-! ## The first digit -/

/-- The number of places reaches the denominator if the last one tried does. -/
lemma le_mul_leadingPlaces {num den : ℕ} : ∀ fuel k : ℕ, den ≤ num * 10 ^ (k + fuel) →
    den ≤ num * 10 ^ leadingPlaces num den fuel k
  | 0, k, h => h
  | fuel + 1, k, h => by
    unfold leadingPlaces
    split
    next hreached => exact hreached
    next => exact le_mul_leadingPlaces fuel (k + 1) (by rwa [Nat.add_right_comm])

/-- A number is at least the power of ten of its first digit. -/
lemma ten_pow_decimalLength_le {n : ℕ} (h : 0 < n) : 10 ^ (decimalLength n - 1) ≤ n := by
  unfold decimalLength
  rw [if_neg h.ne']
  by_contra hlt
  obtain hone | hmore := Nat.eq_zero_or_pos ((Nat.toDigits 10 n).length - 1)
  · rw [hone] at hlt
    omega
  · have hshort := (Nat.length_toDigits_le_iff (by decide) hmore).2 (not_le.1 hlt)
    omega

/-- The smallest magnitude has its first digit among the first four hundred places. -/
lemma unitsPerOne_le : unitsPerOne ≤ 10 ^ (0 + 400) := by
  unfold unitsPerOne
  decide +kernel

/-- A magnitude is at least the power of ten of its first digit. -/
lemma ten_zpow_leadingExponent_le (h : 0 < rank) :
    (10 ^ leadingExponent rank * unitsPerOne : ℚ) ≤ units rank := by
  have hunits : 0 < units rank := Nat.lt_of_lt_of_le (Nat.two_pow_pos _) (two_pow_scale_le_units h)
  unfold leadingExponent
  rw [pow_unitExponent]
  dsimp only
  split
  next hsmall =>
    have hreached := le_mul_leadingPlaces 400 0
      (unitsPerOne_le.trans (Nat.le_mul_of_pos_left _ hunits))
    have hcast : (unitsPerOne : ℚ) ≤
        units rank * 10 ^ leadingPlaces (units rank) unitsPerOne 400 0 := by
      exact_mod_cast hreached
    rw [zpow_neg, zpow_natCast, inv_mul_le_iff₀ (by positivity)]
    linarith
  next hlarge =>
    have hwhole : 0 < units rank / unitsPerOne := Nat.pos_of_ne_zero hlarge
    have hlength : 0 < decimalLength (units rank / unitsPerOne) := by
      unfold decimalLength
      rw [if_neg hlarge]
      exact Nat.length_toDigits_pos
    have hfirst := ten_pow_decimalLength_le hwhole
    have hnat := (Nat.mul_le_mul_right unitsPerOne hfirst).trans (Nat.div_mul_le_self _ _)
    rw [show ((decimalLength (units rank / unitsPerOne) : ℕ) : ℤ) - 1 =
      (decimalLength (units rank / unitsPerOne) - 1 : ℕ) by omega, zpow_natCast]
    exact_mod_cast hnat

/-- The eighteenth grid is fine enough. -/
lemma exists_gridPoint? (h : 0 < rank) :
    ∃ j < (18 : ℕ), (gridPoint? tie rank (leadingExponent rank - j)).isSome := by
  refine ⟨17, by decide, gridPoint?_isSome h ?_⟩
  have hleading := ten_zpow_leadingExponent_le h
  have hunits : (units rank : ℚ) ≤ 2 ^ 53 * 2 ^ scale rank := by
    exact_mod_cast Nat.mul_le_mul_right (2 ^ scale rank) (significand_lt rank).le
  rw [zpow_sub₀ (by norm_num)]
  norm_num at hleading hunits ⊢
  linarith

/-! ## The digits -/

/-- Moving zeros into the power of ten keeps the magnitude. -/
lemma dropTrailingZeros_value : ∀ (fuel digits : ℕ) (k : ℤ),
    ((dropTrailingZeros fuel digits k).1 * 10 ^ (dropTrailingZeros fuel digits k).2 : ℚ) =
      digits * 10 ^ k
  | 0, _, _ => rfl
  | fuel + 1, digits, k => by
    unfold dropTrailingZeros
    split
    next hzero =>
      simp only [Bool.and_eq_true, decide_eq_true_eq] at hzero
      have hdigits : digits = 10 * (digits / 10) := by omega
      rw [dropTrailingZeros_value fuel (digits / 10) (k + 1), zpow_add_one₀ (by norm_num)]
      conv_rhs => rw [hdigits]
      push_cast
      ring
    next => rfl

/-- The digits of a positive magnitude round to it. -/
theorem shortest_mem_cell (tie : TieRule) (h : 0 < rank) :
    ((shortest tie rank).1 * 10 ^ (shortest tie rank).2 : ℚ) ∈ cell rank := by
  unfold shortest
  rw [dropTrailingZeros_value]
  exact mem_cell_of_gridPoint? (gridPoint?_firstGrid 18 _ (exists_gridPoint? h))

/-- Zero rounds to rank zero. -/
lemma zero_mem_cell : (0 : ℚ) ∈ cell 0 := by
  simp [cell, interval, Interval.points, units, significand, scale]

/-- The digits of a positive magnitude are not zero. -/
theorem shortest_pos (tie : TieRule) (h : 0 < rank) : 0 < (shortest tie rank).1 := by
  refine Nat.pos_of_ne_zero fun hzero => ?_
  have hmem := shortest_mem_cell tie h
  rw [hzero, Nat.cast_zero, zero_mul] at hmem
  exact h.ne (eq_of_mem_cell zero_mem_cell hmem)

end BoundSql.Binary64
