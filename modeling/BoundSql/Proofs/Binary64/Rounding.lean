import BoundSql.Proofs.Binary64.Ranks

/-!
# Rounding is to the nearest

A ratio of units rounds to a rank exactly when it lies in the interval of the rank. So rounding
keeps the order, and whether a product or a quotient stays finite is decided at the largest
operands.

## Main definitions

* `BoundSql.Binary64.roundRank` — the rank that a ratio of units rounds to.
* `BoundSql.Binary64.natRank` — the rank that a natural number rounds to.

## Main results

* `BoundSql.Binary64.roundQuotient_le_iff` — rounding to a whole number, by a bound on the ratio.
* `BoundSql.Binary64.roundRank_le_iff` — rounding to a rank, by a bound on the ratio.
* `BoundSql.Binary64.roundRank_mono` — rounding keeps the order.
* `BoundSql.Binary64.roundRank_eq_iff` — a ratio rounds to the rank in whose cell it lies.
* `BoundSql.Binary64.isFinite_ofRank_iff` — a rank beyond the last one is an infinity.
-/

namespace BoundSql.Binary64

variable {num den num' den' n k e : ℕ}

/-! ## Whole numbers -/

/-- The rounded quotient is at most `n` when the ratio lies below `n + 1 / 2`, or on it and `n` is
even. -/
lemma roundQuotient_le_iff (hden : 0 < den) :
    roundQuotient num den ≤ n ↔
      2 * num < (2 * n + 1) * den ∨ (2 * num = (2 * n + 1) * den ∧ n % 2 = 0) := by
  have hdivision := Nat.div_add_mod num den
  have hremainder := Nat.mod_lt num hden
  have hbound : (2 * n + 1) * den = 2 * (den * n) + den := by ring
  unfold roundQuotient
  dsimp only
  rw [hbound]
  obtain hlt | heq | hgt := Nat.lt_trichotomy (num / den) n
  · have hproduct : den * (num / den + 1) ≤ den * n := Nat.mul_le_mul_left den hlt
    rw [Nat.mul_add] at hproduct
    split_ifs <;> omega
  · rw [heq] at hdivision ⊢
    split_ifs <;> omega
  · have hproduct : den * (n + 1) ≤ den * (num / den) := Nat.mul_le_mul_left den hgt
    rw [Nat.mul_add] at hproduct
    split_ifs <;> omega

/-- The rounded quotient is not below the whole part. -/
lemma div_le_roundQuotient : num / den ≤ roundQuotient num den := by
  unfold roundQuotient
  dsimp only
  split_ifs <;> omega

/-! ## Ranks -/

/-- A number has at most `k` binary digits when it lies below `2 ^ k`. -/
lemma bitLength_le_iff : bitLength n ≤ k ↔ n < 2 ^ k := by
  unfold bitLength
  split
  next hzero =>
    rw [hzero]
    exact ⟨fun _ => Nat.two_pow_pos k, fun _ => Nat.zero_le k⟩
  next hpos => exact Nat.log2_lt hpos

/-- The rank that a ratio of units rounds to. -/
def roundRank (num den : ℕ) : ℕ :=
  (roundSignificand 53 0 num den).2 * Nat.pow 2 52 + (roundSignificand 53 0 num den).1

/-- A ratio is rounded to the number of its rank. -/
lemma roundUnits_eq (negative : Bool) :
    roundUnits negative num den = ofRank negative (roundRank num den) := by
  unfold roundUnits roundRank
  split
  next significand exponent hrounded => rw [hrounded]

/-- The exponent of a ratio, beyond the 53 digits that stay. -/
lemma roundSignificand_snd :
    (roundSignificand 53 0 num den).2 = bitLength (num / den) - 53 := Nat.zero_max _

/-- The significand is the ratio rounded at the place of the exponent. -/
lemma roundSignificand_fst : (roundSignificand 53 0 num den).1 =
    roundQuotient num (den * 2 ^ (roundSignificand 53 0 num den).2) := by
  unfold roundSignificand
  dsimp only
  rw [Nat.pow_eq]

/-- The exponent is at most `e` when the ratio lies below `2 ^ (53 + e)`. -/
lemma roundSignificand_snd_le_iff (hden : 0 < den) :
    (roundSignificand 53 0 num den).2 ≤ e ↔ num < 2 ^ (53 + e) * den := by
  rw [roundSignificand_snd, Nat.sub_le_iff_le_add', bitLength_le_iff,
    Nat.div_lt_iff_lt_mul hden]

/-- The significand has at most 53 digits, or is the next power of two. -/
lemma roundSignificand_fst_le (hden : 0 < den) : (roundSignificand 53 0 num den).1 ≤ 2 ^ 53 := by
  have hnum := (roundSignificand_snd_le_iff hden).1 (le_refl (roundSignificand 53 0 num den).2)
  have hscaled : 0 < den * 2 ^ (roundSignificand 53 0 num den).2 :=
    Nat.mul_pos hden (Nat.two_pow_pos _)
  refine (roundQuotient_le_iff hscaled).2 (.inl ?_)
  rw [pow_add] at hnum
  calc 2 * num < 2 * (2 ^ 53 * 2 ^ (roundSignificand 53 0 num den).2 * den) := by linarith
    _ = 2 * 2 ^ 53 * (den * 2 ^ (roundSignificand 53 0 num den).2) := by ring
    _ ≤ (2 * 2 ^ 53 + 1) * (den * 2 ^ (roundSignificand 53 0 num den).2) :=
      Nat.mul_le_mul_right _ (Nat.le_succ _)

/-- A significand with an exponent has all 53 digits. -/
lemma le_roundSignificand_fst (hden : 0 < den) (hexponent : 0 < (roundSignificand 53 0 num den).2) :
    2 ^ 52 ≤ (roundSignificand 53 0 num den).1 := by
  obtain ⟨e, he⟩ : ∃ e, (roundSignificand 53 0 num den).2 = e + 1 :=
    ⟨(roundSignificand 53 0 num den).2 - 1, by omega⟩
  have hnum : 2 ^ (53 + e) * den ≤ num := by
    refine Nat.le_of_not_lt fun hlt => ?_
    have := (roundSignificand_snd_le_iff hden).2 hlt
    omega
  refine le_trans ?_ div_le_roundQuotient
  rw [Nat.zero_max, ← roundSignificand_snd, he, Nat.pow_eq,
    Nat.le_div_iff_mul_le (Nat.mul_pos hden (Nat.two_pow_pos _))]
  calc 2 ^ 52 * (den * 2 ^ (e + 1)) = 2 ^ (53 + e) * den := by ring
    _ ≤ num := hnum

/-- **The rank of a ratio** is at most `rank` when the ratio lies below the upper end of its
interval, or on it and the significand is even.

**Proof sketch.** On the scale of `rank` this is rounding to a whole number. A ratio of a lower
scale lies below all magnitudes of the scale of `rank`, and one of a higher scale above them. -/
theorem roundRank_le_iff (hden : 0 < den) {rank : ℕ} :
    roundRank num den ≤ rank ↔ 4 * num < (interval rank).high * den ∨
      (4 * num = (interval rank).high * den ∧ rank % 2 = 0) := by
  have hrank := scale_mul_add_significand rank
  have hsignificand := significand_lt rank
  have hfirst : (roundSignificand 53 0 num den).1 ≤ 2 ^ 53 := roundSignificand_fst_le hden
  have hparity := significand_mod_two rank
  rw [high_eq]
  unfold roundRank
  simp only [Nat.pow_eq]
  obtain hlower | hsame | hhigher :=
    Nat.lt_trichotomy (roundSignificand 53 0 num den).2 (scale rank)
  · have hfull := le_significand (Nat.zero_lt_of_lt hlower)
    have hnum := (roundSignificand_snd_le_iff hden).1 (Nat.le_sub_one_of_lt hlower)
    refine iff_of_true (by omega) (.inl ?_)
    calc 4 * num < 4 * (2 ^ (53 + (scale rank - 1)) * den) :=
          Nat.mul_lt_mul_of_pos_left hnum (by decide)
      _ = 4 * 2 ^ 52 * 2 ^ scale rank * den := by
          rw [show 53 + (scale rank - 1) = 52 + scale rank by omega, pow_add]
          ring
      _ ≤ (4 * significand rank + 2) * 2 ^ scale rank * den :=
          Nat.mul_le_mul_right _ (Nat.mul_le_mul_right _ (by omega))
  · have hquotient : roundQuotient num (den * 2 ^ scale rank) ≤ significand rank ↔ _ :=
      roundQuotient_le_iff (Nat.mul_pos hden (Nat.two_pow_pos _))
    have hend : (4 * significand rank + 2) * 2 ^ scale rank * den =
        2 * ((2 * significand rank + 1) * (den * 2 ^ scale rank)) := by ring
    rw [hend, roundSignificand_fst, hsame]
    omega
  · have hfull := le_roundSignificand_fst hden (Nat.zero_lt_of_lt hhigher)
    have hnum : 2 ^ (53 + scale rank) * den ≤ num :=
      Nat.le_of_not_lt fun hlt => absurd ((roundSignificand_snd_le_iff hden).2 hlt) (by omega)
    have habove : (4 * significand rank + 2) * 2 ^ scale rank * den < 4 * num :=
      calc (4 * significand rank + 2) * 2 ^ scale rank * den
          < 4 * 2 ^ 53 * 2 ^ scale rank * den :=
            Nat.mul_lt_mul_of_pos_right
              (Nat.mul_lt_mul_of_pos_right (by omega) (Nat.two_pow_pos _)) hden
        _ = 4 * (2 ^ (53 + scale rank) * den) := by
            rw [pow_add]
            ring
        _ ≤ 4 * num := Nat.mul_le_mul_left 4 hnum
    omega

/-- Rounding keeps the order. -/
theorem roundRank_mono (hden : 0 < den) (hden' : 0 < den') (h : num * den' ≤ num' * den) :
    roundRank num den ≤ roundRank num' den' := by
  have hprime := (roundRank_le_iff hden').1 (le_refl (roundRank num' den'))
  generalize roundRank num' den' = rank at hprime ⊢
  rw [roundRank_le_iff hden]
  obtain hbelow | ⟨hon, heven⟩ := hprime
  · left
    refine lt_of_mul_lt_mul_right (a := den') ?_ (Nat.zero_le _)
    calc 4 * num * den' ≤ 4 * num' * den := by linarith
      _ < (interval rank).high * den' * den := Nat.mul_lt_mul_of_pos_right hbelow hden
      _ = (interval rank).high * den * den' := by ring
  · have hle : 4 * num ≤ (interval rank).high * den := by
      refine le_of_mul_le_mul_right (a := den') ?_ hden'
      calc 4 * num * den' ≤ 4 * num' * den := by linarith
        _ = (interval rank).high * den' * den := by rw [hon]
        _ = (interval rank).high * den * den' := by ring
    exact (Nat.lt_or_eq_of_le hle).imp_right (⟨·, heven⟩)

/-- **Rounding is to the nearest.** A ratio of units rounds to a rank exactly when the magnitude
that it stands for lies in the cell of the rank. -/
theorem roundRank_eq_iff (hden : 0 < den) {rank : ℕ} :
    roundRank num den = rank ↔ (num / (den * unitsPerOne) : ℚ) ∈ cell rank := by
  have hden' : (0 : ℚ) < den := Nat.cast_pos.2 hden
  have hone : (0 : ℚ) < unitsPerOne := Nat.cast_pos.2 unitsPerOne_pos
  have hquarters : 4 * unitsPerOne * (num / (den * unitsPerOne) : ℚ) = (4 * num : ℕ) / den := by
    push_cast
    field_simp
  have hclosed : (interval rank).closed = decide (rank % 2 = 0) := by
    rw [← significand_mod_two]
    rfl
  have hupper : roundRank num den ≤ rank ↔ _ := roundRank_le_iff hden
  rw [mem_cell_iff, hquarters, ← Interval.contains_iff hden, Interval.contains, hclosed]
  simp only [decide_eq_true_eq]
  cases rank with
  | zero =>
    have hlow : (interval 0).low = 0 := by decide
    rw [hlow]
    simp only [Nat.zero_mul, Nat.zero_mod, if_true, Bool.and_eq_true, decide_eq_true_eq]
    omega
  | succ below =>
    have hlower : roundRank num den ≤ below ↔ _ := roundRank_le_iff hden
    rw [interval_low_succ]
    split_ifs with heven
    · simp only [Bool.and_eq_true, decide_eq_true_eq]
      omega
    · simp only [Bool.and_eq_true, decide_eq_true_eq]
      omega

/-! ## Finite results -/

/-- A rank beyond the last one is an infinity. -/
lemma isFinite_ofRank_iff {negative : Bool} {rank : ℕ} :
    (ofRank negative rank).isFinite = true ↔ rank < finiteCount := by
  unfold ofRank
  split
  next hrank => exact ⟨fun _ => hrank, fun _ => rfl⟩
  next hrank => exact ⟨fun h => Bool.noConfusion h, fun h => absurd h hrank⟩

/-- A ratio below one that rounds to a finite number rounds to a finite number. -/
lemma roundRank_lt_of_le (hden : 0 < den) (hden' : 0 < den') (h : num * den' ≤ num' * den)
    (hfinite : roundRank num' den' < finiteCount) : roundRank num den < finiteCount :=
  (roundRank_mono hden hden' h).trans_lt hfinite

/-- A magnitude does not round to a higher rank than its own. -/
lemma roundRank_units_le (rank : ℕ) : roundRank (units rank) 1 ≤ rank := by
  have hgap : 0 < 2 ^ scale rank := Nat.two_pow_pos _
  refine (roundRank_le_iff Nat.one_pos).2 (.inl ?_)
  simp only [interval, Nat.pow_eq, Nat.mul_one]
  omega

/-- The rank that a natural number rounds to. -/
def natRank (n : ℕ) : ℕ := roundRank (n * Nat.pow 2 unitExponent) 1

/-- Larger numbers round to ranks that are not lower. -/
lemma natRank_mono (h : n ≤ k) : natRank n ≤ natRank k :=
  roundRank_mono Nat.one_pos Nat.one_pos
    (Nat.mul_le_mul_right _ (Nat.mul_le_mul_right _ h))

/-- A natural number rounds to the rank in whose cell it lies. -/
lemma natRank_eq_iff {rank : ℕ} : natRank n = rank ↔ (n : ℚ) ∈ cell rank := by
  have hone : (unitsPerOne : ℚ) ≠ 0 := Nat.cast_ne_zero.2 unitsPerOne_pos.ne'
  have hratio : ((n * unitsPerOne : ℕ) / ((1 : ℕ) * unitsPerOne) : ℚ) = n := by
    push_cast
    field_simp
  rw [natRank, pow_unitExponent, roundRank_eq_iff Nat.one_pos, hratio]

/-- Zero rounds to the lowest rank. -/
lemma natRank_zero : natRank 0 = 0 := by
  have hle : roundRank (units 0) 1 ≤ 0 := roundRank_units_le 0
  rw [show units 0 = 0 from rfl] at hle
  rw [natRank, Nat.zero_mul, Nat.le_zero.1 hle]

/-- A natural number is read as the number of its rank. -/
lemma ofNat_eq (n : ℕ) : ofNat n = ofRank false (natRank n) := by
  unfold ofNat ofRatio natRank
  exact roundUnits_eq false

end BoundSql.Binary64
