import BoundSql.Json.Number
import BoundSql.Proofs.Binary64.Rounding

/-!
# Scaling a significand stays finite

The reader of numbers scales a rounded significand by rounded powers of ten. Each rounding may move
the result up, so a literal close to the largest magnitude might overflow although it denotes a
finite number. It does not below `scaleLimit`: since rounding keeps the order it is enough to look,
for each power of ten, at the largest significand that stays below the limit.

## Main definitions

* `BoundSql.Json.scaleLimit` — where the magnitudes that round to the largest one begin.

## Main results

* `BoundSql.Json.scaleByTen_isFinite` — scaling never leaves the finite numbers.
* `BoundSql.Json.scaleByTen_ofNat` — scaling a significand below the limit is not given up.
-/

namespace BoundSql.Json

open Binary64

variable {n k : ℕ} {e : ℤ}

/-- Where the magnitudes that round to the largest one begin. Sealed, as `unitsPerOne` is. -/
@[irreducible] def scaleLimit : ℕ := Nat.pow 2 1024 - 3 * Nat.pow 2 970

/-! ## Operands -/

/-- The table of powers of ten: the first of them is exact, the last one has a rank, and the next
one lies above the limit. -/
lemma table_ends : units (natRank 1) = unitsPerOne ∧ natRank (10 ^ 308) < finiteCount ∧
    scaleLimit < 10 ^ 309 := by
  delta unitsPerOne scaleLimit
  decide +kernel

/-- Numbers up to a power of ten of the table have a rank. -/
lemma natRank_lt_finiteCount (hk : k ≤ 308) (h : n ≤ 10 ^ k) : natRank n < finiteCount :=
  (natRank_mono (h.trans (pow_le_pow_right₀ (by decide) hk))).trans_lt table_ends.2.1

/-- A number up to a power of ten of the table is finite. -/
lemma ofNat_eq_finite (hk : k ≤ 308) (h : n ≤ 10 ^ k) :
    ofNat n = .finite false ⟨natRank n, natRank_lt_finiteCount hk h⟩ := by
  rw [ofNat_eq, ofRank, dif_pos (natRank_lt_finiteCount hk h)]

/-- A significand of at most 64 bits has a rank. -/
lemma le_of_lt_two_pow (hn : n < 2 ^ 64) : n ≤ 10 ^ 20 := hn.le.trans (by decide)

/-- A power of ten of the table. -/
lemma tenTo_eq (hk : k ≤ 308) : tenTo k = ofNat (10 ^ k) := by
  have hlength : decimalLength 1 = 1 := by decide
  unfold tenTo Decimal.toBinary64 Decimal.roundWith
  simp only [hlength, Nat.pow_eq, Int.natAbs_natCast, Nat.one_mul]
  rw [if_neg (by simp; omega), if_neg (by simp; omega), if_neg (by simp)]
  rfl

/-- A power of ten of the table is finite. -/
lemma tenTo_eq_finite (hk : k ≤ 308) :
    tenTo k = .finite false ⟨natRank (10 ^ k), natRank_lt_finiteCount hk (Nat.le_refl _)⟩ := by
  rw [tenTo_eq hk, ofNat_eq_finite hk (Nat.le_refl _)]

/-- Powers of ten are not smaller than one. -/
lemma unitsPerOne_le_units_natRank : unitsPerOne ≤ units (natRank (10 ^ k)) := by
  rw [← table_ends.1]
  exact strictMono_units.monotone (natRank_mono (Nat.one_le_pow _ _ (by decide)))

/-- The limit lies below the first power of ten behind the table. -/
lemma scaleLimit_lt (hk : 308 < k) : scaleLimit < 10 ^ k :=
  table_ends.2.2.trans_le (pow_le_pow_right₀ (by decide) hk)

/-! ## One step -/

/-- Up to `10 ^ 288` every significand of at most 64 bits can be multiplied. For the other powers of
ten the largest significand that stays below the limit can be multiplied by them. -/
lemma scale_fits :
    roundRank (units (natRank (2 ^ 64)) * units (natRank (10 ^ 288)))
      (Nat.pow 2 unitExponent) < finiteCount ∧
    ∀ i < 20,
      roundRank (units (natRank (scaleLimit / 10 ^ (289 + i))) * units (natRank (10 ^ (289 + i))))
        (Nat.pow 2 unitExponent) < finiteCount := by
  delta scaleLimit
  decide +kernel

/-- The product of a significand and a power of ten below the limit is finite. -/
lemma mul_tenTo_isFinite (hn : n < 2 ^ 64) (hk : k ≤ 308) (h : n * 10 ^ k ≤ scaleLimit) :
    ((ofNat n).mul (tenTo k)).isFinite = true := by
  rw [ofNat_eq_finite (by decide) (le_of_lt_two_pow hn), tenTo_eq_finite hk, mul, roundUnits_eq,
    isFinite_ofRank_iff]
  have hpos : 0 < Nat.pow 2 unitExponent := pow_unitExponent ▸ unitsPerOne_pos
  obtain hsmall | hlarge := Nat.lt_or_ge k 289
  · refine roundRank_lt_of_le hpos hpos (Nat.mul_le_mul_right _ (Nat.mul_le_mul ?_ ?_)) scale_fits.1
    · exact strictMono_units.monotone (natRank_mono hn.le)
    · exact strictMono_units.monotone
        (natRank_mono (pow_le_pow_right₀ (by decide) (Nat.le_of_lt_succ hsmall)))
  · obtain ⟨i, rfl⟩ := Nat.exists_eq_add_of_le hlarge
    refine roundRank_lt_of_le hpos hpos (Nat.mul_le_mul_right _ (Nat.mul_le_mul_right _ ?_))
      (scale_fits.2 i (by omega))
    exact strictMono_units.monotone
      (natRank_mono ((Nat.le_div_iff_mul_le (Nat.pow_pos (by decide))).2 h))

/-- The quotient of a finite number and a power of ten is finite. -/
lemma div_tenTo_isFinite {x : Binary64} (hx : x.isFinite = true) (hk : k ≤ 308) :
    (x.div (tenTo k)).isFinite = true := by
  cases x with
  | nan => cases hx
  | infinite => cases hx
  | finite negative rank =>
    have hlarge : unitsPerOne ≤ units (natRank (10 ^ k)) := unitsPerOne_le_units_natRank
    have hrank : natRank (10 ^ k) ≠ 0 := by
      intro hzero
      rw [hzero] at hlarge
      exact absurd (unitsPerOne_pos.trans_le hlarge) (by decide)
    have hlast : units rank ≤ units (finiteCount - 1) :=
      strictMono_units.monotone (Nat.le_sub_one_of_lt rank.isLt)
    rw [tenTo_eq_finite hk, div, if_neg hrank, roundUnits_eq, isFinite_ofRank_iff,
      pow_unitExponent]
    refine roundRank_lt_of_le (unitsPerOne_pos.trans_le hlarge) Nat.one_pos ?_
      ((roundRank_units_le (finiteCount - 1)).trans_lt (by decide))
    rw [Nat.mul_one]
    exact Nat.mul_le_mul hlast hlarge

/-! ## The run -/

/-- A significand of at most 64 bits is finite. -/
lemma ofNat_isFinite (hn : n < 2 ^ 64) : (ofNat n).isFinite = true := by
  rw [ofNat_eq_finite (by decide) (le_of_lt_two_pow hn)]
  rfl

/-- **Scaling stays finite**: multiplying is given up where it does not, and dividing always
does. -/
theorem scaleByTen_isFinite {steps : ℕ} {x y : Binary64} (hx : x.isFinite = true)
    (h : scaleByTen steps x e = some y) : y.isFinite = true := by
  induction steps generalizing x e with
  | zero =>
    obtain rfl := Option.some.inj h
    exact hx
  | succ steps ih =>
    unfold scaleByTen at h
    dsimp only at h
    split_ifs at h with htable hneg hfinite
    · obtain rfl := Option.some.inj h
      exact div_tenTo_isFinite hx htable
    · obtain rfl := Option.some.inj h
      exact hfinite
    · obtain rfl := Option.some.inj h
      exact hx
    · exact ih (div_tenTo_isFinite hx (Nat.le_refl 308)) h

/-- Scaling down is never given up. -/
lemma exists_scaleByTen_of_neg (steps : ℕ) (x : Binary64) (he : e < 0) :
    ∃ y, scaleByTen steps x e = some y := by
  induction steps generalizing x e with
  | zero => exact ⟨x, rfl⟩
  | succ steps ih =>
    unfold scaleByTen
    by_cases htable : e.natAbs ≤ 308
    · rw [if_pos htable, if_pos he]
      exact ⟨_, rfl⟩
    · rw [if_neg htable]
      split
      · exact ⟨x, rfl⟩
      · rw [if_neg (by omega)]
        exact ih _ (by omega)

/-- **Scaling below the limit.** A significand of at most 64 bits that denotes a magnitude below the
limit is scaled to a number. -/
theorem scaleByTen_ofNat (hn : n < 2 ^ 64) (h : (n * 10 ^ e : ℚ) ≤ scaleLimit) (steps : ℕ) :
    ∃ y, scaleByTen (steps + 1) (ofNat n) e = some y := by
  by_cases he : e < 0
  · exact exists_scaleByTen_of_neg _ _ he
  · obtain ⟨k, rfl⟩ := Int.eq_ofNat_of_zero_le (not_lt.1 he)
    have hnat : n * 10 ^ k ≤ scaleLimit := by
      rw [zpow_natCast] at h
      exact_mod_cast h
    unfold scaleByTen
    by_cases htable : k ≤ 308
    · rw [if_pos (by simpa using htable), if_neg he]
      simp only [Int.natAbs_natCast, mul_tenTo_isFinite hn htable hnat, if_true]
      exact ⟨_, rfl⟩
    · have hzero : n = 0 := by
        by_contra hne
        have hlimit : scaleLimit < 10 ^ k := scaleLimit_lt (by omega)
        have hhuge : 10 ^ k ≤ n * 10 ^ k := Nat.le_mul_of_pos_left _ (Nat.pos_of_ne_zero hne)
        exact absurd (hhuge.trans hnat) (not_le.2 hlimit)
      rw [if_neg (by simpa using htable), hzero, ofNat_eq, natRank_zero]
      exact ⟨_, if_pos (by decide)⟩

end BoundSql.Json
