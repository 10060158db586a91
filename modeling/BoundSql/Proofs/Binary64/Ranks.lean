import BoundSql.Binary64.Shortest
import Mathlib.Algebra.Order.Field.Rat
import Mathlib.Order.Interval.Set.Basic
import Mathlib.Tactic.FieldSimp
import Mathlib.Tactic.Lemma
import Mathlib.Tactic.Linarith
import Mathlib.Tactic.Ring

/-!
# Ranks and the magnitudes that round to them

Ranks count magnitudes upward, and the intervals of neighbouring ranks touch: where one ends the
next begins. Two intervals therefore share a point only at a common end, and of two neighbours only
the one with an even significand owns its ends. So every exact magnitude belongs to one rank at
most.

## Main definitions

* `BoundSql.Binary64.unitsPerOne` — how many units make one.
* `BoundSql.Binary64.Interval.points` — an interval as a set of rationals.
* `BoundSql.Binary64.cell` — the exact magnitudes that round to a rank.

## Main results

* `BoundSql.Binary64.strictMono_units` — a higher rank is a larger magnitude.
* `BoundSql.Binary64.interval_low_succ` — the intervals of neighbouring ranks touch.
* `BoundSql.Binary64.eq_of_mem_cell` — no magnitude belongs to two ranks.
-/

namespace BoundSql.Binary64

/-! ## Units -/

/-- How many units make one. Sealed, so that no unifier raises a rational to this power. -/
@[irreducible] def unitsPerOne : ℕ := Nat.pow 2 unitExponent

/-- The units in one, spelled as a power. -/
lemma pow_unitExponent : Nat.pow 2 unitExponent = unitsPerOne := by
  delta unitsPerOne
  exact Eq.refl _

/-- There are units in one. -/
lemma unitsPerOne_pos : 0 < unitsPerOne := by
  delta unitsPerOne
  decide +kernel

/-- **The next rank.** Either the significand counts on at the same scale, or it was the last one of
its scale and the next scale begins, with `2 ^ 52`. Only the lowest scale has that significand
without beginning with it. -/
lemma succ_cases (rank : ℕ) :
    (scale (rank + 1) = scale rank ∧ significand (rank + 1) = significand rank + 1 ∧
      (significand (rank + 1) = 2 ^ 52 → scale (rank + 1) = 0)) ∨
    (scale (rank + 1) = scale rank + 1 ∧ significand rank + 1 = 2 ^ 53 ∧
      significand (rank + 1) = 2 ^ 52) := by
  simp only [scale, significand, Nat.pow_eq, Nat.reducePow]
  by_cases hlast : (rank + 1) % 4503599627370496 = 0
  · by_cases hfirst : rank < 4503599627370496
    · left
      split_ifs <;> omega
    · right
      split_ifs <;> omega
  · left
    split_ifs <;> omega

/-- The next magnitude is one gap further up. -/
lemma units_succ (rank : ℕ) : units (rank + 1) = units rank + 2 ^ scale rank := by
  obtain ⟨hscale, hsignificand, -⟩ | ⟨hscale, hlast, hfirst⟩ := succ_cases rank
  · simp only [units, Nat.pow_eq, hscale, hsignificand]
    ring
  · have hrank : significand rank = 2 ^ 53 - 1 := by omega
    simp only [units, Nat.pow_eq, hscale, hfirst, hrank]
    ring

/-- A higher rank is a larger magnitude. -/
theorem strictMono_units : StrictMono units :=
  strictMono_nat_of_lt_succ fun rank => by
    rw [units_succ]
    exact Nat.lt_add_of_pos_right (Nat.two_pow_pos _)

/-- Significands have at most 53 bits. -/
lemma significand_lt (rank : ℕ) : significand rank < 2 ^ 53 := by
  simp only [significand, Nat.pow_eq]
  split <;> omega

/-- Significands count up with the ranks, and there is an even number of them on every scale. -/
lemma significand_mod_two (rank : ℕ) : significand rank % 2 = rank % 2 := by
  simp only [significand, Nat.pow_eq]
  split <;> omega

/-- A rank counts the significands of its scale behind those of the lower ones. -/
lemma scale_mul_add_significand (rank : ℕ) : scale rank * 2 ^ 52 + significand rank = rank := by
  simp only [scale, significand, Nat.pow_eq]
  split <;> omega

/-- Above the lowest scale significands have all 53 digits. -/
lemma le_significand {rank : ℕ} (h : 0 < scale rank) : 2 ^ 52 ≤ significand rank := by
  simp only [scale, significand, Nat.pow_eq] at h ⊢
  split <;> omega

/-! ## Intervals -/

/-- The intervals of neighbouring ranks touch. -/
theorem interval_low_succ (rank : ℕ) : (interval (rank + 1)).low = (interval rank).high := by
  have hunits := units_succ rank
  simp only [interval, Nat.pow_eq, Bool.and_eq_true, decide_eq_true_eq]
  obtain ⟨hscale, -, hstart⟩ | ⟨hscale, -, hfirst⟩ := succ_cases rank
  · rw [if_neg (by rintro ⟨h, hpos⟩; exact absurd (hstart h) (by omega)), hscale, hunits]
    omega
  · rw [if_pos ⟨hfirst, by omega⟩, hunits, hscale, pow_succ]
    omega

/-- The upper end of an interval lies half a gap above the magnitude. -/
lemma high_eq (rank : ℕ) :
    (interval rank).high = (4 * significand rank + 2) * 2 ^ scale rank := by
  simp only [interval, units, Nat.pow_eq]
  ring

/-- Every interval has points. -/
lemma interval_low_lt_high (rank : ℕ) : (interval rank).low < (interval rank).high := by
  have hgap : 0 < 2 ^ scale rank := Nat.two_pow_pos _
  simp only [interval, Nat.pow_eq]
  omega

/-- A higher rank has a higher upper end. -/
lemma strictMono_high : StrictMono fun rank => (interval rank).high :=
  strictMono_nat_of_lt_succ fun rank => by
    rw [← interval_low_succ]
    exact interval_low_lt_high (rank + 1)

/-- An interval ends where a higher one begins, or below. -/
lemma high_le_low {r s : ℕ} (h : r < s) : (interval r).high ≤ (interval s).low := by
  obtain ⟨t, rfl⟩ : ∃ t, s = t + 1 := ⟨s - 1, by omega⟩
  rw [interval_low_succ]
  exact strictMono_high.monotone (by omega)

/-- An interval as a set of rationals. -/
def Interval.points (i : Interval) : Set ℚ :=
  if i.closed then Set.Icc i.low i.high else Set.Ioo i.low i.high

namespace Interval

variable {i : Interval} {v : ℚ}

/-- Points lie between the ends. -/
lemma mem_Icc (h : v ∈ i.points) : v ∈ Set.Icc (i.low : ℚ) i.high := by
  unfold points at h
  split at h
  · exact h
  · exact Set.Ioo_subset_Icc_self h

/-- An end that is a point of the interval belongs to a closed one. -/
lemma closed_of_end (h : v ∈ i.points) (hend : v = i.low ∨ v = i.high) : i.closed = true := by
  unfold points at h
  split at h
  · assumption
  · obtain rfl | rfl := hend
    · exact absurd h.1 (lt_irrefl _)
    · exact absurd h.2 (lt_irrefl _)

/-- What lies strictly between the ends is a point. -/
lemma mem_points_of_mem_Ioo (h : v ∈ Set.Ioo (i.low : ℚ) i.high) : v ∈ i.points := by
  unfold points
  split
  · exact Set.Ioo_subset_Icc_self h
  · exact h

/-- The test on ratios is membership. -/
lemma contains_iff {num den : ℕ} (hden : 0 < den) :
    i.contains num den = true ↔ (num / den : ℚ) ∈ i.points := by
  have hden' : (0 : ℚ) < den := Nat.cast_pos.2 hden
  unfold contains points
  split
  · rw [Set.mem_Icc, le_div_iff₀ hden', div_le_iff₀ hden', Bool.and_eq_true, decide_eq_true_eq,
      decide_eq_true_eq]
    exact_mod_cast Iff.rfl
  · rw [Set.mem_Ioo, lt_div_iff₀ hden', div_lt_iff₀ hden', Bool.and_eq_true, decide_eq_true_eq,
      decide_eq_true_eq]
    exact_mod_cast Iff.rfl

end Interval

/-! ## Cells -/

/-- The exact magnitudes that round to a rank. -/
def cell (rank : ℕ) : Set ℚ :=
  {m | 4 * unitsPerOne * m ∈ (interval rank).points}

/-- A magnitude lies in a cell if it lies in the interval, counted in quarters of the unit. -/
lemma mem_cell_iff {rank : ℕ} {m : ℚ} :
    m ∈ cell rank ↔ 4 * unitsPerOne * m ∈ (interval rank).points := Iff.rfl

/-- A common point of two intervals is a common end, and then the lower interval and the upper one
are neighbours, of which only one is closed. -/
lemma not_lt_of_mem_cell {r s : ℕ} {m : ℚ} (hr : m ∈ cell r) (hs : m ∈ cell s) : ¬ r < s := by
  intro hlt
  have htouch : ((interval r).high : ℚ) ≤ (interval s).low := by exact_mod_cast high_le_low hlt
  have hupper := (Interval.mem_Icc hr).2
  have hlower := (Interval.mem_Icc hs).1
  have hr_closed := Interval.closed_of_end hr (.inr (le_antisymm hupper (htouch.trans hlower)))
  have hs_closed := Interval.closed_of_end hs (.inl (le_antisymm (hupper.trans htouch) hlower))
  have hends : (interval r).high = (interval s).low := by
    exact_mod_cast le_antisymm htouch (hlower.trans hupper)
  have hnext : s = r + 1 := by
    by_contra hne
    have hbetween := high_le_low (show r + 1 < s by omega)
    have hhigher := strictMono_high (show r < r + 1 by omega)
    simp only at hhigher
    omega
  simp only [interval, decide_eq_true_eq, significand_mod_two] at hr_closed hs_closed
  omega

/-- No magnitude belongs to two ranks. -/
theorem eq_of_mem_cell {r s : ℕ} {m : ℚ} (hr : m ∈ cell r) (hs : m ∈ cell s) : r = s :=
  le_antisymm (not_lt.1 (not_lt_of_mem_cell hs hr)) (not_lt.1 (not_lt_of_mem_cell hr hs))

end BoundSql.Binary64
