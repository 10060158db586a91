import BoundSql.Proofs.Binary64.Shortest
import BoundSql.Proofs.Json.Library
import BoundSql.Proofs.Json.Numbers
import BoundSql.Proofs.Json.Scaling

/-!
# The literals of reals

The literal that is printed for a finite real has a point or an exponent, so it is never read as an
integer. It denotes a magnitude that rounds to the real, and this lies below the limit up to which
the reader's own rounding stays finite.

## Main results

* `BoundSql.Json.Number.exists_denotes_ofRank` — the literal denotes a magnitude that rounds to the
  real.
* `BoundSql.Json.Number.exists_toNumeral?_ofRank` — the literal is read as a finite real.
* `BoundSql.Json.Number.toNumeral?_of_isMarked` — what a literal with a point or an exponent is read
  as.
-/

namespace BoundSql

/-! ## Runs of digits -/

/-- The value of a run of digits is read from left to right. -/
lemma digitsValue_append (start : ℕ) (digits rest : List Char) :
    digitsValue start (digits ++ rest) = digitsValue (digitsValue start digits) rest :=
  List.foldl_append

/-- A zero multiplies by ten. -/
@[simp] lemma digitsValue_zeros (start n : ℕ) :
    digitsValue start (Binary64.zeros n) = 10 ^ n * start := by
  rw [digitsValue_eq, Binary64.zeros, Nat.ofDigitChars_replicate_zero]

/-- The value of a run of digits is bounded by their number. -/
lemma digitsValue_lt : ∀ (digits : List Char) (start : ℕ), (∀ c ∈ digits, isDigit c = true) →
    digitsValue start digits < (start + 1) * 10 ^ digits.length
  | [], start, _ => by simp [digitsValue]
  | d :: digits, start, h => by
    have hd : digitValue d ≤ 9 := by
      have hdigit := h d List.mem_cons_self
      simp only [isDigit, Bool.and_eq_true, decide_eq_true_eq, Char.le_def,
        UInt32.le_iff_toNat_le] at hdigit
      exact Nat.sub_le_of_le_add hdigit.2
    have htail := digitsValue_lt digits (10 * start + digitValue d)
      fun c hc => h c (List.mem_cons_of_mem _ hc)
    calc digitsValue start (d :: digits)
        = digitsValue (10 * start + digitValue d) digits := rfl
      _ < (10 * start + digitValue d + 1) * 10 ^ digits.length := htail
      _ ≤ (10 * (start + 1)) * 10 ^ digits.length := Nat.mul_le_mul_right _ (by omega)
      _ = (start + 1) * 10 ^ (d :: digits).length := by
        rw [List.length_cons, pow_succ]
        ring

namespace Json.Number

open Binary64

/-! ## What is printed -/

variable {negative : Bool} {digits : ℕ} {k : ℤ}

/-- The digits of a number and a run of zeros are digits. -/
lemma isDigit_of_mem_zeros {n : ℕ} {c : Char} (h : c ∈ zeros n) : BoundSql.isDigit c = true := by
  rw [List.eq_of_mem_replicate h]
  decide

/-- Without an exponent the literal denotes its digits, the last of them at its place. -/
lemma denotes_positional (h : 0 < digits) :
    (positional negative (Nat.toDigits 10 digits) k).Denotes negative (digits * 10 ^ k) := by
  obtain ⟨first, rest, htext, hfirst⟩ := exists_toDigits_eq_cons h
  have hdigit : ∀ c ∈ Nat.toDigits 10 digits, BoundSql.isDigit c = true :=
    fun c => isDigit_of_mem_toDigits
  have hvalue := digitsValue_toDigits digits
  generalize Nat.toDigits 10 digits = text at *
  unfold positional
  split_ifs with hk hplaces
  · -- a whole number with its zeros and a fraction of one zero
    obtain ⟨n, rfl⟩ := Int.eq_ofNat_of_zero_le hk
    refine ⟨rfl, ?_, ⟨.inr ⟨first, rest ++ zeros n, by simp [htext], hfirst⟩, ?_⟩, .inl (by simp)⟩
    · have hall : digitsValue 0 (text ++ zeros n ++ ['0']) = 10 * (10 ^ n * digits) := by
        rw [digitsValue_append, digitsValue_append, hvalue, digitsValue_zeros]
        rfl
      simp only [magnitude, lastPlace, Int.natAbs_natCast, hall]
      push_cast
      simp only [zpow_natCast, List.length_singleton, Option.getD_none, Nat.cast_one, zero_sub,
        zpow_neg, zpow_one]
      field_simp
    · intro c hc
      simp only [List.mem_append, List.mem_singleton] at hc
      obtain (hc | hc) | rfl := hc
      · exact hdigit c hc
      · exact isDigit_of_mem_zeros hc
      · decide
  · -- the point stands between the digits
    obtain ⟨n, hn⟩ : ∃ n, text.length - k.natAbs = n + 1 :=
      ⟨text.length - k.natAbs - 1, by omega⟩
    have hwhole : text.take (text.length - k.natAbs) = first :: rest.take n := by
      rw [hn, htext, List.take_succ_cons]
    refine ⟨rfl, ?_, ⟨.inr ⟨first, rest.take n, hwhole, hfirst⟩, ?_⟩, .inl ?_⟩
    · simp only [magnitude, lastPlace, List.take_append_drop, hvalue, List.length_drop,
        Option.getD_none]
      congr 2
      omega
    · rw [List.take_append_drop]
      exact hdigit
    · rw [Ne, List.drop_eq_nil_iff]
      omega
  · -- zeros stand between the point and the digits
    refine ⟨rfl, ?_, ⟨.inl rfl, ?_⟩, .inl (by simp [htext])⟩
    · have hall : digitsValue 0 (['0'] ++ (zeros (k.natAbs - text.length) ++ text)) = digits := by
        rw [digitsValue_append, digitsValue_append, digitsValue_zeros]
        exact hvalue
      simp only [magnitude, lastPlace, hall]
      simp only [List.length_append, zeros, List.length_replicate, Option.getD_none]
      congr 2
      omega
    · intro c hc
      simp only [List.mem_append, List.mem_singleton] at hc
      obtain rfl | hc | hc := hc
      · decide
      · exact isDigit_of_mem_zeros hc
      · exact hdigit c hc

/-- With an exponent the literal denotes the same. -/
lemma denotes_scientific (h : 0 < digits) :
    (scientific negative (Nat.toDigits 10 digits)
      (k + (Nat.toDigits 10 digits).length - 1)).Denotes negative (digits * 10 ^ k) := by
  obtain ⟨first, rest, htext, hfirst⟩ := exists_toDigits_eq_cons h
  have hdigit : ∀ c ∈ Nat.toDigits 10 digits, BoundSql.isDigit c = true :=
    fun c => isDigit_of_mem_toDigits
  have hvalue := digitsValue_toDigits digits
  rw [htext] at hdigit hvalue ⊢
  refine ⟨rfl, ?_, ⟨.inr ⟨first, [], rfl, hfirst⟩, by simpa [scientific] using hdigit⟩,
    .inr (by simp [scientific])⟩
  simp only [magnitude, lastPlace, scientific, List.take_append_drop, hvalue, List.length_drop,
    Option.getD_some, List.length_cons]
  congr 2
  omega

/-- The literal of a finite real denotes a magnitude that rounds to it. -/
theorem exists_denotes_ofRank (negative : Bool) (rank : ℕ) :
    ∃ m ∈ cell rank, (ofRank negative rank).Denotes negative m := by
  unfold ofRank
  by_cases hzero : rank = 0
  · rw [if_pos hzero, hzero]
    refine ⟨0, zero_mem_cell, rfl, ?_, ⟨.inl rfl, fun c => isDigit_of_mem_zeros (n := 2)⟩,
      .inl (by simp)⟩
    simp [magnitude, digitsValue, digitValue]
  · rw [if_neg hzero]
    have hpos := shortest_pos .even (Nat.pos_of_ne_zero hzero)
    have hcell := shortest_mem_cell .even (Nat.pos_of_ne_zero hzero)
    generalize shortest .even rank = result at *
    obtain ⟨digits, k⟩ := result
    refine ⟨_, hcell, ?_⟩
    dsimp only
    split
    next => exact denotes_positional hpos
    next => exact denotes_scientific hpos

/-- The whole part of the literal of a finite real is not long. -/
lemma length_whole_ofRank (negative : Bool) (rank : ℕ) :
    (ofRank negative rank).whole.length ≤ 16 := by
  unfold ofRank
  split
  next => simp
  next =>
    dsimp only
    generalize shortest .even rank = result
    split
    next hleading =>
      simp only [Bool.and_eq_true, decide_eq_true_eq] at hleading
      unfold positional
      split_ifs
      · simp only [List.length_append, zeros, List.length_replicate]
        omega
      · simp only [List.length_take]
        omega
      · simp
    next => simp [scientific]

/-! ## What is read -/

/-- The sign does not matter for being finite. -/
lemma isFinite_neg (x : Binary64) : x.neg.isFinite = x.isFinite := by cases x <;> rfl

/-- A whole part that is not long fits the significand of the reader. -/
lemma WellFormed.whole_lt {number : Number} (h : number.WellFormed)
    (hwhole : number.whole.length ≤ 16) : digitsValue 0 number.whole < 2 ^ 64 :=
  calc digitsValue 0 number.whole < (0 + 1) * 10 ^ number.whole.length :=
        digitsValue_lt _ 0 fun c hc => h.digits c (List.mem_append_left _ hc)
    _ ≤ (0 + 1) * 10 ^ 16 := Nat.mul_le_mul_left _ (Nat.pow_le_pow_right (by decide) hwhole)
    _ < 2 ^ 64 := by decide

/-- A literal with a point or an exponent is scaled, whatever the reader skips of its whole part. -/
lemma toNumeral?_of_isMarked {number : Number} (h : number.IsMarked)
    {integral absorbed significand places : ℕ}
    (hintegral : absorb 0 number.whole = (integral, absorbed))
    (hsignificand : absorb integral number.fraction = (significand, places)) :
    number.toNumeral? =
      (scaleByTen 4 (ofNat significand)
        ((number.whole.length - absorbed : ℕ) - places + number.exponent?.getD 0)).map fun x =>
          .real (if number.negative then x.neg else x) := by
  have hmarked : ¬ (number.fraction.isEmpty && number.exponent?.isNone &&
      decide (number.whole.length - absorbed = 0)) = true := by
    obtain hfraction | hexponent := h
    · simp [hfraction]
    · simp [hexponent]
  unfold toNumeral?
  rw [hintegral]
  dsimp only
  rw [if_neg hmarked, hsignificand]

/-- **A literal with a point or an exponent is read as a finite real**, if it is read at all. -/
theorem exists_isFinite_of_isMarked {number : Number} (h : number.IsMarked) {n : Numeral}
    (hn : number.toNumeral? = some n) : ∃ x : Binary64, x.isFinite = true ∧ n = .real x := by
  obtain ⟨integral, absorbed, hintegral⟩ :
      ∃ integral absorbed, absorb 0 number.whole = (integral, absorbed) := ⟨_, _, rfl⟩
  obtain ⟨significand, places, hsignificand⟩ :
      ∃ significand places, absorb integral number.fraction = (significand, places) := ⟨_, _, rfl⟩
  have hintegral_lt : integral < 2 ^ 64 := by
    have hlt := (absorb_le number.whole 0 (by decide)).1
    rwa [hintegral] at hlt
  have hsignificand_lt : significand < 2 ^ 64 := by
    have hlt := (absorb_le number.fraction integral hintegral_lt).1
    rwa [hsignificand] at hlt
  rw [toNumeral?_of_isMarked h hintegral hsignificand] at hn
  obtain ⟨x, hx, rfl⟩ := Option.map_eq_some_iff.1 hn
  refine ⟨_, ?_, rfl⟩
  have hfinite := scaleByTen_isFinite (ofNat_isFinite hsignificand_lt) hx
  split
  · rw [isFinite_neg, hfinite]
  · exact hfinite

/-- The literal of a real is scaled: its significand takes digits behind the point as far as they
fit, and counts the power of ten of the last one of them. -/
lemma Denotes.toNumeral?_eq {number : Number} {m : ℚ} (h : number.Denotes negative m)
    (hwhole : number.whole.length ≤ 16) {significand places : ℕ}
    (habsorb : absorb (digitsValue 0 number.whole) number.fraction = (significand, places)) :
    number.toNumeral? =
      (scaleByTen 4 (ofNat significand) (number.exponent?.getD 0 - places)).map fun x =>
        .real (if negative then x.neg else x) := by
  have hexponent : ((number.whole.length - number.whole.length : ℕ) : ℤ) - places +
      number.exponent?.getD 0 = number.exponent?.getD 0 - places := by omega
  have hintegral := absorb_eq_of_lt _ _ (h.wellFormed.whole_lt hwhole)
  rw [toNumeral?_of_isMarked h.isMarked hintegral habsorb, h.negative, hexponent]

/-- A literal that denotes a real below the limit is read as a finite real. -/
lemma Denotes.exists_toNumeral? {number : Number} {m : ℚ} (h : number.Denotes negative m)
    (hwhole : number.whole.length ≤ 16) (hm : m ≤ scaleLimit) :
    ∃ y, number.toNumeral? = some (.real y) := by
  obtain ⟨hsignificand, hplaces, hle⟩ :=
    absorb_le number.fraction _ (h.wellFormed.whole_lt hwhole)
  obtain ⟨significand, places, habsorb⟩ : ∃ significand places,
      absorb (digitsValue 0 number.whole) number.fraction = (significand, places) := ⟨_, _, rfl⟩
  rw [habsorb, ← digitsValue_append] at hle
  rw [habsorb] at hsignificand hplaces
  have hbound : (significand * 10 ^ (number.exponent?.getD 0 - places : ℤ) : ℚ) ≤ scaleLimit := by
    refine le_trans ?_ (h.magnitude.trans_le hm)
    -- the digits that were dropped, and what the last one counts
    have hsplit : number.exponent?.getD 0 - places =
        number.lastPlace + (number.fraction.length - places : ℕ) := by
      unfold lastPlace
      omega
    rw [hsplit, zpow_add₀ (by norm_num), zpow_natCast, mul_comm (10 ^ number.lastPlace),
      ← mul_assoc]
    exact mul_le_mul_of_nonneg_right (by exact_mod_cast hle) (by positivity)
  obtain ⟨y, hscaled⟩ := scaleByTen_ofNat hsignificand hbound 3
  rw [h.toNumeral?_eq hwhole habsorb, hscaled, Option.map_some]
  exact ⟨_, rfl⟩

/-- A magnitude that rounds to a real other than the largest one lies below the limit. -/
lemma le_scaleLimit {rank : ℕ} {m : ℚ} (hm : m ∈ cell rank) (hrank : rank < finiteCount - 1) :
    m ≤ scaleLimit := by
  -- the last rank but one keeps a name, or its interval is computed by unification
  obtain ⟨last, hlast, hend⟩ :
      ∃ last, last = finiteCount - 2 ∧ (interval last).high = 4 * unitsPerOne * scaleLimit := by
    refine ⟨_, rfl, ?_⟩
    delta unitsPerOne scaleLimit
    decide +kernel
  have hhigh : (interval rank).high ≤ (interval last).high :=
    strictMono_high.monotone (show rank ≤ last by omega)
  rw [hend] at hhigh
  have hcast : ((interval rank).high : ℚ) ≤ 4 * unitsPerOne * scaleLimit := by
    exact_mod_cast hhigh
  have hone : (0 : ℚ) < 4 * unitsPerOne := by
    have hpos : (0 : ℚ) < unitsPerOne := Nat.cast_pos.2 unitsPerOne_pos
    positivity
  exact le_of_mul_le_mul_left ((Interval.mem_Icc hm).2.trans hcast) hone

/-- The largest real is read back as it is. -/
lemma toNumeral?_ofRank_last : ∀ negative : Bool,
    (ofRank negative (finiteCount - 1)).toNumeral? =
      some (.real (.finite negative ⟨finiteCount - 1, by decide⟩)) := by
  decide +kernel

/-- **The literal of a finite real is read as a real.** It is marked as a real, so it is not read as
an integer, and the reader's roundings do not lead out of the finite numbers. -/
theorem exists_toNumeral?_ofRank (negative : Bool) (rank : Fin finiteCount) :
    ∃ y, (ofRank negative rank).toNumeral? = some (.real y) := by
  obtain hlast | hbelow := Nat.eq_or_lt_of_le (Nat.le_sub_one_of_lt rank.isLt)
  · rw [hlast]
    exact ⟨_, toNumeral?_ofRank_last negative⟩
  · obtain ⟨m, hcell, hdenotes⟩ := exists_denotes_ofRank negative rank
    exact hdenotes.exists_toNumeral? (length_whole_ofRank negative rank)
      (le_scaleLimit hcell hbelow)

end Json.Number

end BoundSql
