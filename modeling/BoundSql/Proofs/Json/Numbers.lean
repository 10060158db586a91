import BoundSql.Json.Number
import BoundSql.Json.Printer
import BoundSql.Proofs.Json.Grammar
import Mathlib.Algebra.Group.Nat.Defs
import Mathlib.Data.List.TakeWhile
import Mathlib.Tactic.Lemma

/-!
# Number literals

A number literal is spelled from its parts. A reader that meets a part in front of any text that
cannot continue it splits it off again. The literal of an integer keeps its value.

## Main definitions

* `BoundSql.Json.EndsNumber` — the texts that do not continue a literal.

## Main results

* `BoundSql.Json.readWhole?_append`, `BoundSql.Json.readFraction?_append` — the digits of a literal
  are read back.
* `BoundSql.Json.Number.toNumeral?_ofInt` — the literal of a whole number stands for it.
-/

namespace BoundSql

/-! ## Digits -/

/-- A character of a class is none outside of it. -/
lemma ne_of_class {p : Char → Bool} {c d : Char} (hc : p c = true) (hd : p d = false) : c ≠ d := by
  rintro rfl
  rw [hc] at hd
  cases hd

/-- The reader's digits are the decimal digits. -/
lemma isDigit_eq (c : Char) : BoundSql.isDigit c = c.isDigit := by
  unfold isDigit Char.isDigit
  rw [Bool.and_eq_decide, Bool.and_eq_decide]
  simp only [decide_eq_true_eq, Char.le_def]

/-- The reader's value of a run of digits. -/
lemma digitsValue_eq (start : ℕ) (digits : List Char) :
    digitsValue start digits = Nat.ofDigitChars 10 digits start :=
  Nat.ofDigitChars_eq_foldl.symm

/-- The digits of a number have it as their value. -/
@[simp] lemma digitsValue_toDigits (n : ℕ) : digitsValue 0 (Nat.toDigits 10 n) = n := by
  rw [digitsValue_eq, Nat.ofDigitChars_ten_toDigits]

/-- The digits of a number are digits. -/
lemma isDigit_of_mem_toDigits {n : ℕ} {c : Char} (h : c ∈ Nat.toDigits 10 n) :
    BoundSql.isDigit c = true := by
  rw [isDigit_eq]
  exact Nat.isDigit_of_mem_toDigits (by decide) (by decide) h

/-- The first digit of a number other than zero is not a zero. -/
lemma exists_toDigits_eq_cons {n : ℕ} (h : 0 < n) :
    ∃ first rest, Nat.toDigits 10 n = first :: rest ∧ first ≠ '0' := by
  induction n using Nat.strongRecOn with
  | ind n ih =>
    by_cases hsmall : n < 10
    · refine ⟨n.digitChar, [], Nat.toDigits_of_lt_base hsmall, ?_⟩
      rw [Ne, Nat.digitChar_eq_zero]
      exact h.ne'
    · obtain ⟨first, rest, hdigits, hfirst⟩ := ih (n / 10) (by omega) (by omega)
      refine ⟨first, rest ++ [(n % 10).digitChar], ?_, hfirst⟩
      rw [Nat.toDigits_of_base_le (by decide) (by omega), hdigits, List.cons_append]

namespace Json

/-! ## Reading -/

/-- The texts that do not continue a literal. -/
def EndsNumber (rest : List Char) : Prop :=
  ∀ c ∈ rest.head?, isDigit c = false ∧ c ≠ '.' ∧ c ≠ 'e' ∧ c ≠ 'E'

/-- A text whose first character is no digit. -/
def EndsDigits (rest : List Char) : Prop := ∀ c ∈ rest.head?, isDigit c = false

/-- What ends a number ends a run of digits. -/
lemma EndsNumber.endsDigits {rest : List Char} (h : EndsNumber rest) : EndsDigits rest :=
  fun c hc => (h c hc).1

/-- A run of characters of a class ends where the class ends. -/
lemma span_append {p : Char → Bool} {run rest : List Char} (h : ∀ c ∈ run, p c = true)
    (hrest : ∀ c ∈ rest.head?, p c = false) :
    (run ++ rest).takeWhile p = run ∧ (run ++ rest).dropWhile p = rest := by
  rw [List.takeWhile_append_of_pos h, List.dropWhile_append_of_pos h]
  cases rest with
  | nil => simp
  | cons c rest =>
    have hc : p c = false := hrest c rfl
    rw [List.takeWhile_cons_of_neg (by simp [hc]), List.dropWhile_cons_of_neg (by simp [hc])]
    simp

/-- A whole part is read back. -/
lemma readWhole?_append {whole rest : List Char}
    (hwhole : whole = ['0'] ∨ ∃ first rest, whole = first :: rest ∧ first ≠ '0')
    (hdigits : ∀ c ∈ whole, isDigit c = true) (hrest : EndsDigits rest) :
    readWhole? (whole ++ rest) = some (whole, rest) := by
  obtain rfl | ⟨first, tail, rfl, hfirst⟩ := hwhole
  · have hno : rest.head?.any isDigit = false := by
      cases hhead : rest.head? with
      | none => rfl
      | some c => exact hrest c hhead
    simp [readWhole?, hno]
  · obtain ⟨htake, hdrop⟩ := span_append hdigits hrest
    rw [List.cons_append] at htake hdrop ⊢
    rw [readWhole?.eq_2 _ (by rintro r ⟨⟩; exact hfirst rfl), htake, hdrop]
    rfl

/-- A fraction is read back. -/
lemma readFraction?_append {fraction rest : List Char}
    (hdigits : ∀ c ∈ fraction, isDigit c = true) (hrest : EndsDigits rest)
    (hpoint : rest.head? ≠ some '.') :
    readFraction? (fractionChars fraction ++ rest) = some (fraction, rest) := by
  obtain ⟨htake, hdrop⟩ := span_append hdigits hrest
  unfold fractionChars
  split
  next hempty =>
    rw [List.isEmpty_iff.1 hempty, List.nil_append]
    unfold readFraction?
    split
    · exact absurd rfl hpoint
    · rfl
  next hsome =>
    rw [List.cons_append, readFraction?, htake, hdrop]
    exact if_neg hsome

/-- A point ends a run of digits. -/
lemma endsDigits_fractionChars (fraction : List Char) {rest : List Char} (hrest : EndsDigits rest) :
    EndsDigits (fractionChars fraction ++ rest) := by
  unfold fractionChars
  split
  · exact hrest
  · rintro c ⟨⟩
    rfl

/-! ## Whole numbers -/

/-- The literal of a whole number is its text. -/
lemma Number.spell_ofInt (n : ℤ) : (ofInt n).spell = (toString n).toList := by
  cases n with
  | ofNat n =>
    have hsign : ¬ (n : ℤ) < 0 := Int.not_lt.2 (Int.natCast_nonneg n)
    have htext : (toString (Int.ofNat n)).toList = Nat.toDigits 10 n := Nat.toList_repr
    rw [htext]
    simp [spell, ofInt, Binary64.signChars, fractionChars, exponentChars, hsign]
  | negSucc n =>
    have htext : (toString (Int.negSucc n)).toList = '-' :: Nat.toDigits 10 (n + 1) := by
      rw [← Nat.toList_repr]
      exact String.toList_append
    rw [htext]
    simp [spell, ofInt, Binary64.signChars, fractionChars, exponentChars]

/-- The literal of a whole number can be spelled. -/
lemma Number.wellFormed_ofInt (n : ℤ) : (ofInt n).WellFormed where
  whole := by
    obtain hzero | hpos := Nat.eq_zero_or_pos n.natAbs
    · exact .inl (by rw [ofInt, hzero]; rfl)
    · exact .inr (exists_toDigits_eq_cons hpos)
  digits c hc := by
    simp only [ofInt, List.append_nil] at hc
    exact isDigit_of_mem_toDigits hc

/-- A run of digits read on from a number is at least that number with zeros behind it. -/
lemma mul_pow_le_digitsValue (start : ℕ) (digits : List Char) :
    start * 10 ^ digits.length ≤ digitsValue start digits := by
  rw [digitsValue_eq, Nat.ofDigitChars_eq_ofDigitChars_zero, Nat.mul_comm]
  exact Nat.le_add_right _ _

/-- Digits that fit the significand are all taken. -/
lemma absorb_eq_of_lt : ∀ (digits : List Char) (start : ℕ), digitsValue start digits < 2 ^ 64 →
    absorb start digits = (digitsValue start digits, digits.length)
  | [], _, _ => rfl
  | d :: digits, start, h => by
    have hnext : 10 * start + digitValue d < Nat.pow 2 64 :=
      calc 10 * start + digitValue d
          ≤ (10 * start + digitValue d) * 10 ^ digits.length :=
            Nat.le_mul_of_pos_right _ (Nat.pow_pos (by decide))
        _ ≤ digitsValue (10 * start + digitValue d) digits := mul_pow_le_digitsValue _ _
        _ < 2 ^ 64 := h
    unfold absorb
    dsimp only
    rw [if_pos hnext, absorb_eq_of_lt digits _ h]
    rfl

/-- The significand has at most 64 bits and is never more than the digits it is taken from. -/
lemma absorb_le : ∀ (digits : List Char) (start : ℕ), start < 2 ^ 64 →
    (absorb start digits).1 < 2 ^ 64 ∧ (absorb start digits).2 ≤ digits.length ∧
      (absorb start digits).1 * 10 ^ (digits.length - (absorb start digits).2) ≤
        digitsValue start digits
  | [], start, h => ⟨h, Nat.le_refl 0, by simp [absorb, digitsValue]⟩
  | d :: digits, start, h => by
    unfold absorb
    dsimp only
    split
    next hnext =>
      obtain ⟨hlt, hcount, hle⟩ := absorb_le digits (10 * start + digitValue d) hnext
      refine ⟨hlt, Nat.succ_le_succ hcount, ?_⟩
      rw [List.length_cons, Nat.succ_sub_succ]
      exact hle
    next => exact ⟨h, Nat.zero_le _, mul_pow_le_digitsValue _ _⟩

/-- The literal of a whole number of 64 bits is converted without rounding. -/
lemma Number.toNumeral?_ofInt {n : ℤ} (h : n.natAbs < 2 ^ 64) :
    (ofInt n).toNumeral? = some (wholeNumeral (n < 0) n.natAbs) := by
  have hfits : digitsValue 0 (Nat.toDigits 10 n.natAbs) < 2 ^ 64 := by rwa [digitsValue_toDigits]
  have habsorb := absorb_eq_of_lt _ 0 hfits
  rw [digitsValue_toDigits] at habsorb
  unfold toNumeral? ofInt
  dsimp only
  rw [habsorb]
  simp

/-- The literal of a whole number that is not negative stands for it. -/
theorem Number.toNumeral?_ofInt_natCast (n : UInt64) :
    (ofInt n.toNat).toNumeral? = some (.unsigned n) := by
  have hsign : decide ((n.toNat : ℤ) < 0) = false := by simp
  rw [toNumeral?_ofInt (by simpa using n.toNat_lt), hsign, Int.natAbs_natCast, wholeNumeral,
    UInt64.ofNat_toNat]
  rfl

/-- The literal of a negative whole number stands for it. -/
theorem Number.toNumeral?_ofInt_neg {n : Int64} (hn : n.toInt < 0) :
    (ofInt n.toInt).toNumeral? = some (.signed n) := by
  have hlower := n.le_toInt
  have habs : -((n.toInt.natAbs : ℕ) : ℤ) = n.toInt := by omega
  have hrange : ¬ (n.toInt.natAbs = 0 ∨ 2 ^ 63 < n.toInt.natAbs) := by omega
  rw [toNumeral?_ofInt (by omega), decide_eq_true hn, wholeNumeral, if_pos rfl,
    if_neg (by simpa using hrange), habs, Int64.ofInt_toInt]

end Json

end BoundSql
