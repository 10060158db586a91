import BoundSql.Proofs.Binary64.Nearest
import BoundSql.Proofs.Cli.Noninterference
import BoundSql.Proofs.Json.Numbers
import BoundSql.Proofs.Signs

/-!
# Literals of a command line

A word that writes a whole number is read as this integer if it has 64 bits, as the nearest real if
there is one, and otherwise as the text it is; no integer wraps around. What an assignment holds
behind its first equals sign is read as a literal, whatever it is.

## Main definitions

* `BoundSql.WritesInt` — the words that write a whole number.

## Main results

* `BoundSql.integerOfText?_eq_some_iff` — the words that are read as integers.
* `BoundSql.finiteOfText?_of_writesInt` — the real that a word of digits spells.
* `BoundSql.Value.ofLiteral_exact` — literals are classified exactly.
-/

namespace BoundSql

/-! ## Words of digits -/

/-- A word writes a whole number with an optional sign and one or more digits. -/
def WritesInt (word : String) (n : ℤ) : Prop :=
  ∃ sign digits : List Char, sign ∈ signs ∧ digits ≠ [] ∧ (∀ c ∈ digits, c.isDigit) ∧
    word.toList = sign ++ digits ∧
    n = (if sign = ['-'] then -1 else 1) * (Nat.ofDigitChars 10 digits 0 : ℤ)

/-- The factor of a sign. -/
lemma sign_mul (sign : List Char) (magnitude : ℕ) :
    (if sign = ['-'] then -1 else 1) * (magnitude : ℤ) = signedInt (sign = ['-']) magnitude := by
  by_cases hminus : sign = ['-'] <;> simp [signedInt, hminus]

/-- A word writes what its digits write, with its sign. -/
lemma writesInt_iff {word : String} {n : ℤ} :
    WritesInt word n ↔ (splitSign word.toList).2 ≠ [] ∧
      (∀ c ∈ (splitSign word.toList).2, isDigit c = true) ∧
      n = signedInt (splitSign word.toList).1 (digitsValue 0 (splitSign word.toList).2) := by
  constructor
  · rintro ⟨sign, digits, hsign, hnonempty, hdigits, hword, rfl⟩
    have hdigits' : ∀ c ∈ digits, isDigit c = true := by
      intro c hc
      rw [isDigit_eq]
      exact hdigits c hc
    have hsplit : splitSign word.toList = (decide (sign = ['-']), digits) := by
      rw [hword]
      exact splitSign_append hsign fun c hc => hdigits' c (List.mem_of_mem_head? hc)
    rw [hsplit, sign_mul, digitsValue_eq]
    exact ⟨hnonempty, hdigits', rfl⟩
  · rintro ⟨hnonempty, hdigits, rfl⟩
    obtain ⟨sign, hsign, hword, hminus⟩ := exists_sign word.toList
    refine ⟨sign, _, hsign, hnonempty, ?_, hword, ?_⟩
    · intro c hc
      rw [← isDigit_eq]
      exact hdigits c hc
    · rw [hminus, sign_mul, digitsValue_eq]

/-- A word writes one number. -/
lemma WritesInt.unique {word : String} {m n : ℤ} (hm : WritesInt word m) (hn : WritesInt word n) :
    m = n := by
  rw [(writesInt_iff.1 hm).2.2, (writesInt_iff.1 hn).2.2]

/-- **The words that are read as integers** are those that write a whole number of 64 bits, and they
are read as this number. -/
theorem integerOfText?_eq_some_iff {word : String} {n : Int64} :
    integerOfText? word = some n ↔ WritesInt word n.toInt := by
  have hlower : Int64.minValue.toInt = -2 ^ 63 := by decide
  have hupper : Int64.maxValue.toInt = 2 ^ 63 - 1 := by decide
  have hn_lower := n.le_toInt
  have hn_upper := n.toInt_lt
  rw [writesInt_iff, integerOfText?]
  generalize splitSign word.toList = parts
  obtain ⟨negative, digits⟩ := parts
  dsimp only
  rw [← signedInt]
  generalize signedInt negative (digitsValue 0 digits) = value
  rw [Option.ite_none_right_eq_some]
  simp only [Bool.and_eq_true, Bool.not_eq_true', List.isEmpty_eq_false_iff, List.all_eq_true,
    decide_eq_true_eq, Option.some.injEq, hlower, hupper]
  constructor
  · rintro ⟨⟨⟨⟨hnonempty, hdigits⟩, hmin⟩, hmax⟩, rfl⟩
    exact ⟨hnonempty, hdigits, Int64.toInt_ofInt_of_le hmin (by omega)⟩
  · rintro ⟨hnonempty, hdigits, rfl⟩
    exact ⟨⟨⟨⟨hnonempty, hdigits⟩, hn_lower⟩, by omega⟩, Int64.ofInt_toInt n⟩

/-! ## Reals that digits spell -/

/-- A digit has no case. -/
lemma toLower_of_isDigit {c : Char} (h : isDigit c = true) : c.toLower = c := by
  rw [isDigit_eq] at h
  unfold Char.toLower
  refine dif_neg fun hupper => ?_
  unfold Char.isDigit at h
  simp only [Bool.and_eq_true, decide_eq_true_eq] at h
  exact absurd (UInt32.le_trans hupper.1 h.2) (by decide)

/-- Digits are no word for a number. -/
lemma ofWord?_eq_none {chars : List Char} (hnonempty : (splitSign chars).2 ≠ [])
    (hdigits : ∀ c ∈ (splitSign chars).2, isDigit c = true) : Binary64.ofWord? chars = none := by
  rw [Binary64.ofWord?]
  generalize splitSign chars = parts at hnonempty hdigits
  obtain ⟨negative, digits⟩ := parts
  dsimp only at hnonempty hdigits ⊢
  have hlower : digits.map Char.toLower = digits := by
    rw [List.map_congr_left fun c hc => toLower_of_isDigit (hdigits c hc), List.map_id']
  have hword : ∀ word ∈ ["inf", "infinity", "nan"], String.ofList digits ≠ word := by
    intro word hword heq
    have hletters : ∀ word ∈ ["inf", "infinity", "nan"], word.toList.all isDigit = false := by
      decide
    have hall : digits.all isDigit = true := List.all_eq_true.2 hdigits
    rw [← String.toList_ofList (l := digits), heq, hletters word hword] at hall
    cases hall
  rw [hlower]
  simp only [List.mem_cons, List.not_mem_nil, or_false, forall_eq_or_imp, forall_eq] at hword
  obtain ⟨hinf, hinfinity, hnan⟩ := hword
  simp [hinf, hinfinity, hnan]

/-- Digits are a decimal literal without a fraction and a power of ten. -/
lemma ofChars?_of_isDigit {chars : List Char} (hnonempty : (splitSign chars).2 ≠ [])
    (hdigits : ∀ c ∈ (splitSign chars).2, isDigit c = true) :
    Decimal.ofChars? chars =
      some ⟨(splitSign chars).1, digitsValue 0 (splitSign chars).2, 0⟩ := by
  rw [Decimal.ofChars?]
  generalize splitSign chars = parts at hnonempty hdigits ⊢
  obtain ⟨negative, digits⟩ := parts
  dsimp only at hnonempty hdigits ⊢
  have hend : ∀ c ∈ ([] : List Char).head?, isDigit c = false := nofun
  obtain ⟨htake, hdrop⟩ := Json.span_append hdigits hend
  rw [List.append_nil] at htake hdrop
  have hsome : (digits.isEmpty && ([] : List Char).isEmpty) = false := by
    simpa using hnonempty
  rw [htake, hdrop]
  exact if_neg (by rw [hsome]; decide)

/-- **The real that a word of digits spells** is the one that its whole number rounds to, if this is
finite. -/
theorem finiteOfText?_of_writesInt {word : String} {n : ℤ} (h : WritesInt word n) (hn : n ≠ 0) :
    finiteOfText? word =
      (some (Binary64.ofRank (n < 0) (Binary64.natRank n.natAbs))).filter Binary64.isFinite := by
  obtain ⟨hnonempty, hdigits, hvalue⟩ := writesInt_iff.1 h
  have habs : n.natAbs = digitsValue 0 (splitSign word.toList).2 := by
    rw [hvalue, natAbs_signedInt]
  have hpos : 0 < digitsValue 0 (splitSign word.toList).2 := by
    rw [← habs]
    exact Int.natAbs_pos.2 hn
  have hnegative : (splitSign word.toList).1 = decide (n < 0) := by
    rw [hvalue]
    cases (splitSign word.toList).1 <;> simp [signedInt, hpos]
  rw [finiteOfText?, Binary64.ofText?, Binary64.ofTextWith?, ofWord?_eq_none hnonempty hdigits,
    ofChars?_of_isDigit hnonempty hdigits, Option.none_or, Option.map_some,
    Decimal.toBinary64_eq_ofRank _ hpos, hnegative, habs]

/-! ## Literals -/

namespace Value

/-- The words for the missing value and the truth values. -/
def keywords : List String := ["null", "NULL", "true", "false"]

/-- They write no number. -/
lemma not_writesInt_of_mem {word : String} (h : word ∈ keywords) (n : ℤ) : ¬ WritesInt word n := by
  have hletters : ∀ word ∈ keywords, (splitSign word.toList).2.all isDigit = false := by decide
  intro hwrites
  have hall := List.all_eq_true.2 (writesInt_iff.1 hwrites).2.1
  rw [hletters word h] at hall
  cases hall

/-- What a word is read as, and why. -/
inductive Classifies (word : String) : Value → Prop
  /-- A word for the missing value. -/
  | null (hword : word ∈ keywords) : Classifies word .null
  /-- A word for a truth value. -/
  | bool (b : Bool) (hword : word ∈ keywords) : Classifies word (.bool b)
  /-- A whole number of 64 bits. -/
  | integer {n : Int64} (hinteger : integerOfText? word = some n) : Classifies word (.integer n)
  /-- A number that is finite. -/
  | real {x : Binary64} (hinteger : integerOfText? word = none)
      (hreal : finiteOfText? word = some x) : Classifies word (.real x)
  /-- Anything else. -/
  | text (hinteger : integerOfText? word = none) (hreal : finiteOfText? word = none) :
      Classifies word (.text word)

/-- Every word is classified. -/
lemma classifies_ofLiteral (word : String) : Classifies word (ofLiteral word) := by
  by_cases hword : word ∈ keywords
  · have hcases := hword
    simp only [keywords, List.mem_cons, List.not_mem_nil, or_false] at hcases
    obtain rfl | rfl | rfl | rfl := hcases
    · exact .null hword
    · exact .null hword
    · exact .bool true hword
    · exact .bool false hword
  · simp only [keywords, List.mem_cons, List.not_mem_nil, or_false, not_or] at hword
    obtain ⟨hlower, hupper, htrue, hfalse⟩ := hword
    rw [ofLiteral, if_neg (by simp [hlower, hupper]), if_neg htrue, if_neg hfalse]
    cases hinteger : integerOfText? word with
    | some n => exact .integer hinteger
    | none =>
      cases hreal : finiteOfText? word with
      | some x => exact .real hinteger hreal
      | none => exact .text hinteger hreal

/-- **The words that are read as integers** are those that write a whole number of 64 bits. -/
theorem ofLiteral_eq_integer_iff {word : String} {n : Int64} :
    ofLiteral word = .integer n ↔ WritesInt word n.toInt := by
  have hclass := classifies_ofLiteral word
  rw [← integerOfText?_eq_some_iff]
  constructor
  · intro hvalue
    rw [hvalue] at hclass
    cases hclass with
    | integer hinteger => exact hinteger
  · intro hinteger
    generalize ofLiteral word = v at hclass
    cases hclass with
    | integer hother => rw [Option.some.inj (hother.symm.trans hinteger)]
    | null hword | bool _ hword =>
      exact absurd (integerOfText?_eq_some_iff.1 hinteger) (not_writesInt_of_mem hword _)
    | real hnone _ | text hnone _ =>
      rw [hnone] at hinteger
      cases hinteger

end Value

/-- A whole number is written by its text. -/
lemma writesInt_toString (n : ℤ) : WritesInt (toString n) n := by
  have htext : (toString n).toList = Binary64.signChars (n < 0) ++ Nat.toDigits 10 n.natAbs := by
    rw [← Json.Number.spell_ofInt]
    simp [Json.Number.spell, Json.Number.ofInt, Json.fractionChars, Json.exponentChars]
  have hdigits : ∀ c ∈ Nat.toDigits 10 n.natAbs, c.isDigit := by
    intro c hc
    rw [← isDigit_eq]
    exact isDigit_of_mem_toDigits hc
  refine ⟨_, _, ?_, Nat.toDigits_ne_nil, hdigits, htext, ?_⟩
  · by_cases hn : n < 0 <;> simp [Binary64.signChars, signs, hn]
  · have hsign : decide (Binary64.signChars (n < 0) = ['-']) = decide (n < 0) := by
      by_cases hn : n < 0 <;> simp [Binary64.signChars, hn]
    rw [Nat.ofDigitChars_ten_toDigits, sign_mul, hsign, signedInt_natAbs]

/-- A text without blanks at its ends is not trimmed. -/
lemma Text.trim_eq_self {text : String} (hhead : ∀ c ∈ text.toList.head?, isBlank c = false)
    (hlast : ∀ c ∈ text.toList.getLast?, isBlank c = false) : trim text = text := by
  have hkeep : ∀ chars : List Char, (∀ c ∈ chars.head?, isBlank c = false) →
      chars.dropWhile isBlank = chars := by
    intro chars hchars
    cases chars with
    | nil => rfl
    | cons c rest => exact List.dropWhile_cons_of_neg (by simp [hchars c rfl])
  have hback : ∀ c ∈ text.toList.reverse.head?, isBlank c = false := by
    rwa [List.head?_reverse]
  rw [trim, trimChars, hkeep _ hhead, hkeep _ hback, List.reverse_reverse, String.ofList_toList]

namespace Value

open Binary64

/-- A word that writes a whole number beyond 64 bits is read as a real, if it spells a finite one,
and otherwise as a text. -/
lemma ofLiteral_eq_elim {word : String} {n : ℤ} (h : WritesInt word n)
    (hrange : ¬ (-2 ^ 63 ≤ n ∧ n ≤ 2 ^ 63 - 1)) :
    ofLiteral word = (finiteOfText? word).elim (.text word) .real := by
  have hclass := classifies_ofLiteral word
  generalize ofLiteral word = v at hclass ⊢
  cases hclass with
  | null hword | bool _ hword => exact absurd h (not_writesInt_of_mem hword n)
  | @integer m hinteger =>
    have hm := m.le_toInt
    have hm' := m.toInt_lt
    have hsame : n = m.toInt := h.unique (integerOfText?_eq_some_iff.1 hinteger)
    exact absurd ⟨hsame ▸ hm, by omega⟩ hrange
  | real _ hreal => rw [hreal, Option.elim_some]
  | text _ hreal => rw [hreal, Option.elim_none]

/-- A word that writes a whole number beyond 64 bits is read as the nearest real, or stays a text if
it exceeds all finite reals. -/
lemma ofLiteral_of_writesInt {word : String} {n : ℤ} (h : WritesInt word n)
    (hrange : ¬ (-2 ^ 63 ≤ n ∧ n ≤ 2 ^ 63 - 1)) :
    (n.natAbs < overflowLimit ∧ ∃ x, ofLiteral word = .real x ∧ x.IsNearest n) ∨
      (overflowLimit ≤ n.natAbs ∧ ofLiteral word = .text word ∧
        ∀ x : Binary64, x.isFinite = true → |x.toRat| < |(n : ℚ)|) := by
  rw [ofLiteral_eq_elim h hrange, finiteOfText?_of_writesInt h (by omega), ofRank]
  by_cases hlimit : n.natAbs < overflowLimit
  · have hrank : natRank n.natAbs < finiteCount := natRank_lt_finiteCount_iff.2 hlimit
    have hcast : withSign (n < 0) n.natAbs = (n : ℚ) := by
      have hsigned := congrArg (Int.cast (R := ℚ)) (signedInt_natAbs n)
      rw [← hsigned]
      by_cases hn : n < 0 <;> simp [withSign, signedInt, hn]
    have hcell : (n.natAbs : ℚ) ∈ cell (⟨natRank n.natAbs, hrank⟩ : Fin finiteCount) :=
      natRank_eq_iff.1 rfl
    have hnearest := isNearest_of_mem_cell hcell (n < 0)
    rw [hcast] at hnearest
    rw [dif_pos hrank]
    exact .inl ⟨hlimit, _, rfl, hnearest⟩
  · have hrank : ¬ natRank n.natAbs < finiteCount := mt natRank_lt_finiteCount_iff.1 hlimit
    rw [dif_neg hrank]
    refine .inr ⟨Nat.not_lt.1 hlimit, rfl, ?_⟩
    intro x hx
    have habs : (n.natAbs : ℚ) = |(n : ℚ)| := by rw [Nat.cast_natAbs, Int.cast_abs]
    have hle : (overflowLimit : ℚ) ≤ n.natAbs := by exact_mod_cast Nat.not_lt.1 hlimit
    rw [← habs]
    exact (abs_toRat_lt hx).trans_le hle

/-- **Literals are classified exactly.** A word is read as an integer exactly if it writes a whole
number of 64 bits, and then as this number. A whole number beyond 64 bits is read as the nearest
real below the magnitude from which on reals overflow, and from there on, where it exceeds every
finite real, as the text it is. A real is always finite, and a text is the word itself. What a
missing value, a truth value or an integer is shown as is read as this value. An assignment to a
field key is split at the first equals sign, whatever stands behind it.

**Proof sketch.** The digits behind the sign decide (`writesInt_iff`): within the range of integers
they are taken as they are, and beyond it they spell a decimal literal without a fraction, which is
rounded once (`finiteOfText?_of_writesInt`). -/
theorem ofLiteral_exact (raw : String) :
    (∀ n : Int64, ofLiteral raw = .integer n ↔ WritesInt raw n.toInt) ∧
    (∀ n : ℤ, WritesInt raw n → ¬ (-2 ^ 63 ≤ n ∧ n ≤ 2 ^ 63 - 1) →
      (n.natAbs < overflowLimit ∧ ∃ x, ofLiteral raw = .real x ∧ x.IsNearest n) ∨
        (overflowLimit ≤ n.natAbs ∧ ofLiteral raw = .text raw ∧
          ∀ x : Binary64, x.isFinite = true → |x.toRat| < |(n : ℚ)|)) ∧
    (∀ x, ofLiteral raw = .real x → x.isFinite = true) ∧
    (∀ s, ofLiteral raw = .text s → s = raw) ∧
    (∀ v : Value, (v = .null ∨ (∃ b, v = .bool b) ∨ ∃ n, v = .integer n) →
      ofLiteral v.display = v) ∧
    ∀ field : String, field ≠ "" → '=' ∉ field.toList →
      (∀ c ∈ field.toList.head?, Text.isBlank c = false) →
      (∀ c ∈ field.toList.getLast?, Text.isBlank c = false) →
      Cli.parseAssignment (field ++ "=" ++ raw) = .ok (field, ofLiteral raw) := by
  refine ⟨fun n => ofLiteral_eq_integer_iff, fun n => ofLiteral_of_writesInt, ?_, ?_, ?_, ?_⟩
  · intro x hx
    have hclass := classifies_ofLiteral raw
    rw [hx] at hclass
    cases hclass with
    | real _ hreal => exact (Option.filter_eq_some_iff.1 hreal).2
  · intro s hs
    have hclass := classifies_ofLiteral raw
    rw [hs] at hclass
    cases hclass with
    | text => rfl
  · rintro v (rfl | ⟨b, rfl⟩ | ⟨n, rfl⟩)
    · rfl
    · cases b <;> rfl
    · exact ofLiteral_eq_integer_iff.2 (writesInt_toString n.toInt)
  · intro field hnonempty hequals hhead hlast
    rw [Cli.parseAssignment_eq_ok_iff, Cli.readAssignment?_of_equals hequals,
      Text.trim_eq_self hhead hlast, if_neg (by simpa using hnonempty)]

/-- The first whole number beyond 64 bits is read as a real, with its sign and behind any
field key. -/
theorem ofLiteral_exact_firstReal :
    WritesInt "+9223372036854775808" (2 ^ 63) ∧
      (∃ x, ofLiteral "+9223372036854775808" = .real x ∧ x.IsNearest ((2 ^ 63 : ℤ) : ℚ)) ∧
      '=' ∉ "rank".toList ∧
      Cli.parseAssignment ("rank" ++ "=" ++ "+9223372036854775808") =
        .ok ("rank", ofLiteral "+9223372036854775808") := by
  obtain ⟨-, hbeyond, -, -, -, hassign⟩ := ofLiteral_exact "+9223372036854775808"
  have hwrites : WritesInt "+9223372036854775808" (2 ^ 63) :=
    ⟨['+'], "9223372036854775808".toList, by decide, by decide, List.all_eq_true.1 (by decide),
      by decide, by decide⟩
  have hsmall : ¬ overflowLimit ≤ ((2 : ℤ) ^ 63).natAbs := by
    delta overflowLimit
    decide +kernel
  have hequals : '=' ∉ "rank".toList := by decide
  have hhead : ∀ c ∈ "rank".toList.head?, Text.isBlank c = false := by
    rintro c ⟨⟩
    decide
  have hlast : ∀ c ∈ "rank".toList.getLast?, Text.isBlank c = false := by
    rintro c ⟨⟩
    decide
  refine ⟨hwrites, ?_, hequals, hassign "rank" (by decide) hequals hhead hlast⟩
  obtain ⟨-, hreal⟩ | ⟨hlarge, -⟩ := hbeyond (2 ^ 63) hwrites (by decide)
  · exact hreal
  · exact absurd hlarge hsmall

end Value

end BoundSql
