import BoundSql.Json.Reader
import BoundSql.Proofs.Json.Numbers
import Mathlib.Data.List.Forall2
import Mathlib.Tactic.SplitIfs

/-!
# Strings and number literals are read by their grammar

The reader of strings and of number literals splits off exactly the texts of the grammar: what it
splits off is such a text, and each such text is split off in front of anything that may stand
behind it. Printed strings and spelled literals are such texts.

## Main definitions

* `BoundSql.Json.ReadsText` — what is read of a string, and what stands behind it.
* `BoundSql.Json.PieceText` — the texts of the pieces of a string.

## Main results

* `BoundSql.Json.readString?_eq_some_iff` — the strings that are read.
* `BoundSql.Json.readNumber?_append`, `BoundSql.Json.of_readNumber?_eq_some` — the number literals
  that are read.
-/

namespace BoundSql.Json

/-! ## Strings -/

/-- A code unit that is no surrogate is a character, whatever follows it. -/
lemma joinPieces?_unit_of_not_surrogate {n : Nat} (hhigh : isHighSurrogate n = false)
    (hlow : isLowSurrogate n = false) (pieces : List Piece) :
    joinPieces? (.unit n :: pieces) = (joinPieces? pieces).map (Char.ofNat n :: ·) := by
  cases pieces with
  | nil => simp [joinPieces?, hhigh, hlow]
  | cons piece rest =>
    cases piece with
    | char c => simp [joinPieces?, hhigh, hlow]
    | unit m => rw [joinPieces?]; simp [hhigh, hlow]

/-- A letter behind a backslash is one piece, unless it announces a code. -/
lemma readPieces?_letter {letter : Char} (h : letter ≠ 'u') (chars : List Char) :
    readPieces? ('\\' :: letter :: chars) = (do
      let c ← escaped? letter
      let (pieces, rest) ← readPieces? chars
      return (.char c :: pieces, rest)) := by
  rw [readPieces?.eq_def]
  grind

/-- A character that stands for itself is one piece. -/
lemma readPieces?_plain {c : Char} (hcode : 0x20 ≤ c.toNat) (hquote : c ≠ '"') (hslash : c ≠ '\\')
    (chars : List Char) :
    readPieces? (c :: chars) =
      (readPieces? chars).map fun (pieces, rest) => (.char c :: pieces, rest) := by
  rw [readPieces?.eq_def]
  grind

/-- A text up to its closing quote: what is read and what stands behind it. -/
def ReadsText (chars text rest : List Char) : Prop :=
  ∃ pieces, readPieces? chars = some (pieces, rest) ∧ joinPieces? pieces = some text

/-- The closing quote ends a text. -/
lemma ReadsText.close (rest : List Char) : ReadsText ('"' :: rest) [] rest :=
  ⟨[], by rw [readPieces?], rfl⟩

/-- The texts of pieces. -/
inductive PieceText : List Char → Piece → Prop
  /-- A character that stands for itself. -/
  | plain {c : Char} (hcode : 0x20 ≤ c.toNat) (hquote : c ≠ '"') (hslash : c ≠ '\\') :
      PieceText [c] (.char c)
  /-- A character that a letter names. -/
  | named {letter c : Char} (hletter : escaped? letter = some c) :
      PieceText ['\\', letter] (.char c)
  /-- A code unit. -/
  | unit {a b c d : Char} {n : ℕ} (hdigits : hexNumber? [a, b, c, d] = some n) :
      PieceText ['\\', 'u', a, b, c, d] (.unit n)

/-- What is read up to a closing quote is made of the texts of pieces. -/
lemma exists_pieceTexts {chars rest : List Char} {pieces : List Piece}
    (h : readPieces? chars = some (pieces, rest)) :
    ∃ parts, List.Forall₂ PieceText parts pieces ∧ chars = parts.flatten ++ '"' :: rest := by
  fun_induction readPieces? chars generalizing pieces rest with
  | case1 => cases h
  | case2 =>
    obtain ⟨rfl, rfl⟩ := Prod.mk.inj (Option.some.inj h)
    exact ⟨[], .nil, rfl⟩
  | case3 a b c d chars ih =>
    simp only [Option.bind_eq_bind, Option.bind_eq_some_iff] at h
    obtain ⟨n, hdigits, ⟨others, behind⟩, hothers, hpieces⟩ := h
    obtain ⟨rfl, rfl⟩ := Prod.mk.inj (Option.some.inj hpieces)
    obtain ⟨parts, hparts, rfl⟩ := ih hothers
    exact ⟨_ :: parts, .cons (.unit hdigits) hparts, rfl⟩
  | case4 letter chars hcode ih =>
    simp only [Option.bind_eq_bind, Option.bind_eq_some_iff] at h
    obtain ⟨c, hletter, ⟨others, behind⟩, hothers, hpieces⟩ := h
    obtain ⟨rfl, rfl⟩ := Prod.mk.inj (Option.some.inj hpieces)
    obtain ⟨parts, hparts, rfl⟩ := ih hothers
    exact ⟨_ :: parts, .cons (.named hletter) hparts, rfl⟩
  | case5 => cases h
  | case6 c chars hquote _ _ hplain ih =>
    obtain ⟨⟨others, behind⟩, hothers, hpieces⟩ := Option.map_eq_some_iff.1 h
    obtain ⟨rfl, rfl⟩ := Prod.mk.inj hpieces
    obtain ⟨parts, hparts, rfl⟩ := ih hothers
    simp only [Bool.or_eq_true, decide_eq_true_eq, not_or, Nat.not_lt] at hplain
    exact ⟨_ :: parts, .cons (.plain hplain.1 hquote hplain.2) hparts, rfl⟩

/-- Pieces that are joined are written by a text of the grammar. -/
lemma stringText_of_joinPieces? {parts : List (List Char)} {pieces : List Piece} {text : List Char}
    (hparts : List.Forall₂ PieceText parts pieces) (h : joinPieces? pieces = some text) :
    StringText parts.flatten text := by
  fun_induction joinPieces? pieces generalizing parts text with
  | case1 =>
    obtain rfl := List.forall₂_nil_right_iff.1 hparts
    obtain rfl := Option.some.inj h
    exact .nil
  | case2 c pieces ih =>
    obtain ⟨tail, htail, rfl⟩ := Option.map_eq_some_iff.1 h
    cases hparts with
    | cons hpart hparts =>
      cases hpart with
      | plain hcode hquote hslash => exact .plain hcode hquote hslash (ih hparts htail)
      | named hletter => exact .named hletter (ih hparts htail)
  | case3 n m pieces hhigh hlow ih =>
    obtain ⟨tail, htail, rfl⟩ := Option.map_eq_some_iff.1 h
    cases hparts with
    | cons hpart hparts =>
      cases hpart with
      | unit hdigits =>
        cases hparts with
        | cons hpart' hparts =>
          cases hpart' with
          | unit hdigits' => exact .pair hdigits hdigits' hhigh hlow (ih hparts htail)
  | case4 => cases h
  | case5 => cases h
  | case6 n m pieces hhigh hlow ih =>
    obtain ⟨tail, htail, rfl⟩ := Option.map_eq_some_iff.1 h
    cases hparts with
    | cons hpart hparts =>
      cases hpart with
      | unit hdigits =>
        exact .unit hdigits (Bool.eq_false_iff.2 hhigh) (Bool.eq_false_iff.2 hlow)
          (ih hparts htail)
  | case7 => cases h
  | case8 n pieces _ hplain ih =>
    obtain ⟨tail, htail, rfl⟩ := Option.map_eq_some_iff.1 h
    rw [Bool.not_eq_true, Bool.or_eq_false_iff] at hplain
    cases hparts with
    | cons hpart hparts =>
      cases hpart with
      | unit hdigits => exact .unit hdigits hplain.1 hplain.2 (ih hparts htail)

/-- A text of the grammar is read up to its closing quote. -/
lemma StringText.readsText {body text : List Char} (h : StringText body text) (rest : List Char) :
    ReadsText (body ++ '"' :: rest) text rest := by
  induction h with
  | nil => exact .close rest
  | @plain c body text hcode hquote hslash _ ih =>
    obtain ⟨pieces, hpieces, htext⟩ := ih
    refine ⟨.char c :: pieces, ?_, by simp [joinPieces?, htext]⟩
    rw [List.cons_append, readPieces?_plain hcode hquote hslash, hpieces]
    rfl
  | @named letter c body text hletter _ ih =>
    obtain ⟨pieces, hpieces, htext⟩ := ih
    have hcode : letter ≠ 'u' := by
      rintro rfl
      cases hletter
    refine ⟨.char c :: pieces, ?_, by simp [joinPieces?, htext]⟩
    rw [List.cons_append, List.cons_append, readPieces?_letter hcode, hletter, hpieces]
    rfl
  | @unit _ _ _ _ n body text hdigits hhigh hlow _ ih =>
    obtain ⟨pieces, hpieces, htext⟩ := ih
    refine ⟨.unit n :: pieces, ?_, ?_⟩
    · simp only [List.cons_append]
      rw [readPieces?, hdigits, hpieces]
      rfl
    · rw [joinPieces?_unit_of_not_surrogate hhigh hlow, htext]
      rfl
  | @pair _ _ _ _ _ _ _ _ n m body text hdigits hdigits' hhigh hlow _ ih =>
    obtain ⟨pieces, hpieces, htext⟩ := ih
    refine ⟨.unit n :: .unit m :: pieces, ?_, ?_⟩
    · simp only [List.cons_append]
      rw [readPieces?, hdigits, readPieces?, hdigits', hpieces]
      rfl
    · rw [joinPieces?, if_pos hhigh, if_pos hlow, htext]
      rfl

/-- **The strings that are read** are the texts of the grammar up to their closing quotes. -/
theorem readString?_eq_some_iff {chars rest : List Char} {s : String} :
    readString? chars = some (s, rest) ↔
      ∃ body text, StringText body text ∧ s = String.ofList text ∧ chars = body ++ '"' :: rest := by
  simp only [readString?, Option.bind_eq_bind, Option.bind_eq_some_iff]
  constructor
  · rintro ⟨⟨pieces, behind⟩, hpieces, text, htext, hs⟩
    obtain ⟨rfl, rfl⟩ := Prod.mk.inj (Option.some.inj hs)
    obtain ⟨parts, hparts, rfl⟩ := exists_pieceTexts hpieces
    exact ⟨_, text, stringText_of_joinPieces? hparts htext, rfl, rfl⟩
  · rintro ⟨body, text, hbody, rfl, rfl⟩
    obtain ⟨pieces, hpieces, htext⟩ := hbody.readsText rest
    exact ⟨(pieces, rest), hpieces, text, htext, rfl⟩

/-! ## Printed strings -/

/-- **The three ways to write a character.** -/
lemma escape_cases (c : Char) :
    (escape c = [c] ∧ 0x20 ≤ c.toNat ∧ c ≠ '"' ∧ c ≠ '\\') ∨
    (∃ letter, escape c = ['\\', letter] ∧ escaped? letter = some c) ∨
    (c.toNat < 0x20 ∧
      escape c = ['\\', 'u', '0', '0', hexDigit (c.toNat / 16), hexDigit (c.toNat % 16)]) := by
  unfold escape
  split_ifs with hquote hslash hback hfeed hline hreturn htab hcontrol
  · exact .inr (.inl ⟨'"', rfl, by rw [hquote]; rfl⟩)
  · exact .inr (.inl ⟨'\\', rfl, by rw [hslash]; rfl⟩)
  · exact .inr (.inl ⟨'b', rfl, by rw [hback]; rfl⟩)
  · exact .inr (.inl ⟨'f', rfl, by rw [hfeed]; rfl⟩)
  · exact .inr (.inl ⟨'n', rfl, by rw [hline]; rfl⟩)
  · exact .inr (.inl ⟨'r', rfl, by rw [hreturn]; rfl⟩)
  · exact .inr (.inl ⟨'t', rfl, by rw [htab]; rfl⟩)
  · exact .inr (.inr ⟨hcontrol, rfl⟩)
  · exact .inl ⟨rfl, Nat.le_of_not_lt hcontrol, hquote, hslash⟩

/-- The code of a control character is read back from its two last digits. -/
lemma hexNumber?_control : ∀ n < 0x20,
    hexNumber? ['0', '0', hexDigit (n / 16), hexDigit (n % 16)] = some n := by
  decide

/-- The characters of a printed text write it. -/
lemma stringText_escape (text : List Char) : StringText (text.flatMap escape) text := by
  induction text with
  | nil => exact .nil
  | cons c text ih =>
    rw [List.flatMap_cons]
    obtain ⟨hescape, hcode, hquote, hslash⟩ | ⟨letter, hescape, hletter⟩ |
      ⟨hcontrol, hescape⟩ := escape_cases c
    · rw [hescape]
      exact .plain hcode hquote hslash ih
    · rw [hescape]
      exact .named hletter ih
    · have hunit := StringText.unit (hexNumber?_control c.toNat hcontrol)
        (by simp only [isHighSurrogate]; grind) (by simp only [isLowSurrogate]; grind) ih
      rw [hescape]
      rwa [Char.ofNat_toNat] at hunit

/-! ## Number literals -/

/-- A power of ten is read in front of a text that does not continue it. -/
lemma readExponent?_of_text {chars rest : List Char} {exponent? : Option ℤ}
    (h : ExponentText chars exponent?) (hrest : EndsNumber rest) :
    readExponent? (chars ++ rest) = some (exponent?, rest) := by
  cases h with
  | absent =>
    cases rest with
    | nil => rfl
    | cons c rest =>
      obtain ⟨-, -, hlower, hupper⟩ := hrest c rfl
      simp [readExponent?, hlower, hupper]
  | @power letter sign digits hletter hsign hnonempty hdigits =>
    obtain ⟨htake, hdrop⟩ := span_append hdigits hrest.endsDigits
    have hsplit : splitSign (sign ++ (digits ++ rest)) =
        (decide (sign = ['-']), digits ++ rest) := by
      apply splitSign_append hsign
      intro c hc
      obtain ⟨first, tail, rfl⟩ := List.exists_cons_of_ne_nil hnonempty
      obtain rfl := Option.some.inj hc
      exact hdigits _ List.mem_cons_self
    have hempty : digits.isEmpty = false := by simpa using hnonempty
    rw [List.cons_append, List.append_assoc, readExponent?, if_pos (by simpa using hletter), hsplit]
    simp only [htake, hdrop, hempty]
    rfl

/-- A power of ten that is read is a text of the grammar. -/
lemma of_readExponent?_eq_some {chars rest : List Char} {exponent? : Option ℤ}
    (h : readExponent? chars = some (exponent?, rest)) :
    ∃ text, ExponentText text exponent? ∧ chars = text ++ rest := by
  cases chars with
  | nil =>
    obtain ⟨rfl, rfl⟩ := Prod.mk.inj (Option.some.inj h)
    exact ⟨[], .absent, rfl⟩
  | cons letter tail =>
    rw [readExponent?] at h
    split at h
    next hletter =>
      obtain ⟨sign, hsign, htail, hminus⟩ := exists_sign tail
      dsimp only at h
      rw [hminus] at h
      split at h
      next => cases h
      next hnonempty =>
        obtain ⟨rfl, rfl⟩ := Prod.mk.inj (Option.some.inj h)
        refine ⟨letter :: (sign ++ (splitSign tail).2.takeWhile isDigit),
          .power (by simpa using hletter) hsign (by simpa using hnonempty)
            fun c hc => List.mem_takeWhile_imp hc, ?_⟩
        rw [List.cons_append, List.append_assoc, List.takeWhile_append_dropWhile, ← htail]
    next =>
      obtain ⟨rfl, rfl⟩ := Prod.mk.inj (Option.some.inj h)
      exact ⟨[], .absent, rfl⟩

/-- A fraction that is read is a point and digits, or nothing. -/
lemma of_readFraction?_eq_some {chars rest fraction : List Char}
    (h : readFraction? chars = some (fraction, rest)) :
    (∀ c ∈ fraction, isDigit c = true) ∧ chars = fractionChars fraction ++ rest := by
  unfold readFraction? at h
  split at h
  next tail =>
    dsimp only at h
    split at h
    next => cases h
    next hnonempty =>
      obtain ⟨rfl, rfl⟩ := Prod.mk.inj (Option.some.inj h)
      refine ⟨fun c hc => List.mem_takeWhile_imp hc, ?_⟩
      rw [fractionChars, if_neg hnonempty, List.cons_append, List.takeWhile_append_dropWhile]
  next =>
    obtain ⟨rfl, rfl⟩ := Prod.mk.inj (Option.some.inj h)
    exact ⟨by simp, rfl⟩

/-- A whole part that is read is a zero, or digits without a zero in front. -/
lemma of_readWhole?_eq_some {chars rest whole : List Char}
    (h : readWhole? chars = some (whole, rest)) :
    (whole = ['0'] ∨ ∃ first tail, whole = first :: tail ∧ first ≠ '0') ∧
      (∀ c ∈ whole, isDigit c = true) ∧ chars = whole ++ rest := by
  unfold readWhole? at h
  split at h
  next tail =>
    split at h
    next => cases h
    next =>
      obtain ⟨rfl, rfl⟩ := Prod.mk.inj (Option.some.inj h)
      refine ⟨.inl rfl, fun c hc => ?_, rfl⟩
      rw [List.mem_singleton.1 hc]
      rfl
  next hzero =>
    dsimp only at h
    split at h
    next => cases h
    next hnonempty =>
      obtain ⟨rfl, rfl⟩ := Prod.mk.inj (Option.some.inj h)
      refine ⟨.inr ?_, fun c hc => List.mem_takeWhile_imp hc,
        (List.takeWhile_append_dropWhile).symm⟩
      cases chars with
      | nil => exact absurd rfl hnonempty
      | cons first tail =>
        cases hfirst : isDigit first with
        | false =>
          rw [List.takeWhile_cons_of_neg (by simp [hfirst])] at hnonempty
          exact absurd rfl hnonempty
        | true =>
          rw [List.takeWhile_cons_of_pos hfirst]
          exact ⟨first, _, rfl, fun heq => hzero tail (by rw [heq])⟩

/-- A minus sign is read in front of a digit. -/
lemma readMinus_append {negative : Bool} {chars : List Char}
    (hchars : ∀ c ∈ chars.head?, isDigit c = true) :
    readMinus (Binary64.signChars negative ++ chars) = (negative, chars) := by
  cases negative with
  | true => rfl
  | false =>
    have hfirst : ∀ rest, chars ≠ '-' :: rest := by
      rintro rest rfl
      exact absurd (hchars '-' rfl) (by decide)
    have hplain : readMinus chars = (false, chars) := readMinus.eq_2 _ hfirst
    exact hplain

/-- What is read is a minus sign, or nothing. -/
lemma eq_signChars_append (chars : List Char) :
    chars = Binary64.signChars (readMinus chars).1 ++ (readMinus chars).2 := by
  unfold readMinus
  split
  next => rfl
  next => rfl

/-- The power of ten does not continue a run of digits, nor does a fraction. -/
lemma ExponentText.endsDigits {chars rest : List Char} {exponent? : Option ℤ}
    (h : ExponentText chars exponent?) (hrest : EndsNumber rest) :
    EndsDigits (chars ++ rest) ∧ (chars ++ rest).head? ≠ some '.' := by
  cases h with
  | absent => exact ⟨hrest.endsDigits, fun hhead => (hrest '.' hhead).2.1 rfl⟩
  | power hletter _ _ _ =>
    obtain rfl | rfl := hletter
    · exact ⟨by rintro c ⟨⟩; rfl, by simp⟩
    · exact ⟨by rintro c ⟨⟩; rfl, by simp⟩

/-- **Number literals** are read in front of a text that does not continue them. -/
theorem readNumber?_append {chars rest : List Char} {number : Number}
    (h : NumberText chars number) (hrest : EndsNumber rest) :
    readNumber? (chars ++ rest) = some (number, rest) := by
  obtain ⟨hnumber, exponent, hexponent, rfl⟩ := h
  obtain ⟨hend, hpoint⟩ := hexponent.endsDigits hrest
  have hwhole := readWhole?_append hnumber.whole
    (fun c hc => hnumber.digits c (List.mem_append_left _ hc))
    (endsDigits_fractionChars number.fraction hend)
  have hfraction := readFraction?_append
    (fun c hc => hnumber.digits c (List.mem_append_right _ hc)) hend hpoint
  have hdigit : ∀ c ∈ (number.whole ++
      (fractionChars number.fraction ++ (exponent ++ rest))).head?, isDigit c = true := by
    obtain ⟨first, tail, htail, hfirst⟩ := hnumber.exists_whole_eq_cons
    rw [htail]
    rintro c ⟨⟩
    exact hfirst
  simp only [List.append_assoc, readNumber?, readMinus_append hdigit, hwhole, hfraction,
    readExponent?_of_text hexponent hrest, Option.bind_eq_bind, Option.bind_some]
  rfl

/-- **Number literals that are read** are texts of the grammar. -/
theorem of_readNumber?_eq_some {chars rest : List Char} {number : Number}
    (h : readNumber? chars = some (number, rest)) :
    ∃ text, NumberText text number ∧ chars = text ++ rest := by
  have hminus := eq_signChars_append chars
  simp only [readNumber?, Option.bind_eq_bind, Option.bind_eq_some_iff] at h
  obtain ⟨⟨whole, behindWhole⟩, hwhole, ⟨fraction, behindFraction⟩, hfraction,
    ⟨exponent?, behind⟩, hexponent, hnumber⟩ := h
  obtain ⟨rfl, rfl⟩ := Prod.mk.inj (Option.some.inj hnumber)
  obtain ⟨hshape, hwholeDigits, hwholeText⟩ := of_readWhole?_eq_some hwhole
  obtain ⟨hfractionDigits, rfl⟩ := of_readFraction?_eq_some hfraction
  obtain ⟨exponent, hexponentText, rfl⟩ := of_readExponent?_eq_some hexponent
  refine ⟨_, ⟨⟨hshape, ?_⟩, exponent, hexponentText, rfl⟩, ?_⟩
  · intro c hc
    exact (List.mem_append.1 hc).elim (hwholeDigits c) (hfractionDigits c)
  · refine hminus.trans ?_
    rw [hwholeText]
    simp only [List.append_assoc]

/-- The characters of a power of ten write it. -/
lemma exponentText_exponentChars (exponent? : Option ℤ) :
    ExponentText (exponentChars exponent?) exponent? := by
  cases exponent? with
  | none => exact .absent
  | some e =>
    have hsign : (if e < 0 then ['-'] else ['+']) ∈ signs := by split_ifs <;> decide
    have hminus : decide ((if e < 0 then ['-'] else ['+']) = ['-']) = decide (e < 0) := by
      split_ifs with he
      · simp [he]
      · simp [he]
    have htext := ExponentText.power (.inl rfl) hsign Nat.toDigits_ne_nil
      (fun c => isDigit_of_mem_toDigits (n := e.natAbs))
    rw [hminus, digitsValue_toDigits, signedInt_natAbs] at htext
    exact htext

/-- A spelled literal is a number literal. -/
lemma numberText_spell {number : Number} (h : number.WellFormed) :
    NumberText number.spell number := by
  refine ⟨h, exponentChars number.exponent?, exponentText_exponentChars _, ?_⟩
  simp only [Number.spell, List.append_assoc]

/-! ## First characters -/

/-- A class without blanks. -/
lemma isSpace_eq_false {p : Char → Bool} {c : Char} (hc : p c = true)
    (hspaces : [' ', '\t', '\n', '\r'].all (!p ·) = true) : isSpace c = false := by
  have hne : ∀ d ∈ [' ', '\t', '\n', '\r'], c ≠ d := fun d hd =>
    ne_of_class hc (Bool.not_eq_true' _ ▸ List.all_eq_true.1 hspaces d hd)
  simp only [List.forall_mem_cons, List.not_mem_nil, false_imp_iff, implies_true] at hne
  simp [isSpace, hne]

/-- A digit is no letter. -/
lemma isLower_of_isDigit {c : Char} (h : BoundSql.isDigit c = true) : c.isLower = false := by
  simp only [isDigit, Bool.and_eq_true, decide_eq_true_eq, Char.le_def,
    UInt32.le_iff_toNat_le] at h
  delta Char.isLower
  simp only [Bool.and_eq_false_iff, decide_eq_false_iff_not, ge_iff_le, UInt32.le_iff_toNat_le]
  have hnine : ('9' : Char).val.toNat < ('a' : Char).val.toNat := by decide
  omega

/-- Neither a sign nor a digit is a letter, a quote, a bracket or a blank. -/
lemma ne_of_isDigit {c : Char} (h : c = '-' ∨ BoundSql.isDigit c = true) :
    c.isLower = false ∧ c ≠ '"' ∧ c ≠ '[' ∧ c ≠ '\x7b' ∧ isSpace c = false := by
  obtain rfl | hdigit := h
  · decide
  · exact ⟨isLower_of_isDigit hdigit, ne_of_class hdigit (by decide),
      ne_of_class hdigit (by decide), ne_of_class hdigit (by decide),
      isSpace_eq_false hdigit (by decide)⟩

end BoundSql.Json
