import BoundSql.Proofs.Toml.Places

/-!
# Written pairs and headers are read

The pairs and headers that a schema is written with are legible if the names in it are words, which
need no escapes. The columns of a table are written under a header each, or as an array of tables in
braces with blanks in front of each of them.

## Main definitions

* `BoundSql.Toml.IsWord` — texts of letters, digits, underscores and hyphens.
* `BoundSql.textPair` — a key with a text.
* `BoundSql.ColumnEntry.toInline` — a column as a table in braces.
* `BoundSql.columnsPair` — the columns of a table as an array of these.

## Main results

* `BoundSql.Toml.readValue?_word` — a word in quotes is read as the text that it is.
* `BoundSql.textPair_legible`, `BoundSql.emptyPair_legible`, `BoundSql.columnsPair_legible` — the
  written pairs are legible.
* `BoundSql.header_legible_tables`, `BoundSql.header_legible_columns` — the written headers are.
-/

namespace BoundSql.Toml

/-! ## Words -/

/-- A text that needs neither quotes nor escapes. -/
def IsWord (chars : List Char) : Prop := chars ≠ [] ∧ ∀ c ∈ chars, isKeyChar c = true

instance (chars : List Char) : Decidable (IsWord chars) :=
  decidable_of_iff (chars ≠ [] ∧ chars.all isKeyChar = true) (and_congr_right' List.all_eq_true)

/-- The characters of words have codes in a range without controls. -/
lemma toNat_of_isKeyChar {c : Char} (h : isKeyChar c = true) : 0x2d ≤ c.toNat ∧ c.toNat ≤ 0x7a := by
  simp only [isKeyChar, Char.isAlphanum] at h
  delta Char.isAlpha Char.isUpper Char.isLower Char.isDigit at h
  simp only [Bool.or_eq_true, Bool.and_eq_true, decide_eq_true_eq, ge_iff_le,
    UInt32.le_iff_toNat_le] at h
  unfold Char.toNat
  rcases h with (((h | h) | h) | rfl) | rfl
  · change 65 ≤ c.val.toNat ∧ c.val.toNat ≤ 90 at h
    omega
  · change 97 ≤ c.val.toNat ∧ c.val.toNat ≤ 122 at h
    omega
  · change 48 ≤ c.val.toNat ∧ c.val.toNat ≤ 57 at h
    omega
  · decide
  · decide

/-- Characters of keys need no escape in a quoted string. -/
lemma isPlain_of_isKeyChar {c : Char} (h : isKeyChar c = true) : isPlain c = true := by
  obtain ⟨hlow, hhigh⟩ := toNat_of_isKeyChar h
  rw [isPlain, Bool.or_eq_true]
  refine .inr ?_
  rw [Bool.and_eq_true, decide_eq_true_eq, decide_eq_true_eq]
  omega

/-- Characters of keys do not end a string or a line. -/
lemma ne_of_isKeyChar {c : Char} (h : isKeyChar c = true) :
    c ≠ '"' ∧ c ≠ '\\' ∧ c ≠ '\r' ∧ c ≠ '\n' := by
  refine ⟨?_, ?_, ?_, ?_⟩ <;>
    · rintro rfl
      cases h

/-- Characters of keys are no blanks. -/
lemma isSpace_of_isKeyChar {c : Char} (h : isKeyChar c = true) : isSpace c = false :=
  isSpace_of_isKeyStart (by rw [isKeyStart, h, Bool.or_true])

/-- There is no carriage return in a word. -/
lemma IsWord.not_mem_return {chars : List Char} (h : IsWord chars) : '\r' ∉ chars := by
  intro hmem
  cases h.2 _ hmem

/-- An identifier is a word. -/
lemma isWord_of_isIdentifier {text : String} (h : isIdentifier text) : IsWord text.toList := by
  unfold isIdentifier at h
  split at h
  · cases h
  · next c rest hchars =>
    rw [hchars]
    rw [Bool.and_eq_true, Bool.or_eq_true, List.all_eq_true] at h
    refine ⟨List.cons_ne_nil _ _, List.forall_mem_cons.2 ⟨?_, ?_⟩⟩
    · rw [isKeyChar, Char.isAlphanum]
      rcases h.1 with hc | hc
      · simp [hc]
      · simp [of_decide_eq_true hc]
    · intro d hd
      have hword := h.2 d hd
      rw [isKeyChar, Bool.or_eq_true]
      exact .inl hword

/-! ## Quotes -/

/-- Characters of keys are written as they are. -/
lemma needsEscape_of_isKeyChar {c : Char} (h : isKeyChar c = true) : needsEscape c = false := by
  obtain ⟨hlow, hhigh⟩ := toNat_of_isKeyChar h
  have hcontrol : decide (c.toNat < 0x20) = false := decide_eq_false (by omega)
  have hdelete : decide (c.toNat = 0x7f) = false := decide_eq_false (by omega)
  rw [needsEscape, hcontrol, hdelete]
  rfl

/-- No run of quotes is in a text without quotes. -/
lemma longestRun_eq_zero {c : Char} {chars : List Char} (h : c ∉ chars) :
    longestRun c chars = 0 := by
  have hruns : runLengths c chars = (0, 0) := by
    induction chars with
    | nil => rfl
    | cons d rest ih =>
      rw [List.mem_cons, not_or] at h
      rw [runLengths, ih h.2]
      exact if_neg (Ne.symm h.1)
  rw [longestRun, hruns]

/-- A word is written as it is. -/
lemma escapeAll_word {chars : List Char} (h : ∀ c ∈ chars, isKeyChar c = true) (free row : Nat) :
    escapeAll false free row chars = chars := by
  induction chars generalizing row with
  | nil => rfl
  | cons c rest ih =>
    rw [List.forall_mem_cons] at h
    obtain ⟨hquote, hbackslash, hreturn, hline⟩ := ne_of_isKeyChar h.1
    obtain ⟨hlow, hhigh⟩ := toNat_of_isKeyChar h.1
    have hescape : escape false c = [c] := by
      have hne : ∀ d : Char, d.toNat < 0x2d → c ≠ d := by
        rintro d hd rfl
        omega
      rw [escape, if_neg (hne _ (by decide)), if_neg (hne _ (by decide)), if_neg hline,
        if_neg (hne _ (by decide)), if_neg hreturn, if_neg hbackslash,
        needsEscape_of_isKeyChar h.1]
      rfl
    rw [escapeAll, if_neg hquote, hescape, ih h.2]
    rfl

/-- **A word** is written between double quotes. -/
theorem quoteChars_word {chars : List Char} (h : IsWord chars) :
    quoteChars chars = '"' :: chars ++ ['"'] := by
  have hcodes : chars.any needsEscape = false := by
    rw [List.any_eq_false]
    intro c hc
    rw [needsEscape_of_isKeyChar (h.2 c hc)]
    exact Bool.false_ne_true
  have hnot : ∀ c, isKeyChar c = false → chars.contains c = false := by
    intro c hc
    rw [List.contains_eq_mem, decide_eq_false_iff_not]
    intro hmem
    rw [h.2 c hmem] at hc
    cases hc
  have hquotes : longestRun '"' chars = 0 := by
    refine longestRun_eq_zero fun hmem => ?_
    cases h.2 _ hmem
  unfold quoteChars
  rw [hcodes, hnot '\\' rfl, hquotes, hnot '\n' rfl, escapeAll_word h.2]
  rfl

/-- The characters of a word up to a quote are read. -/
lemma readBasic?_word {chars : List Char} (h : ∀ c ∈ chars, isKeyChar c = true)
    (rest : List Char) : readBasic? false false (chars ++ '"' :: rest) = some (chars, rest) := by
  induction chars with
  | nil => rfl
  | cons c tail ih =>
    rw [List.forall_mem_cons] at h
    obtain ⟨hquote, hbackslash, hreturn, -⟩ := ne_of_isKeyChar h.1
    have hplain : (isPlain c && c ≠ '\\') = true := by
      rw [isPlain_of_isKeyChar h.1]
      exact decide_eq_true hbackslash
    rw [List.cons_append, readBasic?_char hquote hbackslash hreturn, Bool.false_and,
      if_neg Bool.false_ne_true, Bool.false_and, Bool.false_or, if_pos hplain, ih h.2]
    rfl

/-- **A word in quotes** is read as the text that it is. -/
theorem readValue?_word {chars : List Char} (h : IsWord chars) (fuel depth : Nat)
    (rest : List Char) :
    readValue? (fuel + 1) depth (quoteChars chars ++ rest) =
      some (.text (String.ofList chars), rest) := by
  obtain ⟨hne, hword⟩ := h
  cases chars with
  | nil => exact absurd rfl hne
  | cons c tail =>
    obtain ⟨hquote, -⟩ := ne_of_isKeyChar (hword c List.mem_cons_self)
    have hread := readBasic?_word hword rest
    have htext : readText? ('"' :: (c :: tail ++ '"' :: rest)) = some (c :: tail, rest) := by
      rw [readText?]
      · exact hread
      · rintro _ heq
        exact hquote (List.cons.inj (List.cons.inj heq).2).1
      · rintro _ heq
        cases heq
    rw [quoteChars_word ⟨hne, hword⟩, List.append_assoc, List.cons_append, List.cons_append,
      List.singleton_append, readValue?_scalar (by decide) (by decide)]
    change (readText? ('"' :: (c :: tail ++ '"' :: rest))).map _ = _
    rw [htext]
    rfl

/-! ## Keys -/

/-- A word as a key, up to a character that is not part of it. -/
lemma readSpacedKey?_word {chars rest : List Char} (h : IsWord chars)
    (hrest : ∀ c tail, rest = c :: tail → isKeyChar c = false) :
    readSpacedKey? (chars ++ rest) = some (String.ofList chars, skipSpace rest) := by
  obtain ⟨hne, hword⟩ := h
  cases chars with
  | nil => exact absurd rfl hne
  | cons c tail =>
    have hc := hword c List.mem_cons_self
    have hspan : (c :: tail ++ rest).takeWhile isKeyChar = c :: tail ∧
        (c :: tail ++ rest).dropWhile isKeyChar = rest := by
      rw [List.takeWhile_append_of_pos hword, List.dropWhile_append_of_pos hword]
      cases rest with
      | nil => exact ⟨by simp, rfl⟩
      | cons d more =>
        have hd : ¬ isKeyChar d = true := by simp [hrest d more rfl]
        rw [List.takeWhile_cons_of_neg hd, List.dropWhile_cons_of_neg hd, List.append_nil]
        exact ⟨rfl, rfl⟩
    have hkey : readKey? (c :: tail ++ rest) = some (String.ofList (c :: tail), rest) := by
      rw [List.cons_append] at hspan ⊢
      rw [readKey?, hspan.1, hspan.2]
      · rfl
      · rintro _ heq
        exact (ne_of_isKeyChar hc).1 (List.cons.inj heq).1
      · rintro _ heq
        rw [(List.cons.inj heq).1] at hc
        cases hc
    have hskip : skipSpace (c :: tail ++ rest) = c :: tail ++ rest := by
      rw [List.cons_append]
      exact List.dropWhile_cons_of_neg (by simp [isSpace_of_isKeyChar hc])
    rw [readSpacedKey?, hskip, hkey]
    rfl

/-- A word as the last key. -/
lemma readKeys?_word {chars rest tail : List Char} {c : Char} (h : IsWord chars)
    (hrest : ∀ c tail, rest = c :: tail → isKeyChar c = false) (hskip : skipSpace rest = c :: tail)
    (hc : c ≠ '.') (fuel : Nat) :
    readKeys? (fuel + 1) (chars ++ rest) = some ([], String.ofList chars, c :: tail) := by
  rw [readKeys?_succ, readSpacedKey?_word h hrest, hskip]
  split
  · next heq => cases heq
  · next heq =>
    exact absurd (List.cons.inj (Prod.mk.inj (Option.some.inj heq)).2).1 hc
  · next heq =>
    obtain ⟨rfl, rfl⟩ := Prod.mk.inj (Option.some.inj heq)
    rfl

/-- A word as a key with dots behind it. -/
lemma readKeys?_word_dot {chars rest : List Char} (h : IsWord chars) (fuel : Nat) :
    readKeys? (fuel + 1) (chars ++ '.' :: rest) =
      (readKeys? fuel rest).map fun (path, last, rest) =>
        (String.ofList chars :: path, last, rest) := by
  have hrest : ∀ c tail, '.' :: rest = c :: tail → isKeyChar c = false := by
    intro c tail heq
    rw [← (List.cons.inj heq).1]
    rfl
  rw [readKeys?_succ, readSpacedKey?_word h hrest]
  rfl

/-- **A word with a value** behind an equals sign. -/
theorem readBinding?_word {key value rest : List Char} {node : Node} {depth : Nat}
    {fuel : Nat → Nat} (hkey : IsWord key) (hvalue : skipSpace (value ++ rest) = value ++ rest)
    (hread : ∀ n, (value ++ rest).length < n →
      readValue? (fuel n) depth (value ++ rest) = some (node, rest)) :
    readBinding? fuel depth (key ++ ' ' :: '=' :: ' ' :: (value ++ rest)) =
      some (([], String.ofList key, node), rest) := by
  refine readBinding?_eq_some_iff.2 ⟨' ' :: (value ++ rest), ?_, ?_⟩
  · have hlength : (key ++ ' ' :: '=' :: ' ' :: (value ++ rest)).length =
        (key.length + (value ++ rest).length + 2) + 1 := by
      simp only [List.length_append, List.length_cons]
      omega
    rw [hlength]
    refine readKeys?_word hkey ?_ rfl (by decide) _
    intro c tail heq
    rw [← (List.cons.inj heq).1]
    rfl
  · have hskip : skipSpace (' ' :: (value ++ rest)) = value ++ rest := hvalue
    rw [hskip]
    exact hread _ (Nat.lt_succ_self _)

/-! ## Blanks -/

/-- Blanks and line feeds are read as such. -/
lemma IsBlank.isTrivia {text : String} (h : IsBlank text) : IsTrivia text := by
  unfold IsBlank at h
  unfold IsTrivia
  generalize text.toList = chars at h ⊢
  induction chars with
  | nil => exact .nil _
  | cons c rest ih =>
    rw [List.forall_mem_cons] at h
    rcases h.1 with rfl | rfl | rfl
    · exact .space rfl (ih h.2)
    · exact .space rfl (ih h.2)
    · exact .feed (ih h.2)

/-- There is no carriage return in a blank text. -/
lemma IsBlank.not_mem_return {text : String} (h : IsBlank text) : '\r' ∉ text.toList := by
  intro hmem
  rcases h _ hmem with heq | heq | heq <;> cases heq

/-! ## Written pairs -/

/-- A pair whose key is a word is legible if its value is read. -/
lemma pair_legible {pair : Pair} (value : List Char) (hpath : pair.path = [])
    (hkey : IsWord pair.key.toList)
    (hwritten : pair.written.toList = pair.key.toList ++ ' ' :: '=' :: ' ' :: value)
    (hreturn : '\r' ∉ value) (hstart : ∃ c tail, value = c :: tail ∧ isSpace c = false)
    (hread : ∀ n rest, (value ++ rest).length < n →
      readValue? (2 * n + 2) maxDepth (value ++ rest) = some (pair.value, rest))
    (hbefore : Trivia false pair.before.toList false) : pair.Legible := by
  have hline : '\r' ∉ pair.written.toList := by
    rw [hwritten]
    simp [hkey.not_mem_return, hreturn]
  refine ⟨hbefore, ?_, .of_not_mem hline, ?_⟩
  · obtain ⟨hne, hword⟩ := hkey
    cases hchars : pair.key.toList with
    | nil => exact absurd hchars hne
    | cons c tail =>
      refine ⟨c, tail ++ ' ' :: '=' :: ' ' :: value, by rw [hwritten, hchars]; rfl, ?_⟩
      rw [isKeyStart, hword c (hchars ▸ List.mem_cons_self), Bool.or_true]
  · intro before rest hrest
    have hskip : skipSpace (value ++ rest) = value ++ rest := by
      obtain ⟨c, tail, rfl, hc⟩ := hstart
      exact List.dropWhile_cons_of_neg (by simp [hc])
    refine readPair?_eq_some_iff.2 ⟨rest, ?_, readLineEnd?_atEnd hrest, rfl, ?_⟩
    · have hbinding : readBinding? (fun n => 2 * n + 2) maxDepth
          (pair.key.toList ++ ' ' :: '=' :: ' ' :: (value ++ rest)) =
            some (([], String.ofList pair.key.toList, pair.value), rest) :=
        readBinding?_word hkey hskip fun n hn => hread n rest hn
      rw [String.ofList_toList] at hbinding
      rw [clean_eq_self hline, hwritten, List.append_assoc]
      simp only [hpath]
      exact hbinding
    · change dropReturns pair.written = _
      rw [consumed_append, ofList_clean_toList]

/-- A word as a key is written as it is. -/
lemma keyText_word {key : String} (h : IsWord key.toList) : keyText key = key := by
  have hempty : key.isEmpty = false := by
    rw [Bool.eq_false_iff, Ne, String.isEmpty_iff]
    rintro rfl
    exact h.1 rfl
  rw [keyText, hempty, List.all_eq_true.2 h.2]
  rfl

/-- A key with a text. -/
def textPair (key text : String) : Pair := writtenPair key (.text text)

/-- The characters of a pair of a key and a text. -/
lemma toList_textPair {key : String} (hkey : IsWord key.toList) (text : String) :
    (textPair key text).written.toList =
      key.toList ++ ' ' :: '=' :: ' ' :: quoteChars text.toList := by
  simp only [textPair, writtenPair, Node.inlineText, keyText_word hkey, quote, String.toList_append,
    String.toList_ofList, List.append_assoc]
  rfl

/-- What a word in quotes starts with, and what is not in it. -/
lemma quoteChars_start {chars : List Char} (h : IsWord chars) :
    '\r' ∉ quoteChars chars ∧ ∃ c tail, quoteChars chars = c :: tail ∧ isSpace c = false := by
  rw [quoteChars_word h]
  refine ⟨?_, '"', _, rfl, rfl⟩
  simp [h.not_mem_return]

/-- A key with a word is legible. -/
theorem textPair_legible {key text : String} (hkey : IsWord key.toList)
    (htext : IsWord text.toList) : (textPair key text).Legible := by
  obtain ⟨hreturn, hstart⟩ := quoteChars_start htext
  refine pair_legible _ rfl hkey (toList_textPair hkey text) hreturn hstart ?_ (.nil _)
  intro n rest _
  rw [readValue?_word htext]
  exact congrArg some (Prod.ext (congrArg Node.text (String.ofList_toList)) rfl)

/-- There is no carriage return in a pair of words. -/
lemma not_mem_textPair {key text : String} (hkey : IsWord key.toList) (htext : IsWord text.toList) :
    '\r' ∉ (textPair key text).written.toList := by
  rw [toList_textPair hkey]
  simp [hkey.not_mem_return, (quoteChars_start htext).1]

/-- A key with an empty array. -/
def emptyPair (key : String) : Pair := writtenPair key (.list false [])

/-- The characters of a pair of a key and an empty array. -/
lemma toList_emptyPair {key : String} (hkey : IsWord key.toList) :
    (emptyPair key).written.toList = key.toList ++ ' ' :: '=' :: ' ' :: ['[', ']'] := by
  simp only [emptyPair, writtenPair, keyText_word hkey, String.toList_append, List.append_assoc]
  rfl

/-- A key with an empty array is legible. -/
theorem emptyPair_legible {key : String} (hkey : IsWord key.toList) : (emptyPair key).Legible := by
  refine pair_legible ['[', ']'] rfl hkey (toList_emptyPair hkey) (by decide) ⟨'[', _, rfl, rfl⟩ ?_
    (.nil _)
  intro n rest _
  change readValue? (2 * n + 1 + 1) (79 + 1) ('[' :: ([] ++ ']' :: rest)) = _
  rw [readValue?, readItems?_eq, readRun?_nil (.nil _) (by decide)]
  rfl

end BoundSql.Toml

namespace BoundSql

open Toml

/-! ## Columns in braces -/

/-- What is asked of a column so that it can be written without escapes. -/
def ColumnEntry.IsWritable (entry : ColumnEntry) : Prop :=
  IsWord entry.field.toList ∧ IsWord entry.column.toList

/-- A column as a table in braces. -/
def ColumnEntry.toInline (entry : ColumnEntry) : Node :=
  .table .inline [("field", .text entry.field), ("column", .text entry.column)]

/-- The columns of a table as an array with blanks in front of each of them and of the closing
bracket. -/
def columnsPair (before trailing : String) (columns : List ColumnEntry) : Pair :=
  arrayPair "columns" (columns.map fun entry => ⟨before, entry.toInline⟩) trailing

/-- The characters of a column, written as an inline table. -/
lemma toList_toInline (entry : ColumnEntry) :
    entry.toInline.inlineText.toList =
      '\x7b' :: ' ' :: ((textPair "field" entry.field).written.toList ++ ',' :: ' ' ::
        ((textPair "column" entry.column).written.toList ++ [' ', '\x7d'])) := by
  simp only [ColumnEntry.toInline, Node.inlineText, entryTexts, String.intercalate_cons_cons,
    String.intercalate_singleton, String.toList_append, textPair, writtenPair, List.append_assoc]
  rfl

/-- A key with a word as a member of a table in braces. -/
lemma readRun?_textPair {key text : String} (hkey : IsWord key.toList) (htext : IsWord text.toList)
    (fuel depth : Nat) {gap : List Char} {sep : Char} (hgap : Trivia false gap false)
    (hsep : isSolid sep = true) (rest : List Char) :
    readRun? '\x7d' (fun fuel => readBinding? (fun _ => fuel) depth) (fuel + 2)
        (' ' :: ((textPair key text).written.toList ++ (gap ++ sep :: rest))) =
      readMore? '\x7d' (readRun? '\x7d' (fun fuel => readBinding? (fun _ => fuel) depth) (fuel + 1))
        ([], key, .text text) sep rest := by
  obtain ⟨hreturn, c, tail, hquoted, hc⟩ := quoteChars_start htext
  have hbinding : readBinding? (fun _ => fuel + 1) depth
      ((textPair key text).written.toList ++ (gap ++ sep :: rest)) =
        some (([], key, .text text), gap ++ sep :: rest) := by
    have hskip : skipSpace (quoteChars text.toList ++ (gap ++ sep :: rest)) =
        quoteChars text.toList ++ (gap ++ sep :: rest) := by
      rw [hquoted]
      exact List.dropWhile_cons_of_neg (by simp [hc])
    have hread := readBinding?_word hkey hskip
      (fun n _ => readValue?_word htext fuel depth (gap ++ sep :: rest))
    rw [String.ofList_toList, String.ofList_toList] at hread
    rw [toList_textPair hkey, List.append_assoc]
    exact hread
  obtain ⟨d, more, hwritten, hd⟩ := (textPair_legible hkey htext).start
  have hbrace : d ≠ '\x7d' := by
    rintro rfl
    cases hd
  change (textPair key text).written.toList = d :: more at hwritten
  rw [hwritten] at hbinding ⊢
  have hspace : Trivia false [' '] false := .space rfl (.nil _)
  have hrun := readRun?_cons '\x7d' (fun fuel => readBinding? (fun _ => fuel) depth) hspace
    (isSolid_of_isKeyStart hd) hbrace hbinding hgap hsep
  exact hrun

/-- A table in braces with a column is read. -/
lemma readValue?_toInline {entry : ColumnEntry} (h : entry.IsWritable) (fuel depth : Nat)
    (rest : List Char) :
    readValue? (fuel + 4) (depth + 1) (entry.toInline.inlineText.toList ++ rest) =
      some (entry.toInline, rest) := by
  have hnone : Trivia false [] false := .nil _
  have hspace : Trivia false [' '] false := .space rfl (.nil _)
  have hfield := readRun?_textPair (by decide : IsWord "field".toList) h.1 (fuel + 1) depth hnone
    (by decide : isSolid ',' = true)
    (' ' :: ((textPair "column" entry.column).written.toList ++ ' ' :: '\x7d' :: rest))
  have hcolumn := readRun?_textPair (by decide : IsWord "column".toList) h.2 fuel depth hspace
    (by decide : isSolid '\x7d' = true) rest
  rw [List.nil_append, readMore?, if_pos rfl] at hfield
  rw [List.singleton_append, readMore?, if_neg (by decide), if_pos rfl] at hcolumn
  rw [toList_toInline]
  simp only [List.cons_append, List.append_assoc, List.nil_append]
  rw [readValue?, readMembers?_eq, hfield, hcolumn]
  rfl

/-! ## Columns in an array -/

/-- The columns in an array, each with the blanks in front of it and a comma behind it. -/
def columnTexts (before : String) (columns : List ColumnEntry) : List Char :=
  columns.flatMap fun entry => before.toList ++ entry.toInline.inlineText.toList ++ [',']

/-- The characters of the columns of a table. -/
lemma toList_columnsPair (before trailing : String) (columns : List ColumnEntry) :
    (columnsPair before trailing columns).written.toList = "columns".toList ++ ' ' :: '=' :: ' ' ::
      '[' :: (columnTexts before columns ++ trailing.toList ++ [']']) := by
  have hkey : keyText "columns" = "columns" := keyText_word (by decide)
  simp only [columnsPair, arrayPair, hkey, String.toList_append, String.toList_join, List.map_map,
    List.flatMap_map, columnTexts, Function.comp_def, List.append_assoc]
  rfl

/-- The columns of a table in an array, up to the closing bracket. -/
lemma readRun?_columns {before trailing : String} (hbefore : IsBlank before)
    (htrailing : IsBlank trailing) {columns : List ColumnEntry}
    (h : ∀ entry ∈ columns, entry.IsWritable) {fuel depth : Nat}
    (hfuel : columns.length + 5 ≤ fuel) (rest : List Char) :
    readRun? ']' (readValue? · (depth + 1)) fuel
        (columnTexts before columns ++ (trailing.toList ++ ']' :: rest)) =
      some (columns.map ColumnEntry.toInline, rest) := by
  induction columns generalizing fuel with
  | nil =>
    obtain ⟨fuel, rfl⟩ : ∃ n, fuel = n + 1 := Nat.exists_eq_succ_of_ne_zero (by omega)
    exact readRun?_nil htrailing.isTrivia rfl
  | cons entry columns ih =>
    rw [List.forall_mem_cons] at h
    rw [List.length_cons] at hfuel
    obtain ⟨fuel, rfl⟩ : ∃ n, fuel = n + 4 + 1 := ⟨fuel - 5, by omega⟩
    have hvalue := readValue?_toInline h.1 fuel depth ([] ++ ',' ::
      (columnTexts before columns ++ (trailing.toList ++ ']' :: rest)))
    rw [toList_toInline, List.cons_append] at hvalue
    have hrun := readRun?_cons ']' (readValue? · (depth + 1)) hbefore.isTrivia
      (by decide : isSolid '\x7b' = true) (by decide) hvalue (.nil _)
      (by decide : isSolid ',' = true)
    rw [readMore?, if_pos rfl, ih h.2 (by omega)] at hrun
    rw [columnTexts, List.flatMap_cons, toList_toInline, ← columnTexts]
    simp only [List.append_assoc, List.cons_append, List.nil_append] at hrun ⊢
    exact hrun

/-- There is no carriage return between columns or in one. -/
lemma not_mem_columnTexts {before : String} (hbefore : IsBlank before) {columns : List ColumnEntry}
    (h : ∀ entry ∈ columns, entry.IsWritable) : '\r' ∉ columnTexts before columns := by
  intro hmem
  obtain ⟨entry, hentry, hmem⟩ := List.mem_flatMap.1 hmem
  have hfield := not_mem_textPair (by decide : IsWord "field".toList) (h entry hentry).1
  have hcolumn := not_mem_textPair (by decide : IsWord "column".toList) (h entry hentry).2
  rw [toList_toInline] at hmem
  simp [hbefore.not_mem_return, hfield, hcolumn] at hmem

/-- There is no carriage return in the columns of a table. -/
lemma not_mem_columnsPair {before trailing : String} (hbefore : IsBlank before)
    (htrailing : IsBlank trailing) {columns : List ColumnEntry}
    (h : ∀ entry ∈ columns, entry.IsWritable) :
    '\r' ∉ (columnsPair before trailing columns).written.toList := by
  rw [toList_columnsPair]
  simp [not_mem_columnTexts hbefore h, htrailing.not_mem_return]

/-- Each column takes at least one character. -/
lemma length_le_columnTexts (before : String) (columns : List ColumnEntry) :
    columns.length ≤ (columnTexts before columns).length := by
  induction columns with
  | nil => exact Nat.le_refl _
  | cons entry columns ih =>
    rw [columnTexts, List.flatMap_cons, ← columnTexts]
    simp only [List.length_append, List.length_cons]
    omega

/-- **The columns of a table** in an array are legible. -/
theorem columnsPair_legible {before trailing : String} (hbefore : IsBlank before)
    (htrailing : IsBlank trailing) {columns : List ColumnEntry}
    (h : ∀ entry ∈ columns, entry.IsWritable) : (columnsPair before trailing columns).Legible := by
  refine pair_legible ('[' :: (columnTexts before columns ++ trailing.toList ++ [']']))
    rfl (by decide : IsWord "columns".toList) (toList_columnsPair before trailing columns) ?_
    ⟨'[', _, rfl, rfl⟩ ?_ (.nil _)
  · simp [not_mem_columnTexts hbefore h, htrailing.not_mem_return]
  · intro n rest hn
    have hlength := length_le_columnTexts before columns
    simp only [List.cons_append, List.length_cons, List.length_append, List.append_assoc] at hn
    have hfuel : columns.length + 5 ≤ 2 * n + 1 := by omega
    change readValue? (2 * n + 1 + 1) (79 + 1) ('[' :: (_ ++ _ ++ [']'] ++ rest)) = _
    rw [List.append_assoc, List.append_assoc, List.singleton_append, readValue?, readItems?_eq,
      readRun?_columns hbefore htrailing h hfuel]
    simp only [columnsPair, arrayPair, List.map_map]
    rfl

/-! ## Written headers -/

/-- A header of an array of tables is legible if its keys are read. -/
lemma header_legible {header : Header} (keys : List Char) (hofArray : header.ofArray = true)
    (hwritten : header.written.toList = '[' :: '[' :: (keys ++ [']', ']'])) (hreturn : '\r' ∉ keys)
    (hread : ∀ fuel rest, keys.length < fuel →
      readKeys? fuel (keys ++ ']' :: rest) = some (header.path, header.key, ']' :: rest))
    (hbefore : Trivia false header.before.toList false) : header.Legible := by
  have hline : '\r' ∉ header.written.toList := by
    rw [hwritten]
    simp [hreturn]
  refine ⟨hbefore, ⟨'[', _, hwritten, rfl⟩, .of_not_mem hline, ?_⟩
  intro before rest hrest
  refine readHeader?_eq_some_iff.2
    ⟨keys ++ ']' :: ']' :: rest, rest, ?_, ?_, readLineEnd?_atEnd hrest, rfl, ?_⟩
  · rw [clean_eq_self hline, hwritten]
    simp [brackets, hofArray]
  · rw [hread _ _ (by simp)]
    simp [brackets, hofArray]
  · change dropReturns header.written = _
    rw [consumed_append, ofList_clean_toList]

/-- Brackets are no part of keys. -/
lemma isKeyChar_of_cons {rest : List Char} :
    ∀ c tail, ']' :: rest = c :: tail → isKeyChar c = false := by
  intro c tail heq
  rw [← (List.cons.inj heq).1]
  rfl

/-- The header of a table is legible. -/
theorem header_legible_tables {before : String} (hbefore : Trivia false before.toList false) :
    Header.Legible { writtenHeader true [] "tables" with before } := by
  have hwritten : (writtenHeader true [] "tables").written.toList =
      '[' :: '[' :: ("tables".toList ++ [']', ']']) := by decide
  refine header_legible "tables".toList rfl hwritten (by decide) ?_ hbefore
  intro fuel rest hfuel
  obtain ⟨fuel, rfl⟩ := Nat.exists_eq_succ_of_ne_zero (Nat.ne_zero_of_lt hfuel)
  exact readKeys?_word (by decide) isKeyChar_of_cons rfl (by decide) fuel

/-- The header of a column is legible. -/
theorem header_legible_columns : Header.Legible (writtenHeader true ["tables"] "columns") := by
  have hwritten : (writtenHeader true ["tables"] "columns").written.toList =
      '[' :: '[' :: (("tables".toList ++ '.' :: "columns".toList) ++ [']', ']']) := by decide
  have hbefore : Trivia false "\n".toList false := .feed (.nil _)
  refine header_legible _ rfl hwritten (by decide) ?_ hbefore
  intro fuel rest hfuel
  rw [List.length_append, List.length_cons] at hfuel
  obtain ⟨fuel, rfl⟩ : ∃ n, fuel = n + 1 + 1 := ⟨fuel - 2, by omega⟩
  rw [List.append_assoc, List.cons_append, readKeys?_word_dot (by decide),
    readKeys?_word (by decide) isKeyChar_of_cons rfl (by decide)]
  rfl

end BoundSql
