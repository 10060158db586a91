import BoundSql.Proofs.Toml.Lookahead

/-!
# Strings and keys are read again

Strings of every form, and keys with dots between them, are read again from a printed text. The
closing quotes of a string and the end of a key are found by looking at what follows, and where a
backslash ends a line the string goes on in the next one.

## Main definitions

* `BoundSql.Toml.isKeyStart` — the characters that may begin a key.
* `BoundSql.Toml.readSpacedKey?` — one key with the blanks around it.

## Main results

* `BoundSql.Toml.readBasic?_reads`, `BoundSql.Toml.readLiteral?_reads`,
  `BoundSql.Toml.readText?_reads` — strings are read again.
* `BoundSql.Toml.readKeys?_reads` — keys are read again.
-/

namespace BoundSql.Toml

/-! ## Strings -/

/-- A character was put in front of what was read. -/
lemma withChar_eq_some_iff {c? : Option Char} {m : Option (List Char × List Char)}
    {text rest : List Char} :
    withChar c? m = some (text, rest) ↔
      ∃ c tail, c? = some c ∧ m = some (tail, rest) ∧ text = c :: tail := by
  unfold withChar
  cases c? with
  | none => simp
  | some c =>
    cases m with
    | none => simp
    | some result =>
      obtain ⟨tail, other⟩ := result
      constructor
      · intro h
        obtain ⟨rfl, rfl⟩ := Prod.mk.inj (Option.some.inj h)
        exact ⟨c, tail, rfl, rfl, rfl⟩
      · rintro ⟨c', tail', hc, hm, rfl⟩
        obtain rfl := Option.some.inj hc
        obtain ⟨rfl, rfl⟩ := Prod.mk.inj (Option.some.inj hm)
        rfl

/-- A carriage return is no hexadecimal digit. -/
lemma not_mem_of_hexNumber? {digits : List Char} {n : Nat} (h : hexNumber? digits = some n) :
    '\r' ∉ digits := by
  have hfold : ∀ (digits : List Char) (start n : Nat),
      digits.foldlM (fun n c => (hexValue? c).map (16 * n + ·)) start = some n →
        '\r' ∉ digits := by
    intro digits
    induction digits with
    | nil => exact fun _ _ _ => List.not_mem_nil
    | cons c rest ih =>
      intro start n h
      rw [List.foldlM_cons] at h
      obtain ⟨next, hnext, hrest⟩ := Option.bind_eq_some_iff.1 h
      rw [List.mem_cons, not_or]
      refine ⟨?_, ih next n hrest⟩
      rintro rfl
      cases hnext
  exact hfold digits 0 n h

/-- A text starts with every part of its first run of a character. -/
lemma eq_replicate_append_drop {quote : Char} {count : Nat} {chars : List Char}
    (h : count ≤ (chars.takeWhile (· = quote)).length) :
    chars = List.replicate count quote ++ chars.drop count := by
  induction count generalizing chars with
  | zero => rfl
  | succ count ih =>
    cases chars with
    | nil => simp at h
    | cons c rest =>
      by_cases hc : c = quote
      · subst hc
        rw [List.takeWhile_cons_of_pos (by simp), List.length_cons] at h
        rw [List.replicate_succ, List.cons_append, List.drop_succ_cons,
          ← ih (Nat.le_of_succ_le_succ h)]
      · rw [List.takeWhile_cons_of_neg (by simpa using hc)] at h
        cases h

/-- Quotes that do not close a string do not close it where the line is the same. -/
lemma closeLong?_eq_none {quote : Char} (hn : quote ≠ '\n') (hr : quote ≠ '\r')
    {chars chars' : List Char} (h : SameLine chars chars') (hclose : closeLong? quote chars = none) :
    closeLong? quote chars' = none := by
  have hsame := (h.takeWhile (p := (· = quote)) (by simpa using hn.symm) (by simpa using hr.symm)).1
  unfold closeLong? at hclose ⊢
  rw [hsame]
  by_cases hrun : (chars.takeWhile (· = quote)).length < 2
  · exact if_pos hrun
  · rw [if_neg hrun] at hclose
    cases hclose

/-- Quotes that close a string close it again. -/
lemma closeLong?_reads {quote : Char} (hn : quote ≠ '\n') (hr : quote ≠ '\r')
    {chars inside rest : List Char} (hclose : closeLong? quote chars = some (inside, rest)) :
    ∃ part, chars = part ++ rest ∧ Reads (closeLong? quote) part inside rest := by
  have hline : ∀ count, '\r' ∉ List.replicate count quote := by
    intro count hmem
    exact hr (List.eq_of_mem_replicate hmem).symm
  unfold closeLong? at hclose
  by_cases hrun : (chars.takeWhile (· = quote)).length < 2
  · rw [if_pos hrun] at hclose
    cases hclose
  · rw [if_neg hrun] at hclose
    obtain ⟨rfl, rfl⟩ := Prod.mk.inj (Option.some.inj hclose)
    generalize hinside : min 2 ((chars.takeWhile (· = quote)).length - 2) = count at *
    have hchars : chars = List.replicate (count + 2) quote ++ chars.drop (count + 2) :=
      eq_replicate_append_drop (by omega)
    refine ⟨_, hchars, .of_not_mem (hline _), ?_⟩
    intro rest' hrest
    rw [clean_eq_self (hline _)]
    have hsame : SameLine chars (List.replicate (count + 2) quote ++ rest') := by
      have happend := SameLine.append (Whole.of_not_mem (hline (count + 2))) hrest
      rwa [clean_eq_self (hline _), ← hchars] at happend
    have hrun' := (hsame.takeWhile (p := (· = quote)) (by simpa using hn.symm)
      (by simpa using hr.symm)).1
    unfold closeLong?
    rw [hrun', if_neg hrun, hinside, List.drop_left' (List.length_replicate)]

/-- A backslash in front of a character that begins no code. -/
lemma readBasic?_escape {long skipping : Bool} {c : Char} (hx : c ≠ 'x') (hu : c ≠ 'u')
    (hU : c ≠ 'U') (rest : List Char) :
    readBasic? long skipping ('\\' :: c :: rest) =
      if long && startsBreak (skipSpace (c :: rest)) then readBasic? long true rest
      else withChar (escaped? c) (readBasic? long false rest) := by
  rw [readBasic?]
  · exact fun _ _ _ h => absurd h hx
  · exact fun _ _ _ _ _ h => absurd h hu
  · exact fun _ _ _ _ _ _ _ _ _ h => absurd h hU

/-- A character that stands for itself, or is skipped. -/
lemma readBasic?_char {long skipping : Bool} {c : Char} (hquote : c ≠ '"') (hescape : c ≠ '\\')
    (hreturn : c ≠ '\r') (rest : List Char) :
    readBasic? long skipping (c :: rest) =
      if skipping && (isSpace c || c = '\n') then readBasic? long true rest
      else if (long && c = '\n') || (isPlain c && c ≠ '\\') then
        withChar (some c) (readBasic? long false rest)
      else none := by
  rw [readBasic?]
  · exact hquote
  · exact fun _ _ _ h => absurd h hescape
  · exact fun _ _ _ _ _ h => absurd h hescape
  · exact fun _ _ _ _ _ _ _ _ _ h => absurd h hescape
  · exact fun _ _ h => absurd h hescape
  · exact fun _ h => absurd h hreturn

/-- A character between single quotes. -/
lemma readLiteral?_char {long : Bool} {c : Char} (hquote : c ≠ '\'') (hreturn : c ≠ '\r')
    (rest : List Char) :
    readLiteral? long (c :: rest) =
      if (long && c = '\n') || isPlain c then withChar (some c) (readLiteral? long rest)
      else none := by
  rw [readLiteral?]
  · exact hquote
  · exact fun _ h => absurd h hreturn

/-- Whether only blanks stand between here and the end of the line is the same in a printed text, if
the part that is printed has a character that is no blank. -/
lemma startsBreak_skipSpace_clean {part : List Char} (hpart : Whole part)
    (h : ∃ c ∈ part, isSpace c = false) (rest rest' : List Char) :
    startsBreak (skipSpace (clean part ++ rest')) = startsBreak (skipSpace (part ++ rest)) := by
  induction hpart with
  | nil =>
    obtain ⟨c, hc, -⟩ := h
    cases hc
  | lineEnd _ _ => rfl
  | @cons c part hc _ ih =>
    rw [clean_cons hc]
    cases hspace : isSpace c with
    | true =>
      have hrest : ∃ d ∈ part, isSpace d = false := by
        obtain ⟨d, hd, hdspace⟩ := h
        rcases List.mem_cons.1 hd with rfl | hd
        · rw [hspace] at hdspace
          cases hdspace
        · exact ⟨d, hd, hdspace⟩
      have hskip : ∀ tail, skipSpace (c :: tail) = skipSpace tail := fun tail =>
        List.dropWhile_cons_of_pos hspace
      rw [List.cons_append, List.cons_append, hskip, hskip, ih hrest]
    | false =>
      have hskip : ∀ tail, skipSpace (c :: tail) = c :: tail := fun tail =>
        List.dropWhile_cons_of_neg (by simp [hspace])
      rw [List.cons_append, List.cons_append, hskip, hskip]
      rw [startsBreak_cons hc, startsBreak_cons hc]

/-- A character of a string, written as some characters in front of what is read again. -/
lemma Reads.withChar {read next : List Char → Option (List Char × List Char)}
    {front part text rest : List Char} {c : Char} (hfront : Whole front)
    (h : Reads next part text rest)
    (heq : ∀ rest', SameLine rest rest' → read (clean front ++ (clean part ++ rest')) =
      Toml.withChar (some c) (next (clean part ++ rest'))) :
    Reads read (front ++ part) (c :: text) rest := by
  refine ⟨hfront.append h.whole, ?_⟩
  intro rest' hrest
  rw [clean_append, List.append_assoc, heq rest' hrest, h.again rest' hrest]
  rfl

/-- A code behind a backslash has no carriage return. -/
lemma not_mem_of_code {digits : List Char} {c : Char}
    (h : (hexNumber? digits >>= charOfCode?) = some c) : '\r' ∉ digits := by
  obtain ⟨n, hn, -⟩ := Option.bind_eq_some_iff.1 h
  exact not_mem_of_hexNumber? hn

/-- A character that is written as a code is read again if what is behind it is. -/
lemma reads_code {long skipping : Bool} (letter : Char) (digits : List Char)
    {behind text rest : List Char} (hletter : letter ≠ '\r')
    (heq : ∀ tail, readBasic? long skipping ('\\' :: letter :: digits ++ tail) =
      withChar (hexNumber? digits >>= charOfCode?) (readBasic? long false tail))
    (hbehind : ∀ {text rest}, readBasic? long false behind = some (text, rest) →
      ∃ part, behind = part ++ rest ∧ '"' ∈ part ∧ Reads (readBasic? long false) part text rest)
    (h : withChar (hexNumber? digits >>= charOfCode?) (readBasic? long false behind) =
      some (text, rest)) :
    ∃ part, '\\' :: letter :: digits ++ behind = part ++ rest ∧ '"' ∈ part ∧
      Reads (readBasic? long skipping) part text rest := by
  obtain ⟨c, tail, hc, hread, rfl⟩ := withChar_eq_some_iff.1 h
  obtain ⟨part, rfl, hquote, hreads⟩ := hbehind hread
  have hfront : '\r' ∉ '\\' :: letter :: digits := by
    simpa [hletter.symm] using not_mem_of_code hc
  refine ⟨'\\' :: letter :: digits ++ part, by simp, by simp [hquote],
    hreads.withChar (.of_not_mem hfront) ?_⟩
  intro rest' _
  rw [clean_eq_self hfront, heq, hc]

/-- A backslash at the end of a line joins it with the next one. -/
lemma reads_continuation {long skipping : Bool} {c : Char} {part text rest : List Char}
    (hquote : '"' ∈ part) (hpart : Whole part)
    (hagain : ∀ rest', SameLine rest rest' →
      readBasic? long true (clean part ++ rest') = some (text, rest'))
    (hbreak : (long && startsBreak (skipSpace (c :: (part ++ rest)))) = true) :
    Reads (readBasic? long skipping) ('\\' :: c :: part) text rest := by
  obtain ⟨hlong, hstarts⟩ := Bool.and_eq_true_iff.1 hbreak
  by_cases hr : c = '\r'
  · subst hr
    -- The line feed of this line end is skipped as the first character of the next part.
    obtain ⟨tail, rfl⟩ : ∃ tail, part = '\n' :: tail := by
      cases part with
      | nil => cases hquote
      | cons d tail =>
        by_cases hd : d = '\n'
        · exact ⟨tail, by rw [hd]⟩
        · exfalso
          change startsBreak ('\r' :: d :: (tail ++ rest)) = true at hstarts
          unfold startsBreak at hstarts
          split at hstarts
          · next heq => exact absurd (List.cons.inj heq).1 (by decide)
          · next heq => exact hd (List.cons.inj (List.cons.inj heq).2).1
          · cases hstarts
    have htail : Whole tail := by
      cases hpart with
      | cons _ h => exact h
    refine ⟨.cons (by decide) (.lineEnd htail), ?_⟩
    intro rest' hrest
    have hnext := hagain rest' hrest
    rw [clean_cons (by decide), List.cons_append, readBasic?_char (by decide) (by decide)
      (by decide), if_pos (by decide)] at hnext
    rw [clean_cons (by decide), clean_return, clean_cons (by decide), List.cons_append,
      List.cons_append, readBasic?_escape (by decide) (by decide) (by decide), if_pos, hnext]
    rw [hlong]
    rfl
  · have hletter : c ≠ 'x' ∧ c ≠ 'u' ∧ c ≠ 'U' := by
      refine ⟨?_, ?_, ?_⟩ <;> rintro rfl <;> cases hstarts
    obtain ⟨hx, hu, hU⟩ := hletter
    refine ⟨.cons (by decide) (.cons hr hpart), ?_⟩
    intro rest' hrest
    have hsame := startsBreak_skipSpace_clean (.cons hr hpart) ⟨'"', by simp [hquote], rfl⟩ rest
      rest'
    rw [clean_cons hr, List.cons_append, List.cons_append] at hsame
    rw [clean_cons (by decide), clean_cons hr, List.cons_append, List.cons_append,
      readBasic?_escape hx hu hU, hsame, if_pos hbreak, hagain rest' hrest]

/-- **A string in double quotes** is read again. Its part of the text ends in a quote. -/
theorem readBasic?_reads {long skipping : Bool} {chars text rest : List Char}
    (h : readBasic? long skipping chars = some (text, rest)) :
    ∃ part, chars = part ++ rest ∧ '"' ∈ part ∧
      Reads (readBasic? long skipping) part text rest := by
  fun_induction readBasic? long skipping chars generalizing text rest with
  | case1 => cases h
  | case2 skipping behind hlong closed hclose =>
    obtain rfl := Option.some.inj h
    obtain ⟨part, rfl, hwhole, hagain⟩ := closeLong?_reads (by decide) (by decide) hclose
    refine ⟨'"' :: part, rfl, by simp, .cons (by decide) hwhole, ?_⟩
    intro rest' hrest
    rw [clean_cons (by decide), List.cons_append, readBasic?, if_pos hlong, hagain rest' hrest]
  | case3 skipping behind hlong hclose ih =>
    obtain ⟨c, tail, hc, hread, rfl⟩ := withChar_eq_some_iff.1 h
    obtain ⟨part, rfl, hquote, hreads⟩ := ih hread
    obtain rfl := Option.some.inj hc
    refine ⟨['"'] ++ part, rfl, by simp, hreads.withChar (.of_not_mem (by decide)) ?_⟩
    intro rest' hrest
    have hopen := closeLong?_eq_none (by decide) (by decide) (hrest.append hreads.whole) hclose
    rw [clean_eq_self (by decide), List.singleton_append, readBasic?, if_pos hlong, hopen]
  | case4 skipping behind hlong =>
    obtain ⟨rfl, rfl⟩ := Prod.mk.inj (Option.some.inj h)
    refine ⟨['"'], rfl, by simp, .of_not_mem (by decide), ?_⟩
    intro rest' _
    rw [clean_eq_self (by decide), List.singleton_append, readBasic?, if_neg hlong]
  | case5 skipping a b behind ih =>
    exact reads_code 'x' [a, b] (by decide) (fun _ => rfl) ih h
  | case6 skipping a b c d behind ih =>
    exact reads_code 'u' [a, b, c, d] (by decide) (fun _ => rfl) ih h
  | case7 skipping a b c d e f g i behind ih =>
    exact reads_code 'U' [a, b, c, d, e, f, g, i] (by decide) (fun _ => rfl) ih h
  | case8 skipping c behind hx hu hU hbreak ih =>
    obtain ⟨part, rfl, hquote, hwhole, hagain⟩ := ih h
    exact ⟨'\\' :: c :: part, rfl, by simp [hquote],
      reads_continuation hquote hwhole hagain hbreak⟩
  | case9 skipping c behind hx hu hU hbreak ih =>
    obtain ⟨code, tail, hc, hread, rfl⟩ := withChar_eq_some_iff.1 h
    obtain ⟨part, rfl, hquote, hreads⟩ := ih hread
    have hletter : c ≠ 'x' ∧ c ≠ 'u' ∧ c ≠ 'U' ∧ c ≠ '\r' := by
      refine ⟨?_, ?_, ?_, ?_⟩ <;> rintro rfl <;> cases hc
    obtain ⟨hx, hu, hU, hr⟩ := hletter
    have hfront : '\r' ∉ ['\\', c] := by simpa using hr.symm
    refine ⟨['\\', c] ++ part, rfl, by simp [hquote], hreads.withChar (.of_not_mem hfront) ?_⟩
    intro rest' _
    have hpart : ∃ d ∈ c :: part, isSpace d = false := ⟨'"', by simp [hquote], rfl⟩
    have hsame := startsBreak_skipSpace_clean (.cons hr hreads.whole) hpart rest rest'
    rw [clean_cons hr, List.cons_append, List.cons_append] at hsame
    rw [clean_eq_self hfront]
    simp only [List.cons_append, List.nil_append]
    rw [readBasic?_escape hx hu hU, hsame, if_neg hbreak, hc]
  | case10 => cases h
  | case11 behind hlong ih =>
    obtain ⟨part, rfl, hquote, hwhole, hagain⟩ := ih h
    refine ⟨'\r' :: '\n' :: part, rfl, by simp [hquote], .lineEnd hwhole, ?_⟩
    intro rest' hrest
    rw [clean_return, clean_cons (by decide), List.cons_append,
      readBasic?_char (by decide) (by decide) (by decide), if_pos (by decide), hagain rest' hrest]
  | case12 skipping behind hlong hskipping ih =>
    obtain ⟨c, tail, hc, hread, rfl⟩ := withChar_eq_some_iff.1 h
    obtain ⟨part, rfl, hquote, hreads⟩ := ih hread
    obtain rfl := Option.some.inj hc
    have hover : long = true := by simpa using hlong
    refine ⟨['\r', '\n'] ++ part, rfl, by simp [hquote],
      hreads.withChar (.lineEnd .nil) ?_⟩
    intro rest' _
    change readBasic? long skipping ('\n' :: (clean part ++ rest')) = _
    rw [readBasic?_char (by decide) (by decide) (by decide), if_neg (by simp [hskipping]),
      if_pos (by simp [hover])]
  | case13 skipping c behind hquote hx hu hU hescape hreturn hskipping ih =>
    obtain ⟨part, rfl, hmem, hwhole, hagain⟩ := ih h
    have hc : c ≠ '"' ∧ c ≠ '\\' ∧ c ≠ '\r' := by
      refine ⟨?_, ?_, ?_⟩ <;> rintro rfl <;> simp [isSpace] at hskipping
    obtain ⟨hq, hb, hr⟩ := hc
    refine ⟨c :: part, rfl, by simp [hmem], .cons hr hwhole, ?_⟩
    intro rest' hrest
    rw [clean_cons hr, List.cons_append, readBasic?_char hq hb hr, if_pos hskipping,
      hagain rest' hrest]
  | case14 skipping c behind hquote hx hu hU hescape hreturn hskipping hplain ih =>
    obtain ⟨c', tail, hc', hread, rfl⟩ := withChar_eq_some_iff.1 h
    obtain ⟨part, rfl, hmem, hreads⟩ := ih hread
    obtain rfl := Option.some.inj hc'
    have hb : c ≠ '\\' := by
      rintro rfl
      simp at hplain
    have hr : c ≠ '\r' := by
      rintro rfl
      simp [isPlain] at hplain
    refine ⟨[c] ++ part, rfl, by simp [hmem], hreads.withChar (.cons hr .nil) ?_⟩
    intro rest' _
    rw [clean_cons hr, clean_nil, List.singleton_append, readBasic?_char hquote hb hr,
      if_neg hskipping, if_pos hplain]
  | case15 => cases h

/-- **A string in single quotes** is read again. Its part of the text ends in a quote. -/
theorem readLiteral?_reads {long : Bool} {chars text rest : List Char}
    (h : readLiteral? long chars = some (text, rest)) :
    ∃ part, chars = part ++ rest ∧ '\'' ∈ part ∧ Reads (readLiteral? long) part text rest := by
  fun_induction readLiteral? long chars generalizing text rest with
  | case1 => cases h
  | case2 behind hlong closed hclose =>
    obtain rfl := Option.some.inj h
    obtain ⟨part, rfl, hwhole, hagain⟩ := closeLong?_reads (by decide) (by decide) hclose
    refine ⟨'\'' :: part, rfl, by simp, .cons (by decide) hwhole, ?_⟩
    intro rest' hrest
    rw [clean_cons (by decide), List.cons_append, readLiteral?, if_pos hlong, hagain rest' hrest]
  | case3 behind hlong hclose ih =>
    obtain ⟨c, tail, hc, hread, rfl⟩ := withChar_eq_some_iff.1 h
    obtain ⟨part, rfl, hquote, hreads⟩ := ih hread
    obtain rfl := Option.some.inj hc
    refine ⟨['\''] ++ part, rfl, by simp, hreads.withChar (.of_not_mem (by decide)) ?_⟩
    intro rest' hrest
    have hopen := closeLong?_eq_none (by decide) (by decide) (hrest.append hreads.whole) hclose
    rw [clean_eq_self (by decide), List.singleton_append, readLiteral?, if_pos hlong, hopen]
  | case4 behind hlong =>
    obtain ⟨rfl, rfl⟩ := Prod.mk.inj (Option.some.inj h)
    refine ⟨['\''], rfl, by simp, .of_not_mem (by decide), ?_⟩
    intro rest' _
    rw [clean_eq_self (by decide), List.singleton_append, readLiteral?, if_neg hlong]
  | case5 behind hlong ih =>
    obtain ⟨c, tail, hc, hread, rfl⟩ := withChar_eq_some_iff.1 h
    obtain ⟨part, rfl, hquote, hreads⟩ := ih hread
    obtain rfl := Option.some.inj hc
    refine ⟨['\r', '\n'] ++ part, rfl, by simp [hquote], hreads.withChar (.lineEnd .nil) ?_⟩
    intro rest' _
    change readLiteral? long ('\n' :: (clean part ++ rest')) = _
    rw [readLiteral?_char (by decide) (by decide), if_pos (by simp [hlong])]
  | case6 => cases h
  | case7 c behind hquote hreturn hplain ih =>
    obtain ⟨c', tail, hc', hread, rfl⟩ := withChar_eq_some_iff.1 h
    obtain ⟨part, rfl, hmem, hreads⟩ := ih hread
    obtain rfl := Option.some.inj hc'
    have hr : c ≠ '\r' := by
      rintro rfl
      simp [isPlain] at hplain
    refine ⟨[c] ++ part, rfl, by simp [hmem], hreads.withChar (.cons hr .nil) ?_⟩
    intro rest' _
    rw [clean_cons hr, clean_nil, List.singleton_append, readLiteral?_char hquote hr,
      if_pos hplain]
  | case8 => cases h

/-- A line end behind opening quotes is left out again. -/
lemma skipBreak_again {behind tail rest : List Char} (h : skipBreak behind = tail ++ rest)
    (htail : Whole tail) (hne : tail ≠ []) :
    ∃ opening, behind = opening ++ tail ++ rest ∧ Whole opening ∧
      ∀ rest', skipBreak (clean (opening ++ tail) ++ rest') = clean tail ++ rest' := by
  unfold skipBreak at h
  split at h
  · exact ⟨['\n'], by rw [h]; rfl, .of_not_mem (by decide), fun _ => rfl⟩
  · exact ⟨['\r', '\n'], by rw [h]; rfl, .lineEnd .nil, fun _ => rfl⟩
  · next hn hr =>
    refine ⟨[], h, .nil, ?_⟩
    intro rest'
    cases htail with
    | nil => exact absurd rfl hne
    | lineEnd _ => exact absurd h (hr _)
    | @cons c tail hc _ =>
      have hline : c ≠ '\n' := by
        rintro rfl
        exact hn _ h
      rw [List.nil_append, clean_cons hc, List.cons_append, skipBreak]
      · exact fun _ heq => hline (List.cons.inj heq).1
      · exact fun _ heq => hc (List.cons.inj heq).1

/-- **A string of any form** is read again. Its part of the text starts with a quote. -/
theorem readText?_reads {chars text rest : List Char} (h : readText? chars = some (text, rest)) :
    ∃ part, chars = part ++ rest ∧ (part.head? = some '"' ∨ part.head? = some '\'') ∧
      Reads readText? part text rest := by
  unfold readText? at h
  split at h
  · next behind =>
    obtain ⟨tail, hbehind, hquote, htail, hagain⟩ := readBasic?_reads h
    obtain ⟨opening, rfl, hopening, hskip⟩ :=
      skipBreak_again hbehind htail (List.ne_nil_of_mem hquote)
    refine ⟨'"' :: '"' :: '"' :: (opening ++ tail), rfl, .inl rfl,
      (Whole.of_not_mem (by decide : '\r' ∉ ['"', '"', '"'])).append (hopening.append htail), ?_⟩
    intro rest' hrest
    rw [clean_cons (by decide), clean_cons (by decide), clean_cons (by decide)]
    change readBasic? true false (skipBreak (clean (opening ++ tail) ++ rest')) = _
    rw [hskip, hagain rest' hrest]
  · next behind =>
    obtain ⟨tail, hbehind, hquote, htail, hagain⟩ := readLiteral?_reads h
    obtain ⟨opening, rfl, hopening, hskip⟩ :=
      skipBreak_again hbehind htail (List.ne_nil_of_mem hquote)
    refine ⟨'\'' :: '\'' :: '\'' :: (opening ++ tail), rfl, .inr rfl,
      (Whole.of_not_mem (by decide : '\r' ∉ ['\'', '\'', '\''])).append
        (hopening.append htail), ?_⟩
    intro rest' hrest
    rw [clean_cons (by decide), clean_cons (by decide), clean_cons (by decide)]
    change readLiteral? true (skipBreak (clean (opening ++ tail) ++ rest')) = _
    rw [hskip, hagain rest' hrest]
  · next hbasic hliteral =>
    unfold readShortText? at h
    split at h
    · next behind =>
      obtain ⟨part, rfl, -, hwhole, hagain⟩ := readBasic?_reads h
      refine ⟨'"' :: part, rfl, .inl rfl, .cons (by decide) hwhole, ?_⟩
      intro rest' hrest
      have hshort : ∀ tail, clean part ++ rest' ≠ '"' :: '"' :: tail :=
        (hrest.append hwhole).symm.not_two (by decide) (by decide)
          fun tail heq => hbasic tail (by rw [heq])
      rw [clean_cons (by decide), List.cons_append, readText?]
      · exact hagain rest' hrest
      · exact fun tail heq => hshort tail (List.cons.inj heq).2
      · exact fun tail heq => absurd (List.cons.inj heq).1 (by decide)
    · next behind =>
      obtain ⟨part, rfl, -, hwhole, hagain⟩ := readLiteral?_reads h
      refine ⟨'\'' :: part, rfl, .inr rfl, .cons (by decide) hwhole, ?_⟩
      intro rest' hrest
      have hshort : ∀ tail, clean part ++ rest' ≠ '\'' :: '\'' :: tail :=
        (hrest.append hwhole).symm.not_two (by decide) (by decide)
          fun tail heq => hliteral tail (by rw [heq])
      rw [clean_cons (by decide), List.cons_append, readText?]
      · exact hagain rest' hrest
      · exact fun tail heq => absurd (List.cons.inj heq).1 (by decide)
      · exact fun tail heq => hshort tail (List.cons.inj heq).2
    · cases h

/-! ## Blanks and keys -/

/-- Blanks are skipped again. -/
lemma skipSpace_again {chars rest' : List Char} (h : SameLine (skipSpace chars) rest') :
    skipSpace (chars.takeWhile isSpace ++ rest') = rest' :=
  (span_again rfl rfl h).2

/-- There is no carriage return in a run of characters that are none. -/
lemma not_mem_takeWhile {p : Char → Bool} (hr : p '\r' = false) (chars : List Char) :
    '\r' ∉ chars.takeWhile p := by
  intro hmem
  have hp := List.mem_takeWhile_imp hmem
  rw [hr] at hp
  cases hp

/-- Whether characters may begin a key: they are quotes, or stand in keys without quotes. -/
def isKeyStart (c : Char) : Bool := c = '"' || c = '\'' || isKeyChar c

/-- **A key** is read again. -/
theorem readKey?_reads {chars rest : List Char} {key : String}
    (h : readKey? chars = some (key, rest)) :
    ∃ c part, chars = c :: part ++ rest ∧ isKeyStart c ∧ Reads readKey? (c :: part) key rest := by
  unfold readKey? at h
  split at h
  · next behind =>
    obtain ⟨⟨text, tail⟩, hread, heq⟩ := Option.map_eq_some_iff.1 h
    obtain ⟨rfl, rfl⟩ := Prod.mk.inj heq
    obtain ⟨part, rfl, -, hwhole, hagain⟩ := readBasic?_reads hread
    refine ⟨'"', part, rfl, rfl, .cons (by decide) hwhole, ?_⟩
    intro rest' hrest
    rw [clean_cons (by decide), List.cons_append, readKey?, hagain rest' hrest]
    rfl
  · next behind =>
    obtain ⟨⟨text, tail⟩, hread, heq⟩ := Option.map_eq_some_iff.1 h
    obtain ⟨rfl, rfl⟩ := Prod.mk.inj heq
    obtain ⟨part, rfl, -, hwhole, hagain⟩ := readLiteral?_reads hread
    refine ⟨'\'', part, rfl, rfl, .cons (by decide) hwhole, ?_⟩
    intro rest' hrest
    rw [clean_cons (by decide), List.cons_append, readKey?, hagain rest' hrest]
    rfl
  · next hbasic hliteral =>
    have hreturn := not_mem_takeWhile (p := isKeyChar) rfl chars
    cases hkey : chars.takeWhile isKeyChar with
    | nil =>
      rw [hkey] at h
      cases h
    | cons c part =>
      rw [hkey] at h hreturn
      obtain ⟨rfl, rfl⟩ := Prod.mk.inj (Option.some.inj h)
      have hc : isKeyChar c = true := List.mem_takeWhile_imp (hkey ▸ List.mem_cons_self)
      have hchars : chars = c :: part ++ chars.dropWhile isKeyChar := by
        rw [← hkey, List.takeWhile_append_dropWhile]
      refine ⟨c, part, hchars, by simp [isKeyStart, hc], .of_not_mem hreturn, ?_⟩
      intro rest' hrest
      have hspan := span_again (p := isKeyChar) rfl rfl hrest
      rw [hkey] at hspan
      rw [clean_eq_self hreturn, readKey?, hspan.1, hspan.2]
      · rfl
      · intro tail heq
        rw [(List.cons.inj heq).1] at hc
        cases hc
      · intro tail heq
        rw [(List.cons.inj heq).1] at hc
        cases hc

/-- The blanks at the front of a text, and what is behind them. -/
lemma exists_blanks (chars : List Char) :
    ∃ blanks, chars = blanks ++ skipSpace chars ∧ '\r' ∉ blanks ∧
      (∀ tail, skipSpace (blanks ++ tail) = skipSpace tail) ∧
      ∀ rest', SameLine (skipSpace chars) rest' → skipSpace (blanks ++ rest') = rest' := by
  refine ⟨chars.takeWhile isSpace, ?_, not_mem_takeWhile rfl chars, ?_, fun _ => skipSpace_again⟩
  · rw [skipSpace, List.takeWhile_append_dropWhile]
  · intro tail
    exact List.dropWhile_append_of_pos fun c hc => List.mem_takeWhile_imp hc

/-- No key begins with a blank. -/
lemma isSpace_of_isKeyStart {c : Char} (hc : isKeyStart c) : isSpace c = false := by
  refine eq_false_of_ne_true fun hspace => ?_
  rw [isSpace, Bool.or_eq_true] at hspace
  rcases hspace with hspace | hspace
  · rw [of_decide_eq_true hspace] at hc
    cases hc
  · rw [of_decide_eq_true hspace] at hc
    cases hc

/-- No blank is skipped where a key starts. -/
lemma skipSpace_of_isKeyStart {c : Char} (hc : isKeyStart c) (tail : List Char) :
    skipSpace (c :: tail) = c :: tail :=
  List.dropWhile_cons_of_neg (by simp [isSpace_of_isKeyStart hc])

/-- One key with the blanks around it. -/
def readSpacedKey? (chars : List Char) : Option (String × List Char) :=
  (readKey? (skipSpace chars)).map fun (key, rest) => (key, skipSpace rest)

/-- Keys are read one by one. -/
lemma readKeys?_succ (fuel : Nat) (chars : List Char) :
    readKeys? (fuel + 1) chars =
      match readSpacedKey? chars with
      | none => none
      | some (key, '.' :: rest) =>
        (readKeys? fuel rest).map fun (path, last, rest) => (key :: path, last, rest)
      | some (key, rest) => some ([], key, rest) := by
  rw [readKeys?, readSpacedKey?]
  cases readKey? (skipSpace chars) with
  | none => rfl
  | some result =>
    simp only [Option.map_some]
    split
    · next hdot =>
      rw [hdot]
      rfl
    · next hdot =>
      split
      · next heq => cases heq
      · next heq => exact absurd (Prod.mk.inj (Option.some.inj heq)).2 (hdot _)
      · next heq =>
        obtain ⟨rfl, rfl⟩ := Prod.mk.inj (Option.some.inj heq)
        rfl

/-- One key with the blanks around it is read again. -/
lemma readSpacedKey?_reads {chars rest : List Char} {key : String}
    (h : readSpacedKey? chars = some (key, rest)) :
    ∃ part, chars = part ++ rest ∧ clean part ≠ [] ∧ Reads readSpacedKey? part key rest := by
  obtain ⟨⟨_, behind⟩, hkey, heq⟩ := Option.map_eq_some_iff.1 h
  obtain ⟨rfl, rfl⟩ := Prod.mk.inj heq
  obtain ⟨c, part, hpart, hc, hreads⟩ := readKey?_reads hkey
  have hr : c ≠ '\r' := by
    rintro rfl
    cases hc
  obtain ⟨blanks, hblanks, hblanksReturn, hskip, -⟩ := exists_blanks chars
  obtain ⟨gap, hgap, hgapReturn, -, hskipGap⟩ := exists_blanks behind
  have hwhole : Whole gap := .of_not_mem hgapReturn
  refine ⟨blanks ++ (c :: part) ++ gap, ?_, by simp [clean_cons hr],
    ((Whole.of_not_mem hblanksReturn).append hreads.whole).append hwhole, ?_⟩
  · rw [List.append_assoc, ← hgap, List.append_assoc, ← hpart, ← hblanks]
  · intro rest' hrest
    have hsame : SameLine behind (gap ++ rest') := by
      have hline := hrest.append hwhole
      rwa [clean_eq_self hgapReturn, ← hgap] at hline
    have hstart : skipSpace (clean (blanks ++ (c :: part) ++ gap) ++ rest') =
        clean (c :: part) ++ (gap ++ rest') := by
      rw [clean_append, clean_append, clean_eq_self hblanksReturn, clean_eq_self hgapReturn,
        List.append_assoc, List.append_assoc, hskip, clean_cons hr, List.cons_append,
        skipSpace_of_isKeyStart hc]
    rw [readSpacedKey?, hstart, hreads.again _ hsame]
    change some (_, skipSpace (gap ++ rest')) = _
    rw [hskipGap rest' hrest]

/-- **Keys with dots between them** are read again, with as much fuel as they have characters. -/
theorem readKeys?_reads {fuel : Nat} {chars rest : List Char} {path : List String} {key : String}
    (h : readKeys? fuel chars = some (path, key, rest)) :
    ∃ part, chars = part ++ rest ∧ clean part ≠ [] ∧ Whole part ∧
      ∀ rest' fuel', SameLine rest rest' → (clean part).length ≤ fuel' →
        readKeys? fuel' (clean part ++ rest') = some (path, key, rest') := by
  induction fuel generalizing chars path key rest with
  | zero => cases h
  | succ fuel ih =>
    rw [readKeys?_succ] at h
    split at h
    · cases h
    · next first behind hfirst =>
      obtain ⟨⟨path', last, rest₀⟩, hread, heq⟩ := Option.map_eq_some_iff.1 h
      simp only [Prod.mk.injEq] at heq
      obtain ⟨rfl, rfl, rfl⟩ := heq
      obtain ⟨front, rfl, hne, hfront⟩ := readSpacedKey?_reads hfirst
      obtain ⟨part, rfl, -, hwhole, hagain⟩ := ih hread
      have hdotted : Whole ('.' :: part) := .cons (by decide) hwhole
      refine ⟨front ++ '.' :: part, by simp, by simp [hne], hfront.whole.append hdotted, ?_⟩
      intro rest' fuel' hrest hfuel
      have hpositive := List.length_pos_iff.2 hne
      rw [clean_append, clean_cons (by decide), List.length_append, List.length_cons] at hfuel
      obtain ⟨fuel', rfl⟩ : ∃ n, fuel' = n + 1 := Nat.exists_eq_succ_of_ne_zero (by omega)
      have hsame := hrest.append hdotted
      rw [clean_cons (by decide)] at hsame
      rw [clean_append, clean_cons (by decide), List.append_assoc, readKeys?_succ,
        hfront.again _ hsame]
      change (readKeys? fuel' (clean part ++ rest')).map _ = _
      rw [hagain rest' fuel' hrest (by omega)]
      rfl
    · next last behind hdot hlast =>
      simp only [Option.some.injEq, Prod.mk.injEq] at h
      obtain ⟨rfl, rfl, rfl⟩ := h
      obtain ⟨part, rfl, hne, hpart⟩ := readSpacedKey?_reads hlast
      refine ⟨part, rfl, hne, hpart.whole, ?_⟩
      intro rest' fuel' hrest hfuel
      have hpositive := List.length_pos_iff.2 hne
      obtain ⟨fuel', rfl⟩ : ∃ n, fuel' = n + 1 := Nat.exists_eq_succ_of_ne_zero (by omega)
      rw [readKeys?_succ, hpart.again rest' hrest]
      split
      · next heq => cases heq
      · next heq =>
        obtain ⟨-, rfl⟩ := Prod.mk.inj (Option.some.inj heq)
        obtain ⟨other, hother, -⟩ := hrest.symm.of_cons (by decide) (by decide)
        exact absurd hother (hdot other)
      · next heq =>
        obtain ⟨rfl, rfl⟩ := Prod.mk.inj (Option.some.inj heq)
        rfl

/-- Keys start with a blank or with the start of a key. -/
lemma exists_isKeyStart {fuel : Nat} {chars : List Char} {keys : List String × String × List Char}
    (h : readKeys? fuel chars = some keys) :
    ∃ c tail, chars = c :: tail ∧ (isSpace c = true ∨ isKeyStart c = true) := by
  cases fuel with
  | zero => cases h
  | succ fuel =>
    rw [readKeys?] at h
    split at h
    · cases h
    · next hkey =>
      obtain ⟨c, part, hpart, hc, -⟩ := readKey?_reads hkey
      cases chars with
      | nil => cases hpart
      | cons d tail =>
        refine ⟨d, tail, rfl, ?_⟩
        cases hspace : isSpace d with
        | true => exact .inl rfl
        | false =>
          rw [skipSpace, List.dropWhile_cons_of_neg (by simp [hspace])] at hpart
          exact .inr ((List.cons.inj hpart).1 ▸ hc)

end BoundSql.Toml
