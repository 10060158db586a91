import BoundSql.Proofs.Json.Lexing
import BoundSql.Proofs.Json.Readers

/-!
# Documents are read by their grammar

However number literals are converted, the reader accepts exactly the texts of the grammar and
answers with the documents that they write. In particular a text writes one document only. The
members of an object and the items of an array are lists, so the depth of nesting is the only
induction on documents.

## Main definitions

* `BoundSql.Json.readMember?` — the reader of the members of an object.

## Main results

* `BoundSql.Json.readScalar?_append`, `BoundSql.Json.of_readScalar?_eq_some` — the scalars that are
  read.
* `BoundSql.Json.reads_readDocument?` — documents are read by their grammar.
* `BoundSql.Json.Writes.unique` — a text writes one document only.
* `BoundSql.Json.readAs_eq_ok_iff` — a text is read as a shape exactly if it writes a document of
  the shape.
-/

namespace BoundSql.Json

variable {ν : Type} {convert : Number → Option ν} {front rest text chars : List Char}
  {fuel depth : ℕ}

/-! ## Scalars -/

/-- What ends a text ends a number in it. -/
lemma EndsText.endsNumber {rest : List Char} (h : EndsText rest) : EndsNumber rest := by
  have hends : [' ', '\t', '\n', '\r', ',', ']', '\x7d'].all
      (fun c => isDigit c = false ∧ c ≠ '.' ∧ c ≠ 'e' ∧ c ≠ 'E') = true := by decide
  exact fun c hc => of_decide_eq_true (List.all_eq_true.1 hends c (h c hc))

/-- A word is read, whatever stands behind it. -/
lemma readScalar?_word {word : String} {s : Scalar ν} (h : (word, s) ∈ words) (rest : List Char) :
    readScalar? convert (word.toList ++ rest) = some (.scalar s, rest) := by
  simp only [words, List.mem_cons, List.not_mem_nil, or_false, Prod.mk.injEq] at h
  obtain ⟨rfl, rfl⟩ | ⟨rfl, rfl⟩ | ⟨rfl, rfl⟩ := h
  · rfl
  · rfl
  · rfl

/-- A word that is read stands in front. -/
lemma of_readWord?_eq_some {word : String} {s : Scalar ν} {chars rest : List Char}
    {document : Json (Scalar ν)} (h : readWord? word s chars = some (document, rest)) :
    document = .scalar s ∧ chars = word.toList ++ rest := by
  unfold readWord? at h
  split at h
  next hprefix =>
    obtain ⟨rfl, rfl⟩ := Prod.mk.inj (Option.some.inj h)
    obtain ⟨tail, rfl⟩ := List.isPrefixOf_iff_prefix.1 hprefix
    rw [List.drop_left' String.length_toList]
    exact ⟨rfl, rfl⟩
  next => cases h

/-- What begins with a sign or a digit is read as a number. -/
lemma readScalar?_of_digit {first : Char} (h : first = '-' ∨ BoundSql.isDigit first = true)
    (tail : List Char) : readScalar? convert (first :: tail) =
      (readNumber? (first :: tail)).bind fun (literal, rest) =>
        (convert literal).map fun n => (.scalar (.number n), rest) := by
  obtain ⟨hlower, hquote, -⟩ := ne_of_isDigit h
  have hletter : ∀ letter, letter.isLower = true → first ≠ letter :=
    fun letter hletter => (ne_of_class hletter hlower).symm
  rw [readScalar?.eq_5 _ _ (by rintro r ⟨⟩; exact hquote rfl)
    (by rintro r ⟨⟩; exact hletter 'n' (by decide) rfl)
    (by rintro r ⟨⟩; exact hletter 't' (by decide) rfl)
    (by rintro r ⟨⟩; exact hletter 'f' (by decide) rfl)]
  cases readNumber? (first :: tail) with
  | none => rfl
  | some found => cases hnumber : convert found.1 <;> simp [hnumber]

/-- **Scalars** are read in front of anything that may stand behind a document. -/
theorem readScalar?_append {chars rest : List Char} {s : Scalar ν} (h : ScalarText convert chars s)
    (hrest : EndsText rest) : readScalar? convert (chars ++ rest) = some (.scalar s, rest) := by
  cases h with
  | word hword => exact readScalar?_word hword rest
  | @text body text hbody =>
    have hread : readString? (body ++ '"' :: rest) = some (String.ofList text, rest) :=
      readString?_eq_some_iff.2 ⟨body, text, hbody, rfl, rfl⟩
    simp only [List.cons_append, List.append_assoc, List.nil_append, readScalar?, hread]
    rfl
  | @number chars literal n hchars hnumber =>
    have hread := readNumber?_append hchars hrest.endsNumber
    obtain ⟨first, tail, rfl, hfirst⟩ := hchars.exists_eq_cons
    rw [List.cons_append] at hread ⊢
    rw [readScalar?_of_digit hfirst, hread, Option.bind_some]
    dsimp only
    rw [hnumber]
    rfl

/-- **Scalars that are read** are texts of the grammar. -/
theorem of_readScalar?_eq_some {chars rest : List Char} {document : Json (Scalar ν)}
    (h : readScalar? convert chars = some (document, rest)) :
    ∃ text s, ScalarText convert text s ∧ document = .scalar s ∧ chars = text ++ rest := by
  have hword : ∀ {word : String} {s : Scalar ν}, (word, s) ∈ words →
      readWord? word s chars = some (document, rest) →
      ∃ text s, ScalarText convert text s ∧ document = .scalar s ∧ chars = text ++ rest := by
    intro word s hmem hread
    obtain ⟨hdocument, hchars⟩ := of_readWord?_eq_some hread
    exact ⟨word.toList, s, .word hmem, hdocument, hchars⟩
  unfold readScalar? at h
  split at h
  next tail =>
    simp only [Option.bind_eq_bind, Option.bind_eq_some_iff] at h
    obtain ⟨⟨s, behind⟩, hread, hs⟩ := h
    obtain ⟨rfl, rfl⟩ := Prod.mk.inj (Option.some.inj hs)
    obtain ⟨body, text, hbody, rfl, rfl⟩ := readString?_eq_some_iff.1 hread
    exact ⟨_, _, .text hbody, rfl, by simp⟩
  next => exact hword (by simp [words]) h
  next => exact hword (by simp [words]) h
  next => exact hword (by simp [words]) h
  next =>
    simp only [Option.bind_eq_bind, Option.bind_eq_some_iff] at h
    obtain ⟨⟨literal, behind⟩, hread, n, hnumber, hdocument⟩ := h
    obtain ⟨rfl, rfl⟩ := Prod.mk.inj (Option.some.inj hdocument)
    obtain ⟨text, htext, rfl⟩ := of_readNumber?_eq_some hread
    exact ⟨text, .number n, .number htext hnumber, rfl, rfl⟩

/-- Nothing that begins with a blank or a bracket is a scalar. -/
lemma readScalar?_eq_none {first : Char}
    (h : first ∈ [' ', '\t', '\n', '\r', '[', '\x7b', ']', '\x7d']) (rest : List Char) :
    readScalar? convert (first :: rest) = none := by
  simp only [List.mem_cons, List.not_mem_nil, or_false] at h
  obtain rfl | rfl | rfl | rfl | rfl | rfl | rfl | rfl := h <;> rfl

/-- A document that begins like no container is a scalar. -/
lemma readDocument?_scalar {first : Char} (hspace : isSpace first = false) (hbracket : first ≠ '[')
    (hbrace : first ≠ '\x7b') (fuel depth : ℕ) (rest : List Char) :
    readDocument? convert (fuel + 1) depth (first :: rest) =
      readScalar? convert (first :: rest) := by
  have hskip : skipSpace (first :: rest) = first :: rest :=
    List.dropWhile_cons_of_neg (by simp [hspace])
  rw [readDocument?.eq_def]
  dsimp only
  rw [hskip]
  split <;> simp_all

/-- A scalar is read as a document. -/
lemma readDocument?_of_readScalar? {found : Json (Scalar ν) × List Char}
    (h : readScalar? convert chars = some found)
    (fuel depth : ℕ) : readDocument? convert (fuel + 1) depth chars = some found := by
  cases chars with
  | nil => cases h
  | cons first tail =>
    have hfirst : first ∉ [' ', '\t', '\n', '\r', '[', '\x7b', ']', '\x7d'] := by
      intro hmem
      rw [readScalar?_eq_none hmem] at h
      cases h
    simp only [List.mem_cons, not_or] at hfirst
    obtain ⟨hblank, htab, hline, hreturn, hbracket, hbrace, -⟩ := hfirst
    rw [readDocument?_scalar (by simp [isSpace, hblank, htab, hline, hreturn]) hbracket hbrace, h]

/-! ## Documents -/

/-- Blanks in front of a document are skipped. -/
lemma readDocument?_skipSpace (fuel depth : ℕ) (chars : List Char) :
    readDocument? convert fuel depth (skipSpace chars) =
      readDocument? convert fuel depth chars := by
  cases fuel with
  | zero => rw [readDocument?, readDocument?]
  | succ fuel =>
    rw [readDocument?.eq_def, readDocument?.eq_def convert (fuel + 1)]
    dsimp only
    rw [skipSpace_skipSpace]

/-- No document begins with the closing bracket of an array. -/
lemma readDocument?_bracket (fuel depth : ℕ) (rest : List Char) :
    readDocument? convert fuel depth (']' :: rest) = none := by
  cases fuel with
  | zero => rw [readDocument?]
  | succ fuel =>
    rw [readDocument?_scalar (by decide) (by decide) (by decide), readScalar?_eq_none (by decide)]

/-- Items are read as a list of documents. -/
lemma readsList_readItems? (depth : ℕ) :
    ReadsList ']' (readDocument? convert · depth) (readItems? convert · depth) where
  bracket := .inl rfl
  zero chars := by rw [readItems?]
  succ fuel chars := by
    rw [readItems?.eq_def]
    dsimp only
    cases readDocument? convert fuel depth chars with
    | none => rfl
    | some found =>
      dsimp only [Option.bind_some, readMore?]
      cases skipSpace found.2 with
      | nil => rfl
      | cons c rest => split <;> simp_all
  skipSpace fuel chars := readDocument?_skipSpace fuel depth chars
  close fuel rest := readDocument?_bracket fuel depth rest

/-- A member of an object: a key, a colon and a document. -/
def readMember? (convert : Number → Option ν) (fuel depth : ℕ) (chars : List Char) :
    Option ((String × Json (Scalar ν)) × List Char) :=
  readBehind? '"' (fun rest => (readString? rest).bind fun (key, rest) =>
    readBehind? ':' (fun rest => (readDocument? convert fuel depth rest).map
      fun (item, rest) => ((key, item), rest)) rest) chars

/-- Members are read as a list of keys with documents. -/
lemma readsList_readMembers? (depth : ℕ) :
    ReadsList '\x7d' (readMember? convert · depth) (readMembers? convert · depth) where
  bracket := .inr rfl
  zero chars := by rw [readMembers?]
  succ fuel chars := by
    rw [readMembers?.eq_def]
    dsimp only [readMember?]
    rw [readBehind?]
    generalize skipSpace chars = opened
    split
    next behind =>
      dsimp only
      rw [if_pos rfl]
      cases readString? behind with
      | none => rfl
      | some found =>
        dsimp only [Option.bind_some]
        rw [readBehind?]
        generalize skipSpace found.2 = divided
        split
        next behind =>
          dsimp only
          rw [if_pos rfl]
          cases readDocument? convert fuel depth behind with
          | none => rfl
          | some found =>
            dsimp only [Option.bind_some, Option.map_some, readMore?]
            cases skipSpace found.2 with
            | nil => rfl
            | cons c rest => split <;> simp_all
        next hcolon =>
          cases divided with
          | nil => rfl
          | cons first rest =>
            dsimp only
            rw [if_neg fun hfirst => hcolon rest (by rw [hfirst])]
            rfl
    next hquote =>
      cases opened with
      | nil => rfl
      | cons first rest =>
        dsimp only
        rw [if_neg fun hfirst => hquote rest (by rw [hfirst])]
        rfl
  skipSpace fuel chars := by rw [readMember?, readMember?, readBehind?, skipSpace_skipSpace]; rfl
  close fuel rest := rfl

/-- Members are read by their grammar if documents are. -/
lemma Reads.member (h : Reads (DocumentText convert depth) (readDocument? convert · depth)) :
    Reads (MemberText (DocumentText convert depth)) (readMember? convert · depth) where
  append := by
    intro fuel front text rest member hfront hmember hrest hfuel
    cases hmember with
    | @mk body key between front' text document hkey hbetween hfront' htext =>
      simp only [List.length_cons, List.length_append] at hfuel
      have hkey : readString? (body ++ '"' :: (between ++ ':' :: (front' ++ (text ++ rest)))) =
          some (String.ofList key, between ++ ':' :: (front' ++ (text ++ rest))) :=
        readString?_eq_some_iff.2 ⟨body, key, hkey, rfl, rfl⟩
      have hdocument : readDocument? convert fuel depth (front' ++ (text ++ rest)) =
          some (document, rest) := h.append hfront' htext hrest (by omega)
      simp only [List.cons_append, List.append_assoc]
      rw [readMember?, readBehind?_append _ hfront (by decide), hkey, Option.bind_some]
      dsimp only
      rw [readBehind?_append _ hbetween (by decide), hdocument, Option.map_some]
  exists_text := by
    intro fuel chars member rest hread
    obtain ⟨front, opened, hfront, rfl, hopened⟩ := exists_of_readBehind? hread
    obtain ⟨⟨key, divided⟩, hkey, hdivided⟩ := Option.bind_eq_some_iff.1 hopened
    obtain ⟨body, letters, hbody, rfl, rfl⟩ := readString?_eq_some_iff.1 hkey
    obtain ⟨between, behind, hbetween, rfl, hbehind⟩ := exists_of_readBehind? hdivided
    obtain ⟨⟨document, rest⟩, hdocument, hmember⟩ := Option.map_eq_some_iff.1 hbehind
    obtain ⟨rfl, rfl⟩ := Prod.mk.inj hmember
    obtain ⟨front', text, hfront', htext, rfl⟩ := h.exists_text hdocument
    refine ⟨front, _, hfront, .mk hbody hbetween hfront' htext, ?_⟩
    simp only [List.cons_append, List.append_assoc]

/-- A text that does not go on with a character does not begin with it. -/
lemma head?_ne_some {c : Char} (h : ∀ tail, chars = c :: tail → False) : chars.head? ≠ some c := by
  intro hhead
  obtain ⟨tail, htail⟩ := List.head?_eq_some_iff.1 hhead
  exact h tail htail

/-- An array is opened by its bracket. -/
lemma readDocument?_array (fuel depth : ℕ) (h : skipSpace chars = '[' :: rest) :
    readDocument? convert (fuel + 1) (depth + 1) chars =
      (readInner? ']' (readItems? convert fuel depth) rest).map
        fun (items, rest) => (.array items, rest) := by
  rw [readDocument?.eq_def, readInner?]
  dsimp only
  rw [h]
  split
  next hdepth => cases hdepth
  next hdepth => cases hdepth
  next inner below hopen hdepth =>
    obtain rfl := (List.cons.inj hopen).2
    obtain rfl := Nat.succ.inj hdepth
    split
    next behind hclose => simp [hclose]
    next hinner => rw [if_neg (head?_ne_some hinner)]
  next hopen _ => exact absurd (List.cons.inj hopen).1 (by decide)
  next harray _ => exact absurd rfl (harray rest depth rfl)

/-- An object is opened by its brace. -/
lemma readDocument?_object (fuel depth : ℕ) (h : skipSpace chars = '\x7b' :: rest) :
    readDocument? convert (fuel + 1) (depth + 1) chars =
      (readInner? '\x7d' (readMembers? convert fuel depth) rest).map
        fun (members, rest) => (.object members, rest) := by
  rw [readDocument?.eq_def, readInner?]
  dsimp only
  rw [h]
  split
  next hdepth => cases hdepth
  next hdepth => cases hdepth
  next hopen _ => exact absurd (List.cons.inj hopen).1 (by decide)
  next inner below hopen hdepth =>
    obtain rfl := (List.cons.inj hopen).2
    obtain rfl := Nat.succ.inj hdepth
    split
    next behind hclose => simp [hclose]
    next hinner => rw [if_neg (head?_ne_some hinner)]
  next hobject => exact absurd rfl (hobject rest depth rfl)

/-- No container is read without depth. -/
lemma readDocument?_zero {first : Char} (hfirst : first = '[' ∨ first = '\x7b')
    (h : skipSpace chars = first :: rest) : readDocument? convert (fuel + 1) 0 chars = none := by
  rw [readDocument?.eq_def]
  dsimp only
  rw [h]
  obtain rfl | rfl := hfirst <;> rfl

/-- **The three kinds of documents that are read**: scalars, arrays and objects. -/
lemma readDocument?_cases {document : Json (Scalar ν)}
    (h : readDocument? convert (fuel + 1) depth chars = some (document, rest)) :
    readScalar? convert (skipSpace chars) = some (document, rest) ∨
    (∃ inner items below, depth = below + 1 ∧ skipSpace chars = '[' :: inner ∧
      document = .array items ∧
      readInner? ']' (readItems? convert fuel below) inner = some (items, rest)) ∨
    ∃ inner members below, depth = below + 1 ∧ skipSpace chars = '\x7b' :: inner ∧
      document = .object members ∧
      readInner? '\x7d' (readMembers? convert fuel below) inner = some (members, rest) := by
  cases hopen : skipSpace chars with
  | nil =>
    rw [← readDocument?_skipSpace, hopen] at h
    exact .inl h
  | cons first inner =>
    by_cases hbracket : first = '['
    · subst hbracket
      cases depth with
      | zero =>
        rw [readDocument?_zero (.inl rfl) hopen] at h
        cases h
      | succ below =>
        rw [readDocument?_array fuel below hopen] at h
        obtain ⟨⟨items, behind⟩, hinner, hdocument⟩ := Option.map_eq_some_iff.1 h
        obtain ⟨rfl, rfl⟩ := Prod.mk.inj hdocument
        exact .inr (.inl ⟨inner, items, below, rfl, rfl, rfl, hinner⟩)
    by_cases hbrace : first = '\x7b'
    · subst hbrace
      cases depth with
      | zero =>
        rw [readDocument?_zero (.inr rfl) hopen] at h
        cases h
      | succ below =>
        rw [readDocument?_object fuel below hopen] at h
        obtain ⟨⟨members, behind⟩, hinner, hdocument⟩ := Option.map_eq_some_iff.1 h
        obtain ⟨rfl, rfl⟩ := Prod.mk.inj hdocument
        exact .inr (.inr ⟨inner, members, below, rfl, rfl, rfl, hinner⟩)
    have hspace := head?_skipSpace chars first (by rw [hopen]; rfl)
    rw [← readDocument?_skipSpace, hopen, readDocument?_scalar hspace hbracket hbrace] at h
    exact .inl h

/-- The text of a scalar is read at every depth. -/
lemma readDocument?_scalarText {s : Scalar ν} (hfront : Blank front) (h : ScalarText convert text s)
    (hrest : EndsText rest) (fuel depth : ℕ) :
    readDocument? convert (fuel + 1) depth (front ++ (text ++ rest)) = some (.scalar s, rest) := by
  have hread := readDocument?_of_readScalar? (readScalar?_append h hrest) fuel depth
  rw [← readDocument?_skipSpace] at hread ⊢
  rw [skipSpace_blank_append hfront, hread]

/-- A text of the grammar is read if the documents inside of it are. -/
lemma readDocument?_append {document : Json (Scalar ν)}
    (hbelow : ∀ below, depth = below + 1 →
      Reads (DocumentText convert below) (readDocument? convert · below))
    (hfront : Blank front) (htext : DocumentText convert depth text document) (hrest : EndsText rest)
    (hfuel : 2 * text.length < fuel) :
    readDocument? convert fuel depth (front ++ (text ++ rest)) = some (document, rest) := by
  obtain ⟨fuel, rfl⟩ : ∃ n, fuel = n + 1 := ⟨fuel - 1, by omega⟩
  cases depth with
  | zero =>
    obtain ⟨v, hv, rfl⟩ := htext
    exact readDocument?_scalarText hfront hv hrest fuel 0
  | succ depth =>
    have hone := hbelow depth rfl
    obtain ⟨v, hv, rfl⟩ | ⟨inner, items, hinner, rfl, rfl⟩ | ⟨inner, members, hinner, rfl, rfl⟩ :=
      htext
    · exact readDocument?_scalarText hfront hv hrest fuel _
    · have hopen : skipSpace (front ++ ('[' :: (inner ++ [']']) ++ rest)) =
          '[' :: (inner ++ ']' :: rest) := by
        simp only [List.cons_append, List.append_assoc, List.nil_append]
        exact skipSpace_append hfront (by rintro _ ⟨⟩; decide)
      simp only [List.length_cons, List.length_append, List.length_nil] at hfuel
      rw [readDocument?_array fuel depth hopen,
        (readsList_readItems? depth).inner_append hone hinner rest (by omega), Option.map_some]
    · have hopen : skipSpace (front ++ ('\x7b' :: (inner ++ ['\x7d']) ++ rest)) =
          '\x7b' :: (inner ++ '\x7d' :: rest) := by
        simp only [List.cons_append, List.append_assoc, List.nil_append]
        exact skipSpace_append hfront (by rintro _ ⟨⟩; decide)
      simp only [List.length_cons, List.length_append, List.length_nil] at hfuel
      rw [readDocument?_object fuel depth hopen,
        (readsList_readMembers? depth).inner_append hone.member hinner rest (by omega),
        Option.map_some]

/-- What is read is a text of the grammar if what is read inside of it is. -/
lemma exists_text_of_readDocument? {document : Json (Scalar ν)}
    (hbelow : ∀ below, depth = below + 1 →
      Reads (DocumentText convert below) (readDocument? convert · below))
    (h : readDocument? convert fuel depth chars = some (document, rest)) :
    ∃ front text, Blank front ∧ DocumentText convert depth text document ∧
      chars = front ++ (text ++ rest) := by
  obtain ⟨front, hfront, hchars⟩ := exists_blank chars
  cases fuel with
  | zero =>
    rw [readDocument?] at h
    cases h
  | succ fuel =>
    obtain hscalar | ⟨opened, items, below, rfl, hopen, rfl, hinner⟩ |
      ⟨opened, members, below, rfl, hopen, rfl, hinner⟩ := readDocument?_cases h
    · obtain ⟨text, s, hs, rfl, htext⟩ := of_readScalar?_eq_some hscalar
      exact ⟨front, text, hfront, hs.document depth, by rw [← htext, ← hchars]⟩
    · obtain ⟨inner, htext, rfl⟩ :=
        (readsList_readItems? below).exists_inner (hbelow below rfl) hinner
      refine ⟨front, _, hfront, .inr (.inl ⟨inner, items, htext, rfl, rfl⟩), ?_⟩
      rw [hchars, hopen]
      simp
    · obtain ⟨inner, htext, rfl⟩ :=
        (readsList_readMembers? below).exists_inner (hbelow below rfl).member hinner
      refine ⟨front, _, hfront, .inr (.inr ⟨inner, members, htext, rfl, rfl⟩), ?_⟩
      rw [hchars, hopen]
      simp

/-- **Documents are read by their grammar.**

**Proof sketch.** By induction on the depth of nesting. Scalars are read at every depth. The items
of an array are lists of documents one level below, and the members of an object are lists of keys
with such documents, so the readers of both inherit the property from the level below. -/
theorem reads_readDocument? (depth : ℕ) :
    Reads (DocumentText convert depth) (readDocument? convert · depth) := by
  induction depth with
  | zero => exact ⟨readDocument?_append nofun, exists_text_of_readDocument? nofun⟩
  | succ depth ih =>
    have hbelow : ∀ below, depth + 1 = below + 1 →
        Reads (DocumentText convert below) (readDocument? convert · below) := by
      rintro below ⟨⟩
      exact ih
    exact ⟨readDocument?_append hbelow, exists_text_of_readDocument? hbelow⟩

/-! ## Texts -/

/-- A text writes a document exactly if a reader with enough fuel reads it up to blanks at the
end. -/
lemma writes_iff {document : Json (Scalar ν)} {fuel : ℕ} (hfuel : 2 * chars.length < fuel) :
    Writes convert depth chars document ↔
      ∃ rest, readDocument? convert fuel depth chars = some (document, rest) ∧ Blank rest := by
  constructor
  · rintro ⟨front, text, back, hfront, htext, hback, rfl⟩
    refine ⟨back, (reads_readDocument? depth).append hfront htext (endsText_of_blank hback) ?_,
      hback⟩
    simp only [List.length_append] at hfuel
    omega
  · rintro ⟨back, hread, hback⟩
    obtain ⟨front, text, hfront, htext, rfl⟩ := (reads_readDocument? depth).exists_text hread
    exact ⟨front, text, back, hfront, htext, hback, rfl⟩

/-- **A text writes one document only.** -/
theorem Writes.unique {document document' : Json (Scalar ν)}
    (h : Writes convert depth chars document) (h' : Writes convert depth chars document') :
    document = document' := by
  obtain ⟨rest, hread, -⟩ := (writes_iff (Nat.lt_succ_self _)).1 h
  obtain ⟨rest', hread', -⟩ := (writes_iff (Nat.lt_succ_self _)).1 h'
  exact (Prod.mk.inj (Option.some.inj (hread.symm.trans hread'))).1

/-- **A text is read as a shape** exactly if it writes a document of the shape. -/
theorem readAs_eq_ok_iff {α : Type} {shape : Json (Scalar Numeral) → Option α} {text : String}
    {a : α} : readAs shape text = .ok a ↔
      ∃ document, Writes Number.toNumeral? maxDepth text.toList document ∧
        shape document = some a := by
  have hwrites : ∀ {document}, Writes Number.toNumeral? maxDepth text.toList document ↔
      ∃ rest, read? Number.toNumeral? text.toList = some (document, rest) ∧ Blank rest :=
    writes_iff (by omega)
  simp only [hwrites]
  unfold readAs
  constructor
  · intro h
    split at h
    next => cases h
    next document rest hread =>
      split at h
      next => cases h
      next b hshape =>
        split_ifs at h with hend
        obtain rfl := Except.ok.inj h
        exact ⟨document, ⟨rest, hread, skipSpace_eq_nil_iff.1 (List.isEmpty_iff.1 hend)⟩, hshape⟩
  · rintro ⟨document, ⟨rest, hread, hend⟩, hshape⟩
    rw [hread]
    dsimp only
    rw [hshape]
    exact if_pos (List.isEmpty_iff.2 (skipSpace_eq_nil_iff.2 hend))

end BoundSql.Json
