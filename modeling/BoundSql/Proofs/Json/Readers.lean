import BoundSql.Json.Reader
import BoundSql.Proofs.Json.Numbers

/-!
# Readers of lists

A reader reads a grammar if what it splits off the front of a text is a text of the grammar, and
each text of the grammar is split off in front of anything that may stand behind it, if there is
fuel for two calls a character. A reader of lists inherits this from the reader of its elements.

## Main definitions

* `BoundSql.Json.EndsText` — what may stand behind a document.
* `BoundSql.Json.Reads` — a reader reads a grammar.
* `BoundSql.Json.readBehind?`, `BoundSql.Json.readMore?`, `BoundSql.Json.readInner?` — what is read
  behind a character, behind an element of a list, and between two brackets.
* `BoundSql.Json.ReadsList` — how a reader of lists is made of a reader of elements.

## Main results

* `BoundSql.Json.ReadsList.inner_append`, `BoundSql.Json.ReadsList.exists_inner` — what stands
  between two brackets is read by its grammar.
-/

namespace BoundSql.Json

variable {front rest text chars : List Char} {fuel : ℕ}

/-! ## Blanks -/

/-- Blanks are skipped in front of something else. -/
lemma skipSpace_append (hfront : Blank front) (hrest : ∀ c ∈ rest.head?, isSpace c = false) :
    skipSpace (front ++ rest) = rest := (span_append hfront hrest).2

/-- Blanks in front are skipped, whatever follows. -/
lemma skipSpace_blank_append (hfront : Blank front) (rest : List Char) :
    skipSpace (front ++ rest) = skipSpace rest := List.dropWhile_append_of_pos hfront

/-- What is skipped is blank. -/
lemma exists_blank (chars : List Char) : ∃ front, Blank front ∧ chars = front ++ skipSpace chars :=
  ⟨chars.takeWhile isSpace, fun _ hc => List.mem_takeWhile_imp hc,
    (List.takeWhile_append_dropWhile).symm⟩

/-- Nothing blank stands in front of what is left. -/
lemma head?_skipSpace (chars : List Char) : ∀ c ∈ (skipSpace chars).head?, isSpace c = false := by
  intro c hc
  have hne := List.head?_dropWhile_not isSpace chars
  rw [skipSpace, Option.mem_def] at hc
  rw [hc] at hne
  simpa using hne

/-- Blanks are skipped once. -/
lemma skipSpace_skipSpace (chars : List Char) : skipSpace (skipSpace chars) = skipSpace chars :=
  skipSpace_append blank_nil (head?_skipSpace chars)

/-- Only blanks are skipped to the end of a text. -/
lemma skipSpace_eq_nil_iff : skipSpace chars = [] ↔ Blank chars := List.dropWhile_eq_nil_iff

/-- A text of a list with blanks in front. -/
lemma ListText.blank_append {α : Type} {P : List Char → α → Prop} {as : List α}
    (hfront : Blank front) (h : ListText P text as) : ListText P (front ++ text) as := by
  have hboth : ∀ {front'}, Blank front' → Blank (front ++ front') :=
    fun hfront' c hc => (List.mem_append.1 hc).elim (hfront c) (hfront' c)
  cases h with
  | last hfront' htext hback =>
    rw [← List.append_assoc]
    exact .last (hboth hfront') htext hback
  | cons hfront' htext hback hrest =>
    rw [← List.append_assoc]
    exact .cons (hboth hfront') htext hback hrest

/-! ## What stands behind a document -/

/-- What may stand behind a document. -/
def EndsText (rest : List Char) : Prop :=
  ∀ c ∈ rest.head?, c ∈ [' ', '\t', '\n', '\r', ',', ']', '\x7d']

/-- A blank may stand behind a document. -/
lemma mem_of_isSpace {c : Char} (h : isSpace c = true) :
    c ∈ [' ', '\t', '\n', '\r', ',', ']', '\x7d'] := by
  simp only [isSpace, Bool.or_eq_true, decide_eq_true_eq, or_assoc] at h
  obtain rfl | rfl | rfl | rfl := h <;> decide

/-- Blanks may stand behind a document. -/
lemma endsText_of_blank (h : Blank chars) : EndsText chars :=
  fun c hc => mem_of_isSpace (h c (List.mem_of_mem_head? hc))

/-- Blanks and a comma or a closing bracket may stand behind a document. -/
lemma endsText_append {back : List Char} (hback : Blank back) {c : Char}
    (hc : c ∈ [',', ']', '\x7d']) (rest : List Char) : EndsText (back ++ c :: rest) := by
  cases back with
  | nil =>
    rintro _ ⟨⟩
    exact List.mem_append_right [' ', '\t', '\n', '\r'] hc
  | cons first back =>
    rintro _ ⟨⟩
    exact mem_of_isSpace (hback first List.mem_cons_self)

/-! ## Readers -/

/-- What is read behind a character with blanks in front. -/
def readBehind? {β : Type} (c : Char) (read : List Char → Option β) (chars : List Char) :
    Option β :=
  match skipSpace chars with
  | [] => none
  | first :: rest => if first = c then read rest else none

/-- Blanks in front of the expected character are skipped. -/
lemma readBehind?_append {β : Type} {c : Char} (read : List Char → Option β)
    (hfront : Blank front) (hc : isSpace c = false) (rest : List Char) :
    readBehind? c read (front ++ c :: rest) = read rest := by
  have hskip : skipSpace (front ++ c :: rest) = c :: rest :=
    skipSpace_append hfront (by rintro _ ⟨⟩; exact hc)
  rw [readBehind?, hskip]
  exact if_pos rfl

/-- What is read behind a character stands behind blanks and this character. -/
lemma exists_of_readBehind? {β : Type} {c : Char} {read : List Char → Option β} {b : β}
    (h : readBehind? c read chars = some b) :
    ∃ front rest, Blank front ∧ chars = front ++ c :: rest ∧ read rest = some b := by
  obtain ⟨front, hfront, hchars⟩ := exists_blank chars
  unfold readBehind? at h
  split at h
  next => cases h
  next first rest hskip =>
    split_ifs at h with hfirst
    exact ⟨front, rest, hfront, by rw [← hfirst, ← hskip]; exact hchars, h⟩

section Lists

variable {α : Type} {P : List Char → α → Prop} {close : Char}
  {readOne : ℕ → List Char → Option (α × List Char)}
  {readMany : ℕ → List Char → Option (List α × List Char)} {a : α} {as : List α}

/-- A reader that is called with fuel reads a grammar. -/
structure Reads (P : List Char → α → Prop) (readOne : ℕ → List Char → Option (α × List Char)) :
    Prop where
  /-- A text of the grammar is split off. -/
  append : ∀ {fuel front text rest a}, Blank front → P text a → EndsText rest →
    2 * text.length < fuel → readOne fuel (front ++ (text ++ rest)) = some (a, rest)
  /-- What is split off is a text of the grammar. -/
  exists_text : ∀ {fuel chars a rest}, readOne fuel chars = some (a, rest) →
    ∃ front text, Blank front ∧ P text a ∧ chars = front ++ (text ++ rest)

/-- What is read behind an element: a comma and other elements, or the closing bracket. -/
def readMore? (close : Char) (readMany : List Char → Option (List α × List Char)) (a : α)
    (chars : List Char) : Option (List α × List Char) :=
  match skipSpace chars with
  | [] => none
  | c :: rest =>
    if c = ',' then (readMany rest).map fun (as, rest) => (a :: as, rest)
    else if c = close then some ([a], rest)
    else none

/-- What is read between two brackets: nothing, or a list. -/
def readInner? (close : Char) (readMany : List Char → Option (List α × List Char))
    (chars : List Char) : Option (List α × List Char) :=
  if (skipSpace chars).head? = some close then some ([], (skipSpace chars).tail)
  else readMany (skipSpace chars)

/-- A reader of lists is made of a reader of elements. It skips blanks, and no element begins with
the closing bracket. -/
structure ReadsList (close : Char) (readOne : ℕ → List Char → Option (α × List Char))
    (readMany : ℕ → List Char → Option (List α × List Char)) : Prop where
  /-- The closing bracket. -/
  bracket : close = ']' ∨ close = '\x7d'
  /-- Without fuel nothing is read. -/
  zero : ∀ chars, readMany 0 chars = none
  /-- An element is read, and what is behind it. -/
  succ : ∀ fuel chars, readMany (fuel + 1) chars =
    (readOne fuel chars).bind fun (a, rest) => readMore? close (readMany fuel) a rest
  /-- Blanks are skipped. -/
  skipSpace : ∀ fuel chars, readOne fuel (skipSpace chars) = readOne fuel chars
  /-- No element begins with the closing bracket. -/
  close : ∀ fuel rest, readOne fuel (close :: rest) = none

namespace ReadsList

variable (hmany : ReadsList close readOne readMany) (hone : Reads P readOne)

include hmany

/-- A list is closed by a bracket or a brace. -/
lemma mem_closing : close ∈ [',', ']', '\x7d'] := by
  obtain rfl | rfl := hmany.bracket <;> decide

/-- No blank closes a list. -/
lemma isSpace_close : isSpace close = false := by
  obtain rfl | rfl := hmany.bracket <;> decide

/-- No comma closes a list. -/
lemma close_ne : close ≠ ',' := by
  obtain rfl | rfl := hmany.bracket <;> decide

include hone

/-- A list of the grammar is read up to its closing bracket. -/
lemma append (h : ListText P text as) (rest : List Char) (hfuel : 2 * text.length + 1 < fuel) :
    readMany fuel (text ++ close :: rest) = some (as, rest) := by
  induction h generalizing fuel with
  | @last front text back a hfront htext hback =>
    obtain ⟨fuel, rfl⟩ : ∃ n, fuel = n + 1 := ⟨fuel - 1, by omega⟩
    simp only [List.length_append] at hfuel
    have hread : readOne fuel (front ++ (text ++ (back ++ close :: rest))) =
        some (a, back ++ close :: rest) :=
      hone.append hfront htext (endsText_append hback hmany.mem_closing rest) (by omega)
    have hskip : Json.skipSpace (back ++ close :: rest) = close :: rest :=
      skipSpace_append hback (by rintro _ ⟨⟩; exact hmany.isSpace_close)
    rw [List.append_assoc, List.append_assoc, hmany.succ, hread, Option.bind_some]
    dsimp only
    rw [readMore?, hskip]
    dsimp only
    rw [if_neg hmany.close_ne, if_pos rfl]
  | @cons front text back others a as hfront htext hback hothers ih =>
    obtain ⟨fuel, rfl⟩ : ∃ n, fuel = n + 1 := ⟨fuel - 1, by omega⟩
    simp only [List.length_append, List.length_cons] at hfuel
    have hread : readOne fuel (front ++ (text ++ (back ++ ',' :: (others ++ close :: rest)))) =
        some (a, back ++ ',' :: (others ++ close :: rest)) :=
      hone.append hfront htext (endsText_append hback (by decide) _) (by omega)
    have hskip : Json.skipSpace (back ++ ',' :: (others ++ close :: rest)) =
        ',' :: (others ++ close :: rest) :=
      skipSpace_append hback (by rintro _ ⟨⟩; decide)
    simp only [List.append_assoc, List.cons_append]
    rw [hmany.succ, hread, Option.bind_some]
    dsimp only
    rw [readMore?, hskip]
    dsimp only
    rw [if_pos rfl, ih (by omega), Option.map_some]

/-- A list that is read is one of the grammar. -/
lemma exists_text (h : readMany fuel chars = some (as, rest)) :
    ∃ text, ListText P text as ∧ chars = text ++ close :: rest := by
  -- each element takes one unit of fuel, whether it is the last one or not
  induction fuel generalizing chars as with
  | zero =>
    rw [hmany.zero] at h
    cases h
  | succ fuel ih =>
    rw [hmany.succ] at h
    obtain ⟨⟨a, behind⟩, hread, hmore⟩ := Option.bind_eq_some_iff.1 h
    obtain ⟨front, text, hfront, htext, rfl⟩ := hone.exists_text hread
    obtain ⟨back, hback, hbehind⟩ := exists_blank behind
    dsimp only at hmore
    unfold readMore? at hmore
    split at hmore
    next => cases hmore
    next c others hskip =>
      rw [hskip] at hbehind
      subst hbehind
      split_ifs at hmore with hcomma hclose
      · obtain ⟨⟨as, behind⟩, hothers, hlist⟩ := Option.map_eq_some_iff.1 hmore
        obtain ⟨rfl, rfl⟩ := Prod.mk.inj hlist
        obtain ⟨texts, htexts, rfl⟩ := ih hothers
        refine ⟨_, .cons hfront htext hback htexts, ?_⟩
        rw [hcomma]
        simp only [List.append_assoc, List.cons_append]
      · obtain ⟨rfl, rfl⟩ := Prod.mk.inj (Option.some.inj hmore)
        refine ⟨_, .last hfront htext hback, ?_⟩
        rw [hclose]
        simp only [List.append_assoc]

/-- **What stands between two brackets** is read if it is a text of the grammar. -/
lemma inner_append (h : InnerText P text as) (rest : List Char)
    (hfuel : 2 * text.length + 1 < fuel) :
    readInner? close (readMany fuel) (text ++ close :: rest) = some (as, rest) := by
  obtain ⟨hblank, rfl⟩ | hlist := h
  · have hskip : Json.skipSpace (text ++ close :: rest) = close :: rest :=
      skipSpace_append hblank (by rintro _ ⟨⟩; exact hmany.isSpace_close)
    rw [readInner?, hskip]
    exact if_pos rfl
  · have hread := hmany.append hone hlist rest hfuel
    obtain ⟨fuel, rfl⟩ : ∃ n, fuel = n + 1 := ⟨fuel - 1, by omega⟩
    rw [hmany.succ, ← hmany.skipSpace, ← hmany.succ] at hread
    -- a list that is read begins with an element, and no element with the closing bracket
    have hopen : (Json.skipSpace (text ++ close :: rest)).head? ≠ some close := by
      intro hhead
      obtain ⟨tail, htail⟩ := List.head?_eq_some_iff.1 hhead
      rw [htail, hmany.succ, hmany.close] at hread
      cases hread
    rw [readInner?, if_neg hopen, hread]

/-- What is read between two brackets is a text of the grammar. -/
lemma exists_inner (h : readInner? close (readMany fuel) chars = some (as, rest)) :
    ∃ text, InnerText P text as ∧ chars = text ++ close :: rest := by
  obtain ⟨front, hfront, hchars⟩ := exists_blank chars
  rw [readInner?] at h
  split_ifs at h with hclose
  · obtain ⟨tail, htail⟩ := List.head?_eq_some_iff.1 hclose
    rw [htail] at h hchars
    obtain ⟨rfl, rfl⟩ := Prod.mk.inj (Option.some.inj h)
    exact ⟨front, .inl ⟨hfront, rfl⟩, hchars⟩
  · obtain ⟨text, htext, hlist⟩ := hmany.exists_text hone h
    refine ⟨front ++ text, .inr (htext.blank_append hfront), ?_⟩
    rw [List.append_assoc, ← hlist]
    exact hchars

end ReadsList

end Lists

end BoundSql.Json
