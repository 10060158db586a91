import BoundSql.Proofs.Toml.Lines

/-!
# Printed documents are read again

A document that was read is legible: all of its parts are read again from what is printed for them.
A legible document is read again from its text, with the same content, and it stays legible when
blanks and comments are put in front of its parts.

## Main definitions

* `BoundSql.Toml.Document.Legible` — documents all of whose parts are read again.
* `BoundSql.Toml.Document.printed` — a document as it is read again.
* `BoundSql.Toml.Document.content` — the keys and values of a document.

## Main results

* `BoundSql.Toml.Document.parse?_text` — the text of a legible document is read as the document.
* `BoundSql.Toml.Document.parse?_reflects` — a document that was read is legible, and prints as it
  was read.
* `BoundSql.Toml.entries?_eq_of_content_eq` — what a document means depends on its content alone.
* `BoundSql.Toml.Document.ofText?_text` — the text of a legible document is read for editing.
-/

namespace BoundSql.Toml

/-! ## Legible documents -/

/-- A section whose header and pairs are legible. -/
structure Section.Legible (part : Section) : Prop where
  /-- The header is legible. -/
  header : part.header.Legible
  /-- The pairs are. -/
  pairs : ∀ pair ∈ part.pairs, pair.Legible

/-- A document whose parts are legible. -/
structure Document.Legible (document : Document) : Prop where
  /-- Blanks and comments stand on top. -/
  about : Trivia false document.about.toList false
  /-- The pairs above the first header are legible. -/
  pairs : ∀ pair ∈ document.pairs, pair.Legible
  /-- The sections are. -/
  sections : ∀ part ∈ document.sections, part.Legible
  /-- Blanks and comments stand at the end. -/
  trailing : ∃ after, Trivia false document.trailing.toList after

/-- A pair as it is read again. -/
def Pair.printed (pair : Pair) : Pair :=
  { pair with before := dropReturns pair.before, written := dropReturns pair.written }

/-- A header as it is read again. -/
def Header.printed (header : Header) : Header :=
  { header with before := dropReturns header.before, written := dropReturns header.written }

/-- A section as it is read again. -/
def Section.printed (part : Section) : Section := ⟨part.header.printed, part.pairs.map Pair.printed⟩

/-- A document in which what stands on top is part of what stands in front of the first part. -/
def Document.settled (document : Document) : Document :=
  match document.pairs, document.sections with
  | pair :: pairs, sections =>
    { document with
      about := ""
      pairs := { pair with before := document.about ++ pair.before } :: pairs
      sections := sections }
  | [], part :: sections =>
    { document with
      about := ""
      sections := { part with
        header := { part.header with before := document.about ++ part.header.before } } :: sections }
  | [], [] => { document with about := "", trailing := document.about ++ document.trailing }

/-- A document as it is read again. -/
def Document.printed (document : Document) : Document where
  pairs := document.settled.pairs.map Pair.printed
  sections := document.settled.sections.map Section.printed
  trailing := dropReturns document.settled.trailing

/-! ## Reading the lines of a text -/

section Step

variable {fuel : Nat} {chars trivia tail : List Char} {c : Char}

/-- The lines of a text that starts with a pair. -/
lemma readLines?_pair (h : readTrivia? false chars = some (trivia, c :: tail)) (hc : c ≠ '[') :
    readLines? (fuel + 1) chars =
      (readPair? (String.ofList trivia) (c :: tail)).bind fun (pair, rest) =>
        (readLines? fuel (skipBreak rest)).map fun (pairs, sections, trailing) =>
          (pair :: pairs, sections, trailing) := by
  rw [readLines?, h]
  split
  · next heq => cases heq
  · next heq => cases heq
  · next heq => exact absurd (List.cons.inj (Prod.mk.inj (Option.some.inj heq)).2).1 hc
  · next heq =>
    obtain ⟨rfl, rfl⟩ := Prod.mk.inj (Option.some.inj heq)
    simp only [Option.map_eq_bind]
    rfl

/-- The lines of a text that starts with a header. -/
lemma readLines?_header (h : readTrivia? false chars = some (trivia, '[' :: tail)) :
    readLines? (fuel + 1) chars =
      (readHeader? (String.ofList trivia) ('[' :: tail)).bind fun (header, rest) =>
        (readLines? fuel (skipBreak rest)).map fun (pairs, sections, trailing) =>
          ([], ⟨header, pairs⟩ :: sections, trailing) := by
  rw [readLines?, h]
  simp only [Option.map_eq_bind]
  rfl

end Step

/-- The lines of a text are read as some pairs, some sections and an end. -/
def ReadsLines (chars : List Char) (pairs : List Pair) (sections : List Section)
    (trailing : String) : Prop :=
  ∀ fuel, chars.length < fuel → readLines? fuel chars = some (pairs, sections, trailing)

/-- The printed text of a part with its line end. -/
lemma clean_line (before written : String) (rest : List Char) :
    clean (before ++ written ++ "\n").toList ++ rest =
      clean before.toList ++ (clean written.toList ++ '\n' :: rest) := by
  simp only [String.toList_append, clean_append, List.append_assoc]
  rfl

/-- The blanks and comments in front of a legible part are read again. -/
lemma Legible.readTrivia? {α : Type} {read : String → List Char → Option (α × List Char)}
    {isStart : Char → Bool} {make : String → String → α} {before written : String}
    (h : Legible read isStart make before written)
    (hsolid : ∀ c, isStart c = true → isSolid c = true) (rest : List Char) :
    ∃ c tail, isStart c = true ∧ clean written.toList ++ rest = c :: tail ∧
      Toml.readTrivia? false (clean before.toList ++ (clean written.toList ++ rest)) =
        some (clean before.toList, c :: tail) := by
  obtain ⟨c, tail, hwritten, hc⟩ := h.start
  have hclean : clean written.toList ++ rest = c :: (clean tail ++ rest) := by
    rw [hwritten, clean_cons (isSolid_iff.1 (hsolid c hc)).2.2.1, List.cons_append]
  refine ⟨c, _, hc, hclean, ?_⟩
  rw [hclean, readTrivia?_again h.before.clean (hsolid c hc)]

namespace ReadsLines

variable {rest : List Char} {pairs : List Pair} {sections : List Section} {trailing : String}

/-- Blanks and comments at the end. -/
lemma ending {after : Bool} (h : Trivia false trailing.toList after) :
    ReadsLines (clean trailing.toList) [] [] (dropReturns trailing) := by
  intro fuel hfuel
  obtain ⟨fuel, rfl⟩ := Nat.exists_eq_succ_of_ne_zero (Nat.ne_zero_of_lt hfuel)
  have hread : readTrivia? false (clean trailing.toList) = some (clean trailing.toList, []) :=
    readTrivia?_eq_some_iff.2 ⟨(List.append_nil _).symm, after, h.clean, rfl⟩
  rw [readLines?, hread]
  rfl

/-- A pair in front of other lines. -/
lemma pair {pair : Pair} (h : pair.Legible) (hrest : ReadsLines rest pairs sections trailing) :
    ReadsLines (clean pair.text.toList ++ rest) (pair.printed :: pairs) sections trailing := by
  intro fuel hfuel
  obtain ⟨fuel, rfl⟩ := Nat.exists_eq_succ_of_ne_zero (Nat.ne_zero_of_lt hfuel)
  obtain ⟨c, tail, hc, hwritten, htrivia⟩ :=
    Legible.readTrivia? h (fun _ => isSolid_of_isKeyStart) ('\n' :: rest)
  have hbracket : c ≠ '[' := by
    rintro rfl
    cases hc
  have hpair := h.again (dropReturns pair.before) ('\n' :: rest) (.inr rfl)
  rw [Pair.text, clean_line] at hfuel ⊢
  simp only [List.length_append, List.length_cons] at hfuel
  rw [hwritten] at hpair
  rw [readLines?_pair htrivia hbracket, ofList_clean_toList, hpair, Option.bind_some]
  simp only [skipBreak, hrest fuel (by omega)]
  rfl

/-- A header in front of other lines. -/
lemma header {header : Header} (h : header.Legible)
    (hrest : ReadsLines rest pairs sections trailing) :
    ReadsLines (clean header.text.toList ++ rest) [] (⟨header.printed, pairs⟩ :: sections)
      trailing := by
  intro fuel hfuel
  obtain ⟨fuel, rfl⟩ := Nat.exists_eq_succ_of_ne_zero (Nat.ne_zero_of_lt hfuel)
  obtain ⟨c, tail, hc, hwritten, htrivia⟩ :=
    Legible.readTrivia? h (fun _ => isSolid_of_isHeaderStart) ('\n' :: rest)
  obtain rfl := of_decide_eq_true hc
  have hheader := h.again (dropReturns header.before) ('\n' :: rest) (.inr rfl)
  rw [Header.text, clean_line] at hfuel ⊢
  simp only [List.length_append, List.length_cons] at hfuel
  rw [hwritten] at hheader
  rw [readLines?_header htrivia, ofList_clean_toList, hheader, Option.bind_some]
  simp only [skipBreak, hrest fuel (by omega)]
  rfl

/-- Pairs in front of other lines. -/
lemma append_pairs {front : List Pair} (h : ∀ pair ∈ front, pair.Legible)
    (hrest : ReadsLines rest pairs sections trailing) :
    ReadsLines (clean (String.join (front.map Pair.text)).toList ++ rest)
      (front.map Pair.printed ++ pairs) sections trailing := by
  induction front with
  | nil => exact hrest
  | cons first front ih =>
    rw [List.forall_mem_cons] at h
    have hread := (ih h.2).pair h.1
    rw [List.map_cons, String.join_cons, String.toList_append, clean_append, List.append_assoc]
    exact hread

/-- Sections in front of the end. -/
lemma append_sections {front : List Section} (h : ∀ part ∈ front, part.Legible)
    (hrest : ReadsLines rest [] [] trailing) :
    ReadsLines (clean (String.join (front.map Section.text)).toList ++ rest) []
      (front.map Section.printed) trailing := by
  induction front with
  | nil => exact hrest
  | cons first front ih =>
    rw [List.forall_mem_cons] at h
    have hread := ((ih h.2).append_pairs h.1.pairs).header h.1.header
    rw [List.map_cons, String.join_cons, String.toList_append, clean_append, Section.text,
      String.toList_append, clean_append, List.append_assoc, List.append_assoc]
    rw [List.append_nil] at hread
    exact hread

end ReadsLines

/-- No lines start with a byte order mark. -/
lemma readLines?_mark (fuel : Nat) (tail : List Char) :
    readLines? fuel ('\ufeff' :: tail) = none := by
  cases fuel with
  | zero => rfl
  | succ fuel =>
    have htrivia := (readTrivia?_stop_iff (c := '\ufeff') (by decide) tail).2 ⟨rfl, rfl⟩
    have hpair : readPair? (String.ofList []) ('\ufeff' :: tail) = none := by
      rw [Option.eq_none_iff_forall_ne_some]
      intro result hread
      rcases readPair?_start hread with hstart | hstart <;> cases hstart
    rw [readLines?_pair htrivia (by decide), hpair, Option.bind_none]

/-! ## Printed documents -/

namespace Document

variable {document : Document}

/-- The parts of a printed document, one after the other. -/
lemma toList_text (document : Document) :
    document.text.toList = clean document.about.toList ++
      (clean (String.join (document.pairs.map Pair.text)).toList ++
        (clean (String.join (document.sections.map Section.text)).toList ++
          clean document.trailing.toList)) := by
  rw [Document.text, toList_dropReturns]
  simp only [String.toList_append, clean_append, List.append_assoc]

/-- A settled document has no text of its own in front. -/
lemma about_settled (document : Document) : document.settled.about = "" := by
  unfold settled
  split <;> rfl

/-- Settling a document keeps its text. -/
lemma text_settled (document : Document) : document.settled.text = document.text := by
  obtain ⟨about, pairs, sections, trailing⟩ := document
  rcases pairs with _ | ⟨pair, pairs⟩
  · rcases sections with _ | ⟨part, sections⟩
    · simp only [settled, text, List.map_nil, String.join_nil, String.empty_append,
        String.append_empty]
    · simp only [settled, text, List.map_nil, List.map_cons, String.join_nil, String.join_cons,
        Section.text, Header.text, String.empty_append, String.append_empty, String.append_assoc]
  · simp only [settled, text, List.map_cons, String.join_cons, Pair.text, String.empty_append,
      String.append_assoc]

/-- A settled document is as legible as before. -/
lemma Legible.settled (h : document.Legible) : document.settled.Legible := by
  obtain ⟨about, pairs, sections, trailing⟩ := document
  rcases pairs with _ | ⟨pair, pairs⟩
  · rcases sections with _ | ⟨part, sections⟩
    · obtain ⟨after, htrailing⟩ := h.trailing
      refine ⟨.nil _, h.pairs, h.sections, after, ?_⟩
      exact h.about.toList_append htrailing
    · have hparts := List.forall_mem_cons.1 h.sections
      refine ⟨.nil _, h.pairs, List.forall_mem_cons.2 ⟨⟨?_, hparts.1.pairs⟩, hparts.2⟩, h.trailing⟩
      exact hparts.1.header.replace_before (h.about.toList_append hparts.1.header.before)
  · have hpairs := List.forall_mem_cons.1 h.pairs
    refine ⟨.nil _, List.forall_mem_cons.2 ⟨?_, hpairs.2⟩, h.sections, h.trailing⟩
    exact hpairs.1.replace_before (h.about.toList_append hpairs.1.before)

/-- **The text of a legible document** is read as the document. -/
theorem parse?_text (h : document.Legible) : parse? document.text = some document.printed := by
  have hread : ReadsLines document.text.toList (document.settled.pairs.map Pair.printed)
      (document.settled.sections.map Section.printed)
      (dropReturns document.settled.trailing) := by
    have hsettled := h.settled
    obtain ⟨after, htrailing⟩ := hsettled.trailing
    have hsections := (ReadsLines.ending htrailing).append_sections hsettled.sections
    have hpairs := hsections.append_pairs hsettled.pairs
    rw [List.append_nil] at hpairs
    rw [← text_settled, toList_text, about_settled]
    exact hpairs
  have hmark : skipMark document.text.toList = document.text.toList := by
    unfold skipMark
    split
    · next tail heq =>
      have hnone := hread _ (Nat.lt_succ_self _)
      rw [heq, readLines?_mark] at hnone
      cases hnone
    · rfl
  simp only [parse?, hmark, hread _ (Nat.lt_succ_self _), Option.bind_eq_bind, Option.bind_some]
  rfl

/-! ## Documents that were read -/

/-- What is printed for a text that was read: there are no carriage returns, and the last line may
have got its end. -/
def Prints (chars printed : List Char) : Prop :=
  printed = clean chars ∨ printed = clean chars ++ ['\n']

/-- Parts of a document print what they were read from. -/
structure Reflects (document : Document) (chars : List Char) : Prop where
  /-- They are legible. -/
  legible : document.Legible
  /-- They print what they were read from. -/
  prints : Prints chars document.text.toList

/-- Behind a line, its end is left out. -/
lemma prints_cons {line chars rest printed : List Char} (hchars : chars = line ++ rest)
    (hend : AtEnd rest) (h : Prints (skipBreak rest) printed) (hnil : rest = [] → printed = []) :
    Prints chars (clean line ++ '\n' :: printed) := by
  subst hchars
  rcases hend with rfl | hbreak
  · rw [hnil rfl, List.append_nil]
    exact .inr rfl
  · have hclean : clean rest = '\n' :: clean (skipBreak rest) := by
      unfold startsBreak at hbreak
      split at hbreak
      · exact clean_cons (by decide) _
      · rw [clean_return, clean_cons (by decide)]
        rfl
      · cases hbreak
    rw [Prints, clean_append, hclean]
    rcases h with rfl | rfl
    · exact .inl rfl
    · exact .inr (by simp)

/-- Nothing is printed for no lines. -/
lemma text_eq_of_readLines?_nil {fuel : Nat} {pairs : List Pair} {sections : List Section}
    {trailing : String} (h : readLines? fuel [] = some (pairs, sections, trailing)) :
    ({ pairs, sections, trailing } : Document).text.toList = [] := by
  cases fuel with
  | zero => cases h
  | succ fuel =>
    simp only [readLines?, readTrivia?, Option.some.injEq, Prod.mk.injEq] at h
    obtain ⟨rfl, rfl, rfl⟩ := h
    rfl

section Front

variable {chars trivia rest : List Char} {pairs : List Pair} {sections : List Section}
  {trailing : String}

/-- A pair that was read stands in front of what was read behind it. -/
lemma Reflects.pair {pair : Pair}
    (hchars : chars = pair.before.toList ++ (pair.written.toList ++ rest))
    (hpair : pair.Legible) (hend : AtEnd rest)
    (h : Reflects { pairs, sections, trailing } (skipBreak rest))
    (hnil : rest = [] → ({ pairs, sections, trailing } : Document).text.toList = []) :
    Reflects { pairs := pair :: pairs, sections, trailing } chars := by
  refine ⟨⟨.nil _, List.forall_mem_cons.2 ⟨hpair, h.legible.pairs⟩, h.legible.sections,
    h.legible.trailing⟩, ?_⟩
  rw [← List.append_assoc] at hchars
  have hprints := prints_cons hchars hend h.prints hnil
  rw [clean_append, List.append_assoc, ← clean_line] at hprints
  rw [toList_text] at hprints ⊢
  rw [List.map_cons, String.join_cons, String.toList_append, clean_append, List.append_assoc]
  exact hprints

/-- A header that was read stands in front of what was read behind it. -/
lemma Reflects.header {header : Header}
    (hchars : chars = header.before.toList ++ (header.written.toList ++ rest))
    (hheader : header.Legible) (hend : AtEnd rest)
    (h : Reflects { pairs, sections, trailing } (skipBreak rest))
    (hnil : rest = [] → ({ pairs, sections, trailing } : Document).text.toList = []) :
    Reflects { sections := ⟨header, pairs⟩ :: sections, trailing } chars := by
  refine ⟨⟨.nil _, by simp, List.forall_mem_cons.2 ⟨⟨hheader, h.legible.pairs⟩, h.legible.sections⟩,
    h.legible.trailing⟩, ?_⟩
  rw [← List.append_assoc] at hchars
  have hprints := prints_cons hchars hend h.prints hnil
  rw [clean_append, List.append_assoc, ← clean_line] at hprints
  rw [toList_text] at hprints ⊢
  rw [List.map_cons, String.join_cons, Section.text, String.toList_append, String.toList_append,
    clean_append, clean_append, List.append_assoc, List.append_assoc]
  exact hprints

end Front

/-- **Lines that were read** are legible, and print as they were read. -/
theorem reflects_of_readLines? {fuel : Nat} {chars : List Char} {pairs : List Pair}
    {sections : List Section} {trailing : String}
    (h : readLines? fuel chars = some (pairs, sections, trailing)) :
    Reflects { pairs, sections, trailing } chars := by
  induction fuel generalizing chars pairs sections trailing with
  | zero => cases h
  | succ fuel ih =>
    cases hread : readTrivia? false chars with
    | none =>
      rw [readLines?, hread] at h
      cases h
    | some result =>
      obtain ⟨trivia, rest⟩ := result
      obtain ⟨hchars, after, htrivia, hstop⟩ := readTrivia?_eq_some_iff.1 hread
      cases rest with
      | nil =>
        rw [readLines?, hread] at h
        simp only [Option.some.injEq, Prod.mk.injEq] at h
        obtain ⟨rfl, rfl, rfl⟩ := h
        refine ⟨⟨.nil _, by simp, by simp, after, ?_⟩, .inl ?_⟩
        · rwa [String.toList_ofList]
        · rw [toList_text, String.toList_ofList, hchars]
          simp
      | cons c tail =>
        by_cases hbracket : c = '['
        · subst hbracket
          rw [readLines?_header hread] at h
          obtain ⟨⟨header, rest⟩, hheader, h⟩ := Option.bind_eq_some_iff.1 h
          obtain ⟨⟨pairs', sections', trailing'⟩, hlines, heq⟩ := Option.map_eq_some_iff.1 h
          simp only [Prod.mk.injEq] at heq
          obtain ⟨rfl, rfl, rfl⟩ := heq
          obtain ⟨rfl, -⟩ := (readTrivia?_stop_iff (by decide) tail).1 hstop
          obtain ⟨hwritten, hend, hbefore, hlegible⟩ :=
            readHeader?_legible (by rwa [String.toList_ofList]) hheader
          refine Reflects.header ?_ hlegible hend (ih hlines) ?_
          · rw [hchars, hwritten, hbefore, String.toList_ofList]
          · rintro rfl
            exact text_eq_of_readLines?_nil hlines
        · rw [readLines?_pair hread hbracket] at h
          obtain ⟨⟨pair, rest⟩, hpair, h⟩ := Option.bind_eq_some_iff.1 h
          obtain ⟨⟨pairs', sections', trailing'⟩, hlines, heq⟩ := Option.map_eq_some_iff.1 h
          simp only [Prod.mk.injEq] at heq
          obtain ⟨rfl, rfl, rfl⟩ := heq
          have hreturn : c ≠ '\r' := by
            rintro rfl
            rcases readPair?_start hpair with hstart | hstart <;> cases hstart
          obtain ⟨rfl, hsolid⟩ := (readTrivia?_stop_iff hreturn tail).1 hstop
          obtain ⟨hwritten, hend, hbefore, hlegible⟩ :=
            readPair?_legible (by rwa [String.toList_ofList]) hsolid hpair
          refine Reflects.pair ?_ hlegible hend (ih hlines) ?_
          · rw [hchars, hwritten, hbefore, String.toList_ofList]
          · rintro rfl
            exact text_eq_of_readLines?_nil hlines

/-- **A document that was read** is legible, and prints as it was read. -/
theorem parse?_reflects {text : String} (h : parse? text = some document) :
    Reflects document (skipMark text.toList) ∧ document.about = "" := by
  unfold parse? at h
  obtain ⟨⟨pairs, sections, trailing⟩, hlines, heq⟩ := Option.bind_eq_some_iff.1 h
  obtain rfl := Option.some.inj heq
  exact ⟨reflects_of_readLines? hlines, rfl⟩

end Document

/-! ## Content -/

/-- What a pair says: its keys and its value. -/
def Pair.content (pair : Pair) : List String × String × Node := (pair.path, pair.key, pair.value)

/-- What a section says: the kind and the keys of its header, and its pairs. -/
def Section.content (part : Section) :
    (Bool × List String × String) × List (List String × String × Node) :=
  ((part.header.ofArray, part.header.path, part.header.key), part.pairs.map Pair.content)

/-- What a document says, in order. -/
def Document.content (document : Document) :
    List (List String × String × Node) ×
      List ((Bool × List String × String) × List (List String × String × Node)) :=
  (document.pairs.map Pair.content, document.sections.map Section.content)

/-- The content of pairs is what they add to a table. -/
lemma addPairs?_eq (pairs : List Pair) (entries : Entries) :
    addPairs? pairs entries = (pairs.map Pair.content).foldlM addBinding? entries := by
  rw [addPairs?, List.foldlM_map]
  rfl

/-- Adds the content of a section to a document's table. -/
def addContent? (entries : Entries)
    (content : (Bool × List String × String) × List (List String × String × Node)) :
    Option Entries :=
  let add := if content.1.1 then Node.addItem? else Node.addHeader?
  Node.addTable? (add content.1.2.2 (content.2.foldlM addBinding? ·)) content.1.2.1 entries

/-- A section is added by its content. -/
lemma addSection?_eq (entries : Entries) (part : Section) :
    addSection? entries part = addContent? entries part.content := by
  have hpairs : addPairs? part.pairs = ((part.pairs.map Pair.content).foldlM addBinding? ·) :=
    funext (addPairs?_eq part.pairs)
  rw [addSection?, addContent?, hpairs]
  rfl

/-- **What a document means** depends on its content alone. -/
theorem entries?_eq_of_content_eq {document other : Document}
    (h : document.content = other.content) : document.entries? = other.entries? := by
  have hentries : ∀ document : Document, document.entries? =
      (document.content.1.foldlM addBinding? []).bind (document.content.2.foldlM addContent? ·) := by
    intro document
    rw [Document.entries?, addPairs?_eq]
    have hsections : addSection? = fun entries part => addContent? entries part.content :=
      funext fun entries => funext (addSection?_eq entries)
    simp only [hsections, Document.content, List.foldlM_map]
    rfl
  rw [hentries, hentries, h]

/-- A printed document says what the document says. -/
lemma Document.content_printed (document : Document) :
    document.printed.content = document.content := by
  have hpairs : ∀ pairs : List Pair,
      (pairs.map Pair.printed).map Pair.content = pairs.map Pair.content := by
    intro pairs
    rw [List.map_map]
    rfl
  have hsections : ∀ sections : List Section,
      (sections.map Section.printed).map Section.content = sections.map Section.content := by
    intro sections
    rw [List.map_map]
    refine List.map_congr_left fun part _ => ?_
    rw [Function.comp_apply, Section.content, Section.content, Section.printed, hpairs]
    rfl
  obtain ⟨about, pairs, sections, trailing⟩ := document
  rw [Document.content, Document.printed, hpairs, hsections]
  rcases pairs with _ | ⟨pair, pairs⟩
  · rcases sections with _ | ⟨part, sections⟩ <;> rfl
  · rfl

/-! ## Documents for editing and data -/

namespace Document

variable {text : String} {document : Document} {entries : Entries}

/-- A document for editing is one whose keys are defined once and whose numbers are in range. -/
lemma ofText?_eq_some_iff :
    ofText? text = some document ↔ parse? text = some document ∧
      ∃ entries, document.entries? = some entries ∧
        entriesIn Int64.minValue.toInt Int64.maxValue.toInt entries = true := by
  unfold ofText?
  constructor
  · intro h
    obtain ⟨parsed, hparse, h⟩ := Option.bind_eq_some_iff.1 h
    obtain ⟨entries, hentries, h⟩ := Option.bind_eq_some_iff.1 h
    split at h
    · next hrange =>
      obtain rfl := Option.some.inj h
      exact ⟨hparse, entries, hentries, hrange⟩
    · cases h
  · rintro ⟨hparse, entries, hentries, hrange⟩
    simp only [hparse, hentries, Option.bind_eq_bind, Option.bind_some, if_pos hrange]
    rfl

/-- What a printed document means. -/
lemma entries?_printed (document : Document) : document.printed.entries? = document.entries? :=
  entries?_eq_of_content_eq document.content_printed

/-- **The text of a legible document** whose numbers are in range is read for editing. -/
theorem ofText?_text (h : document.Legible) (hentries : document.entries? = some entries)
    (hrange : entriesIn Int64.minValue.toInt Int64.maxValue.toInt entries = true) :
    ofText? document.text = some document.printed :=
  ofText?_eq_some_iff.2 ⟨parse?_text h, entries, (entries?_printed document).trans hentries, hrange⟩

end Document

end BoundSql.Toml
