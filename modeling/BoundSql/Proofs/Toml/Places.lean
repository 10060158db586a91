import BoundSql.Proofs.Toml.Library
import BoundSql.Proofs.Toml.Printing
import BoundSql.Toml.Editing

/-!
# Places of documents

A document prints what stands at its places, in front of its pairs and headers, and what is written
for these. Changing a place changes what stands there and nothing else; a legible document stays
legible if blanks and comments stand there.

## Main definitions

* `BoundSql.Toml.Document.pieces` — the places of a document with what is printed behind them.

## Main results

* `BoundSql.Toml.Document.text_eq_pieces` — what a document prints, place by place.
* `BoundSql.Toml.Document.before_setBefore_self`, `BoundSql.Toml.Document.before_setBefore_of_ne` —
  what stands at the places of a changed document.
* `BoundSql.Toml.Document.Legible.setBefore` — blanks and comments leave a document legible.
-/

namespace BoundSql.Toml

/-! ## Lists with one changed member -/

section Modify

variable {α β : Type} {change : α → α}

/-- A change that an image does not see leaves the images as they are. -/
lemma map_modify_eq {f : α → β} (h : ∀ a, f (change a) = f a) (index : ℕ) (l : List α) :
    (l.modify index change).map f = l.map f := by
  induction l generalizing index with
  | nil => rw [List.modify_nil]
  | cons a l ih =>
    cases index with
    | zero => rw [List.modify_zero_cons, List.map_cons, List.map_cons, h]
    | succ index => rw [List.modify_succ_cons, List.map_cons, List.map_cons, ih]

/-- The same for the image of one member. -/
lemma map_getElem?_modify {f : α → β} (h : ∀ a, f (change a) = f a) (index other : ℕ)
    (l : List α) : ((l.modify index change)[other]?).map f = (l[other]?).map f := by
  rw [← List.getElem?_map, map_modify_eq h, List.getElem?_map]

/-- What holds of all members and is kept by a change holds of all members of the changed list. -/
lemma forall_mem_modify {P : α → Prop} (h : ∀ a, P a → P (change a)) {l : List α}
    (hl : ∀ a ∈ l, P a) (index : ℕ) : ∀ a ∈ l.modify index change, P a := by
  induction l generalizing index with
  | nil => rwa [List.modify_nil]
  | cons a l ih =>
    rw [List.forall_mem_cons] at hl
    cases index with
    | zero => exact List.forall_mem_cons.2 ⟨h a hl.1, hl.2⟩
    | succ index => exact List.forall_mem_cons.2 ⟨hl.1, ih hl.2 index⟩

end Modify

/-! ## Texts without carriage returns -/

/-- Carriage returns are dropped part by part. -/
lemma dropReturns_append (a b : String) :
    dropReturns (a ++ b) = dropReturns a ++ dropReturns b := by
  rw [← ofList_clean_toList, String.toList_append, clean_append, String.ofList_append,
    ofList_clean_toList, ofList_clean_toList]

/-- Without carriage returns there is nothing to drop. -/
lemma dropReturns_eq_self {text : String} (h : '\r' ∉ text.toList) : dropReturns text = text := by
  rw [← ofList_clean_toList, clean_eq_self h, String.ofList_toList]

/-- Carriage returns are dropped text by text. -/
lemma dropReturns_join (texts : List String) :
    dropReturns (String.join texts) = String.join (texts.map dropReturns) := by
  induction texts with
  | nil => rfl
  | cons text texts ih =>
    rw [String.join_cons, dropReturns_append, ih, List.map_cons, String.join_cons]

namespace Document

/-! ## Pieces -/

/-- What is written for the pairs of a document, and for the headers and pairs of its sections. -/
def written (document : Document) : List String × List (String × List String) :=
  (document.pairs.map Pair.written,
    document.sections.map fun part => (part.header.written, part.pairs.map Pair.written))

/-- The places of the pairs of a table with what is printed behind them. -/
def pairPieces (table : Cursor) (written : List String) : List (Spot × String) :=
  written.zipIdx.map fun (text, index) => (.pair table index, dropReturns (text ++ "\n"))

/-- The places of a section with what is printed behind them. -/
def sectionPieces (written : String × List String) (index : ℕ) : List (Spot × String) :=
  (.header index, dropReturns (written.1 ++ "\n")) :: pairPieces (.part index) written.2

/-- The places of a document with what is printed behind them. -/
def pieces (document : Document) : List (Spot × String) :=
  pairPieces .root document.written.1 ++
    document.written.2.zipIdx.flatMap fun (written, index) => sectionPieces written index

variable {document : Document}

/-- What is printed for the pieces of a document, given what stands at their places. -/
def pieceTexts (before : Spot → String) (pieces : List (Spot × String)) : String :=
  String.join (pieces.map fun piece => dropReturns (before piece.1) ++ piece.2)

/-- Pieces are printed in order. -/
lemma pieceTexts_append (before : Spot → String) (front back : List (Spot × String)) :
    pieceTexts before (front ++ back) = pieceTexts before front ++ pieceTexts before back := by
  rw [pieceTexts, List.map_append, String.join_append]
  rfl

/-- Pieces are printed list by list. -/
lemma pieceTexts_flatMap {α : Type} (before : Spot → String) (pieces : α → List (Spot × String))
    (l : List α) : pieceTexts before (l.flatMap pieces) =
      String.join (l.map fun a => pieceTexts before (pieces a)) := by
  induction l with
  | nil => rfl
  | cons a l ih => rw [List.flatMap_cons, pieceTexts_append, ih, List.map_cons, String.join_cons]

/-- A list with the places of its members. -/
lemma map_eq_map_zipIdx {α β : Type} (f : α → β) (l : List α) :
    l.map f = l.zipIdx.map fun part => f part.1 := by
  have hfst : (l.zipIdx.map Prod.fst).map f = l.map f := by rw [List.zipIdx_map_fst]
  rw [← hfst, List.map_map]
  rfl

/-- What is printed for pairs, if what is kept at their places stands in front of them. -/
lemma pieceTexts_pairPieces {before : Spot → String} {table : Cursor} {pairs : List Pair}
    (h : ∀ index pair, pairs[index]? = some pair → before (.pair table index) = pair.before) :
    pieceTexts before (pairPieces table (pairs.map Pair.written)) =
      dropReturns (String.join (pairs.map Pair.text)) := by
  have hmap : ∀ part ∈ pairs.zipIdx, dropReturns (before (.pair table part.2)) ++
      dropReturns (part.1.written ++ "\n") = dropReturns part.1.text := by
    rintro ⟨pair, index⟩ hpair
    rw [h index pair (List.mem_zipIdx_iff_getElem?.1 hpair), ← dropReturns_append, Pair.text,
      String.append_assoc]
  have hpairs : pairs.map (dropReturns ∘ Pair.text) =
      pairs.zipIdx.map fun part => dropReturns part.1.text :=
    map_eq_map_zipIdx _ pairs
  rw [dropReturns_join, List.map_map, hpairs, pieceTexts, pairPieces, List.zipIdx_map, List.map_map,
    List.map_map]
  exact congrArg String.join (List.map_congr_left hmap)

/-- What is printed for a section. -/
lemma pieceTexts_sectionPieces {document : Document} {index : ℕ} {part : Section}
    (h : document.sections[index]? = some part) :
    pieceTexts document.before
        (sectionPieces (part.header.written, part.pairs.map Pair.written) index) =
      dropReturns part.text := by
  have hpairs : pieceTexts document.before
      (pairPieces (.part index) (part.pairs.map Pair.written)) =
        dropReturns (String.join (part.pairs.map Pair.text)) := by
    refine pieceTexts_pairPieces fun place pair hpair => ?_
    simp only [before, pairsOf, h, Option.map_some, Option.getD_some, hpair]
  have hheader : document.before (.header index) = part.header.before := by
    simp only [before, h, Option.map_some, Option.getD_some]
  rw [pieceTexts] at hpairs
  rw [sectionPieces, pieceTexts, List.map_cons, String.join_cons, hpairs, hheader,
    ← dropReturns_append, ← dropReturns_append, Section.text, Header.text]
  simp only [String.append_assoc]

/-- **The text of a document** is what stands on top and what is printed for its pieces. -/
theorem text_eq_pieces (document : Document) : document.text =
    dropReturns document.about ++ pieceTexts document.before document.pieces ++
      dropReturns document.trailing := by
  have hpairs : pieceTexts document.before (pairPieces .root document.written.1) =
      dropReturns (String.join (document.pairs.map Pair.text)) := by
    refine pieceTexts_pairPieces fun index pair hpair => ?_
    simp only [before, pairsOf, hpair, Option.map_some, Option.getD_some]
  have hsections : pieceTexts document.before (document.written.2.zipIdx.flatMap
      fun (written, index) => sectionPieces written index) =
        dropReturns (String.join (document.sections.map Section.text)) := by
    have hmap : ∀ part ∈ document.sections.zipIdx, pieceTexts document.before
        (sectionPieces (part.1.header.written, part.1.pairs.map Pair.written) part.2) =
          dropReturns part.1.text := by
      rintro ⟨part, index⟩ hpart
      exact pieceTexts_sectionPieces (List.mem_zipIdx_iff_getElem?.1 hpart)
    have htexts : document.sections.map (dropReturns ∘ Section.text) =
        document.sections.zipIdx.map fun part => dropReturns part.1.text :=
      map_eq_map_zipIdx _ document.sections
    rw [dropReturns_join, List.map_map, htexts, pieceTexts_flatMap, written, List.zipIdx_map,
      List.map_map]
    exact congrArg String.join (List.map_congr_left hmap)
  rw [pieces, pieceTexts_append, hpairs, hsections, text]
  simp only [dropReturns_append, String.append_assoc]

/-! ## Changed places -/

/-- The pairs of a table after those of a table have changed. -/
lemma pairsOf_modifyPairs {change : List Pair → List Pair} (hnil : change [] = [])
    (document : Document) (table other : Cursor) :
    (document.modifyPairs change table).pairsOf other =
      if other = table then change (document.pairsOf table) else document.pairsOf other := by
  cases table with
  | root => cases other <;> rfl
  | part index =>
    cases other with
    | root => rfl
    | part place =>
      simp only [modifyPairs, pairsOf, Cursor.part.injEq, List.getElem?_modify]
      by_cases hplace : place = index
      · subst hplace
        rw [if_pos rfl]
        cases document.sections[place]? with
        | none => exact hnil.symm
        | some part => simp
      · rw [if_neg hplace]
        simp only [if_neg (Ne.symm hplace), Option.map_eq_map, Option.map_id']

/-- The pairs of a table after the text in front of a header has changed. -/
lemma pairsOf_setBefore_header (index : ℕ) (text : String) (document : Document) (table : Cursor) :
    (document.setBefore (.header index) text).pairsOf table = document.pairsOf table := by
  cases table with
  | root => rfl
  | part place =>
    simp only [setBefore, pairsOf]
    rw [map_getElem?_modify]
    exact fun _ => rfl

/-- What stands at another place does not change. -/
lemma before_setBefore_of_ne {place other : Spot} (h : other ≠ place) (text : String)
    (document : Document) :
    (document.setBefore place text).before other = document.before other := by
  cases place with
  | top =>
    cases other with
    | top => exact absurd rfl h
    | pair table index => cases table <;> rfl
    | header index => rfl
  | pair table index =>
    cases other with
    | top => cases table <;> rfl
    | pair table' index' =>
      rw [setBefore, before, before, pairsOf_modifyPairs]
      · by_cases htable : table' = table
        · subst htable
          rw [if_pos rfl, List.getElem?_modify_ne]
          rintro rfl
          exact h rfl
        · rw [if_neg htable]
      · exact List.modify_nil ..
    | header index' =>
      cases table with
      | root => rfl
      | part place =>
        simp only [setBefore, modifyPairs, before]
        rw [map_getElem?_modify]
        exact fun _ => rfl
  | header index =>
    cases other with
    | top => rfl
    | pair table' index' => rw [before, pairsOf_setBefore_header, before]
    | header index' =>
      rw [setBefore, before, before, List.getElem?_modify_ne]
      rintro rfl
      exact h rfl

/-- The pieces of pairs. -/
lemma exists_of_mem_pairPieces {table : Cursor} {pairs : List Pair} {piece : Spot × String}
    (h : piece ∈ pairPieces table (pairs.map Pair.written)) :
    ∃ index pair, pairs[index]? = some pair ∧
      piece = (.pair table index, dropReturns (pair.written ++ "\n")) := by
  rw [pairPieces, List.zipIdx_map, List.map_map] at h
  obtain ⟨⟨pair, index⟩, hpair, rfl⟩ := List.mem_map.1 h
  exact ⟨index, pair, List.mem_zipIdx_iff_getElem?.1 hpair, rfl⟩

/-- **The pieces of a document** are those of its pairs and headers. -/
theorem exists_of_mem_pieces {piece : Spot × String} (h : piece ∈ document.pieces) :
    (∃ table index pair, (document.pairsOf table)[index]? = some pair ∧
      piece = (.pair table index, dropReturns (pair.written ++ "\n"))) ∨
    ∃ index part, document.sections[index]? = some part ∧
      piece = (.header index, dropReturns (part.header.written ++ "\n")) := by
  rcases List.mem_append.1 h with h | h
  · obtain ⟨index, pair, hpair, rfl⟩ := exists_of_mem_pairPieces h
    exact .inl ⟨.root, index, pair, hpair, rfl⟩
  · rw [written, List.zipIdx_map, List.flatMap_map] at h
    obtain ⟨⟨part, index⟩, hpart, h⟩ := List.mem_flatMap.1 h
    have hpart := List.mem_zipIdx_iff_getElem?.1 hpart
    rcases List.mem_cons.1 h with rfl | h
    · exact .inr ⟨index, part, hpart, rfl⟩
    · obtain ⟨place, pair, hpair, rfl⟩ := exists_of_mem_pairPieces h
      refine .inl ⟨.part index, place, pair, ?_, rfl⟩
      simp only [pairsOf, hpart, Option.map_some, Option.getD_some, hpair]

/-- **What stands at a changed place** is what was put there. -/
theorem before_setBefore_self {place : Spot}
    (h : place ∈ .top :: document.pieces.map Prod.fst) (text : String) :
    (document.setBefore place text).before place = text := by
  rcases List.mem_cons.1 h with rfl | h
  · rfl
  · obtain ⟨piece, hpiece, rfl⟩ := List.mem_map.1 h
    obtain ⟨table, index, pair, hpair, rfl⟩ | ⟨index, part, hpart, rfl⟩ :=
      exists_of_mem_pieces hpiece
    · rw [setBefore, before, pairsOf_modifyPairs, if_pos rfl, List.getElem?_modify_eq, hpair]
      · rfl
      · exact List.modify_nil ..
    · rw [setBefore, before, List.getElem?_modify_eq, hpart]
      rfl

/-- What is written does not change. -/
lemma written_setBefore (place : Spot) (text : String) (document : Document) :
    (document.setBefore place text).written = document.written := by
  cases place with
  | top => rfl
  | pair table index =>
    cases table with
    | root =>
      simp only [setBefore, modifyPairs, written]
      rw [map_modify_eq]
      exact fun _ => rfl
    | part place =>
      simp only [setBefore, modifyPairs, written]
      rw [map_modify_eq]
      intro part
      rw [map_modify_eq]
      exact fun _ => rfl
  | header index =>
    simp only [setBefore, written]
    rw [map_modify_eq]
    exact fun _ => rfl

/-- What is printed behind the places does not change. -/
lemma pieces_setBefore (place : Spot) (text : String) (document : Document) :
    (document.setBefore place text).pieces = document.pieces := by
  rw [pieces, written_setBefore, pieces]

/-- What stands at the end does not change. -/
lemma trailing_setBefore (place : Spot) (text : String) (document : Document) :
    (document.setBefore place text).trailing = document.trailing := by
  cases place with
  | top => rfl
  | pair table index => cases table <;> rfl
  | header index => rfl

/-- What a document says does not change. -/
lemma content_setBefore (place : Spot) (text : String) (document : Document) :
    (document.setBefore place text).content = document.content := by
  cases place with
  | top => rfl
  | pair table index =>
    cases table with
    | root =>
      simp only [setBefore, modifyPairs, content]
      rw [map_modify_eq]
      exact fun _ => rfl
    | part place =>
      simp only [setBefore, modifyPairs, content]
      rw [map_modify_eq]
      intro part
      simp only [Section.content]
      rw [map_modify_eq]
      exact fun _ => rfl
  | header index =>
    simp only [setBefore, content]
    rw [map_modify_eq]
    exact fun _ => rfl

/-! ## Legible documents -/

/-- The pairs of the tables of a legible document are legible. -/
lemma Legible.pairsOf (h : document.Legible) (table : Cursor) :
    ∀ pair ∈ document.pairsOf table, pair.Legible := by
  cases table with
  | root => exact h.pairs
  | part index =>
    rw [Document.pairsOf]
    cases hpart : document.sections[index]? with
    | none => exact fun _ hpair => absurd hpair List.not_mem_nil
    | some part => exact (h.sections part (List.mem_of_getElem? hpart)).pairs

/-- Blanks and comments stand at the places of a legible document. -/
lemma Legible.before_trivia (h : document.Legible) (place : Spot) :
    Trivia false (document.before place).toList false := by
  cases place with
  | top => exact h.about
  | pair table index =>
    rw [before]
    cases hpair : (document.pairsOf table)[index]? with
    | none => exact .nil _
    | some pair => exact (h.pairsOf table pair (List.mem_of_getElem? hpair)).before
  | header index =>
    rw [before]
    cases hpart : document.sections[index]? with
    | none => exact .nil _
    | some part => exact (h.sections part (List.mem_of_getElem? hpart)).header.before

/-- **A legible document** stays legible if other blanks and comments stand at a place. -/
theorem Legible.setBefore (h : document.Legible) (place : Spot) {text : String}
    (htext : Trivia false text.toList false) : (document.setBefore place text).Legible := by
  have hpairs : ∀ pairs : List Pair, (∀ pair ∈ pairs, pair.Legible) → ∀ index : ℕ,
      ∀ pair ∈ pairs.modify index fun pair => { pair with before := text }, pair.Legible :=
    fun pairs hpairs index =>
      forall_mem_modify (fun _ hpair => hpair.replace_before htext) hpairs index
  cases place with
  | top => exact ⟨htext, h.pairs, h.sections, h.trailing⟩
  | pair table index =>
    cases table with
    | root => exact ⟨h.about, hpairs _ h.pairs index, h.sections, h.trailing⟩
    | part place =>
      refine ⟨h.about, h.pairs, ?_, h.trailing⟩
      exact forall_mem_modify (fun _ hpart => ⟨hpart.header, hpairs _ hpart.pairs index⟩)
        h.sections place
  | header index =>
    refine ⟨h.about, h.pairs, ?_, h.trailing⟩
    exact forall_mem_modify
      (fun _ hpart => ⟨hpart.header.replace_before htext, hpart.pairs⟩) h.sections index

/-- What is printed from a solid character on begins with it. -/
lemma exists_dropReturns_eq_cons {text : String} {c : Char} {tail : List Char}
    (h : text.toList = c :: tail) (hc : isSolid c = true) :
    ∃ c rest, (dropReturns (text ++ "\n")).toList = c :: rest ∧ isSolid c = true := by
  refine ⟨c, clean (tail ++ "\n".toList), ?_, hc⟩
  rw [toList_dropReturns, String.toList_append, h, List.cons_append,
    clean_cons (isSolid_iff.1 hc).2.2.1]

/-- The pieces of a legible document begin with keys and headers. -/
lemma Legible.pieces_isSolid (h : document.Legible) :
    ∀ piece ∈ document.pieces, ∃ c rest, piece.2.toList = c :: rest ∧ isSolid c = true := by
  intro piece hpiece
  obtain ⟨table, index, pair, hpair, rfl⟩ | ⟨index, part, hpart, rfl⟩ := exists_of_mem_pieces hpiece
  · obtain ⟨c, tail, hwritten, hc⟩ := (h.pairsOf table pair (List.mem_of_getElem? hpair)).start
    exact exists_dropReturns_eq_cons hwritten (isSolid_of_isKeyStart hc)
  · obtain ⟨c, tail, hwritten, hc⟩ := (h.sections part (List.mem_of_getElem? hpart)).header.start
    exact exists_dropReturns_eq_cons hwritten (isSolid_of_isHeaderStart hc)

end Document

end BoundSql.Toml
