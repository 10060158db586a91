import BoundSql.Proofs.Json.Lexing
import BoundSql.Proofs.Json.Reals

/-!
# Printed documents follow the grammar

The text of a document writes what is printed for its values, on one line as on several: the two
texts differ in the blanks between the parts only.

## Main results

* `BoundSql.Json.scalarText_writes` — the text of a scalar.
* `BoundSql.Json.documentText_compact`, `BoundSql.Json.documentText_prettyAt` — the texts of a
  document.
-/

namespace BoundSql.Json

/-! ## Scalars -/

/-- The text of a finite real writes its literal. -/
lemma scalarText_writes_real (negative : Bool) (rank : Fin Binary64.finiteCount) :
    ScalarText some (Number.ofRank negative rank).spell (.number (.ofRank negative rank)) := by
  obtain ⟨m, -, hdenotes⟩ := Number.exists_denotes_ofRank negative rank
  exact .number (numberText_spell hdenotes.wellFormed) rfl

/-- **The text of a scalar** writes what is printed for it. -/
theorem scalarText_writes (v : Value) : ScalarText some (scalarText v).toList v.literal := by
  have hnull : ScalarText some "null".toList .null := .word (by simp [words])
  have htrue : ScalarText some "true".toList (.bool true) := .word (by simp [words])
  have hfalse : ScalarText some "false".toList (.bool false) := .word (by simp [words])
  cases v with
  | null => exact hnull
  | bool b =>
    cases b with
    | true => exact htrue
    | false => exact hfalse
  | integer n =>
    have hspell := Number.spell_ofInt n.toInt
    rw [scalarText, Value.literal, ← hspell]
    exact .number (numberText_spell (Number.wellFormed_ofInt _)) rfl
  | real x =>
    cases x with
    | nan => exact hnull
    | infinite negative => exact hnull
    | finite negative rank =>
      rw [scalarText, String.toList_ofList]
      exact scalarText_writes_real negative rank
  | text s =>
    have htext : ScalarText some _ _ := .text (stringText_escape s.toList)
    rw [String.ofList_toList] at htext
    rwa [scalarText, quote, String.toList_ofList]

/-! ## Containers -/

section Containers

variable {α : Type} {P : List Char → α → Prop} {front back : String}

/-- Texts with commas and blanks between them are a list. -/
lemma listText_intercalate (hfront : Blank front.toList) (hback : Blank back.toList)
    {part : String} {parts : List String} {a : α} {as : List α}
    (h : List.Forall₂ (fun part => P part.toList) (part :: parts) (a :: as)) :
    ListText P (front ++ String.intercalate ("," ++ front) (part :: parts) ++ back).toList
      (a :: as) := by
  induction parts generalizing part a as with
  | nil =>
    obtain ⟨hpart, hparts⟩ := List.forall₂_cons.1 h
    obtain rfl := List.forall₂_nil_left_iff.1 hparts
    have hlist := ListText.last hfront hpart hback
    simpa using hlist
  | cons next parts ih =>
    obtain ⟨hpart, hparts⟩ := List.forall₂_cons.1 h
    obtain ⟨b, bs, -, -, rfl⟩ := List.forall₂_cons_left_iff.1 hparts
    have hlist := ListText.cons hfront hpart blank_nil (ih hparts)
    rw [String.intercalate_cons_cons]
    simpa using hlist

/-- Texts with commas between them, or nothing, stand between two brackets. -/
lemma innerText_intercalate {parts : List String} {as : List α}
    (h : List.Forall₂ (fun part => P part.toList) parts as) :
    InnerText P (String.intercalate "," parts).toList as := by
  cases h with
  | nil => exact .inl ⟨by simp [Blank], rfl⟩
  | cons hpart hparts =>
    have hempty : Blank "".toList := blank_nil
    have hlist := listText_intercalate hempty hempty (.cons hpart hparts)
    exact .inr (by simpa using hlist)

/-- The line breaks of a document are blanks. -/
lemma blank_lineBreak (depth : ℕ) : Blank (lineBreak depth).toList := by
  intro c hc
  simp only [lineBreak, String.toList_append, String.toList_ofList, List.mem_append,
    List.mem_replicate] at hc
  obtain hc | ⟨-, rfl⟩ := hc
  · obtain rfl := List.mem_singleton.1 hc
    decide
  · decide

/-- So do texts on lines of their own. -/
lemma exists_bracketed (left right : String) (depth : ℕ) {parts : List String} {as : List α}
    (h : List.Forall₂ (fun part => P part.toList) parts as) :
    ∃ inner, InnerText P inner as ∧
      (bracketed left right depth parts).toList = left.toList ++ (inner ++ right.toList) := by
  unfold bracketed
  cases h with
  | nil => exact ⟨[], .inl ⟨blank_nil, rfl⟩, by simp⟩
  | cons hpart hparts =>
    refine ⟨_, .inr (listText_intercalate (blank_lineBreak (depth + 1)) (blank_lineBreak depth)
      (.cons hpart hparts)), ?_⟩
    rw [if_neg (by simp)]
    simp only [String.toList_append, List.append_assoc]

/-- A key in quotes, a colon and a text are a member. -/
lemma memberText_quote (key : String) {front : List Char} (hfront : Blank front) {text : List Char}
    {a : α} (h : P text a) :
    MemberText P ((quote key).toList ++ ':' :: (front ++ text)) (key, a) := by
  have hmember := MemberText.mk (stringText_escape key.toList) blank_nil hfront h
  rw [String.ofList_toList] at hmember
  simpa [quote] using hmember

end Containers

/-! ## Documents -/

/-- Items are printed one by one. -/
lemma compactItems_eq_map (items : List (Json Value)) :
    compactItems items = items.map compact := by
  induction items with
  | nil => rfl
  | cons item items ih => rw [compactItems, ih, List.map_cons]

/-- Members are printed one by one, each behind its key. -/
lemma compactMembers_eq_map (members : List (String × Json Value)) :
    compactMembers members =
      members.map fun (key, item) => s!"{quote key}:{item.compact}" := by
  induction members with
  | nil => rfl
  | cons member members ih => rw [compactMembers, ih, List.map_cons]

/-- Items are printed one by one, at one depth. -/
lemma prettyItems_eq_map (depth : ℕ) (items : List (Json Value)) :
    prettyItems depth items = items.map (prettyAt depth) := by
  induction items with
  | nil => rfl
  | cons item items ih => rw [prettyItems, ih, List.map_cons]

/-- Members are printed one by one, at one depth. -/
lemma prettyMembers_eq_map (depth : ℕ) (members : List (String × Json Value)) :
    prettyMembers depth members =
      members.map fun (key, item) => s!"{quote key}: {item.prettyAt depth}" := by
  induction members with
  | nil => rfl
  | cons member members ih => rw [prettyMembers, ih, List.map_cons]

section Documents

variable {depth : ℕ} {document : Json Value} {printed : Json (Scalar Number)}

/-- **The text of a document on one line** writes what is printed for its values. -/
theorem documentText_compact
    (h : Relates Value.PrintsAs depth document printed) :
    DocumentText some depth document.compact.toList printed := by
  induction depth generalizing document printed with
  | zero =>
    obtain ⟨v, _, rfl, rfl, rfl⟩ := h
    exact ⟨_, by rw [compact]; exact scalarText_writes v, rfl⟩
  | succ depth ih =>
    obtain ⟨v, _, rfl, rfl, rfl⟩ | ⟨items, others, hitems, rfl, rfl⟩ |
      ⟨members, others, hmembers, rfl, rfl⟩ := h
    · exact .inl ⟨_, by rw [compact]; exact scalarText_writes v, rfl⟩
    · have hparts : List.Forall₂ (fun part => DocumentText some depth part.toList)
          (compactItems items) others := by
        rw [compactItems_eq_map]
        exact List.forall₂_map_left_iff.2 (hitems.imp fun _ _ => ih)
      exact .inr (.inl ⟨_, others, innerText_intercalate hparts, by simp [compact], rfl⟩)
    · have hparts : List.Forall₂ (fun part => MemberText (DocumentText some depth) part.toList)
          (compactMembers members) others := by
        rw [compactMembers_eq_map]
        refine List.forall₂_map_left_iff.2 (hmembers.imp ?_)
        rintro ⟨_, item⟩ ⟨key, other⟩ ⟨rfl, hitem⟩
        simpa [toString] using memberText_quote key blank_nil (ih hitem)
      exact .inr (.inr ⟨_, others, innerText_intercalate hparts, by simp [compact], rfl⟩)

/-- **The text of a document on several lines** writes what is printed for its values, however far
it is indented. -/
theorem documentText_prettyAt
    (h : Relates Value.PrintsAs depth document printed) (indent : ℕ) :
    DocumentText some depth (document.prettyAt indent).toList printed := by
  induction depth generalizing document printed indent with
  | zero =>
    obtain ⟨v, _, rfl, rfl, rfl⟩ := h
    exact ⟨_, by rw [prettyAt]; exact scalarText_writes v, rfl⟩
  | succ depth ih =>
    obtain ⟨v, _, rfl, rfl, rfl⟩ | ⟨items, others, hitems, rfl, rfl⟩ |
      ⟨members, others, hmembers, rfl, rfl⟩ := h
    · exact .inl ⟨_, by rw [prettyAt]; exact scalarText_writes v, rfl⟩
    · have hparts : List.Forall₂ (fun part => DocumentText some depth part.toList)
          (prettyItems (indent + 1) items) others := by
        rw [prettyItems_eq_map]
        exact List.forall₂_map_left_iff.2 (hitems.imp fun _ _ hitem => ih hitem (indent + 1))
      obtain ⟨inner, hinner, htext⟩ := exists_bracketed "[" "]" indent hparts
      exact .inr (.inl ⟨inner, others, hinner, by rw [prettyAt, htext]; rfl, rfl⟩)
    · have hparts : List.Forall₂ (fun part => MemberText (DocumentText some depth) part.toList)
          (prettyMembers (indent + 1) members) others := by
        rw [prettyMembers_eq_map]
        refine List.forall₂_map_left_iff.2 (hmembers.imp ?_)
        rintro ⟨_, item⟩ ⟨key, other⟩ ⟨rfl, hitem⟩
        have hspace : Blank [' '] := by simp [Blank, isSpace]
        simpa [toString] using memberText_quote key hspace (ih hitem (indent + 1))
      obtain ⟨inner, hinner, htext⟩ := exists_bracketed "\x7b" "\x7d" indent hparts
      exact .inr (.inr ⟨inner, others, hinner, by rw [prettyAt, htext]; rfl, rfl⟩)

end Documents

end BoundSql.Json
