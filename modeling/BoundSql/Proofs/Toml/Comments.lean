import BoundSql.Proofs.Toml.Trivia
import BoundSql.Schema.Writer

/-!
# Comments

An explanation becomes comments, each from a number sign up to a line feed. They are added behind
what stands in front of a key or header, and set off from it by an empty comment. A comment ends
with its line, so what is read behind it is not part of it.

## Main definitions

* `BoundSql.Toml.IsComments` — texts that are comments, each on a line of its own.
* `BoundSql.Toml.Manual.IsPlain` — manuals whose explanations may stand in comments.

## Main results

* `BoundSql.Toml.IsComments.trivia` — comments leave the reader outside of a comment.
* `BoundSql.Toml.exists_addComments` — what is added to what stands in front of a key or header.
* `BoundSql.Toml.manuals_isPlain` — the manuals of schemas, tables and columns are plain.
-/

namespace BoundSql.Toml

/-! ## Comments -/

/-- Comments, each from a number sign up to a line feed. -/
def IsComments (text : String) : Prop :=
  ∃ lines : List String, (∀ line ∈ lines, ∀ c ∈ line.toList, isPlain c = true) ∧
    text = String.join (lines.map fun line => "#" ++ line ++ "\n")

/-- Without lines there are only comments. -/
lemma isComments_empty : IsComments "" := ⟨[], by simp, rfl⟩

/-- Comments behind comments are comments. -/
lemma IsComments.append {a b : String} (ha : IsComments a) (hb : IsComments b) :
    IsComments (a ++ b) := by
  obtain ⟨front, hfront, rfl⟩ := ha
  obtain ⟨back, hback, rfl⟩ := hb
  refine ⟨front ++ back, List.forall_mem_append.2 ⟨hfront, hback⟩, ?_⟩
  rw [List.map_append, String.join_append]

/-- Inside a comment, plain characters go on with it. -/
lemma trivia_comment {chars : List Char} (h : ∀ c ∈ chars, isPlain c = true) :
    Trivia true chars true := by
  induction chars with
  | nil => exact .nil _
  | cons c rest ih =>
    rw [List.forall_mem_cons] at h
    exact .comment h.1 (ih h.2)

/-- **Comments** leave the reader outside of a comment. -/
theorem IsComments.trivia {text : String} (h : IsComments text) :
    Trivia false text.toList false := by
  obtain ⟨lines, hplain, rfl⟩ := h
  induction lines with
  | nil => exact .nil _
  | cons line lines ih =>
    rw [List.forall_mem_cons] at hplain
    rw [List.map_cons, String.join_cons, String.toList_append, String.toList_append,
      String.toList_append, List.append_assoc, List.append_assoc]
    exact .hash ((trivia_comment hplain.1).append (.feed (ih hplain.2)))

/-- Comments have no carriage returns. -/
lemma IsComments.not_mem_return {text : String} (h : IsComments text) : '\r' ∉ text.toList := by
  obtain ⟨lines, hplain, rfl⟩ := h
  simp only [String.toList_join, List.mem_flatMap, List.mem_map, not_exists, not_and]
  rintro _ ⟨line, hline, rfl⟩ hmem
  simp only [String.toList_append, List.mem_append] at hmem
  rcases hmem with (hmem | hmem) | hmem
  · cases List.mem_singleton.1 hmem
  · cases hplain line hline _ hmem
  · cases List.mem_singleton.1 hmem

/-! ## Explanations -/

/-- Whether a text may stand in comments: it has no controls but line feeds. -/
def isExplanation (text : String) : Bool := text.toList.all fun c => isPlain c || c = '\n'

/-- The characters of the parts of a text. -/
lemma mem_of_mem_splitChars {mark c : Char} {chars part : List Char}
    (hpart : part ∈ Text.splitChars mark chars) (hc : c ∈ part) : c ∈ chars ∧ c ≠ mark := by
  induction chars generalizing part with
  | nil =>
    obtain rfl := List.mem_singleton.1 hpart
    cases hc
  | cons d rest ih =>
    rw [Text.splitChars] at hpart
    split at hpart
    · next hd =>
      rcases List.mem_cons.1 hpart with rfl | hpart
      · cases hc
      · exact (ih hpart hc).imp_left (List.mem_cons_of_mem _)
    · next hd =>
      split at hpart
      · next hnil => exact absurd hnil (Text.splitChars_ne_nil mark rest)
      · next first parts hsplit =>
        rcases List.mem_cons.1 hpart with rfl | hpart
        · rcases List.mem_cons.1 hc with rfl | hc
          · exact ⟨List.mem_cons_self, hd⟩
          · exact (ih (hsplit ▸ List.mem_cons_self) hc).imp_left (List.mem_cons_of_mem _)
        · exact (ih (hsplit ▸ List.mem_cons_of_mem _ hpart) hc).imp_left (List.mem_cons_of_mem _)

/-- The characters of the lines that parts of a text make. -/
lemma exists_mem_of_mem_linesOfParts {parts : List (List Char)} {line : List Char} {c : Char}
    (hline : line ∈ Text.linesOfParts parts) (hc : c ∈ line) : ∃ part ∈ parts, c ∈ part := by
  fun_induction Text.linesOfParts parts with
  | case1 => cases hline
  | case2 => cases hline
  | case3 last => exact ⟨last, List.mem_cons_self, List.mem_singleton.1 hline ▸ hc⟩
  | case4 first rest _ ih =>
    rcases List.mem_cons.1 hline with rfl | hline
    · refine ⟨first, List.mem_cons_self, ?_⟩
      unfold Text.dropReturn at hc
      split at hc
      · exact (List.dropLast_sublist first).subset hc
      · exact hc
    · obtain ⟨part, hpart, hmem⟩ := ih hline
      exact ⟨part, List.mem_cons_of_mem _ hpart, hmem⟩

/-- An explanation whose lines have no controls becomes comments. -/
lemma isComments_of_lines {explanation : String}
    (hline : ∀ line ∈ Text.lines explanation, ∀ c ∈ line.toList, isPlain c = true) :
    IsComments (comments explanation) := by
  rw [comments]
  generalize Text.lines explanation = lines at hline ⊢
  induction lines with
  | nil => exact isComments_empty
  | cons line lines ih =>
    rw [List.forall_mem_cons] at hline
    rw [List.map_cons, String.join_cons]
    refine IsComments.append ?_ (ih hline.2)
    rw [commentLine]
    split
    · exact ⟨[""], by simp, rfl⟩
    · refine ⟨[" " ++ line], ?_, ?_⟩
      · intro _ hmem c hc
        rw [List.mem_singleton.1 hmem, String.toList_append] at hc
        rcases List.mem_append.1 hc with hspace | hc
        · rw [List.mem_singleton.1 hspace]
          rfl
        · exact hline.1 c hc
      · have hfront : "#" ++ (" " ++ line) = "# " ++ line := by
          rw [← String.append_assoc]
          rfl
        simp only [List.map_cons, List.map_nil, String.join_cons, String.join_nil,
          String.append_empty, hfront]

/-- The characters of a line are characters of the text, and none of them is a line feed. -/
lemma mem_of_mem_lines {text line : String} {c : Char} (hline : line ∈ Text.lines text)
    (hc : c ∈ line.toList) : c ∈ text.toList ∧ c ≠ '\n' := by
  obtain ⟨chars, hchars, rfl⟩ := List.mem_map.1 hline
  rw [String.toList_ofList] at hc
  obtain ⟨part, hpart, hcpart⟩ := exists_mem_of_mem_linesOfParts hchars hc
  exact mem_of_mem_splitChars hpart hcpart

/-- An explanation becomes comments. -/
lemma isComments_comments {explanation : String} (h : isExplanation explanation = true) :
    IsComments (comments explanation) := by
  refine isComments_of_lines fun line hline c hc => ?_
  obtain ⟨hmem, hne⟩ := mem_of_mem_lines hline hc
  have hplain := List.all_eq_true.1 h c hmem
  rw [Bool.or_eq_true] at hplain
  exact hplain.resolve_right fun heq => hne (of_decide_eq_true heq)

/-- What sets comments off from what stands in front of a key or header: an empty comment, unless
there is nothing or its last line is empty. -/
def separator (before : String) : String :=
  if before = "" ∨ (Text.lines before).getLast? = some "" then "" else "#\n"

/-- What separates an explanation from the text before it is a comment. -/
lemma isComments_separator (before : String) : IsComments (separator before) := by
  unfold separator
  split
  · exact isComments_empty
  · exact ⟨[""], by simp, rfl⟩

/-- Comments are added behind what stands in front of a key or header, and set off from it. -/
lemma addComments_eq (before explanation : String) :
    addComments before explanation = before ++ (separator before ++ comments explanation) := by
  unfold addComments separator
  split
  · next hempty =>
    rw [if_pos (.inl (String.isEmpty_iff.1 hempty)), String.isEmpty_iff.1 hempty,
      String.empty_append, String.empty_append]
  · next hempty =>
    split
    · next hlast => rw [if_pos (.inr hlast), String.empty_append]
    · next hlast =>
      have hnot := not_or.2 ⟨fun h => hempty (String.isEmpty_iff.2 h), hlast⟩
      rw [if_neg hnot, String.append_assoc]

/-- Comments are added behind what stands in front of a key or header. -/
lemma exists_addComments (before : String) {explanation : String}
    (h : isExplanation explanation = true) :
    ∃ added, IsComments added ∧ addComments before explanation = before ++ added :=
  ⟨_, (isComments_separator before).append (isComments_comments h),
    addComments_eq before explanation⟩

/-- A manual all of whose explanations may stand in comments. -/
def Manual.IsPlain (manual : Manual) : Prop :=
  ∀ explanation ∈ manual.about :: manual.keys.map Prod.snd, isExplanation explanation = true

instance (manual : Manual) : Decidable manual.IsPlain :=
  inferInstanceAs (Decidable (∀ explanation ∈ _, _))

/-- The explanation of a key is among those of its manual. -/
lemma Manual.IsPlain.of_about? {manual : Manual} (h : manual.IsPlain) {key explanation : String}
    (habout : manual.about? key = some explanation) : isExplanation explanation = true := by
  obtain ⟨front, back, hkeys, -⟩ := List.lookup_eq_some_iff.1 habout
  refine h explanation ?_
  rw [hkeys]
  simp

/-- The manuals of schemas, tables and columns are plain. -/
lemma manuals_isPlain : ∀ manual ∈ [Schema.manual, TableEntry.manual, ColumnEntry.manual],
    manual.IsPlain := by
  decide +kernel

end BoundSql.Toml
