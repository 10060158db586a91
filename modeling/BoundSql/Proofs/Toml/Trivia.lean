import BoundSql.Proofs.Toml.Strings

/-!
# Blanks, line ends and comments

What stands between the parts of a document is read by a machine with two states, inside a comment
and outside of one. Runs of this machine can be put one behind the other, so blanks and comments are
read again when comments are added to them, as long as each comment ends with its line.

## Main definitions

* `BoundSql.Toml.Trivia` — characters that take the reader from a state to a state.
* `BoundSql.Toml.isSolid` — the characters at which the reader stops.

## Main results

* `BoundSql.Toml.readTrivia?_eq_some_iff` — what the reader reads.
* `BoundSql.Toml.Trivia.append` — what is read in two parts is read as a whole.
* `BoundSql.Toml.skipTrivia?_again` — blanks and comments are skipped again.
-/

namespace BoundSql.Toml

/-! ## The reader -/

/-- Blanks, line ends and comments that take their reader from a state to a state. The states say
whether a comment has begun. -/
inductive Trivia : Bool → List Char → Bool → Prop
  | nil (inComment : Bool) : Trivia inComment [] inComment
  | feed {inComment after : Bool} {rest : List Char} (h : Trivia false rest after) :
    Trivia inComment ('\n' :: rest) after
  | lineEnd {inComment after : Bool} {rest : List Char} (h : Trivia false rest after) :
    Trivia inComment ('\r' :: '\n' :: rest) after
  | comment {c : Char} {after : Bool} {rest : List Char} (hc : isPlain c = true)
    (h : Trivia true rest after) : Trivia true (c :: rest) after
  | space {c : Char} {after : Bool} {rest : List Char} (hc : isSpace c = true)
    (h : Trivia false rest after) : Trivia false (c :: rest) after
  | hash {after : Bool} {rest : List Char} (h : Trivia true rest after) :
    Trivia false ('#' :: rest) after

/-- A character that is no part of a line end with two characters. -/
lemma readTrivia?_cons {inComment : Bool} {c : Char} (hreturn : c ≠ '\r') (rest : List Char) :
    readTrivia? inComment (c :: rest) =
      if c = '\n' then withChar (some c) (readTrivia? false rest)
      else if inComment then if isPlain c then withChar (some c) (readTrivia? true rest) else none
      else if isSpace c then withChar (some c) (readTrivia? false rest)
      else if c = '#' then withChar (some c) (readTrivia? true rest)
      else some ([], c :: rest) := by
  rw [readTrivia?]
  exact fun _ h => absurd h hreturn

/-- Plain characters end no line. -/
lemma ne_of_isPlain {c : Char} (hc : isPlain c = true) : c ≠ '\n' ∧ c ≠ '\r' := by
  constructor <;> rintro rfl <;> cases hc

/-- Blanks end no line and begin no comment. -/
lemma ne_of_isSpace {c : Char} (hc : isSpace c = true) : c ≠ '\n' ∧ c ≠ '\r' ∧ c ≠ '#' := by
  refine ⟨?_, ?_, ?_⟩ <;> rintro rfl <;> cases hc

/-- A character in front of what was read behind others. -/
lemma withChar_map (c : Char) (front : List Char) (m : Option (List Char × List Char)) :
    withChar (some c) (m.map fun (text, rest) => (front ++ text, rest)) =
      m.map fun (text, rest) => (c :: front ++ text, rest) := by
  cases m <;> rfl

namespace Trivia

variable {start middle after : Bool} {a b chars : List Char}

/-- **Two parts** that are read one after the other are read as a whole. -/
theorem append (ha : Trivia start a middle) (hb : Trivia middle b after) :
    Trivia start (a ++ b) after := by
  induction ha with
  | nil => exact hb
  | feed _ ih => exact .feed (ih hb)
  | lineEnd _ ih => exact .lineEnd (ih hb)
  | comment hc _ ih => exact .comment hc (ih hb)
  | space hc _ ih => exact .space hc (ih hb)
  | hash _ ih => exact .hash (ih hb)

/-- The carriage returns are those of line ends. -/
lemma whole (h : Trivia start chars after) : Whole chars := by
  induction h with
  | nil => exact .nil
  | feed _ ih => exact .cons (by decide) ih
  | lineEnd _ ih => exact .lineEnd ih
  | comment hc _ ih => exact .cons (ne_of_isPlain hc).2 ih
  | space hc _ ih => exact .cons (ne_of_isSpace hc).2.1 ih
  | hash _ ih => exact .cons (by decide) ih

/-- Printed blanks and comments are read like the ones that they were. -/
lemma clean (h : Trivia start chars after) : Trivia start (clean chars) after := by
  induction h with
  | nil => exact .nil _
  | feed _ ih =>
    rw [clean_cons (by decide)]
    exact .feed ih
  | lineEnd _ ih =>
    rw [clean_return, clean_cons (by decide)]
    exact .feed ih
  | comment hc _ ih =>
    rw [clean_cons (ne_of_isPlain hc).2]
    exact .comment hc ih
  | space hc _ ih =>
    rw [clean_cons (ne_of_isSpace hc).2.1]
    exact .space hc ih
  | hash _ ih =>
    rw [clean_cons (by decide)]
    exact .hash ih

/-- The reader goes through and reads on. -/
lemma read (h : Trivia start chars after) (rest : List Char) :
    readTrivia? start (chars ++ rest) =
      (readTrivia? after rest).map fun (trivia, rest) => (chars ++ trivia, rest) := by
  induction h with
  | nil => exact Option.map_id_apply.symm
  | feed _ ih =>
    rw [List.cons_append, readTrivia?_cons (by decide), if_pos rfl, ih, withChar_map]
  | lineEnd _ ih =>
    rw [List.cons_append, List.cons_append, readTrivia?, ih, Option.map_map]
    rfl
  | comment hc _ ih =>
    obtain ⟨hline, hreturn⟩ := ne_of_isPlain hc
    rw [List.cons_append, readTrivia?_cons hreturn, if_neg hline, if_pos rfl, if_pos hc, ih,
      withChar_map]
  | space hc _ ih =>
    obtain ⟨hline, hreturn, -⟩ := ne_of_isSpace hc
    rw [List.cons_append, readTrivia?_cons hreturn, if_neg hline, if_neg (by decide), if_pos hc,
      ih, withChar_map]
  | hash _ ih =>
    rw [List.cons_append, readTrivia?_cons (by decide), if_neg (by decide), if_neg (by decide),
      if_neg (by decide), if_pos rfl, ih, withChar_map]

/-- The same for texts. -/
lemma toList_append {front back : String} (hfront : Trivia start front.toList middle)
    (hback : Trivia middle back.toList after) : Trivia start (front ++ back).toList after :=
  String.toList_append ▸ hfront.append hback

end Trivia

/-- **The reader of blanks and comments** reads them up to where it can read no further. -/
theorem readTrivia?_eq_some_iff {inComment : Bool} {chars trivia rest : List Char} :
    readTrivia? inComment chars = some (trivia, rest) ↔
      chars = trivia ++ rest ∧
        ∃ after, Trivia inComment trivia after ∧ readTrivia? after rest = some ([], rest) := by
  constructor
  · intro h
    fun_induction readTrivia? inComment chars generalizing trivia with
    | case1 inComment =>
      obtain ⟨rfl, rfl⟩ := Prod.mk.inj (Option.some.inj h)
      exact ⟨rfl, inComment, .nil _, rfl⟩
    | case2 inComment behind ih =>
      obtain ⟨⟨front, other⟩, hread, heq⟩ := Option.map_eq_some_iff.1 h
      obtain ⟨rfl, rfl⟩ := Prod.mk.inj heq
      obtain ⟨rfl, after, hfront, hstop⟩ := ih hread
      exact ⟨rfl, after, .lineEnd hfront, hstop⟩
    | case3 inComment behind _ ih =>
      obtain ⟨c', front, hc', hread, rfl⟩ := withChar_eq_some_iff.1 h
      obtain rfl := Option.some.inj hc'
      obtain ⟨rfl, after, hfront, hstop⟩ := ih hread
      exact ⟨rfl, after, .feed hfront, hstop⟩
    | case4 c behind _ _ hplain ih =>
      obtain ⟨c', front, hc', hread, rfl⟩ := withChar_eq_some_iff.1 h
      obtain rfl := Option.some.inj hc'
      obtain ⟨rfl, after, hfront, hstop⟩ := ih hread
      exact ⟨rfl, after, .comment hplain hfront, hstop⟩
    | case5 => cases h
    | case6 inComment c behind _ _ hcomment hspace ih =>
      obtain ⟨c', front, hc', hread, rfl⟩ := withChar_eq_some_iff.1 h
      obtain rfl := Option.some.inj hc'
      obtain ⟨rfl, after, hfront, hstop⟩ := ih hread
      rw [eq_false_of_ne_true hcomment]
      exact ⟨rfl, after, .space hspace hfront, hstop⟩
    | case7 inComment behind hcomment _ _ _ ih =>
      obtain ⟨c', front, hc', hread, rfl⟩ := withChar_eq_some_iff.1 h
      obtain rfl := Option.some.inj hc'
      obtain ⟨rfl, after, hfront, hstop⟩ := ih hread
      rw [eq_false_of_ne_true hcomment]
      exact ⟨rfl, after, .hash hfront, hstop⟩
    | case8 inComment c behind hreturn hline hcomment hspace hhash =>
      obtain ⟨rfl, rfl⟩ := Prod.mk.inj (Option.some.inj h)
      refine ⟨rfl, inComment, .nil _, ?_⟩
      rw [readTrivia?, if_neg hline, if_neg hcomment, if_neg hspace, if_neg hhash]
      exact hreturn
  · rintro ⟨rfl, after, htrivia, hstop⟩
    rw [htrivia.read, hstop]
    exact congrArg some (Prod.ext (List.append_nil _) rfl)

/-! ## What stands behind -/

/-- Whether blanks and comments end in front of a character. -/
def isSolid (c : Char) : Bool := !isSpace c && c ≠ '\n' && c ≠ '\r' && c ≠ '#'

/-- A solid character is none of those that trivia are made of. -/
lemma isSolid_iff {c : Char} :
    isSolid c = true ↔ isSpace c = false ∧ c ≠ '\n' ∧ c ≠ '\r' ∧ c ≠ '#' := by
  simp [isSolid, and_assoc]

/-- The reader stops in front of a solid character, and of no other but a carriage return. -/
lemma readTrivia?_stop_iff {inComment : Bool} {c : Char} (hreturn : c ≠ '\r')
    (rest : List Char) :
    readTrivia? inComment (c :: rest) = some ([], c :: rest) ↔
      inComment = false ∧ isSolid c = true := by
  have hread : ∀ m, withChar (some c) m ≠ some ([], c :: rest) := by
    intro m h
    obtain ⟨_, _, _, _, hcons⟩ := withChar_eq_some_iff.1 h
    cases hcons
  rw [readTrivia?_cons hreturn, isSolid_iff]
  constructor
  · intro h
    split at h
    · exact absurd h (hread _)
    · next hline =>
      split at h
      · split at h
        · exact absurd h (hread _)
        · cases h
      · next hcomment =>
        split at h
        · exact absurd h (hread _)
        · next hspace =>
          split at h
          · exact absurd h (hread _)
          · next hhash =>
            exact ⟨eq_false_of_ne_true hcomment, eq_false_of_ne_true hspace,
              hline, hreturn, hhash⟩
  · rintro ⟨rfl, hspace, hline, -, hhash⟩
    rw [if_neg hline, if_neg (by decide), hspace, if_neg (by decide), if_neg hhash]

/-- The blanks and comments in front of a character. -/
lemma exists_trivia {chars rest : List Char} {c : Char} (hreturn : c ≠ '\r')
    (h : skipTrivia? chars = some (c :: rest)) :
    ∃ trivia, chars = trivia ++ c :: rest ∧ Trivia false trivia false ∧ isSolid c = true := by
  obtain ⟨⟨trivia, _⟩, hread, rfl⟩ := Option.map_eq_some_iff.1 h
  obtain ⟨hchars, after, htrivia, hstop⟩ := readTrivia?_eq_some_iff.1 hread
  obtain ⟨rfl, hsolid⟩ := (readTrivia?_stop_iff hreturn rest).1 hstop
  exact ⟨trivia, hchars, htrivia, hsolid⟩

/-- **Blanks and comments** in front of a solid character are read again. -/
theorem readTrivia?_again {trivia : List Char} {c : Char} (htrivia : Trivia false trivia false)
    (hc : isSolid c = true) (rest : List Char) :
    readTrivia? false (trivia ++ c :: rest) = some (trivia, c :: rest) := by
  have hstop := (readTrivia?_stop_iff (isSolid_iff.1 hc).2.2.1 rest).2 ⟨rfl, hc⟩
  exact readTrivia?_eq_some_iff.2 ⟨rfl, false, htrivia, hstop⟩

/-- Blanks and comments in front of a solid character are skipped again. -/
lemma skipTrivia?_again {trivia : List Char} {c : Char} (htrivia : Trivia false trivia false)
    (hc : isSolid c = true) (rest : List Char) :
    skipTrivia? (trivia ++ c :: rest) = some (c :: rest) := by
  rw [skipTrivia?, readTrivia?_again htrivia hc]
  rfl

/-- Keys start with solid characters. -/
lemma isSolid_of_isKeyStart {c : Char} (hc : isKeyStart c = true) : isSolid c = true := by
  refine isSolid_iff.2 ⟨isSpace_of_isKeyStart hc, ?_, ?_, ?_⟩ <;>
    · rintro rfl
      cases hc

end BoundSql.Toml
