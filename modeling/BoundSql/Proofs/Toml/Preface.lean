import BoundSql.Proofs.Toml.Comments

/-!
# What stands in front of a key

In front of a key or header stand lines that are blank or hold a comment, and then the blanks that
indent it. Adding comments keeps this shape, however often it is done: the first comment takes the
indentation to itself, and every comment ends with its line. So what was there stays in front, and
the comments for the lines of an explanation stand behind it in order.

## Main definitions

* `BoundSql.Toml.Preface` — what stands in front of a key or header, line by line.
* `BoundSql.Toml.Preface.lastLine?` — its last line, which may lack an end.
* `BoundSql.Toml.HasNoControls` — texts without controls but line ends.

## Main results

* `BoundSql.Toml.Preface.lines_text` — the lines of the text are those of the preface.
* `BoundSql.Toml.exists_preface_iff` — the texts that a reader takes for blanks and comments.
* `BoundSql.Toml.Preface.addComments_each` — every one of several explanations adds its comments.
-/

namespace BoundSql

/-! ## Lines of texts -/

namespace Text

/-- The part in front of the first mark is split off. -/
lemma splitChars_append_cons {mark : Char} {part : List Char} (hpart : mark ∉ part)
    (rest : List Char) : splitChars mark (part ++ mark :: rest) = part :: splitChars mark rest := by
  induction part with
  | nil => rw [List.nil_append, splitChars, if_pos rfl]
  | cons c part ih =>
    rw [List.mem_cons, not_or] at hpart
    rw [List.cons_append, splitChars, if_neg (Ne.symm hpart.1), ih hpart.2]

/-- Without a mark there is one part. -/
lemma splitChars_of_not_mem {mark : Char} {part : List Char} (hpart : mark ∉ part) :
    splitChars mark part = [part] := by
  induction part with
  | nil => rfl
  | cons c part ih =>
    rw [List.mem_cons, not_or] at hpart
    rw [splitChars, if_neg (Ne.symm hpart.1), ih hpart.2]

/-- A part with a line feed behind it is a line. -/
lemma linesOfParts_cons {parts : List (List Char)} (hparts : parts ≠ []) (line : List Char) :
    linesOfParts (line :: parts) = dropReturn line :: linesOfParts parts := by
  cases parts with
  | nil => exact absurd rfl hparts
  | cons part parts => rfl

/-- **The first line** of a text ends at the first line feed. -/
theorem lines_append_feed {line : String} (hline : '\n' ∉ line.toList) (rest : String) :
    lines (line ++ "\n" ++ rest) = String.ofList (dropReturn line.toList) :: lines rest := by
  have hchars : (line ++ "\n" ++ rest).toList = line.toList ++ '\n' :: rest.toList := by
    rw [String.toList_append, String.toList_append, List.append_assoc]
    rfl
  rw [lines, hchars, splitChars_append_cons hline,
    linesOfParts_cons (splitChars_ne_nil '\n' rest.toList)]
  rfl

/-- A text without line feeds is one line, unless it is empty. -/
lemma lines_of_not_mem {line : String} (hline : '\n' ∉ line.toList) :
    lines line = if line = "" then [] else [line] := by
  rw [lines, splitChars_of_not_mem hline, linesOfParts]
  by_cases hempty : line = ""
  · rw [if_pos hempty, hempty]
    rfl
  · rw [if_neg hempty, if_neg fun h => hempty (String.toList_eq_nil_iff.1 (List.isEmpty_iff.1 h)),
      List.map_singleton, String.ofList_toList]

/-- A carriage return in front of a line feed is no part of the line. -/
lemma dropReturn_concat (line : List Char) : dropReturn (line ++ ['\r']) = line := by
  rw [dropReturn, if_pos List.getLast?_concat, List.dropLast_concat]

/-- A line without a carriage return stays as it is. -/
lemma dropReturn_of_not_mem {line : List Char} (hline : '\r' ∉ line) : dropReturn line = line :=
  if_neg fun h => hline (List.mem_of_getLast? h)

/-- A character in front of a line that has no carriage return, or loses its last one. -/
lemma not_mem_dropReturn_cons {c : Char} (hc : c ≠ '\r') {line : List Char}
    (hline : '\r' ∉ dropReturn line) : '\r' ∉ dropReturn (c :: line) := by
  cases line with
  | nil =>
    have hsingle : '\r' ∉ [c] := fun h => hc (List.mem_singleton.1 h).symm
    rwa [dropReturn_of_not_mem hsingle]
  | cons d line =>
    have hcons : dropReturn (c :: d :: line) = c :: dropReturn (d :: line) := by
      simp only [dropReturn, List.getLast?_cons_cons, List.dropLast_cons_cons]
      split <;> rfl
    rw [hcons, List.mem_cons, not_or]
    exact ⟨Ne.symm hc, hline⟩

end Text

namespace Toml

/-! ## Texts without controls -/

/-- Whether a text has no controls but the line ends: a carriage return stands before a line feed
only. -/
def HasNoControls (text : String) : Prop :=
  Whole text.toList ∧ ∀ c ∈ text.toList, isPlain c = true ∨ c = '\n' ∨ c = '\r'

/-- Carriage returns that all stand before line feeds are in no line. -/
lemma Whole.not_mem_linesOfParts {chars : List Char} (h : Whole chars) :
    ∀ line ∈ Text.linesOfParts (Text.splitChars '\n' chars), '\r' ∉ line := by
  induction h with
  | nil => exact List.forall_mem_nil _
  | @lineEnd rest _ ih =>
    have hsplit : Text.splitChars '\n' ('\r' :: '\n' :: rest) =
        ['\r'] :: Text.splitChars '\n' rest :=
      Text.splitChars_append_cons (by decide : '\n' ∉ ['\r']) rest
    rw [hsplit, Text.linesOfParts_cons (Text.splitChars_ne_nil '\n' rest), List.forall_mem_cons]
    exact ⟨List.not_mem_nil, ih⟩
  | @cons c rest hc _ ih =>
    by_cases hfeed : c = '\n'
    · subst hfeed
      rw [Text.splitChars, if_pos rfl,
        Text.linesOfParts_cons (Text.splitChars_ne_nil '\n' rest), List.forall_mem_cons]
      exact ⟨List.not_mem_nil, ih⟩
    · rw [Text.splitChars, if_neg hfeed]
      split
      · next hnil => exact absurd hnil (Text.splitChars_ne_nil '\n' rest)
      · next part parts hsplit =>
        rw [hsplit] at ih
        -- Only the last part keeps a carriage return at its end, and it is no line if it is empty.
        cases parts with
        | nil =>
          intro line hline
          obtain rfl : line = c :: part := List.mem_singleton.1 hline
          rw [List.mem_cons, not_or]
          refine ⟨Ne.symm hc, fun hreturn => ?_⟩
          cases part with
          | nil => cases hreturn
          | cons d part => exact ih _ (List.mem_singleton.2 rfl) hreturn
        | cons next parts =>
          rw [Text.linesOfParts_cons (List.cons_ne_nil _ _), List.forall_mem_cons] at ih ⊢
          exact ⟨Text.not_mem_dropReturn_cons hc ih.1, ih.2⟩

/-- The lines of a text without controls have none. -/
lemma HasNoControls.isPlain_lines {text : String} (h : HasNoControls text) :
    ∀ line ∈ Text.lines text, ∀ c ∈ line.toList, isPlain c = true := by
  intro line hline c hc
  obtain ⟨hmem, hfeed⟩ := mem_of_mem_lines hline hc
  obtain ⟨chars, hchars, rfl⟩ := List.mem_map.1 hline
  rw [String.toList_ofList] at hc
  have hreturn : c ≠ '\r' := fun heq => h.1.not_mem_linesOfParts chars hchars (heq ▸ hc)
  exact (h.2 c hmem).resolve_right (not_or.2 ⟨hfeed, hreturn⟩)

/-! ## Prefaces -/

/-- How a line ends. -/
inductive LineEnd where
  /-- By a line feed. -/
  | feed
  /-- By a carriage return and a line feed. -/
  | returnFeed

/-- The text of a line end. -/
def LineEnd.text : LineEnd → String
  | feed => "\n"
  | returnFeed => "\r\n"

/-- A line that is blank or holds a comment, with its end. -/
structure TriviaLine where
  /-- The blanks in front. -/
  blanks : String
  /-- What stands behind the number sign of the comment, if there is one. -/
  comment? : Option String
  /-- The end. -/
  ending : LineEnd
  /-- The blanks are spaces and tabs. -/
  isSpace_blanks : ∀ c ∈ blanks.toList, isSpace c = true
  /-- The comment has no controls. -/
  isPlain_comment : ∀ words, comment? = some words → ∀ c ∈ words.toList, isPlain c = true

namespace TriviaLine

/-- A line without its end. -/
def content (line : TriviaLine) : String :=
  line.blanks ++ (line.comment?.map ("#" ++ ·)).getD ""

/-- The text of a line. -/
def text (line : TriviaLine) : String := line.content ++ line.ending.text

end TriviaLine

/-- What stands in front of a key or header: lines that are blank or hold a comment, and then the
blanks that indent the key. -/
structure Preface where
  /-- The lines. -/
  lines : List TriviaLine
  /-- The blanks behind them. -/
  indentation : String
  /-- These are spaces and tabs. -/
  isSpace_indentation : ∀ c ∈ indentation.toList, isSpace c = true

namespace Preface

/-- The text of a preface. -/
def text (p : Preface) : String := String.join (p.lines.map (·.text)) ++ p.indentation

/-- The last line of a preface: the indentation, if there is one. -/
def lastLine? (p : Preface) : Option String :=
  if p.indentation = "" then p.lines.getLast?.map (·.content) else some p.indentation

end Preface

/-! ### Lines of prefaces -/

/-- Blanks are plain. -/
lemma isPlain_of_isSpace {c : Char} (h : isSpace c = true) : isPlain c = true := by
  rcases Bool.or_eq_true_iff.1 h with h | h <;>
    · rw [of_decide_eq_true h]
      rfl

/-- A line without its end has no controls. -/
lemma TriviaLine.isPlain_content (line : TriviaLine) :
    ∀ c ∈ line.content.toList, isPlain c = true := by
  rw [content, String.toList_append, List.forall_mem_append]
  refine ⟨fun c hc => isPlain_of_isSpace (line.isSpace_blanks c hc), ?_⟩
  cases hcomment : line.comment? with
  | none => exact List.forall_mem_nil _
  | some words =>
    rw [Option.map_some, Option.getD_some, String.toList_append, List.forall_mem_append]
    refine ⟨fun c hc => ?_, line.isPlain_comment words hcomment⟩
    rw [List.mem_singleton.1 hc]
    rfl

/-- A line in front of a text is its first line. -/
lemma TriviaLine.lines_text_append (line : TriviaLine) (rest : String) :
    Text.lines (line.text ++ rest) = line.content :: Text.lines rest := by
  have hfeed : '\n' ∉ line.content.toList := fun h => by cases line.isPlain_content _ h
  have hreturn : '\r' ∉ line.content.toList := fun h => by cases line.isPlain_content _ h
  cases hending : line.ending with
  | feed =>
    rw [text, hending, LineEnd.text, Text.lines_append_feed hfeed,
      Text.dropReturn_of_not_mem hreturn, String.ofList_toList]
  | returnFeed =>
    have hends : "\r\n" = "\r" ++ "\n" := rfl
    have htext : line.text ++ rest = line.content ++ "\r" ++ "\n" ++ rest := by
      rw [text, hending, LineEnd.text, hends, ← String.append_assoc]
    have hchars : (line.content ++ "\r").toList = line.content.toList ++ ['\r'] :=
      String.toList_append
    have hfeed' : '\n' ∉ (line.content ++ "\r").toList := by
      rw [hchars, List.mem_append, not_or]
      exact ⟨hfeed, by decide⟩
    rw [htext, Text.lines_append_feed hfeed', hchars, Text.dropReturn_concat, String.ofList_toList]

namespace Preface

/-- **The lines of a preface's text** are its lines and, behind them, the indentation. -/
theorem lines_text (p : Preface) :
    Text.lines p.text =
      p.lines.map (·.content) ++ if p.indentation = "" then [] else [p.indentation] := by
  obtain ⟨lines, indentation, hspace⟩ := p
  rw [text]
  dsimp only
  induction lines with
  | nil =>
    have hfeed : '\n' ∉ indentation.toList := fun h => by cases hspace _ h
    rw [List.map_nil, String.join_nil, String.empty_append, Text.lines_of_not_mem hfeed]
    rfl
  | cons line lines ih =>
    rw [List.map_cons, String.join_cons, String.append_assoc, line.lines_text_append, ih,
      List.map_cons, List.cons_append]

/-- The last line of a preface is that of its text. -/
lemma getLast?_lines_text (p : Preface) : (Text.lines p.text).getLast? = p.lastLine? := by
  rw [p.lines_text, lastLine?]
  split
  · rw [List.append_nil, List.getLast?_map]
  · exact List.getLast?_concat

end Preface

/-! ### Prefaces are what readers skip -/

/-- Spaces and tabs are read as blanks. -/
lemma trivia_spaces {chars : List Char} (h : ∀ c ∈ chars, isSpace c = true) :
    Trivia false chars false := by
  induction chars with
  | nil => exact .nil _
  | cons c rest ih =>
    rw [List.forall_mem_cons] at h
    exact .space h.1 (ih h.2)

/-- The end of a line is the end of a comment. -/
lemma LineEnd.trivia (inComment : Bool) (ending : LineEnd) :
    Trivia inComment ending.text.toList false := by
  cases ending with
  | feed => exact .feed (.nil _)
  | returnFeed => exact .lineEnd (.nil _)

/-- Lines of a preface are read as blanks and comments. -/
lemma TriviaLine.trivia (line : TriviaLine) : Trivia false line.text.toList false := by
  have hblanks := trivia_spaces line.isSpace_blanks
  rw [text, content]
  cases hcomment : line.comment? with
  | none =>
    rw [Option.map_none, Option.getD_none, String.append_empty]
    exact hblanks.toList_append (line.ending.trivia false)
  | some words =>
    have hwords := trivia_comment (line.isPlain_comment words hcomment)
    rw [Option.map_some, Option.getD_some]
    refine (hblanks.toList_append ?_).toList_append (line.ending.trivia true)
    exact (Trivia.hash (.nil true)).toList_append hwords

namespace Preface

/-- A preface is read as blanks and comments. -/
lemma trivia (p : Preface) : Trivia false p.text.toList false := by
  refine Trivia.toList_append ?_ (trivia_spaces p.isSpace_indentation)
  induction p.lines with
  | nil => exact .nil _
  | cons line lines ih =>
    rw [List.map_cons, String.join_cons]
    exact line.trivia.toList_append ih

/-- A preface with a line in front. -/
def cons (line : TriviaLine) (p : Preface) : Preface := { p with lines := line :: p.lines }

/-- The text of the first line stands in front. -/
lemma toList_text_cons (line : TriviaLine) (p : Preface) :
    (p.cons line).text.toList = line.text.toList ++ p.text.toList := by
  rw [← String.toList_append]
  simp only [text, cons, List.map_cons, String.join_cons, String.append_assoc]

/-- A space or tab in front of a preface indents its first line. -/
lemma exists_space {c : Char} (hc : isSpace c = true) (p : Preface) :
    ∃ next : Preface, next.text.toList = c :: p.text.toList := by
  have hcons : ∀ {blanks : String}, (∀ c ∈ blanks.toList, isSpace c = true) →
      ∀ d ∈ (String.singleton c ++ blanks).toList, isSpace d = true := by
    intro blanks hblanks d hd
    rw [String.toList_append] at hd
    rcases List.mem_append.1 hd with hd | hd
    · obtain rfl : d = c := by simpa using hd
      exact hc
    · exact hblanks d hd
  obtain ⟨lines, indentation, hspace⟩ := p
  cases lines with
  | nil =>
    refine ⟨⟨[], String.singleton c ++ indentation, hcons hspace⟩, ?_⟩
    simp [text]
  | cons line lines =>
    refine ⟨⟨{ line with
      blanks := String.singleton c ++ line.blanks
      isSpace_blanks := hcons line.isSpace_blanks } :: lines, indentation, hspace⟩, ?_⟩
    simp [text, TriviaLine.text, TriviaLine.content]

end Preface

/-- Blanks and comments are a preface, behind the end of a comment if one has begun. -/
lemma Trivia.exists_preface {start after : Bool} {chars : List Char}
    (h : Trivia start chars after) (hafter : after = false) :
    (start = false → ∃ p : Preface, p.text.toList = chars) ∧
      (start = true → ∃ (words : List Char) (ending : LineEnd) (p : Preface),
        (∀ c ∈ words, isPlain c = true) ∧
          chars = words ++ (ending.text.toList ++ p.text.toList)) := by
  -- A line end that begins no comment is a blank line of its own.
  have hblank : ∀ (ending : LineEnd) (p : Preface),
      ∃ q : Preface, q.text.toList = ending.text.toList ++ p.text.toList := by
    intro ending p
    refine ⟨p.cons ⟨"", none, ending, List.forall_mem_nil _, nofun⟩, ?_⟩
    rw [Preface.toList_text_cons]
    rfl
  induction h with
  | nil start =>
    exact ⟨fun _ => ⟨⟨[], "", List.forall_mem_nil _⟩, rfl⟩,
      fun hstart => absurd (hstart.symm.trans hafter) (by decide)⟩
  | feed _ ih =>
    obtain ⟨p, rfl⟩ := (ih hafter).1 rfl
    exact ⟨fun _ => hblank .feed p,
      fun _ => ⟨[], .feed, p, List.forall_mem_nil _, rfl⟩⟩
  | lineEnd _ ih =>
    obtain ⟨p, rfl⟩ := (ih hafter).1 rfl
    exact ⟨fun _ => hblank .returnFeed p,
      fun _ => ⟨[], .returnFeed, p, List.forall_mem_nil _, rfl⟩⟩
  | comment hc _ ih =>
    obtain ⟨words, ending, p, hwords, rfl⟩ := (ih hafter).2 rfl
    exact ⟨nofun, fun _ => ⟨_ :: words, ending, p, List.forall_mem_cons.2 ⟨hc, hwords⟩, rfl⟩⟩
  | space hc _ ih =>
    obtain ⟨p, rfl⟩ := (ih hafter).1 rfl
    exact ⟨fun _ => p.exists_space hc, nofun⟩
  | hash _ ih =>
    obtain ⟨words, ending, p, hwords, rfl⟩ := (ih hafter).2 rfl
    refine ⟨fun _ => ⟨p.cons ⟨"", some (String.ofList words), ending,
      List.forall_mem_nil _, ?_⟩, ?_⟩, nofun⟩
    · intro _ heq
      obtain rfl := Option.some.inj heq
      rwa [String.toList_ofList]
    · rw [Preface.toList_text_cons]
      simp [TriviaLine.text, TriviaLine.content]

/-- **Prefaces** are exactly what a reader takes for blanks and comments. -/
theorem exists_preface_iff {text : String} :
    (∃ p : Preface, p.text = text) ↔ Trivia false text.toList false := by
  constructor
  · rintro ⟨p, rfl⟩
    exact p.trivia
  · intro h
    obtain ⟨p, hp⟩ := (h.exists_preface rfl).1 rfl
    exact ⟨p, String.toList_inj.1 hp⟩

/-! ### Comments behind prefaces -/

/-- An explanation as comments, line by line. -/
lemma comments_eq (explanation : String) :
    comments explanation = String.join ((Text.lines explanation).map fun line =>
      (if line = "" then "#" else "# " ++ line) ++ "\n") := by
  rw [comments]
  congr 2
  funext line
  rw [commentLine]
  by_cases h : line = ""
  · rw [if_pos h, if_pos (String.isEmpty_iff.2 h)]
    rfl
  · rw [if_neg h, if_neg (mt String.isEmpty_iff.1 h)]

namespace Preface

/-- Comments behind a preface belong to it; the first one takes the indentation. -/
lemma exists_append (p : Preface) {added : String} (h : IsComments added) :
    ∃ next : Preface, next.text = p.text ++ added := by
  obtain ⟨comments, hplain, rfl⟩ := h
  induction comments generalizing p with
  | nil => exact ⟨p, String.append_empty.symm⟩
  | cons words comments ih =>
    rw [List.forall_mem_cons] at hplain
    -- The indentation becomes part of the first comment's line, which leaves none behind it.
    let line : TriviaLine :=
      ⟨p.indentation, some words, .feed, p.isSpace_indentation,
        fun _ h => Option.some.inj h ▸ hplain.1⟩
    let first : Preface := ⟨p.lines ++ [line], "", List.forall_mem_nil _⟩
    have hfirst : first.text = p.text ++ ("#" ++ words ++ "\n") := by
      simp [first, line, text, TriviaLine.text, TriviaLine.content, LineEnd.text,
        String.append_assoc]
    obtain ⟨next, hnext⟩ := ih first hplain.2
    refine ⟨next, ?_⟩
    rw [hnext, hfirst, List.map_cons, String.join_cons, String.append_assoc]

/-- **Adding comments** to a preface gives a preface. -/
lemma exists_addComments (p : Preface) {explanation : String} (h : HasNoControls explanation) :
    ∃ next : Preface, next.text = addComments p.text explanation := by
  rw [addComments_eq]
  exact p.exists_append ((isComments_separator p.text).append (isComments_of_lines h.isPlain_lines))

/-- Adding comments again and again gives a preface. -/
lemma exists_foldl_addComments (p : Preface) {explanations : List String}
    (h : ∀ explanation ∈ explanations, HasNoControls explanation) :
    ∃ next : Preface, next.text = explanations.foldl addComments p.text := by
  induction explanations generalizing p with
  | nil => exact ⟨p, rfl⟩
  | cons explanation rest ih =>
    rw [List.forall_mem_cons] at h
    obtain ⟨first, hfirst⟩ := p.exists_addComments h.1
    rw [List.foldl_cons, ← hfirst]
    exact ih first h.2

/-- Comments are set off from a preface that is not empty and does not end in an empty line. -/
lemma separator_text (p : Preface) :
    separator p.text = if p.text ≠ "" ∧ p.lastLine? ≠ some "" then "#\n" else "" := by
  rw [separator, p.getLast?_lines_text]
  by_cases h : p.text = "" ∨ p.lastLine? = some ""
  · rw [if_pos h, if_neg fun hboth => h.elim hboth.1 hboth.2]
  · rw [if_neg h, if_pos (not_or.1 h)]

/-- **Each of several explanations** that are added one after the other keeps what stands in front
of a key or header in its shape. What was there stays in front. Behind it comes one comment for each
line of the explanation, in order: an empty comment for an empty line, and the line behind a space
otherwise. A single empty comment sets these off, exactly if there was something whose last line is
not empty.

**Proof sketch.** Comments behind a preface belong to it because the first one takes the indentation
to itself (`exists_append`), and the lines of an explanation without controls become comments. -/
theorem addComments_each (p : Preface) {explanations : List String}
    (h : ∀ explanation ∈ explanations, HasNoControls explanation)
    {earlier later : List String} {explanation : String}
    (hsplit : explanations = earlier ++ explanation :: later) :
    ∃ old next : Preface, old.text = earlier.foldl addComments p.text ∧
      next.text = addComments old.text explanation ∧
      next.text = old.text ++ (if old.text ≠ "" ∧ old.lastLine? ≠ some "" then "#\n" else "") ++
        String.join ((Text.lines explanation).map fun line =>
          (if line = "" then "#" else "# " ++ line) ++ "\n") := by
  rw [hsplit, List.forall_mem_append, List.forall_mem_cons] at h
  obtain ⟨old, hold⟩ := p.exists_foldl_addComments h.1
  obtain ⟨next, hnext⟩ := old.exists_addComments h.2.1
  refine ⟨old, next, hold, hnext, ?_⟩
  rw [hnext, addComments_eq, old.separator_text, comments_eq, String.append_assoc]

/-- A comment that ends with a carriage return, a line with a tab, and two spaces that indent. -/
def indented : Preface where
  lines := [⟨"", some " blog", .returnFeed, List.all_eq_true.1 (by decide),
      fun _ h => Option.some.inj h ▸ List.all_eq_true.1 (by decide)⟩,
    ⟨"\t", none, .feed, List.all_eq_true.1 (by decide), nofun⟩]
  indentation := "  "
  isSpace_indentation := List.all_eq_true.1 (by decide)

/-- An explanation with an empty line behind another one and indentation. -/
theorem addComments_each_indented :
    (∀ explanation ∈ ["Tables", "Name\r\n\nand key"], HasNoControls explanation) ∧
      indented.text = "# blog\r\n\t\n  " ∧
      ∃ old next : Preface, old.text = "# blog\r\n\t\n  #\n# Tables\n" ∧
        next.text = addComments old.text "Name\r\n\nand key" ∧
        next.text = old.text ++ "#\n" ++ "# Name\n#\n# and key\n" := by
  have hcontrols : ∀ explanation ∈ ["Tables", "Name\r\n\nand key"], HasNoControls explanation := by
    have hplain : ∀ explanation ∈ ["Tables", "Name\r\n\nand key"], ∀ c ∈ explanation.toList,
        isPlain c = true ∨ c = '\n' ∨ c = '\r' := by
      simp [isPlain]
    have hwhole : Whole "Name\r\n\nand key".toList :=
      (Whole.of_not_mem (by decide : '\r' ∉ "Name".toList)).append
        (.lineEnd (.of_not_mem (by decide)))
    rw [List.forall_mem_cons, List.forall_mem_singleton] at hplain ⊢
    exact ⟨⟨.of_not_mem (by decide), hplain.1⟩, hwhole, hplain.2⟩
  obtain ⟨old, next, hold, hnext, -⟩ := indented.addComments_each hcontrols
    (rfl : _ = ["Tables"] ++ "Name\r\n\nand key" :: [])
  have hbefore : ["Tables"].foldl addComments indented.text =
      "# blog\r\n\t\n  #\n# Tables\n" := by
    decide
  refine ⟨hcontrols, by decide, old, next, hold.trans hbefore, hnext, ?_⟩
  rw [hnext, hold, hbefore]
  decide

end Preface

end Toml

end BoundSql
