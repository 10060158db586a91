import BoundSql.Proofs.Toml.Values

/-!
# Pairs and headers are read again

A pair or a header goes to the end of its line. It is read again from what is printed for it,
whatever blanks and comments stand in front and whatever follows the line.

## Main definitions

* `BoundSql.Toml.Legible` — something that is read again from what it prints.
* `BoundSql.Toml.Pair.Legible`, `BoundSql.Toml.Header.Legible` — legible pairs and headers.

## Main results

* `BoundSql.Toml.readPair?_legible` — a pair that was read is legible.
* `BoundSql.Toml.readHeader?_legible` — a header that was read is legible.
-/

namespace BoundSql.Toml

/-! ## The ends of lines -/

/-- The characters that are left without carriage returns. -/
lemma toList_dropReturns (text : String) : (dropReturns text).toList = clean text.toList :=
  String.toList_ofList

/-- A text without its carriage returns. -/
lemma ofList_clean_toList (text : String) : String.ofList (clean text.toList) = dropReturns text :=
  rfl

/-- Nothing is skipped at the end of a line. -/
lemma AtEnd.dropWhile {p : Char → Bool} (hn : p '\n' = false) (hr : p '\r' = false)
    {rest : List Char} (h : AtEnd rest) : rest.dropWhile p = rest := by
  cases rest with
  | nil => rfl
  | cons c tail =>
    refine List.dropWhile_cons_of_neg ?_
    by_cases hreturn : c = '\r'
    · rw [hreturn, hr]
      exact Bool.false_ne_true
    · rw [(atEnd_cons_iff hreturn).1 h, hn]
      exact Bool.false_ne_true

/-- Where a line ends, the reader of the ends of lines stops. -/
lemma readLineEnd?_atEnd {rest : List Char} (h : AtEnd rest) : readLineEnd? rest = some rest := by
  unfold readLineEnd?
  rw [skipSpace, h.dropWhile rfl rfl]
  split
  · rcases h with h | h
    · cases h
    · cases h
  · rfl
  · next hne => rw [if_pos (h.resolve_left hne)]

/-- A comment goes to the end of its line. -/
lemma readLineEnd?_comment_iff {comment rest : List Char} :
    readLineEnd? ('#' :: comment) = some rest ↔
      comment.dropWhile isPlain = rest ∧ AtEnd rest := by
  have hsplit := List.takeWhile_append_dropWhile (p := isPlain) (l := comment)
  have hlength := congrArg List.length hsplit
  rw [List.length_append] at hlength
  unfold readLineEnd?
  change (if (comment.takeWhile isPlain).length = comment.length then some []
    else if startsBreak (comment.dropWhile isPlain) then some (comment.dropWhile isPlain)
      else none) = some rest ↔ _
  by_cases hall : (comment.takeWhile isPlain).length = comment.length
  · have hnil : comment.dropWhile isPlain = [] := List.length_eq_zero_iff.1 (by omega)
    rw [if_pos hall, hnil]
    constructor
    · intro h
      obtain rfl := Option.some.inj h
      exact ⟨rfl, .inl rfl⟩
    · rintro ⟨rfl, -⟩
      rfl
  · have hne : comment.dropWhile isPlain ≠ [] := by
      intro hnil
      rw [hnil] at hlength
      exact hall (by simpa using hlength)
    rw [if_neg hall]
    constructor
    · intro h
      split at h
      · next hbreak =>
        obtain rfl := Option.some.inj h
        exact ⟨rfl, .inr hbreak⟩
      · cases h
    · rintro ⟨rfl, hend⟩
      rw [if_pos (hend.resolve_left hne)]

/-- **The end of a line** is read again. -/
theorem readLineEnd?_reads {chars rest : List Char} (h : readLineEnd? chars = some rest) :
    AtEnd rest ∧ ∃ part, chars = part ++ rest ∧ '\r' ∉ part ∧
      ∀ rest', AtEnd rest' → readLineEnd? (part ++ rest') = some rest' := by
  obtain ⟨blanks, hblanks, hblanksReturn, hskip, -⟩ := exists_blanks chars
  have hread : ∀ tail, readLineEnd? (blanks ++ tail) = readLineEnd? tail := by
    intro tail
    unfold readLineEnd?
    rw [hskip]
  have hfix : skipSpace (skipSpace chars) = skipSpace chars :=
    (hskip _).symm.trans (congrArg skipSpace hblanks.symm)
  rw [hblanks, hread] at h
  generalize skipSpace chars = behind at *
  by_cases hcomment : ∃ comment, behind = '#' :: comment
  · obtain ⟨comment, rfl⟩ := hcomment
    obtain ⟨rfl, hend⟩ := readLineEnd?_comment_iff.1 h
    have hreturn := not_mem_takeWhile (p := isPlain) rfl comment
    refine ⟨hend, blanks ++ '#' :: comment.takeWhile isPlain, ?_, ?_, ?_⟩
    · rw [hblanks, List.append_assoc, List.cons_append, List.takeWhile_append_dropWhile]
    · simp [hblanksReturn, hreturn]
    · intro rest' hrest
      rw [List.append_assoc, hread, List.cons_append, readLineEnd?_comment_iff]
      exact ⟨(span_again rfl rfl (.ended hend hrest)).2, hrest⟩
  · obtain ⟨rfl, hend⟩ : behind = rest ∧ AtEnd behind := by
      unfold readLineEnd? at h
      rw [hfix] at h
      split at h
      · exact absurd ⟨_, rfl⟩ hcomment
      · exact ⟨Option.some.inj h, .inl rfl⟩
      · split at h
        · next hbreak => exact ⟨Option.some.inj h, .inr hbreak⟩
        · cases h
    · refine ⟨hend, blanks, hblanks, hblanksReturn, ?_⟩
      intro rest' hrest
      rw [hread, readLineEnd?_atEnd hrest]

/-! ## Legible parts -/

/-- A part of a document with some text in front that is read again from what is printed, whatever
stands in front and whatever follows its line. -/
structure Legible {α : Type} (read : String → List Char → Option (α × List Char))
    (isStart : Char → Bool) (make : String → String → α) (before written : String) : Prop where
  /-- Blanks and comments stand in front. -/
  before : Trivia false before.toList false
  /-- The part starts like others of its kind. -/
  start : ∃ c tail, written.toList = c :: tail ∧ isStart c = true
  /-- The carriage returns of the part are those of line ends. -/
  whole : Whole written.toList
  /-- The part is read again. -/
  again : ∀ before rest, AtEnd rest →
    read before (clean written.toList ++ rest) = some (make before (dropReturns written), rest)

/-- Any blanks and comments may stand in front of a legible part. -/
lemma Legible.replace_before {α : Type} {read : String → List Char → Option (α × List Char)}
    {isStart : Char → Bool} {make : String → String → α} {before other written : String}
    (h : Legible read isStart make before written) (hother : Trivia false other.toList false) :
    Legible read isStart make other written where
  before := hother
  start := h.start
  whole := h.whole
  again := h.again

/-- Whether a character begins a header. -/
def isHeaderStart (c : Char) : Bool := c = '['

/-- A line that opens a header is solid. -/
lemma isSolid_of_isHeaderStart {c : Char} (hc : isHeaderStart c = true) : isSolid c = true := by
  rw [of_decide_eq_true hc]
  rfl

/-- A pair that is read again. -/
def Pair.Legible (pair : Pair) : Prop :=
  Toml.Legible readPair? isKeyStart (fun before written => { pair with before, written })
    pair.before pair.written

/-- A header that is read again. -/
def Header.Legible (header : Header) : Prop :=
  Toml.Legible readHeader? isHeaderStart (fun before written => { header with before, written })
    header.before header.written

/-- What is read up to a rest. -/
lemma consumed_append (part rest : List Char) :
    consumed (part ++ rest) rest = String.ofList part := by
  rw [consumed, List.length_append, Nat.add_sub_cancel, List.take_left]

/-! ## Pairs -/

/-- A pair is a key with its value and the end of the line. -/
lemma readPair?_eq_some_iff {before : String} {chars rest : List Char} {pair : Pair} :
    readPair? before chars = some (pair, rest) ↔
      ∃ behind, readBinding? (fun n => 2 * n + 2) maxDepth chars =
          some ((pair.path, pair.key, pair.value), behind) ∧
        readLineEnd? behind = some rest ∧ pair.before = before ∧
        pair.written = consumed chars rest := by
  unfold readPair?
  constructor
  · intro h
    obtain ⟨⟨path, key, rest₁⟩, hkeys, h⟩ := Option.bind_eq_some_iff.1 h
    obtain ⟨inner, hinner, h⟩ := Option.bind_eq_some_iff.1 h
    obtain ⟨⟨value, behind⟩, hvalue, h⟩ := Option.bind_eq_some_iff.1 h
    obtain ⟨rest₂, hend, h⟩ := Option.bind_eq_some_iff.1 h
    obtain ⟨rfl, rfl⟩ := Prod.mk.inj (Option.some.inj h)
    refine ⟨behind, ?_, hend, rfl, rfl⟩
    simp [readBinding?, hkeys, hinner, hvalue]
  · rintro ⟨behind, hbinding, hend, rfl, hwritten⟩
    obtain ⟨inner, hkeys, hvalue⟩ := readBinding?_eq_some_iff.1 hbinding
    simp only [hkeys, behind?, hvalue, hend, if_true, Option.bind_eq_bind, Option.bind_some,
      Option.pure_def, ← hwritten]

/-- A pair starts with a blank or with the start of a key. -/
lemma readPair?_start {before : String} {c : Char} {chars : List Char} {result : Pair × List Char}
    (h : readPair? before (c :: chars) = some result) : isSpace c = true ∨ isKeyStart c = true := by
  obtain ⟨behind, hbinding, -⟩ := readPair?_eq_some_iff.1 h
  obtain ⟨d, tail, hcons, hd⟩ := exists_head_of_readBinding? hbinding
  exact (List.cons.inj hcons).1 ▸ hd

/-- **A pair that was read** is legible. -/
theorem readPair?_legible {before : String} {chars rest : List Char} {pair : Pair} {c : Char}
    (hbefore : Trivia false before.toList false) (hc : isSolid c = true)
    (h : readPair? before (c :: chars) = some (pair, rest)) :
    c :: chars = pair.written.toList ++ rest ∧ AtEnd rest ∧ pair.before = before ∧
      pair.Legible := by
  obtain ⟨behind, hbinding, hend, rfl, hwritten⟩ := readPair?_eq_some_iff.1 h
  obtain ⟨part, hpart, hne, hwhole, hagain⟩ := readBinding?_reads hbinding
  obtain ⟨hrest, gap, rfl, hgapReturn, hgapAgain⟩ := readLineEnd?_reads hend
  have hall : c :: chars = (part ++ gap) ++ rest := by rw [hpart, List.append_assoc]
  have hlist : pair.written.toList = part ++ gap := by
    rw [hwritten, hall, consumed_append, String.toList_ofList]
  have hclean : clean (part ++ gap) = clean part ++ gap := by
    rw [clean_append, clean_eq_self hgapReturn]
  refine ⟨by rw [hlist, hall], hrest, rfl, hbefore, ?_, ?_, ?_⟩
  · obtain ⟨tail, rfl, -⟩ := exists_cons_of_clean hne hpart
    refine ⟨c, tail ++ gap, hlist, (readPair?_start h).resolve_left ?_⟩
    rw [(isSolid_iff.1 hc).1]
    exact Bool.false_ne_true
  · rw [hlist]
    exact hwhole.append (.of_not_mem hgapReturn)
  · intro before rest' hrest'
    refine readPair?_eq_some_iff.2 ⟨gap ++ rest', ?_, hgapAgain rest' hrest', rfl, ?_⟩
    · rw [hlist, hclean, List.append_assoc]
      refine hagain _ _ (fun n => by omega) ?_
      have hsame := SameLine.append (Whole.of_not_mem hgapReturn) (.ended hrest hrest')
      rwa [clean_eq_self hgapReturn] at hsame
    · change dropReturns pair.written = _
      rw [consumed_append, ofList_clean_toList]

/-! ## Headers -/

/-- The brackets around the keys of a header. -/
def brackets (bracket : Char) (ofArray : Bool) : List Char :=
  if ofArray then [bracket, bracket] else [bracket]

/-- Brackets hold no carriage return. -/
lemma not_mem_brackets {bracket : Char} (h : bracket ≠ '\r') (ofArray : Bool) :
    '\r' ∉ brackets bracket ofArray := by
  cases ofArray <;> simp [brackets, h.symm]

/-- What is behind the opening brackets, if a key starts there. -/
lemma openHeader?_eq_some_iff {chars inner : List Char} {ofArray : Bool}
    (hinner : inner.head? ≠ some '[') :
    openHeader? chars = some (ofArray, inner) ↔ chars = brackets '[' ofArray ++ inner := by
  constructor
  · intro h
    unfold openHeader? at h
    split at h
    · obtain ⟨rfl, rfl⟩ := Prod.mk.inj (Option.some.inj h)
      rfl
    · obtain ⟨rfl, rfl⟩ := Prod.mk.inj (Option.some.inj h)
      rfl
    · cases h
  · rintro rfl
    cases ofArray with
    | true => rfl
    | false =>
      change openHeader? ('[' :: inner) = _
      rw [openHeader?]
      rintro tail rfl
      exact hinner rfl

/-- A header is closed by as many brackets as opened it. -/
lemma closeHeader?_eq_some_iff {chars behind : List Char} {ofArray : Bool} :
    closeHeader? ofArray chars = some behind ↔ chars = brackets ']' ofArray ++ behind := by
  constructor
  · intro h
    unfold closeHeader? at h
    split at h
    · rw [Option.some.inj h]
      rfl
    · rw [Option.some.inj h]
      rfl
    · cases h
  · rintro rfl
    cases ofArray <;> rfl

/-- A header is keys between brackets and the end of the line. -/
lemma readHeader?_eq_some_iff {before : String} {chars rest : List Char} {header : Header} :
    readHeader? before chars = some (header, rest) ↔
      ∃ inner behind, chars = brackets '[' header.ofArray ++ inner ∧
        readKeys? inner.length inner =
          some (header.path, header.key, brackets ']' header.ofArray ++ behind) ∧
        readLineEnd? behind = some rest ∧ header.before = before ∧
        header.written = consumed chars rest := by
  have hhead : ∀ {inner : List Char} {keys}, readKeys? inner.length inner = some keys →
      inner.head? ≠ some '[' := by
    intro inner keys hkeys hhead
    obtain ⟨c, tail, rfl, hc⟩ := exists_isKeyStart hkeys
    obtain rfl := Option.some.inj hhead
    rcases hc with hc | hc <;> cases hc
  unfold readHeader?
  constructor
  · intro h
    obtain ⟨⟨ofArray, inner⟩, hopen, h⟩ := Option.bind_eq_some_iff.1 h
    obtain ⟨⟨path, key, rest₁⟩, hkeys, h⟩ := Option.bind_eq_some_iff.1 h
    obtain ⟨behind, hclose, h⟩ := Option.bind_eq_some_iff.1 h
    obtain ⟨rest₂, hend, h⟩ := Option.bind_eq_some_iff.1 h
    obtain ⟨rfl, rfl⟩ := Prod.mk.inj (Option.some.inj h)
    obtain rfl := closeHeader?_eq_some_iff.1 hclose
    exact ⟨inner, behind, (openHeader?_eq_some_iff (hhead hkeys)).1 hopen, hkeys, hend, rfl, rfl⟩
  · rintro ⟨inner, behind, hopen, hkeys, hend, rfl, hwritten⟩
    rw [← openHeader?_eq_some_iff (hhead hkeys)] at hopen
    simp only [hopen, hkeys, closeHeader?_eq_some_iff.2 rfl, hend, Option.bind_eq_bind,
      Option.bind_some, Option.pure_def, ← hwritten]

/-- **A header that was read** is legible. -/
theorem readHeader?_legible {before : String} {chars rest : List Char} {header : Header}
    (hbefore : Trivia false before.toList false)
    (h : readHeader? before chars = some (header, rest)) :
    chars = header.written.toList ++ rest ∧ AtEnd rest ∧ header.before = before ∧
      header.Legible := by
  obtain ⟨inner, behind, rfl, hkeys, hend, rfl, hwritten⟩ := readHeader?_eq_some_iff.1 h
  obtain ⟨part, rfl, hne, hwhole, hagain⟩ := readKeys?_reads hkeys
  obtain ⟨hrest, gap, rfl, hgapReturn, hgapAgain⟩ := readLineEnd?_reads hend
  have hopen : '\r' ∉ brackets '[' header.ofArray := not_mem_brackets (by decide) _
  have hclose : '\r' ∉ brackets ']' header.ofArray := not_mem_brackets (by decide) _
  have hbehind : '\r' ∉ brackets ']' header.ofArray ++ gap := by
    simp [hclose, hgapReturn]
  have hlist : header.written.toList =
      brackets '[' header.ofArray ++ (part ++ (brackets ']' header.ofArray ++ gap)) := by
    have hall : brackets '[' header.ofArray ++
        (part ++ (brackets ']' header.ofArray ++ (gap ++ rest))) =
        brackets '[' header.ofArray ++ (part ++ (brackets ']' header.ofArray ++ gap)) ++ rest := by
      simp only [List.append_assoc]
    rw [hwritten, hall, consumed_append, String.toList_ofList]
  have hclean : clean header.written.toList =
      brackets '[' header.ofArray ++ (clean part ++ (brackets ']' header.ofArray ++ gap)) := by
    rw [hlist, clean_append, clean_append, clean_eq_self hopen, clean_eq_self hbehind]
  refine ⟨by rw [hlist]; simp, hrest, rfl, hbefore, ?_, ?_, ?_⟩
  · refine ⟨'[', header.written.toList.tail, ?_, rfl⟩
    rw [hlist]
    cases header.ofArray <;> rfl
  · rw [hlist]
    exact (Whole.of_not_mem hopen).append (hwhole.append (.of_not_mem hbehind))
  · intro before rest' hrest'
    refine readHeader?_eq_some_iff.2
      ⟨clean part ++ (brackets ']' header.ofArray ++ (gap ++ rest')), gap ++ rest', ?_, ?_,
        hgapAgain rest' hrest', rfl, ?_⟩
    · rw [hclean]
      simp only [List.append_assoc]
    · refine hagain _ _ ?_ (by simp)
      have hsame := SameLine.append (Whole.of_not_mem hbehind) (.ended hrest hrest')
      rw [clean_eq_self hbehind] at hsame
      simpa only [List.append_assoc] using hsame
    · change dropReturns header.written = _
      rw [consumed_append, ofList_clean_toList]

end BoundSql.Toml
