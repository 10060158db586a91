import BoundSql.Proofs.Statement.Names

/-!
# Placeholders and parameters

The question marks of a compiled statement are its placeholders. Spelling the parameters one after
the other in place of the question marks yields the text that the description has with its values
spelled where they stand. So there is a parameter for every question mark, and the `i`-th parameter
is the value that stands at the place of the `i`-th question mark.

## Main definitions

* `BoundSql.Text.fill?` — spells values in place of question marks, in one pass.
* `BoundSql.Statement.inline?` — a statement with its parameters spelled in place.
* `BoundSql.Text.IsPlain` — a text without question marks.
* `BoundSql.Text.Fills` — filling a text with some values yields another text.

## Main results

* `BoundSql.Text.count_of_fill?_eq_some` — filling needs one value for each question mark.
* `BoundSql.Text.FillsEach.intercalate` — texts that are filled one by one are filled as one, with a
  plain text between them.
-/

namespace BoundSql

/-! ## Filling in values -/

namespace Text

/-- Spells the values in place of the question marks, in one pass from left to right. There have to
be as many of the ones as of the others. -/
def fill? (spell : Value → String) : List Char → List Value → Option (List Char)
  | [], [] => some []
  | [], _ :: _ => none
  | c :: rest, values =>
    if c = '?' then
      match values with
      | [] => none
      | v :: values => (fill? spell rest values).map ((spell v).toList ++ ·)
    else (fill? spell rest values).map (c :: ·)

section Fill

variable {spell : Value → String}

/-- A question mark takes the next value. -/
lemma fill?_mark_cons (rest : List Char) (v : Value) (values : List Value) :
    fill? spell ('?' :: rest) (v :: values) =
      (fill? spell rest values).map ((spell v).toList ++ ·) := by
  simp [fill?]

/-- A question mark without a value cannot be filled. -/
lemma fill?_mark_nil (rest : List Char) : fill? spell ('?' :: rest) [] = none := by
  simp [fill?]

/-- Any other character stays. -/
lemma fill?_cons_of_ne {c : Char} (hc : c ≠ '?') (rest : List Char) (values : List Value) :
    fill? spell (c :: rest) values = (fill? spell rest values).map (c :: ·) := by
  cases values <;> simp [fill?, hc]

/-- Filling succeeds only if there is one value for each question mark. -/
lemma count_of_fill?_eq_some {chars : List Char} {values : List Value} {filled : List Char}
    (h : fill? spell chars values = some filled) : chars.count '?' = values.length := by
  induction chars generalizing values filled with
  | nil =>
    cases values with
    | nil => rfl
    | cons v values => simp [fill?] at h
  | cons c rest ih =>
    by_cases hc : c = '?'
    · subst hc
      cases values with
      | nil => simp [fill?_mark_nil] at h
      | cons v values =>
        rw [fill?_mark_cons] at h
        obtain ⟨filledRest, hrest, -⟩ := Option.map_eq_some_iff.1 h
        rw [List.count_cons_self, ih hrest, List.length_cons]
    · rw [fill?_cons_of_ne hc] at h
      obtain ⟨filledRest, hrest, -⟩ := Option.map_eq_some_iff.1 h
      rw [List.count_cons_of_ne hc, ih hrest]

/-- Texts are filled one after the other. -/
lemma fill?_append {a b x y : List Char} {vs ws : List Value}
    (ha : fill? spell a vs = some x) (hb : fill? spell b ws = some y) :
    fill? spell (a ++ b) (vs ++ ws) = some (x ++ y) := by
  induction a generalizing vs x with
  | nil =>
    cases vs with
    | nil =>
      obtain rfl : [] = x := Option.some.inj ha
      exact hb
    | cons v vs => simp [fill?] at ha
  | cons c rest ih =>
    by_cases hc : c = '?'
    · subst hc
      cases vs with
      | nil => simp [fill?_mark_nil] at ha
      | cons v vs =>
        rw [fill?_mark_cons] at ha
        obtain ⟨z, hz, rfl⟩ := Option.map_eq_some_iff.1 ha
        rw [List.cons_append, List.cons_append, fill?_mark_cons, ih hz, Option.map_some,
          List.append_assoc]
    · rw [fill?_cons_of_ne hc] at ha
      obtain ⟨z, hz, rfl⟩ := Option.map_eq_some_iff.1 ha
      rw [List.cons_append, fill?_cons_of_ne hc, ih hz, Option.map_some, List.cons_append]

end Fill

/-! ## Plain texts -/

/-- A text without question marks. -/
def IsPlain (text : String) : Prop := '?' ∉ text.toList

instance (text : String) : Decidable (IsPlain text) :=
  inferInstanceAs (Decidable ('?' ∉ text.toList))

/-- A text is plain if both of its parts are. -/
@[simp] lemma isPlain_append {a b : String} : IsPlain (a ++ b) ↔ IsPlain a ∧ IsPlain b := by
  simp [IsPlain, not_or]

/-- Texts with plain texts between them are plain if all of them are. -/
lemma IsPlain.intercalate {mark : String} (hmark : IsPlain mark) {texts : List String}
    (h : ∀ text ∈ texts, IsPlain text) : IsPlain (mark.intercalate texts) := by
  induction texts with
  | nil => simp [IsPlain]
  | cons text rest ih =>
    cases rest with
    | nil => simpa using h text List.mem_cons_self
    | cons next rest =>
      rw [String.intercalate_cons_cons, isPlain_append, isPlain_append]
      exact ⟨⟨h text List.mem_cons_self, hmark⟩, ih fun t ht => h t (List.mem_cons_of_mem _ ht)⟩

/-- Digits are plain. -/
lemma isPlain_repr (n : Nat) : IsPlain (toString n) := by
  intro h
  have hdigits : '?' ∈ Nat.toDigits 10 n := by rwa [← Nat.toList_repr]
  exact absurd (Nat.isDigit_of_mem_toDigits (by decide) (by decide) hdigits) (by decide)

/-- Doubling quotes adds no question mark. -/
lemma isPlain_doubled {text : String} (h : IsPlain text) : IsPlain (doubled '"' text) := by
  have hdouble : ∀ chars : List Char, '?' ∉ chars → '?' ∉ double '"' chars := by
    intro chars
    induction chars with
    | nil => simp [double]
    | cons c rest ih =>
      intro hc
      rw [List.mem_cons, not_or] at hc
      rw [double]
      split
      · simp [ih hc.2]
      · simp [hc.1, ih hc.2]
  simp [IsPlain, doubled, hdouble text.toList h]

/-! ## Filled texts -/

/-- Filling the text `a` with the values `vs` yields the text `x`. -/
def Fills (spell : Value → String) (a : String) (vs : List Value) (x : String) : Prop :=
  fill? spell a.toList vs = some x.toList

variable {spell : Value → String}

/-- Two texts are filled one after the other. -/
lemma Fills.append {a b x y : String} {vs ws : List Value} (ha : Fills spell a vs x)
    (hb : Fills spell b ws y) : Fills spell (a ++ b) (vs ++ ws) (x ++ y) := by
  unfold Fills
  rw [String.toList_append, String.toList_append]
  exact fill?_append ha hb

/-- A plain text binds nothing. -/
lemma IsPlain.fills {a : String} (h : IsPlain a) : Fills spell a [] a := by
  have hchars : ∀ chars : List Char, '?' ∉ chars → fill? spell chars [] = some chars := by
    intro chars
    induction chars with
    | nil => intro _; rfl
    | cons c rest ih =>
      intro hc
      rw [List.mem_cons, not_or] at hc
      rw [fill?_cons_of_ne (Ne.symm hc.1), ih hc.2, Option.map_some]
  exact hchars a.toList h

/-- A placeholder is filled by its value. -/
lemma fills_placeholder (v : Value) : Fills spell (Value.placeholder v) [v] (spell v) := by
  simp [Fills, Value.placeholder, fill?]

/-- A plain text behind changes nothing. -/
lemma Fills.append_plain {a b x : String} {vs : List Value} (ha : Fills spell a vs x)
    (hb : IsPlain b) : Fills spell (a ++ b) vs (x ++ b) := by
  have h := ha.append hb.fills
  rwa [List.append_nil] at h

/-- A plain text in front changes nothing. -/
lemma IsPlain.append_fills {a b y : String} {vs : List Value} (ha : IsPlain a)
    (hb : Fills spell b vs y) : Fills spell (a ++ b) vs (a ++ y) :=
  ha.fills.append hb

/-- Texts are filled one by one. -/
inductive FillsEach (spell : Value → String) :
    List String → List Value → List String → Prop where
  | nil : FillsEach spell [] [] []
  | cons {a x : String} {vs ws : List Value} {as xs : List String} (head : Fills spell a vs x)
      (tail : FillsEach spell as ws xs) : FillsEach spell (a :: as) (vs ++ ws) (x :: xs)

/-- One line is filled as a text is. -/
lemma FillsEach.single {a x : String} {vs : List Value} (h : Fills spell a vs x) :
    FillsEach spell [a] vs [x] := by
  have hcons := FillsEach.cons h .nil
  rwa [List.append_nil] at hcons

/-- A plain text in front binds nothing. -/
lemma FillsEach.plain_cons {a : String} {as xs : List String} {ws : List Value} (h : IsPlain a)
    (tail : FillsEach spell as ws xs) : FillsEach spell (a :: as) ws (a :: xs) :=
  .cons h.fills tail

/-- Two lists of lines are filled one after the other. -/
lemma FillsEach.append {as bs xs ys : List String} {vs ws : List Value}
    (ha : FillsEach spell as vs xs) (hb : FillsEach spell bs ws ys) :
    FillsEach spell (as ++ bs) (vs ++ ws) (xs ++ ys) := by
  induction ha with
  | nil => exact hb
  | cons head _ ih =>
    rw [List.append_assoc]
    exact .cons head ih

/-- A list of texts is filled if each of its members is. -/
lemma FillsEach.map {α : Type} {l : List α} {f g : α → String} {vs : α → List Value}
    (h : ∀ a ∈ l, Fills spell (f a) (vs a) (g a)) :
    FillsEach spell (l.map f) (l.flatMap vs) (l.map g) := by
  induction l with
  | nil => exact .nil
  | cons a l ih =>
    exact .cons (h a List.mem_cons_self) (ih fun b hb => h b (List.mem_cons_of_mem a hb))

/-- **Filled texts** with a plain text between them are filled as one. -/
theorem FillsEach.intercalate {mark : String} (hmark : IsPlain mark) {as xs : List String}
    {vs : List Value} (h : FillsEach spell as vs xs) :
    Fills spell (mark.intercalate as) vs (mark.intercalate xs) := by
  induction h with
  | nil => rfl
  | cons head tail ih =>
    cases tail with
    | nil => simpa using head
    | cons next rest =>
      rw [String.intercalate_cons_cons, String.intercalate_cons_cons]
      exact (head.append_plain hmark).append ih

end Text

/-- A statement with its parameters spelled in place of its question marks, one after the other. -/
def Statement.inline? (spell : Value → String) (statement : Statement) : Option String :=
  (Text.fill? spell statement.sql.toList statement.params.toList).map String.ofList

end BoundSql
