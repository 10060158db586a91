import BoundSql.Proofs.Toml.Trivia

/-!
# Values are read again

Scalars, arrays and tables in braces are read again from a printed text. Arrays and tables in braces
are both runs of elements between brackets, with blanks and comments around the elements. The reader
of nested values has fuel; twice the length of the printed value is enough of it.

## Main definitions

* `BoundSql.Toml.ReadsFueled` — a reader with fuel reads a part of a text, and reads it again when
  it is printed.
* `BoundSql.Toml.readRun?` — elements with commas between them up to a closing character.
* `BoundSql.Toml.readBinding?` — a key with its value.

## Main results

* `BoundSql.Toml.readItems?_eq`, `BoundSql.Toml.readMembers?_eq` — arrays and tables in braces are
  such elements.
* `BoundSql.Toml.readRun?_reads` — elements between brackets are read again if each of them is.
* `BoundSql.Toml.readScalar?_reads`, `BoundSql.Toml.readValue?_reads`,
  `BoundSql.Toml.readBinding?_reads` — values, and keys with them, are read again.
-/

namespace BoundSql.Toml

/-! ## Scalars -/

/-- A scalar without quotes that ends with a run of its characters is found again. -/
lemma readToken_word {chars rest' : List Char}
    (hno : ∀ c tail, chars.dropWhile isTokenChar = ' ' :: c :: tail →
      ¬ (isDigit c && readDate? (chars.takeWhile isTokenChar) = some []) = true)
    (hrest : SameLine (chars.dropWhile isTokenChar) rest') :
    readToken (chars.takeWhile isTokenChar ++ rest') = (chars.takeWhile isTokenChar, rest') := by
  obtain ⟨htake, hdrop⟩ := span_again (p := isTokenChar) rfl rfl hrest
  rw [readToken, htake, hdrop]
  split
  · next c tail =>
    have hc : ¬ (isDigit c && readDate? (chars.takeWhile isTokenChar) = some []) = true := by
      intro hdate
      have hdigit : isDigit c = true := (Bool.and_eq_true_iff.1 hdate).1
      have hn : c ≠ '\n' := by
        rintro rfl
        cases hdigit
      have hr : c ≠ '\r' := by
        rintro rfl
        cases hdigit
      obtain ⟨behind, hbehind, hsame⟩ := hrest.symm.of_cons (by decide) (by decide)
      obtain ⟨more, rfl, -⟩ := hsame.of_cons hn hr
      exact hno c more hbehind hdate
    rw [if_neg hc]
  · rfl

/-- A scalar without quotes is found again. -/
lemma readToken_reads {chars token rest : List Char} (h : readToken chars = (token, rest)) :
    chars = token ++ rest ∧ '\r' ∉ token ∧ (∀ c part, token = c :: part → isTokenChar c = true) ∧
      ∀ rest', SameLine rest rest' → readToken (token ++ rest') = (token, rest') := by
  have hword := not_mem_takeWhile (p := isTokenChar) rfl chars
  have hfirst : ∀ c part, chars.takeWhile isTokenChar = c :: part → isTokenChar c = true :=
    fun c part heq => List.mem_takeWhile_imp (heq ▸ List.mem_cons_self)
  have hsplit := List.takeWhile_append_dropWhile (p := isTokenChar) (l := chars)
  unfold readToken at h
  split at h
  · next c tail hbehind =>
    dsimp only at h
    split at h
    · next hdate =>
      obtain ⟨rfl, rfl⟩ := Prod.mk.inj h
      have hdigit : isDigit c = true := (Bool.and_eq_true_iff.1 hdate).1
      have hc : isTokenChar c = true := by
        simp only [isDigit, Bool.and_eq_true, decide_eq_true_eq, Char.le_def] at hdigit
        simp only [isTokenChar, Char.isAlphanum, Char.isDigit, Bool.or_eq_true, Bool.and_eq_true,
          decide_eq_true_eq]
        exact .inl (.inl (.inl (.inl (.inl (.inr hdigit)))))
      have hmore := not_mem_takeWhile (p := isTokenChar) rfl (c :: tail)
      have hsplit' := List.takeWhile_append_dropWhile (p := isTokenChar) (l := c :: tail)
      refine ⟨?_, ?_, ?_, ?_⟩
      · rw [List.append_assoc, List.cons_append, hsplit', ← hbehind, hsplit]
      · simp [hword, hmore]
      · intro d part heq
        cases hdate' : chars.takeWhile isTokenChar with
        | nil =>
          rw [hdate', Bool.and_eq_true_iff] at hdate
          cases of_decide_eq_true hdate.2
        | cons e word =>
          rw [hdate', List.cons_append] at heq
          exact (List.cons.inj heq).1 ▸ hfirst e word hdate'
      · intro rest' hrest
        obtain ⟨htake, hdrop⟩ := span_again (p := isTokenChar) rfl rfl hrest
        have hline : SameLine (chars.dropWhile isTokenChar)
            (' ' :: ((c :: tail).takeWhile isTokenChar ++ rest')) := by
          have hsame := hrest.append (Whole.of_not_mem hmore)
          rw [clean_eq_self hmore, hsplit'] at hsame
          rw [hbehind]
          exact .cons (by decide) (by decide) hsame
        obtain ⟨htake', hdrop'⟩ := span_again (p := isTokenChar) rfl rfl hline
        rw [List.append_assoc, List.cons_append, readToken, htake', hdrop']
        rw [List.takeWhile_cons_of_pos hc, List.cons_append] at htake hdrop ⊢
        simp only [hdate, if_true, htake, hdrop]
    · next hdate =>
      obtain ⟨rfl, rfl⟩ := Prod.mk.inj h
      rw [← hbehind]
      refine ⟨hsplit.symm, hword, hfirst, fun rest' hrest => readToken_word ?_ hrest⟩
      intro d more heq
      rw [hbehind] at heq
      obtain ⟨rfl, rfl⟩ := List.cons.inj (List.cons.inj heq).2
      exact hdate
  · next hbehind =>
    obtain ⟨rfl, rfl⟩ := Prod.mk.inj h
    exact ⟨hsplit.symm, hword, hfirst, fun rest' hrest =>
      readToken_word (fun c tail heq => absurd heq (hbehind c tail)) hrest⟩

/-- **A scalar** is read again. -/
theorem readScalar?_reads {chars rest : List Char} {value : Node}
    (h : readScalar? chars = some (value, rest)) :
    ∃ c part, chars = c :: part ++ rest ∧ c ≠ '[' ∧ c ≠ '\x7b' ∧ c ≠ '\r' ∧
      Reads readScalar? (c :: part) value rest := by
  have hquoted : ∀ (quote : Char) (tail : List Char), chars = quote :: tail →
      quote = '"' ∨ quote = '\'' →
        ∃ part, chars = quote :: part ++ rest ∧ Reads readScalar? (quote :: part) value rest := by
    rintro quote tail rfl hquote
    have hread : ∀ tail, readScalar? (quote :: tail) =
        (readText? (quote :: tail)).map fun read => (.text (String.ofList read.1), read.2) := by
      rcases hquote with rfl | rfl <;> exact fun _ => rfl
    have hreturn : quote ≠ '\r' := by
      rcases hquote with rfl | rfl <;> decide
    rw [hread] at h
    obtain ⟨⟨text, behind⟩, htext, heq⟩ := Option.map_eq_some_iff.1 h
    obtain ⟨rfl, rfl⟩ := Prod.mk.inj heq
    obtain ⟨whole, hwhole, hhead, hreads⟩ := readText?_reads htext
    obtain ⟨part, rfl⟩ : ∃ part, whole = quote :: part := by
      cases whole with
      | nil => rcases hhead with hhead | hhead <;> cases hhead
      | cons d part => exact ⟨part, by rw [(List.cons.inj hwhole).1]⟩
    refine ⟨part, hwhole, hreads.whole, ?_⟩
    intro rest' hrest
    have hagain := hreads.again rest' hrest
    rw [clean_cons hreturn, List.cons_append] at hagain ⊢
    rw [hread, hagain]
    rfl
  by_cases hbasic : ∃ tail, chars = '"' :: tail
  · obtain ⟨tail, htail⟩ := hbasic
    obtain ⟨part, hpart, hreads⟩ := hquoted '"' tail htail (.inl rfl)
    exact ⟨'"', part, hpart, by decide, by decide, by decide, hreads⟩
  by_cases hliteral : ∃ tail, chars = '\'' :: tail
  · obtain ⟨tail, htail⟩ := hliteral
    obtain ⟨part, hpart, hreads⟩ := hquoted '\'' tail htail (.inr rfl)
    exact ⟨'\'', part, hpart, by decide, by decide, by decide, hreads⟩
  have hword : ∀ chars, (∀ tail, chars ≠ '"' :: tail) → (∀ tail, chars ≠ '\'' :: tail) →
      readScalar? chars = (Node.ofToken? (readToken chars).1).map (·, (readToken chars).2) := by
    intro chars hbasic hliteral
    unfold readScalar?
    split
    · exact absurd rfl (hbasic _)
    · exact absurd rfl (hliteral _)
    · rfl
  rw [not_exists] at hbasic hliteral
  rw [hword chars hbasic hliteral] at h
  obtain ⟨node, hnode, heq⟩ := Option.map_eq_some_iff.1 h
  obtain ⟨rfl, rfl⟩ := Prod.mk.inj heq
  have hsplit : readToken chars = ((readToken chars).1, (readToken chars).2) := rfl
  obtain ⟨hchars, hreturn, hfirst, hagain⟩ := readToken_reads hsplit
  generalize (readToken chars).2 = rest at *
  cases htoken : (readToken chars).1 with
  | nil =>
    rw [htoken] at hnode
    cases hnode
  | cons c part =>
    have hc := hfirst c part htoken
    rw [htoken] at hchars hreturn hagain hnode
    have hother : c ≠ '"' ∧ c ≠ '\'' ∧ c ≠ '[' ∧ c ≠ '\x7b' ∧ c ≠ '\r' := by
      refine ⟨?_, ?_, ?_, ?_, ?_⟩ <;> rintro rfl <;> cases hc
    obtain ⟨hdouble, hsingle, hbracket, hbrace, hr⟩ := hother
    refine ⟨c, part, hchars, hbracket, hbrace, hr, .of_not_mem hreturn, ?_⟩
    intro rest' hrest
    rw [clean_eq_self hreturn, hword, hagain rest' hrest, hnode]
    · rfl
    · exact fun tail heq => hdouble (List.cons.inj heq).1
    · exact fun tail heq => hsingle (List.cons.inj heq).1

/-! ## Reading with fuel -/

/-- A reader with fuel reads a part of a text, and reads it again when it is printed. Fuel of twice
the length of what is printed is enough. -/
structure ReadsFueled {α : Type} (read : Nat → List Char → Option (α × List Char))
    (part : List Char) (a : α) (rest : List Char) : Prop where
  /-- Something is printed. -/
  nonempty : clean part ≠ []
  /-- The carriage returns of the part are those of line ends. -/
  whole : Whole part
  /-- The printed part is read again. -/
  again : ∀ fuel rest', 2 * (clean part).length ≤ fuel → SameLine rest rest' →
    read fuel (clean part ++ rest') = some (a, rest')

/-- Fuel for something is fuel for one step. -/
lemma exists_fuel {part : List Char} {fuel : Nat} (hne : clean part ≠ [])
    (h : 2 * (clean part).length ≤ fuel) : ∃ n, fuel = n + 1 := by
  have hpositive := List.length_pos_iff.2 hne
  exact Nat.exists_eq_succ_of_ne_zero (by omega)

/-- A part of a text that is printed starts with the first character. -/
lemma exists_cons_of_clean {c : Char} {tail part rest : List Char} (hne : clean part ≠ [])
    (h : c :: tail = part ++ rest) : ∃ part', part = c :: part' ∧ tail = part' ++ rest := by
  cases part with
  | nil => exact absurd rfl hne
  | cons d part =>
    obtain ⟨rfl, htail⟩ := List.cons.inj h
    exact ⟨part, rfl, htail⟩

/-! ## Elements between brackets -/

/-- What follows the separator behind an element. -/
def readMore? {α : Type} (close : Char) (read : List Char → Option (List α × List Char)) (a : α)
    (sep : Char) (chars : List Char) : Option (List α × List Char) :=
  if sep = ',' then (read chars).map fun (as, rest) => (a :: as, rest)
  else if sep = close then some ([a], chars)
  else none

/-- Elements with commas between them up to a closing character. -/
def readRun? {α : Type} (close : Char) (read : Nat → List Char → Option (α × List Char)) :
    Nat → List Char → Option (List α × List Char)
  | 0, _ => none
  | fuel + 1, chars =>
    match skipTrivia? chars with
    | none => none
    | some front =>
      if front.head? = some close then some ([], front.tail)
      else
        match read fuel front with
        | none => none
        | some (a, behind) =>
          match skipTrivia? behind with
          | some (sep :: rest) => readMore? close (readRun? close read fuel) a sep rest
          | _ => none

section Run

variable {α : Type} {close : Char} {read : Nat → List Char → Option (α × List Char)}
  {fuel : Nat} {a : α} {as : List α} {chars rest : List Char}

/-- A run of no elements. -/
lemma readRun?_nil {trivia : List Char} (htrivia : Trivia false trivia false)
    (hclose : isSolid close = true) :
    readRun? close read (fuel + 1) (trivia ++ close :: rest) = some ([], rest) := by
  simp only [readRun?, skipTrivia?_again htrivia hclose, List.head?_cons, if_true, List.tail_cons]

variable (close read) in
/-- A run that starts with an element. -/
lemma readRun?_cons {trivia tail gap : List Char} {c sep : Char}
    (htrivia : Trivia false trivia false) (hc : isSolid c = true) (hopen : c ≠ close)
    (hread : read fuel (c :: tail) = some (a, gap ++ sep :: rest)) (hgap : Trivia false gap false)
    (hsep : isSolid sep = true) :
    readRun? close read (fuel + 1) (trivia ++ c :: tail) =
      readMore? close (readRun? close read fuel) a sep rest := by
  have hhead : ¬ (c :: tail).head? = some close := fun h => hopen (Option.some.inj h)
  simp only [readRun?, skipTrivia?_again htrivia hc, if_neg hhead, hread,
    skipTrivia?_again hgap hsep]

/-- An element is followed by a comma or by the closing character. -/
lemma eq_of_readMore? {more : List Char → Option (List α × List Char)} {sep : Char}
    (h : readMore? close more a sep chars = some (as, rest)) : sep = ',' ∨ sep = close := by
  unfold readMore? at h
  split at h
  · next hcomma => exact .inl hcomma
  · split at h
    · next hstop => exact .inr hstop
    · cases h

/-- A run has no elements, or it starts with one. -/
lemma readRun?_cases (hclose : isSolid close = true)
    (hhead : ∀ {fuel chars result}, read fuel chars = some result →
      ∃ c tail, chars = c :: tail ∧ c ≠ '\r')
    (h : readRun? close read (fuel + 1) chars = some (as, rest)) :
    (∃ trivia, chars = trivia ++ close :: rest ∧ Trivia false trivia false ∧ as = []) ∨
      ∃ trivia c tail a gap sep next, chars = trivia ++ c :: tail ∧ Trivia false trivia false ∧
        isSolid c = true ∧ c ≠ close ∧ read fuel (c :: tail) = some (a, gap ++ sep :: next) ∧
        Trivia false gap false ∧ isSolid sep = true ∧
        readMore? close (readRun? close read fuel) a sep next = some (as, rest) := by
  rw [readRun?] at h
  split at h
  · cases h
  · next front hfront =>
    split at h
    · next hstop =>
      obtain ⟨rfl, rfl⟩ := Prod.mk.inj (Option.some.inj h)
      obtain ⟨behind, rfl⟩ := List.head?_eq_some_iff.1 hstop
      obtain ⟨trivia, rfl, htrivia, -⟩ := exists_trivia (isSolid_iff.1 hclose).2.2.1 hfront
      exact .inl ⟨trivia, rfl, htrivia, rfl⟩
    · next hopen =>
      split at h
      · cases h
      · next a behind ha =>
        obtain ⟨c, tail, rfl, hreturn⟩ := hhead ha
        obtain ⟨trivia, rfl, htrivia, hsolid⟩ := exists_trivia hreturn hfront
        split at h
        · next sep next hsep =>
          have hsepReturn : sep ≠ '\r' := by
            rcases eq_of_readMore? h with rfl | rfl
            · decide
            · exact (isSolid_iff.1 hclose).2.2.1
          obtain ⟨gap, rfl, hgap, hsepSolid⟩ := exists_trivia hsepReturn hsep
          exact .inr ⟨trivia, c, tail, a, gap, sep, next, rfl, htrivia, hsolid,
            fun heq => hopen (by rw [heq]; rfl), ha, hgap, hsepSolid, h⟩
        · cases h

/-- What follows the separator behind an element is read again if a run is. -/
lemma readMore?_reads {sep : Char}
    (hrun : ∀ {as}, readRun? close read fuel chars = some (as, rest) →
      ∃ part, chars = part ++ rest ∧ ReadsFueled (readRun? close read) part as rest)
    (h : readMore? close (readRun? close read fuel) a sep chars = some (as, rest)) :
    ∃ part, chars = part ++ rest ∧ Whole part ∧
      ∀ fuel rest', 2 * (clean part).length ≤ fuel → SameLine rest rest' →
        readMore? close (readRun? close read fuel) a sep (clean part ++ rest') =
          some (as, rest') := by
  unfold readMore? at h
  split at h
  · next hcomma =>
    obtain ⟨⟨others, _⟩, hothers, heq⟩ := Option.map_eq_some_iff.1 h
    obtain ⟨rfl, rfl⟩ := Prod.mk.inj heq
    obtain ⟨part, rfl, hpart⟩ := hrun hothers
    refine ⟨part, rfl, hpart.whole, ?_⟩
    intro fuel' rest' hfuel hrest
    rw [readMore?, if_pos hcomma, hpart.again fuel' rest' hfuel hrest]
    rfl
  · next hcomma =>
    split at h
    · next hstop =>
      obtain ⟨rfl, rfl⟩ := Prod.mk.inj (Option.some.inj h)
      refine ⟨[], rfl, .nil, ?_⟩
      intro fuel' rest' _ _
      rw [readMore?, if_neg hcomma, if_pos hstop]
      rfl
    · cases h

/-- **Elements between brackets** are read again if the elements are. -/
theorem readRun?_reads (hclose : isSolid close = true)
    (hhead : ∀ {fuel chars result}, read fuel chars = some result →
      ∃ c tail, chars = c :: tail ∧ c ≠ '\r')
    (hread : ∀ {n chars a rest}, n < fuel → read n chars = some (a, rest) →
      ∃ part, chars = part ++ rest ∧ ReadsFueled read part a rest)
    (h : readRun? close read fuel chars = some (as, rest)) :
    ∃ part, chars = part ++ rest ∧ ReadsFueled (readRun? close read) part as rest := by
  induction fuel generalizing chars as with
  | zero => cases h
  | succ fuel ih =>
    obtain ⟨trivia, rfl, htrivia, rfl⟩ | ⟨trivia, c, tail, a, gap, sep, next, rfl, htrivia, hsolid,
      hc, ha, hgap, hsep, hmore⟩ := readRun?_cases hclose hhead h
    · obtain ⟨-, -, hreturn, -⟩ := isSolid_iff.1 hclose
      have hclean : clean (trivia ++ [close]) = clean trivia ++ [close] := by
        rw [clean_append, clean_cons hreturn, clean_nil]
      refine ⟨trivia ++ [close], by simp, by simp [hclean],
        htrivia.whole.append (.cons hreturn .nil), ?_⟩
      intro fuel' rest' hfuel _
      obtain ⟨fuel', rfl⟩ := exists_fuel (by simp [hclean]) hfuel
      rw [hclean, List.append_assoc, List.singleton_append, readRun?_nil htrivia.clean hclose]
    · obtain ⟨-, -, hreturn, -⟩ := isSolid_iff.1 hsolid
      obtain ⟨-, hsepLine, hsepReturn, -⟩ := isSolid_iff.1 hsep
      obtain ⟨part, hpart, helement⟩ := hread (Nat.lt_succ_self _) ha
      obtain ⟨part, rfl, rfl⟩ := exists_cons_of_clean helement.nonempty hpart
      obtain ⟨more, rfl, hwhole, hagain⟩ :=
        readMore?_reads (ih fun hn => hread (Nat.lt_succ_of_lt hn)) hmore
      have hfirst : clean (c :: part) = c :: clean part := clean_cons hreturn _
      have hclean : clean (trivia ++ (c :: part ++ (gap ++ sep :: more))) =
          clean trivia ++ (c :: clean part ++ (clean gap ++ sep :: clean more)) := by
        rw [clean_append, clean_append, clean_append, clean_cons hsepReturn, hfirst]
      have hne : clean (trivia ++ (c :: part ++ (gap ++ sep :: more))) ≠ [] := by
        rw [hclean]
        simp
      refine ⟨trivia ++ (c :: part ++ (gap ++ sep :: more)), by simp, hne,
        htrivia.whole.append (helement.whole.append (hgap.whole.append (.cons hsepReturn hwhole))),
        ?_⟩
      intro fuel' rest' hfuel hrest
      obtain ⟨fuel', rfl⟩ := exists_fuel hne hfuel
      rw [hclean] at hfuel ⊢
      simp only [List.length_append, List.length_cons] at hfuel
      have hsame : SameLine (gap ++ sep :: (more ++ rest))
          (clean gap ++ sep :: (clean more ++ rest')) :=
        SameLine.append hgap.whole (.cons hsepLine hsepReturn (hrest.append hwhole))
      have helementAgain := helement.again fuel' _ (by rw [hfirst, List.length_cons]; omega) hsame
      rw [hfirst, List.cons_append] at helementAgain
      simp only [List.append_assoc, List.cons_append]
      rw [readRun?_cons _ _ htrivia.clean hsolid hc helementAgain hgap.clean hsep]
      exact hagain fuel' rest' (by omega) hrest

end Run

/-! ## Arrays and tables in braces -/

/-- A key with its value. The fuel for the value may depend on the length of what is behind the
equals sign. -/
def readBinding? (fuel : Nat → Nat) (depth : Nat) (chars : List Char) :
    Option ((List String × String × Node) × List Char) := do
  let (path, key, rest) ← readKeys? chars.length chars
  let inner ← behind? '=' rest
  let (value, rest) ← readValue? (fuel inner.length) depth (skipSpace inner)
  return ((path, key, value), rest)

/-- Adds a key with its value to a table. -/
def addBinding? (entries : Entries) (binding : List String × String × Node) : Option Entries :=
  Node.addPair? binding.2.1 binding.2.2 binding.1 entries

/-- **The items of an array** are a run of values. -/
theorem readItems?_eq (fuel depth : Nat) (chars : List Char) :
    readItems? fuel depth chars = readRun? ']' (readValue? · depth) fuel chars := by
  induction fuel generalizing chars with
  | zero => rfl
  | succ fuel ih =>
    rw [readItems?, readRun?]
    cases skipTrivia? chars with
    | none => rfl
    | some front =>
      dsimp only
      split
      · next heq => cases heq
      · next heq =>
        obtain rfl := Option.some.inj heq
        simp
      · next front hopen heq =>
        obtain rfl := Option.some.inj heq
        have hhead : front.head? ≠ some ']' := by
          intro hhead
          obtain ⟨tail, rfl⟩ := List.head?_eq_some_iff.1 hhead
          exact hopen _ rfl
        rw [if_neg hhead]
        cases readValue? fuel depth front with
        | none => rfl
        | some result =>
          obtain ⟨item, rest⟩ := result
          dsimp only
          split
          · next hcomma =>
            rw [hcomma]
            dsimp only
            rw [readMore?, if_pos rfl, ih]
          · next hclose =>
            rw [hclose]
            dsimp only
            rw [readMore?, if_neg (by decide), if_pos rfl]
          · next hcomma hclose =>
            split
            · next sep tail hsep =>
              rw [readMore?, if_neg, if_neg]
              · rintro rfl
                exact hclose _ hsep
              · rintro rfl
                exact hcomma _ hsep
            · rfl

/-- What is read of a table in braces once a member of it is read. -/
def readOtherMembers? (fuel depth : Nat) (entries : Entries) (chars : List Char) :
    Option (Entries × List Char) :=
  match skipTrivia? chars with
  | some (sep :: rest) =>
    if sep = ',' then readMembers? fuel depth entries rest
    else if sep = '\x7d' then some (entries, rest)
    else none
  | _ => none

/-- Members are read one by one. -/
lemma readMembers?_succ (fuel depth : Nat) (entries : Entries) (chars : List Char) :
    readMembers? (fuel + 1) depth entries chars =
      (skipTrivia? chars).bind fun front =>
        if front.head? = some '\x7d' then some (entries, front.tail)
        else (readBinding? (fun _ => fuel) depth front).bind fun (binding, rest) =>
          (addBinding? entries binding).bind fun entries =>
            readOtherMembers? fuel depth entries rest := by
  rw [readMembers?]
  cases skipTrivia? chars with
  | none => rfl
  | some front =>
    rw [Option.bind_some]
    split
    · next heq => cases heq
    · next heq =>
      obtain rfl := Option.some.inj heq
      simp
    · next front hopen heq =>
      obtain rfl := Option.some.inj heq
      have hhead : front.head? ≠ some '\x7d' := by
        intro hhead
        obtain ⟨tail, rfl⟩ := List.head?_eq_some_iff.1 hhead
        exact hopen _ rfl
      rw [if_neg hhead]
      split
      · next path key inner hkeys =>
        have hbinding : readBinding? (fun _ => fuel) depth front =
            (readValue? fuel depth (skipSpace inner)).map
              fun (value, rest) => ((path, key, value), rest) := by
          simp only [readBinding?, hkeys, Option.bind_eq_bind, Option.bind_some, behind?, if_true]
          cases readValue? fuel depth (skipSpace inner) <;> rfl
        rw [hbinding]
        cases readValue? fuel depth (skipSpace inner) with
        | none => rfl
        | some result =>
          obtain ⟨value, rest⟩ := result
          rw [Option.map_some, Option.bind_some]
          dsimp only
          rw [addBinding?]
          split
          · next hadd hskip =>
            rw [hadd, Option.bind_some, readOtherMembers?, hskip]
            exact (if_pos rfl).symm
          · next hadd hskip =>
            rw [hadd, Option.bind_some, readOtherMembers?, hskip]
            exact ((if_neg (by decide)).trans (if_pos rfl)).symm
          · next hcomma hclose =>
            cases hadd : Node.addPair? key value path entries with
            | none => rfl
            | some added =>
              rw [Option.bind_some, readOtherMembers?]
              split
              · next hskip =>
                rw [if_neg, if_neg]
                · rintro rfl
                  exact hclose _ _ hadd hskip
                · rintro rfl
                  exact hcomma _ _ hadd hskip
              · rfl
      · next hkeys =>
        have hbinding : readBinding? (fun _ => fuel) depth front = none := by
          unfold readBinding?
          cases hread : readKeys? front.length front with
          | none => rfl
          | some keys =>
            obtain ⟨path, key, behind⟩ := keys
            cases behind with
            | nil => rfl
            | cons d inner =>
              have hd : d ≠ '=' := by
                rintro rfl
                exact hkeys _ _ _ hread
              simp [behind?, hd]
        rw [hbinding]
        rfl

/-- **The members of a table in braces** are a run of keys with values, which are added one
by one. -/
theorem readMembers?_eq (fuel depth : Nat) (entries : Entries) (chars : List Char) :
    readMembers? fuel depth entries chars =
      (readRun? '\x7d' (fun fuel => readBinding? (fun _ => fuel) depth) fuel chars).bind
        fun (bindings, rest) => (bindings.foldlM addBinding? entries).map (·, rest) := by
  induction fuel generalizing entries chars with
  | zero => rfl
  | succ fuel ih =>
    rw [readMembers?_succ, readRun?]
    cases skipTrivia? chars with
    | none => rfl
    | some front =>
      rw [Option.bind_some]
      dsimp only
      split
      · rfl
      · cases readBinding? (fun _ => fuel) depth front with
        | none => rfl
        | some result =>
          obtain ⟨binding, behind⟩ := result
          rw [Option.bind_some]
          unfold readOtherMembers?
          dsimp only
          split
          · next sep rest hskip =>
            unfold readMore?
            by_cases hcomma : sep = ','
            · simp only [if_pos hcomma, ih]
              cases readRun? '\x7d' (fun fuel => readBinding? (fun _ => fuel) depth) fuel rest with
              | none => exact Option.bind_fun_none _
              | some others =>
                simp only [Option.map_some, Option.bind_some, List.foldlM_cons,
                  Option.bind_eq_bind, Option.map_bind]
                rfl
            · simp only [if_neg hcomma]
              by_cases hclose : sep = '\x7d'
              · simp only [if_pos hclose, Option.bind_some, List.foldlM_cons, List.foldlM_nil]
                cases addBinding? entries binding <;> rfl
              · simp only [if_neg hclose]
                exact Option.bind_fun_none _
          · exact Option.bind_fun_none _

/-! ## Values -/

/-- A value that starts with no bracket and no brace is a scalar. -/
lemma readValue?_scalar {fuel depth : Nat} {c : Char} (hbracket : c ≠ '[') (hbrace : c ≠ '\x7b')
    (tail : List Char) : readValue? (fuel + 1) depth (c :: tail) = readScalar? (c :: tail) := by
  rw [readValue?]
  · exact fun _ h => absurd (List.cons.inj h).1 hbracket
  · exact fun _ h => absurd (List.cons.inj h).1 hbrace
  · exact fun _ _ h => absurd (List.cons.inj h).1 hbracket
  · exact fun _ _ h => absurd (List.cons.inj h).1 hbrace

/-- A value starts with no carriage return. -/
lemma exists_head_of_readValue? {fuel depth : Nat} {chars : List Char} {result : Node × List Char}
    (h : readValue? fuel depth chars = some result) : ∃ c tail, chars = c :: tail ∧ c ≠ '\r' := by
  cases fuel with
  | zero => cases h
  | succ fuel =>
    unfold readValue? at h
    split at h
    · cases h
    · cases h
    · exact ⟨'[', _, rfl, by decide⟩
    · exact ⟨'\x7b', _, rfl, by decide⟩
    · obtain ⟨c, part, rfl, -, -, hreturn, -⟩ := readScalar?_reads h
      exact ⟨c, _, rfl, hreturn⟩

/-- The parts of a key with its value. -/
lemma readBinding?_eq_some_iff {fuel : Nat → Nat} {depth : Nat} {chars rest : List Char}
    {path : List String} {key : String} {value : Node} :
    readBinding? fuel depth chars = some ((path, key, value), rest) ↔
      ∃ inner, readKeys? chars.length chars = some (path, key, '=' :: inner) ∧
        readValue? (fuel inner.length) depth (skipSpace inner) = some (value, rest) := by
  unfold readBinding?
  constructor
  · intro h
    obtain ⟨⟨path', key', behind⟩, hkeys, h⟩ := Option.bind_eq_some_iff.1 h
    obtain ⟨inner, hinner, h⟩ := Option.bind_eq_some_iff.1 h
    obtain ⟨⟨value', rest'⟩, hvalue, h⟩ := Option.bind_eq_some_iff.1 h
    simp only [Option.pure_def, Option.some.injEq, Prod.mk.injEq] at h
    obtain ⟨⟨rfl, rfl, rfl⟩, rfl⟩ := h
    cases behind with
    | nil => cases hinner
    | cons d behind =>
      rw [behind?] at hinner
      split at hinner
      · next hd =>
        obtain rfl := Option.some.inj hinner
        exact ⟨behind, hd ▸ hkeys, hvalue⟩
      · cases hinner
  · rintro ⟨inner, hkeys, hvalue⟩
    simp [hkeys, behind?, hvalue]

/-- A key with its value starts with a blank or with the start of a key. -/
lemma exists_head_of_readBinding? {fuel : Nat → Nat} {depth : Nat} {chars : List Char}
    {result : (List String × String × Node) × List Char}
    (h : readBinding? fuel depth chars = some result) :
    ∃ c tail, chars = c :: tail ∧ (isSpace c = true ∨ isKeyStart c = true) := by
  obtain ⟨⟨path, key, value⟩, rest⟩ := result
  obtain ⟨inner, hkeys, -⟩ := readBinding?_eq_some_iff.1 h
  exact exists_isKeyStart hkeys

/-- A key with its value is read again if the value is. -/
lemma readBinding?_reads_of {fuel : Nat → Nat} {depth : Nat} {chars rest : List Char}
    {binding : List String × String × Node}
    (hvalue : ∀ {inner value rest},
      readValue? (fuel inner.length) depth (skipSpace inner) = some (value, rest) →
        ∃ part, skipSpace inner = part ++ rest ∧ ReadsFueled (readValue? · depth) part value rest)
    (h : readBinding? fuel depth chars = some (binding, rest)) :
    ∃ part, chars = part ++ rest ∧ clean part ≠ [] ∧ Whole part ∧
      ∀ fuel' rest', (∀ n, 2 * min n (clean part).length ≤ fuel' n) → SameLine rest rest' →
        readBinding? fuel' depth (clean part ++ rest') = some (binding, rest') := by
  obtain ⟨path, key, value⟩ := binding
  obtain ⟨inner, hkeys, hread⟩ := readBinding?_eq_some_iff.1 h
  obtain ⟨keys, hchars, hne, hkeysWhole, hkeysAgain⟩ := readKeys?_reads hkeys
  obtain ⟨part, hpart, hreads⟩ := hvalue hread
  obtain ⟨blanks, hblanks, hblanksReturn, -, hskip⟩ := exists_blanks inner
  have hwhole : Whole ('=' :: (blanks ++ part)) :=
    .cons (by decide) ((Whole.of_not_mem hblanksReturn).append hreads.whole)
  have hclean : clean (keys ++ '=' :: (blanks ++ part)) =
      clean keys ++ '=' :: (blanks ++ clean part) := by
    rw [clean_append, clean_cons (by decide), clean_append, clean_eq_self hblanksReturn]
  refine ⟨keys ++ '=' :: (blanks ++ part), ?_, by simp [hne], hkeysWhole.append hwhole, ?_⟩
  · rw [hchars, hblanks, hpart]
    simp
  · intro fuel' rest' hfuel hrest
    have hpartLine : SameLine (skipSpace inner) (clean part ++ rest') := by
      rw [hpart]
      exact hrest.append hreads.whole
    have hinnerLine : SameLine inner (blanks ++ (clean part ++ rest')) := by
      have := hpartLine.append (Whole.of_not_mem hblanksReturn)
      rwa [clean_eq_self hblanksReturn, ← hblanks] at this
    rw [hclean, List.append_assoc, List.cons_append, List.append_assoc, readBinding?_eq_some_iff]
    refine ⟨blanks ++ (clean part ++ rest'), ?_, ?_⟩
    · exact hkeysAgain _ _ (.cons (by decide) (by decide) hinnerLine) (by simp)
    · rw [hskip _ hpartLine]
      refine hreads.again _ rest' (le_trans ?_ (hfuel _)) hrest
      rw [hclean]
      simp only [List.length_append, List.length_cons]
      omega

/-- A key with its value starts with no carriage return. -/
lemma ne_return_of_readBinding? {depth fuel : Nat} {chars : List Char}
    {result : (List String × String × Node) × List Char}
    (h : readBinding? (fun _ => fuel) depth chars = some result) :
    ∃ c tail, chars = c :: tail ∧ c ≠ '\r' := by
  obtain ⟨c, tail, rfl, hc⟩ := exists_head_of_readBinding? h
  refine ⟨c, tail, rfl, ?_⟩
  rintro rfl
  rcases hc with hc | hc <;> cases hc

/-- A member of a table in braces is read again if its value is. -/
lemma readBinding?_readsFueled {fuel depth : Nat} {chars rest : List Char}
    {binding : List String × String × Node}
    (hvalue : ∀ {depth chars rest value}, readValue? fuel depth chars = some (value, rest) →
      ∃ part, chars = part ++ rest ∧ ReadsFueled (readValue? · depth) part value rest)
    (h : readBinding? (fun _ => fuel) depth chars = some (binding, rest)) :
    ∃ part, chars = part ++ rest ∧
      ReadsFueled (fun fuel => readBinding? (fun _ => fuel) depth) part binding rest := by
  obtain ⟨part, rfl, hne, hwhole, hagain⟩ := readBinding?_reads_of hvalue h
  refine ⟨part, rfl, hne, hwhole, ?_⟩
  intro fuel' rest' hfuel hrest
  refine hagain _ rest' (fun n => le_trans ?_ hfuel) hrest
  exact Nat.mul_le_mul_left 2 (Nat.min_le_right _ _)

/-- **Values** are read again. -/
theorem readValue?_reads {fuel depth : Nat} {chars rest : List Char} {value : Node}
    (h : readValue? fuel depth chars = some (value, rest)) :
    ∃ part, chars = part ++ rest ∧ ReadsFueled (readValue? · depth) part value rest := by
  induction fuel using Nat.strong_induction_on generalizing depth chars value rest with
  | _ fuel ih =>
    have hopened : ∀ {bracket : Char} {β : Type} {read : Nat → List Char → Option (β × List Char)}
        {part : List Char} {b : β} {depth : Nat} {node : Node}, bracket ≠ '\r' →
        ReadsFueled read part b rest →
        (∀ n rest', read n (clean part ++ rest') = some (b, rest') →
          readValue? (n + 1) depth (bracket :: (clean part ++ rest')) = some (node, rest')) →
        ReadsFueled (readValue? · depth) (bracket :: part) node rest := by
      intro bracket β read part b depth node hreturn hreads hopen
      have hclean : clean (bracket :: part) = bracket :: clean part := clean_cons hreturn _
      refine ⟨by simp [hclean], .cons hreturn hreads.whole, ?_⟩
      intro fuel' rest' hfuel hrest
      rw [hclean, List.length_cons] at hfuel
      obtain ⟨fuel', rfl⟩ : ∃ n, fuel' = n + 1 := Nat.exists_eq_succ_of_ne_zero (by omega)
      rw [hclean, List.cons_append]
      exact hopen fuel' rest' (hreads.again fuel' rest' (by omega) hrest)
    cases fuel with
    | zero => cases h
    | succ fuel =>
      unfold readValue? at h
      split at h
      · cases h
      · cases h
      · next behind depth =>
        obtain ⟨⟨items, _⟩, hitems, heq⟩ := Option.map_eq_some_iff.1 h
        obtain ⟨rfl, rfl⟩ := Prod.mk.inj heq
        rw [readItems?_eq] at hitems
        obtain ⟨part, rfl, hreads⟩ := readRun?_reads (by decide) exists_head_of_readValue?
          (fun hn => ih _ (Nat.lt_succ_of_lt hn)) hitems
        refine ⟨'[' :: part, rfl, hopened (by decide) hreads ?_⟩
        intro n rest' hagain
        rw [readValue?, readItems?_eq, hagain]
        rfl
      · next behind depth =>
        obtain ⟨⟨entries, _⟩, hentries, heq⟩ := Option.map_eq_some_iff.1 h
        obtain ⟨rfl, rfl⟩ := Prod.mk.inj heq
        rw [readMembers?_eq] at hentries
        obtain ⟨⟨bindings, _⟩, hbindings, hadd⟩ := Option.bind_eq_some_iff.1 hentries
        obtain ⟨_, hadded, heq⟩ := Option.map_eq_some_iff.1 hadd
        obtain ⟨rfl, rfl⟩ := Prod.mk.inj heq
        obtain ⟨part, rfl, hreads⟩ := readRun?_reads (by decide) ne_return_of_readBinding?
          (fun hn hread => readBinding?_readsFueled (ih _ (Nat.lt_succ_of_lt hn)) hread) hbindings
        refine ⟨'\x7b' :: part, rfl, hopened (by decide) hreads ?_⟩
        intro n rest' hagain
        rw [readValue?, readMembers?_eq, hagain, Option.bind_some]
        dsimp only
        rw [hadded]
        rfl
      · obtain ⟨c, part, rfl, hbracket, hbrace, hreturn, hreads⟩ := readScalar?_reads h
        have hclean : clean (c :: part) = c :: clean part := clean_cons hreturn _
        refine ⟨c :: part, rfl, by simp [hclean], hreads.whole, ?_⟩
        intro fuel' rest' hfuel hrest
        obtain ⟨fuel', rfl⟩ := exists_fuel (by simp [hclean]) hfuel
        have hagain := hreads.again rest' hrest
        rw [hclean, List.cons_append] at hagain ⊢
        rw [readValue?_scalar hbracket hbrace, hagain]

/-- **A key with its value** is read again. -/
theorem readBinding?_reads {fuel : Nat → Nat} {depth : Nat} {chars rest : List Char}
    {binding : List String × String × Node}
    (h : readBinding? fuel depth chars = some (binding, rest)) :
    ∃ part, chars = part ++ rest ∧ clean part ≠ [] ∧ Whole part ∧
      ∀ fuel' rest', (∀ n, 2 * min n (clean part).length ≤ fuel' n) → SameLine rest rest' →
        readBinding? fuel' depth (clean part ++ rest') = some (binding, rest') :=
  readBinding?_reads_of readValue?_reads h

end BoundSql.Toml
