import BoundSql.Expr.Predicate
import BoundSql.Proofs.Sql.Token

/-!
# The grammar of conditions

How a reader of SQL understands the tokens of a condition. A condition is made of comparisons and
conditions in parentheses, and of runs of these: the connectives are ranked, a run under one of them
is made of runs under the tighter ones, and it is read as one group. A comparison compares two
operands or tests one column. A placeholder stands for the next of the values at hand.

The grammar is a relation, so that nothing decides beforehand that a text has one reading only.

## Main definitions

* `BoundSql.Sql.Precedence` — the connectives, the weakest one first.
* `BoundSql.Sql.Reads` — tokens and values are read as a predicate.

## Main results

* `BoundSql.Sql.Reads.unique` — tokens and values have at most one reading.
-/

namespace BoundSql

namespace Sql

/-! ## Comparisons -/

/-- A word spells a keyword. Keywords may be written in small letters. -/
def Spells (word keyword : String) : Prop := word.toUpper = keyword

instance (word keyword : String) : Decidable (Spells word keyword) :=
  inferInstanceAs (Decidable (word.toUpper = keyword))

/-- A column with the alias of its table, or a bare column of the first table. -/
inductive ReadsColumn : List Token → ColumnRef → Prop
  | qualified (table : Nat) (name : String) :
    ReadsColumn [.word (tableAlias table), .symbol ".", .word name] ⟨table, name⟩
  | bare (name : String) : ReadsColumn [.word name] ⟨0, name⟩

/-- One side of a comparison: a column, or a placeholder for a value. -/
inductive ReadsOperand : List Token → List Value → Operand → Prop
  | column {tokens : List Token} {c : ColumnRef} (h : ReadsColumn tokens c) :
    ReadsOperand tokens [] (.column c)
  | value (v : Value) : ReadsOperand [.placeholder] [v] (.value v)

/-- A test of a column for a missing value, or for a value. -/
inductive ReadsTest : List Token → (ColumnRef → Comparison) → Prop
  | isNull {is null : String} (his : Spells is "IS") (hnull : Spells null "NULL") :
    ReadsTest [.word is, .word null] .isNull
  | isNotNull {is not null : String} (his : Spells is "IS") (hnot : Spells not "NOT")
    (hnull : Spells null "NULL") : ReadsTest [.word is, .word not, .word null] .isNotNull

/-- A comparison of two operands, or a test behind a column. -/
inductive ReadsComparison : List Token → List Value → Comparison → Prop
  | binary (op : CompareOp) {s t : List Token} {u v : List Value} {left right : Operand}
    (hleft : ReadsOperand s u left) (hright : ReadsOperand t v right) :
    ReadsComparison (s ++ .symbol op.symbol :: t) (u ++ v) (.binary op left right)
  | test {s t : List Token} {c : ColumnRef} {kind : ColumnRef → Comparison} (hc : ReadsColumn s c)
    (hkind : ReadsTest t kind) : ReadsComparison (s ++ t) [] (kind c)

/-! ## Conditions -/

/-- The connectives in the order in which they bind, the weakest one first. -/
structure Precedence where
  /-- The connectives. -/
  order : List Connective
  /-- Every connective has one rank. -/
  nodup : order.Nodup
  /-- Every connective has a rank. -/
  complete : ∀ connective, connective ∈ order

/-- The precedence of the standard: `OR` binds weakest. -/
def Precedence.standard : Precedence where
  order := [.or, .and]
  nodup := by decide
  complete connective := by cases connective <;> decide

/-- What a run of members under a connective is read as: a run of one member is that member. -/
def joined (connective : Connective) : List Predicate → Predicate
  | [member] => member
  | members => .group connective members

mutual

/-- Tokens and values are read as a predicate, the connectives outside of parentheses being among
the given ones, the weakest one first. -/
inductive Reads (precedence : Precedence) :
    List Connective → List Token → List Value → Predicate → Prop
  | comparison {tokens : List Token} {values : List Value} {leaf : Comparison}
    (h : ReadsComparison tokens values leaf) : Reads precedence [] tokens values (.comparison leaf)
  | enclosed {tokens : List Token} {values : List Value} {p : Predicate}
    (h : Reads precedence precedence.order tokens values p) :
    Reads precedence [] (.symbol "(" :: (tokens ++ [.symbol ")"])) values p
  | run {connective : Connective} {tighter : List Connective} {tokens : List Token}
    {values : List Value} {members : List Predicate}
    (h : ReadsRun precedence connective tighter tokens values members) :
    Reads precedence (connective :: tighter) tokens values (joined connective members)

/-- Tokens and values are read as members with a connective between each two of them. -/
inductive ReadsRun (precedence : Precedence) :
    Connective → List Connective → List Token → List Value → List Predicate → Prop
  | single {connective : Connective} {tighter : List Connective} {tokens : List Token}
    {values : List Value} {member : Predicate}
    (h : Reads precedence tighter tokens values member) :
    ReadsRun precedence connective tighter tokens values [member]
  | cons {connective : Connective} {tighter : List Connective} {s t : List Token}
    {u v : List Value} {word : String} {member : Predicate} {members : List Predicate}
    (h : Reads precedence tighter s u member) (hword : Spells word connective.keyword)
    (hrest : ReadsRun precedence connective tighter t v members) :
    ReadsRun precedence connective tighter (s ++ .word word :: t) (u ++ v) (member :: members)

end

/-! ## At most one reading -/

/-- Tokens that do not continue a condition under the given connectives. -/
def Stops (connectives : List Connective) (rest : List Token) : Prop :=
  rest.head? ≠ some (.symbol ".") ∧
    ∀ connective ∈ connectives, ∀ word, Spells word connective.keyword →
      rest.head? ≠ some (.word word)

namespace Stops

variable {connective : Connective} {connectives : List Connective} {rest : List Token}

/-- What stops under some connectives stops under fewer. -/
lemma tail (h : Stops (connective :: connectives) rest) : Stops connectives rest := by
  obtain ⟨hdot, hwords⟩ := h
  refine ⟨hdot, ?_⟩
  intro k hk
  exact hwords k (List.mem_cons_of_mem connective hk)

/-- A closing parenthesis stops every condition. -/
lemma close (connectives : List Connective) (rest : List Token) :
    Stops connectives (.symbol ")" :: rest) := by
  refine ⟨by simp, ?_⟩
  intro k _ word _
  simp

/-- The end stops every condition. -/
lemma nil (connectives : List Connective) : Stops connectives [] := by
  refine ⟨by simp, ?_⟩
  intro k _ word _
  simp

/-- A connective stops a run under other connectives. -/
lemma keyword {word : String} (hword : Spells word connective.keyword)
    (hnew : connective ∉ connectives) : Stops connectives (.word word :: rest) := by
  refine ⟨by simp, ?_⟩
  intro k hk other hother heq
  apply hnew
  obtain rfl : word = other := by simpa using heq
  have hkeyword : connective.keyword = k.keyword := hword.symm.trans hother
  cases connective <;> cases k <;> first | exact hk | exact absurd hkeyword (by decide)

end Stops

/-- **A column** is read in one way, if no dot follows. -/
lemma ReadsColumn.unique {s t a b : List Token} {c d : ColumnRef} (hc : ReadsColumn s c)
    (hd : ReadsColumn t d) (ht : s ++ a = t ++ b) (ha : a.head? ≠ some (.symbol "."))
    (hb : b.head? ≠ some (.symbol ".")) : s = t ∧ c = d := by
  cases hc with
  | qualified i name =>
    cases hd with
    | qualified j other =>
      simp only [List.cons_append, List.nil_append, List.cons.injEq, Token.word.injEq] at ht
      obtain ⟨halias, -, rfl, -⟩ := ht
      obtain rfl := tableAlias_injective halias
      exact ⟨rfl, rfl⟩
    | bare other =>
      simp only [List.cons_append, List.nil_append, List.cons.injEq] at ht
      rw [← ht.2] at hb
      exact absurd rfl hb
  | bare name =>
    cases hd with
    | qualified j other =>
      simp only [List.cons_append, List.nil_append, List.cons.injEq] at ht
      rw [ht.2] at ha
      exact absurd rfl ha
    | bare other =>
      simp only [List.cons_append, List.nil_append, List.cons.injEq, Token.word.injEq] at ht
      obtain ⟨rfl, -⟩ := ht
      exact ⟨rfl, rfl⟩

/-- A column begins with a word. -/
lemma ReadsColumn.head {s : List Token} {c : ColumnRef} (h : ReadsColumn s c) :
    ∃ word rest, s = .word word :: rest := by
  cases h with
  | qualified table name => exact ⟨_, _, rfl⟩
  | bare name => exact ⟨_, _, rfl⟩

/-- **An operand** is read in one way, if no dot follows. -/
lemma ReadsOperand.unique {s t a b : List Token} {u v m n : List Value} {x y : Operand}
    (hx : ReadsOperand s u x) (hy : ReadsOperand t v y) (ht : s ++ a = t ++ b)
    (hv : u ++ m = v ++ n) (ha : a.head? ≠ some (.symbol ".")) (hb : b.head? ≠ some (.symbol ".")) :
    s = t ∧ u = v ∧ x = y := by
  cases hx with
  | column hc =>
    cases hy with
    | column hd =>
      obtain ⟨rfl, rfl⟩ := hc.unique hd ht ha hb
      exact ⟨rfl, rfl, rfl⟩
    | value v =>
      obtain ⟨word, rest, rfl⟩ := hc.head
      simp [Token.placeholder] at ht
  | value v =>
    cases hy with
    | column hd =>
      obtain ⟨word, rest, rfl⟩ := hd.head
      simp [Token.placeholder] at ht
    | value w =>
      obtain ⟨rfl, -⟩ : v = w ∧ m = n := by simpa using hv
      exact ⟨rfl, rfl, rfl⟩

/-- Two operators have two symbols. -/
lemma symbol_injective {op other : CompareOp} (h : op.symbol = other.symbol) : op = other := by
  cases op <;> cases other <;> first | rfl | exact absurd h (by decide)

/-- No operator is a dot. -/
lemma symbol_ne_dot (op : CompareOp) (rest : List Token) :
    (Token.symbol op.symbol :: rest).head? ≠ some (.symbol ".") := by
  cases op <;> simp [CompareOp.symbol]

/-- A test begins with a word. -/
lemma ReadsTest.head {t : List Token} {kind : ColumnRef → Comparison} (h : ReadsTest t kind) :
    ∃ word rest, t = .word word :: rest := by
  cases h with
  | isNull his hnull => exact ⟨_, _, rfl⟩
  | isNotNull his hnot hnull => exact ⟨_, _, rfl⟩

/-- What follows a tested column is no dot. -/
lemma ReadsTest.ne_dot {t : List Token} {kind : ColumnRef → Comparison} (h : ReadsTest t kind)
    (rest : List Token) : (t ++ rest).head? ≠ some (.symbol ".") := by
  obtain ⟨word, others, rfl⟩ := h.head
  simp

/-- **A test** is read in one way, whatever follows. -/
lemma ReadsTest.unique {s t a b : List Token} {kind other : ColumnRef → Comparison}
    (hs : ReadsTest s kind) (ht : ReadsTest t other) (h : s ++ a = t ++ b) :
    s = t ∧ kind = other := by
  have hkeywords : ∀ word, Spells word "NULL" → Spells word "NOT" → False := by
    intro word hnull hnot
    have hsame : "NULL" = "NOT" := hnull.symm.trans hnot
    exact absurd hsame (by decide)
  cases hs with
  | isNull his hnull =>
    cases ht with
    | isNull his' hnull' =>
      obtain ⟨rfl, rfl, -⟩ := by simpa using h
      exact ⟨rfl, rfl⟩
    | isNotNull his' hnot' hnull' =>
      obtain ⟨-, rfl, -⟩ := by simpa using h
      exact (hkeywords _ hnull hnot').elim
  | isNotNull his hnot hnull =>
    cases ht with
    | isNull his' hnull' =>
      obtain ⟨-, rfl, -⟩ := by simpa using h
      exact (hkeywords _ hnull' hnot).elim
    | isNotNull his' hnot' hnull' =>
      obtain ⟨rfl, rfl, rfl, -⟩ := by simpa using h
      exact ⟨rfl, rfl⟩

/-- A comparison of two operands is no test: an operator follows the first operand. -/
lemma ReadsOperand.not_tested {s t a b : List Token} {u m n : List Value} {x : Operand}
    {op : CompareOp} {c : ColumnRef} {kind : ColumnRef → Comparison} (hx : ReadsOperand s u x)
    (hc : ReadsColumn t c) (hkind : ReadsTest b kind) {rest : List Token}
    (ht : s ++ .symbol op.symbol :: a = t ++ (b ++ rest)) (hv : u ++ m = n) : False := by
  obtain ⟨rfl, -, -⟩ := hx.unique (.column hc) ht (n := n) hv (symbol_ne_dot op a)
    (hkind.ne_dot rest)
  obtain ⟨word, others, rfl⟩ := hkind.head
  simp at ht

/-- **A comparison** is read in one way, if no dot follows.

**Proof sketch.** The left operand or the tested column is read in one way, since an operator or a
word follows it. What follows tells the kinds of comparisons apart. -/
lemma ReadsComparison.unique {s t a b : List Token} {u v m n : List Value} {x y : Comparison}
    (hx : ReadsComparison s u x) (hy : ReadsComparison t v y) (ht : s ++ a = t ++ b)
    (hv : u ++ m = v ++ n) (ha : a.head? ≠ some (.symbol ".")) (hb : b.head? ≠ some (.symbol ".")) :
    s = t ∧ u = v ∧ x = y := by
  cases hx with
  | binary op hleft hright =>
    cases hy with
    | binary op' hleft' hright' =>
      simp only [List.append_assoc, List.cons_append] at ht hv
      obtain ⟨rfl, rfl, rfl⟩ :=
        hleft.unique hleft' ht hv (symbol_ne_dot op _) (symbol_ne_dot op' _)
      obtain ⟨hop, ht'⟩ : op.symbol = op'.symbol ∧ _ := by simpa using ht
      obtain rfl := symbol_injective hop
      obtain ⟨rfl, rfl, rfl⟩ := hright.unique hright' ht' (List.append_cancel_left hv) ha hb
      exact ⟨rfl, rfl, rfl⟩
    | test hc hkind =>
      simp only [List.append_assoc, List.cons_append] at ht hv
      exact (hleft.not_tested hc hkind ht hv).elim
  | test hc hkind =>
    cases hy with
    | binary op' hleft' hright' =>
      simp only [List.append_assoc, List.cons_append] at ht hv
      exact (hleft'.not_tested hc hkind ht.symm hv.symm).elim
    | test hc' hkind' =>
      simp only [List.append_assoc] at ht
      obtain ⟨rfl, rfl⟩ := hc.unique hc' ht (hkind.ne_dot a) (hkind'.ne_dot b)
      obtain ⟨rfl, rfl⟩ := hkind.unique hkind' (List.append_cancel_left ht)
      exact ⟨rfl, rfl, rfl⟩

/-- A comparison does not begin with a parenthesis. -/
lemma ReadsComparison.head_ne {s : List Token} {u : List Value} {x : Comparison}
    (h : ReadsComparison s u x) (a : List Token) :
    (s ++ a).head? ≠ some (.symbol "(") := by
  cases h with
  | binary op hleft hright =>
    cases hleft with
    | column hc =>
      obtain ⟨word, rest, rfl⟩ := hc.head
      simp
    | value v => simp [Token.placeholder]
  | test hc hkind =>
    obtain ⟨word, rest, rfl⟩ := hc.head
    simp

section Unique

variable {precedence : Precedence}

mutual

/-- **Tokens and values have at most one reading**, if what follows them does not continue it. -/
theorem Reads.unique {tighter : List Connective} {s : List Token} {u : List Value}
    {p : Predicate} : Reads precedence tighter s u p → ∀ ⦃t a b : List Token⦄ ⦃v m n : List Value⦄
    ⦃q : Predicate⦄, Reads precedence tighter t v q → tighter.Nodup → s ++ a = t ++ b →
      u ++ m = v ++ n → Stops tighter a → Stops tighter b → s = t ∧ u = v ∧ p = q
  | .comparison h => by
    intro t a b v m n q hq htighter ht hv ha hb
    cases hq with
    | comparison h' =>
      obtain ⟨rfl, rfl, rfl⟩ := h.unique h' ht hv ha.1 hb.1
      exact ⟨rfl, rfl, rfl⟩
    | enclosed h' =>
      refine absurd ?_ (h.head_ne a)
      rw [ht]
      rfl
  | .enclosed h => by
    intro t a b v m n q hq htighter ht hv ha hb
    cases hq with
    | comparison h' =>
      refine absurd ?_ (h'.head_ne b)
      rw [← ht]
      rfl
    | enclosed h' =>
      simp only [List.cons_append, List.append_assoc, List.cons.injEq, List.nil_append,
        true_and] at ht
      obtain ⟨rfl, rfl, rfl⟩ :=
        Reads.unique h h' precedence.nodup ht hv (Stops.close _ _) (Stops.close _ _)
      exact ⟨rfl, rfl, rfl⟩
  | .run h => by
    intro t a b v m n q hq htighter ht hv ha hb
    cases hq with
    | run h' =>
      obtain ⟨rfl, rfl, rfl⟩ := ReadsRun.unique h h' htighter ht hv ha hb
      exact ⟨rfl, rfl, rfl⟩

/-- Tokens and values are at most one run of members. -/
theorem ReadsRun.unique {connective : Connective} {tighter : List Connective}
    {s : List Token} {u : List Value} {ps : List Predicate} :
    ReadsRun precedence connective tighter s u ps → ∀ ⦃t a b : List Token⦄ ⦃v m n : List Value⦄
    ⦃qs : List Predicate⦄, ReadsRun precedence connective tighter t v qs →
      (connective :: tighter).Nodup → s ++ a = t ++ b → u ++ m = v ++ n →
      Stops (connective :: tighter) a → Stops (connective :: tighter) b → s = t ∧ u = v ∧ ps = qs
  | .single h => by
    intro t a b v m n qs hq htighter ht hv ha hb
    obtain ⟨hnew, hnodup⟩ := List.nodup_cons.1 htighter
    cases hq with
    | single h' =>
      obtain ⟨rfl, rfl, rfl⟩ := Reads.unique h h' hnodup ht hv ha.tail hb.tail
      exact ⟨rfl, rfl, rfl⟩
    | cons h' hword' hrest' =>
      simp only [List.append_assoc, List.cons_append] at ht hv
      obtain ⟨rfl, -, -⟩ := Reads.unique h h' hnodup ht hv ha.tail (Stops.keyword hword' hnew)
      rw [List.append_cancel_left ht] at ha
      exact absurd rfl (ha.2 connective List.mem_cons_self _ hword')
  | .cons h hword hrest => by
    intro t a b v m n qs hq htighter ht hv ha hb
    obtain ⟨hnew, hnodup⟩ := List.nodup_cons.1 htighter
    cases hq with
    | single h' =>
      simp only [List.append_assoc, List.cons_append] at ht hv
      obtain ⟨rfl, -, -⟩ := Reads.unique h h' hnodup ht hv (Stops.keyword hword hnew) hb.tail
      rw [← List.append_cancel_left ht] at hb
      exact absurd rfl (hb.2 connective List.mem_cons_self _ hword)
    | cons h' hword' hrest' =>
      simp only [List.append_assoc, List.cons_append] at ht hv
      obtain ⟨rfl, rfl, rfl⟩ := Reads.unique h h' hnodup ht hv (Stops.keyword hword hnew)
        (Stops.keyword hword' hnew)
      obtain ⟨rfl, ht'⟩ : _ = _ ∧ _ := by simpa using ht
      obtain ⟨rfl, rfl, rfl⟩ :=
        ReadsRun.unique hrest hrest' htighter ht' (List.append_cancel_left hv) ha hb
      exact ⟨rfl, rfl, rfl⟩

end

/-- **A whole condition** has at most one reading. -/
theorem Reads.eq {tokens : List Token} {values : List Value} {p q : Predicate}
    (hp : Reads precedence precedence.order tokens values p)
    (hq : Reads precedence precedence.order tokens values q) : p = q := by
  have hstops := Stops.nil precedence.order
  have hvalues : values ++ [] = values ++ [] := rfl
  obtain ⟨-, -, h⟩ := Reads.unique hp hq precedence.nodup rfl hvalues hstops hstops
  exact h

end Unique

/-! ## Readings of groups -/

section Groups

variable {precedence : Precedence} {connective : Connective}

/-- What is read without a connective is a run of one member under every connective. -/
lemma Reads.of_nil {tokens : List Token} {values : List Value} {p : Predicate}
    (h : Reads precedence [] tokens values p) (connectives : List Connective) :
    Reads precedence connectives tokens values p := by
  induction connectives with
  | nil => exact h
  | cons connective tighter ih => exact .run (.single ih)

/-- The keywords of the connectives spell themselves. -/
lemma spells_keyword (connective : Connective) :
    Spells connective.keyword connective.keyword := by
  cases connective <;> decide +kernel

/-- Members that are read without a connective each make up a run under every connective. -/
lemma ReadsRun.of_members {part : Predicate → List Token} {bound : Predicate → List Value}
    {members : List Predicate} (hne : members ≠ [])
    (h : ∀ m ∈ members, Reads precedence [] (part m) (bound m) m) (tighter : List Connective) :
    ReadsRun precedence connective tighter
      ([.word connective.keyword].intercalate (members.map part)) (members.flatMap bound)
      members := by
  match members with
  | [] => exact absurd rfl hne
  | [m] =>
    have hm := (h m List.mem_cons_self).of_nil tighter
    have hrun : ReadsRun precedence connective tighter (part m) (bound m) [m] := .single hm
    simpa using hrun
  | m :: n :: rest =>
    rw [List.forall_mem_cons] at h
    obtain ⟨hm, hothers⟩ := h
    have hrest := ReadsRun.of_members (List.cons_ne_nil n rest) hothers tighter
    have hrun := ReadsRun.cons (hm.of_nil tighter) (spells_keyword connective) hrest
    simp only [List.map_cons, List.flatMap_cons] at hrun ⊢
    rw [List.intercalate_cons_cons, List.append_assoc]
    exact hrun

/-- **A run of two or more members** is a group, whatever rank its connective has. -/
lemma Reads.group {tokens : List Token} {values : List Value} {members : List Predicate}
    (hlength : 2 ≤ members.length)
    (h : ∀ tighter, ReadsRun precedence connective tighter tokens values members)
    {connectives : List Connective} (hmem : connective ∈ connectives) :
    Reads precedence connectives tokens values (.group connective members) := by
  have hjoined : joined connective members = .group connective members := by
    match members, hlength with
    | _ :: _ :: _, _ => rfl
  induction connectives with
  | nil => exact nomatch hmem
  | cons k tighter ih =>
    by_cases hk : connective = k
    · subst hk
      exact hjoined ▸ .run (h tighter)
    · have htighter : connective ∈ tighter := (List.mem_cons.1 hmem).resolve_left hk
      exact .run (.single (ih htighter))

end Groups

end Sql

end BoundSql
