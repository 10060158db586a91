import BoundSql.Proofs.Binary64.Ranks
import BoundSql.Proofs.Json.Grammar
import Mathlib.Data.List.Forall2

/-!
# Lawful libraries for JSON

What can be relied on of a library that prints and reads JSON. It reads the texts of the grammar, up
to a depth of nesting, and it prints texts of the grammar. A whole number is printed by its decimal
digits and read back exactly if it fits 64 bits. A finite real is printed by a literal with a point
or an exponent that lies nearest to this real among all of them; such a literal is read as a finite
real. Whether it is read as the same real is not said: that is up to how exactly the reader rounds.

## Main definitions

* `BoundSql.Json.Number.Denotes` — what number a literal with a point or an exponent denotes.
* `BoundSql.Value.literal` — what is printed for a value.
* `BoundSql.Json.Relates` — documents of one shape with related scalars.
* `BoundSql.Json.AgreeOn` — the printer and the reader of numbers agree on a real.
* `BoundSql.Json.LawfulLibrary` — the laws of a library.

## Main results

* `BoundSql.Json.Writes.converted` — the literals of a text can be converted one by one.
-/

namespace BoundSql

namespace Json

/-! ## What literals denote -/

namespace Number

/-- The power of ten that the last digit of a literal counts. -/
def lastPlace (number : Number) : ℤ := number.exponent?.getD 0 - number.fraction.length

/-- The exact magnitude that a literal denotes. -/
def magnitude (number : Number) : ℚ :=
  digitsValue 0 (number.whole ++ number.fraction) * 10 ^ number.lastPlace

/-- Whether a literal shows that it is real. -/
def IsMarked (number : Number) : Prop := number.fraction ≠ [] ∨ number.exponent? ≠ none

/-- A literal denotes a real: its sign, its magnitude, and the shape of its text. -/
structure Denotes (number : Number) (negative : Bool) (m : ℚ) : Prop where
  /-- The sign. -/
  negative : number.negative = negative
  /-- The magnitude. -/
  magnitude : number.magnitude = m
  /-- It can be written. -/
  wellFormed : number.WellFormed
  /-- It shows that it is real. -/
  isMarked : number.IsMarked

end Number

/-! ## Documents of one shape -/

section Relates

variable {σ τ : Type}

/-- Two documents of one shape with related scalars, in which containers are nested at most so
deep. -/
def Relates (R : σ → τ → Prop) : ℕ → Json σ → Json τ → Prop
  | 0, document, other => ∃ s t, R s t ∧ document = .scalar s ∧ other = .scalar t
  | depth + 1, document, other =>
    (∃ s t, R s t ∧ document = .scalar s ∧ other = .scalar t) ∨
    (∃ items others, List.Forall₂ (Relates R depth) items others ∧
      document = .array items ∧ other = .array others) ∨
    ∃ members others, List.Forall₂ (fun member other =>
        other.1 = member.1 ∧ Relates R depth member.2 other.2) members others ∧
      document = .object members ∧ other = .object others

variable {R : σ → τ → Prop}

/-- Related scalars are related documents at every depth. -/
lemma relates_scalar {s : σ} {t : τ} (h : R s t) (depth : ℕ) :
    Relates R depth (.scalar s) (.scalar t) := by
  cases depth with
  | zero => exact ⟨s, t, h, rfl, rfl⟩
  | succ depth => exact .inl ⟨s, t, h, rfl, rfl⟩

/-- Arrays of related items are related. -/
lemma relates_array {depth : ℕ} {items : List (Json σ)} {others : List (Json τ)}
    (h : List.Forall₂ (Relates R depth) items others) :
    Relates R (depth + 1) (.array items) (.array others) := .inr (.inl ⟨items, others, h, rfl, rfl⟩)

/-- Objects of related members are related. -/
lemma relates_object {depth : ℕ} {members : List (String × Json σ)}
    {others : List (String × Json τ)} (h : List.Forall₂ (fun member other =>
      other.1 = member.1 ∧ Relates R depth member.2 other.2) members others) :
    Relates R (depth + 1) (.object members) (.object others) :=
  .inr (.inr ⟨members, others, h, rfl, rfl⟩)

/-- Related documents are related by a relation that holds more often. -/
lemma Relates.imp {R' : σ → τ → Prop} (hR : ∀ s t, R s t → R' s t) {depth : ℕ} {document : Json σ}
    {other : Json τ} (h : Relates R depth document other) : Relates R' depth document other := by
  induction depth generalizing document other with
  | zero =>
    obtain ⟨s, t, hst, rfl, rfl⟩ := h
    exact relates_scalar (hR s t hst) 0
  | succ depth ih =>
    obtain ⟨s, t, hst, rfl, rfl⟩ | ⟨items, others, hitems, rfl, rfl⟩ |
      ⟨members, others, hmembers, rfl, rfl⟩ := h
    · exact relates_scalar (hR s t hst) _
    · exact relates_array (hitems.imp fun _ _ => ih)
    · exact relates_object (hmembers.imp fun _ _ hmember => ⟨hmember.1, ih hmember.2⟩)

/-- A document that is related to a scalar is one. -/
lemma relates_scalar_iff {depth : ℕ} {document : Json σ} {t : τ} :
    Relates R depth document (.scalar t) ↔ ∃ s, R s t ∧ document = .scalar s := by
  constructor
  · intro h
    cases depth with
    | zero =>
      obtain ⟨s, _, hst, rfl, ⟨⟩⟩ := h
      exact ⟨s, hst, rfl⟩
    | succ depth =>
      obtain ⟨s, _, hst, rfl, ⟨⟩⟩ | ⟨_, _, _, _, ⟨⟩⟩ | ⟨_, _, _, _, ⟨⟩⟩ := h
      exact ⟨s, hst, rfl⟩
  · rintro ⟨s, hst, rfl⟩
    exact relates_scalar hst depth

/-- A document that is related to an array is one. -/
lemma relates_array_iff {depth : ℕ} {document : Json σ} {others : List (Json τ)} :
    Relates R (depth + 1) document (.array others) ↔
      ∃ items, List.Forall₂ (Relates R depth) items others ∧ document = .array items := by
  constructor
  · rintro (⟨_, _, _, _, ⟨⟩⟩ | ⟨items, _, hitems, rfl, ⟨⟩⟩ | ⟨_, _, _, _, ⟨⟩⟩)
    exact ⟨items, hitems, rfl⟩
  · rintro ⟨items, hitems, rfl⟩
    exact relates_array hitems

/-- A document that is related to an object is one. -/
lemma relates_object_iff {depth : ℕ} {document : Json σ} {others : List (String × Json τ)} :
    Relates R (depth + 1) document (.object others) ↔
      ∃ members, List.Forall₂ (fun member other =>
        other.1 = member.1 ∧ Relates R depth member.2 other.2) members others ∧
        document = .object members := by
  constructor
  · rintro (⟨_, _, _, _, ⟨⟩⟩ | ⟨_, _, _, _, ⟨⟩⟩ | ⟨members, _, hmembers, rfl, ⟨⟩⟩)
    exact ⟨members, hmembers, rfl⟩
  · rintro ⟨members, hmembers, rfl⟩
    exact relates_object hmembers

/-- Lists whose members are related by way of others are related by way of a list of these. -/
lemma exists_forall₂_mid {α β γ : Type} {P : α → β → Prop} {Q : β → γ → Prop} {as : List α}
    {cs : List γ} (h : List.Forall₂ (fun a c => ∃ b, P a b ∧ Q b c) as cs) :
    ∃ bs, List.Forall₂ P as bs ∧ List.Forall₂ Q bs cs := by
  induction h with
  | nil => exact ⟨[], .nil, .nil⟩
  | cons hac _ ih =>
    obtain ⟨b, hab, hbc⟩ := hac
    obtain ⟨bs, habs, hbcs⟩ := ih
    exact ⟨b :: bs, .cons hab habs, .cons hbc hbcs⟩

/-- Documents whose scalars are related by way of others are related by way of a document of
these. -/
theorem Relates.exists_mid {υ : Type} {Q : τ → υ → Prop} {depth : ℕ} {document : Json σ}
    {other : Json υ} (h : Relates (fun s u => ∃ t, R s t ∧ Q t u) depth document other) :
    ∃ mid, Relates R depth document mid ∧ Relates Q depth mid other := by
  induction depth generalizing document other with
  | zero =>
    obtain ⟨s, u, ⟨t, hst, htu⟩, rfl, rfl⟩ := h
    exact ⟨.scalar t, relates_scalar hst 0, relates_scalar htu 0⟩
  | succ depth ih =>
    obtain ⟨s, u, ⟨t, hst, htu⟩, rfl, rfl⟩ | ⟨items, others, hitems, rfl, rfl⟩ |
      ⟨members, others, hmembers, rfl, rfl⟩ := h
    · exact ⟨.scalar t, relates_scalar hst _, relates_scalar htu _⟩
    · obtain ⟨mids, hleft, hright⟩ := exists_forall₂_mid (hitems.imp fun _ _ => ih)
      exact ⟨.array mids, relates_array hleft, relates_array hright⟩
    · have hmid : List.Forall₂ (fun member other => ∃ mid : String × Json τ,
          (mid.1 = member.1 ∧ Relates R depth member.2 mid.2) ∧
            (other.1 = mid.1 ∧ Relates Q depth mid.2 other.2)) members others := by
        refine hmembers.imp ?_
        rintro member other ⟨hkey, hitem⟩
        obtain ⟨mid, hleft, hright⟩ := ih hitem
        exact ⟨(member.1, mid), ⟨rfl, hleft⟩, hkey, hright⟩
      obtain ⟨mids, hleft, hright⟩ := exists_forall₂_mid hmid
      exact ⟨.object mids, relates_object hleft, relates_object hright⟩

end Relates

/-! ## Converting literals -/

section Convert

variable {ν : Type} {convert : Number → Option ν}

/-- A scalar whose number is a literal, and the scalar in which the literal is converted. -/
inductive Scalar.ConvertsTo (convert : Number → Option ν) : Scalar Number → Scalar ν → Prop
  /-- The missing value. -/
  | null : ConvertsTo convert .null .null
  /-- A truth value. -/
  | bool (b : Bool) : ConvertsTo convert (.bool b) (.bool b)
  /-- A number. -/
  | number {literal : Number} {n : ν} (h : convert literal = some n) :
      ConvertsTo convert (.number literal) (.number n)
  /-- A text. -/
  | text (s : String) : ConvertsTo convert (.text s) (.text s)

/-- Literals are converted one way only. -/
lemma Scalar.ConvertsTo.unique {s : Scalar Number} {t t' : Scalar ν} (h : s.ConvertsTo convert t)
    (h' : s.ConvertsTo convert t') : t = t' := by
  cases h with
  | null =>
    cases h'
    rfl
  | bool b =>
    cases h'
    rfl
  | number hn =>
    cases h' with
    | number hn' => rw [Option.some.inj (hn.symm.trans hn')]
  | text s =>
    cases h'
    rfl

/-- The text of a scalar is that of the scalar with its literal converted. -/
lemma ScalarText.converted {chars : List Char} {s : Scalar Number} {t : Scalar ν}
    (h : ScalarText some chars s) (hst : s.ConvertsTo convert t) :
    ScalarText convert chars t := by
  cases h with
  | word hword =>
    simp only [words, List.mem_cons, List.not_mem_nil, or_false, Prod.mk.injEq] at hword
    obtain ⟨rfl, rfl⟩ | ⟨rfl, rfl⟩ | ⟨rfl, rfl⟩ := hword
    · cases hst
      exact .word (by simp [words])
    · cases hst
      exact .word (by simp [words])
    · cases hst
      exact .word (by simp [words])
  | text hbody =>
    cases hst
    exact .text hbody
  | number hchars hliteral =>
    obtain rfl := Option.some.inj hliteral
    cases hst with
    | number hnumber => exact .number hchars hnumber

section Lists

variable {α β : Type} {P : List Char → α → Prop} {Q : List Char → β → Prop} {R : α → β → Prop}

/-- A list of texts is one of related meanings. -/
lemma ListText.converted (hPQ : ∀ text a b, P text a → R a b → Q text b) {chars : List Char}
    {as : List α} {bs : List β} (h : ListText P chars as) (hR : List.Forall₂ R as bs) :
    ListText Q chars bs := by
  induction h generalizing bs with
  | last hfront htext hback =>
    obtain ⟨b, bs, hb, hbs, rfl⟩ := List.forall₂_cons_left_iff.1 hR
    obtain rfl := List.forall₂_nil_left_iff.1 hbs
    exact .last hfront (hPQ _ _ _ htext hb) hback
  | cons hfront htext hback _ ih =>
    obtain ⟨b, bs, hb, hbs, rfl⟩ := List.forall₂_cons_left_iff.1 hR
    exact .cons hfront (hPQ _ _ _ htext hb) hback (ih hbs)

/-- What stands between two brackets is a list of related meanings. -/
lemma InnerText.converted (hPQ : ∀ text a b, P text a → R a b → Q text b) {chars : List Char}
    {as : List α} {bs : List β} (h : InnerText P chars as) (hR : List.Forall₂ R as bs) :
    InnerText Q chars bs := by
  obtain ⟨hblank, rfl⟩ | hlist := h
  · exact .inl ⟨hblank, List.forall₂_nil_left_iff.1 hR⟩
  · exact .inr (hlist.converted hPQ hR)

/-- A key with a text is one of a related meaning. -/
lemma MemberText.converted (hPQ : ∀ text a b, P text a → R a b → Q text b) {chars : List Char}
    {member : String × α} {other : String × β} (h : MemberText P chars member)
    (hR : other.1 = member.1 ∧ R member.2 other.2) : MemberText Q chars other := by
  obtain ⟨key, b⟩ := other
  cases h with
  | mk hkey hbetween hfront htext =>
    obtain ⟨rfl, hb⟩ := hR
    exact .mk hkey hbetween hfront (hPQ _ _ _ htext hb)

end Lists

/-- The text of a document is that of the document with its literals converted. -/
lemma DocumentText.converted {depth : ℕ} {chars : List Char} {document : Json (Scalar Number)}
    {other : Json (Scalar ν)} (h : DocumentText some depth chars document)
    (hother : Relates (Scalar.ConvertsTo convert) depth document other) :
    DocumentText convert depth chars other := by
  induction depth generalizing chars document other with
  | zero =>
    obtain ⟨s, hs, rfl⟩ := h
    obtain ⟨_, t, ht, ⟨⟩, rfl⟩ := hother
    exact ⟨t, hs.converted ht, rfl⟩
  | succ depth ih =>
    have hbelow : ∀ (text : List Char) (document : Json (Scalar Number)) (other : Json (Scalar ν)),
        DocumentText some depth text document →
        Relates (Scalar.ConvertsTo convert) depth document other →
        DocumentText convert depth text other := fun _ _ _ => ih
    obtain ⟨s, hs, rfl⟩ | ⟨inner, items, hinner, rfl, rfl⟩ | ⟨inner, members, hinner, rfl, rfl⟩ := h
    · obtain ⟨_, t, ht, ⟨⟩, rfl⟩ | ⟨_, _, _, ⟨⟩, _⟩ | ⟨_, _, _, ⟨⟩, _⟩ := hother
      exact .inl ⟨t, hs.converted ht, rfl⟩
    · obtain ⟨_, _, _, ⟨⟩, _⟩ | ⟨_, others, hitems, ⟨⟩, rfl⟩ | ⟨_, _, _, ⟨⟩, _⟩ := hother
      exact .inr (.inl ⟨inner, others, hinner.converted hbelow hitems, rfl, rfl⟩)
    · obtain ⟨_, _, _, ⟨⟩, _⟩ | ⟨_, _, _, ⟨⟩, _⟩ | ⟨_, others, hmembers, ⟨⟩, rfl⟩ := hother
      refine .inr (.inr ⟨inner, others, hinner.converted ?_ hmembers, rfl, rfl⟩)
      exact fun _ _ _ hmember hother => hmember.converted hbelow hother

/-- **The literals of a text** can be converted one by one. -/
theorem Writes.converted {depth : ℕ} {chars : List Char} {document : Json (Scalar Number)}
    {other : Json (Scalar ν)} (h : Writes some depth chars document)
    (hother : Relates (Scalar.ConvertsTo convert) depth document other) :
    Writes convert depth chars other := by
  obtain ⟨front, text, back, hfront, htext, hback, rfl⟩ := h
  exact ⟨front, text, back, hfront, htext.converted hother, hback, rfl⟩

end Convert

end Json

/-! ## Laws -/

open Json in
/-- What a library prints for a value. JSON has no number for a real that is not finite, so the
missing value stands for it. -/
def Value.literal [Library] : Value → Scalar Number
  | .null => .null
  | .bool b => .bool b
  | .integer n => .number (.ofInt n.toInt)
  | .real x => if x.isFinite then .number (Library.printReal x) else .null
  | .text s => .text s

open Json in
/-- A scalar is what a library prints for a value. -/
def Value.PrintsAs [Library] (v : Value) (s : Scalar Number) : Prop := s = v.literal

open Json in
/-- A value prints as its literal. -/
lemma Value.printsAs_literal [Library] (v : Value) : v.PrintsAs v.literal := rfl

namespace Json

/-- The printer and the reader of numbers agree on a real: the literal that is printed for it is
read as this real. A real that is not finite has no literal. -/
def AgreeOn [Library] (x : Binary64) : Prop :=
  x.isFinite = true → Library.readNumber? (Library.printReal x) = some (.real x)

/-- A library that prints and reads JSON as it is documented. -/
class LawfulLibrary [Library] : Prop where
  /-- A text is read as a shape exactly if it writes a document of the shape, in which containers
  are nested at most 127 deep and no number is out of range. -/
  readAs_eq_ok_iff {α : Type} (shape : Json (Scalar Numeral) → Option α) (text : String) (a : α) :
    Library.readAs shape text = .ok a ↔
      ∃ document, Writes Library.readNumber? maxDepth text.toList document ∧
        shape document = some a
  /-- The text of a document on one line writes what is printed for its values. -/
  compact_writes {depth : ℕ} {document : Json Value} {printed : Json (Scalar Number)}
    (h : Relates Value.PrintsAs depth document printed) :
    Writes some depth (Library.compact document).toList printed
  /-- So does its text on several lines. -/
  pretty_writes {depth : ℕ} {document : Json Value} {printed : Json (Scalar Number)}
    (h : Relates Value.PrintsAs depth document printed) :
    Writes some depth (Library.pretty document).toList printed
  /-- The decimal digits of a whole number that is not negative are read as this number. -/
  readNumber?_natural (n : UInt64) : Library.readNumber? (.ofInt n.toNat) = some (.unsigned n)
  /-- The decimal digits of a negative whole number are read as this number. -/
  readNumber?_negative (n : Int64) (h : n.toInt < 0) :
    Library.readNumber? (.ofInt n.toInt) = some (.signed n)
  /-- A literal with a point or an exponent is read as a finite real, if it is in range. -/
  readNumber?_marked {literal : Number} (h : literal.IsMarked) {n : Numeral}
    (hn : Library.readNumber? literal = some n) : ∃ x : Binary64, x.isFinite = true ∧ n = .real x
  /-- The literal of a finite real has its sign, a point or an exponent, and a magnitude to which
  this real is the nearest one. -/
  printReal_denotes (negative : Bool) (rank : Fin Binary64.finiteCount) :
    ∃ m ∈ Binary64.cell rank, (Library.printReal (.finite negative rank)).Denotes negative m
  /-- The literal of a finite real is in range. -/
  readNumber?_printReal (x : Binary64) (h : x.isFinite = true) :
    (Library.readNumber? (Library.printReal x)).isSome = true

end Json

end BoundSql
