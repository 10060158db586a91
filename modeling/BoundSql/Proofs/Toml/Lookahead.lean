import BoundSql.Toml.Reader
import Mathlib.Data.List.TakeWhile

/-!
# How far readers of TOML look

A reader looks behind what it reads, but no further than to the end of the line, and it takes a line
feed for a carriage return with a line feed. So what was read once is read again from a printed
text, where carriage returns are gone and something else may stand behind the line.

## Main definitions

* `BoundSql.Toml.clean` — a text as it is printed, without carriage returns.
* `BoundSql.Toml.Whole` — a text whose carriage returns all stand before line feeds.
* `BoundSql.Toml.SameLine` — two texts that agree up to the end of their first lines.
* `BoundSql.Toml.Reads` — a reader reads a part of a text, and reads it again when it is printed.

## Main results

* `BoundSql.Toml.SameLine.append` — printed texts agree with the texts themselves.
* `BoundSql.Toml.span_again` — a run of characters that ends with the line is found again.
-/

namespace BoundSql.Toml

/-! ## Printed texts -/

/-- A text without carriage returns. -/
def clean (chars : List Char) : List Char := chars.filter (· ≠ '\r')

/-- There is nothing to clean in the empty text. -/
@[simp] lemma clean_nil : clean [] = [] := rfl

/-- Texts are cleaned part by part. -/
@[simp] lemma clean_append (a b : List Char) : clean (a ++ b) = clean a ++ clean b :=
  List.filter_append ..

/-- A carriage return is dropped. -/
@[simp] lemma clean_return (rest : List Char) : clean ('\r' :: rest) = clean rest := rfl

/-- Every other character is kept. -/
lemma clean_cons {c : Char} (hc : c ≠ '\r') (rest : List Char) :
    clean (c :: rest) = c :: clean rest := by
  simp [clean, hc]

/-- A text without carriage returns is clean. -/
lemma clean_eq_self {chars : List Char} (h : '\r' ∉ chars) : clean chars = chars := by
  rw [clean, List.filter_eq_self]
  intro c hc
  exact decide_eq_true fun heq => h (heq ▸ hc)

/-- Carriage returns stand before line feeds only. -/
inductive Whole : List Char → Prop
  | nil : Whole []
  | lineEnd {rest : List Char} (h : Whole rest) : Whole ('\r' :: '\n' :: rest)
  | cons {c : Char} {rest : List Char} (hc : c ≠ '\r') (h : Whole rest) : Whole (c :: rest)

/-- Whole texts make up a whole one. -/
lemma Whole.append {a b : List Char} (ha : Whole a) (hb : Whole b) : Whole (a ++ b) := by
  induction ha with
  | nil => exact hb
  | lineEnd _ ih => exact .lineEnd ih
  | cons hc _ ih => exact .cons hc ih

/-- Without carriage returns every line end is whole. -/
lemma Whole.of_not_mem {chars : List Char} (h : '\r' ∉ chars) : Whole chars := by
  induction chars with
  | nil => exact .nil
  | cons c rest ih =>
    rw [List.mem_cons, not_or] at h
    exact .cons (Ne.symm h.1) (ih h.2)

/-! ## Lines -/

/-- A line ends here, or the text does. -/
def AtEnd (chars : List Char) : Prop := chars = [] ∨ startsBreak chars = true

/-- Two texts whose first lines are the same. -/
inductive SameLine : List Char → List Char → Prop
  | ended {rest rest' : List Char} (h : AtEnd rest) (h' : AtEnd rest') : SameLine rest rest'
  | cons {c : Char} {rest rest' : List Char} (hn : c ≠ '\n') (hr : c ≠ '\r')
    (h : SameLine rest rest') : SameLine (c :: rest) (c :: rest')

/-- A character other than a carriage return starts a line end if it is a line feed. -/
lemma startsBreak_cons {c : Char} (hr : c ≠ '\r') (rest : List Char) :
    startsBreak (c :: rest) = decide (c = '\n') := by
  by_cases hn : c = '\n'
  · subst hn
    rfl
  · rw [startsBreak, decide_eq_false hn]
    · exact fun _ h => hn (List.cons.inj h).1
    · exact fun _ h => hr (List.cons.inj h).1

/-- A character other than a carriage return ends a line if it is a line feed. -/
lemma atEnd_cons_iff {c : Char} {rest : List Char} (hr : c ≠ '\r') :
    AtEnd (c :: rest) ↔ c = '\n' := by
  rw [AtEnd, startsBreak_cons hr]
  simp

namespace SameLine

/-- Being on the same line is symmetric. -/
lemma symm {rest rest' : List Char} (h : SameLine rest rest') : SameLine rest' rest := by
  induction h with
  | ended h h' => exact .ended h' h
  | cons hn hr _ ih => exact .cons hn hr ih

/-- **A printed text** agrees with the text itself. -/
theorem append {w rest rest' : List Char} (hw : Whole w) (h : SameLine rest rest') :
    SameLine (w ++ rest) (clean w ++ rest') := by
  induction hw with
  | nil => exact h
  | lineEnd _ _ =>
    rw [clean_return, clean_cons (by decide)]
    exact .ended (.inr rfl) (.inr rfl)
  | @cons c w hc _ ih =>
    rw [clean_cons hc]
    by_cases hn : c = '\n'
    · subst hn
      exact .ended (.inr rfl) (.inr rfl)
    · exact .cons hn hc ih

/-- The next character of the line is the same. -/
lemma of_cons {c : Char} {rest rest' : List Char} (h : SameLine (c :: rest) rest')
    (hn : c ≠ '\n') (hr : c ≠ '\r') : ∃ tail, rest' = c :: tail ∧ SameLine rest tail := by
  cases h with
  | ended h _ => exact absurd ((atEnd_cons_iff hr).1 h) hn
  | cons _ _ h => exact ⟨_, rfl, h⟩

/-- Two characters in a row are the same. -/
lemma not_two {c : Char} {rest rest' : List Char} (h : SameLine rest rest') (hn : c ≠ '\n')
    (hr : c ≠ '\r') (hnot : ∀ tail, rest' ≠ c :: c :: tail) : ∀ tail, rest ≠ c :: c :: tail := by
  rintro tail rfl
  obtain ⟨first, rfl, hfirst⟩ := h.of_cons hn hr
  obtain ⟨second, rfl, -⟩ := hfirst.of_cons hn hr
  exact hnot second rfl

/-- Runs of characters that end with the line are the same. -/
lemma takeWhile {p : Char → Bool} (hn : p '\n' = false) (hr : p '\r' = false)
    {rest rest' : List Char} (h : SameLine rest rest') :
    rest'.takeWhile p = rest.takeWhile p ∧
      SameLine (rest.dropWhile p) (rest'.dropWhile p) := by
  have hended : ∀ {chars}, AtEnd chars → chars.takeWhile p = [] ∧ chars.dropWhile p = chars := by
    rintro (_ | ⟨c, tail⟩) hend
    · exact ⟨rfl, rfl⟩
    · have hc : p c = false := by
        by_cases hreturn : c = '\r'
        · rwa [hreturn]
        · rwa [(atEnd_cons_iff hreturn).1 hend]
      exact ⟨List.takeWhile_cons_of_neg (by simp [hc]), List.dropWhile_cons_of_neg (by simp [hc])⟩
  induction h with
  | ended h h' =>
    rw [(hended h).1, (hended h).2, (hended h').1, (hended h').2]
    exact ⟨rfl, .ended h h'⟩
  | @cons c rest rest' hcn hcr h ih =>
    cases hc : p c with
    | true =>
      rw [List.takeWhile_cons_of_pos hc, List.takeWhile_cons_of_pos hc,
        List.dropWhile_cons_of_pos hc, List.dropWhile_cons_of_pos hc, ih.1]
      exact ⟨rfl, ih.2⟩
    | false =>
      have hneg : ¬ p c = true := by simp [hc]
      rw [List.takeWhile_cons_of_neg hneg, List.takeWhile_cons_of_neg hneg,
        List.dropWhile_cons_of_neg hneg, List.dropWhile_cons_of_neg hneg]
      exact ⟨rfl, .cons hcn hcr h⟩

end SameLine

/-- A run of characters that ends with the line is found again. -/
lemma span_again {p : Char → Bool} (hn : p '\n' = false) (hr : p '\r' = false)
    {chars rest' : List Char} (h : SameLine (chars.dropWhile p) rest') :
    (chars.takeWhile p ++ rest').takeWhile p = chars.takeWhile p ∧
      (chars.takeWhile p ++ rest').dropWhile p = rest' := by
  have hreturn : '\r' ∉ chars.takeWhile p := by
    intro hmem
    have hp := List.mem_takeWhile_imp hmem
    rw [hr] at hp
    cases hp
  have hsame : SameLine (chars.takeWhile p ++ chars.dropWhile p) (chars.takeWhile p ++ rest') := by
    have := SameLine.append (Whole.of_not_mem hreturn) h
    rwa [clean_eq_self hreturn] at this
  rw [List.takeWhile_append_dropWhile] at hsame
  have htake := (hsame.takeWhile hn hr).1
  refine ⟨htake, ?_⟩
  have hsplit := List.takeWhile_append_dropWhile (p := p) (l := chars.takeWhile p ++ rest')
  rw [htake] at hsplit
  exact List.append_cancel_left hsplit

/-! ## Reading again -/

/-- A reader reads a part of a text up to a rest, and reads it again from a printed text, whatever
stands behind the line there. -/
structure Reads {α : Type} (read : List Char → Option (α × List Char)) (part : List Char) (a : α)
    (rest : List Char) : Prop where
  /-- The carriage returns of the part are those of line ends. -/
  whole : Whole part
  /-- The printed part is read again. -/
  again : ∀ rest', SameLine rest rest' → read (clean part ++ rest') = some (a, rest')

end BoundSql.Toml
